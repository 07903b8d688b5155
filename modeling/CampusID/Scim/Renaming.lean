import CampusID.Lifecycle.Accounts
import CampusID.Scim.Leaving

/-!
# Is every account disabled when a person leaves?

An account is created under the ePPN a person has at the time, and the leaver sequence
disables one login.  Which one depends on how the person leaves: a write that keeps the
person's identifiers disables the name it carries, and a deletion, which releases them
all first, the name that was issued first.

So a person who was renamed in between has accounts under two names, or under a name
other than the one that is picked.  `disables_every_account_iff` says exactly when
nothing is left behind: every account still open carries the name the person leaves
under.
-/

namespace CampusID

open Lib

/-! ## The name after a write -/

theorem wanted_emails (emails : List (String × Bool)) (userName : String)
    {d : List ((IdType × String) × Bool)}
    (hone : ∀ entry ∈ d, entry.1.1 = .eppn → entry.1.2 = userName)
    (hmem : (IdType.eppn, userName) ∈ d.map Prod.fst) :
    (∀ entry ∈ emails.foldl (fun d email => assign d (.mail, email.1) email.2) d,
        entry.1.1 = .eppn → entry.1.2 = userName) ∧
      (IdType.eppn, userName) ∈
        (emails.foldl (fun d email => assign d (.mail, email.1) email.2) d).map Prod.fst := by
  induction emails generalizing d with
  | nil => exact ⟨hone, hmem⟩
  | cons email emails ih =>
    refine ih (fun entry hentry htype => ?_) (keys_assign _ _ hmem)
    rcases mem_assign hentry with hold | rfl
    · exact hone entry hold htype
    · cases htype

/-- **A client wants one ePPN**: the user name. -/
theorem wantedIdentifiers_eppn (parsed : ParsedUser) :
    (∀ entry ∈ wantedIdentifiers parsed, entry.1.1 = .eppn → entry.1.2 = parsed.userName) ∧
      (IdType.eppn, parsed.userName) ∈ (wantedIdentifiers parsed).map Prod.fst := by
  obtain ⟨hone, hmem⟩ := wanted_emails parsed.emails parsed.userName
    (d := [((.eppn, parsed.userName), true)]) (by simp) (by simp)
  unfold wantedIdentifiers
  cases parsed.employeeNumber with
  | none => exact ⟨hone, hmem⟩
  | some number =>
    by_cases hempty : number = ""
    · simp only [hempty, if_true]
      exact ⟨hone, hmem⟩
    · simp only [hempty, if_false]
      refine ⟨fun entry hentry htype => ?_, keys_assign _ _ hmem⟩
      rcases mem_assign hentry with hold | rfl
      · exact hone entry hold htype
      · cases htype

/-- **What reconciling leaves**: of the person's live ePPNs only those wanted, and for
every wanted key a live row, or the key again. -/
theorem reconcileIdentifiers_eppn (personUuid : String) (now : Int) (rows : List Identifier)
    (wanted : List ((IdType × String) × Bool)) :
    (∀ row ∈ (reconcileIdentifiers personUuid now rows wanted).1, row.personUuid = personUuid →
        row.Live → row.idType = .eppn → (row.idType, row.value) ∈ wanted.map Prod.fst) ∧
      (∀ entry ∈ (reconcileIdentifiers personUuid now rows wanted).2, entry ∈ wanted) ∧
      ∀ key ∈ wanted.map Prod.fst,
        (∃ row ∈ (reconcileIdentifiers personUuid now rows wanted).1,
          row.personUuid = personUuid ∧ row.Live ∧ (row.idType, row.value) = key) ∨
        key ∈ (reconcileIdentifiers personUuid now rows wanted).2.map Prod.fst := by
  induction rows generalizing wanted with
  | nil => exact ⟨by simp [reconcileIdentifiers], fun _ h => h, fun _ h => Or.inr h⟩
  | cons row rows ih =>
    -- a row that stays as it is, or is released, behaves like one that is not there
    have hskip : ∀ row', (row'.personUuid = personUuid → row'.Live → row'.idType ≠ .eppn) →
        let rest := reconcileIdentifiers personUuid now rows wanted
        (∀ r ∈ row' :: rest.1, r.personUuid = personUuid → r.Live → r.idType = .eppn →
            (r.idType, r.value) ∈ wanted.map Prod.fst) ∧
          (∀ entry ∈ rest.2, entry ∈ wanted) ∧
          ∀ key ∈ wanted.map Prod.fst,
            (∃ r ∈ row' :: rest.1, r.personUuid = personUuid ∧ r.Live ∧
              (r.idType, r.value) = key) ∨ key ∈ rest.2.map Prod.fst := by
      intro row' hrow'
      obtain ⟨hlive, hleft, hkey⟩ := ih wanted
      refine ⟨fun r hr hp hl ht => ?_, hleft, fun key hk => ?_⟩
      · rcases List.mem_cons.mp hr with rfl | hr
        · exact absurd ht (hrow' hp hl)
        · exact hlive r hr hp hl ht
      · refine (hkey key hk).imp_left ?_
        rintro ⟨r, hr, hrest⟩
        exact ⟨r, List.mem_cons_of_mem _ hr, hrest⟩
    rw [reconcileIdentifiers]
    by_cases hmine : row.personUuid = personUuid ∧ row.Live
    · rw [if_pos hmine]
      cases hlookup : wanted.lookup (row.idType, row.value) with
      | none =>
        by_cases hmanaged : row.idType = .eppn ∨ row.idType = .mail ∨ row.idType = .employeeId
        · simp only [hmanaged, if_true]
          exact hskip _ fun _ hl => absurd hl (by simp [releaseIdentifier, Identifier.Live])
        · simp only [hmanaged, if_false]
          exact hskip _ fun _ _ ht => hmanaged (Or.inl ht)
      | some isPrimary =>
        have hkeyed : (row.idType, row.value) ∈ wanted.map Prod.fst := by
          obtain ⟨xs, ys, rfl, -⟩ := List.lookup_eq_some_iff.mp hlookup
          simp
        obtain ⟨hlive, hleft, hkey⟩ :=
          ih (wanted.filter (·.1 ≠ (row.idType, row.value)))
        refine ⟨fun r hr hp hl ht => ?_, fun entry he => ?_, fun key hk => ?_⟩
        · rcases List.mem_cons.mp hr with rfl | hr
          · exact hkeyed
          · obtain ⟨entry, he, hkeq⟩ := List.mem_map.mp (hlive r hr hp hl ht)
            exact List.mem_map.mpr ⟨entry, List.mem_of_mem_filter he, hkeq⟩
        · exact List.mem_of_mem_filter (hleft entry he)
        · by_cases hthis : key = (row.idType, row.value)
          · exact Or.inl ⟨_, List.mem_cons_self, hmine.1, hmine.2, hthis.symm⟩
          · obtain ⟨entry, he, rfl⟩ := List.mem_map.mp hk
            refine (hkey entry.1 (List.mem_map.mpr ⟨entry, ?_, rfl⟩)).imp_left ?_
            · exact List.mem_filter.mpr ⟨he, by simpa using hthis⟩
            · rintro ⟨r, hr, hrest⟩
              exact ⟨r, List.mem_cons_of_mem _ hr, hrest⟩
    · rw [if_neg hmine]
      exact hskip row fun hp hl => absurd ⟨hp, hl⟩ hmine

/-- **Replaced identifiers**: the live ePPNs of the person are the user name, and there
is one. -/
theorem replaceIdentifiers_eppn {lower : String → String} {personUuid : String}
    {parsed : ParsedUser} {now : Int} {rows rows' : List Identifier}
    (h : replaceIdentifiers lower personUuid parsed now rows = .ok rows') :
    (∀ row ∈ rows', row.personUuid = personUuid → row.Live → row.idType = .eppn →
        row.value = parsed.userName) ∧
      ∃ row ∈ rows', row.personUuid = personUuid ∧ row.Live ∧ row.idType = .eppn := by
  obtain ⟨hone, hmem⟩ := wantedIdentifiers_eppn parsed
  obtain ⟨hlive, hleft, hkey⟩ :=
    reconcileIdentifiers_eppn personUuid now rows (wantedIdentifiers parsed)
  unfold replaceIdentifiers addIdentifiers at h
  simp only at h
  split_ifs at h
  obtain rfl := Except.ok.inj h
  refine ⟨fun row hrow hp hl ht => ?_, ?_⟩
  · rcases List.mem_append.mp hrow with hold | hnew
    · obtain ⟨entry, he, hkeq⟩ := List.mem_map.mp (hlive row hold hp hl ht)
      have htype : entry.1.1 = .eppn := by rw [hkeq]; exact ht
      rw [← hone entry he htype, hkeq]
    · obtain ⟨entry, he, rfl⟩ := List.mem_map.mp hnew
      exact hone entry (hleft entry he) ht
  · rcases hkey _ hmem with ⟨row, hrow, hp, hl, hkeq⟩ | hrest
    · exact ⟨row, List.mem_append_left _ hrow, hp, hl, congrArg Prod.fst hkeq⟩
    · obtain ⟨entry, he, hkeq⟩ := List.mem_map.mp hrest
      refine ⟨_, List.mem_append_right _ (List.mem_map.mpr ⟨entry, he, rfl⟩), rfl, rfl, ?_⟩
      exact congrArg Prod.fst hkeq

namespace Registry

variable {Doc : Type}

/-- The ePPN that was issued to the person first. -/
def firstEppn (registry : Registry Doc) (personUuid : String) : Option String :=
  (((registry.allIdentifiers personUuid).filter (·.idType = .eppn)).head?).map Identifier.value

theorem loginFor_of_released {registry registry' : Registry Doc} {personUuid : String} {now : Int}
    (h : registry'.identifiers = registry.identifiers.map fun row =>
      if row.personUuid = personUuid ∧ row.Live then releaseIdentifier now row else row) :
    registry'.loginFor personUuid = registry.firstEppn personUuid := by
  let released : Identifier → Identifier := fun row =>
    if row.personUuid = personUuid ∧ row.Live then releaseIdentifier now row else row
  have hsame : ∀ row, (released row).personUuid = row.personUuid ∧
      (released row).idType = row.idType ∧ (released row).value = row.value ∧
      (released row).issuedAt = row.issuedAt := by
    intro row
    simp only [released]
    split_ifs <;> exact ⟨rfl, rfl, rfl, rfl⟩
  have hall : registry'.allIdentifiers personUuid =
      (registry.allIdentifiers personUuid).map released := by
    have hperson : ((fun row : Identifier => decide (row.personUuid = personUuid)) ∘ released) =
        fun row => decide (row.personUuid = personUuid) := by
      funext row
      simp [(hsame row).1]
    unfold allIdentifiers
    rw [h, List.filter_map, hperson]
    refine (List.map_insertionSort _ _ released _ fun a _ b _ => ?_).symm
    rw [(hsame a).2.2.2, (hsame b).2.2.2]
  have heppns : (registry'.allIdentifiers personUuid).filter (·.idType = .eppn) =
      ((registry.allIdentifiers personUuid).filter (·.idType = .eppn)).map released := by
    have htype : ((fun row : Identifier => decide (row.idType = .eppn)) ∘ released) =
        fun row => decide (row.idType = .eppn) := by
      funext row
      simp [(hsame row).2.1]
    rw [hall, List.filter_map, htype]
  have hnone : ((registry'.allIdentifiers personUuid).filter (·.idType = .eppn)).filter (·.Live) =
      [] := by
    rw [heppns, List.filter_eq_nil_iff]
    intro row hrow
    obtain ⟨old, hold, rfl⟩ := List.mem_map.mp hrow
    have hp := (mem_allIdentifiers.mp (List.mem_of_mem_filter hold)).2
    rw [decide_eq_true_eq]
    by_cases hl : old.Live
    · rw [show released old = releaseIdentifier now old from if_pos ⟨hp, hl⟩]
      simp [releaseIdentifier, Identifier.Live]
    · rwa [show released old = old from if_neg fun h => hl h.2]
  have hvalue : Identifier.value ∘ released = Identifier.value := by
    funext row
    exact (hsame row).2.2.1
  unfold loginFor
  simp only [hnone]
  rw [heppns, List.head?_map, Option.map_map, hvalue]
  rfl

end Registry

/-! ## Runs -/

/-- One step of a run: a write of a client, a transition reported by somebody else, or
time passing. -/
inductive AccountOp (Doc : Type) where
  | tick (elapsed days : Int)
  | write (personUuid : String) (write : UserWrite Doc)
  | transitioned (personUuid : String) (before after : Finset String) (source : Source)
      (on : Option Int)

namespace UserStore

variable {Doc δ E : Type} (store : UserStore Doc δ E) (o : Orchestrator δ E)

/-- One step. -/
def step (w : World Doc δ) : AccountOp Doc → World Doc δ
  | .tick elapsed days => { w with now := w.now + elapsed, today := w.today + days }
  | .write personUuid write => (((store.wire o).perform personUuid write).run w).2
  | .transitioned personUuid before after source on =>
    ((o.transitioned personUuid before after source on).run w).2

/-- The name a person leaves under: the one the write carries, the one issued first when
they are deleted, and the one the registry gives otherwise. -/
def leavingName (w : World Doc δ) : AccountOp Doc → Option String
  | .write _ (.replace parsed _ _) | .write _ (.applyPatched parsed _ _) =>
    if o.identity then some parsed.userName else none
  | .write personUuid (.softDelete _) =>
    if o.identity then w.registry.firstEppn personUuid else none
  | .transitioned personUuid _ _ _ _ => o.seenLogin w.registry personUuid
  | _ => none

/-- No account of the person is open. -/
def NoAccount (calls : List Call) (personUuid : String) : Prop :=
  ∀ i < o.targets.length, ∀ login, ¬ Orchestrator.Outstanding i personUuid login calls

/-- Every open account of the person carries this name. -/
def AccountsUnder (calls : List Call) (personUuid : String) (name : Option String) : Prop :=
  ∀ i < o.targets.length, ∀ login, Orchestrator.Outstanding i personUuid login calls →
    name = some login

/-! ## What a step calls -/

/-- The calls a step adds: upkeep, or a leaver under the given name. -/
inductive Added (o : Orchestrator δ E) (name : Option String) : List Call → Prop
  | upkeep {made : List Call} (h : ∀ c ∈ made, ∃ personUuid, Orchestrator.IsUpkeep personUuid c) :
      Added o name made
  | leaver (personUuid : String) (delta : Delta) (sids : List String) :
      Added o name (name.elim [] (o.disableCalls personUuid) ++
        o.leaverCalls personUuid delta sids)

theorem Added.nothing {name : Option String} : Added o name [] := .upkeep (by simp)

section Willing

variable {o} (hwilling : ∀ target ∈ o.targets, target.Willing)
include hwilling

/-- **What a transition calls.** -/
theorem transitioned_added (personUuid : String) (before after : Finset String) (source : Source)
    (on : Option Int) {w : World Doc δ} {name : Option String}
    (hname : after = ∅ → before ≠ ∅ → o.seenLogin w.registry personUuid = name) :
    ∃ made, ((o.transitioned personUuid before after source on).run w).2.calls =
      w.calls ++ made ∧ Added o name made := by
  by_cases hroute : after = ∅ ∧ before ≠ ∅
  · obtain ⟨delta, -, -, hcalls⟩ :=
      Orchestrator.deprovision_of_willing hwilling personUuid before source on w
    rw [hname hroute.1 hroute.2] at hcalls
    rw [Orchestrator.transitioned, if_pos hroute]
    exact ⟨_, hcalls, .leaver _ _ _⟩
  · obtain ⟨-, -, -, made, hmade, hkind⟩ := o.transitioned_upkeep personUuid hroute source on w
    exact ⟨made, hmade, .upkeep fun c hc => ⟨personUuid, hkind c hc⟩⟩

theorem tell_added (personUuid : String) (before after : Finset String) {w : World Doc δ}
    {name : Option String}
    (hname : after = ∅ → before ≠ ∅ → o.seenLogin w.registry personUuid = name) :
    ∃ made, (((store.wire o).tell personUuid before after).run w).2.calls =
      w.calls ++ made ∧ Added o name made := by
  have hrun : (((store.wire o).tell personUuid before after).run w).2 =
      ((o.transitioned personUuid before after : Action Doc δ E _).run w).2 :=
    Eff.run_bind_pure_snd _ _ w
  rw [hrun]
  exact transitioned_added hwilling personUuid before after .scim none hname

theorem told_added (personUuid : String) (before after : Finset String) {w : World Doc δ}
    {name : Option String}
    (hname : after = ∅ → before ≠ ∅ → o.seenLogin w.registry personUuid = name) :
    ∃ made, (((store.wire o).transitioned personUuid before after).run w).2.calls =
      w.calls ++ made ∧ Added o name made := by
  unfold UserStore.transitioned
  split_ifs with heq
  · exact ⟨[], by simp, Added.nothing o⟩
  · exact store.tell_added hwilling personUuid before after hname

theorem create_added (personUuid : String) (parsed : ParsedUser) (raw : Doc) (w : World Doc δ) :
    ∃ made, (((store.wire o).create parsed raw personUuid).run w).2.calls = w.calls ++ made ∧
      Added o none made := by
  unfold create
  cases htx : (store.wire o).createRows parsed raw personUuid w.now w.registry with
  | error e =>
    rw [Eff.run_bind_of_ok (run_transact_of_error htx)]
    exact ⟨[], by simp, Added.nothing o⟩
  | ok written =>
    obtain ⟨registry, resource, created⟩ := written
    rw [Eff.run_bind_of_ok (run_transact_of_ok htx)]
    cases created with
    | false => exact ⟨[], by simp, Added.nothing o⟩
    | true =>
      -- nobody had affiliations before they were created
      have hname : parsed.affiliationValues = ∅ → (∅ : Finset String) ≠ ∅ →
          o.seenLogin registry personUuid = none := fun _ hne => absurd rfl hne
      obtain ⟨made, hmade, hadded⟩ := store.told_added hwilling personUuid ∅
        parsed.affiliationValues (w := { w with registry := registry }) hname
      refine ⟨made, ?_, hadded⟩
      rw [← hmade]
      exact congrArg World.calls (Eff.run_bind_pure_snd _ (fun _ => _) _)

theorem replace_added (personUuid : String) (parsed : ParsedUser) (raw : Doc)
    (ifMatch : Option String) (w : World Doc δ) :
    ∃ made, (((store.wire o).replace personUuid parsed raw ifMatch).run w).2.calls =
      w.calls ++ made ∧
      Added o (if o.identity then some parsed.userName else none) made := by
  unfold replace
  cases htx : (store.wire o).replaceRows personUuid parsed raw ifMatch w.now w.today
    w.registry with
  | error e =>
    rw [Eff.run_bind_of_ok (run_transact_of_error htx)]
    exact ⟨[], by simp, Added.nothing o⟩
  | ok written =>
    obtain ⟨registry, resource, before, after⟩ := written
    rw [Eff.run_bind_of_ok (run_transact_of_ok htx)]
    obtain ⟨-, -, -, -, hids, -⟩ := (store.wire o).replaceRows_ok htx
    obtain ⟨hall, hsome⟩ := replaceIdentifiers_eppn hids
    have hseen : o.seenLogin registry personUuid =
        if o.identity then some parsed.userName else none := by
      unfold Orchestrator.seenLogin
      rw [Registry.loginFor_of_live hall hsome]
    obtain ⟨made, hmade, hadded⟩ := store.told_added hwilling personUuid before after
      (w := { w with registry := registry }) fun _ _ => hseen
    refine ⟨made, ?_, hadded⟩
    rw [← hmade]
    exact congrArg World.calls (Eff.run_bind_pure_snd _ (fun _ => _) _)

theorem softDelete_added (personUuid : String) (ifMatch : Option String) (w : World Doc δ) :
    ∃ made, (((store.wire o).softDelete personUuid ifMatch).run w).2.calls = w.calls ++ made ∧
      Added o (if o.identity then w.registry.firstEppn personUuid else none) made := by
  unfold softDelete
  cases htx : softDeleteRows personUuid ifMatch w.now w.today w.registry with
  | error e =>
    rw [Eff.run_bind_of_ok (run_transact_of_error htx)]
    exact ⟨[], by simp, Added.nothing o⟩
  | ok written =>
    obtain ⟨registry, before⟩ := written
    rw [Eff.run_bind_of_ok (run_transact_of_ok htx)]
    obtain ⟨-, -, hids, -⟩ := softDeleteRows_ok htx
    have hseen : o.seenLogin registry personUuid =
        if o.identity then w.registry.firstEppn personUuid else none := by
      unfold Orchestrator.seenLogin
      rw [Registry.loginFor_of_released hids]
    obtain ⟨made, hmade, hadded⟩ := store.tell_added hwilling personUuid before ∅
      (w := { w with registry := registry }) fun _ _ => hseen
    refine ⟨made, ?_, hadded⟩
    rw [← hmade]
    exact congrArg World.calls (Eff.run_bind_pure_snd _ (fun _ => _) _)

/-- **What a step calls.** -/
theorem step_added (w : World Doc δ) (op : AccountOp Doc) :
    ∃ made, (store.step o w op).calls = w.calls ++ made ∧ Added o (leavingName o w op) made := by
  cases op with
  | tick elapsed days => exact ⟨[], by simp [step], Added.nothing o⟩
  | transitioned personUuid before after source on =>
    exact transitioned_added hwilling personUuid before after source on fun _ _ => rfl
  | write personUuid write =>
    cases write with
    | create parsed raw =>
      obtain ⟨made, hmade, hadded⟩ := store.create_added hwilling personUuid parsed raw w
      exact ⟨made, (congrArg World.calls (Eff.run_bind_pure_snd _ _ w)).trans hmade, hadded⟩
    | replace parsed raw ifMatch =>
      obtain ⟨made, hmade, hadded⟩ :=
        store.replace_added hwilling personUuid parsed raw ifMatch w
      exact ⟨made, (congrArg World.calls (Eff.run_bind_pure_snd _ _ w)).trans hmade, hadded⟩
    | applyPatched parsed raw ifMatch =>
      obtain ⟨made, hmade, hadded⟩ :=
        store.replace_added hwilling personUuid parsed raw ifMatch w
      exact ⟨made, (congrArg World.calls (Eff.run_bind_pure_snd _ _ w)).trans hmade, hadded⟩
    | softDelete ifMatch => exact store.softDelete_added hwilling personUuid ifMatch w

/-- **A leaver leaves nothing open exactly when it leaves under the right name.** -/
theorem noAccount_iff_accountsUnder {w : World Doc δ} {op : AccountOp Doc} {personUuid : String}
    (hran : LeaverRan personUuid w (store.step o w op)) :
    NoAccount o (store.step o w op).calls personUuid ↔
      AccountsUnder o w.calls personUuid (leavingName o w op) := by
  obtain ⟨made, hmade, hadded⟩ := store.step_added hwilling w op
  obtain ⟨made', sids', hmade', hterm, -⟩ := hran
  obtain rfl := List.append_cancel_left (hmade.symm.trans hmade')
  cases hadded with
  | upkeep hkind =>
    obtain ⟨q, ⟨delta, hc⟩ | ⟨i, spec, hc⟩ | hc⟩ := hkind _ hterm <;> cases hc
  | leaver q delta sids =>
    obtain rfl : personUuid = q := by
      rcases List.mem_append.mp hterm with hc | hc
      · cases hname : leavingName o w op with
        | none => simp [hname] at hc
        | some login => simp [hname, Orchestrator.disableCalls] at hc
      · simp only [Orchestrator.leaverCalls, List.cons_append, List.mem_cons, List.mem_append,
          List.mem_map] at hc
        rcases hc with hc | ⟨sid, -, hc⟩ | hc | hc
        · injection hc
        · cases hc
        · cases hc
        · split_ifs at hc <;> simp at hc
    unfold NoAccount AccountsUnder
    rw [hmade]
    constructor
    · intro h i hi login hopen
      by_contra hne
      exact h i hi login ((o.outstanding_after_leaver hi).mpr ⟨hopen, hne⟩)
    · intro h i hi login hopen
      obtain ⟨hold, hne⟩ := (o.outstanding_after_leaver hi).mp hopen
      exact hne (h i hi login hold)

/-- Something holds of every step of a run that ran the leaver sequence for somebody. -/
def EveryLeaver (store : UserStore Doc δ E) (o : Orchestrator δ E) (w : World Doc δ)
    (ops : List (AccountOp Doc)) (P : World Doc δ → AccountOp Doc → String → Prop) : Prop :=
  ∀ pre op post, ops = pre ++ op :: post → ∀ personUuid,
    LeaverRan personUuid (pre.foldl (store.step o) w)
      (store.step o (pre.foldl (store.step o) w) op) →
    P (pre.foldl (store.step o) w) op personUuid

/-- **Every leaver disables every account**, in exactly the runs in which every open
account carries the name its person leaves under. -/
theorem disables_every_account_iff (w : World Doc δ) (ops : List (AccountOp Doc)) :
    EveryLeaver store o w ops (fun s op personUuid =>
        NoAccount o (store.step o s op).calls personUuid) ↔
      EveryLeaver store o w ops (fun s op personUuid =>
        AccountsUnder o s.calls personUuid (leavingName o s op)) := by
  constructor
  · intro h pre op post hops personUuid hran
    exact (store.noAccount_iff_accountsUnder hwilling hran).mp (h pre op post hops personUuid hran)
  · intro h pre op post hops personUuid hran
    exact (store.noAccount_iff_accountsUnder hwilling hran).mpr (h pre op post hops personUuid hran)

end Willing

/-! ### A new name -/

theorem willingTarget_willing : ∀ target ∈ willingOrchestrator.targets, target.Willing := by
  intro target htarget
  obtain rfl := List.mem_singleton.mp htarget
  exact ⟨fun _ _ => rfl, fun _ _ => rfl⟩

/-- A student. -/
def student : ParsedAffiliation := ⟨"student", true, none, 0, none⟩

/-- The calls that give `p` an account. -/
def givenAccount (uid login : String) : List Call :=
  [.appliedDelta "p" {}, .provisioned 0 "p" ⟨uid, "", uid, none, none, some login⟩,
    .invalidatedDecisions "p"]

/-- Somebody who is created and deleted under one name. -/
def sameName : List (AccountOp Unit) :=
  [.write "p" (.create (alice [student]) ()), .write "p" (.softDelete none)]

theorem disables_every_account_of_sameName :
    EveryLeaver plainStore willingOrchestrator emptyWorld sameName (fun s op personUuid =>
      NoAccount willingOrchestrator (plainStore.step willingOrchestrator s op).calls
        personUuid) := by
  refine (plainStore.disables_every_account_iff willingTarget_willing _ _).mpr ?_
  intro pre op post hops personUuid _ i hi login hopen
  match pre, hops with
  | [], hops => exact absurd hopen not_unanswered_nil
  | [_], hops =>
    simp only [sameName, List.cons_append, List.nil_append, List.cons.injEq] at hops
    obtain ⟨rfl, rfl, -⟩ := hops
    obtain ⟨xs, e, ys, hcalls, hopens, -⟩ := hopen
    have hmem : e ∈ givenAccount "alice" "alice@campus.edu" := by
      have hmade : e ∈ xs ++ e :: ys := by simp
      rw [← hcalls] at hmade
      exact hmade
    simp only [givenAccount, List.mem_cons, List.not_mem_nil, or_false] at hmem
    rcases hmem with rfl | rfl | rfl
    · exact hopens.elim
    · exact hopens.2.2
    · exact hopens.elim
  | _ :: _ :: pre, hops => simp [sameName] at hops

/-- Alice under another name, and with another affiliation. -/
def renamedAlice : ParsedUser where
  userName := "alice.b@campus.edu"
  affiliations := [student, ⟨"employee", false, none, 0, none⟩]

/-- Somebody who is renamed, provisioned again, and deleted. -/
def renamed : List (AccountOp Unit) :=
  [.write "p" (.create (alice [student]) ()), .write "p" (.replace renamedAlice () none),
    .write "p" (.softDelete none)]

/-- **An account left behind.**  The deletion disables the name that was issued first;
the account under the second is still open. -/
theorem account_left_after_renaming :
    ¬ ∀ (store : UserStore Unit Unit Empty) (o : Orchestrator Unit Empty) (w : World Unit Unit)
      (ops : List (AccountOp Unit)), (∀ target ∈ o.targets, target.Willing) →
      EveryLeaver store o w ops (fun s op personUuid =>
        NoAccount o (store.step o s op).calls personUuid) := by
  intro h
  let before := (renamed.take 2).foldl (plainStore.step willingOrchestrator) emptyWorld
  let after := plainStore.step willingOrchestrator before (.write "p" (.softDelete none))
  have hcalls : after.calls = (givenAccount "alice" "alice@campus.edu" ++ [.appliedDelta "p" {}]) ++
      .provisioned 0 "p" ⟨"alice.b", "", "alice.b", none, none, some "alice.b@campus.edu"⟩ ::
        [.invalidatedDecisions "p", .disabled 0 "p" "alice@campus.edu",
          .terminatedSubject "p" [], .appliedDelta "p" {}, .invalidatedDecisions "p"] := by
    decide
  have hran : LeaverRan "p" before after := by
    refine ⟨[.disabled 0 "p" "alice@campus.edu", .terminatedSubject "p" [], .appliedDelta "p" {},
      .invalidatedDecisions "p"], [], ?_, by simp, by simp⟩
    decide
  refine h plainStore willingOrchestrator emptyWorld renamed willingTarget_willing
    (renamed.take 2) _ [] rfl "p" hran 0 (by decide) "alice.b@campus.edu" ?_
  refine ⟨_, _, _, hcalls, ⟨rfl, rfl, rfl⟩, fun c hc hcloses => ?_⟩
  simp only [List.mem_cons, List.not_mem_nil, or_false] at hc
  rcases hc with rfl | rfl | rfl | rfl | rfl
  · exact hcloses
  · exact absurd hcloses.2 (by decide)
  · exact hcloses
  · exact hcloses
  · exact hcloses

end UserStore

end CampusID
