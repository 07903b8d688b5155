import CampusID.Identity.Resolution
import CampusID.Scim.Renaming
import CampusID.Scim.Transitions

/-!
# Is an ePPN ever given to two people?

Five methods write identifier rows.  Two of them look at every row first, two at the live ones
only and leave the tombstoned ones to the constraint, and the constraint sees a row with a scope
only, and only one with the same scope.

What counts is who holds a value, live or released (`holders`): no method takes a holder away,
and each says whom it adds.  `oneHolder_of_runs` says which writes of a client keep the holders
one: those that write no name of somebody else's tombstone that the constraint cannot see.
-/

namespace CampusID
namespace Identity

open Lib

/-! ## Holders -/

/-- Who holds a value, if the row is about an ePPN. -/
def holder (row : Identifier) : Option (String × String) :=
  if row.idType = .eppn then some (row.value, row.personUuid) else none

/-- Who holds or held which ePPN. -/
def holders (rows : List Identifier) : List (String × String) := rows.filterMap holder

/-- **No ePPN is carried by rows of two people**, live or released. -/
def OneHolder (rows : List Identifier) : Prop :=
  ∀ row ∈ rows, ∀ other ∈ rows, row.idType = .eppn → other.idType = .eppn →
    row.value = other.value → row.personUuid = other.personUuid

variable {rows rows' new : List Identifier} {value personUuid : String} {now today : Int}

/-- What of a row never changes. -/
def face (row : Identifier) : String × IdType × String × Option String :=
  (row.personUuid, row.idType, row.value, row.scope)

theorem mem_holders {entry : String × String} : entry ∈ holders rows ↔
    ∃ row ∈ rows, row.idType = .eppn ∧ row.value = entry.1 ∧ row.personUuid = entry.2 := by
  simp only [holders, List.mem_filterMap, holder]
  refine exists_congr fun row => and_congr_right fun _ => ?_
  split_ifs with htype
  · simp [htype, Prod.ext_iff]
  · simp [htype]

theorem oneHolder_iff : OneHolder rows ↔ ∀ entry ∈ holders rows, ∀ other ∈ holders rows,
    entry.1 = other.1 → entry.2 = other.2 := by
  constructor
  · intro h entry hentry other hother heq
    obtain ⟨row, hrow, htype, hvalue, hperson⟩ := mem_holders.mp hentry
    obtain ⟨row', hrow', htype', hvalue', hperson'⟩ := mem_holders.mp hother
    rw [← hperson, ← hperson']
    exact h row hrow row' hrow' htype htype' (by rw [hvalue, hvalue', heq])
  · intro h row hrow other hother htype htype' hvalue
    exact h (row.value, row.personUuid) (mem_holders.mpr ⟨row, hrow, htype, rfl, rfl⟩)
      (other.value, other.personUuid) (mem_holders.mpr ⟨other, hother, htype', rfl, rfl⟩) hvalue

theorem OneHolder.of_eq (hone : OneHolder rows) (h : holders rows' = holders rows) :
    OneHolder rows' := by
  rw [oneHolder_iff] at hone ⊢
  rwa [h]

@[simp] theorem holders_append : holders (rows ++ new) = holders rows ++ holders new :=
  List.filterMap_append

theorem holders_congr (h : rows.map face = rows'.map face) : holders rows = holders rows' := by
  have hfaces : ∀ rows : List Identifier, holders rows = (rows.map face).filterMap fun f =>
      if f.2.1 = .eppn then some (f.2.2.1, f.1) else none := fun rows => by
    rw [List.filterMap_map]
    rfl
  rw [hfaces, hfaces, h]

theorem exists_face (h : rows.map face = rows'.map face) {row : Identifier} (hrow : row ∈ rows) :
    ∃ row' ∈ rows', face row' = face row := by
  have hmem : face row ∈ rows'.map face := h ▸ List.mem_map_of_mem hrow
  exact List.mem_map.mp hmem

/-- What a write does to the holders: it adds some, all of this kind. -/
def Adds (kind : String × String → Prop) (rows rows' : List Identifier) : Prop :=
  ∃ added, holders rows' = holders rows ++ added ∧ ∀ entry ∈ added, kind entry

theorem Adds.mem {kind : String × String → Prop} (h : Adds kind rows rows')
    {entry : String × String} (hentry : entry ∈ holders rows) : entry ∈ holders rows' := by
  obtain ⟨added, heq, -⟩ := h
  rw [heq]
  exact List.mem_append_left _ hentry

/-- **One holder stays one** where a write adds one holder of one value, and nobody else holds
it. -/
theorem Adds.oneHolder (hone : OneHolder rows) (h : Adds (· = (value, personUuid)) rows rows')
    (hfree : ∀ entry ∈ holders rows, entry.1 = value → entry.2 = personUuid) :
    OneHolder rows' := by
  rw [oneHolder_iff] at hone ⊢
  obtain ⟨added, heq, hall⟩ := h
  rw [heq]
  intro entry hentry other hother hvalue
  rcases List.mem_append.mp hentry with hold | hnew <;>
    rcases List.mem_append.mp hother with hold' | hnew'
  · exact hone entry hold other hold' hvalue
  · obtain rfl := hall other hnew'
    exact hfree entry hold hvalue
  · obtain rfl := hall entry hnew
    exact (hfree other hold' hvalue.symm).symm
  · rw [hall entry hnew, hall other hnew']

/-! ## What each method adds -/

theorem addIdentifiers_ok (h : addIdentifiers rows new = .ok rows') :
    rows' = rows ++ new ∧ ∀ row ∈ new, ∀ other ∈ rows, ¬ row.Conflicts other := by
  unfold addIdentifiers at h
  split_ifs at h with hconflict
  obtain rfl := Except.ok.inj h
  exact ⟨rfl, fun row hrow other hother hc => hconflict ⟨row, hrow, other, hother, hc⟩⟩

theorem value_ne_of_not_taken {idType : IdType}
    (h : identifierTaken rows idType value = false) :
    ∀ other ∈ rows, other.idType = idType → other.value ≠ value := by
  rintro other hother htype rfl
  have htaken : identifierTaken rows idType other.value = true :=
    List.any_eq_true.mpr ⟨other, hother, by simp [htype]⟩
  rw [h] at htaken
  cases htaken

theorem ne_of_not_taken (h : identifierTaken rows .eppn value = false) :
    ∀ entry ∈ holders rows, entry.1 ≠ value := by
  intro entry hentry
  obtain ⟨row, hrow, htype, hvalue, -⟩ := mem_holders.mp hentry
  rw [← hvalue]
  exact value_ne_of_not_taken h row hrow htype

/-- At most one value was given out, to one person, and nobody held it. -/
def GivesNew (rows rows' : List Identifier) : Prop :=
  holders rows' = holders rows ∨ ∃ value personUuid, (∀ entry ∈ holders rows, entry.1 ≠ value) ∧
    holders rows' = holders rows ++ [(value, personUuid)]

theorem GivesNew.oneHolder (h : GivesNew rows rows') (hone : OneHolder rows) :
    OneHolder rows' := by
  rcases h with heq | ⟨value, personUuid, hfree, heq⟩
  · exact hone.of_eq heq
  · have hadds : Adds (· = (value, personUuid)) rows rows' := ⟨_, heq, by simp⟩
    exact hadds.oneHolder hone fun entry hentry hvalue => absurd hvalue (hfree entry hentry)

theorem holders_addIdentifiers (h : addIdentifiers rows new = .ok rows')
    (hother : ∀ row ∈ new, row.idType ≠ .eppn) : holders rows' = holders rows := by
  obtain ⟨rfl, -⟩ := addIdentifiers_ok h
  have hnone : holders new = [] :=
    List.filterMap_eq_nil_iff.mpr fun row hrow => by simp [holder, hother row hrow]
  rw [holders_append, hnone, List.append_nil]

theorem givesNew_addIdentifiers {row : Identifier} (htype : row.idType = .eppn)
    (hfree : identifierTaken rows .eppn row.value = false)
    (h : addIdentifiers rows [row] = .ok rows') : GivesNew rows rows' := by
  obtain ⟨rfl, -⟩ := addIdentifiers_ok h
  exact .inr ⟨row.value, row.personUuid, ne_of_not_taken hfree, by simp [holders, holder, htype]⟩

section Registry

variable {Doc : Type} {r : IdentityRegistry}

theorem givesNew_claimEppn {asserted : String}
    (h : r.claimEppn personUuid asserted now rows = .ok rows') : GivesNew rows rows' := by
  unfold IdentityRegistry.claimEppn at h
  dsimp only at h
  split_ifs at h with hfree
  · exact givesNew_addIdentifiers rfl (by simpa using hfree) h
  · split at h
    · rename_i suffix hsuffix
      exact givesNew_addIdentifiers rfl (by simpa using List.find?_some hsuffix) h
    · obtain rfl := Except.ok.inj h
      exact .inl rfl

theorem holders_keepUniqueId {assertion : Assertion}
    (h : r.keepUniqueId assertion personUuid now rows = .ok rows') :
    holders rows' = holders rows := by
  unfold IdentityRegistry.keepUniqueId at h
  split at h
  · obtain rfl := Except.ok.inj h
    rfl
  · exact holders_addIdentifiers h (by simp)

theorem holders_keepMail {assertion : Assertion}
    (h : r.keepMail assertion personUuid now rows = .ok rows') : holders rows' = holders rows := by
  unfold IdentityRegistry.keepMail at h
  split at h
  · obtain rfl := Except.ok.inj h
    rfl
  · split_ifs at h
    · obtain rfl := Except.ok.inj h
      rfl
    · exact holders_addIdentifiers h (by simp)

theorem givesNew_createIdentifiers {assertion : Assertion} {minted : Minted}
    (h : r.createIdentifiers assertion minted now rows = .ok rows') : GivesNew rows rows' := by
  obtain ⟨named, hnamed, h⟩ := Eff.except_bind_eq_ok.mp h
  obtain ⟨claimed, hclaimed, h⟩ := Eff.except_bind_eq_ok.mp h
  have hgives := givesNew_claimEppn hclaimed
  unfold GivesNew at hgives ⊢
  rwa [holders_keepMail h, ← holders_keepUniqueId hnamed]

/-- **`resolve` gives out only what nobody has or had.** -/
theorem givesNew_resolve {assertion : Assertion} {minted : Minted} {tables tables' : Tables Doc}
    {resolution : Resolution}
    (h : r.resolve assertion minted now tables = .ok (tables', resolution)) :
    GivesNew tables.registry.identifiers tables'.registry.identifiers := by
  unfold IdentityRegistry.resolve at h
  split at h
  · obtain ⟨accounts, -, h⟩ := Eff.except_bind_eq_ok.mp h
    cases h
    exact .inl rfl
  · split at h
    · cases h
      exact .inl rfl
    · split at h
      · obtain ⟨accounts, -, h⟩ := Eff.except_bind_eq_ok.mp h
        cases h
        exact .inl rfl
      · split_ifs at h
        · cases h
          exact .inl rfl
        · obtain ⟨registry, hcreate, h⟩ := Eff.except_bind_eq_ok.mp h
          obtain ⟨accounts, -, h⟩ := Eff.except_bind_eq_ok.mp h
          cases h
          obtain ⟨identifiers, hids, hcreate⟩ := Eff.except_bind_eq_ok.mp hcreate
          cases hcreate
          exact givesNew_createIdentifiers hids

/-- **So does `allocate_eppn`.** -/
theorem givesNew_allocateEppn {localPart name : String} {registry registry' : Registry Doc}
    (h : r.allocateEppn personUuid localPart now registry = .ok (registry', name)) :
    GivesNew registry.identifiers registry'.identifiers := by
  unfold IdentityRegistry.allocateEppn at h
  dsimp only at h
  split_ifs at h
  split at h
  · cases h
  · rename_i suffix hsuffix
    split at h
    · rename_i hadd
      cases h
      exact givesNew_addIdentifiers rfl (by simpa using List.find?_some hsuffix) hadd
    · cases h

theorem faces_tombstoneFirst (wanted : Identifier → Bool) :
    (IdentityRegistry.tombstoneFirst now wanted rows).map face = rows.map face := by
  induction rows with
  | nil => rfl
  | cons row rows ih =>
    rw [IdentityRegistry.tombstoneFirst]
    split_ifs
    · rfl
    · rw [List.map_cons, List.map_cons, ih]

end Registry

section Store

variable {Doc δ E : Type} {store : UserStore Doc δ E} {parsed : ParsedUser} {raw : Doc}
  {registry registry' : Registry Doc}

theorem faces_reconcileIdentifiers (wanted : List ((IdType × String) × Bool)) :
    (reconcileIdentifiers personUuid now rows wanted).1.map face = rows.map face := by
  induction rows generalizing wanted with
  | nil => rfl
  | cons row rows ih =>
    rw [reconcileIdentifiers]
    split
    · split
      · dsimp only
        rw [List.map_cons, List.map_cons, ih]
        rfl
      · dsimp only
        split
        · rw [List.map_cons, List.map_cons, ih]
          rfl
        · rw [List.map_cons, List.map_cons, ih]
    · dsimp only
      rw [List.map_cons, List.map_cons, ih]

/-- **A replacement adds the user name**, if anything. -/
theorem adds_replaceIdentifiers {lower : String → String}
    (h : replaceIdentifiers lower personUuid parsed now rows = .ok rows') :
    Adds (· = (parsed.userName, personUuid)) rows rows' := by
  obtain ⟨rfl, -⟩ := addIdentifiers_ok h
  refine ⟨_, by rw [holders_append, holders_congr (faces_reconcileIdentifiers _)], fun entry hentry => ?_⟩
  obtain ⟨row, hrow, htype, hvalue, hperson⟩ := mem_holders.mp hentry
  obtain ⟨wanted, hwanted, rfl⟩ := List.mem_map.mp hrow
  have hmem : wanted ∈ wantedIdentifiers parsed :=
    (reconcileIdentifiers_eppn personUuid now rows (wantedIdentifiers parsed)).2.1 wanted hwanted
  have hname : wanted.1.2 = parsed.userName := (wantedIdentifiers_eppn parsed).1 wanted hmem htype
  exact Prod.ext (hvalue.symm.trans hname) hperson.symm

/-- **A creation adds the user name.** -/
theorem holders_writeIdentifiers {lower : String → String}
    (h : writeIdentifiers lower personUuid parsed now rows = .ok rows') :
    holders rows' = holders rows ++ [(parsed.userName, personUuid)] := by
  obtain ⟨rfl, -⟩ := addIdentifiers_ok h
  have hmails : holders (parsed.emails.map fun email =>
      issueIdentifier lower personUuid now .mail email.1 email.2) = [] := by
    refine List.filterMap_eq_nil_iff.mpr fun row hrow => ?_
    obtain ⟨email, -, rfl⟩ := List.mem_map.mp hrow
    rfl
  have hfirst : ∀ rest, holders (issueIdentifier lower personUuid now .eppn parsed.userName true ::
      rest) = (parsed.userName, personUuid) :: holders rest := fun rest => rfl
  rw [holders_append, List.cons_append, hfirst, holders_append, hmails]
  cases parsed.employeeNumber with
  | none => rfl
  | some number =>
    dsimp only
    split_ifs
    · rfl
    · rfl

end Store

/-! ## Runs -/

/-- A call of one of the methods. -/
inductive Call (Doc : Type) where
  | resolve (assertion : Assertion) (minted : Minted)
  | allocateEppn (personUuid localPart : String)
  | releaseIdentifier (personUuid : String) (idType : IdType) (value : String)
  | create (parsed : ParsedUser) (raw : Doc) (personUuid : String)
  | replace (resourceId : String) (parsed : ParsedUser) (raw : Doc) (ifMatch : Option String)
  | softDelete (resourceId : String) (ifMatch : Option String)

/-- A call, and when it is made. -/
structure DatedCall (Doc : Type) where
  now : Int
  today : Int
  call : Call Doc

/-- The two classes that write identifiers. -/
structure Writers (Doc δ E : Type) where
  registry : IdentityRegistry
  users : UserStore Doc δ E

namespace Writers

variable {Doc δ E : Type} (w : Writers Doc δ E)

/-- What a call writes, unless it is refused. -/
def outcome (tables : Tables Doc) (c : DatedCall Doc) : Option (Tables Doc) :=
  match c.call with
  | .resolve assertion minted =>
    (w.registry.resolve assertion minted c.now tables).toOption.map Prod.fst
  | .allocateEppn personUuid localPart =>
    (w.registry.allocateEppn personUuid localPart c.now tables.registry).toOption.map
      fun written => { tables with registry := written.1 }
  | .releaseIdentifier personUuid idType value => some { tables with
      registry := w.registry.releaseIdentifier personUuid idType value c.now tables.registry }
  | .create parsed raw personUuid =>
    (w.users.createRows parsed raw personUuid c.now tables.registry).toOption.map
      fun written => { tables with registry := written.1 }
  | .replace resourceId parsed raw ifMatch =>
    (w.users.replaceRows resourceId parsed raw ifMatch c.now c.today tables.registry).toOption.map
      fun written => { tables with registry := written.1 }
  | .softDelete resourceId ifMatch =>
    (UserStore.softDeleteRows resourceId ifMatch c.now c.today tables.registry).toOption.map
      fun written => { tables with registry := written.1 }

/-- One step of a run: a call that is refused changes nothing. -/
def step (tables : Tables Doc) (c : DatedCall Doc) : Tables Doc :=
  (w.outcome tables c).getD tables

/-- The constraint sees every tombstone of somebody else with this name: the tombstone has a
scope, and it is the name's. -/
def TombstonesBind (lower : String → String) (rows : List Identifier)
    (personUuid userName : String) : Prop :=
  ∀ row ∈ rows, row.idType = .eppn → row.value = userName → row.personUuid ≠ personUuid →
    ¬ row.Live → row.scope ≠ none ∧ row.scope = scopeOf lower userName

/-- **Which calls keep the holders one**: a creation that is no replay and a replacement have to
leave no tombstone of somebody else to a constraint that cannot see it. -/
def Binds (tables : Tables Doc) (c : DatedCall Doc) : Prop :=
  match c.call with
  | .create parsed _ personUuid => tables.registry.knownSource parsed = none →
      TombstonesBind w.users.lower tables.registry.identifiers personUuid parsed.userName
  | .replace resourceId parsed _ _ =>
    TombstonesBind w.users.lower tables.registry.identifiers resourceId parsed.userName
  | _ => True

instance {lower : String → String} {rows : List Identifier} {personUuid userName : String} :
    Decidable (TombstonesBind lower rows personUuid userName) :=
  inferInstanceAs (Decidable (∀ row ∈ rows, _ → _ → _ → _ → _))

instance (tables : Tables Doc) (c : DatedCall Doc) : Decidable (w.Binds tables c) :=
  match c with
  | ⟨_, _, .create _ _ _⟩ => inferInstanceAs (Decidable (_ = none → _))
  | ⟨_, _, .replace _ _ _ _⟩ => inferInstanceAs (Decidable (TombstonesBind _ _ _ _))
  | ⟨_, _, .resolve _ _⟩ => inferInstanceAs (Decidable True)
  | ⟨_, _, .allocateEppn _ _⟩ => inferInstanceAs (Decidable True)
  | ⟨_, _, .releaseIdentifier _ _ _⟩ => inferInstanceAs (Decidable True)
  | ⟨_, _, .softDelete _ _⟩ => inferInstanceAs (Decidable True)

/-! ## What a call does to the holders -/

section Step

variable {w} {tables tables' : Tables Doc} {c : DatedCall Doc} {lower : String → String}
  {registry registry' : Registry Doc} {parsed : ParsedUser} {raw resource : Doc}

/-- **Nobody else holds a name** that is free, that a tombstone does not hide from the
constraint, and that the constraint lets through. -/
theorem eq_of_free {userName : String} {excluding : Option String}
    (hone : OneHolder registry.identifiers)
    (hfree : assertUsernameFree registry userName excluding = .ok ())
    (hexcluding : ∀ q, excluding = some q → q = personUuid)
    (hbinds : TombstonesBind lower registry.identifiers personUuid userName)
    (hconstraint : ∀ row ∈ registry.identifiers, row.idType = .eppn → row.value = userName →
      row.scope ≠ none → row.scope ≠ scopeOf lower userName) :
    ∀ entry ∈ holders registry.identifiers, entry.1 = userName → entry.2 = personUuid := by
  rintro entry hentry hname
  obtain ⟨row, hrow, htype, hvalue, hperson⟩ := mem_holders.mp hentry
  rw [hname] at hvalue
  rw [← hperson]
  by_contra hother
  by_cases hlive : row.Live
  · unfold assertUsernameFree at hfree
    cases hfound : registry.liveEppn userName with
    | none =>
      rw [Registry.liveEppn, List.find?_eq_none] at hfound
      exact hfound row hrow (by simp [htype, hvalue, hlive])
    | some first =>
      rw [hfound] at hfree
      dsimp only at hfree
      split_ifs at hfree with hsame
      have hfirst := List.find?_some hfound
      simp only [decide_eq_true_eq] at hfirst
      refine hother ((hone row hrow first (List.mem_of_find?_eq_some hfound) htype hfirst.1 ?_).trans
        (hexcluding _ hsame))
      rw [hvalue, hfirst.2.1]
  · obtain ⟨hscope, heq⟩ := hbinds row hrow htype hvalue hother hlive
    exact hconstraint row hrow htype hvalue hscope heq

theorem createRows_identifiers {store : UserStore Doc δ E} {created : Bool}
    (hnew : registry.knownSource parsed = none)
    (h : store.createRows parsed raw personUuid now registry = .ok (registry', resource, created)) :
    assertUsernameFree registry parsed.userName none = .ok () ∧
      writeIdentifiers store.lower personUuid parsed now registry.identifiers =
        .ok registry'.identifiers := by
  obtain ⟨identifiers, affiliations, record, hfree, -, hids, -, rfl, -, -⟩ :=
    store.createRows_new hnew h
  exact ⟨hfree, hids⟩

theorem replaceRows_free {store : UserStore Doc δ E} {resourceId : String}
    {ifMatch : Option String} {before after : Finset String}
    (h : store.replaceRows resourceId parsed raw ifMatch now today registry =
      .ok (registry', resource, before, after)) :
    assertUsernameFree registry parsed.userName (some resourceId) = .ok () := by
  obtain ⟨person, identifiers, affiliations, -, -, hfree, -⟩ := store.replaceRows_cases h
  exact hfree

theorem scope_ne_of_ok {isPrimary : Bool} (hnew : issueIdentifier lower personUuid now .eppn value
      isPrimary ∈ new) (h : addIdentifiers rows new = .ok rows') :
    ∀ row ∈ rows, row.idType = .eppn → row.value = value → row.scope ≠ none →
      row.scope ≠ scopeOf lower value := by
  intro row hrow htype hvalue hscope heq
  refine (addIdentifiers_ok h).2 _ hnew row hrow ⟨htype.symm, hvalue.symm, heq.symm, ?_⟩
  exact fun hnone => hscope (heq.trans hnone)

/-- **A creation keeps the holders one** where the tombstones bind. -/
theorem createRows_oneHolder {store : UserStore Doc δ E} {created : Bool}
    (hone : OneHolder registry.identifiers)
    (hbinds : registry.knownSource parsed = none →
      TombstonesBind store.lower registry.identifiers personUuid parsed.userName)
    (h : store.createRows parsed raw personUuid now registry = .ok (registry', resource, created)) :
    OneHolder registry'.identifiers := by
  by_cases hnew : registry.knownSource parsed = none
  · obtain ⟨hfree, hids⟩ := createRows_identifiers hnew h
    have hadds : Adds (· = (parsed.userName, personUuid)) registry.identifiers
        registry'.identifiers := ⟨_, holders_writeIdentifiers hids, by simp⟩
    refine hadds.oneHolder hone (eq_of_free hone hfree (by simp) (hbinds hnew) ?_)
    exact scope_ne_of_ok List.mem_cons_self hids
  · rw [(UserStore.createRows_of_known store hnew h).1]
    exact hone

/-- **So does a replacement.** -/
theorem replaceRows_oneHolder {store : UserStore Doc δ E} {resourceId : String}
    {ifMatch : Option String} {before after : Finset String}
    (hone : OneHolder registry.identifiers)
    (hbinds : TombstonesBind store.lower registry.identifiers resourceId parsed.userName)
    (h : store.replaceRows resourceId parsed raw ifMatch now today registry =
      .ok (registry', resource, before, after)) : OneHolder registry'.identifiers := by
  obtain ⟨-, -, -, -, hids, -⟩ := store.replaceRows_ok h
  refine (adds_replaceIdentifiers hids).oneHolder hone ?_
  by_cases hheld : (parsed.userName, resourceId) ∈ holders registry.identifiers
  · -- the person has the name already, and nobody else does
    intro entry hentry heq
    exact oneHolder_iff.mp hone entry hentry _ hheld heq
  · refine eq_of_free hone (replaceRows_free h) (by simp) hbinds ?_
    obtain ⟨hall, row, hrow, hperson, hlive, htype⟩ := replaceIdentifiers_eppn hids
    have hname : row.value = parsed.userName := hall row hrow hperson hlive htype
    have hfaces : (reconcileIdentifiers resourceId now registry.identifiers
        (wantedIdentifiers parsed)).1.map face = registry.identifiers.map face :=
      faces_reconcileIdentifiers _
    unfold replaceIdentifiers at hids
    rw [(addIdentifiers_ok hids).1] at hrow
    rcases List.mem_append.mp hrow with hold | hnew
    · obtain ⟨row', hrow', hface⟩ := exists_face hfaces hold
      simp only [face, Prod.mk.injEq] at hface
      refine absurd (mem_holders.mpr ⟨row', hrow', ?_, ?_, ?_⟩) hheld
      · exact hface.2.1.trans htype
      · exact hface.2.2.1.trans hname
      · exact hface.1.trans hperson
    · -- a new row: the constraint let it through
      obtain ⟨wanted, hwanted, rfl⟩ := List.mem_map.mp hnew
      obtain ⟨⟨idType, value⟩, isPrimary⟩ := wanted
      obtain rfl : idType = .eppn := htype
      obtain rfl : value = parsed.userName := hname
      intro row' hrow' htype' hvalue' hscope'
      obtain ⟨row'', hrow'', hface⟩ := exists_face hfaces.symm hrow'
      simp only [face, Prod.mk.injEq] at hface
      have hne := scope_ne_of_ok hnew hids row'' hrow'' (hface.2.1.trans htype')
        (hface.2.2.1.trans hvalue') (by rwa [hface.2.2.2])
      rwa [hface.2.2.2] at hne

/-- **A call that binds keeps the holders one.** -/
theorem outcome_oneHolder (hone : OneHolder tables.registry.identifiers)
    (hbinds : w.Binds tables c) (h : w.outcome tables c = some tables') :
    OneHolder tables'.registry.identifiers := by
  obtain ⟨now, today, call⟩ := c
  cases call with
  | resolve assertion minted =>
    obtain ⟨written, hok, rfl⟩ := Eff.toOption_map_eq_some.mp h
    exact (givesNew_resolve hok).oneHolder hone
  | allocateEppn personUuid localPart =>
    obtain ⟨written, hok, rfl⟩ := Eff.toOption_map_eq_some.mp h
    exact (givesNew_allocateEppn hok).oneHolder hone
  | releaseIdentifier personUuid idType value =>
    obtain rfl := Option.some.inj h
    exact hone.of_eq (holders_congr (faces_tombstoneFirst _))
  | create parsed raw personUuid =>
    obtain ⟨⟨registry, resource, created⟩, hok, rfl⟩ := Eff.toOption_map_eq_some.mp h
    exact createRows_oneHolder hone hbinds hok
  | replace resourceId parsed raw ifMatch =>
    obtain ⟨⟨registry, resource, before, after⟩, hok, rfl⟩ := Eff.toOption_map_eq_some.mp h
    exact replaceRows_oneHolder hone hbinds hok
  | softDelete resourceId ifMatch =>
    obtain ⟨⟨registry, before⟩, hok, rfl⟩ := Eff.toOption_map_eq_some.mp h
    refine hone.of_eq (holders_congr ?_)
    rw [(UserStore.softDeleteRows_ok hok).2.2.1, List.map_map]
    refine List.map_congr_left fun row _ => ?_
    rw [Function.comp_apply]
    split_ifs
    · rfl
    · rfl

theorem exists_of_not_binds {userName : String}
    (h : ¬ TombstonesBind lower rows personUuid userName) :
    ∃ other, (userName, other) ∈ holders rows ∧ other ≠ personUuid := by
  unfold TombstonesBind at h
  push Not at h
  obtain ⟨row, hrow, htype, hvalue, hother, -⟩ := h
  exact ⟨row.personUuid, mem_holders.mpr ⟨row, hrow, htype, hvalue, rfl⟩, hother⟩

/-- **A call that does not bind leaves two holders** when it goes through. -/
theorem outcome_binds (hone : OneHolder tables'.registry.identifiers)
    (h : w.outcome tables c = some tables') : w.Binds tables c := by
  obtain ⟨now, today, call⟩ := c
  cases call with
  | resolve assertion minted => trivial
  | allocateEppn personUuid localPart => trivial
  | releaseIdentifier personUuid idType value => trivial
  | softDelete resourceId ifMatch => trivial
  | create parsed raw personUuid =>
    intro hnew
    obtain ⟨⟨registry, resource, created⟩, hok, rfl⟩ := Eff.toOption_map_eq_some.mp h
    have hholders := holders_writeIdentifiers (createRows_identifiers hnew hok).2
    by_contra hblind
    obtain ⟨other, hother, hne⟩ := exists_of_not_binds hblind
    rw [oneHolder_iff, hholders] at hone
    exact hne (hone _ (List.mem_append_left _ hother) (parsed.userName, personUuid)
      (List.mem_append_right _ (List.mem_singleton_self _)) rfl)
  | replace resourceId parsed raw ifMatch =>
    obtain ⟨⟨registry, resource, before, after⟩, hok, rfl⟩ := Eff.toOption_map_eq_some.mp h
    obtain ⟨-, -, -, -, hids, -⟩ := w.users.replaceRows_ok hok
    obtain ⟨hall, row, hrow, hperson, hlive, htype⟩ := replaceIdentifiers_eppn hids
    by_contra hblind
    obtain ⟨other, hother, hne⟩ := exists_of_not_binds hblind
    have hheld : (parsed.userName, resourceId) ∈ holders registry.identifiers :=
      mem_holders.mpr ⟨row, hrow, htype, hall row hrow hperson hlive htype, hperson⟩
    exact hne (oneHolder_iff.mp hone _ ((adds_replaceIdentifiers hids).mem hother) _ hheld rfl)

/-- **No ePPN is given to two people** in a run whose calls bind, and in no other run: one that
goes through without binding gives one away. -/
theorem oneHolder_of_runs (w : Writers Doc δ E) (tables : Tables Doc)
    (hone : OneHolder tables.registry.identifiers) (calls : List (DatedCall Doc)) :
    (Run w.Binds w.step tables calls (calls.foldl w.step tables) →
      ∀ pre post, calls = pre ++ post →
        OneHolder (pre.foldl w.step tables).registry.identifiers) ∧
    ((∀ pre post, calls = pre ++ post →
        OneHolder (pre.foldl w.step tables).registry.identifiers) ↔
      Run (fun tables c => w.outcome tables c ≠ none → w.Binds tables c) w.step tables calls
        (calls.foldl w.step tables)) := by
  have hexact : Run (fun tables c => w.outcome tables c ≠ none → w.Binds tables c) w.step tables
      calls (calls.foldl w.step tables) ↔ ∀ pre post, calls = pre ++ post →
        OneHolder (pre.foldl w.step tables).registry.identifiers := by
    refine Run.iff_forall_reached (I := fun tables : Tables Doc => OneHolder tables.registry.identifiers)
      (fun tables c hone hbinds => ?_) (fun _ h => h) (fun tables c _ hone hdone => ?_) hone
    · unfold step
      cases hout : w.outcome tables c with
      | none => exact hone
      | some tables' => exact outcome_oneHolder hone (hbinds (by simp [hout])) hout
    · obtain ⟨tables', hout⟩ := Option.ne_none_iff_exists'.mp hdone
      rw [step, hout] at hone
      exact outcome_binds hone hout
  refine ⟨fun h => hexact.mp ?_, hexact.symm⟩
  refine Run.mono ?_ h
  intro s c hbinds _
  exact hbinds

end Step

/-! ### A name given away -/

/-- The writers of a campus, with nothing to tell and nothing to project. -/
def plainWriters : Writers Unit Unit Empty where
  registry := ⟨"campus.test", Text.lower⟩
  users := UserStore.plainStore

/-- Sam leaves, and another Sam arrives. -/
def samAgain (userName : String) : List (DatedCall Unit) :=
  [⟨0, 0, .create { userName := userName } () "p"⟩, ⟨1, 0, .softDelete "p" none⟩,
    ⟨2, 0, .create { userName := userName } () "q"⟩]

/-- With a scope the second Sam is refused the name. -/
theorem oneHolder_of_scoped :
    OneHolder ((samAgain "sam@campus.test").foldl plainWriters.step {}).registry.identifiers ∧
      holders ((samAgain "sam@campus.test").foldl plainWriters.step {}).registry.identifiers =
        [("sam@campus.test", "p")] :=
  ⟨(oneHolder_of_runs plainWriters {} (fun _ h => absurd h (by simp)) _).1
    (Run.of_admits (by decide +kernel)) _ [] (List.append_nil _).symm, by decide +kernel⟩

/-- Without one the constraint sees nothing, and the second Sam has the name of the first. -/
theorem two_holders :
    ¬ ∀ (w : Writers Unit Unit Empty) (calls : List (DatedCall Unit)),
      OneHolder (calls.foldl w.step {}).registry.identifiers := by
  intro h
  have hone := h plainWriters (samAgain "sam")
  rw [oneHolder_iff] at hone
  exact absurd (hone ("sam", "p") (by decide +kernel) ("sam", "q") (by decide +kernel) rfl)
    (by decide)

end Writers

end Identity
end CampusID
