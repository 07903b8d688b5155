import CampusID.Lib.Traces
import CampusID.Lifecycle.Orchestrator

/-!
# Accounts, when every downstream system does as it is told

With targets that never fail the orchestrator's loops have no error path left, and what
they do can be written down: `provisionAccounts_of_willing` and
`disableAccounts_of_willing` give the downstream state and the calls, target by target.

An account is a target and a login.  It is *open* for a person from the moment they
were provisioned there under that login until the login is disabled there, and
`Outstanding` reads that off the calls.  The leaver sequence disables one login, the one
`_login_for` picks; so it closes exactly the accounts that carry it
(`outstanding_after_leaver`).
-/

namespace CampusID

open Lib

variable {Doc δ E : Type}

/-- The target takes every call, in every state. -/
structure ProvisioningTarget.Willing (target : ProvisioningTarget δ E) : Prop where
  provision : ∀ spec d, ((target.provision spec).run d).1 = .ok ()
  disable : ∀ login d, ((target.disable login).run d).1 = .ok ()

theorem RetryPolicy.withRetries_of_ok {σ α : Type} (policy : RetryPolicy E)
    {operation : Eff σ (Exn E) α} {s : σ} {a : α} (h : (operation.run s).1 = .ok a) :
    (policy.withRetries operation).run s = (.ok a, (operation.run s).2) := by
  have hrun : operation.run s = (.ok a, (operation.run s).2) := Prod.ext h rfl
  refine policy.withRetries_of_settled ?_
  rw [maxAttempts, settle, hrun]

/-! ## What is read off the registry -/

namespace Registry

theorem mem_allIdentifiers {registry : Registry Doc} {personUuid : String} {row : Identifier} :
    row ∈ registry.allIdentifiers personUuid ↔
      row ∈ registry.identifiers ∧ row.personUuid = personUuid := by
  unfold allIdentifiers
  rw [List.mem_insertionSort, List.mem_filter, decide_eq_true_eq]

theorem loginFor_of_live {registry : Registry Doc} {personUuid value : String}
    (hall : ∀ row ∈ registry.identifiers, row.personUuid = personUuid → row.Live →
      row.idType = .eppn → row.value = value)
    (hsome : ∃ row ∈ registry.identifiers, row.personUuid = personUuid ∧ row.Live ∧
      row.idType = .eppn) : registry.loginFor personUuid = some value := by
  have hmem : ∀ row, row ∈ ((registry.allIdentifiers personUuid).filter (·.idType = .eppn)).filter
      (·.Live) ↔ row ∈ registry.identifiers ∧ row.personUuid = personUuid ∧ row.Live ∧
        row.idType = .eppn := by
    intro row
    simp only [List.mem_filter, mem_allIdentifiers, decide_eq_true_eq]
    tauto
  unfold loginFor
  simp only
  cases hl : ((registry.allIdentifiers personUuid).filter (·.idType = .eppn)).filter (·.Live) with
  | nil =>
    obtain ⟨row, hrow⟩ := hsome
    have := (hmem row).mpr hrow
    rw [hl] at this
    cases this
  | cons row rows =>
    obtain ⟨hrow, hp, hlive, ht⟩ := (hmem row).mp (hl ▸ List.mem_cons_self)
    exact congrArg some (hall row hrow hp hlive ht)

end Registry

namespace Orchestrator

variable (o : Orchestrator δ E)

/-! ## The loops -/

/-- The downstream systems after each was told to provision. -/
def provisionedAll (spec : PersonSpec) (targets : List (ProvisioningTarget δ E × Nat)) (d : δ) :
    δ :=
  targets.foldl (fun d target => ((target.1.provision spec).run d).2) d

/-- The downstream systems after each was told to disable. -/
def disabledAll (login : String) (targets : List (ProvisioningTarget δ E × Nat)) (d : δ) : δ :=
  targets.foldl (fun d target => ((target.1.disable login).run d).2) d

/-- What the loops collect when every target took the call. -/
def allTaken : List (String × Bool) := o.targets.zipIdx.map fun target => (target.1.name, true)

/-- The calls of provisioning everywhere. -/
def provisionCalls (personUuid : String) (spec : PersonSpec) : List Call :=
  o.targets.zipIdx.map fun target => .provisioned target.2 personUuid spec

/-- The calls of disabling everywhere. -/
def disableCalls (personUuid login : String) : List Call :=
  o.targets.zipIdx.map fun target => .disabled target.2 personUuid login

theorem collect_provision_of_willing {personUuid : String} {spec : PersonSpec}
    {targets : List (ProvisioningTarget δ E × Nat)} (h : ∀ target ∈ targets, target.1.Willing)
    (w : World Doc δ) :
    (Eff.collect (o.provisionOne personUuid spec) targets : Action Doc δ E _).run w =
      (.ok (targets.map fun target => (target.1.name, true)), { w with
        downstream := provisionedAll spec targets w.downstream
        calls := w.calls ++ targets.map fun target => .provisioned target.2 personUuid spec }) := by
  induction targets generalizing w with
  | nil => simp [Eff.collect, provisionedAll]
  | cons target targets ih =>
    have hret := o.retry.withRetries_of_ok
      ((h target List.mem_cons_self).provision spec w.downstream)
    have hone : (o.provisionOne personUuid spec target : Action Doc δ E _).run w =
        (.ok (target.1.name, true), { w with
          downstream := ((target.1.provision spec).run w.downstream).2
          calls := w.calls ++ [.provisioned target.2 personUuid spec] }) := by
      unfold provisionOne
      rw [Eff.run_attempt_bind, Action.run_onDownstream, hret]
      rfl
    have hrest := ih (fun t ht => h t (List.mem_cons_of_mem _ ht)) { w with
      downstream := ((target.1.provision spec).run w.downstream).2
      calls := w.calls ++ [.provisioned target.2 personUuid spec] }
    rw [Eff.collect, Eff.run_bind_of_ok hone, Eff.run_bind_of_ok hrest]
    simp [provisionedAll]

theorem collect_disable_of_willing {personUuid login : String}
    {targets : List (ProvisioningTarget δ E × Nat)} (h : ∀ target ∈ targets, target.1.Willing)
    (w : World Doc δ) :
    (Eff.collect (o.disableOne personUuid login) targets : Action Doc δ E _).run w =
      (.ok (targets.map fun target => (target.1.name, true)), { w with
        downstream := disabledAll login targets w.downstream
        calls := w.calls ++ targets.map fun target => .disabled target.2 personUuid login }) := by
  induction targets generalizing w with
  | nil => simp [Eff.collect, disabledAll]
  | cons target targets ih =>
    have hret := o.retry.withRetries_of_ok
      ((h target List.mem_cons_self).disable login w.downstream)
    have hone : (o.disableOne personUuid login target : Action Doc δ E _).run w =
        (.ok (target.1.name, true), { w with
          downstream := ((target.1.disable login).run w.downstream).2
          calls := w.calls ++ [.disabled target.2 personUuid login] }) := by
      unfold disableOne
      rw [Eff.run_attempt_bind, Action.run_onDownstream, hret]
      rfl
    have hrest := ih (fun t ht => h t (List.mem_cons_of_mem _ ht)) { w with
      downstream := ((target.1.disable login).run w.downstream).2
      calls := w.calls ++ [.disabled target.2 personUuid login] }
    rw [Eff.collect, Eff.run_bind_of_ok hone, Eff.run_bind_of_ok hrest]
    simp [disabledAll]

/-- The spec an orchestrator provisions from. -/
def seenSpec (registry : Registry Doc) (personUuid : String) : Option PersonSpec :=
  if o.identity then registry.specFor personUuid else none

/-- The login an orchestrator disables. -/
def seenLogin (registry : Registry Doc) (personUuid : String) : Option String :=
  if o.identity then registry.loginFor personUuid else none

section Willing

variable {o} (hwilling : ∀ target ∈ o.targets, target.Willing)
include hwilling

theorem willing_zipIdx : ∀ target ∈ o.targets.zipIdx, target.1.Willing := by
  intro target htarget
  exact hwilling _ (List.fst_mem_of_mem_zipIdx htarget)

/-- **Provisioning, with targets that never fail.** -/
theorem provisionAccounts_of_willing (personUuid : String) (w : World Doc δ) :
    ∃ trail, (o.provisionAccounts personUuid : Action Doc δ E _).run w = (.ok (), { w with
      audit := w.audit ++ trail
      downstream := (o.seenSpec w.registry personUuid).elim w.downstream fun spec =>
        provisionedAll spec o.targets.zipIdx w.downstream
      calls := w.calls ++
        (o.seenSpec w.registry personUuid).elim [] (o.provisionCalls personUuid) }) := by
  unfold provisionAccounts
  split_ifs with hnil
  · refine ⟨[.deprovisionStep personUuid (.provisionAccounts [] [])], ?_⟩
    cases o.seenSpec w.registry personUuid <;>
      simp [Action.step, Action.record, provisionedAll, provisionCalls, hnil]
  · have hseen : (if o.identity then w.registry.specFor personUuid else none) =
        o.seenSpec w.registry personUuid := rfl
    rw [specFor, Eff.run_read_bind, hseen]
    cases o.seenSpec w.registry personUuid with
    | none =>
      refine ⟨[.deprovisionStep personUuid .provisionWithoutLogin], ?_⟩
      simp [Action.step, Action.record]
    | some spec =>
      refine ⟨[.deprovisionStep personUuid
        (.provisionAccounts (taken o.allTaken) (givenUp o.allTaken))], ?_⟩
      show (Eff.collect (o.provisionOne personUuid spec) o.targets.zipIdx >>= _ :
        Action Doc δ E Unit).run w = _
      rw [Eff.run_bind_of_ok (o.collect_provision_of_willing (willing_zipIdx hwilling) w)]
      rfl

/-- **Disabling, with targets that never fail.** -/
theorem disableAccounts_of_willing (personUuid : String) (w : World Doc δ) :
    ∃ disabled trail, (o.disableAccounts personUuid : Action Doc δ E _).run w =
      (.ok disabled, { w with
        audit := w.audit ++ trail
        downstream := (o.seenLogin w.registry personUuid).elim w.downstream fun login =>
          disabledAll login o.targets.zipIdx w.downstream
        calls := w.calls ++
          (o.seenLogin w.registry personUuid).elim [] (o.disableCalls personUuid) }) := by
  unfold disableAccounts
  split_ifs with hnil
  · refine ⟨[], [.deprovisionStep personUuid (.disableAccounts [] [])], ?_⟩
    cases o.seenLogin w.registry personUuid <;>
      simp [Action.step, Action.record, disabledAll, disableCalls, hnil]
  · have hseen : (if o.identity then w.registry.loginFor personUuid else none) =
        o.seenLogin w.registry personUuid := rfl
    rw [loginFor, Eff.run_read_bind, hseen]
    cases o.seenLogin w.registry personUuid with
    | none =>
      refine ⟨[], [.deprovisionStep personUuid .disableWithoutLogin], ?_⟩
      simp [Action.step, Action.record]
    | some login =>
      refine ⟨taken o.allTaken, [.deprovisionStep personUuid
        (.disableAccounts (taken o.allTaken) (givenUp o.allTaken))], ?_⟩
      show (Eff.collect (o.disableOne personUuid login) o.targets.zipIdx >>= _ :
        Action Doc δ E (List String)).run w = _
      rw [Eff.run_bind_of_ok (o.collect_disable_of_willing (willing_zipIdx hwilling) w)]
      rfl

/-- **A leaver, with targets that never fail.** -/
theorem deprovision_of_willing (personUuid : String) (before : Finset String) (source : Source)
    (on : Option Int) (w : World Doc δ) :
    ∃ delta, ((o.deprovision personUuid before source on : Action Doc δ E _).run w).1 =
        .ok delta ∧
      ((o.deprovision personUuid before source on : Action Doc δ E _).run w).2.downstream =
        ((o.seenLogin w.registry personUuid).elim w.downstream fun login =>
          disabledAll login o.targets.zipIdx w.downstream) ∧
      ((o.deprovision personUuid before source on : Action Doc δ E _).run w).2.calls =
        w.calls ++ ((o.seenLogin w.registry personUuid).elim [] (o.disableCalls personUuid) ++
          o.leaverCalls personUuid delta (o.leaverSids personUuid w)) := by
  obtain ⟨disabled, trail, hrun⟩ := disableAccounts_of_willing hwilling personUuid w
  obtain ⟨families, hdep⟩ := o.deprovision_of_ok hrun before source on
  rw [hdep]
  refine ⟨_, rfl, rfl, ?_⟩
  exact List.append_assoc _ _ _

/-- **Any other transition, with targets that never fail.** -/
theorem transitioned_of_willing (personUuid : String) {before after : Finset String}
    (hroute : ¬ (after = ∅ ∧ before ≠ ∅)) (source : Source) (on : Option Int) (w : World Doc δ) :
    ∃ delta, ((o.transitioned personUuid before after source on : Action Doc δ E _).run w).1 =
        .ok delta ∧
      ((o.transitioned personUuid before after source on : Action Doc δ E _).run w).2.downstream =
        ((o.seenSpec w.registry personUuid).elim w.downstream fun spec =>
          provisionedAll spec o.targets.zipIdx w.downstream) ∧
      ((o.transitioned personUuid before after source on : Action Doc δ E _).run w).2.calls =
        w.calls ++ (.appliedDelta personUuid delta ::
          (o.seenSpec w.registry personUuid).elim [] (o.provisionCalls personUuid) ++
            if o.decisions then [.invalidatedDecisions personUuid] else []) := by
  obtain ⟨trail, hrun⟩ := provisionAccounts_of_willing hwilling personUuid
    (written personUuid before after source on w)
  rw [o.transitioned_of_ok hroute hrun]
  refine ⟨_, rfl, rfl, ?_⟩
  simp [written]

end Willing

/-! ## Open accounts -/

/-- The call gives the person the account `login` at target `i`. -/
def Opens (i : Nat) (personUuid login : String) : Call → Prop
  | .provisioned j q spec => j = i ∧ q = personUuid ∧ spec.principalName = some login
  | _ => False

/-- The call disables the account `login` at target `i`. -/
def Closes (i : Nat) (login : String) : Call → Prop
  | .disabled j _ login' => j = i ∧ login' = login
  | _ => False

/-- The person was given the account, and it was not disabled since. -/
def Outstanding (i : Nat) (personUuid login : String) (calls : List Call) : Prop :=
  Unanswered (Opens i personUuid login) (Closes i login) calls

theorem exists_closes_disableCalls {i : Nat} {personUuid login login' : String} :
    (∃ c ∈ o.disableCalls personUuid login', Closes i login c) ↔
      i < o.targets.length ∧ login' = login := by
  unfold disableCalls
  constructor
  · rintro ⟨c, hc, hcloses⟩
    obtain ⟨target, htarget, rfl⟩ := List.mem_map.mp hc
    obtain ⟨rfl, rfl⟩ := hcloses
    exact ⟨List.snd_lt_of_mem_zipIdx htarget, rfl⟩
  · rintro ⟨hi, rfl⟩
    refine ⟨_, List.mem_map.mpr ⟨(o.targets[i], i), ?_, rfl⟩, rfl, rfl⟩
    exact List.mk_mem_zipIdx_iff_getElem?.mpr (List.getElem?_eq_getElem hi)

theorem leaverCalls_aside {i : Nat} {personUuid login : String} {delta : Delta}
    {sids : List String} {c : Call} (hc : c ∈ o.leaverCalls personUuid delta sids) :
    ¬ Opens i personUuid login c ∧ ¬ Closes i login c := by
  simp only [leaverCalls, List.cons_append, List.mem_cons, List.mem_append, List.mem_map] at hc
  rcases hc with rfl | ⟨sid, -, rfl⟩ | rfl | hc
  · exact ⟨id, id⟩
  · exact ⟨id, id⟩
  · exact ⟨id, id⟩
  · split_ifs at hc
    · obtain rfl := List.mem_singleton.mp hc
      exact ⟨id, id⟩
    · simp at hc

/-- **A leaver closes the accounts under one login**, and no other. -/
theorem outstanding_after_leaver {i : Nat} (hi : i < o.targets.length) {personUuid login : String}
    {seen : Option String} {delta : Delta} {sids : List String} {calls : List Call} :
    Outstanding i personUuid login (calls ++ (seen.elim [] (o.disableCalls personUuid) ++
        o.leaverCalls personUuid delta sids)) ↔
      Outstanding i personUuid login calls ∧ seen ≠ some login := by
  have hopens : ∀ c ∈ seen.elim [] (o.disableCalls personUuid) ++
      o.leaverCalls personUuid delta sids, ¬ Opens i personUuid login c := by
    intro c hc
    rcases List.mem_append.mp hc with hc | hc
    · cases seen with
      | none => cases hc
      | some login' =>
        obtain ⟨target, -, rfl⟩ := List.mem_map.mp hc
        exact id
    · exact (o.leaverCalls_aside hc).1
  have hcloses : (∀ c ∈ seen.elim [] (o.disableCalls personUuid) ++
      o.leaverCalls personUuid delta sids, ¬ Closes i login c) ↔ seen ≠ some login := by
    cases seen with
    | none =>
      simp only [Option.elim_none, List.nil_append, ne_eq, reduceCtorEq, not_false_eq_true, iff_true]
      exact fun c hc => (o.leaverCalls_aside hc).2
    | some login' =>
      constructor
      · rintro h heq
        obtain rfl := Option.some.inj heq
        obtain ⟨c, hc, hcl⟩ := o.exists_closes_disableCalls.mpr ⟨hi, rfl⟩
        exact h c (List.mem_append_left _ hc) hcl
      · intro hne c hc hcl
        rcases List.mem_append.mp hc with hc | hc
        · obtain ⟨-, rfl⟩ := o.exists_closes_disableCalls.mp ⟨c, hc, hcl⟩
          exact hne rfl
        · exact (o.leaverCalls_aside hc).2 hcl
  unfold Outstanding
  rw [unanswered_append, hcloses]
  constructor
  · rintro (h | hnew)
    · exact h
    · exact absurd hnew (not_unanswered_of_forall hopens)
  · exact Or.inl

end Orchestrator

end CampusID
