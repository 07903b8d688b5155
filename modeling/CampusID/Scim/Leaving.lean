import CampusID.Scim.Users

/-!
# Does leaving deprovision?

Three writes can leave a person inactive, and each hands the lifecycle the affiliations
the person had.  The lifecycle takes a transition for a leaver only when there were
some.  So the leaver sequence runs for exactly those who had an open affiliation at the
time, although the comment on `soft_delete` promises it to everybody: the shortcut it
avoids in the store is taken again behind the hook.
-/

namespace CampusID

open Lib

/-- The leaver sequence ran: the person's sessions were terminated, and the families of
every session that was found revoked. -/
def LeaverRan {Doc δ : Type} (personUuid : String) (w w' : World Doc δ) : Prop :=
  ∃ made sids, w'.calls = w.calls ++ made ∧ .terminatedSubject personUuid sids ∈ made ∧
    ∀ sid ∈ sids, .revokedSessionFamilies sid ∈ made

namespace Orchestrator

variable {Doc δ E : Type} (o : Orchestrator δ E) {personUuid : String} {w w' : World Doc δ}

theorem leaverRan_of_deprovision {before : Finset String} {source : Source} {on : Option Int}
    {delta : Delta}
    (h : (o.deprovision personUuid before source on : Action Doc δ E _).run w = (.ok delta, w')) :
    LeaverRan personUuid w w' := by
  rcases hrun : (o.disableAccounts personUuid : Action Doc δ E _).run w with ⟨e | disabled, m⟩
  · rw [o.deprovision_of_error hrun] at h
    cases h
  · obtain ⟨families, hdep⟩ := o.deprovision_of_ok hrun before source on
    have haside := o.disableAccounts_aside personUuid w
    rw [hrun] at haside
    obtain ⟨made, hmade, -⟩ := haside.calls
    rw [hdep] at h
    cases h
    refine ⟨made ++ o.leaverCalls personUuid (w.rules.transition before ∅ (on.getD w.today))
      (o.leaverSids personUuid m), o.leaverSids personUuid m, ?_, ?_, ?_⟩
    · simp only [show m.calls = _ from hmade, List.append_assoc]
    · simp [leaverCalls]
    · intro sid hsid
      simp [leaverCalls, hsid]

/-- **The routing.**  A transition to no affiliations that returned ran the leaver
sequence exactly when there were some before. -/
theorem leaverRan_iff_nonempty {before : Finset String} {delta : Delta}
    (h : (o.transitioned personUuid before ∅ : Action Doc δ E _).run w = (.ok delta, w')) :
    LeaverRan personUuid w w' ↔ before.Nonempty := by
  rcases before.eq_empty_or_nonempty with rfl | hne
  · refine iff_of_false ?_ Finset.not_nonempty_empty
    rintro ⟨made, sids, hcalls, hmem, -⟩
    have hroute : ¬ ((∅ : Finset String) = ∅ ∧ (∅ : Finset String) ≠ ∅) := by simp
    obtain ⟨-, -, -, made', hmade', hkind⟩ :=
      o.transitioned_upkeep personUuid hroute .scim none w
    rw [h] at hmade'
    rw [show w'.calls = _ from hmade'] at hcalls
    obtain rfl := List.append_cancel_left hcalls
    rcases hkind _ hmem with ⟨delta, hd⟩ | ⟨i, spec, hp⟩ | hi
    · cases hd
    · cases hp
    · cases hi
  · refine iff_of_true ?_ hne
    rw [transitioned, if_pos ⟨rfl, hne.ne_empty⟩] at h
    exact o.leaverRan_of_deprovision h

end Orchestrator

namespace UserStore

variable {Doc δ E : Type} (store : UserStore Doc δ E) (o : Orchestrator δ E)
  {personUuid : String} {w w' : World Doc δ}

theorem not_leaverRan_self (w : World Doc δ) : ¬ LeaverRan personUuid w w := by
  rintro ⟨made, sids, hcalls, hmem, -⟩
  obtain rfl : made = [] := by simpa using hcalls
  simp at hmem

theorem leaverRan_iff_of_replace {parsed : ParsedUser} {raw resource : Doc}
    {ifMatch : Option String} (hinactive : parsed.status ≠ .active)
    (h : ((store.wire o).replace personUuid parsed raw ifMatch : Action Doc δ E _).run w =
      (.ok (.ok resource), w')) :
    LeaverRan personUuid w w' ↔ (w.registry.openAffiliations personUuid).Nonempty := by
  obtain ⟨registry, before, after, htx, htold⟩ := (store.wire o).replace_ok h
  obtain ⟨-, rfl, rfl, -⟩ := (store.wire o).replaceRows_ok htx
  rw [if_neg hinactive] at htold
  unfold transitioned at htold
  split_ifs at htold with heq
  · -- the store keeps a change that is none to itself
    cases htold
    rw [heq]
    exact iff_of_false (not_leaverRan_self w) Finset.not_nonempty_empty
  · obtain ⟨delta, hrun⟩ := (store.run_wire_tell o _ _ _).mp htold
    have hiff := o.leaverRan_iff_nonempty hrun
    exact hiff

/-- The lifecycle does not write the registry, so what the person is afterwards is what
the client sent. -/
theorem inactive_of_replace {parsed : ParsedUser} {raw resource : Doc} {ifMatch : Option String}
    (h : ((store.wire o).replace personUuid parsed raw ifMatch : Action Doc δ E _).run w =
      (.ok (.ok resource), w'))
    (hstatus : (w'.registry.get personUuid).map Person.status ≠ some .active) :
    parsed.status ≠ .active := by
  obtain ⟨registry, before, after, htx, htold⟩ := (store.wire o).replace_ok h
  have hst := (store.wire o).replaceRows_status htx
  have hreg : w'.registry = registry := by
    unfold transitioned at htold
    split_ifs at htold with heq
    · cases htold
      rfl
    · obtain ⟨delta, hrun⟩ := (store.run_wire_tell o _ _ _).mp htold
      have hkeep := o.transitioned_registry personUuid before after .scim none
        { w with registry := registry }
      rw [hrun] at hkeep
      exact hkeep
  intro hactive
  rw [hreg, hst, hactive] at hstatus
  exact hstatus rfl

theorem leaverRan_iff_of_softDelete {ifMatch : Option String}
    (h : ((store.wire o).softDelete personUuid ifMatch : Action Doc δ E _).run w =
      (.ok (.ok ()), w')) :
    LeaverRan personUuid w w' ↔ (w.registry.openAffiliations personUuid).Nonempty := by
  obtain ⟨registry, before, htx, htold⟩ := (store.wire o).softDelete_ok h
  obtain ⟨rfl, -⟩ := softDeleteRows_ok htx
  obtain ⟨delta, hrun⟩ := (store.run_wire_tell o _ _ _).mp htold
  have hiff := o.leaverRan_iff_nonempty hrun
  exact hiff

/-- **Leaving deprovisions those who had an open affiliation, and nobody else.**  For
every registry and every successful write that leaves the person inactive. -/
theorem leaverRan_iff_openAffiliation (write : UserWrite Doc)
    (hwrite : ∀ parsed raw, write ≠ .create parsed raw)
    (hdone : ((store.wire o).perform personUuid write : Action Doc δ E _).run w =
      (.ok (.ok ()), w'))
    (hstatus : (w'.registry.get personUuid).map Person.status ≠ some .active) :
    LeaverRan personUuid w w' ↔
      ∃ row ∈ w.registry.affiliations, row.personUuid = personUuid ∧ row.validUntil = none := by
  have hopen : (w.registry.openAffiliations personUuid).Nonempty ↔
      ∃ row ∈ w.registry.affiliations, row.personUuid = personUuid ∧ row.validUntil = none := by
    rw [Finset.nonempty_iff_ne_empty, Ne, w.registry.openAffiliations_eq_empty]
    simp [Affiliation.Open]
  rw [← hopen]
  cases write with
  | create parsed raw => exact absurd rfl (hwrite parsed raw)
  | replace parsed raw ifMatch =>
    obtain ⟨resource, hrun⟩ := run_map_ok hdone
    exact store.leaverRan_iff_of_replace o (store.inactive_of_replace o hrun hstatus) hrun
  | applyPatched parsed raw ifMatch =>
    obtain ⟨resource, hrun⟩ := run_map_ok hdone
    exact store.leaverRan_iff_of_replace o (store.inactive_of_replace o hrun hstatus) hrun
  | softDelete ifMatch => exact store.leaverRan_iff_of_softDelete o hdone

/-! ## Somebody without an affiliation -/

/-- A downstream system that takes every call. -/
def willingTarget : ProvisioningTarget Unit Empty where
  name := "ldap"
  provision := fun _ => pure ()
  disable := fun _ => pure ()

/-- An orchestrator in front of it. -/
def willingOrchestrator : Orchestrator Unit Empty where
  sessions := { sha256 := id }
  grants := { sha256 := id }
  targets := [willingTarget]
  retry := ⟨fun _ => true, fun _ => ""⟩

/-- A store with documents of no content. -/
def plainStore : UserStore Unit Unit Empty where
  toScim := fun _ => ()
  version := fun _ => "W/1"

/-- Nobody is known yet. -/
def emptyWorld : World Unit Unit where
  redis := Store.empty
  now := 0
  today := 0
  rules := {}
  registry := {}
  lifecycle := {}
  downstream := ()

/-- Alice, with these affiliations. -/
def alice (affiliations : List ParsedAffiliation) : ParsedUser where
  userName := "alice@campus.edu"
  affiliations := affiliations

/-- Alice as she is once created. -/
def createdWorld (affiliations : List ParsedAffiliation) : World Unit Unit :=
  (((plainStore.wire willingOrchestrator).perform "p" (.create (alice affiliations) ())).run
    emptyWorld).2

/-- A student who is deleted is deprovisioned. -/
theorem leaverRan_of_student :
    LeaverRan "p" (createdWorld [⟨"student", true, none, 0, none⟩])
      (((plainStore.wire willingOrchestrator).perform "p" (.softDelete none)).run
        (createdWorld [⟨"student", true, none, 0, none⟩])).2 :=
  (plainStore.leaverRan_iff_openAffiliation willingOrchestrator (.softDelete none) (by simp)
    (by rfl) (by decide)).mpr ⟨_, List.mem_singleton_self _, rfl, rfl⟩

/-- Somebody created without an affiliation and deleted again is not. -/
theorem not_leaverRan_without_affiliation :
    (((plainStore.wire willingOrchestrator).perform "p" (.create (alice []) ())).run
        emptyWorld).1 = .ok (.ok ()) ∧
      (((plainStore.wire willingOrchestrator).perform "p" (.softDelete none)).run
        (createdWorld [])).1 = .ok (.ok ()) ∧
      ((((plainStore.wire willingOrchestrator).perform "p" (.softDelete none)).run
        (createdWorld [])).2.registry.get "p").map Person.status = some .deactivated ∧
      ¬ LeaverRan "p" (createdWorld [])
        (((plainStore.wire willingOrchestrator).perform "p" (.softDelete none)).run
          (createdWorld [])).2 := by
  refine ⟨by rfl, by rfl, by decide, ?_⟩
  have hdone : ((plainStore.wire willingOrchestrator).softDelete "p" none).run (createdWorld []) =
      (.ok (.ok ()), (((plainStore.wire willingOrchestrator).softDelete "p" none).run
        (createdWorld [])).2) := by rfl
  intro hran
  have hopen := (plainStore.leaverRan_iff_of_softDelete willingOrchestrator hdone).mp hran
  exact absurd hopen (by decide)

end UserStore

end CampusID
