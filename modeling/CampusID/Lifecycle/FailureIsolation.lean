import CampusID.Lifecycle.Orchestrator

/-!
# A failing downstream system and the leaver sequence

The first step of a leaver is the only one that can fail, and everything else comes
after it.  Each target is tried up to five times.  A target that exhausts its attempts
is filed as a dead letter and the sequence goes on; a target that raises something the
orchestrator does not take for transient is not caught at all, and the sessions, the
tokens and the entitlements are left as they are.

`Answered` is the condition on the targets: each comes, in its turn, to a return or to
exhaustion.  `collect_disable_of_answered` carries it through the loop and
`collect_disable_of_not_answered` shows that nothing else gets through.
-/

namespace CampusID

open Lib

namespace Orchestrator

variable {Doc δ E : Type} (o : Orchestrator δ E)

/-! ## What a completed sequence is -/

/-- A target is recorded as disabled, by a call among `made`, or as dead-lettered, by an
outstanding letter. -/
def RecordedAs (personUuid : String) (made : List Call) (letters : List DeadLetter)
    (target : ProvisioningTarget δ E × Nat) (outcome : String × Bool) : Prop :=
  outcome.1 = target.1.name ∧
    ((outcome.2 = true ∧ ∃ login, .disabled target.2 personUuid login ∈ made) ∨
      (outcome.2 = false ∧
        ∃ letter ∈ letters, letter.Outstanding personUuid target.1.name .disable))

/-- The sequence did all of it: the sessions, the families of the sessions it ended and
the delta, in this order, after every target was recorded as disabled or
dead-lettered. -/
def LeaverCompleted (personUuid : String) (delta : Delta) (w w' : World Doc δ) : Prop :=
  ∃ made sids later outcomes trail,
    w'.calls = w.calls ++ (made ++ .terminatedSubject personUuid sids ::
      (sids.map .revokedSessionFamilies ++ .appliedDelta personUuid delta :: later)) ∧
    w'.audit = w.audit ++ trail ∧
    .deprovisionStep personUuid (.disableAccounts (taken outcomes) (givenUp outcomes)) ∈ trail ∧
    List.Forall₂ (RecordedAs personUuid made w'.deadLetters) o.targets.zipIdx outcomes

/-! ## What the targets have to do -/

/-- The state in which a target's attempts at disabling an account end, unless they end
in an exception that is neither transient nor an exhaustion. -/
def answer (login : String) (target : ProvisioningTarget δ E) (d : δ) : Option δ :=
  match o.retry.settle (target.disable login) maxAttempts d with
  | (some (.error (.downstream _)), _) => none
  | (_, d') => some d'

/-- Every target, in its turn, comes to a return or to exhaustion. -/
def Answered (login : String) : List (ProvisioningTarget δ E) → δ → Prop
  | [], _ => True
  | target :: targets, d => ∃ d', o.answer login target d = some d' ∧ Answered login targets d'

/-! ## One target -/

theorem disableOne_of_answer (hqueue : o.deadLetters = true) (personUuid : String) {login : String}
    {target : ProvisioningTarget δ E × Nat} {w : World Doc δ} {d' : δ}
    (h : o.answer login target.1 w.downstream = some d') :
    (o.disableOne personUuid login target : Action Doc δ E _).run w =
        (.ok (target.1.name, true), { w with
          downstream := d'
          calls := w.calls ++ [.disabled target.2 personUuid login] }) ∨
      ∃ attempts, (o.disableOne personUuid login target : Action Doc δ E _).run w =
        (.ok (target.1.name, false), { w with
          downstream := d'
          deadLetters :=
            fileLetter personUuid target.1.name .disable login attempts w.deadLetters
          audit := w.audit ++ [.disableFailed personUuid target.1.name attempts.length] }) := by
  unfold answer at h
  rcases hs : o.retry.settle (target.1.disable login) maxAttempts w.downstream with ⟨outcome, d⟩
  rw [hs] at h
  rcases outcome with - | (attempts | e) | u
  · -- exhausted after five transient failures
    obtain rfl : d = d' := by simpa using h
    obtain ⟨attempts, -, hrun⟩ := o.retry.withRetries_of_exhausted hs
    refine Or.inr ⟨attempts, ?_⟩
    simp [disableOne, hrun, hqueue, Action.deadLetter, Action.record]
  · -- the target raised an exhaustion of its own
    obtain rfl : d = d' := by simpa using h
    have hrun := o.retry.withRetries_of_settled hs
    refine Or.inr ⟨attempts, ?_⟩
    simp [disableOne, hrun, hqueue, Action.deadLetter, Action.record]
  · simp at h
  · obtain rfl : d = d' := by simpa using h
    have hrun := o.retry.withRetries_of_settled hs
    left
    simp [disableOne, hrun, Action.note]

/-- `_disable_one` with a target that did not: what it raised goes through. -/
theorem disableOne_of_not_answer (personUuid : String) {login : String}
    {target : ProvisioningTarget δ E × Nat} {w : World Doc δ}
    (h : o.answer login target.1 w.downstream = none) :
    ∃ e m, (o.disableOne personUuid login target : Action Doc δ E _).run w = (.error e, m) := by
  unfold answer at h
  rcases hs : o.retry.settle (target.1.disable login) maxAttempts w.downstream with ⟨outcome, d⟩
  rw [hs] at h
  rcases outcome with - | (attempts | e) | u
  · simp at h
  · simp at h
  · have hrun := o.retry.withRetries_of_settled hs
    exact ⟨.downstream e, { w with downstream := d }, by simp [disableOne, hrun]⟩
  · simp at h

/-! ## The loop -/

theorem RecordedAs.mono {personUuid : String} {made made' : List Call}
    {letters letters' : List DeadLetter} {target : ProvisioningTarget δ E × Nat}
    {outcome : String × Bool} (h : RecordedAs personUuid made letters target outcome)
    (hmade : ∀ c ∈ made, c ∈ made')
    (hletters : (∃ letter ∈ letters, letter.Outstanding personUuid target.1.name .disable) →
      ∃ letter ∈ letters', letter.Outstanding personUuid target.1.name .disable) :
    RecordedAs personUuid made' letters' target outcome := by
  refine ⟨h.1, ?_⟩
  rcases h.2 with ⟨hok, login, hmem⟩ | ⟨hfail, hletter⟩
  · exact Or.inl ⟨hok, login, hmade _ hmem⟩
  · exact Or.inr ⟨hfail, hletters hletter⟩

/-- The loop over targets that all answer: it records every one of them, and loses no
letter that was outstanding before. -/
theorem collect_disable_of_answered (hqueue : o.deadLetters = true) (personUuid : String)
    {login : String} {targets : List (ProvisioningTarget δ E × Nat)} {w : World Doc δ}
    (h : o.Answered login (targets.map Prod.fst) w.downstream) :
    ∃ outcomes m made trail,
      (Eff.collect (o.disableOne personUuid login) targets : Action Doc δ E _).run w =
        (.ok outcomes, m) ∧
      m.calls = w.calls ++ made ∧ m.audit = w.audit ++ trail ∧
      (∀ name, (∃ letter ∈ w.deadLetters, letter.Outstanding personUuid name .disable) →
        ∃ letter ∈ m.deadLetters, letter.Outstanding personUuid name .disable) ∧
      List.Forall₂ (RecordedAs personUuid made m.deadLetters) targets outcomes := by
  induction targets generalizing w with
  | nil => exact ⟨[], w, [], [], rfl, by simp, by simp, fun _ h => h, .nil⟩
  | cons target targets ih =>
    obtain ⟨d', hd', hrest⟩ := h
    rcases o.disableOne_of_answer hqueue personUuid hd' with hone | ⟨attempts, hone⟩
    · -- the target took the call: it is recorded by the call
      obtain ⟨outcomes, m, made, trail, hrun, hcalls, haudit, hletters, hrec⟩ := ih (w := { w with
        downstream := d', calls := w.calls ++ [.disabled target.2 personUuid login] }) hrest
      refine ⟨(target.1.name, true) :: outcomes, m,
        .disabled target.2 personUuid login :: made, trail, ?_, ?_, haudit, hletters, ?_⟩
      · rw [Eff.collect, Eff.run_bind_of_ok hone, Eff.run_bind_of_ok hrun]
        rfl
      · simp [hcalls]
      · refine .cons ⟨rfl, Or.inl ⟨rfl, login, List.mem_cons_self⟩⟩ ?_
        exact hrec.imp fun _ _ h => h.mono (fun _ hc => List.mem_cons_of_mem _ hc) id
    · -- the target was given up on: it is recorded by the letter, which later letters keep
      obtain ⟨outcomes, m, made, trail, hrun, hcalls, haudit, hletters, hrec⟩ := ih (w := { w with
        downstream := d'
        deadLetters := fileLetter personUuid target.1.name .disable login attempts w.deadLetters
        audit := w.audit ++ [.disableFailed personUuid target.1.name attempts.length] }) hrest
      refine ⟨(target.1.name, false) :: outcomes, m, made,
        .disableFailed personUuid target.1.name attempts.length :: trail, ?_, hcalls, ?_, ?_, ?_⟩
      · rw [Eff.collect, Eff.run_bind_of_ok hone, Eff.run_bind_of_ok hrun]
        rfl
      · simp [haudit]
      · exact fun name hold => hletters name (outstanding_fileLetter _ _ _ _ _ hold)
      · refine .cons ⟨rfl, Or.inr ⟨rfl, ?_⟩⟩ hrec
        exact hletters _ (exists_outstanding_fileLetter _ _ _ _ _ _)

/-- The loop over targets that do not all answer: what the first of these raised ends
it. -/
theorem collect_disable_of_not_answered (hqueue : o.deadLetters = true)
    (personUuid : String) {login : String} {targets : List (ProvisioningTarget δ E × Nat)}
    {w : World Doc δ} (h : ¬ o.Answered login (targets.map Prod.fst) w.downstream) :
    ∃ e m, (Eff.collect (o.disableOne personUuid login) targets : Action Doc δ E _).run w =
      (.error e, m) := by
  induction targets generalizing w with
  | nil => exact absurd trivial h
  | cons target targets ih =>
    cases ha : o.answer login target.1 w.downstream with
    | none =>
      obtain ⟨e, m, hone⟩ := o.disableOne_of_not_answer personUuid ha
      exact ⟨e, m, by rw [Eff.collect, Eff.run_bind_of_error hone]⟩
    | some d' =>
      have hrest : ¬ o.Answered login (targets.map Prod.fst) d' := fun hr => h ⟨d', ha, hr⟩
      rcases o.disableOne_of_answer hqueue personUuid ha with
        hone | ⟨attempts, hone⟩
      · obtain ⟨e, m, hrun⟩ := ih (w := { w with
          downstream := d', calls := w.calls ++ [.disabled target.2 personUuid login] }) hrest
        exact ⟨e, m, by rw [Eff.collect, Eff.run_bind_of_ok hone, Eff.run_bind_of_error hrun]⟩
      · obtain ⟨e, m, hrun⟩ := ih (w := { w with
          downstream := d'
          deadLetters := fileLetter personUuid target.1.name .disable login attempts w.deadLetters
          audit := w.audit ++ [.disableFailed personUuid target.1.name attempts.length] }) hrest
        exact ⟨e, m, by rw [Eff.collect, Eff.run_bind_of_ok hone, Eff.run_bind_of_error hrun]⟩

/-! ## The sequence -/

/-- The person can be addressed downstream, and every target comes to a return or to
exhaustion. -/
def Isolated (personUuid : String) (w : World Doc δ) : Prop :=
  o.targets = [] ∨ ∃ login, o.identity = true ∧ w.registry.loginFor personUuid = some login ∧
    o.Answered login o.targets w.downstream

theorem disableAccounts_of_isolated (hqueue : o.deadLetters = true) {personUuid : String}
    {w : World Doc δ} (h : o.Isolated personUuid w) :
    ∃ disabled m made trail outcomes,
      (o.disableAccounts personUuid : Action Doc δ E _).run w = (.ok disabled, m) ∧
      m.calls = w.calls ++ made ∧ m.audit = w.audit ++ trail ∧
      .deprovisionStep personUuid (.disableAccounts (taken outcomes) (givenUp outcomes)) ∈ trail ∧
      List.Forall₂ (RecordedAs personUuid made m.deadLetters) o.targets.zipIdx outcomes := by
  by_cases hnil : o.targets = []
  · refine ⟨[], { w with audit := w.audit ++ [.deprovisionStep personUuid
      (.disableAccounts [] [])] }, [], [.deprovisionStep personUuid (.disableAccounts [] [])], [],
      ?_, by simp, rfl, ?_, ?_⟩
    · simp [disableAccounts, hnil, Action.step, Action.record]
    · exact List.mem_singleton_self _
    · rw [hnil]
      exact .nil
  · obtain hnil' | ⟨login, hid, hlogin, hans⟩ := h
    · exact absurd hnil' hnil
    rw [← List.zipIdx_map_fst 0 o.targets] at hans
    obtain ⟨outcomes, m, made, trail, hrun, hcalls, haudit, -, hrec⟩ :=
      o.collect_disable_of_answered hqueue personUuid hans
    refine ⟨taken outcomes, { m with audit := m.audit ++ [.deprovisionStep personUuid
      (.disableAccounts (taken outcomes) (givenUp outcomes))] }, made,
      trail ++ [.deprovisionStep personUuid
        (.disableAccounts (taken outcomes) (givenUp outcomes))], outcomes, ?_, hcalls, ?_, ?_, hrec⟩
    · rw [disableAccounts, if_neg hnil, loginFor, Eff.run_read_bind, if_pos hid, hlogin]
      exact (Eff.run_bind_of_ok hrun).trans rfl
    · simp [haudit]
    · simp

theorem disableAccounts_of_not_isolated (hqueue : o.deadLetters = true) {personUuid : String}
    {w : World Doc δ} (h : ¬ o.Isolated personUuid w) :
    (o.disableAccounts personUuid : Action Doc δ E _).run w =
        (.ok [], { w with audit := w.audit ++ [.deprovisionStep personUuid .disableWithoutLogin] }) ∨
      ∃ e m, (o.disableAccounts personUuid : Action Doc δ E _).run w = (.error e, m) := by
  have hnil : o.targets ≠ [] := fun hnil => h (Or.inl hnil)
  cases hl : (if o.identity then w.registry.loginFor personUuid else none) with
  | none =>
    left
    rw [disableAccounts, if_neg hnil, loginFor, Eff.run_read_bind, hl]
    rfl
  | some login =>
    right
    have hid : o.identity = true := by
      by_contra hid
      simp [hid] at hl
    rw [if_pos hid] at hl
    have hans : ¬ o.Answered login o.targets w.downstream :=
      fun hans => h (Or.inr ⟨login, hid, hl, hans⟩)
    rw [← List.zipIdx_map_fst 0 o.targets] at hans
    obtain ⟨e, m, hrun⟩ := o.collect_disable_of_not_answered hqueue personUuid hans
    refine ⟨e, m, ?_⟩
    rw [disableAccounts, if_neg hnil, loginFor, Eff.run_read_bind, if_pos hid, hl]
    exact Eff.run_bind_of_error hrun

theorem not_leaverCompleted_of_aside {personUuid : String} {delta : Delta} {w m : World Doc δ}
    (h : w.Aside (IsDisable personUuid) m) : ¬ o.LeaverCompleted personUuid delta w m := by
  rintro ⟨made, sids, later, outcomes, trail, hcalls, -⟩
  obtain ⟨made', hmade', hP⟩ := h.calls
  rw [hmade'] at hcalls
  have heq := List.append_cancel_left hcalls
  obtain ⟨i, login, hc⟩ := hP (.terminatedSubject personUuid sids) (by simp [heq])
  cases hc

/-- **The leaver sequence against arbitrary downstream systems.**  With a dead-letter
queue, it ends the sessions, revokes their families and applies the delta, in that
order, with every target recorded as disabled or dead-lettered, exactly when there are
no targets, or the person has a login and no target raises, before it returns and within
its five attempts, an exception the orchestrator does not take for transient. -/
theorem leaverCompleted_iff_isolated (hqueue : o.deadLetters = true) (personUuid : String)
    (before : Finset String) (source : Source) (on : Option Int) (w : World Doc δ) :
    o.LeaverCompleted personUuid (w.rules.transition before ∅ (on.getD w.today)) w
      ((o.deprovision personUuid before source on).run w).2 ↔ o.Isolated personUuid w := by
  constructor
  · intro hdone
    by_contra hiso
    rcases o.disableAccounts_of_not_isolated hqueue hiso with hrun | ⟨e, m, hrun⟩
    · -- no login: the trail has no record of the targets
      obtain ⟨families, hdep⟩ := o.deprovision_of_ok hrun before source on
      rw [hdep] at hdone
      obtain ⟨made, sids, later, outcomes, trail, -, haudit, hstep, -⟩ := hdone
      simp only [List.append_assoc, List.append_cancel_left_eq] at haudit
      rw [← haudit] at hstep
      simp [leaverTrail] at hstep
    · have haside := o.disableAccounts_aside personUuid w
      rw [hrun] at haside
      rw [o.deprovision_of_error hrun before source on] at hdone
      exact o.not_leaverCompleted_of_aside haside hdone
  · intro hiso
    obtain ⟨disabled, m, made, trail, outcomes, hrun, hcalls, haudit, hstep, hrec⟩ :=
      o.disableAccounts_of_isolated hqueue hiso
    obtain ⟨families, hdep⟩ := o.deprovision_of_ok hrun before source on
    rw [hdep]
    refine ⟨made, o.leaverSids personUuid m,
      if o.decisions then [.invalidatedDecisions personUuid] else [], outcomes,
      trail ++ leaverTrail personUuid before (w.rules.transition before ∅ (on.getD w.today))
        disabled (o.leaverSids personUuid m).length families, ?_, ?_, ?_, hrec⟩
    · simp [hcalls, leaverCalls]
    · simp [haudit]
    · exact List.mem_append_left _ hstep

/-! ## A directory that refuses -/

/-- A directory that refuses every write. -/
def refusingTarget : ProvisioningTarget Unit Unit where
  name := "ldap"
  provision := fun _ => Eff.raise (.downstream ())
  disable := fun _ => Eff.raise (.downstream ())

/-- An orchestrator in front of it, with a dead-letter queue and a choice of what is
transient. -/
def refusedOrchestrator (transient : Bool) : Orchestrator Unit Unit where
  sessions := { sha256 := id }
  grants := { sha256 := id }
  targets := [refusingTarget]
  retry := ⟨fun _ => transient, fun _ => "refused"⟩

/-- One person with one ePPN. -/
def refusedWorld : World Unit Unit where
  redis := Store.empty
  now := 0
  today := 0
  rules := {}
  registry :=
    { persons := [{ personUuid := "p" }]
      identifiers := [{ personUuid := "p", idType := .eppn, value := "alice@campus.edu",
                        scope := some "campus.edu", isPrimary := true, issuedAt := 0 }] }
  lifecycle := {}
  downstream := ()

/-- With the refusal taken for transient, it ends as a dead letter and the sequence is
completed. -/
theorem leaverCompleted_when_exhausted :
    (refusedOrchestrator true).Isolated "p" refusedWorld ∧
      (refusedOrchestrator true).LeaverCompleted "p"
        (refusedWorld.rules.transition {"student"} ∅ 0) refusedWorld
        (((refusedOrchestrator true).deprovision "p" {"student"} .scim none).run refusedWorld).2 := by
  have hiso : (refusedOrchestrator true).Isolated "p" refusedWorld :=
    Or.inr ⟨"alice@campus.edu", rfl, rfl, (), rfl, trivial⟩
  exact ⟨hiso, ((refusedOrchestrator true).leaverCompleted_iff_isolated rfl "p" {"student"} .scim
    none refusedWorld).mpr hiso⟩

/-- With the refusal not taken for transient, the queue stays empty and the person's
sessions, tokens and entitlements are never reached. -/
theorem refusal_stops_leaver :
    (refusedOrchestrator false).deadLetters = true ∧
      ((refusedOrchestrator false).deprovision "p" {"student"} .scim none).run refusedWorld =
        (.error (.downstream ()), refusedWorld) ∧
      ¬ (refusedOrchestrator false).LeaverCompleted "p"
        (refusedWorld.rules.transition {"student"} ∅ 0) refusedWorld
        (((refusedOrchestrator false).deprovision "p" {"student"} .scim none).run
          refusedWorld).2 := by
  have hrun : ((refusedOrchestrator false).deprovision "p" {"student"} .scim none).run
      refusedWorld = (.error (.downstream ()), refusedWorld) := rfl
  refine ⟨rfl, hrun, ?_⟩
  rw [hrun]
  exact (refusedOrchestrator false).not_leaverCompleted_of_aside (World.Aside.refl _ _)

end Orchestrator

end CampusID
