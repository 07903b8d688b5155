import CampusID.Identity.Registry
import CampusID.Lifecycle.Retry
import CampusID.Lifecycle.Store
import CampusID.Oidc.Grants
import CampusID.Session.Store

/-!
# What a transition can reach

The orchestrator holds no state.  It acts on other people's: the Redis with the
sessions and the grants, the registry, the tables of the lifecycle, the audit trail,
the dead-letter table, and the downstream systems.  `World` puts these side by side,
and an `Action` is a computation over it that may raise.

A downstream system is a `ProvisioningTarget` over a state of its own type: what it
does there, and what it raises, is arbitrary.

`calls` is not part of the program.  It lists the calls on the collaborators that
returned, in order, so that a statement can say which were made and when.
-/

namespace CampusID

open Lib

/-- `PersonSpec`: the entry to create. -/
structure PersonSpec where
  uid : String
  givenName : String
  surname : String
  mail : Option String := none
  displayName : Option String := none
  principalName : Option String := none
  deriving DecidableEq, Repr

/-- `ProvisioningTarget`: a downstream system with the state `δ`, addressed by
login. -/
structure ProvisioningTarget (δ E : Type) where
  name : String
  provision : PersonSpec → Eff δ (Exn E) Unit
  disable : String → Eff δ (Exn E) Unit

/-! ## The audit trail -/

/-- The detail of a `DEPROVISION_STEP`.  Without dead letters the source leaves the key
out; here the list is empty. -/
inductive StepDetail where
  | provisionAccounts (targets deadLettered : List String)
  | provisionWithoutLogin
  | disableAccounts (targets deadLettered : List String)
  | disableWithoutLogin
  | terminateSessions (sessions : Nat)
  | revokeTokens (families : Nat)
  | revokeEntitlements (immediate deferred : Nat)
  deriving DecidableEq, Repr

/-- The audit events of the lifecycle. -/
inductive AuditEvent where
  | deprovisionStep (subject : String) (detail : StepDetail)
  | disableFailed (subject target : String) (attempts : Nat)
  | entitlementGranted (subject urn ruleId affiliation : String)
  | entitlementRevoked (subject urn : String) (effective graceDays : Int)
  | transitioned (kind : EventType) (subject : String) (source : Source)
      (before after granted revoked : List String)
  | leaver (subject : String) (affiliationsEnded : List String)
      (sessionsTerminated familiesRevoked : Nat) (targetsDisabled : List String)
  deriving DecidableEq, Repr

/-! ## The dead-letter table -/

/-- What a dead letter was trying to do. -/
inductive Operation where
  | provision
  | disable
  deriving DecidableEq, Repr

/-- `DeadLetter`: a downstream write that was given up on. -/
structure DeadLetter where
  personUuid : String
  target : String
  operation : Operation
  login : String
  attempts : List Attempt
  replayedAt : Option Int := none
  deriving DecidableEq, Repr

/-- The letter is still outstanding for this person, target and operation. -/
def DeadLetter.Outstanding (letter : DeadLetter) (personUuid target : String)
    (operation : Operation) : Prop :=
  letter.personUuid = personUuid ∧ letter.target = target ∧ letter.operation = operation ∧
    letter.replayedAt = none

instance (letter : DeadLetter) (personUuid target : String) (operation : Operation) :
    Decidable (letter.Outstanding personUuid target operation) :=
  inferInstanceAs (Decidable (_ ∧ _ ∧ _ ∧ _))

/-- `DeadLetterQueue.record`: file a failed write, or add to the one already filed. -/
def fileLetter (personUuid target : String) (operation : Operation) (login : String)
    (attempts : List Attempt) : List DeadLetter → List DeadLetter
  | [] => [⟨personUuid, target, operation, login, attempts, none⟩]
  | letter :: letters =>
    if letter.Outstanding personUuid target operation then
      { letter with attempts := letter.attempts ++ attempts, login := login } :: letters
    else letter :: fileLetter personUuid target operation login attempts letters

theorem exists_outstanding_fileLetter (personUuid target : String) (operation : Operation)
    (login : String) (attempts : List Attempt) (letters : List DeadLetter) :
    ∃ letter ∈ fileLetter personUuid target operation login attempts letters,
      letter.Outstanding personUuid target operation := by
  induction letters with
  | nil => exact ⟨_, List.mem_singleton_self _, rfl, rfl, rfl, rfl⟩
  | cons letter letters ih =>
    unfold fileLetter
    by_cases h : letter.Outstanding personUuid target operation
    · rw [if_pos h]
      exact ⟨_, List.mem_cons_self, h⟩
    · rw [if_neg h]
      obtain ⟨found, hmem, hout⟩ := ih
      exact ⟨found, List.mem_cons_of_mem _ hmem, hout⟩

theorem outstanding_fileLetter {personUuid target : String} {operation : Operation}
    (personUuid' target' : String) (operation' : Operation) (login : String)
    (attempts : List Attempt) {letters : List DeadLetter}
    (h : ∃ letter ∈ letters, letter.Outstanding personUuid target operation) :
    ∃ letter ∈ fileLetter personUuid' target' operation' login attempts letters,
      letter.Outstanding personUuid target operation := by
  induction letters with
  | nil => simp at h
  | cons head letters ih =>
    obtain ⟨letter, hmem, hout⟩ := h
    unfold fileLetter
    by_cases hh : head.Outstanding personUuid' target' operation'
    · rw [if_pos hh]
      rcases List.mem_cons.mp hmem with rfl | hmem
      · exact ⟨_, List.mem_cons_self, hout⟩
      · exact ⟨letter, List.mem_cons_of_mem _ hmem, hout⟩
    · rw [if_neg hh]
      rcases List.mem_cons.mp hmem with rfl | hmem
      · exact ⟨letter, List.mem_cons_self, hout⟩
      · obtain ⟨found, hfound, hout'⟩ := ih ⟨letter, hmem, hout⟩
        exact ⟨found, List.mem_cons_of_mem _ hfound, hout'⟩

/-! ## The world -/

/-- A call on a collaborator that returned.  A target is named by its position. -/
inductive Call where
  | provisioned (target : Nat) (personUuid : String) (spec : PersonSpec)
  | disabled (target : Nat) (personUuid login : String)
  | terminatedSubject (subjectKey : String) (sids : List String)
  | revokedSessionFamilies (sid : String)
  | appliedDelta (personUuid : String) (delta : Delta)
  | invalidatedDecisions (personUuid : String)
  deriving DecidableEq, Repr

/-- Everything a transition can reach, the clock and the rules in force included. -/
structure World (Doc δ : Type) where
  redis : Redis
  now : Int
  today : Int
  rules : LifecycleRules
  registry : Registry Doc
  lifecycle : LifecycleTables
  audit : List AuditEvent := []
  deadLetters : List DeadLetter := []
  downstream : δ
  calls : List Call := []

/-- `m` is `w` after something that talked only to the downstream systems: the broker's
own stores are as they were, and every call made since is of the kind `P`. -/
structure World.Aside {Doc δ : Type} (P : Call → Prop) (w m : World Doc δ) : Prop where
  redis : m.redis = w.redis
  now : m.now = w.now
  today : m.today = w.today
  rules : m.rules = w.rules
  registry : m.registry = w.registry
  lifecycle : m.lifecycle = w.lifecycle
  calls : ∃ made, m.calls = w.calls ++ made ∧ ∀ c ∈ made, P c

theorem World.Aside.refl {Doc δ : Type} (P : Call → Prop) (w : World Doc δ) : w.Aside P w :=
  ⟨rfl, rfl, rfl, rfl, rfl, rfl, [], by simp, by simp⟩

/-- A computation over the world. -/
abbrev Action (Doc δ E : Type) := Eff (World Doc δ) (Exn E)

namespace Action

variable {Doc δ E α : Type}

/-- Run a program against Redis. -/
def onRedis (p : RedisProg α) : Action Doc δ E α :=
  Eff.step fun w => ((Redis.run w.now p w.redis).1,
    { w with redis := (Redis.run w.now p w.redis).2 })

/-- Call a downstream system. -/
def onDownstream (x : Eff δ (Exn E) α) : Action Doc δ E α := fun w =>
  ((x.run w.downstream).1, { w with downstream := (x.run w.downstream).2 })

/-- `AuditLog.record`. -/
def record (event : AuditEvent) : Action Doc δ E Unit :=
  Eff.update fun w => { w with audit := w.audit ++ [event] }

/-- `_step`. -/
def step (personUuid : String) (detail : StepDetail) : Action Doc δ E Unit :=
  record (.deprovisionStep personUuid detail)

/-- A call returned. -/
def note (call : Call) : Action Doc δ E Unit :=
  Eff.update fun w => { w with calls := w.calls ++ [call] }

/-- `DeadLetterQueue.record`. -/
def deadLetter (personUuid target : String) (operation : Operation) (login : String)
    (attempts : List Attempt) : Action Doc δ E Unit :=
  Eff.update fun w =>
    { w with
      deadLetters := fileLetter personUuid target operation login attempts w.deadLetters }

section Aside

variable {P : Call → Prop} {w : World Doc δ}

theorem aside_onDownstream (x : Eff δ (Exn E) α) :
    Eff.Preserves (w.Aside P) (onDownstream x : Action Doc δ E α) :=
  fun _ h => ⟨h.redis, h.now, h.today, h.rules, h.registry, h.lifecycle, h.calls⟩

theorem aside_record (event : AuditEvent) :
    Eff.Preserves (w.Aside P) (record event : Action Doc δ E Unit) :=
  fun _ h => ⟨h.redis, h.now, h.today, h.rules, h.registry, h.lifecycle, h.calls⟩

theorem aside_deadLetter (personUuid target : String) (operation : Operation) (login : String)
    (attempts : List Attempt) : Eff.Preserves (w.Aside P)
      (deadLetter personUuid target operation login attempts : Action Doc δ E Unit) :=
  fun _ h => ⟨h.redis, h.now, h.today, h.rules, h.registry, h.lifecycle, h.calls⟩

theorem aside_note {call : Call} (hcall : P call) :
    Eff.Preserves (w.Aside P) (note call : Action Doc δ E Unit) := by
  intro m h
  obtain ⟨made, hmade, hP⟩ := h.calls
  refine ⟨h.redis, h.now, h.today, h.rules, h.registry, h.lifecycle, made ++ [call], ?_, ?_⟩
  · simp [note, hmade]
  · intro c hc
    rcases List.mem_append.mp hc with hc | hc
    · exact hP c hc
    · obtain rfl := List.mem_singleton.mp hc
      exact hcall

end Aside

@[simp] theorem run_onDownstream (x : Eff δ (Exn E) α) (w : World Doc δ) :
    (onDownstream x).run w =
      ((x.run w.downstream).1, { w with downstream := (x.run w.downstream).2 }) := rfl

end Action

end CampusID
