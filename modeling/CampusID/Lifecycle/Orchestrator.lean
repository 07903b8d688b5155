import Mathlib.Algebra.GroupWithZero.Nat
import CampusID.Lifecycle.World

/-!
# Joiner, mover and leaver

`LifecycleOrchestrator`: a transition and everything that follows from it, in order.
A leaver is disabled downstream first, then loses their sessions, the token families
of those sessions, and their entitlements.  Anybody else has the delta written down
first and is provisioned downstream afterwards.

The leaver sequence falls into two parts that behave very differently.
`disableAccounts` talks to systems that may raise anything.  What comes after it,
`ownSteps`, is the broker's own and cannot fail: `ownSteps_spec` says what it leaves
behind, and `deprovision_of_ok`, `deprovision_of_error` how the two are joined.
-/

namespace CampusID

open Lib

/-- `Delta.immediate`. -/
def Delta.immediate (delta : Delta) : List Revocation :=
  delta.revoked.filter (·.graceDays = 0)

/-- `Delta.deferred`. -/
def Delta.deferred (delta : Delta) : List Revocation :=
  delta.revoked.filter (0 < ·.graceDays)

/-- `LifecycleOrchestrator`.  The collaborators that are optional in the source are
present or not; `targets` may be empty. -/
structure Orchestrator (δ E : Type) where
  sessions : SessionStore
  grants : GrantStore
  targets : List (ProvisioningTarget δ E) := []
  identity : Bool := true
  deadLetters : Bool := true
  decisions : Bool := true
  retry : RetryPolicy E

/-- The login and the local part `_spec_for` puts in a spec, and what else it takes from
the registry. -/
def specOf (login : String) (mail : Option String) (person : Option Person) : PersonSpec where
  uid := Text.beforeFirst '@' login
  givenName := (person.bind Person.givenName).getD ""
  surname :=
    match person.bind Person.surname with
    | some surname => if surname = "" then Text.beforeFirst '@' login else surname
    | none => Text.beforeFirst '@' login
  mail := mail
  displayName := person.bind Person.displayName
  principalName := some login

namespace Registry

variable {Doc : Type} (registry : Registry Doc)

/-- The login `_spec_for` picks: the first live ePPN marked primary, else the first live
one. -/
def provisioningLogin (personUuid : String) : Option String :=
  let identifiers := registry.liveIdentifiers personUuid
  match identifiers.find? fun row => row.idType = .eppn ∧ row.isPrimary with
  | some row => some row.value
  | none => (identifiers.find? (·.idType = .eppn)).map Identifier.value

/-- `_spec_for`, over a registry that is there. -/
def specFor (personUuid : String) : Option PersonSpec :=
  (registry.provisioningLogin personUuid).map fun login =>
    specOf login
      (((registry.liveIdentifiers personUuid).find? (·.idType = .mail)).map Identifier.value)
      (registry.get personUuid)

/-- `_login_for`, over a registry that is there: the first live ePPN, else the first one
of any. -/
def loginFor (personUuid : String) : Option String :=
  let eppns := (registry.allIdentifiers personUuid).filter (·.idType = .eppn)
  match eppns.filter (·.Live) with
  | row :: _ => some row.value
  | [] => eppns.head?.map Identifier.value

end Registry

namespace Orchestrator

variable {Doc δ E : Type} (o : Orchestrator δ E)

/-- `_spec_for`. -/
def specFor (personUuid : String) : Action Doc δ E (Option PersonSpec) :=
  Eff.read fun w => if o.identity then w.registry.specFor personUuid else none

/-- `_login_for`. -/
def loginFor (personUuid : String) : Action Doc δ E (Option String) :=
  Eff.read fun w => if o.identity then w.registry.loginFor personUuid else none

/-! ## Downstream -/

/-- The body of the loop in `_provision_accounts`: whether the target took the spec. -/
def provisionOne (personUuid : String) (spec : PersonSpec)
    (target : ProvisioningTarget δ E × Nat) : Action Doc δ E (String × Bool) := do
  let outcome ← Eff.attempt (Action.onDownstream (o.retry.withRetries (target.1.provision spec)))
  match outcome with
  | .ok () => do
    Action.note (.provisioned target.2 personUuid spec)
    return (target.1.name, true)
  | .error (.retriesExhausted attempts) =>
    if o.deadLetters then do
      Action.deadLetter personUuid target.1.name .provision spec.uid attempts
      return (target.1.name, false)
    else Eff.raise (.retriesExhausted attempts)
  | .error e => Eff.raise e

/-- `_disable_one`. -/
def disableOne (personUuid login : String) (target : ProvisioningTarget δ E × Nat) :
    Action Doc δ E (String × Bool) := do
  let outcome ← Eff.attempt (Action.onDownstream (o.retry.withRetries (target.1.disable login)))
  match outcome with
  | .ok () => do
    Action.note (.disabled target.2 personUuid login)
    return (target.1.name, true)
  | .error (.retriesExhausted attempts) =>
    if o.deadLetters then do
      Action.deadLetter personUuid target.1.name .disable login attempts
      Action.record (.disableFailed personUuid target.1.name attempts.length)
      return (target.1.name, false)
    else Eff.raise (.retriesExhausted attempts)
  | .error e => Eff.raise e

/-- The targets that took a call. -/
def taken (outcomes : List (String × Bool)) : List String :=
  (outcomes.filter (·.2)).map Prod.fst

/-- The targets a call was given up on. -/
def givenUp (outcomes : List (String × Bool)) : List String :=
  (outcomes.filter (!·.2)).map Prod.fst

/-- `_provision_accounts`. -/
def provisionAccounts (personUuid : String) : Action Doc δ E Unit :=
  if o.targets = [] then Action.step personUuid (.provisionAccounts [] [])
  else do
    let spec ← o.specFor personUuid
    match spec with
    | none => Action.step personUuid .provisionWithoutLogin
    | some spec => do
      let outcomes ← Eff.collect (o.provisionOne personUuid spec) o.targets.zipIdx
      Action.step personUuid (.provisionAccounts (taken outcomes) (givenUp outcomes))

/-- `_disable_accounts`. -/
def disableAccounts (personUuid : String) : Action Doc δ E (List String) :=
  if o.targets = [] then do
    Action.step personUuid (.disableAccounts [] [])
    return []
  else do
    let login ← o.loginFor personUuid
    match login with
    | none => do
      Action.step personUuid .disableWithoutLogin
      return []
    | some login => do
      let outcomes ← Eff.collect (o.disableOne personUuid login) o.targets.zipIdx
      Action.step personUuid (.disableAccounts (taken outcomes) (givenUp outcomes))
      return taken outcomes

/-! ## The broker's own steps -/

/-- `SessionStore.terminate_subject`, as the orchestrator calls it. -/
def terminateSubject (personUuid : String) : Action Doc δ E (List String) := do
  let sids ← Action.onRedis (o.sessions.terminateSubject personUuid)
  Action.note (.terminatedSubject personUuid sids)
  return sids

/-- `GrantStore.revoke_session_families`, as the orchestrator calls it. -/
def revokeSessionFamilies (sid : String) : Action Doc δ E (List String) := do
  let families ← Action.onRedis (o.grants.revokeSessionFamilies sid)
  Action.note (.revokedSessionFamilies sid)
  return families

/-- `LifecycleStore.apply`, as the orchestrator calls it. -/
def applyDelta (personUuid : String) (delta : Delta) (before after : Finset String)
    (source : Source) : Action Doc δ E Unit := do
  Eff.update fun w =>
    { w with lifecycle := w.lifecycle.apply personUuid delta before after source w.now }
  Action.note (.appliedDelta personUuid delta)

/-- `_invalidate_decisions`. -/
def invalidateDecisions (personUuid : String) : Action Doc δ E Unit :=
  if o.decisions then Action.note (.invalidatedDecisions personUuid) else pure ()

/-- Steps two to five of `_deprovision`: the sessions, their families, the entitlements,
the cached decisions, and the event that closes the sequence. -/
def ownSteps (personUuid : String) (before : Finset String) (delta : Delta) (source : Source)
    (disabled : List String) : Action Doc δ E Unit := do
  let sids ← o.terminateSubject personUuid
  Action.step personUuid (.terminateSessions sids.length)
  let families ← Eff.collect o.revokeSessionFamilies sids
  Action.step personUuid (.revokeTokens (families.map List.length).sum)
  applyDelta personUuid delta before ∅ source
  Action.step personUuid (.revokeEntitlements delta.immediate.length delta.deferred.length)
  o.invalidateDecisions personUuid
  Action.record (.leaver personUuid (Text.sorted before) sids.length
    (families.map List.length).sum disabled)

/-- `deprovision`. -/
def deprovision (personUuid : String) (before : Finset String) (source : Source := .scim)
    (on : Option Int := none) : Action Doc δ E Delta := do
  let delta ← Eff.read fun w => w.rules.transition before ∅ (on.getD w.today)
  let disabled ← o.disableAccounts personUuid
  o.ownSteps personUuid before delta source disabled
  return delta

/-! ## Joiner and mover -/

/-- `EVENT_FOR`, with its default. -/
def eventFor : EventType → EventType
  | .joiner => .joiner
  | .leaver => .leaver
  | .mover | .graceExpiry => .mover

/-- The events `_record_delta` writes: one for each entitlement, and one for the
transition. -/
def deltaTrail (personUuid : String) (before after : Finset String) (delta : Delta)
    (source : Source) : List AuditEvent :=
  delta.granted.map (fun g => .entitlementGranted personUuid g.urn g.ruleId g.affiliation) ++
    delta.revoked.map (fun r => .entitlementRevoked personUuid r.urn r.effective r.graceDays) ++
    [.transitioned (eventFor (eventType before after)) personUuid source (Text.sorted before)
      (Text.sorted after) (delta.granted.map Grant.urn) (delta.revoked.map Revocation.urn)]

/-- `_record_delta`. -/
def recordDelta (personUuid : String) (before after : Finset String) (delta : Delta)
    (source : Source) : Action Doc δ E Unit :=
  Eff.update fun w =>
    { w with audit := w.audit ++ deltaTrail personUuid before after delta source }

/-- `transitioned`. -/
def transitioned (personUuid : String) (before after : Finset String)
    (source : Source := .scim) (on : Option Int := none) : Action Doc δ E Delta :=
  if after = ∅ ∧ before ≠ ∅ then o.deprovision personUuid before source on
  else do
    let delta ← Eff.read fun w => w.rules.transition before after (on.getD w.today)
    applyDelta personUuid delta before after source
    o.provisionAccounts personUuid
    o.invalidateDecisions personUuid
    recordDelta personUuid before after delta source
    return delta

/-! ## What talking downstream leaves alone -/

/-- An account was created for this person. -/
def IsProvision (personUuid : String) (c : Call) : Prop := ∃ i spec, c = .provisioned i personUuid spec

/-- An account of this person was disabled. -/
def IsDisable (personUuid : String) (c : Call) : Prop := ∃ i login, c = .disabled i personUuid login

theorem provisionOne_aside (w : World Doc δ) (personUuid : String) (spec : PersonSpec)
    (target : ProvisioningTarget δ E × Nat) :
    Eff.Preserves (w.Aside (IsProvision personUuid)) (o.provisionOne personUuid spec target) := by
  refine Eff.Preserves.bind (Eff.Preserves.attempt (Action.aside_onDownstream _)) fun outcome => ?_
  rcases outcome with (attempts | e) | u
  · show Eff.Preserves _ (ite _ _ _)
    split_ifs
    · exact Eff.Preserves.bind (Action.aside_deadLetter _ _ _ _ _) fun _ => Eff.Preserves.pure _
    · exact Eff.Preserves.raise _
  · exact Eff.Preserves.raise _
  · exact Eff.Preserves.bind (Action.aside_note ⟨_, _, rfl⟩) fun _ => Eff.Preserves.pure _

theorem disableOne_aside (w : World Doc δ) (personUuid login : String)
    (target : ProvisioningTarget δ E × Nat) :
    Eff.Preserves (w.Aside (IsDisable personUuid)) (o.disableOne personUuid login target) := by
  refine Eff.Preserves.bind (Eff.Preserves.attempt (Action.aside_onDownstream _)) fun outcome => ?_
  rcases outcome with (attempts | e) | u
  · show Eff.Preserves _ (ite _ _ _)
    split_ifs
    · exact Eff.Preserves.bind (Action.aside_deadLetter _ _ _ _ _) fun _ =>
        Eff.Preserves.bind (Action.aside_record _) fun _ => Eff.Preserves.pure _
    · exact Eff.Preserves.raise _
  · exact Eff.Preserves.raise _
  · exact Eff.Preserves.bind (Action.aside_note ⟨_, _, rfl⟩) fun _ => Eff.Preserves.pure _

/-- **Provisioning touches nothing of the broker's own**, whatever the targets do. -/
theorem provisionAccounts_aside (personUuid : String) (w : World Doc δ) :
    w.Aside (IsProvision personUuid) ((o.provisionAccounts personUuid).run w).2 := by
  have keeps : Eff.Preserves (w.Aside (IsProvision personUuid))
      (o.provisionAccounts personUuid : Action Doc δ E Unit) := by
    unfold provisionAccounts
    split_ifs
    · exact Action.aside_record _
    · refine Eff.Preserves.bind (Eff.Preserves.read _) fun spec => ?_
      cases spec with
      | none => exact Action.aside_record _
      | some spec =>
        exact Eff.Preserves.bind (Eff.Preserves.collect (o.provisionOne_aside w personUuid spec) _)
          fun _ => Action.aside_record _
  exact keeps w (World.Aside.refl _ w)

/-- **Disabling touches nothing of the broker's own**, whatever the targets do. -/
theorem disableAccounts_aside (personUuid : String) (w : World Doc δ) :
    w.Aside (IsDisable personUuid) ((o.disableAccounts personUuid).run w).2 := by
  have keeps : Eff.Preserves (w.Aside (IsDisable personUuid))
      (o.disableAccounts personUuid : Action Doc δ E (List String)) := by
    unfold disableAccounts
    split_ifs
    · exact Eff.Preserves.bind (Action.aside_record _) fun _ => Eff.Preserves.pure _
    · refine Eff.Preserves.bind (Eff.Preserves.read _) fun login => ?_
      cases login with
      | none => exact Eff.Preserves.bind (Action.aside_record _) fun _ => Eff.Preserves.pure _
      | some login =>
        refine Eff.Preserves.bind
          (Eff.Preserves.collect (o.disableOne_aside w personUuid login) _) fun _ => ?_
        exact Eff.Preserves.bind (Action.aside_record _) fun _ => Eff.Preserves.pure _
  exact keeps w (World.Aside.refl _ w)

/-! ## What the leaver sequence leaves behind -/

/-- Redis once the families of every listed session are revoked. -/
def revokeAll (now : Int) (sids : List String) (r : Redis) : Redis :=
  sids.foldl (fun r sid => (Redis.run now (o.grants.revokeSessionFamilies sid) r).2) r

/-- The sessions `terminate_subject` finds. -/
def leaverSids (personUuid : String) (w : World Doc δ) : List String :=
  (Redis.run w.now (o.sessions.terminateSubject personUuid) w.redis).1

/-- Redis after a leaver: the sessions ended, then their families revoked. -/
def leaverRedis (personUuid : String) (w : World Doc δ) : Redis :=
  o.revokeAll w.now (o.leaverSids personUuid w)
    (Redis.run w.now (o.sessions.terminateSubject personUuid) w.redis).2

/-- The calls of the broker's own steps, in order. -/
def leaverCalls (personUuid : String) (delta : Delta) (sids : List String) : List Call :=
  .terminatedSubject personUuid sids :: sids.map .revokedSessionFamilies ++
    .appliedDelta personUuid delta ::
      (if o.decisions then [.invalidatedDecisions personUuid] else [])

theorem run_terminateSubject (personUuid : String) (w : World Doc δ) :
    (o.terminateSubject personUuid : Action Doc δ E _).run w =
      (.ok (o.leaverSids personUuid w), { w with
        redis := (Redis.run w.now (o.sessions.terminateSubject personUuid) w.redis).2
        calls := w.calls ++ [.terminatedSubject personUuid (o.leaverSids personUuid w)] }) := rfl

theorem run_collect_revoke (sids : List String) (w : World Doc δ) :
    ∃ families, (Eff.collect o.revokeSessionFamilies sids : Action Doc δ E _).run w =
      (.ok families, { w with
        redis := o.revokeAll w.now sids w.redis
        calls := w.calls ++ sids.map .revokedSessionFamilies }) := by
  induction sids generalizing w with
  | nil => exact ⟨[], by simp [Eff.collect, revokeAll]⟩
  | cons sid sids ih =>
    obtain ⟨families, hrest⟩ := ih { w with
      redis := (Redis.run w.now (o.grants.revokeSessionFamilies sid) w.redis).2
      calls := w.calls ++ [.revokedSessionFamilies sid] }
    refine ⟨(Redis.run w.now (o.grants.revokeSessionFamilies sid) w.redis).1 :: families, ?_⟩
    have hhead : (o.revokeSessionFamilies sid : Action Doc δ E _).run w =
        (.ok (Redis.run w.now (o.grants.revokeSessionFamilies sid) w.redis).1, { w with
          redis := (Redis.run w.now (o.grants.revokeSessionFamilies sid) w.redis).2
          calls := w.calls ++ [.revokedSessionFamilies sid] }) := rfl
    rw [Eff.collect, Eff.run_bind_of_ok hhead, Eff.run_bind_of_ok hrest]
    simp [revokeAll]

theorem run_applyDelta (personUuid : String) (delta : Delta) (before after : Finset String)
    (source : Source) (w : World Doc δ) :
    (applyDelta personUuid delta before after source : Action Doc δ E _).run w = (.ok (), { w with
      lifecycle := w.lifecycle.apply personUuid delta before after source w.now
      calls := w.calls ++ [.appliedDelta personUuid delta] }) := rfl

theorem run_invalidateDecisions (personUuid : String) (w : World Doc δ) :
    (o.invalidateDecisions personUuid : Action Doc δ E _).run w = (.ok (), { w with
      calls := w.calls ++
        if o.decisions then [.invalidatedDecisions personUuid] else [] }) := by
  unfold invalidateDecisions
  cases o.decisions <;> simp [Action.note]

/-- The audit events of the broker's own steps, in order. -/
def leaverTrail (personUuid : String) (before : Finset String) (delta : Delta)
    (disabled : List String) (sessions families : Nat) : List AuditEvent :=
  [.deprovisionStep personUuid (.terminateSessions sessions),
    .deprovisionStep personUuid (.revokeTokens families),
    .deprovisionStep personUuid
      (.revokeEntitlements delta.immediate.length delta.deferred.length),
    .leaver personUuid (Text.sorted before) sessions families disabled]

/-- **The broker's own steps always run to their end.** -/
theorem ownSteps_spec (personUuid : String) (before : Finset String) (delta : Delta)
    (source : Source) (disabled : List String) (w : World Doc δ) :
    ∃ families, (o.ownSteps personUuid before delta source disabled : Action Doc δ E _).run w =
      (.ok (), { w with
        redis := o.leaverRedis personUuid w
        lifecycle := w.lifecycle.apply personUuid delta before ∅ source w.now
        audit := w.audit ++ leaverTrail personUuid before delta disabled
          (o.leaverSids personUuid w).length families
        calls := w.calls ++ o.leaverCalls personUuid delta (o.leaverSids personUuid w) }) := by
  obtain ⟨families, hrevoke⟩ := o.run_collect_revoke (E := E) (o.leaverSids personUuid w) { w with
    redis := (Redis.run w.now (o.sessions.terminateSubject personUuid) w.redis).2
    audit := w.audit ++ [.deprovisionStep personUuid
      (.terminateSessions (o.leaverSids personUuid w).length)]
    calls := w.calls ++ [.terminatedSubject personUuid (o.leaverSids personUuid w)] }
  refine ⟨(families.map List.length).sum, ?_⟩
  unfold ownSteps
  rw [Eff.run_bind_of_ok (o.run_terminateSubject personUuid w)]
  simp only [Action.step, Action.record, Eff.run_update_bind]
  rw [Eff.run_bind_of_ok hrevoke]
  simp only [Eff.run_update_bind]
  rw [Eff.run_bind_of_ok (run_applyDelta personUuid delta before ∅ source _), Eff.run_update_bind,
    Eff.run_bind_of_ok (o.run_invalidateDecisions personUuid _)]
  simp [leaverTrail, leaverCalls, leaverRedis]

/-- **A leaver whose accounts were dealt with**: the sequence goes on to its end. -/
theorem deprovision_of_ok {personUuid : String} {disabled : List String} {w m : World Doc δ}
    (h : (o.disableAccounts personUuid : Action Doc δ E _).run w = (.ok disabled, m))
    (before : Finset String) (source : Source) (on : Option Int) :
    ∃ families, (o.deprovision personUuid before source on : Action Doc δ E _).run w =
      (.ok (w.rules.transition before ∅ (on.getD w.today)), { m with
        redis := o.leaverRedis personUuid m
        lifecycle := m.lifecycle.apply personUuid
          (w.rules.transition before ∅ (on.getD w.today)) before ∅ source m.now
        audit := m.audit ++ leaverTrail personUuid before
          (w.rules.transition before ∅ (on.getD w.today)) disabled
          (o.leaverSids personUuid m).length families
        calls := m.calls ++ o.leaverCalls personUuid
          (w.rules.transition before ∅ (on.getD w.today)) (o.leaverSids personUuid m) }) := by
  obtain ⟨families, hown⟩ := o.ownSteps_spec (E := E) personUuid before
    (w.rules.transition before ∅ (on.getD w.today)) source disabled m
  refine ⟨families, ?_⟩
  rw [deprovision, Eff.run_read_bind, Eff.run_bind_of_ok h, Eff.run_bind_of_ok hown]
  rfl

/-- **A leaver whose accounts raised**: nothing after that is done. -/
theorem deprovision_of_error {personUuid : String} {e : Exn E} {w m : World Doc δ}
    (h : (o.disableAccounts personUuid : Action Doc δ E _).run w = (.error e, m))
    (before : Finset String) (source : Source) (on : Option Int) :
    (o.deprovision personUuid before source on : Action Doc δ E _).run w = (.error e, m) := by
  rw [deprovision, Eff.run_read_bind, Eff.run_bind_of_error h]

/-! ## What any other transition leaves behind -/

/-- The world in which a joiner or mover is provisioned: our own tables are written. -/
def written (personUuid : String) (before after : Finset String) (source : Source)
    (on : Option Int) (w : World Doc δ) : World Doc δ :=
  { w with
    lifecycle := w.lifecycle.apply personUuid
      (w.rules.transition before after (on.getD w.today)) before after source w.now
    calls := w.calls ++
      [.appliedDelta personUuid (w.rules.transition before after (on.getD w.today))] }

section Joiner

variable {personUuid : String} {before after : Finset String} {w m : World Doc δ}

/-- **A transition that is no leaver, provisioned downstream.** -/
theorem transitioned_of_ok (hroute : ¬ (after = ∅ ∧ before ≠ ∅)) {source : Source}
    {on : Option Int}
    (h : (o.provisionAccounts personUuid : Action Doc δ E _).run
      (written personUuid before after source on w) = (.ok (), m)) :
    (o.transitioned personUuid before after source on : Action Doc δ E _).run w =
      (.ok (w.rules.transition before after (on.getD w.today)), { m with
        audit := m.audit ++ deltaTrail personUuid before after
          (w.rules.transition before after (on.getD w.today)) source
        calls := m.calls ++
          if o.decisions then [.invalidatedDecisions personUuid] else [] }) := by
  rw [transitioned, if_neg hroute, Eff.run_read_bind,
    Eff.run_bind_of_ok (run_applyDelta personUuid _ before after source w)]
  refine (Eff.run_bind_of_ok h).trans ?_
  rw [Eff.run_bind_of_ok (o.run_invalidateDecisions personUuid m)]
  rfl

/-- **A transition that is no leaver, raising downstream.** -/
theorem transitioned_of_error (hroute : ¬ (after = ∅ ∧ before ≠ ∅)) {source : Source}
    {on : Option Int} {e : Exn E}
    (h : (o.provisionAccounts personUuid : Action Doc δ E _).run
      (written personUuid before after source on w) = (.error e, m)) :
    (o.transitioned personUuid before after source on : Action Doc δ E _).run w =
      (.error e, m) := by
  rw [transitioned, if_neg hroute, Eff.run_read_bind,
    Eff.run_bind_of_ok (run_applyDelta personUuid _ before after source w)]
  exact Eff.run_bind_of_error h

/-- What a transition that is no leaver may call: nothing that ends a session. -/
def IsUpkeep (personUuid : String) (c : Call) : Prop :=
  (∃ delta, c = .appliedDelta personUuid delta) ∨ IsProvision personUuid c ∨
    c = .invalidatedDecisions personUuid

/-- However it ends, a transition that is no leaver leaves Redis, the registry and the
clock alone. -/
theorem transitioned_upkeep (personUuid : String) (hroute : ¬ (after = ∅ ∧ before ≠ ∅))
    (source : Source) (on : Option Int) (w : World Doc δ) :
    let w' := ((o.transitioned personUuid before after source on).run w).2
    w'.redis = w.redis ∧ w'.now = w.now ∧ w'.registry = w.registry ∧
      ∃ made, w'.calls = w.calls ++ made ∧ ∀ c ∈ made, IsUpkeep personUuid c := by
  have haside := o.provisionAccounts_aside personUuid (written personUuid before after source on w)
  obtain ⟨made, hmade, hP⟩ := haside.calls
  have hkind : ∀ c ∈ Call.appliedDelta personUuid
      (w.rules.transition before after (on.getD w.today)) :: made, IsUpkeep personUuid c := by
    intro c hc
    rcases List.mem_cons.mp hc with rfl | hc
    · exact Or.inl ⟨_, rfl⟩
    · exact Or.inr (Or.inl (hP c hc))
  rcases hrun : (o.provisionAccounts personUuid : Action Doc δ E _).run
    (written personUuid before after source on w) with ⟨e | u, m⟩
  · rw [hrun] at haside hmade
    rw [o.transitioned_of_error hroute hrun]
    refine ⟨haside.redis, haside.now, haside.registry, _, ?_, hkind⟩
    rw [hmade, written, List.append_assoc]
    rfl
  · rw [hrun] at haside hmade
    rw [o.transitioned_of_ok hroute hrun]
    refine ⟨haside.redis, haside.now, haside.registry,
      (Call.appliedDelta personUuid (w.rules.transition before after (on.getD w.today)) :: made) ++
        if o.decisions then [.invalidatedDecisions personUuid] else [], ?_, ?_⟩
    · rw [show m.calls = _ from hmade]
      simp [written]
    · intro c hc
      rcases List.mem_append.mp hc with hc | hc
      · exact hkind c hc
      · split_ifs at hc with hd
        · exact Or.inr (Or.inr (List.mem_singleton.mp hc))
        · simp at hc

end Joiner

/-- **No transition writes the registry.** -/
theorem transitioned_registry (personUuid : String) (before after : Finset String)
    (source : Source) (on : Option Int) (w : World Doc δ) :
    ((o.transitioned personUuid before after source on).run w).2.registry = w.registry := by
  by_cases hroute : after = ∅ ∧ before ≠ ∅
  · rw [transitioned, if_pos hroute]
    have haside := o.disableAccounts_aside personUuid w
    rcases hrun : (o.disableAccounts personUuid : Action Doc δ E _).run w with ⟨e | disabled, m⟩
    · rw [o.deprovision_of_error hrun]
      rw [hrun] at haside
      exact haside.registry
    · obtain ⟨families, hdep⟩ := o.deprovision_of_ok hrun before source on
      rw [hdep]
      rw [hrun] at haside
      exact haside.registry
  · exact (o.transitioned_upkeep personUuid hroute source on w).2.2.1

end Orchestrator

end CampusID
