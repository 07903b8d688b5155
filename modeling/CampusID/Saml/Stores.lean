import CampusID.Lib.Expiry
import CampusID.Lib.RaisingPrograms
import CampusID.Saml.Document
import Mathlib.Algebra.Order.Floor.Ring

/-!
# What the SAML side keeps, and what it asks

`stores.py`, the binding nonces of the routes, and the questions the gate and the routes put
to the rest of the broker, as commands that are answered one at a time.  Between two commands
of a login anything else may happen.

Instants and durations are numbers of seconds in an ordered field `T`, so a reading can fall
between two whole seconds.  A key written with `ex=n` is there for exactly `n` seconds.
-/

namespace CampusID
namespace Saml

open Lib Raising

/-- An aware `datetime`: its instant, and its `isoformat()`. -/
structure DateTime (T : Type) where
  time : T
  isoformat : String
  deriving DecidableEq, Repr

/-- `TrustedIdP`. -/
structure TrustedIdP where
  entityId : String
  signingCertificates : List String
  wantAssertionsSigned : Bool := true
  allowUnsolicited : Bool := false
  deriving DecidableEq, Repr

/-- `OutstandingRequest`. -/
structure OutstandingRequest (T : Type) where
  requestId : String
  idpEntityId : String
  relayState : String
  createdAt : T
  returnTo : Option String := none
  correlationId : Option String := none
  deriving DecidableEq, Repr

/-- `AssertionFacts`. -/
structure AssertionFacts (T : Type) where
  issuer : String
  assertionId : String
  nameId : String
  nameIdFormat : Option String
  notOnOrAfter : DateTime T
  authnInstant : DateTime T
  authnContext : Option String
  sessionIndex : Option String
  attributes : List (String × List String)
  relayState : Option String
  returnTo : Option String
  correlationId : Option String
  deriving DecidableEq, Repr

/-! ## Commands -/

/-- What a login waits for. -/
inductive Command (T : Type) where
  /-- `self._now()`. -/
  | now
  /-- `resolve_idp(issuer)`. -/
  | resolve (issuer : String)
  /-- `RequestStore.consume`. -/
  | consume (requestId : String)
  /-- `ReplayCache.remember`. -/
  | remember (assertionId : String) (ttl : T)
  /-- `RequestStore.remember`. -/
  | storeRequest (request : OutstandingRequest T) (ttl : T)
  /-- `redis.set(_binding_key(relay_state), nonce, ex=…)`. -/
  | setBinding (relayState nonce : String) (ttl : T)
  /-- `redis.getdel(_binding_key(relay_state))`. -/
  | takeBinding (relayState : String)
  /-- `registry.describe(entity_id)`: the `entity_id` of the descriptor. -/
  | describe (entityId : String)
  /-- `throttle.check(address=…)`: it does not raise. -/
  | checkThrottle (address : Option String)
  /-- `_resolve_person(facts)`. -/
  | resolvePerson (facts : AssertionFacts T)

/-- What a command is answered by. -/
@[reducible]
def Reply {T : Type} : Command T → Type
  | .now => T
  | .resolve _ => Option TrustedIdP
  | .consume _ => Option (OutstandingRequest T)
  | .remember _ _ => Bool
  | .storeRequest _ _ => Unit
  | .setBinding _ _ _ => Unit
  | .takeBinding _ => Option String
  | .describe _ => Option String
  | .checkThrottle _ => Bool
  | .resolvePerson _ => Except SamlRejected String

/-- A program over the commands. -/
abbrev SamlProg (T α : Type) : Type := Prog (Command T) Reply α

/-- A program that may raise `SamlRejected`. -/
abbrev Steps (T α : Type) : Type := Raising (Command T) Reply SamlRejected α

/-- `self._now()`. -/
def readClock {T : Type} : Steps T T := ask (C := Command T) .now

/-- `resolve_idp(issuer)`. -/
def resolveIdp {T : Type} (issuer : String) : Steps T (Option TrustedIdP) :=
  ask (C := Command T) (.resolve issuer)

/-- `RequestStore.consume`. -/
def consume {T : Type} (requestId : String) : Steps T (Option (OutstandingRequest T)) :=
  ask (C := Command T) (.consume requestId)

/-- `redis.getdel(_binding_key(relay_state))`. -/
def takeBinding {T : Type} (relayState : String) : Steps T (Option String) :=
  ask (C := Command T) (.takeBinding relayState)

/-- `ReplayCache.remember`. -/
def remember {T : Type} (assertionId : String) (ttl : T) : Steps T Bool :=
  ask (C := Command T) (.remember assertionId ttl)

/-! ## The stores -/

/-- The part of Redis that holds logins: outstanding requests, assertions seen, and the
binding nonces by RelayState. -/
structure SamlRedis (T : Type) where
  requests : Table String (fun _ => OutstandingRequest T) T
  replays : Table String (fun _ => Unit) T
  bindings : Table String (fun _ => String) T

/-- Nothing stored. -/
def SamlRedis.empty {T : Type} : SamlRedis T := ⟨Table.empty, Table.empty, Table.empty⟩

/-- The rest of the broker: what it answers, and when. -/
structure Surroundings (T : Type) where
  registry : T → String → Option TrustedIdP
  descriptors : T → String → Option String
  throttle : T → Option String → Bool
  people : T → AssertionFacts T → Except SamlRejected String

section Execution

variable {T : Type} [Field T] [LinearOrder T] [FloorRing T]

/-- `int(ttl.total_seconds())`: whole seconds, towards zero. -/
def wholeSeconds (ttl : T) : Int := if 0 ≤ ttl then ⌊ttl⌋ else ⌈ttl⌉

/-- `max(int(ttl.total_seconds()), 1)`. -/
def lifeSeconds (ttl : T) : Int := max (wholeSeconds ttl) 1

/-- Execute one command at an instant. -/
def exec (env : Surroundings T) (now : T) : (c : Command T) → SamlRedis T → Reply c × SamlRedis T
  | .now, r => (now, r)
  | .resolve issuer, r => (env.registry now issuer, r)
  | .consume requestId, r =>
    (r.requests.live now requestId, { r with requests := r.requests.erase requestId })
  | .remember assertionId ttl, r =>
    match r.replays.live now assertionId with
    | some _ => (false, r)
    | none =>
      (true, { r with replays := r.replays.put assertionId () (some (now + lifeSeconds ttl)) })
  | .storeRequest request ttl, r =>
    ((), { r with
      requests := r.requests.put request.requestId request (some (now + lifeSeconds ttl)) })
  | .setBinding relayState nonce ttl, r =>
    ((), { r with bindings := r.bindings.put relayState nonce (some (now + wholeSeconds ttl)) })
  | .takeBinding relayState, r =>
    (r.bindings.live now relayState, { r with bindings := r.bindings.erase relayState })
  | .describe entityId, r => (env.descriptors now entityId, r)
  | .checkThrottle address, r => (env.throttle now address, r)
  | .resolvePerson facts, r => (env.people now facts, r)

/-! ## What a command leaves behind -/

theorem requests_exec {env : Surroundings T} {now : T} {c : Command T} {r : SamlRedis T}
    {requestId : String} {e : Entry T (OutstandingRequest T)}
    (h : (exec env now c r).2.requests requestId = some e) :
    r.requests requestId = some e ∨ ∃ ttl, c = .storeRequest e.value ttl := by
  cases c with
  | consume consumed =>
    by_cases hid : requestId = consumed
    · subst hid
      simp [exec] at h
    · exact Or.inl (by simpa [exec, Table.erase_of_ne _ hid] using h)
  | storeRequest request ttl =>
    by_cases hid : requestId = request.requestId
    · subst hid
      have he : some (Entry.mk request (some (now + lifeSeconds ttl))) = some e := by
        simpa [exec] using h
      obtain rfl := Option.some.inj he
      exact Or.inr ⟨ttl, rfl⟩
    · exact Or.inl (by simpa [exec, Table.put_of_ne _ hid] using h)
  | remember identifier ttl =>
    left
    simp only [exec] at h
    split at h <;> exact h
  | _ => exact Or.inl h

theorem bindings_exec {env : Surroundings T} {now : T} {c : Command T} {r : SamlRedis T}
    {relayState : String} {e : Entry T String}
    (h : (exec env now c r).2.bindings relayState = some e) :
    r.bindings relayState = some e ∨ ∃ ttl, c = .setBinding relayState e.value ttl := by
  cases c with
  | takeBinding taken =>
    by_cases hrs : relayState = taken
    · subst hrs
      simp [exec] at h
    · exact Or.inl (by simpa [exec, Table.erase_of_ne _ hrs] using h)
  | setBinding set nonce ttl =>
    by_cases hrs : relayState = set
    · subst hrs
      have he : some (Entry.mk nonce (some (now + wholeSeconds ttl))) = some e := by
        simpa [exec] using h
      obtain rfl := Option.some.inj he
      exact Or.inr ⟨ttl, rfl⟩
    · exact Or.inl (by simpa [exec, Table.put_of_ne _ hrs] using h)
  | remember identifier ttl =>
    left
    simp only [exec] at h
    split at h <;> exact h
  | _ => exact Or.inl h

end Execution

end Saml
end CampusID
