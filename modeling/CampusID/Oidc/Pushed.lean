import CampusID.Cache
import CampusID.Lib.Taken

/-!
# Pushed authorization requests

A client pushes its request and is answered with a `request_uri`, which the browser brings to
the authorization endpoint.  Each call makes one command of Redis, so all of them make one list.

`consume_eq_some_iff` says after which calls a `request_uri` is worth something: the last one
that named its reference, whoever made it, is the push it answered, in time.  So a request is
handed out once, to the client that pushed it; and who brings another's reference spends it.
-/

namespace CampusID
namespace Oidc

open Lib

/-- `REQUEST_URI_PREFIX`. -/
def requestUriPrefix : String := "urn:ietf:params:oauth:request_uri:"

/-- What is kept of a pushed request; the parameters are any JSON object. -/
structure PushedRequest (P : Type) where
  clientId : String
  parameters : P

/-- The keys under `oidc:par:`, by reference. -/
abbrev PushedRequests (P : Type) := Table String (fun _ => PushedRequest P) Int

namespace PushedRequestStore

variable {P : Type} (ttl now : Int)

/-- The seconds a request is kept. -/
def seconds : Int := max (ttl.tdiv second) 1

/-- `PushedRequestStore.push`, with the reference it draws. -/
def push (reference clientId : String) (parameters : P) (redis : PushedRequests P) :
    (String × Int) × PushedRequests P :=
  ((requestUriPrefix ++ reference, seconds ttl),
    redis.put reference ⟨clientId, parameters⟩ (some (now + seconds ttl * second)))

/-- The reference of a `request_uri`, if it is one. -/
def referenceOf (requestUri : String) : Option String :=
  (requestUriPrefix.toList.isPrefixOf? requestUri.toList).map String.ofList

/-- `PushedRequestStore.consume`. -/
def consume (requestUri clientId : String) (redis : PushedRequests P) :
    Option P × PushedRequests P :=
  match referenceOf requestUri with
  | none => (none, redis)
  | some reference =>
    -- the request is gone, whoever the client is
    ((redis.live now reference).bind fun record =>
      if record.clientId ≠ clientId then none else some record.parameters, redis.erase reference)

/-! ## Any calls, in any order -/

/-- A call. -/
inductive Call (P : Type) where
  | push (now : Int) (reference clientId : String) (parameters : P)
  | consume (now : Int) (requestUri clientId : String)

/-- What a call leaves. -/
def step (redis : PushedRequests P) : Call P → PushedRequests P
  | .push now reference clientId parameters => (push ttl now reference clientId parameters redis).2
  | .consume now requestUri clientId => (consume now requestUri clientId redis).2

/-- The access that a call makes. -/
def Call.access : Call P → Option (Access String (PushedRequest P) Int)
  | .push now reference clientId parameters =>
    some (.put now reference ⟨clientId, parameters⟩ (seconds ttl * second))
  | .consume _ requestUri _ => (referenceOf requestUri).map .take

theorem step_eq (redis : PushedRequests P) (call : Call P) :
    step ttl redis call = redis.afterCall (Call.access ttl) call := by
  cases call with
  | push now reference clientId parameters => rfl
  | consume now requestUri clientId =>
    cases huri : referenceOf requestUri with
    | none => simp [step, consume, Table.afterCall, Call.access, huri]
    | some reference =>
      simp [step, consume, Table.afterCall, Call.access, Access.key, Access.left, Table.erase, huri]

theorem referenceOf_eq_some {requestUri reference : String} :
    referenceOf requestUri = some reference ↔ requestUri = requestUriPrefix ++ reference := by
  unfold referenceOf
  rw [Option.map_eq_some_iff, ← String.toList_inj, String.toList_append]
  constructor
  · rintro ⟨rest, hrest, rfl⟩
    rw [String.toList_ofList]
    exact (List.append_eq_of_isPrefixOf?_eq_some hrest).symm
  · intro huri
    exact ⟨reference.toList, List.isPrefixOf?_eq_some_iff_append_eq.mpr huri.symm,
      String.ofList_toList⟩

/-- **What a `request_uri` is worth**, after any calls. -/
theorem consume_eq_some_iff (calls : List (Call P)) (requestUri clientId : String)
    (parameters : P) :
    (consume now requestUri clientId (calls.foldl (step ttl) Table.empty)).1 = some parameters ↔
      ∃ reference pushedAt, requestUri = requestUriPrefix ++ reference ∧
        (calls.filter (Table.about (Call.access ttl) reference)).getLast? =
          some (.push pushedAt reference clientId parameters) ∧
        now < pushedAt + seconds ttl * second := by
  have hstep : step ttl = Table.afterCall (Call.access (P := P) ttl) :=
    funext fun redis => funext (step_eq ttl redis)
  simp only [← referenceOf_eq_some, hstep]
  cases huri : referenceOf requestUri with
  | none => simp [consume, huri]
  | some reference =>
    simp only [consume, huri, Option.some.injEq, Option.bind_eq_some_iff, Table.live_foldl_iff]
    constructor
    · rintro ⟨record, ⟨call, pushedAt, ex, hlast, haccess, htime⟩, hparameters⟩
      cases call with
      | push at' drawn clientId' parameters' =>
        obtain ⟨rfl, rfl, rfl, rfl⟩ : at' = pushedAt ∧ drawn = reference ∧
            ⟨clientId', parameters'⟩ = record ∧ seconds ttl * second = ex := by
          simpa [Call.access] using haccess
        obtain ⟨rfl, rfl⟩ : clientId' = clientId ∧ parameters' = parameters := by
          simpa using hparameters
        exact ⟨_, _, rfl, hlast, htime⟩
      | consume => simp [Call.access] at haccess
    · rintro ⟨_, pushedAt, rfl, hlast, htime⟩
      exact ⟨_, ⟨_, _, _, hlast, rfl, htime⟩, by simp⟩

end PushedRequestStore

end Oidc
end CampusID
