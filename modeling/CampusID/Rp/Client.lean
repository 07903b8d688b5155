import CampusID.Audit.Values
import CampusID.Cache
import CampusID.Lib.Effects
import CampusID.Lib.Taken

/-!
# Logins at an upstream provider

`begin` keeps a pending login under the `state` it draws, and a callback takes it out with
`consume_state`.  The ID token that comes back is then compared with it.

`callback_eq_ok_iff` says which callbacks are accepted: those whose `state` was last named by the
`begin` that drew it, in time, and whose token carries its `nonce`.  A refused one spends it too.
-/

namespace CampusID
namespace Rp

open Lib
open Audit (Json)

/-- `PendingLogin`. -/
structure PendingLogin where
  nonce : String
  codeVerifier : String
  returnTo : Option String := none
  deriving DecidableEq

/-- What a callback raises: a `BrokerError` of one of two reasons, or the `TypeError` of
`compare_digest`. -/
inductive Raised where
  | requestBindingInvalid (detail : String)
  | audienceMismatch (detail : String)
  | typeError

/-- `STATE_TTL`. -/
def stateTtl : Int := 10 * 60 * second

/-- The keys under `rp:state:`, by state. -/
abbrev Logins := Table String (fun _ => PendingLogin) Int

/-- What `begin` keeps, with the state and the rest that it draws. -/
def begin (now : Int) (state : String) (pending : PendingLogin) (redis : Logins) : Logins :=
  redis.put state pending (some (now + stateTtl))

/-- `consume_state`. -/
def consumeState (now : Int) (state : Option String) (redis : Logins) :
    Except Raised PendingLogin × Logins :=
  match state with
  | none => (.error (.requestBindingInvalid "callback carries no state"), redis)
  | some state =>
    if state = "" then (.error (.requestBindingInvalid "callback carries no state"), redis)
    else
      (match redis.live now state with
        | none => .error (.requestBindingInvalid
            "the callback does not answer a login this browser started")
        | some pending => .ok pending,
        redis.erase state)

section Checks

variable (str : Json → String) (claims : List (String × Json))

/-- `str(claims.get("nonce", ""))`. -/
def nonceOf : String := ((claims.lookup "nonce").map str).getD ""

/-- `_check_nonce`. -/
def checkNonce (pending : PendingLogin) : Except Raised Unit :=
  if ¬ Text.isAscii (nonceOf str claims) ∨ ¬ Text.isAscii pending.nonce then .error .typeError
  else if nonceOf str claims ≠ pending.nonce then
    .error (.requestBindingInvalid "the ID token answers a different login")
  else .ok ()

/-- `claims.get("azp") == client_id`. -/
def isAuthorizedParty (clientId : String) : Bool :=
  match claims.lookup "azp" with
  | some (.str azp) => azp = clientId
  | _ => false

/-- The `aud` has several values. -/
def severalAudiences : Bool :=
  match claims.lookup "aud" with
  | some (.list audience) => 1 < audience.length
  | _ => false

/-- `_check_authorized_party`. -/
def checkAuthorizedParty (clientId : String) : Except Raised Unit :=
  if severalAudiences claims ∧ ¬ isAuthorizedParty claims clientId then
    .error (.audienceMismatch "the token was authorised for another party")
  else .ok ()

/-- `consume_state`, and what `_validated_claims` checks of the claims of a verified token. -/
def callback (now : Int) (clientId : String) (state : Option String) (redis : Logins) :
    Except Raised PendingLogin := do
  let pending ← (consumeState now state redis).1
  checkNonce str claims pending
  checkAuthorizedParty claims clientId
  return pending

end Checks

/-! ## Any logins and callbacks -/

/-- A call. -/
inductive Call where
  | begin (now : Int) (state : String) (pending : PendingLogin)
  | callback (now : Int) (state : Option String)

/-- What a call leaves. -/
def step (redis : Logins) : Call → Logins
  | .begin now state pending => begin now state pending redis
  | .callback now state => (consumeState now state redis).2

/-- The access that a call makes. -/
def Call.access : Call → Option (Access String PendingLogin Int)
  | .begin now state pending => some (.put now state pending stateTtl)
  | .callback _ state => state.bind fun state => if state = "" then none else some (.take state)

theorem step_eq (redis : Logins) (call : Call) :
    step redis call = redis.afterCall Call.access call := by
  rcases call with ⟨now, state, pending⟩ | ⟨now, - | state⟩
  · rfl
  · rfl
  · by_cases hstate : state = ""
    · simp [step, consumeState, Table.afterCall, Call.access, hstate]
    · simp [step, consumeState, Table.afterCall, Call.access, Access.key, Access.left, Table.erase,
        hstate]

theorem consumeState_eq_ok {now : Int} {state : Option String} {redis : Logins}
    {pending : PendingLogin} : (consumeState now state redis).1 = .ok pending ↔
      ∃ drawn, state = some drawn ∧ drawn ≠ "" ∧ redis.live now drawn = some pending := by
  rcases state with - | state
  · simp [consumeState]
  · by_cases hstate : state = ""
    · simp [consumeState, hstate]
    · cases hlive : redis.live now state <;> simp [consumeState, hstate, hlive]

theorem checkNonce_eq_ok {str : Json → String} {claims : List (String × Json)}
    {pending : PendingLogin} : checkNonce str claims pending = .ok () ↔
      nonceOf str claims = pending.nonce ∧ Text.isAscii pending.nonce := by
  unfold checkNonce
  split_ifs <;> grind

theorem checkAuthorizedParty_eq_ok {claims : List (String × Json)} {clientId : String} :
    checkAuthorizedParty claims clientId = .ok () ↔
      (severalAudiences claims → isAuthorizedParty claims clientId) := by
  unfold checkAuthorizedParty
  split_ifs <;> grind

/-- **Which callbacks are accepted**, after any calls. -/
theorem callback_eq_ok_iff (str : Json → String) (claims : List (String × Json))
    (calls : List Call) (now : Int) (clientId : String) (state : Option String)
    (pending : PendingLogin) :
    callback str claims now clientId state (calls.foldl step Table.empty) = .ok pending ↔
      (∃ drawn begunAt, state = some drawn ∧ drawn ≠ "" ∧
        (calls.filter (Table.about Call.access drawn)).getLast? =
          some (.begin begunAt drawn pending) ∧ now < begunAt + stateTtl) ∧
      nonceOf str claims = pending.nonce ∧ Text.isAscii pending.nonce ∧
      (severalAudiences claims → isAuthorizedParty claims clientId) := by
  have hstep : step = Table.afterCall Call.access :=
    funext fun redis => funext fun call => step_eq redis call
  have hconsumed : (consumeState now state (calls.foldl step Table.empty)).1 = .ok pending ↔
      ∃ drawn begunAt, state = some drawn ∧ drawn ≠ "" ∧
        (calls.filter (Table.about Call.access drawn)).getLast? =
          some (.begin begunAt drawn pending) ∧ now < begunAt + stateTtl := by
    rw [consumeState_eq_ok, hstep]
    refine exists_congr fun drawn => ?_
    rw [Table.live_foldl_iff]
    constructor
    · rintro ⟨hstate, hne, call, begunAt, ex, hlast, haccess, htime⟩
      rcases call with ⟨at', drawn', pending'⟩ | ⟨at', state'⟩
      · obtain ⟨rfl, rfl, rfl, rfl⟩ : at' = begunAt ∧ drawn' = drawn ∧ pending' = pending ∧
            stateTtl = ex := by
          simpa [Call.access] using haccess
        exact ⟨_, hstate, hne, hlast, htime⟩
      · rcases state' with - | state'
        · cases haccess
        · simp only [Call.access, Option.bind_some] at haccess
          split_ifs at haccess
          cases haccess
    · rintro ⟨begunAt, hstate, hne, hlast, htime⟩
      exact ⟨hstate, hne, _, begunAt, stateTtl, hlast, rfl, htime⟩
  rw [← hconsumed]
  unfold callback
  constructor
  · intro h
    obtain ⟨found, hfound, hrest⟩ := Eff.except_bind_eq_ok.mp h
    obtain ⟨_, hnonce, hrest⟩ := Eff.except_bind_eq_ok.mp hrest
    obtain ⟨_, hparty, hreturn⟩ := Eff.except_bind_eq_ok.mp hrest
    cases hreturn
    exact ⟨hfound, (checkNonce_eq_ok.mp hnonce).1, (checkNonce_eq_ok.mp hnonce).2,
      checkAuthorizedParty_eq_ok.mp hparty⟩
  · rintro ⟨hfound, hnonce, hascii, hparty⟩
    exact Eff.except_bind_eq_ok.mpr ⟨pending, hfound, Eff.except_bind_eq_ok.mpr
      ⟨(), checkNonce_eq_ok.mpr ⟨hnonce, hascii⟩, Eff.except_bind_eq_ok.mpr
        ⟨(), checkAuthorizedParty_eq_ok.mpr hparty, rfl⟩⟩⟩

end Rp
end CampusID
