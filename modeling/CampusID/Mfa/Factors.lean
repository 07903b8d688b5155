import CampusID.Lib.Transactions
import CampusID.Mfa.Totp

/-!
# The second factors of the database

The rows of `mfa_factor`, the queries and updates the store issues on them, and the
transactions that verify or confirm a one-time code.

`verify_totp` moves the mark of a factor by an update that is conditional on the mark it read.
`confirm_totp` assigns to the row it loaded, and the unit of work writes that by key alone.
-/

namespace CampusID
namespace Mfa

open Lib
open Lib.ReadCommitted

/-- `KINDS`. -/
inductive FactorKind where
  | totp
  | webauthn
  | push
  deriving DecidableEq, Repr

/-- `MfaFactor`. -/
structure MfaFactor where
  id : String
  personUuid : String
  kind : FactorKind
  label : String
  secret : Option String := none
  lastStep : Option Int := none
  credentialId : Option (List Nat) := none
  publicKey : Option (List Nat) := none
  signCount : Option Nat := none
  algorithm : Option Int := none
  confirmedAt : Option Int := none
  lastUsedAt : Option Int := none
  disabledAt : Option Int := none
  deriving DecidableEq, Repr

/-- `NO_FACTOR`. -/
def noSuchFactor : String := "mfa.no_such_factor"

/-- What the unit of work raises when the row it writes is not there. -/
def staleData : String := "StaleDataError"

/-- What the store selects: `_confirmed`, `_live`, and the credential an assertion names. -/
inductive FactorQuery where
  | confirmed (personUuid : String) (kind : FactorKind)
  | live (personUuid factorId : String)
  | credential (personUuid : String) (credentialId : List Nat)
  deriving DecidableEq, Repr

/-- What the store updates: `_advance`, what `confirm_totp` assigns, and what `verify_webauthn`
assigns, the count only where it is another than the one that was loaded. -/
inductive FactorUpdate where
  | advance (factorId : String) (lastStep : Option Int) (step now : Int)
  | confirm (factorId : String) (step now : Int)
  | count (factorId : String) (signCount : Option Nat) (now : Int)
  deriving DecidableEq, Repr

/-- The rows a query selects. -/
def FactorQuery.selects : FactorQuery → MfaFactor → Bool
  | .confirmed personUuid kind, factor => factor.personUuid = personUuid ∧
    factor.disabledAt = none ∧ factor.confirmedAt ≠ none ∧ factor.kind = kind
  | .live personUuid factorId, factor => factor.id = factorId ∧
    factor.personUuid = personUuid ∧ factor.disabledAt = none
  | .credential personUuid credentialId, factor => factor.credentialId = some credentialId ∧
    factor.personUuid = personUuid ∧ factor.kind = .webauthn ∧ factor.disabledAt = none ∧
    factor.confirmedAt ≠ none

/-- The row an update is for. -/
def FactorUpdate.factorId : FactorUpdate → String
  | .advance factorId _ _ _ => factorId
  | .confirm factorId _ _ => factorId
  | .count factorId _ _ => factorId

/-- The rows an update hits. -/
def FactorUpdate.hits : FactorUpdate → MfaFactor → Bool
  | .advance factorId lastStep _ _, factor => factor.id = factorId ∧ factor.lastStep = lastStep
  | .confirm factorId _ _, factor => factor.id = factorId
  | .count factorId _ _, factor => factor.id = factorId

/-- What an update makes of a row. -/
def FactorUpdate.set : FactorUpdate → MfaFactor → MfaFactor
  | .advance _ _ step now, factor => { factor with lastStep := some step, lastUsedAt := some now }
  | .confirm _ step now, factor =>
    { factor with confirmedAt := some now, lastUsedAt := some now, lastStep := some step }
  | .count _ none now, factor => { factor with lastUsedAt := some now }
  | .count _ (some signCount) now, factor =>
    { factor with signCount := some signCount, lastUsedAt := some now }

/-- The table. -/
def factors : Schema String MfaFactor FactorQuery FactorUpdate where
  key := MfaFactor.id
  selects := FactorQuery.selects
  hits := FactorUpdate.hits
  set := FactorUpdate.set
  key_set u factor := by
    cases u with
    | advance => rfl
    | confirm => rfl
    | count _ signCount _ => cases signCount <;> rfl

@[simp] theorem factors_key (factor : MfaFactor) : factors.key factor = factor.id := rfl

theorem factorId_of_hits {u : FactorUpdate} {factor : MfaFactor}
    (h : factors.hits u factor = true) : factor.id = u.factorId := by
  cases u with
  | advance => exact (of_decide_eq_true h).1
  | confirm => exact of_decide_eq_true h
  | count => exact of_decide_eq_true h

/-- A transaction on the table. -/
abbrev FactorProgram (X : Type) := Program X MfaFactor FactorQuery FactorUpdate

variable {X : Type}

/-- One statement of transaction `x`. -/
def statement (x : X) (stmt : Stmt MfaFactor FactorQuery FactorUpdate) :
    FactorProgram X stmt.Answer := Prog.send (x, stmt)

/-- An exception leaves the transaction: nothing is written. -/
def refuse {α : Type} (x : X) (reason : String) : FactorProgram X (Except String α) := do
  statement x .rollback
  return .error reason

/-- An update, and the end of the transaction: `lost` where it hit no row. -/
def write {α : Type} (x : X) (u : FactorUpdate) (lost : String) (won : α) :
    FactorProgram X (Except String α) := do
  let hit : Nat ← statement x (.update u)
  if hit = 0 then refuse x lost
  else do
    statement x .commit
    return .ok won

/-- The loop of `verify_totp`.  `last` is the reason of the last factor that refused. -/
def tryFactors (mac : Mac) (x : X) (code : String) (now : Int) :
    List MfaFactor → Option String → FactorProgram X (Except String (Option String))
  | [], last => do
    statement x .commit
    return .error (last.getD totpMismatch)
  | factor :: rest, last =>
    match factor.secret with
    | none => tryFactors mac x code now rest last
    | some secret =>
      match totpVerify mac secret code now factor.lastStep with
      | .error reason => tryFactors mac x code now rest (some reason)
      | .ok step =>
        write x (.advance factor.id factor.lastStep step now) totpReplay (some factor.id)

/-- `verify_totp`. -/
def verifyTotp (mac : Mac) (x : X) (personUuid code : String) (now : Int) :
    FactorProgram X (Except String (Option String)) := do
  let rows : List MfaFactor ← statement x (.select (.confirmed personUuid .totp))
  tryFactors mac x code now rows none

/-- `confirm_totp` once it has loaded the factor.  What it assigns is written when the
transaction ends. -/
def confirmLoaded (mac : Mac) (x : X) (code : String) (now : Int) (loaded : Option MfaFactor) :
    FactorProgram X (Except String (Option String)) :=
  match loaded.bind fun factor => factor.secret.map fun secret => (factor, secret) with
  | none => refuse x noSuchFactor
  | some (factor, secret) =>
    match totpVerify mac secret code now factor.lastStep with
    | .error reason => refuse x reason
    | .ok step => write x (.confirm factor.id step now) staleData none

/-- `confirm_totp`. -/
def confirmTotp (mac : Mac) (x : X) (personUuid factorId code : String) (now : Int) :
    FactorProgram X (Except String (Option String)) := do
  let rows : List MfaFactor ← statement x (.select (.live personUuid factorId))
  confirmLoaded mac x code now rows.head?

/-! ## The discipline -/

section Discipline

variable {α : Type} {x : X} {reason lost : String} {won : α} {u : FactorUpdate}

theorem tidy_refuse : Tidy x false (refuse x reason : FactorProgram X (Except String α)) :=
  ⟨rfl, rfl, rfl⟩

theorem tidy_write : Tidy x false (write x u lost won) := by
  refine ⟨rfl, rfl, ⟨rfl, rfl, rfl⟩, fun n hn => ?_⟩
  change Tidy x true (ite (n = 0) _ _)
  rw [if_neg hn]
  exact ⟨rfl, rfl⟩

theorem only_refuse {P : Command X MfaFactor FactorQuery FactorUpdate → Prop}
    (hend : P (x, .rollback)) :
    Prog.Only P (refuse x reason : FactorProgram X (Except String α)) :=
  ⟨hend, fun _ => trivial⟩

theorem only_write {P : Command X MfaFactor FactorQuery FactorUpdate → Prop}
    (hupdate : P (x, .update u)) (hcommit : P (x, .commit)) (hend : P (x, .rollback)) :
    Prog.Only P (write x u lost won) := by
  refine ⟨hupdate, fun n => ?_⟩
  change Prog.Only _ (ite (n = 0) _ _)
  split_ifs
  · exact only_refuse hend
  · exact ⟨hcommit, fun _ => trivial⟩

theorem returns_refuse {P : Except String α → Prop} (h : P (.error reason)) :
    Prog.Returns P (refuse x reason) := fun _ => h

theorem returns_write {P : Except String α → Prop} (hlost : P (.error lost)) (hwon : P (.ok won)) :
    Prog.Returns P (write x u lost won) := by
  intro n
  change Prog.Returns P (ite (n = 0) _ _)
  split_ifs
  · exact returns_refuse hlost
  · exact fun _ => hwon

theorem based_refuse {rel : MfaFactor → FactorUpdate → Prop} {read : List MfaFactor} :
    Based rel read (refuse x reason : FactorProgram X (Except String α)) := trivial

theorem based_write {rel : MfaFactor → FactorUpdate → Prop} {read : List MfaFactor}
    {loaded : MfaFactor} (hread : loaded ∈ read) (hrel : rel loaded u) :
    Based rel read (write x u lost won) := by
  refine ⟨⟨loaded, hread, hrel⟩, fun n => ?_⟩
  change Based rel read (ite (n = 0) _ _)
  split_ifs
  · exact based_refuse
  · trivial

theorem earned_refuse {hit : Bool} : Earned x (fun out : Except String α => ∃ a, out = .ok a) hit
    (refuse x reason) := by
  rintro ⟨a, ⟨⟩⟩

theorem earned_write : Earned x (fun out : Except String α => ∃ a, out = .ok a) false
    (write x u lost won) := by
  refine ⟨rfl, earned_refuse, fun n hn => ?_⟩
  change Earned x _ true (ite (n = 0) _ _)
  rw [if_neg hn]
  exact fun _ => rfl

end Discipline

end Mfa
end CampusID
