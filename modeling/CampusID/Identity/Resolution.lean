import CampusID.Scim.Users

/-!
# Who a login is, and which name they are given

`IdentityRegistry`: an assertion becomes a person, by the strongest evidence there is (`resolve`),
and an ePPN is issued (`allocateEppn`) and released (`releaseIdentifier`).

Each method is one transaction on the tables: it refuses and changes nothing, or leaves what it
wrote.  What the database makes up for a new person is an argument, and `str.lower` a parameter.
-/

namespace CampusID
namespace Identity

open Lib

/-- `MAX_EPPN_SUFFIX`. -/
def maxEppnSuffix : Nat := 999

/-- `LinkBasis`. -/
inductive LinkBasis where
  | uniqueId
  | existingAccount
  | eppn
  | created
  | manualReview
  deriving DecidableEq, Repr

/-- `Assertion`. -/
structure Assertion where
  idpEntityId : String
  protocol : String
  subject : String
  uniqueId : Option String := none
  eppn : Option String := none
  mail : Option String := none
  displayName : Option String := none
  givenName : Option String := none
  surname : Option String := none
  deriving DecidableEq, Repr

/-- `Resolution`. -/
structure Resolution where
  personUuid : Option String
  basis : LinkBasis
  deriving DecidableEq, Repr

/-- `Account`. -/
structure Account where
  personUuid : String
  idpEntityId : String
  protocol : String
  subjectAtIdp : String
  linkConfidence : String
  linkedAt : Int
  lastLoginAt : Option Int
  deriving DecidableEq, Repr

/-- The tables of the registry, and the accounts. -/
structure Tables (Doc : Type) where
  registry : Registry Doc := {}
  accounts : List Account := []

/-- What is made up for a new person: a UUID, and the random half of a unique identifier. -/
structure Minted where
  personUuid : String
  token : String
  deriving DecidableEq, Repr

/-- What `allocate_eppn` raises: a `ValueError`, or the constraint of a table. -/
inductive AllocateError where
  | value (message : String)
  | integrity
  deriving DecidableEq, Repr

/-- `new_unique_id`. -/
def newUniqueId (token scope : String) : String := token ++ "@" ++ scope

/-- A text that is there and not empty. -/
def given (value : Option String) : Option String := value.filter (· ≠ "")

/-- `_identifier_taken`: by any row, a tombstoned one too. -/
def identifierTaken (rows : List Identifier) (idType : IdType) (value : String) : Bool :=
  rows.any fun row => row.idType = idType ∧ row.value = value

/-- A suffixed ePPN. -/
def suffixedEppn (front : String) (scope : Option String) (suffix : Nat) : String :=
  match given scope with
  | some scope => front ++ toString suffix ++ "@" ++ scope
  | none => front ++ toString suffix

/-- The ePPN that `allocate_eppn` tries with a suffix: the first one bears none. -/
def allocatedEppn (base scope : String) (suffix : Nat) : String :=
  if suffix = 1 then base ++ "@" ++ scope else base ++ toString suffix ++ "@" ++ scope

/-- `IdentityRegistry`. -/
structure IdentityRegistry where
  scope : String
  lower : String → String

namespace IdentityRegistry

variable {Doc : Type} (r : IdentityRegistry)

/-! ## Linking -/

/-- `_by_asserted_unique_id`. -/
def byAssertedUniqueId (registry : Registry Doc) (uniqueId : Option String) : Option Person := do
  let value ← given uniqueId
  let row ← registry.identifiers.find? fun row =>
    row.idType = .uniqueId ∧ row.value = value ∧ row.Live
  registry.get row.personUuid

/-- `_by_live_eppn`. -/
def byLiveEppn (registry : Registry Doc) (eppn : Option String) : Option Person := do
  let value ← given eppn
  let row ← registry.liveEppn (r.lower value)
  let person ← registry.get row.personUuid
  if person.status = .active then some person else none

/-- `_mail_only_match`. -/
def mailOnlyMatch (registry : Registry Doc) (mail : Option String) : Bool :=
  match given mail with
  | none => false
  | some value => registry.identifiers.any fun row =>
      row.idType = .mail ∧ row.value = r.lower value ∧ row.Live

/-- `_touch_account`: one account for a subject at an issuer. -/
def touchAccount (personUuid : String) (assertion : Assertion) (basis : LinkBasis) (now : Int)
    (accounts : List Account) : Except StoreError (List Account) :=
  if ∃ account ∈ accounts, account.idpEntityId = assertion.idpEntityId ∧
      account.subjectAtIdp = assertion.subject then .error .integrity
  else .ok <| accounts ++ [{
    personUuid := personUuid
    idpEntityId := assertion.idpEntityId
    protocol := assertion.protocol
    subjectAtIdp := assertion.subject
    linkConfidence := if basis = .eppn then "medium" else "high"
    linkedAt := now
    lastLoginAt := some now }]

/-- `_claim_eppn`: the asserted name, or the first suffixed one that nobody has or had. -/
def claimEppn (personUuid asserted : String) (now : Int) (rows : List Identifier) :
    Except StoreError (List Identifier) :=
  let value := r.lower asserted
  let scope := scopeOf r.lower value
  let claim (candidate : String) : Identifier :=
    { personUuid := personUuid, idType := .eppn, value := candidate, scope := scope
      isPrimary := true, issuedAt := now }
  if !identifierTaken rows .eppn value then addIdentifiers rows [claim value]
  else
    let front := ((Text.rpartition '@' value).map Prod.fst).getD ""
    match (List.range' 2 (maxEppnSuffix - 1)).find? fun suffix =>
        !identifierTaken rows .eppn (suffixedEppn front scope suffix) with
    | some suffix => addIdentifiers rows [claim (suffixedEppn front scope suffix)]
    | none => .ok rows

/-- What `_create` keeps of the identifier the issuer knows a person by. -/
def keepUniqueId (assertion : Assertion) (personUuid : String) (now : Int)
    (rows : List Identifier) : Except StoreError (List Identifier) :=
  match given assertion.uniqueId with
  | none => .ok rows
  | some value => addIdentifiers rows [{
      personUuid := personUuid, idType := .uniqueId, value := value
      scope := scopeOf r.lower value, issuedAt := now }]

/-- What `_create` keeps of an address: one that is or was somebody's is not recorded. -/
def keepMail (assertion : Assertion) (personUuid : String) (now : Int) (rows : List Identifier) :
    Except StoreError (List Identifier) :=
  match given assertion.mail with
  | none => .ok rows
  | some value =>
    if identifierTaken rows .mail (r.lower value) then .ok rows
    else addIdentifiers rows [{
      personUuid := personUuid, idType := .mail, value := r.lower value
      isPrimary := true, issuedAt := now }]

/-- The identifiers that `_create` writes. -/
def createIdentifiers (assertion : Assertion) (minted : Minted) (now : Int)
    (rows : List Identifier) : Except StoreError (List Identifier) := do
  let named ← r.keepUniqueId assertion minted.personUuid now rows
  let claimed ← r.claimEppn minted.personUuid
    ((given assertion.eppn).getD (newUniqueId minted.token r.scope)) now named
  r.keepMail assertion minted.personUuid now claimed

/-- `_create`. -/
def create (assertion : Assertion) (minted : Minted) (now : Int) (registry : Registry Doc) :
    Except StoreError (Registry Doc) := do
  let identifiers ← r.createIdentifiers assertion minted now registry.identifiers
  return { registry with
    persons := registry.persons ++ [{
      personUuid := minted.personUuid, displayName := assertion.displayName
      givenName := assertion.givenName, surname := assertion.surname }]
    identifiers := identifiers }

/-- The account of a subject at an issuer. -/
def accountOf (assertion : Assertion) (accounts : List Account) : Option Account :=
  accounts.find? fun account =>
    account.idpEntityId = assertion.idpEntityId ∧ account.subjectAtIdp = assertion.subject

/-- `resolve`, by the strongest evidence first. -/
def resolve (assertion : Assertion) (minted : Minted) (now : Int) (tables : Tables Doc) :
    Except StoreError (Tables Doc × Resolution) :=
  match byAssertedUniqueId tables.registry assertion.uniqueId with
  | some person => do
    let accounts ← touchAccount person.personUuid assertion .uniqueId now tables.accounts
    return ({ tables with accounts := accounts }, ⟨some person.personUuid, .uniqueId⟩)
  | none =>
  match accountOf assertion tables.accounts with
  | some account =>
    .ok ({ tables with accounts := tables.accounts.map fun other =>
        if other.idpEntityId = assertion.idpEntityId ∧ other.subjectAtIdp = assertion.subject then
          { other with lastLoginAt := some now }
        else other },
      ⟨some account.personUuid, .existingAccount⟩)
  | none =>
  match r.byLiveEppn tables.registry assertion.eppn with
  | some person => do
    let accounts ← touchAccount person.personUuid assertion .eppn now tables.accounts
    return ({ tables with accounts := accounts }, ⟨some person.personUuid, .eppn⟩)
  | none =>
  if r.mailOnlyMatch tables.registry assertion.mail then
    -- a person it might be: nobody is linked
    .ok (tables, ⟨none, .manualReview⟩)
  else do
    let registry ← r.create assertion minted now tables.registry
    let accounts ← touchAccount minted.personUuid assertion .created now tables.accounts
    return (⟨registry, accounts⟩, ⟨some minted.personUuid, .created⟩)

/-! ## Names -/

/-- `allocate_eppn`: the first of the suffixed names that nobody has or had. -/
def allocateEppn (personUuid localPart : String) (now : Int) (registry : Registry Doc) :
    Except AllocateError (Registry Doc × String) :=
  let base := r.lower (Text.strip localPart)
  if base = "" then .error (.value "an ePPN needs a local part")
  else
    match (List.range' 1 maxEppnSuffix).find? fun suffix =>
        !identifierTaken registry.identifiers .eppn (allocatedEppn base r.scope suffix) with
    | none => .error (.value (Text.pyRepr base ++ " has collided " ++ toString maxEppnSuffix ++
        " times; this is a data problem, not a naming one, and an operator should choose"))
    | some suffix =>
      let candidate := allocatedEppn base r.scope suffix
      match registry.get personUuid, addIdentifiers registry.identifiers [{
          personUuid := personUuid, idType := .eppn, value := candidate, scope := some r.scope
          isPrimary := true, issuedAt := now }] with
      | some _, .ok identifiers => .ok ({ registry with identifiers := identifiers }, candidate)
      -- a key of the table: no such person, or a row that conflicts
      | _, _ => .error .integrity

/-- Tombstone the first row that is asked for. -/
def tombstoneFirst (now : Int) (wanted : Identifier → Bool) : List Identifier → List Identifier
  | [] => []
  | row :: rows =>
    if wanted row then CampusID.releaseIdentifier now row :: rows
    else row :: tombstoneFirst now wanted rows

/-- `release_identifier`. -/
def releaseIdentifier (personUuid : String) (idType : IdType) (value : String) (now : Int)
    (registry : Registry Doc) : Registry Doc :=
  { registry with identifiers := tombstoneFirst now (fun row => row.personUuid = personUuid ∧
      row.idType = idType ∧ row.value = r.lower value ∧ row.Live) registry.identifiers }

end IdentityRegistry

end Identity
end CampusID
