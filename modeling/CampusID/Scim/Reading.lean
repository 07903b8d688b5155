import CampusID.Scim.Patching
import CampusID.Scim.Resources

/-!
# Reading the document of a person

`from_scim`: the document a client sends becomes a `ParsedUser`, or is refused with the attribute
that is wrong.  Nothing is looked up; what cannot be stored is refused here.

A date is a day or an instant.  An instant is taken to UTC, and that can leave the calendar: the
first hour of its first day with an offset ahead of UTC.  `datetime` raises `OverflowError` there,
which is no `ValueError`, so the refusal of a date that cannot be read does not cover it and it
comes out of `from_scim` as it is (`ReadError.overflow`).
-/

namespace CampusID
namespace Scim

open Lib
open Audit (Json Number)

/-- `INVALID_SYNTAX`. -/
def invalidSyntax : String := "invalidSyntax"

/-- `invalid_value`. -/
def invalidValue (detail : String) (scimType : String := "invalidValue") : ScimError :=
  ⟨400, detail, some scimType⟩

/-- What `from_scim` raises. -/
inductive ReadError where
  | scim (e : ScimError)
  | overflow
  deriving DecidableEq

/-- What the language makes of an instant: its day in UTC, or an exception. -/
inductive Instant where
  | day (ordinal : Int)
  | valueError
  | overflow
  deriving DecidableEq

/-- The operations of the language that reading a document takes: `str.upper`, `repr`,
`date.today`, the day in UTC of `datetime.fromisoformat`, and `date.fromisoformat`. -/
structure Readers extends Builtins where
  upper : String → String
  repr : Json → String
  today : Int
  instant : String → Instant
  date : String → Option Int

/-- `bool(value)`. -/
def isTrue : Json → Bool
  | .null => false
  | .bool b => b
  | .num (.int n) => n ≠ 0
  | .num (.float d) => d.digits ≠ 0
  | .num _ => true
  | .str s => s ≠ ""
  | .list items => !items.isEmpty
  | .dict entries => !entries.isEmpty

/-- `_extension`, and the name of a document: an object, or else an empty one. -/
def objectAt (document : Object) (name : String) : Object :=
  Patch.entriesOf ((document.lookup name).getD .null)

/-- `_optional_string`. -/
def optionalString (container : Object) (name : String) : Option String :=
  match container.lookup name with
  | some (.str value) => truthy (some (Text.strip value))
  | _ => none

/-- `bool(entry.get(name, False))`. -/
def flag (container : Object) (name : String) : Bool :=
  isTrue ((container.lookup name).getD (.bool false))

variable (py : Readers)

/-- `_parse_date`. -/
def parseDate (raw : Option Json) (field : String) : Except ReadError (Option Int) :=
  match raw with
  | none => .ok none
  | some .null => .ok none
  | some (.str text) =>
    if 'T' ∈ text.toList then
      match py.instant (Text.replaceChar 'Z' "+00:00" text) with
      | .day ordinal => .ok (some ordinal)
      | .valueError =>
        .error (.scim (invalidValue (field ++ " is not a valid date: " ++ py.repr (.str text))))
      | .overflow => .error .overflow
    else
      match py.date text with
      | some ordinal => .ok (some ordinal)
      | none =>
        .error (.scim (invalidValue (field ++ " is not a valid date: " ++ py.repr (.str text))))
  | some _ => .error (.scim (invalidValue (field ++ " must be a date")))

/-- One entry of `_parse_emails`. -/
def parseEmail (entry : Json) : Except ReadError (String × Bool) :=
  match entry with
  | .dict email =>
    match email.lookup "value" with
    | some (.str value) =>
      if '@' ∈ value.toList then
        .ok (py.lower (Text.strip value), flag email "primary")
      else .error (.scim (invalidValue (py.repr (.str value) ++ " is not an email address")))
    | value =>
      .error (.scim (invalidValue (py.repr (value.getD .null) ++ " is not an email address")))
  | _ => .error (.scim (invalidValue "each email must be an object" invalidSyntax))

/-- `_parse_emails`. -/
def parseEmails (raw : Option Json) : Except ReadError (List (String × Bool)) :=
  match raw with
  | none => .ok []
  | some .null => .ok []
  | some (.list entries) => do
    let parsed ← entries.mapM (parseEmail py)
    if 1 < (parsed.filter Prod.snd).length then
      throw (.scim (invalidValue "at most one email may be primary"))
    else return parsed
  | some _ => .error (.scim (invalidValue "emails must be an array" invalidSyntax))

/-- The affiliation with its dates: it may not end before it starts. -/
def datedAffiliation (entry : Object) (value : String) (validFrom : Int)
    (validUntil : Option Int) : Except ReadError ParsedAffiliation :=
  if validUntil.any (· < validFrom) then
    .error (.scim (invalidValue "an affiliation cannot end before it starts"))
  else .ok
    { value := py.lower (Text.strip value)
      isPrimary := flag entry "primary"
      orgUnit := optionalString entry "orgUnit"
      validFrom := validFrom
      validUntil := validUntil }

/-- One entry of `_parse_affiliations`. -/
def parseAffiliation (entry : Json) : Except ReadError ParsedAffiliation :=
  match entry with
  | .dict entry =>
    match entry.lookup "value" with
    | some (.str value) =>
      if value = "" then .error (.scim (invalidValue "an affiliation needs a value"))
      else do
        let validFrom ← parseDate py (entry.lookup "validFrom") "validFrom"
        let validUntil ← parseDate py (entry.lookup "validUntil") "validUntil"
        datedAffiliation py entry value (validFrom.getD py.today) validUntil
    | _ => .error (.scim (invalidValue "an affiliation needs a value"))
  | _ => .error (.scim (invalidValue "each affiliation must be an object" invalidSyntax))

/-- `_parse_affiliations`. -/
def parseAffiliations (raw : Option Json) : Except ReadError (List ParsedAffiliation) :=
  match raw with
  | none => .ok []
  | some .null => .ok []
  | some (.list entries) => do
    let parsed ← entries.mapM (parseAffiliation py)
    if 1 < (parsed.filter ParsedAffiliation.isPrimary).length then
      throw (.scim (invalidValue "at most one affiliation may be primary"))
    else return parsed
  | some _ => .error (.scim (invalidValue "affiliations must be an array" invalidSyntax))

/-- `userName`, which is required. -/
def readUserName (document : Object) : Except ReadError String :=
  match document.lookup "userName" with
  | some (.str value) =>
    if Text.strip value = "" then .error (.scim (invalidValue "userName is required"))
    else .ok (py.lower (Text.strip value))
  | _ => .error (.scim (invalidValue "userName is required"))

/-- `active`, which is true where it is not given. -/
def readActive (document : Object) : Except ReadError Bool :=
  match document.lookup "active" with
  | none => .ok true
  | some (.bool value) => .ok value
  | some _ => .error (.scim (invalidValue "active must be true or false"))

/-- `from_scim`. -/
def fromScim (document : Json) : Except ReadError ParsedUser :=
  match document with
  | .dict document => do
    let userName ← readUserName py document
    let active ← readActive document
    let emails ← parseEmails py (document.lookup "emails")
    let affiliations ← parseAffiliations py ((objectAt document campusUser).lookup "affiliations")
    return {
      userName
      externalId := optionalString document "externalId"
      displayName := (optionalString document "displayName").or
        (optionalString (objectAt document "name") "formatted")
      givenName := optionalString (objectAt document "name") "givenName"
      surname := optionalString (objectAt document "name") "familyName"
      preferredLanguage := optionalString document "preferredLanguage"
      active
      emails
      employeeNumber := optionalString (objectAt document enterpriseUser) "employeeNumber"
      ferpaDirectorySuppressed := flag (objectAt document campusUser) "ferpaDirectorySuppressed"
      affiliations }
  | _ => .error (.scim (invalidValue "a User must be an object" invalidSyntax))

end Scim
end CampusID
