import CampusID.Scim.Filters
import CampusID.Lib.Folded
import CampusID.Lib.Selection

/-!
# Evaluating a filter

Whether a document satisfies a filter, and which members of a list do.  Names are read without
regard to case, an attribute that is not there is `null`, and a comparison that makes no sense is
no match rather than an error: an evaluation always ends with a truth value.
-/

namespace CampusID
namespace Scim

open Lib
open Audit (Json Number)

/-- A JSON object: its members in the order they were written. -/
abbrev Object := List (String × Json)

variable (py : Builtins)

/-- `_get_insensitive`. -/
def getInsensitive (object : Object) (name : String) : Json :=
  ((Folded.spelling py.lower object name).bind fun key => object.lookup key).getD .null

/-- A text that is there and not empty, as a condition takes it. -/
def truthy (value : Option String) : Option String := value.filter (· ≠ "")

/-- The sub-attribute across the members of a list, without those that do not have it. -/
def collected (items : List Json) (name : String) : List Json :=
  items.filterMap fun item => match item with
    | .dict member => match getInsensitive py member name with
      | .null => none
      | value => some value
    | _ => none

/-- The sub-attribute of a value. -/
def readSub (value : Json) (name : String) : Json :=
  match value with
  | .list items =>
    match collected py items name with
    | [] => .null
    | values => .list values
  | .dict object => getInsensitive py object name
  | _ => .null

/-- `_read`. -/
def readPath (object : Object) (path : AttrPath) : Json :=
  let value := match truthy path.urn with
    | none => getInsensitive py object path.attributeName
    | some urn => match getInsensitive py object urn with
      | .dict extension => getInsensitive py extension path.attributeName
      | _ => .null
  match path.subAttribute with
  | none => value
  | some name => readSub py value name

/-- `_present`. -/
def isPresent : Json → Bool
  | .null => false
  | .str s => s ≠ ""
  | .list items => !items.isEmpty
  | .dict entries => !entries.isEmpty
  | _ => true

/-- `_equal`. -/
def isEqual : Json → Literal → Bool
  | .bool a, .bool b => a = b
  | .str a, .str b => py.lower a = py.lower b
  | .num a, .num b => py.numEq a b
  | .null, .null => true
  | _, _ => false

/-- The operators defined for texts alone. -/
def substring : Operator → List Char → List Char → Bool
  | .co, haystack, needle => needle <:+: haystack
  | .sw, haystack, needle => needle <+: haystack
  | .ew, haystack, needle => needle <:+ haystack
  | _, _, _ => false

/-- The operators that need an order, on texts. -/
def orderedText : Operator → String → String → Bool
  | .gt, left, right => right < left
  | .ge, left, right => right ≤ left
  | .lt, left, right => left < right
  | .le, left, right => left ≤ right
  | _, _, _ => false

/-- The operators that need an order, on numbers. -/
def orderedNumber : Operator → Number → Number → Bool
  | .gt, left, right => py.numLt right left
  | .ge, left, right => py.numLe right left
  | .lt, left, right => py.numLt left right
  | .le, left, right => py.numLe left right
  | _, _, _ => false

/-- `_ordered`. -/
def ordered (actual : Json) (operator : Operator) (expected : Literal) : Bool :=
  match actual, expected with
  | .str left, .str right => orderedText operator (py.lower left) (py.lower right)
  | .num left, .num right => orderedNumber py operator left right
  | _, _ => false

/-- `_compare_one`. -/
def compareOne (actual : Json) (operator : Operator) (expected : Literal) : Bool :=
  match operator, actual with
  | .ne, _ => !isEqual py actual expected
  | _, .null => false
  | .eq, _ => isEqual py actual expected
  | .co, .str s | .sw, .str s | .ew, .str s => match expected with
    | .str t => substring operator (py.lower s).toList (py.lower t).toList
    | _ => false
  | .co, _ | .sw, _ | .ew, _ => false
  | _, _ => ordered py actual operator expected

/-- `_compare`. -/
def compare (object : Object) (path : AttrPath) (operator : Operator) (value : Literal) : Bool :=
  match readPath py object path with
  | .list items => items.any fun item => compareOne py item operator value
  | actual => compareOne py actual operator value

/-- `matches`. -/
def Node.matchesIn : Node → Object → Bool
  | .and left right, object => left.matchesIn object && right.matchesIn object
  | .or left right, object => left.matchesIn object || right.matchesIn object
  | .not inner, object => !inner.matchesIn object
  | .present path, object => isPresent (readPath py object path)
  | .valuePath path predicate, object =>
    match readPath py object path with
    | .list members => members.any fun member => match member with
      | .dict entries => predicate.matchesIn entries
      | _ => false
    | _ => false
  | .comparison path operator value, object => compare py object path operator value

/-- A value filter selects a member: an object that satisfies it. -/
def selects (predicate : Node) : Json → Bool
  | .dict member => predicate.matchesIn py member
  | _ => false

/-- `select_members`. -/
def selectMembers (predicate : Node) (members : List Json) : List Nat :=
  indices (selects py predicate) members

/-- The operations of the language on ASCII text without decimal numbers. -/
def Builtins.ascii : Builtins where
  lower := Text.lower
  lower_ascii _ _ := rfl
  lower_eq_empty s h := by
    have hchars : s.toList.map Char.toLower = [] := by
      rw [← String.ofList_eq_empty_iff]
      exact h
    simpa using hchars
  isDigit := Char.isDigit
  toInt text := (Text.pyInt text).getD 0
  toFloat _ := .nan
  numEq a b := a = b && !a = .nan
  numLt := Number.lt
  numLe a b := !a = .nan && !b = .nan && !b.lt a

end Scim
end CampusID
