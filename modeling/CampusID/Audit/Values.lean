import Mathlib.Data.Rat.Defs
import Mathlib.Data.Int.Basic
import Mathlib.Algebra.Group.Int.Defs
import CampusID.Text
import CampusID.Lib.Dict

/-!
# Values of an audit event, as Python and as JSON

The `detail` of an audit event is any structure of dictionaries, lists, tuples, numbers,
strings and `None`.  Two texts are made of it: the one the hash is taken over, through
`_render` and `json.dumps`, and the one the JSONB column is sent.  The column then gives
back a value of its own.

* `render` is `_render`, and `dumps` is `json.dumps` with sorted keys, no whitespace and no
  ASCII escapes.
* `stored` is what the column keeps: a tuple is a list there, every key is a string, and of
  a number only the numeric value is left.
* `readBack` is what a later read gives, with the keys of every dictionary in any order.

A float is its shortest decimal, which is what `repr` prints and what both texts carry.
-/

namespace CampusID
namespace Audit

open Lib

/-- Why a write fails: the exception that `_write` swallows. -/
inductive WriteError where
  | typeError (text : String)
  | valueError (text : String)
  | dataError (text : String)
  deriving DecidableEq

/-! ## Numbers -/

/-- A finite float: its sign and its shortest decimal, `digits · 10 ^ exponent`. -/
structure Decimal where
  negative : Bool
  digits : Nat
  exponent : Int
  normal : digits % 10 ≠ 0 ∨ (digits = 0 ∧ exponent = 0)
  deriving DecidableEq

/-- A number: `int` or `float`. -/
inductive Number where
  | int (n : Int)
  | float (d : Decimal)
  | nan
  | inf (negative : Bool)
  deriving DecidableEq

namespace Decimal

/-- The float is a whole number. -/
def isWhole (d : Decimal) : Bool := 0 ≤ d.exponent

/-- Its digits with its sign. -/
def signed (d : Decimal) : Int := if d.negative then -(d.digits : Int) else d.digits

/-- The whole number a whole float is. -/
def toInt (d : Decimal) : Int := d.signed * 10 ^ d.exponent.toNat

/-- Its value. -/
def value (d : Decimal) : ℚ := d.signed * (10 : ℚ) ^ d.exponent

/-- Zeros. -/
def zeros (n : Nat) : String := String.ofList (List.replicate n '0')

/-- The exponent as `repr` writes it: a sign and at least two digits. -/
def exponentText (e : Int) : String :=
  (if e < 0 then "-" else "+") ++ (if e.natAbs < 10 then "0" else "") ++ toString e.natAbs

/-- `repr(value)` of a float: positional from `1e-4` up to `1e16`, else with an exponent. -/
def repr (d : Decimal) : String :=
  let ds := toString d.digits
  let point : Int := ds.length + d.exponent
  (if d.negative then "-" else "") ++
    if d.digits = 0 then "0.0"
    else if -4 < point ∧ point ≤ 16 then
      if point ≤ 0 then "0." ++ zeros (-point).toNat ++ ds
      else if 0 ≤ d.exponent then ds ++ zeros d.exponent.toNat ++ ".0"
      else String.ofList (ds.toList.take point.toNat) ++ "." ++
        String.ofList (ds.toList.drop point.toNat)
    else
      let first := String.ofList (ds.toList.take 1)
      let rest := String.ofList (ds.toList.drop 1)
      (if rest = "" then first else first ++ "." ++ rest) ++ "e" ++ exponentText (point - 1)

end Decimal

/-- How many digits of an integer Python is willing to write. -/
def intMaxStrDigits : Nat := 4300

/-- The integer is short enough to be written. -/
def isWritable (n : Int) : Bool := n.natAbs < 10 ^ intMaxStrDigits

/-- `repr(n)` of an integer. -/
def intText (n : Int) : Except WriteError String :=
  if isWritable n then .ok (toString n)
  else .error (.valueError "Exceeds the limit (4300 digits) for integer string conversion")

namespace Number

/-- `repr(value)`. -/
def repr : Number → Except WriteError String
  | .int n => intText n
  | .float d => .ok d.repr
  | .nan => .ok "nan"
  | .inf negative => .ok (if negative then "-inf" else "inf")

/-- The number as `json.dumps` writes it. -/
def json : Number → Except WriteError String
  | .int n => intText n
  | .float d => .ok d.repr
  | .nan => .ok "NaN"
  | .inf negative => .ok (if negative then "-Infinity" else "Infinity")

/-- `a < b`. -/
def lt : Number → Number → Bool
  | .nan, _ => false
  | _, .nan => false
  | .inf true, b => b ≠ .inf true
  | .inf false, _ => false
  | _, .inf negative => !negative
  | .int m, .int n => m < n
  | .int m, .float d => (m : ℚ) < d.value
  | .float d, .int n => d.value < n
  | .float d, .float d' => d.value < d'.value

/-- What a JSONB number is given back as: a whole number as an `int`, any other as a
`float`.  What is not a number is refused. -/
def stored : Number → Except WriteError Number
  | .int n => if isWritable n then .ok (.int n)
    else .error (.valueError "Exceeds the limit (4300 digits) for integer string conversion")
  | .float d => .ok (if d.isWhole then .int d.toInt else .float d)
  | .nan => .error (.dataError "invalid input syntax for type json")
  | .inf _ => .error (.dataError "invalid input syntax for type json")

/-- The number is written and given back as it is: an `int` of at most 4300 digits, or a
float that is not whole. -/
def isPlain : Number → Bool
  | .int n => isWritable n
  | .float d => !d.isWhole
  | .nan => false
  | .inf _ => false

end Number

/-! ## Values -/

/-- A key of a dictionary. -/
inductive Key where
  | str (s : String)
  | num (n : Number)
  | bool (b : Bool)
  | none
  deriving DecidableEq

/-- A value: `detail` and everything in it. -/
inductive Value where
  | none
  | bool (b : Bool)
  | num (n : Number)
  | str (s : String)
  | list (items : List Value)
  | tuple (items : List Value)
  | dict (entries : List (Key × Value))

/-- What `_render` makes of a value. -/
inductive Json where
  | null
  | bool (b : Bool)
  | num (n : Number)
  | str (s : String)
  | list (items : List Json)
  | dict (entries : List (String × Json))

namespace Key

/-- `str(key)`. -/
def text : Key → Except WriteError String
  | .str s => .ok s
  | .num n => n.repr
  | .bool b => .ok (if b then "True" else "False")
  | .none => .ok "None"

/-- The key as `json.dumps` writes it. -/
def json : Key → Except WriteError String
  | .str s => .ok s
  | .num n => n.json
  | .bool b => .ok (if b then "true" else "false")
  | .none => .ok "null"

/-- The number a key is for a comparison. -/
def number : Key → Option Number
  | .num n => some n
  | .bool b => some (.int (if b then 1 else 0))
  | _ => Option.none

/-- `a < b` of two keys does not raise. -/
def comparable : Key → Key → Bool
  | .str _, .str _ => true
  | a, b => a.number.isSome && b.number.isSome

/-- `a < b`, where it does not raise. -/
def lt : Key → Key → Bool
  | .str s, .str t => s < t
  | a, b => match a.number, b.number with
    | some m, some n => m.lt n
    | _, _ => false

end Key

section Sorting

variable {β : Type}

/-- `sorted(value.items())`.  Keys of a dictionary differ, so only keys are compared; two
that do not compare raise. -/
def sortedItems (entries : List (Key × β)) : Except WriteError (List (Key × β)) :=
  if entries.length < 2 ∨ ∀ a ∈ entries, ∀ b ∈ entries, a.1.comparable b.1 then
    .ok (entries.insertionSort fun a b => !b.1.lt a.1)
  else .error (.typeError "'<' not supported between instances")

/-- The dictionary these entries make, one assignment after another. -/
def dictOf (entries : List (String × β)) : List (String × β) :=
  entries.foldl (fun d entry => assign d entry.1 entry.2) []

/-- The entries with their keys as texts. -/
def textKeys (text : Key → Except WriteError String) :
    List (Key × β) → Except WriteError (List (String × β))
  | [] => .ok []
  | (k, v) :: entries => do
    let t ← text k
    let rest ← textKeys text entries
    return (t, v) :: rest

end Sorting

/-! ### `repr` -/

/-- `sep.join(texts)`. -/
def join (sep : String) : List String → String
  | [] => ""
  | [t] => t
  | t :: ts => t ++ sep ++ join sep ts

namespace Key

/-- `repr(key)`. -/
def repr : Key → Except WriteError String
  | .str s => .ok (Text.pyRepr s)
  | k => k.text

end Key

mutual

/-- `repr(value)`. -/
def Value.repr : Value → Except WriteError String
  | .none => .ok "None"
  | .bool b => .ok (if b then "True" else "False")
  | .num n => n.repr
  | .str s => .ok (Text.pyRepr s)
  | .list items => do return "[" ++ join ", " (← reprAll items) ++ "]"
  | .tuple items => do
    let texts ← reprAll items
    return "(" ++ join ", " texts ++ (if texts.length = 1 then ",)" else ")")
  | .dict entries => do return "\x7b" ++ join ", " (← reprEntries entries) ++ "\x7d"

/-- `repr` of every item. -/
def reprAll : List Value → Except WriteError (List String)
  | [] => .ok []
  | v :: vs => do return (← v.repr) :: (← reprAll vs)

/-- `repr` of every entry. -/
def reprEntries : List (Key × Value) → Except WriteError (List String)
  | [] => .ok []
  | (k, v) :: entries => do return ((← k.repr) ++ ": " ++ (← v.repr)) :: (← reprEntries entries)

end

/-! ### `_render` -/

mutual

/-- `_render`.  A tuple is none of the shapes it knows, and becomes its text. -/
def render : Value → Except WriteError Json
  | .dict entries => do
    let rendered ← renderEntries entries
    let ordered ← sortedItems rendered
    return .dict (dictOf (← textKeys Key.text ordered))
  | .list items => do return .list (← renderAll items)
  | .none => .ok .null
  | .bool b => .ok (.bool b)
  | .num n => .ok (.num n)
  | .str s => .ok (.str s)
  | .tuple items => do return .str (← (Value.tuple items).repr)

/-- `_render` of every item. -/
def renderAll : List Value → Except WriteError (List Json)
  | [] => .ok []
  | v :: vs => do
    let j ← render v
    let js ← renderAll vs
    return j :: js

/-- `_render` of the values of a dictionary. -/
def renderEntries : List (Key × Value) → Except WriteError (List (Key × Json))
  | [] => .ok []
  | (k, v) :: entries => do
    let j ← render v
    let rest ← renderEntries entries
    return (k, j) :: rest

end

/-! ### `json.dumps` -/

/-- A hexadecimal digit. -/
def hexDigit (n : Nat) : Char := if n < 10 then Char.ofNat (48 + n) else Char.ofNat (87 + n)

/-- A character inside a JSON string, with `ensure_ascii=False`. -/
def jsonChar (c : Char) : List Char :=
  if c = '"' then ['\\', '"']
  else if c = '\\' then ['\\', '\\']
  else if c = '\n' then ['\\', 'n']
  else if c = '\r' then ['\\', 'r']
  else if c = '\t' then ['\\', 't']
  else if c.toNat = 8 then ['\\', 'b']
  else if c.toNat = 12 then ['\\', 'f']
  else if c.toNat < 32 then
    ['\\', 'u', '0', '0', hexDigit (c.toNat / 16), hexDigit (c.toNat % 16)]
  else [c]

/-- A JSON string. -/
def jsonString (s : String) : String :=
  String.ofList ('"' :: s.toList.flatMap jsonChar ++ ['"'])

/-- The members of an object in the order of their keys, as text. -/
def membersText (members : List (String × String)) : String :=
  join "," ((members.insertionSort fun a b => a.1 ≤ b.1).map fun m => jsonString m.1 ++ ":" ++ m.2)

mutual

/-- `json.dumps(value, sort_keys=True, separators=(",", ":"), ensure_ascii=False)`. -/
def dumps : Json → Except WriteError String
  | .null => .ok "null"
  | .bool b => .ok (if b then "true" else "false")
  | .num n => n.json
  | .str s => .ok (jsonString s)
  | .list items => do return "[" ++ join "," (← dumpsAll items) ++ "]"
  | .dict entries => do return "\x7b" ++ membersText (← dumpsEntries entries) ++ "\x7d"

/-- The texts of the items. -/
def dumpsAll : List Json → Except WriteError (List String)
  | [] => .ok []
  | j :: js => do
    let t ← dumps j
    let ts ← dumpsAll js
    return t :: ts

/-- The texts of the values, with their keys. -/
def dumpsEntries : List (String × Json) → Except WriteError (List (String × String))
  | [] => .ok []
  | (k, j) :: entries => do
    let t ← dumps j
    let rest ← dumpsEntries entries
    return (k, t) :: rest

end

/-! ## The JSONB column -/

/-- PostgreSQL keeps no NUL character in a text. -/
def isStorable (s : String) : Bool := !s.toList.contains (Char.ofNat 0)

/-- A text as the column keeps it. -/
def storedText (s : String) : Except WriteError String :=
  if isStorable s then .ok s else .error (.dataError "unsupported Unicode escape sequence")

/-- A key as the column keeps it. -/
def Key.stored : Key → Except WriteError String
  | .str s => storedText s
  | k => k.json

mutual

/-- **What the column keeps of a value.**  Tuples are lists there, keys are strings, numbers
are their value. -/
def stored : Value → Except WriteError Value
  | .none => .ok .none
  | .bool b => .ok (.bool b)
  | .num n => do return .num (← n.stored)
  | .str s => do return .str (← storedText s)
  | .list items => do return .list (← storedAll items)
  | .tuple items => do return .list (← storedAll items)
  | .dict entries => do
    let kept ← storedEntries entries
    let named ← textKeys Key.stored kept
    return .dict ((dictOf named).map fun entry => (.str entry.1, entry.2))

/-- What it keeps of every item. -/
def storedAll : List Value → Except WriteError (List Value)
  | [] => .ok []
  | v :: vs => do
    let w ← stored v
    let ws ← storedAll vs
    return w :: ws

/-- What it keeps of the values of a dictionary. -/
def storedEntries : List (Key × Value) → Except WriteError (List (Key × Value))
  | [] => .ok []
  | (k, v) :: entries => do
    let w ← stored v
    let rest ← storedEntries entries
    return (k, w) :: rest

end

section Reading

variable (reorder : List (Key × Value) → List (Key × Value))

mutual

/-- What a read of the column gives: the order of the keys is lost. -/
def readBack : Value → Value
  | .none => .none
  | .bool b => .bool b
  | .num n => .num n
  | .str s => .str s
  | .list items => .list (readAll items)
  | .tuple items => .tuple items
  | .dict entries => .dict (reorder (readEntries entries))

/-- Every item as it is read. -/
def readAll : List Value → List Value
  | [] => []
  | v :: vs => readBack v :: readAll vs

/-- The entries of a dictionary as they are read. -/
def readEntries : List (Key × Value) → List (Key × Value)
  | [] => []
  | (k, v) :: entries => (k, readBack v) :: readEntries entries

end

end Reading

end Audit
end CampusID
