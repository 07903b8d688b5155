import CampusID.Lib.Positional
import CampusID.Lib.Readers
import CampusID.Lib.Utf8
import CampusID.Text

/-!
# A partial CBOR decoder

`_item` reads one value at an offset, and its loops read the items of an array and the entries of a
map one after another.  Its depth is counted down here: `levels` is `MAX_DEPTH + 1 - depth`.

A key is `in` a mapping when it equals one of its keys, and to Python `True` equals `1`
(`Key.norm`).  Besides `CborError`, reading a byte can raise `IndexError`, and `struct.unpack`
can raise `struct.error`.
-/

namespace CampusID
namespace Mfa

open Lib Lib.Readers Lib.Positional

/-! ## Values -/

/-- A key of a map: what passes `isinstance(key, int | str | bytes)`. -/
inductive Key where
  | int (n : Int)
  | bytes (data : List UInt8)
  | text (s : String)
  | bool (b : Bool)
  deriving DecidableEq

/-- A value that was decoded.  The entries of a map are in the order they were inserted. -/
inductive Cbor where
  | int (n : Int)
  | bytes (data : List UInt8)
  | text (s : String)
  | array (items : List Cbor)
  | map (entries : List (Key × Cbor))
  | bool (b : Bool)
  | null

namespace Key

/-- The key as a value. -/
def value : Key → Cbor
  | int n => .int n
  | bytes data => .bytes data
  | text s => .text s
  | bool b => .bool b

/-- What `==` compares of a key. -/
def norm : Key → Key
  | bool b => int (if b then 1 else 0)
  | key => key

/-- The text between the quotes in the `repr` of a byte. -/
def reprByte (quote : Char) (byte : UInt8) : String :=
  let c := Char.ofNat byte.toNat
  let digit := fun n : Nat => String.singleton (Nat.digitChar n)
  if c = quote ∨ c = '\\' then "\\" ++ String.singleton c
  else if c = '\t' then "\\t"
  else if c = '\n' then "\\n"
  else if c = '\r' then "\\r"
  else if 32 ≤ byte.toNat ∧ byte.toNat < 127 then String.singleton c
  else "\\x" ++ digit (byte.toNat / 16) ++ digit (byte.toNat % 16)

/-- `repr(key)`. -/
def repr : Key → String
  | int n => toString n
  | bytes data =>
    let quote := if 39 ∈ data ∧ 34 ∉ data then '"' else '\''
    "b" ++ String.singleton quote ++ String.join (data.map (reprByte quote)) ++
      String.singleton quote
  | text s => Text.pyRepr s
  | bool b => if b then "True" else "False"

end Key

namespace Cbor

/-- The value as a key of a map, where it can be one. -/
def key? : Cbor → Option Key
  | int n => some (.int n)
  | bytes data => some (.bytes data)
  | text s => some (.text s)
  | bool b => some (.bool b)
  | _ => none

/-- `type(value).__name__`. -/
def typeName : Cbor → String
  | int _ => "int"
  | bytes _ => "bytes"
  | text _ => "str"
  | array _ => "list"
  | map _ => "dict"
  | bool _ => "bool"
  | null => "NoneType"

mutual

/-- `repr(value)`. -/
def repr : Cbor → String
  | int n => (Key.int n).repr
  | bytes data => (Key.bytes data).repr
  | text s => (Key.text s).repr
  | array items => "[" ++ ", ".intercalate (reprItems items) ++ "]"
  | map entries => "\x7b" ++ ", ".intercalate (reprEntries entries) ++ "\x7d"
  | bool b => (Key.bool b).repr
  | null => "None"

/-- `repr` of every item. -/
def reprItems : List Cbor → List String
  | [] => []
  | v :: vs => v.repr :: reprItems vs

/-- `repr` of every entry. -/
def reprEntries : List (Key × Cbor) → List String
  | [] => []
  | (key, v) :: entries => (key.repr ++ ": " ++ v.repr) :: reprEntries entries

end

/-- `str(value)`. -/
def str : Cbor → String
  | text s => s
  | v => v.repr

/-- The number that `==` compares of a value. -/
def asInt : Cbor → Option Int
  | int n => some n
  | bool b => some (if b then 1 else 0)
  | _ => none

/-- `parameters.get(key)`. -/
def get (parameters : List (Key × Cbor)) (key : Key) : Cbor :=
  match parameters.find? (·.1.norm = key.norm) with
  | some entry => entry.2
  | none => null

end Cbor

/-! ## The decoder -/

namespace Cbor

/-- What the decoder can raise. -/
inductive Raised where
  | cborError (text : String)
  | indexError
  | structError
  deriving DecidableEq, Repr

/-- `MAX_DEPTH`. -/
def maxDepth : Nat := 16

/-- `data[offset]`. -/
def byteAt (data : List UInt8) (offset : Nat) : Except Raised UInt8 :=
  match data[offset]? with
  | some byte => .ok byte
  | none => .error .indexError

/-- `struct.unpack` of one big-endian number of `width` bytes. -/
def unpack (width : Nat) (chunk : List UInt8) : Except Raised Nat :=
  if chunk.length = width then .ok (bigEndian chunk) else .error .structError

/-- `_take`. -/
def take (data : List UInt8) (offset length : Nat) : Except Raised (List UInt8) :=
  if data.length < offset + length then
    .error (.cborError s!"claimed {length} bytes with {(data.length : Int) - offset} remaining")
  else .ok ((data.drop offset).take length)

/-- `MINIMUM`. -/
def minimum : Nat → Nat
  | 24 => 24
  | 25 => 1 <<< 8
  | 26 => 1 <<< 16
  | _ => 1 <<< 32

/-- `_shortest`. -/
def shortest (value minor : Nat) : Except Raised Unit :=
  if value < minimum minor then .error (.cborError s!"{value} is not encoded in the fewest bytes")
  else .ok ()

/-- An argument that is a number of `width` bytes. -/
def wide (data : List UInt8) (offset width minor : Nat) : Except Raised (Nat × Nat) := do
  let value ← unpack width (← take data (offset + 1) width)
  shortest value minor
  return (value, offset + 1 + width)

/-- `_argument`. -/
def argument (data : List UInt8) (offset minor : Nat) : Except Raised (Nat × Nat) :=
  if minor < 24 then .ok (minor, offset + 1)
  else if minor = 24 then do
    let value ← byteAt (← take data (offset + 1) 1) 0
    shortest value.toNat 24
    return (value.toNat, offset + 2)
  else if minor = 25 then wide data offset 2 25
  else if minor = 26 then wide data offset 4 26
  else if minor = 27 then wide data offset 8 27
  else if minor = 31 then .error (.cborError "indefinite-length item")
  else .error (.cborError s!"reserved additional information {minor}")

/-- The check that a value can be a key. -/
def mapKey (value : Cbor) : Except Raised Key :=
  match value.key? with
  | some key => .ok key
  | none => .error (.cborError s!"map key of type {value.typeName}")

/-- The loop over the entries of a map. -/
def readEntries (read : Nat → Except Raised (Cbor × Nat)) :
    (count : Nat) → (mapping : List (Key × Cbor)) → (offset : Nat) →
      Except Raised (List (Key × Cbor) × Nat)
  | 0, mapping, offset => .ok (mapping, offset)
  | count + 1, mapping, offset => do
    let (value, offset) ← read offset
    let key ← mapKey value
    if key.norm ∈ mapping.map (·.1.norm) then
      throw (.cborError s!"duplicate map key {key.repr}")
    let (value, offset) ← read offset
    readEntries read count (mapping ++ [(key, value)]) offset

/-- `_item` from where its first byte is taken apart; `read` is `_item` one level down. -/
def dispatch (data : List UInt8) (read : Nat → Except Raised (Cbor × Nat))
    (offset major minor : Nat) : Except Raised (Cbor × Nat) :=
  if major = 0 ∨ major = 1 then do
    let (value, offset) ← argument data offset minor
    return (.int (if major = 0 then value else -1 - value), offset)
  else if major = 2 ∨ major = 3 then do
    let (length, offset) ← argument data offset minor
    let chunk ← take data offset length
    if major = 2 then return (.bytes chunk, offset + length)
    match decodeUtf8 chunk with
    | some s => return (.text s, offset + length)
    | none => throw (.cborError "text string is not valid UTF-8")
  else if major = 4 then do
    let (count, offset) ← argument data offset minor
    let (items, offset) ← repeatedly read count offset
    return (.array items, offset)
  else if major = 5 then do
    let (count, offset) ← argument data offset minor
    let (mapping, offset) ← readEntries read count [] offset
    return (.map mapping, offset)
  else if major = 7 then
    if minor = 20 then .ok (.bool false, offset + 1)
    else if minor = 21 then .ok (.bool true, offset + 1)
    else if minor = 22 then .ok (.null, offset + 1)
    else .error (.cborError s!"unsupported simple value {minor}")
  else .error (.cborError s!"unsupported major type {major}")

/-- `_item`. -/
def item (data : List UInt8) : (levels offset : Nat) → Except Raised (Cbor × Nat)
  | 0, _ => .error (.cborError s!"nested deeper than {maxDepth}")
  | levels + 1, offset => do
    if data.length ≤ offset then throw (.cborError "ran out of input")
    let initial ← byteAt data offset
    dispatch data (item data levels) offset (initial.toNat >>> 5) (initial.toNat &&& 0x1F)

/-- `decode_prefix`. -/
def decodePrefix (data : List UInt8) : Except Raised (Cbor × Nat) := item data (maxDepth + 1) 0

/-- `decode`. -/
def decode (data : List UInt8) : Except Raised Cbor := do
  let (value, offset) ← decodePrefix data
  if offset ≠ data.length then
    throw (.cborError s!"{(data.length : Int) - offset} trailing bytes after the item")
  return value

end Cbor
end Mfa
end CampusID
