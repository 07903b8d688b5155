import Mathlib.Data.List.Basic
import Mathlib.Data.String.Basic

/-!
# Text as bytes

A text is its UTF-8 bytes, and Lean keeps it so: `octets` lists them, and `decodeUtf8` takes bytes
for a text where they are one.  `decodeReplace` takes any bytes for a text, with U+FFFD for what is
none.
-/

namespace CampusID
namespace Lib

/-- `text.encode("utf-8")`. -/
def octets (text : String) : List UInt8 := text.toByteArray.data.toList

/-- `data.decode("utf-8")`, where it does not raise. -/
def decodeUtf8 (data : List UInt8) : Option String := String.fromUTF8? data.toByteArray

theorem toByteArray_octets (text : String) : (octets text).toByteArray = text.toByteArray :=
  ByteArray.ext (List.data_toByteArray ..)

theorem octets_injective : Function.Injective octets := by
  intro s t h
  have hbytes := congrArg List.toByteArray h
  rw [toByteArray_octets, toByteArray_octets] at hbytes
  exact String.toByteArray_inj.mp hbytes

/-- The bytes of a text are those of its characters. -/
theorem octets_ofList (chars : List Char) :
    octets (String.ofList chars) = chars.flatMap String.utf8EncodeChar := by
  rw [octets, String.toByteArray_ofList, List.utf8Encode, List.toList_data_toByteArray]

theorem octets_eq (text : String) : octets text = text.toList.flatMap String.utf8EncodeChar := by
  rw [← octets_ofList, String.ofList_toList]

/-- **A text is read back from its bytes**, and from no others. -/
theorem decodeUtf8_eq_some_iff {data : List UInt8} {text : String} :
    decodeUtf8 data = some text ↔ data = octets text := by
  unfold decodeUtf8 String.fromUTF8?
  constructor
  · intro h
    split_ifs at h with hvalid
    obtain rfl := Option.some.inj h
    exact List.toList_data_toByteArray.symm
  · rintro rfl
    rw [dif_pos (by rw [toByteArray_octets]; exact text.isValidUTF8)]
    exact congrArg some (String.toByteArray_inj.mp (toByteArray_octets text))

theorem utf8EncodeChar_of_lt {c : Char} (h : c.toNat < 128) :
    String.utf8EncodeChar c = [UInt8.ofNat c.toNat] := by
  have hle : c.val.toNat ≤ 127 := Nat.le_of_lt_succ h
  simp only [String.utf8EncodeChar, hle, if_true]
  rfl

/-! ## Decoding with replacement -/

/-- The bytes that may come second after a first byte that announces three or four. -/
def isSecond (lead second : UInt8) : Bool :=
  if lead = 0xE0 then 0xA0 ≤ second ∧ second ≤ 0xBF
  else if lead = 0xED then 0x80 ≤ second ∧ second ≤ 0x9F
  else if lead = 0xF0 then 0x90 ≤ second ∧ second ≤ 0xBF
  else if lead = 0xF4 then 0x80 ≤ second ∧ second ≤ 0x8F
  else 0xE1 ≤ lead ∧ lead ≤ 0xF3 ∧ 0x80 ≤ second ∧ second ≤ 0xBF

/-- How many bytes are replaced at once where no character begins: as many as begin one. -/
def broken : List UInt8 → Nat
  | lead :: second :: third :: _ =>
    if isSecond lead second then
      if 0xF0 ≤ lead ∧ 0x80 ≤ third ∧ third ≤ 0xBF then 3 else 2
    else 1
  | [lead, second] => if isSecond lead second then 2 else 1
  | _ => 1

/-- The characters of at most so many steps. -/
def replaceFrom : (steps : Nat) → List UInt8 → List Char
  | 0, _ => []
  | _, [] => []
  | steps + 1, data =>
    match data.toByteArray.utf8DecodeChar? 0 with
    | some c => c :: replaceFrom steps (data.drop c.utf8Size)
    | none => '\uFFFD' :: replaceFrom steps (data.drop (broken data))

/-- `data.decode("utf-8", "replace")`. -/
def decodeReplace (data : List UInt8) : String := String.ofList (replaceFrom data.length data)

theorem replaceFrom_chars (chars : List Char) : ∀ {steps : Nat}, chars.length ≤ steps →
    replaceFrom steps (chars.flatMap String.utf8EncodeChar) = chars := by
  induction chars with
  | nil =>
    intro steps _
    cases steps <;> rfl
  | cons c chars ih =>
    intro steps hsteps
    obtain ⟨steps, rfl⟩ := Nat.exists_eq_succ_of_ne_zero (Nat.ne_of_gt (Nat.zero_lt_of_lt hsteps))
    obtain ⟨lead, rest, hlead⟩ := List.exists_cons_of_ne_nil (String.utf8EncodeChar_ne_nil (c := c))
    have hdecode : ((c :: chars).flatMap String.utf8EncodeChar).toByteArray.utf8DecodeChar? 0 =
        some c := by
      rw [List.flatMap_cons, List.toByteArray_append]
      exact ByteArray.utf8DecodeChar?_utf8EncodeChar_append
    have hdrop : ((c :: chars).flatMap String.utf8EncodeChar).drop c.utf8Size =
        chars.flatMap String.utf8EncodeChar := by
      rw [List.flatMap_cons, List.drop_left' (String.length_utf8EncodeChar c)]
    have hcons : (c :: chars).flatMap String.utf8EncodeChar =
        lead :: (rest ++ chars.flatMap String.utf8EncodeChar) := by
      rw [List.flatMap_cons, hlead, List.cons_append]
    rw [hcons] at hdecode hdrop ⊢
    rw [replaceFrom, hdecode]
    · dsimp only
      rw [hdrop, ih (Nat.le_of_succ_le_succ hsteps)]
    · exact List.cons_ne_nil _ _

theorem length_le_flatMap (chars : List Char) :
    chars.length ≤ (chars.flatMap String.utf8EncodeChar).length := by
  induction chars with
  | nil => exact Nat.le_refl _
  | cons c chars ih =>
    have hpos := c.utf8Size_pos
    rw [List.flatMap_cons, List.length_append, String.length_utf8EncodeChar, List.length_cons]
    omega

/-- **Nothing of a text is replaced.** -/
theorem decodeReplace_octets (text : String) : decodeReplace (octets text) = text := by
  rw [decodeReplace, octets_eq, replaceFrom_chars _ (length_le_flatMap _), String.ofList_toList]

end Lib
end CampusID
