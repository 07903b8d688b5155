import Mathlib.Logic.Relation
import CampusID.Lib.Positional
import CampusID.Lib.Separated

/-!
# The text of a recovery code

`_format` writes ten bytes as sixteen characters of an alphabet of 32, in groups of four;
`normalise` takes what was typed back to those characters.  Five bytes and eight characters are one
number in base 256 and in base 32, so nothing is lost: `normalise_format_injective`.

`normalise` first takes the upper case of what was typed, and decides by that.  A character such as
`ß` is in no code, and its upper case is two characters that may be (`not_ignores_foreign`).  So an
edit that may be ignored is one of the upper case (`Edit`), and these are (`normalise_of_edited`).
-/

namespace CampusID
namespace Mfa
namespace RecoveryFormat

open Lib Lib.Positional

/-- `ALPHABET`. -/
def alphabet : List Char := "0123456789ABCDEFGHJKMNPQRSTVWXYZ".toList

/-- `CONFUSABLE`. -/
def confusable : List (Char × Char) := [('O', '0'), ('I', '1'), ('L', '1')]

/-- `CODE_BYTES`. -/
def codeBytes : Nat := 10

/-- `GROUP`. -/
def group : Nat := 4

/-- `range(0, length, step)`. -/
def offsets (length step : Nat) : List Nat :=
  (List.range ((length + step - 1) / step)).map (· * step)

/-- `_expand`. -/
def expand (raw : List UInt8) : List Nat :=
  (offsets raw.length 5).flatMap fun offset =>
    let chunk := (raw.drop offset).take 5
    let value := bigEndian (chunk ++ List.replicate (5 - chunk.length) 0)
    [35, 30, 25, 20, 15, 10, 5, 0].map fun shift => (value >>> shift) &&& 0x1F

/-- `ALPHABET[index]`; what `_expand` returns is below 32. -/
def symbol (index : Nat) : Char := alphabet.getD index '0'

/-- `_format`. -/
def format (raw : List UInt8) : String :=
  let digits := (expand raw).map symbol
  String.ofList (['-'].intercalate
    ((offsets digits.length group).map fun i => (digits.drop i).take group))

/-- `CONFUSABLE.get(ch, ch)`. -/
def fold (ch : Char) : Char := (confusable.lookup ch).getD ch

section Normalising

-- `upper ch` is `ch.upper()`: the upper case of one character, which may be several
variable (upper : Char → List Char)

/-- What is left of one character. -/
def letters (ch : Char) : List Char := ((upper ch).map fold).filter (· ∈ alphabet)

/-- `normalise`. -/
def normalise (code : String) : String :=
  String.ofList (((code.toList.flatMap upper).map fold).filter (· ∈ alphabet))

/-- A character is foreign if its upper case has nothing of the alphabet and nothing that could be
taken for it. -/
def Foreign (ch : Char) : Prop := ∀ u ∈ upper ch, u ∉ alphabet ∧ confusable.lookup u = none

/-- One edit: the case of a letter is changed, something foreign is put in or left out, or a digit
is taken for a letter. -/
inductive Edit : List Char → List Char → Prop
  | recase {c d : Char} (front back : List Char) (h : upper c = upper d) :
      Edit (front ++ c :: back) (front ++ d :: back)
  | insert {c : Char} (front back : List Char) (h : Foreign upper c) :
      Edit (front ++ back) (front ++ c :: back)
  | remove {c : Char} (front back : List Char) (h : Foreign upper c) :
      Edit (front ++ c :: back) (front ++ back)
  | zero {d : Char} (front back : List Char) (h : d ∈ ['O', 'o']) :
      Edit (front ++ '0' :: back) (front ++ d :: back)
  | one {d : Char} (front back : List Char) (h : d ∈ ['I', 'i', 'L', 'l']) :
      Edit (front ++ '1' :: back) (front ++ d :: back)

/-- One text is made of another by such edits. -/
def Edited (code code' : String) : Prop :=
  Relation.ReflTransGen (Edit upper) code.toList code'.toList

/-- The upper case of ASCII is that of `Char.toUpper`. -/
def AsciiUpper : Prop := ∀ c : Char, c.toNat < 128 → upper c = [c.toUpper]

end Normalising

/-! ## Edits -/

variable {upper : Char → List Char} {c d : Char} {code code' : String} {text text' : List Char}
  {a b raw : List UInt8}

theorem normalise_eq (upper : Char → List Char) (code : String) :
    normalise upper code = String.ofList (code.toList.flatMap (letters upper)) := by
  unfold normalise
  rw [List.map_flatMap, List.filter_flatMap]
  rfl

theorem letters_of_upper (h : upper c = upper d) : letters upper c = letters upper d := by
  rw [letters, letters, h]

theorem letters_of_foreign (h : Foreign upper c) : letters upper c = [] := by
  rw [letters, List.filter_eq_nil_iff]
  intro u hu
  obtain ⟨v, hv, rfl⟩ := List.mem_map.mp hu
  obtain ⟨hmem, hnone⟩ := h v hv
  rw [fold, hnone]
  simpa using hmem

theorem letters_ascii (hupper : AsciiUpper upper) (hc : c.toNat < 128) (hd : d.toNat < 128)
    (hsame : fold c.toUpper = fold d.toUpper) : letters upper c = letters upper d := by
  rw [letters, letters, hupper c hc, hupper d hd, List.map_singleton, List.map_singleton, hsame]

/-- **One edit** changes nothing that is left. -/
theorem letters_edit (hupper : AsciiUpper upper) (h : Edit upper text text') :
    text'.flatMap (letters upper) = text.flatMap (letters upper) := by
  have hreplace : ∀ (front back : List Char) {c d : Char}, letters upper d = letters upper c →
      (front ++ d :: back).flatMap (letters upper) =
        (front ++ c :: back).flatMap (letters upper) := by
    intro front back c d hsame
    simp only [List.flatMap_append, List.flatMap_cons, hsame]
  cases h with
  | recase front back hcase => exact hreplace front back (letters_of_upper hcase).symm
  | insert front back hforeign =>
    simp only [List.flatMap_append, List.flatMap_cons, letters_of_foreign hforeign, List.nil_append]
  | remove front back hforeign =>
    simp only [List.flatMap_append, List.flatMap_cons, letters_of_foreign hforeign, List.nil_append]
  | zero front back hd =>
    simp only [List.mem_cons, List.not_mem_nil, or_false] at hd
    refine hreplace front back ?_
    rcases hd with rfl | rfl <;>
      exact letters_ascii hupper (by decide) (by decide) (by decide)
  | one front back hd =>
    simp only [List.mem_cons, List.not_mem_nil, or_false] at hd
    refine hreplace front back ?_
    rcases hd with rfl | rfl | rfl | rfl <;>
      exact letters_ascii hupper (by decide) (by decide) (by decide)

/-- **Edits** change nothing that is left. -/
theorem normalise_of_edited (hupper : AsciiUpper upper) (h : Edited upper code code') :
    normalise upper code' = normalise upper code := by
  rw [normalise_eq, normalise_eq]
  refine congrArg String.ofList ?_
  unfold Edited at h
  generalize code.toList = text at h
  generalize code'.toList = text' at h
  induction h with
  | refl => rfl
  | tail _ hedit ih => exact (letters_edit hupper hedit).trans ih

/-! ## Five bytes and eight characters -/

theorem shifts_eq_digits (value : Nat) :
    ([35, 30, 25, 20, 15, 10, 5, 0].map fun shift => (value >>> shift) &&& 0x1F) =
      digits 32 8 value := by
  have hand : ∀ n : Nat, n &&& 0x1F = n % 32 := fun n => Nat.and_two_pow_sub_one_eq_mod n 5
  simp only [List.map_cons, List.map_nil, hand, Nat.shiftRight_eq_div_pow, digits,
    Nat.div_div_eq_div_mul, List.nil_append, List.cons_append, Nat.reduceMul, Nat.reducePow,
    Nat.div_one]

theorem expand_eq (h : raw.length = codeBytes) : expand raw =
    digits 32 8 (bigEndian (raw.take 5)) ++ digits 32 8 (bigEndian (raw.drop 5)) := by
  have hfirst : (raw.take 5).length = 5 := by rw [List.length_take, h]; rfl
  have hsecond : (raw.drop 5).length = 5 := by rw [List.length_drop, h]; rfl
  have hoffsets : offsets codeBytes 5 = [0, 5] := rfl
  simp only [expand, h, hoffsets, List.flatMap_cons, List.flatMap_nil, List.append_nil,
    shifts_eq_digits, List.drop_zero, hfirst, List.take_of_length_le (Nat.le_of_eq hsecond), hsecond,
    Nat.sub_self, List.replicate_zero]

theorem bigEndian_lt_chunk {chunk : List UInt8} (h : chunk.length = 5) :
    bigEndian chunk < 32 ^ 8 := by
  have hlt := bigEndian_lt chunk
  rwa [h] at hlt

/-- **Nothing is lost** of ten bytes. -/
theorem expand_injective (ha : a.length = codeBytes) (hb : b.length = codeBytes)
    (h : expand a = expand b) : a = b := by
  have hchunk : ∀ {x y : List UInt8}, x.length = 5 → y.length = 5 →
      digits 32 8 (bigEndian x) = digits 32 8 (bigEndian y) → x = y := fun hx hy hdigits =>
    eq_of_bigEndian_eq (hx.trans hy.symm)
      (eq_of_digits_eq (bigEndian_lt_chunk hx) (bigEndian_lt_chunk hy) hdigits)
  rw [expand_eq ha, expand_eq hb] at h
  obtain ⟨hfirst, hsecond⟩ := List.append_inj h (by rw [length_digits, length_digits])
  have hcodeBytes : codeBytes = 10 := rfl
  rw [← List.take_append_drop 5 a, ← List.take_append_drop 5 b]
  congr 1
  · exact hchunk (by rw [List.length_take]; omega) (by rw [List.length_take]; omega) hfirst
  · exact hchunk (by rw [List.length_drop]; omega) (by rw [List.length_drop]; omega) hsecond

/-! ## The text and back -/

theorem lt_of_mem_expand {n : Nat} (h : n ∈ expand raw) : n < 32 := by
  obtain ⟨offset, -, hmem⟩ := List.mem_flatMap.mp h
  rw [shifts_eq_digits] at hmem
  exact lt_of_mem_digits (by decide) hmem

theorem symbol_spec (hupper : AsciiUpper upper) {n : Nat} (hn : n < 32) :
    symbol n ∈ alphabet ∧ letters upper (symbol n) = [symbol n] := by
  have hall : ∀ n < 32, symbol n ∈ alphabet ∧ (symbol n).toNat < 128 ∧
      fold (symbol n).toUpper = symbol n := by decide
  obtain ⟨hmem, hascii, hfold⟩ := hall n hn
  refine ⟨hmem, ?_⟩
  rw [letters, hupper _ hascii, List.map_singleton, hfold]
  exact List.filter_eq_self.mpr (by simpa using hmem)

theorem map_idxOf_symbol (raw : List UInt8) :
    ((expand raw).map symbol).map alphabet.idxOf = expand raw := by
  have hall : ∀ n < 32, alphabet.idxOf (symbol n) = n := by decide
  rw [List.map_map]
  exact (List.map_congr_left fun n hn => hall n (lt_of_mem_expand hn)).trans (List.map_id _)

theorem flatten_slices {α : Type} (l : List α) (k m : Nat) :
    ((List.range m).map fun i => (l.drop (i * k)).take k).flatten = l.take (m * k) := by
  induction m with
  | zero => rw [Nat.zero_mul, List.take_zero]; rfl
  | succ m ih =>
    rw [List.range_succ, List.map_append, List.flatten_append, ih, Nat.succ_mul, List.take_add]
    simp only [List.map_singleton, List.flatten_singleton]

theorem flatten_groups {α : Type} (l : List α) {k : Nat} (hk : 0 < k) :
    ((offsets l.length k).map fun i => (l.drop i).take k).flatten = l := by
  have hend : l.length ≤ (l.length + k - 1) / k * k := by
    have hmod := Nat.div_add_mod' (l.length + k - 1) k
    have hlt := Nat.mod_lt (l.length + k - 1) hk
    omega
  rw [offsets, List.map_map]
  exact (flatten_slices l k _).trans (List.take_of_length_le hend)

/-- **What is normalised of a code** are the symbols of its digits. -/
theorem normalise_format (hupper : AsciiUpper upper) (raw : List UInt8) :
    normalise upper (format raw) = String.ofList ((expand raw).map symbol) := by
  have hhyphen : letters upper '-' = [] := by
    rw [letters, hupper '-' (by decide)]
    decide
  rw [normalise_eq, format, String.toList_ofList, flatMap_intercalate hhyphen,
    flatten_groups _ (by decide)]
  refine congrArg String.ofList ?_
  rw [List.flatMap_map, List.map_eq_flatMap]
  refine congrArg List.flatten (List.map_congr_left fun n hn => ?_)
  exact (symbol_spec hupper (lt_of_mem_expand hn)).2

theorem length_expand (h : raw.length = codeBytes) : (expand raw).length = 16 := by
  rw [expand_eq h, List.length_append, length_digits, length_digits]

/-- **Codes differ after normalising as their bytes do**, and have sixteen characters. -/
theorem normalise_format_injective (hupper : AsciiUpper upper) (ha : a.length = codeBytes)
    (hb : b.length = codeBytes) (h : normalise upper (format a) = normalise upper (format b)) :
    a = b := by
  rw [normalise_format hupper, normalise_format hupper] at h
  have hsymbols : (expand a).map symbol = (expand b).map symbol := String.ofList_injective h
  refine expand_injective ha hb ?_
  rw [← map_idxOf_symbol a, hsymbols, map_idxOf_symbol]

end RecoveryFormat

open RecoveryFormat

/-- **Recovery codes lose nothing and may be retyped.**  Normalised codes of ten bytes are sixteen
characters of the alphabet and differ as the bytes do; and what is typed with other case, with
foreign characters more or fewer, or with a letter for a `0` or a `1`, is normalised the same. -/
theorem recovery_codes_transcribed {upper : Char → List Char} (hupper : AsciiUpper upper) :
    (∀ a b : List UInt8, a.length = codeBytes → b.length = codeBytes →
      RecoveryFormat.normalise upper (format a) =
        RecoveryFormat.normalise upper (format b) → a = b) ∧
    (∀ a : List UInt8, a.length = codeBytes →
      (RecoveryFormat.normalise upper (format a)).length = 16 ∧
        ∀ c ∈ (RecoveryFormat.normalise upper (format a)).toList, c ∈ alphabet) ∧
    (∀ code code' : String, Edited upper code code' →
      RecoveryFormat.normalise upper code' = RecoveryFormat.normalise upper code) := by
  refine ⟨fun a b ha hb h => normalise_format_injective hupper ha hb h, fun a ha => ?_,
    fun code code' h => normalise_of_edited hupper h⟩
  rw [normalise_format hupper]
  constructor
  · rw [String.length_ofList, List.length_map, length_expand ha]
  · intro c hc
    rw [String.toList_ofList] at hc
    obtain ⟨n, hn, rfl⟩ := List.mem_map.mp hc
    exact (symbol_spec hupper (lt_of_mem_expand hn)).1

/-- The upper case of ASCII and of `ß`. -/
def sampleUpper (c : Char) : List Char := if c = 'ß' then ['S', 'S'] else [c.toUpper]

theorem asciiUpper_sample : AsciiUpper sampleUpper := by
  rintro c hc
  have hne : c ≠ 'ß' := by
    rintro rfl
    exact absurd hc (by decide)
  exact if_neg hne

/-- The letter `o` for the first zero of a code. -/
theorem recovery_codes_transcribed_sample :
    RecoveryFormat.normalise sampleUpper "o000-0000-0000-0000" =
      RecoveryFormat.normalise sampleUpper "0000-0000-0000-0000" := by
  have hedit : Edited sampleUpper "0000-0000-0000-0000" "o000-0000-0000-0000" :=
    .single (Edit.zero [] "000-0000-0000-0000".toList (by decide))
  exact (recovery_codes_transcribed asciiUpper_sample).2.2 _ _ hedit

/-- **A character of no code that is not ignored**: `ß` is neither in the alphabet nor one of the
confusable letters, and its upper case is. -/
theorem not_ignores_foreign : 'ß' ∉ alphabet ∧ 'ß' ∉ ['O', 'o', 'I', 'i', 'L', 'l'] ∧
    RecoveryFormat.normalise sampleUpper (format (List.replicate 10 0) ++ "ß") ≠
      RecoveryFormat.normalise sampleUpper (format (List.replicate 10 0)) := by
  decide +kernel

end Mfa
end CampusID
