import CampusID.Lib.Hexadecimal
import CampusID.Lib.Utf8

/-!
# Percent-coding

`quote` writes a text with the unreserved characters as they are and every other byte in
hexadecimal after a `%`; `unquote` reads such bytes back.  One undoes the other
(`unquote_quote`), and what is written has no separator of a query in it (`mem_quote`).
-/

namespace CampusID
namespace Lib
namespace Percent

/-- The unreserved characters. -/
def isSafe (c : Char) : Bool := c.isAlphanum || c ∈ ['_', '.', '-', '~']

/-- A hexadecimal digit, in upper case. -/
def hexDigit (n : Nat) : Char := if n < 10 then Char.ofNat (48 + n) else Char.ofNat (55 + n)

/-- One byte, quoted. -/
def quoteByte (byte : UInt8) : List Char :=
  let c := Char.ofNat byte.toNat
  if isSafe c then [c] else ['%', hexDigit (byte.toNat / 16), hexDigit (byte.toNat % 16)]

/-- `quote(text, safe="")`. -/
def quote (text : String) : String := String.ofList ((octets text).flatMap quoteByte)

/-- The byte of two digits, where they are digits. -/
def hexByte (hi lo : UInt8) : Option UInt8 :=
  hexOctet (Char.ofNat hi.toNat) (Char.ofNat lo.toNat)

/-- `unquote_to_bytes`: a `%` without two digits after it stays. -/
def unquoteBytes : List UInt8 → List UInt8
  | [] => []
  | byte :: hi :: lo :: rest =>
    match (if byte = 37 then hexByte hi lo else none) with
    | some octet => octet :: unquoteBytes rest
    | none => byte :: unquoteBytes (hi :: lo :: rest)
  | byte :: rest => byte :: unquoteBytes rest

/-- `unquote(text)`. -/
def unquote (text : String) : String := decodeReplace (unquoteBytes (octets text))

/-! ## What is quoted -/

variable {c : Char} {byte : UInt8} {text : String}

/-- A character that a quoted text can have. -/
def IsQuoted (c : Char) : Prop := isSafe c = true ∨ c = '%'

theorem hexDigit_spec : ∀ n < 16, isSafe (hexDigit n) = true ∧ (hexDigit n).toNat < 128 ∧
    hexValue (hexDigit n) = some n := by
  decide

theorem toNat_lt_of_isSafe (h : isSafe c = true) : c.toNat < 128 := by
  unfold isSafe at h
  rw [Bool.or_eq_true, decide_eq_true_eq] at h
  rcases h with halnum | hmem
  · have hcases : (c.isUpper || c.isLower || c.isDigit) = true := halnum
    simp only [Bool.or_eq_true] at hcases
    rcases hcases with (h | h) | h
    · exact Nat.lt_of_le_of_lt (of_decide_eq_true h).2 (by decide)
    · exact Nat.lt_of_le_of_lt (of_decide_eq_true (Bool.and_eq_true_iff.mp h).2) (by decide)
    · exact Nat.lt_of_le_of_lt (of_decide_eq_true (Bool.and_eq_true_iff.mp h).2) (by decide)
  · simp only [List.mem_cons, List.not_mem_nil, or_false] at hmem
    rcases hmem with rfl | rfl | rfl | rfl <;> decide

theorem mem_quoteByte (h : c ∈ quoteByte byte) : IsQuoted c ∧ c.toNat < 128 := by
  have hlt := byte.toNat_lt
  unfold quoteByte at h
  dsimp only at h
  split_ifs at h with hsafe
  · obtain rfl := List.mem_singleton.mp h
    exact ⟨.inl hsafe, toNat_lt_of_isSafe hsafe⟩
  · simp only [List.mem_cons, List.not_mem_nil, or_false] at h
    rcases h with rfl | rfl | rfl
    · exact ⟨.inr rfl, by decide⟩
    · obtain ⟨hsafe, hascii, -⟩ := hexDigit_spec (byte.toNat / 16) (by omega)
      exact ⟨.inl hsafe, hascii⟩
    · obtain ⟨hsafe, hascii, -⟩ := hexDigit_spec (byte.toNat % 16) (by omega)
      exact ⟨.inl hsafe, hascii⟩

/-- **What a quoted text is made of.** -/
theorem mem_quote (h : c ∈ (quote text).toList) : IsQuoted c ∧ c.toNat < 128 := by
  rw [quote, String.toList_ofList] at h
  obtain ⟨byte, -, hmem⟩ := List.mem_flatMap.mp h
  exact mem_quoteByte hmem

theorem notMem_quote (hc : isSafe c = false) (hne : c ≠ '%') : c ∉ (quote text).toList := by
  intro h
  rcases (mem_quote h).1 with hsafe | rfl
  · rw [hc] at hsafe
    exact nomatch hsafe
  · exact hne rfl

/-! ## What is read back -/

/-- The bytes of one quoted byte. -/
def quotedBytes (byte : UInt8) : List UInt8 := (quoteByte byte).flatMap String.utf8EncodeChar

theorem octets_quote (text : String) : octets (quote text) = (octets text).flatMap quotedBytes := by
  rw [quote, octets_ofList, List.flatMap_assoc]
  rfl

theorem unquoteBytes_cons_of_ne {rest : List UInt8} (h : byte ≠ 37) :
    unquoteBytes (byte :: rest) = byte :: unquoteBytes rest := by
  match rest with
  | [] => rfl
  | [_] => rfl
  | _ :: _ :: _ => rw [unquoteBytes, if_neg h]

theorem unquoteBytes_percent {hi lo : UInt8} {rest : List UInt8} (h : hexByte hi lo = some byte) :
    unquoteBytes (37 :: hi :: lo :: rest) = byte :: unquoteBytes rest := by
  rw [unquoteBytes, if_pos rfl, h]

theorem unquoteBytes_quoted (byte : UInt8) (rest : List UInt8) :
    unquoteBytes (quotedBytes byte ++ rest) = byte :: unquoteBytes rest := by
  have hlt := byte.toNat_lt
  have hvalid : byte.toNat.isValidChar := .inl (by omega)
  have hchar : (Char.ofNat byte.toNat).toNat = byte.toNat := by
    rw [Char.ofNat, dif_pos hvalid]
    rfl
  unfold quotedBytes quoteByte
  dsimp only
  split_ifs with hsafe
  · rw [List.flatMap_singleton, utf8EncodeChar_of_lt (toNat_lt_of_isSafe hsafe), hchar,
      UInt8.ofNat_toNat, List.singleton_append]
    refine unquoteBytes_cons_of_ne ?_
    rintro rfl
    exact absurd hsafe (by decide)
  · obtain ⟨-, hhi, hhi'⟩ := hexDigit_spec (byte.toNat / 16) (by omega)
    obtain ⟨-, hlo, hlo'⟩ := hexDigit_spec (byte.toNat % 16) (by omega)
    have hdigit : ∀ c : Char, c.toNat < 128 → Char.ofNat (UInt8.ofNat c.toNat).toNat = c := by
      intro c hc
      rw [UInt8.toNat_ofNat_of_lt' (by simp only [UInt8.size]; omega), Char.ofNat_toNat]
    have hbyte : hexByte (UInt8.ofNat (hexDigit (byte.toNat / 16)).toNat)
        (UInt8.ofNat (hexDigit (byte.toNat % 16)).toNat) = some byte := by
      rw [hexByte, hdigit _ hhi, hdigit _ hlo, hexOctet, hhi', hlo']
      dsimp only
      rw [Nat.div_add_mod, UInt8.ofNat_toNat]
    have hpercent : String.utf8EncodeChar '%' = [37] := rfl
    simp only [List.flatMap_cons, List.flatMap_nil, hpercent, utf8EncodeChar_of_lt hhi,
      utf8EncodeChar_of_lt hlo, List.cons_append, List.nil_append]
    exact unquoteBytes_percent hbyte

theorem unquoteBytes_octets_quote (text : String) :
    unquoteBytes (octets (quote text)) = octets text := by
  rw [octets_quote]
  induction octets text with
  | nil => rw [List.flatMap_nil, unquoteBytes]
  | cons byte bytes ih => rw [List.flatMap_cons, unquoteBytes_quoted, ih]

/-- **A text that was quoted is read back.** -/
theorem unquote_quote (text : String) : unquote (quote text) = text := by
  rw [unquote, unquoteBytes_octets_quote, decodeReplace_octets]

end Percent
end Lib
end CampusID
