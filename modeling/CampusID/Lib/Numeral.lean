import Mathlib.Algebra.Order.Field.Power
import Mathlib.Data.Rat.Cast.Order
import Mathlib.Tactic.FieldSimp
import Mathlib.Tactic.Ring
import CampusID.Lib.Delimited

/-!
# Decimal numerals

A numeral has a sign, digits, and perhaps digits after a point and an exponent.  Its text can be
read in one way only (`chars_inj`), so that two numbers with one text have one sign and one
`magnitude`.
-/

namespace CampusID
namespace Lib

/-- A decimal numeral.  The exponent has a sign of its own. -/
structure Numeral where
  negative : Bool
  whole : List Char
  fraction : List Char
  exponent : Option (Bool × List Char)
  whole_ne : whole ≠ []
  whole_digits : ∀ c ∈ whole, c.isDigit = true
  fraction_digits : ∀ c ∈ fraction, c.isDigit = true
  exponent_digits : ∀ e ∈ exponent, ∀ c ∈ e.2, c.isDigit = true

namespace Numeral

/-- The digits after the point, with the point. -/
def pointChars (fraction : List Char) : List Char :=
  if fraction = [] then [] else '.' :: fraction

/-- The exponent with its sign. -/
def exponentChars : Option (Bool × List Char) → List Char
  | none => []
  | some (negative, digits) => 'e' :: (if negative then '-' else '+') :: digits

/-- The text of a numeral. -/
def chars (n : Numeral) : List Char :=
  (if n.negative then ['-'] else []) ++
    (n.whole ++ (pointChars n.fraction ++ exponentChars n.exponent))

/-- The number an exponent is. -/
def exponentValue : Option (Bool × List Char) → Int
  | none => 0
  | some (negative, digits) =>
    if negative then -(Nat.ofDigitChars 10 digits 0 : Int) else Nat.ofDigitChars 10 digits 0

/-- The number without its sign. -/
def magnitude (n : Numeral) : ℚ :=
  Nat.ofDigitChars 10 (n.whole ++ n.fraction) 0 *
    (10 : ℚ) ^ (exponentValue n.exponent - n.fraction.length)

/-! ## Reading -/

theorem whole_eq_cons (n : Numeral) : ∃ c l, n.whole = c :: l ∧ c.isDigit = true := by
  obtain ⟨c, l, h⟩ := List.exists_cons_of_ne_nil n.whole_ne
  exact ⟨c, l, h, n.whole_digits c (h ▸ List.mem_cons_self)⟩

theorem stops_exponentChars (exponent : Option (Bool × List Char)) :
    Delimited.Stops Char.isDigit (exponentChars exponent) := by
  cases exponent with
  | none => exact Delimited.stops_nil _
  | some e => exact Delimited.stops_cons (by decide) _

theorem stops_pointChars (fraction : List Char) (exponent : Option (Bool × List Char)) :
    Delimited.Stops Char.isDigit (pointChars fraction ++ exponentChars exponent) := by
  unfold pointChars
  split_ifs
  · exact stops_exponentChars exponent
  · exact Delimited.stops_cons (by decide) _

theorem exponentChars_inj {e e' : Option (Bool × List Char)}
    (h : exponentChars e = exponentChars e') : e = e' := by
  cases e with
  | none =>
    cases e' with
    | none => rfl
    | some e' => simp [exponentChars] at h
  | some e =>
    cases e' with
    | none => simp [exponentChars] at h
    | some e' =>
      obtain ⟨negative, digits⟩ := e
      obtain ⟨negative', digits'⟩ := e'
      simp only [exponentChars, List.cons.injEq, true_and] at h
      obtain ⟨hsign, rfl⟩ := h
      cases negative <;> cases negative' <;> simp_all

/-- What follows the whole digits is read in one way. -/
theorem pointChars_inj {f f' : List Char} {e e' : Option (Bool × List Char)}
    (hf : ∀ c ∈ f, c.isDigit = true) (hf' : ∀ c ∈ f', c.isDigit = true)
    (h : pointChars f ++ exponentChars e = pointChars f' ++ exponentChars e') :
    f = f' ∧ e = e' := by
  -- a point does not start an exponent
  have hpoint : ∀ (l : List Char) (e : Option (Bool × List Char)), '.' :: l ≠ exponentChars e := by
    intro l e heq
    cases e with
    | none => cases heq
    | some e => simp [exponentChars] at heq
  unfold pointChars at h
  split_ifs at h with hnil hnil' hnil'
  · exact ⟨hnil.trans hnil'.symm, exponentChars_inj h⟩
  · exact absurd h.symm (hpoint _ _)
  · exact absurd h (hpoint _ _)
  · simp only [List.cons_append, List.cons.injEq, true_and] at h
    obtain ⟨hfraction, hexponent⟩ :=
      Delimited.token hf hf' (stops_exponentChars e) (stops_exponentChars e') h
    exact ⟨hfraction, exponentChars_inj hexponent⟩

/-- **A numeral is read in one way.** -/
theorem chars_inj {n m : Numeral} (h : n.chars = m.chars) : n = m := by
  have hparts : n.negative = m.negative ∧ n.whole = m.whole ∧
      pointChars n.fraction ++ exponentChars n.exponent =
        pointChars m.fraction ++ exponentChars m.exponent := by
    obtain ⟨c, l, hc, hdigit⟩ := n.whole_eq_cons
    obtain ⟨c', l', hc', hdigit'⟩ := m.whole_eq_cons
    have hminus : ('-' : Char).isDigit = false := by decide
    unfold chars at h
    cases hn : n.negative with
    | true =>
      cases hm : m.negative with
      | true =>
        simp only [hn, hm, if_true, List.cons_append, List.nil_append, List.cons.injEq,
          true_and] at h
        exact ⟨rfl, Delimited.token n.whole_digits m.whole_digits (stops_pointChars _ _)
          (stops_pointChars _ _) h⟩
      | false =>
        simp only [hn, hm, hc', if_true, Bool.false_eq_true, if_false, List.cons_append,
          List.nil_append, List.cons.injEq] at h
        rw [← h.1, hminus] at hdigit'
        cases hdigit'
    | false =>
      cases hm : m.negative with
      | true =>
        simp only [hn, hm, hc, if_true, Bool.false_eq_true, if_false, List.cons_append,
          List.nil_append, List.cons.injEq] at h
        rw [h.1, hminus] at hdigit
        cases hdigit
      | false =>
        simp only [hn, hm, Bool.false_eq_true, if_false, List.nil_append] at h
        exact ⟨rfl, Delimited.token n.whole_digits m.whole_digits (stops_pointChars _ _)
          (stops_pointChars _ _) h⟩
  obtain ⟨hnegative, hwhole, hrest⟩ := hparts
  obtain ⟨hfraction, hexponent⟩ := pointChars_inj n.fraction_digits m.fraction_digits hrest
  cases n
  cases m
  simp only at hnegative hwhole hfraction hexponent
  subst hnegative hwhole hfraction hexponent
  rfl

/-! ## Symbols -/

/-- What a numeral is written with. -/
def isSymbol (c : Char) : Bool := c.isDigit || c = '-' || c = '+' || c = '.' || c = 'e'

theorem isSymbol_of_isDigit {c : Char} (h : c.isDigit = true) : isSymbol c = true := by
  simp [isSymbol, h]

theorem isSymbol_of_mem_chars {n : Numeral} {c : Char} (h : c ∈ n.chars) : isSymbol c = true := by
  simp only [chars, List.mem_append] at h
  rcases h with h | h | h | h
  · split_ifs at h
    · rw [List.mem_singleton.mp h]
      decide
    · cases h
  · exact isSymbol_of_isDigit (n.whole_digits c h)
  · unfold pointChars at h
    split_ifs at h
    · cases h
    · rcases List.mem_cons.mp h with rfl | h
      · decide
      · exact isSymbol_of_isDigit (n.fraction_digits c h)
  · cases he : n.exponent with
    | none =>
      rw [he] at h
      cases h
    | some e =>
      obtain ⟨negative, digits⟩ := e
      rw [he, exponentChars] at h
      simp only [List.mem_cons] at h
      rcases h with rfl | rfl | h
      · decide
      · split <;> decide
      · exact isSymbol_of_isDigit (n.exponent_digits _ he c h)

end Numeral

/-! ## Scientific notation -/

/-- Digits with no zero at their end, and an exponent, are those of their number. -/
theorem digits_eq_of_mul_pow_eq {m m' : ℕ} {e e' : ℤ} (hm : m % 10 ≠ 0 ∨ (m = 0 ∧ e = 0))
    (hm' : m' % 10 ≠ 0 ∨ (m' = 0 ∧ e' = 0)) (hle : e ≤ e')
    (h : (m : ℚ) * (10 : ℚ) ^ e = m' * (10 : ℚ) ^ e') : m = m' ∧ e = e' := by
  obtain ⟨k, hk⟩ : ∃ k : ℕ, e' = e + k := ⟨(e' - e).toNat, by omega⟩
  have hscaled : m = m' * 10 ^ k := by
    have hne : (10 : ℚ) ^ e ≠ 0 := zpow_ne_zero _ (by norm_num)
    rw [hk, zpow_add₀ (by norm_num), zpow_natCast, ← mul_assoc, mul_right_comm] at h
    exact_mod_cast mul_right_cancel₀ hne h
  cases k with
  | zero => exact ⟨by simpa using hscaled, by simpa using hk.symm⟩
  | succ k =>
    -- a positive shift leaves a zero at the end, so that both are zero, with exponent zero
    have hmod : m % 10 = 0 := by
      rw [hscaled, pow_succ, ← mul_assoc]
      exact Nat.mul_mod_left _ _
    obtain ⟨hzero, he⟩ := hm.resolve_left (by omega)
    have hzero' : m' = 0 := by
      rw [hzero] at hscaled
      rcases Nat.mul_eq_zero.mp hscaled.symm with h | h
      · exact h
      · exact absurd h (pow_ne_zero _ (by norm_num))
    have he' := (hm'.resolve_left (by omega)).2
    omega

end Lib
end CampusID
