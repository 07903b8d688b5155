import CampusID.Lib.Numeral
import CampusID.Audit.Values

/-!
# The text of a number

`repr` of a float is written in one of six ways, by the place of its point, and every one of
them is a numeral of the sign and magnitude of the float: `Decimal.spells_repr`.  So the text
tells floats apart, and it tells them from integers, by a point or an exponent, and from what is
no finite number, by a letter: `Number.json_injective`.
-/

namespace CampusID
namespace Audit

open Lib

/-! ## Floats -/

namespace Decimal

theorem digit_of_mem_toDigits {n : Nat} {c : Char} (h : c ∈ Nat.toDigits 10 n) :
    c.isDigit = true :=
  Nat.isDigit_of_mem_toDigits (by decide) (by decide) h

theorem toList_zeros (n : Nat) : (zeros n).toList = List.replicate n '0' := by
  simp [zeros]

theorem digit_of_mem_replicate {n : Nat} {c : Char} (h : c ∈ List.replicate n '0') :
    c.isDigit = true := by
  rw [List.eq_of_mem_replicate h]
  decide

/-- The digits of an exponent: at least two. -/
def exponentDigits (e : Int) : List Char :=
  (if e.natAbs < 10 then ['0'] else []) ++ Nat.toDigits 10 e.natAbs

theorem toList_exponentText (e : Int) :
    (exponentText e).toList = (if e < 0 then '-' else '+') :: exponentDigits e := by
  unfold exponentText exponentDigits
  split_ifs <;> simp

theorem digit_of_mem_exponentDigits {e : Int} {c : Char} (h : c ∈ exponentDigits e) :
    c.isDigit = true := by
  rcases List.mem_append.mp h with h | h
  · split_ifs at h
    · rw [List.mem_singleton.mp h]
      decide
    · cases h
  · exact digit_of_mem_toDigits h

/-- An exponent as part of a numeral. -/
def exponentOf (e : Int) : Option (Bool × List Char) := some (decide (e < 0), exponentDigits e)

theorem exponentChars_exponentOf (e : Int) :
    Numeral.exponentChars (exponentOf e) = 'e' :: (exponentText e).toList := by
  simp [Numeral.exponentChars, exponentOf, toList_exponentText]

theorem exponentValue_exponentOf (e : Int) : Numeral.exponentValue (exponentOf e) = e := by
  have hdigits : Nat.ofDigitChars 10 (exponentDigits e) 0 = e.natAbs := by
    unfold exponentDigits
    split_ifs
    · simp [Nat.ofDigitChars_cons]
    · simp
  simp only [Numeral.exponentValue, exponentOf, hdigits, decide_eq_true_eq]
  split_ifs <;> omega

/-- The text is a numeral of this sign and magnitude, with a point or an exponent in it. -/
def Spells (text : List Char) (d : Decimal) : Prop :=
  ∃ n : Numeral, text = n.chars ∧ n.negative = d.negative ∧
    n.magnitude = d.digits * (10 : ℚ) ^ d.exponent ∧ (n.fraction ≠ [] ∨ n.exponent ≠ none)

theorem spells_of {d : Decimal} {body : List Char} (whole fraction : List Char)
    (exponent : Option (Bool × List Char)) (zeros : Nat) (hne : whole ≠ [])
    (hwhole : ∀ c ∈ whole, c.isDigit = true) (hfraction : ∀ c ∈ fraction, c.isDigit = true)
    (hexponent : ∀ e ∈ exponent, ∀ c ∈ e.2, c.isDigit = true)
    (hbody : body = whole ++ (Numeral.pointChars fraction ++ Numeral.exponentChars exponent))
    (hdigits : Nat.ofDigitChars 10 (whole ++ fraction) 0 = d.digits * 10 ^ zeros)
    (hscale : Numeral.exponentValue exponent - fraction.length = d.exponent - zeros)
    (hfloat : fraction ≠ [] ∨ exponent ≠ none) :
    Spells ((if d.negative = true then ['-'] else []) ++ body) d := by
  refine ⟨⟨d.negative, whole, fraction, exponent, hne, hwhole, hfraction, hexponent⟩, ?_, rfl, ?_,
    hfloat⟩
  · rw [hbody]
    rfl
  · rw [Numeral.magnitude, hdigits, hscale, zpow_sub₀ (by norm_num), zpow_natCast]
    push_cast
    field_simp

theorem toList_mantissa (s : String) :
    (if String.ofList (s.toList.drop 1) = "" then String.ofList (s.toList.take 1)
      else String.ofList (s.toList.take 1) ++ "." ++ String.ofList (s.toList.drop 1)).toList =
      s.toList.take 1 ++ Numeral.pointChars (s.toList.drop 1) := by
  by_cases h : s.toList.drop 1 = []
  · rw [if_pos (by rw [h]), h]
    simp [Numeral.pointChars]
  · rw [if_neg fun hempty => h (by simpa using congrArg String.toList hempty), Numeral.pointChars,
      if_neg h]
    simp

/-- **`repr` of a float** is a numeral of its sign and magnitude. -/
theorem spells_repr (d : Decimal) : Spells d.repr.toList d := by
  have htext : (toString d.digits).toList = Nat.toDigits 10 d.digits := Nat.toList_repr
  have hlength : ((toString d.digits).length : Int) = (Nat.toDigits 10 d.digits).length := by
    rw [← String.length_toList, htext]
  have hsign : (if d.negative = true then "-" else "").toList =
      if d.negative = true then ['-'] else [] := by
    split_ifs <;> rfl
  have hpos : 0 < (Nat.toDigits 10 d.digits).length := Nat.length_toDigits_pos
  have hvalue : Nat.ofDigitChars 10 (Nat.toDigits 10 d.digits) 0 = d.digits := by simp
  have hdigits : ∀ c ∈ Nat.toDigits 10 d.digits, c.isDigit = true := fun c => digit_of_mem_toDigits
  have hne : Nat.toDigits 10 d.digits ≠ [] := Nat.toDigits_ne_nil
  unfold repr
  simp only [hlength, String.toList_append, hsign]
  generalize toString d.digits = ds at *
  generalize Nat.toDigits 10 d.digits = digits at *
  generalize hminus : (if d.negative = true then ['-'] else []) = minus
  split
  · -- zero
    rename_i hzero
    have hexponent : d.exponent = 0 := by
      rcases d.normal with h | ⟨-, h⟩
      · omega
      · exact h
    rw [← hminus]
    refine spells_of ['0'] ['0'] none 1 (by simp) (by simp) (by simp) (by simp) rfl ?_ ?_
      (by simp)
    · simp [hzero, Nat.ofDigitChars_cons]
    · simp [hexponent, Numeral.exponentValue]
  · split
    · split
      · -- zeros and a point before the digits
        rw [← hminus]
        refine spells_of ['0'] (List.replicate (-(digits.length + d.exponent)).toNat '0' ++ digits)
          none 0 (by simp) (by simp) (fun c hc => ?_) (by simp) ?_ ?_ ?_ (by simp [hne])
        · rcases List.mem_append.mp hc with hc | hc
          · exact digit_of_mem_replicate hc
          · exact hdigits c hc
        · simp [Numeral.pointChars, Numeral.exponentChars, toList_zeros, htext, hne]
        · simp [Nat.ofDigitChars_append, Nat.ofDigitChars_cons, hvalue]
        · simp only [Numeral.exponentValue, List.length_append, List.length_replicate]
          omega
      · split
        · -- zeros behind the digits
          rw [← hminus]
          refine spells_of (digits ++ List.replicate d.exponent.toNat '0') ['0'] none
            (d.exponent.toNat + 1) (by simp [hne]) (fun c hc => ?_) (by simp) (by simp) ?_ ?_ ?_
            (by simp)
          · rcases List.mem_append.mp hc with hc | hc
            · exact hdigits c hc
            · exact digit_of_mem_replicate hc
          · simp [Numeral.pointChars, Numeral.exponentChars, toList_zeros, htext]
          · simp [Nat.ofDigitChars_append, Nat.ofDigitChars_cons, hvalue, pow_succ]
            ring
          · simp only [Numeral.exponentValue, List.length_singleton]
            omega
        · -- a point between the digits
          obtain ⟨point, hp⟩ : ∃ point : ℕ, digits.length + d.exponent = point :=
            ⟨(digits.length + d.exponent).toNat, by omega⟩
          have hdrop : digits.drop point ≠ [] := by
            rw [Ne, List.drop_eq_nil_iff]
            omega
          rw [← hminus]
          refine spells_of (digits.take point) (digits.drop point) none 0 ?_
            (fun c hc => hdigits c (List.mem_of_mem_take hc))
            (fun c hc => hdigits c (List.mem_of_mem_drop hc)) (by simp) ?_ ?_ ?_ (.inl hdrop)
          · rw [Ne, List.take_eq_nil_iff]
            rintro (h | h)
            · omega
            · exact hne h
          · rw [Numeral.pointChars, if_neg hdrop]
            simp [Numeral.exponentChars, hp, htext]
          · simp [hvalue]
          · simp only [Numeral.exponentValue, List.length_drop]
            omega
    · -- an exponent
      rw [← hminus]
      refine spells_of (digits.take 1) (digits.drop 1) (exponentOf (digits.length + d.exponent - 1))
        0 (by simp [hne]) (fun c hc => hdigits c (List.mem_of_mem_take hc))
        (fun c hc => hdigits c (List.mem_of_mem_drop hc)) ?_ ?_ ?_ ?_ (by simp [exponentOf])
      · rintro _ ⟨⟩ c hc
        exact digit_of_mem_exponentDigits hc
      · rw [String.toList_append, String.toList_append, toList_mantissa, htext,
          exponentChars_exponentOf]
        simp
      · rw [List.take_append_drop, hvalue, pow_zero, mul_one]
      · rw [exponentValue_exponentOf, List.length_drop]
        omega

/-- **`repr` tells floats apart.** -/
theorem repr_injective {d d' : Decimal} (h : d.repr = d'.repr) : d = d' := by
  obtain ⟨n, hchars, hnegative, hmagnitude, -⟩ := spells_repr d
  obtain ⟨n', hchars', hnegative', hmagnitude', -⟩ := spells_repr d'
  obtain rfl : n = n' := Numeral.chars_inj (by rw [← hchars, ← hchars', h])
  have hvalue := hmagnitude.symm.trans hmagnitude'
  have hscientific : d.digits = d'.digits ∧ d.exponent = d'.exponent := by
    rcases le_total d.exponent d'.exponent with hle | hle
    · exact digits_eq_of_mul_pow_eq d.normal d'.normal hle hvalue
    · obtain ⟨hdigits, hexponent⟩ := digits_eq_of_mul_pow_eq d'.normal d.normal hle hvalue.symm
      exact ⟨hdigits.symm, hexponent.symm⟩
  have hsign := hnegative.symm.trans hnegative'
  cases d
  cases d'
  obtain ⟨hdigits, hexponent⟩ := hscientific
  simp only at hsign hdigits hexponent
  subst hsign hdigits hexponent
  rfl

end Decimal

/-! ## Numbers -/

namespace Number

/-- An integer as a numeral: no point, no exponent. -/
def intNumeral (k : Int) : Numeral where
  negative := decide (k < 0)
  whole := Nat.toDigits 10 k.natAbs
  fraction := []
  exponent := none
  whole_ne := Nat.toDigits_ne_nil
  whole_digits := fun _ => Decimal.digit_of_mem_toDigits
  fraction_digits := by simp
  exponent_digits := by simp

theorem intNumeral_inj {k k' : Int} (h : intNumeral k = intNumeral k') : k = k' := by
  have hsign : decide (k < 0) = decide (k' < 0) := congrArg Numeral.negative h
  have habs : k.natAbs = k'.natAbs := by
    have hwhole : Nat.toDigits 10 k.natAbs = Nat.toDigits 10 k'.natAbs :=
      congrArg Numeral.whole h
    have hread := congrArg (Nat.ofDigitChars 10 · 0) hwhole
    simpa using hread
  rw [decide_eq_decide] at hsign
  omega

theorem toList_of_intText {k : Int} {t : String} (h : intText k = .ok t) :
    t.toList = (intNumeral k).chars := by
  unfold intText at h
  split_ifs at h
  obtain rfl := Except.ok.inj h
  rw [Int.toString_eq_repr, Int.repr_eq_if]
  by_cases hneg : k < 0
  · have habs : (-k).toNat = k.natAbs := by omega
    rw [if_neg (by omega), habs]
    simp [Numeral.chars, Numeral.pointChars, Numeral.exponentChars, intNumeral, hneg]
  · have habs : k.toNat = k.natAbs := by omega
    rw [if_pos (by omega), habs]
    simp [Numeral.chars, Numeral.pointChars, Numeral.exponentChars, intNumeral, hneg]

/-- What is not a finite number has a letter in its text that no numeral has. -/
def isName (t : String) : Bool := t.toList.any fun c => !Numeral.isSymbol c

theorem isName_of_numeral {t : String} {n : Numeral} (h : t.toList = n.chars) :
    isName t = false := by
  rw [isName, h, List.any_eq_false]
  intro c hc
  simp [Numeral.isSymbol_of_mem_chars hc]

/-- What a name is written for. -/
def named (t : String) : Number := if t = "NaN" then .nan else .inf (t = "-Infinity")

/-- **What a number is written as.** -/
theorem json_cases {m : Number} {t : String} (h : m.json = .ok t) :
    (∃ k, m = .int k ∧ t.toList = (intNumeral k).chars) ∨ (∃ d, m = .float d ∧ t = d.repr) ∨
      t ∈ ["NaN", "Infinity", "-Infinity"] ∧ m = named t := by
  cases m with
  | int k => exact .inl ⟨k, rfl, toList_of_intText h⟩
  | float d => exact .inr (.inl ⟨d, rfl, (Except.ok.inj h).symm⟩)
  | nan =>
    obtain rfl := Except.ok.inj h
    exact .inr (.inr ⟨by decide, by decide⟩)
  | inf negative =>
    obtain rfl := Except.ok.inj h
    cases negative <;> exact .inr (.inr ⟨by decide, by decide⟩)

/-- **The text tells numbers apart**: an `int` from a `float` too. -/
theorem json_injective {m n : Number} {t : String} (hm : m.json = .ok t) (hn : n.json = .ok t) :
    m = n := by
  have hname : t ∈ ["NaN", "Infinity", "-Infinity"] → isName t = true := by
    simp only [List.mem_cons, List.not_mem_nil, or_false]
    rintro (rfl | rfl | rfl) <;> decide
  have hfloat : ∀ d : Decimal, t = d.repr → ∃ n : Numeral, t.toList = n.chars ∧
      (n.fraction ≠ [] ∨ n.exponent ≠ none) := by
    rintro d rfl
    obtain ⟨n, hchars, -, -, hpoint⟩ := d.spells_repr
    exact ⟨n, hchars, hpoint⟩
  have hapart : ∀ (k : Int) (d : Decimal), t.toList = (intNumeral k).chars → t ≠ d.repr := by
    intro k d hk hd
    obtain ⟨n, hchars, hpoint⟩ := hfloat d hd
    obtain rfl := Numeral.chars_inj (hk.symm.trans hchars)
    exact hpoint.elim (· rfl) (· rfl)
  rcases json_cases hm with ⟨k, rfl, hk⟩ | ⟨d, rfl, hd⟩ | ⟨hin, hm⟩
  · rcases json_cases hn with ⟨k', rfl, hk'⟩ | ⟨d', rfl, hd'⟩ | ⟨hin, -⟩
    · rw [intNumeral_inj (Numeral.chars_inj (hk.symm.trans hk'))]
    · exact absurd hd' (hapart k d' hk)
    · rw [isName_of_numeral hk] at hname
      exact absurd (hname hin) Bool.false_ne_true
  · obtain ⟨numeral, hchars, -⟩ := hfloat d hd
    rcases json_cases hn with ⟨k', rfl, hk'⟩ | ⟨d', rfl, hd'⟩ | ⟨hin, -⟩
    · exact absurd hd (hapart k' d hk')
    · rw [Decimal.repr_injective (hd.symm.trans hd')]
    · rw [isName_of_numeral hchars] at hname
      exact absurd (hname hin) Bool.false_ne_true
  · rcases json_cases hn with ⟨k', rfl, hk'⟩ | ⟨d', rfl, hd'⟩ | ⟨-, hn⟩
    · rw [isName_of_numeral hk'] at hname
      exact absurd (hname hin) Bool.false_ne_true
    · obtain ⟨numeral, hchars, -⟩ := hfloat d' hd'
      rw [isName_of_numeral hchars] at hname
      exact absurd (hname hin) Bool.false_ne_true
    · rw [hm, hn]

end Number

end Audit
end CampusID
