import CampusID.Audit.AsciiText
import CampusID.Authz.Cache

/-!
# The material of a key is unambiguous

The material is a JSON list in ASCII, and no two questions have one material
(`material_injective`): nothing is lost in ASCII, and before that a string ends at its quotation
mark, and a number and a truth value at the comma behind them.
-/

namespace CampusID
namespace Authz

open Lib

/-! ## In ASCII -/

theorem jsonChar_ascii {c : Char} (h : c.toNat < 127) : ∀ e ∈ Audit.jsonChar c, e.toNat < 127 := by
  intro e he
  have hpair : ∀ d : Char, d.toNat < 127 → e ∈ ['\\', d] → e.toNat < 127 := by
    intro d hd hmem
    simp only [List.mem_cons, List.not_mem_nil, or_false] at hmem
    rcases hmem with rfl | rfl
    · decide
    · exact hd
  unfold Audit.jsonChar at he
  split_ifs at he with hquote hslash hn hr ht hb hf hcontrol
  · exact hpair _ (by decide) he
  · exact hpair _ (by decide) he
  · exact hpair _ (by decide) he
  · exact hpair _ (by decide) he
  · exact hpair _ (by decide) he
  · exact hpair _ (by decide) he
  · exact hpair _ (by decide) he
  · simp only [List.mem_cons, List.not_mem_nil, or_false] at he
    rcases he with rfl | rfl | rfl | rfl | rfl | rfl
    any_goals decide
    all_goals exact Audit.hexDigit_ascii _ (by omega)
  · obtain rfl := List.mem_singleton.mp he
    exact h

theorem asciiChar_eq (c : Char) : asciiChar c = (Audit.jsonChar c).flatMap Audit.asciiChar := by
  by_cases hascii : c.toNat < 127
  · rw [asciiChar, if_pos hascii, Audit.flatMap_ascii_of_lt (jsonChar_ascii hascii)]
  · have hplain : Audit.jsonChar c = [c] := by
      have hne : ∀ e : Char, e.toNat < 127 → c ≠ e := fun e he heq => hascii (heq ▸ he)
      unfold Audit.jsonChar
      rw [if_neg (hne _ (by decide)), if_neg (hne _ (by decide)), if_neg (hne _ (by decide)),
        if_neg (hne _ (by decide)), if_neg (hne _ (by decide)), if_neg (by omega),
        if_neg (by omega), if_neg (by omega)]
    rw [hplain, List.flatMap_singleton, asciiChar, Audit.asciiChar, if_neg hascii, if_neg hascii]
    rfl

theorem toList_asciiString (s : String) :
    (asciiString s).toList = (Audit.jsonString s).toList.flatMap Audit.asciiChar := by
  have hquote : Audit.asciiChar '"' = ['"'] := Audit.asciiChar_of_lt (by decide)
  rw [asciiString, String.toList_ofList, Audit.toList_jsonString, List.flatMap_cons,
    List.flatMap_append, List.flatMap_assoc, List.flatMap_singleton, hquote]
  exact congrArg ('"' :: · ++ ['"']) (congrArg s.toList.flatMap (funext asciiChar_eq))

/-! ## The items -/

/-- The material before it is written in ASCII. -/
def Question.text (q : Question) : List Char :=
  '[' :: ((Audit.jsonString q.person).toList ++ ',' :: ((toString q.epoch).toList ++
    ',' :: ((Audit.jsonString q.resourceId).toList ++
    ',' :: ((Audit.jsonString q.classification).toList ++
    ',' :: ((if q.requiresAal2 then "true" else "false").toList ++
    ',' :: ((Audit.jsonString q.action).toList ++ ',' :: ((Audit.jsonString q.assurance).toList ++
    ',' :: ((Audit.jsonString q.network).toList ++ [']']))))))))

theorem digits_of_mem_toString {n : Nat} : ∀ c ∈ (toString n).toList, c.isDigit = true := by
  intro c hc
  rw [Nat.toString_eq_repr, Nat.toList_repr] at hc
  exact Audit.Decimal.digit_of_mem_toDigits hc

theorem number_tells {n n' : Nat} {rest rest' : List Char}
    (h : (toString n).toList ++ ',' :: rest = (toString n').toList ++ ',' :: rest') :
    n = n' ∧ ',' :: rest = ',' :: rest' := by
  have hcomma : ∀ rest, Delimited.Stops Char.isDigit (',' :: rest) :=
    fun _ => Delimited.stops_cons (by decide) _
  obtain ⟨hdigits, hrest⟩ := Delimited.token digits_of_mem_toString digits_of_mem_toString
    (hcomma rest) (hcomma rest') h
  rw [Nat.toString_eq_repr, Nat.toString_eq_repr, Nat.toList_repr, Nat.toList_repr] at hdigits
  have hread := congrArg (Nat.ofDigitChars 10 · 0) hdigits
  exact ⟨by simpa using hread, hrest⟩

theorem flag_tells {b b' : Bool} {rest rest' : List Char}
    (h : (if b then "true" else "false").toList ++ rest =
      (if b' then "true" else "false").toList ++ rest') : b = b' ∧ rest = rest' := by
  cases b with
  | true =>
    cases b' with
    | true => exact ⟨rfl, List.append_cancel_left h⟩
    | false => simp at h
  | false =>
    cases b' with
    | true => simp at h
    | false => exact ⟨rfl, List.append_cancel_left h⟩

theorem text_injective : Function.Injective Question.text := by
  intro q q' h
  obtain ⟨hperson, h⟩ := Audit.jsonString_tells (List.cons.inj h).2
  obtain ⟨hepoch, h⟩ := number_tells (List.cons.inj h).2
  obtain ⟨hid, h⟩ := Audit.jsonString_tells (List.cons.inj h).2
  obtain ⟨hclassification, h⟩ := Audit.jsonString_tells (List.cons.inj h).2
  obtain ⟨hrequires, h⟩ := flag_tells (List.cons.inj h).2
  obtain ⟨haction, h⟩ := Audit.jsonString_tells (List.cons.inj h).2
  obtain ⟨hassurance, h⟩ := Audit.jsonString_tells (List.cons.inj h).2
  obtain ⟨hnetwork, -⟩ := Audit.jsonString_tells (List.cons.inj h).2
  cases q
  cases q'
  exact (Question.mk.injEq ..).mpr
    ⟨hperson, hepoch, hid, hclassification, hrequires, haction, hassurance, hnetwork⟩

theorem worded_text (q : Question) : Audit.Worded q.text := by
  have hnumber : Audit.Worded (toString q.epoch).toList := Audit.worded_of_plain fun c hc heq =>
    absurd (digits_of_mem_toString c hc) (by rw [heq]; decide)
  have hflag : Audit.Worded (if q.requiresAal2 then "true" else "false").toList := by
    cases q.requiresAal2 <;> exact Audit.worded_of_plain (by simp)
  have hcomma : ∀ {item rest : List Char}, Audit.Worded item → Audit.Worded rest →
      Audit.Worded (item ++ ',' :: rest) := fun h h' => h.append (.cons (by decide) h')
  have hstring := Audit.worded_jsonString
  exact .cons (by decide) (hcomma (hstring _) (hcomma hnumber (hcomma (hstring _)
    (hcomma (hstring _) (hcomma hflag (hcomma (hstring _) (hcomma (hstring _)
      ((hstring _).append (.cons (by decide) Audit.worded_nil)))))))))

theorem toList_material (q : Question) : q.material.toList = q.text.flatMap Audit.asciiChar := by
  have hascii : ∀ l : List Char, (∀ c ∈ l, c.toNat < 127) → l.flatMap Audit.asciiChar = l :=
    fun _ => Audit.flatMap_ascii_of_lt
  have hnumber : (toString q.epoch).toList.flatMap Audit.asciiChar = (toString q.epoch).toList :=
    hascii _ fun c hc => by
      have hdigit := digits_of_mem_toString c hc
      simp only [Char.isDigit, Bool.and_eq_true, decide_eq_true_eq] at hdigit
      exact lt_of_le_of_lt hdigit.2 (by decide)
  have hflag : (if q.requiresAal2 then "true" else "false").toList.flatMap Audit.asciiChar =
      (if q.requiresAal2 then "true" else "false").toList := by
    cases q.requiresAal2 with
    | true => exact hascii ['t', 'r', 'u', 'e'] (by simp)
    | false => exact hascii ['f', 'a', 'l', 's', 'e'] (by simp)
  have hsign : ∀ c : Char, c.toNat < 127 → Audit.asciiChar c = [c] := fun _ => Audit.asciiChar_of_lt
  simp only [Question.material, Question.text, Audit.join, String.toList_append,
    toList_asciiString, List.flatMap_append, List.flatMap_cons, hnumber, hflag,
    hsign ',' (by decide), hsign '[' (by decide), hsign ']' (by decide)]
  simp

/-- **No two questions have one material.** -/
theorem material_injective : Function.Injective Question.material := by
  intro q q' h
  refine text_injective ((worded_text q).ascii_inj (worded_text q') ?_)
  rw [← toList_material, ← toList_material, h]

/-! ## The key -/

namespace Decider

variable (d : Decider) {q q' : Question}

/-- The digests of two materials do not collide. -/
def Apart (q q' : Question) : Prop :=
  d.digest q.material = d.digest q'.material → q.material = q'.material

instance (q q' : Question) : Decidable (d.Apart q q') := inferInstanceAs (Decidable (_ → _))

theorem digest_of_keyOf (h : d.keyOf q = d.keyOf q') :
    d.digest q.material = d.digest q'.material := by
  have hchars := congrArg String.toList h
  simp only [keyOf, String.toList_append] at hchars
  have hlength : (d.digest q.material).toList.length = (d.digest q'.material).toList.length := by
    rw [String.length_toList, String.length_toList, d.digest_length, d.digest_length]
  exact String.toList_inj.mp (List.append_inj_right' hchars hlength)

/-- **A key tells the question**, if the digests do not collide. -/
theorem question_of_keyOf (h : d.keyOf q = d.keyOf q') (hapart : d.Apart q q') : q = q' :=
  material_injective (hapart (d.digest_of_keyOf h))

end Decider

end Authz
end CampusID
