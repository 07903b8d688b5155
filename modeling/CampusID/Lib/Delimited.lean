import Mathlib.Data.List.Basic
import Mathlib.Data.List.Forall2
import Mathlib.Logic.Function.Basic

/-!
# Texts that say where they end

What can be read off the front of a text, whatever follows it.  A token is a run of symbols that
are `inside`, and it ends at the first that is not (`token`).  `Tells` is the same of a value and
its text: going on at a stop, it is the text of related values only.  Values that tell are told
apart in a separated and closed sequence too, however many there are (`tells_items`).
-/

namespace CampusID
namespace Lib
namespace Delimited

variable {α β : Type*}

/-- No token goes on here: nothing follows, or something that is not inside one. -/
def Stops (inside : α → Bool) (rest : List α) : Prop := ∀ c ∈ rest.head?, inside c = false

theorem stops_nil (inside : α → Bool) : Stops inside [] := by simp [Stops]

theorem stops_cons {inside : α → Bool} {c : α} (hc : inside c = false) (rest : List α) :
    Stops inside (c :: rest) := by
  rintro _ ⟨⟩
  exact hc

theorem takeWhile_token {inside : α → Bool} {a rest : List α} (ha : ∀ c ∈ a, inside c = true)
    (hrest : Stops inside rest) : (a ++ rest).takeWhile inside = a := by
  rw [List.takeWhile_append_of_pos ha]
  cases rest with
  | nil => simp
  | cons c rest => simp [hrest c rfl]

theorem dropWhile_token {inside : α → Bool} {a rest : List α} (ha : ∀ c ∈ a, inside c = true)
    (hrest : Stops inside rest) : (a ++ rest).dropWhile inside = rest := by
  rw [List.dropWhile_append_of_pos ha]
  cases rest with
  | nil => simp
  | cons c rest => simp [hrest c rfl]

/-- **A token ends at the first stop.** -/
theorem token {inside : α → Bool} {a b rest rest' : List α} (ha : ∀ c ∈ a, inside c = true)
    (hb : ∀ c ∈ b, inside c = true) (hrest : Stops inside rest) (hrest' : Stops inside rest')
    (h : a ++ rest = b ++ rest') : a = b ∧ rest = rest' := by
  have hab : a = b := by
    rw [← takeWhile_token ha hrest, h, takeWhile_token hb hrest']
  refine ⟨hab, ?_⟩
  rw [hab] at h
  exact List.append_cancel_left h

/-! ## Values -/

/-- Going on at a stop, the text of `a` is that of `b` only if they are related, and what follows
is the same. -/
def Tells (inside : α → Bool) (text : β → List α) (R : β → β → Prop) (a b : β) : Prop :=
  ∀ ⦃rest rest' : List α⦄, Stops inside rest → Stops inside rest' →
    text a ++ rest = text b ++ rest' → R a b ∧ rest = rest'

section Sequences

variable (sep close : α) (text : β → List α)

/-- What is left of a sequence after an item. -/
def itemsTail : List β → List α
  | [] => [close]
  | a :: as => sep :: text a ++ itemsTail as

/-- The items of a sequence, separated and closed. -/
def items : List β → List α
  | [] => [close]
  | a :: as => text a ++ itemsTail sep close text as

variable {sep close text} {inside : α → Bool} {R : β → β → Prop} {as bs : List β}

theorem stops_itemsTail (hsep : inside sep = false) (hclose : inside close = false) (as : List β)
    (rest : List α) : Stops inside (itemsTail sep close text as ++ rest) := by
  cases as with
  | nil => exact stops_cons hclose rest
  | cons a as => exact stops_cons hsep _

theorem tells_itemsTail (hne : sep ≠ close) (hsep : inside sep = false)
    (hclose : inside close = false) (h : ∀ a ∈ as, ∀ b ∈ bs, Tells inside text R a b)
    {rest rest' : List α}
    (heq : itemsTail sep close text as ++ rest = itemsTail sep close text bs ++ rest') :
    List.Forall₂ R as bs ∧ rest = rest' := by
  induction as generalizing bs with
  | nil =>
    cases bs with
    | nil => exact ⟨.nil, (List.cons.inj heq).2⟩
    | cons b bs => exact absurd (List.cons.inj heq).1.symm hne
  | cons a as ih =>
    cases bs with
    | nil => exact absurd (List.cons.inj heq).1 hne
    | cons b bs =>
      simp only [itemsTail, List.cons_append, List.append_assoc, List.cons.injEq, true_and] at heq
      obtain ⟨hab, hrest⟩ := h a List.mem_cons_self b List.mem_cons_self
        (stops_itemsTail hsep hclose as rest) (stops_itemsTail hsep hclose bs rest') heq
      obtain ⟨hrests, hrest⟩ := ih (fun a ha b hb =>
        h a (List.mem_cons_of_mem _ ha) b (List.mem_cons_of_mem _ hb)) hrest
      exact ⟨.cons hab hrests, hrest⟩

/-- An item is not taken for the end of the sequence. -/
def Opens (close : α) (text : β → List α) (a : β) : Prop := ∃ c l, text a = c :: l ∧ c ≠ close

/-- **A sequence tells its items.** -/
theorem tells_items (hne : sep ≠ close) (hsep : inside sep = false)
    (hclose : inside close = false) (ha : ∀ a ∈ as, Opens close text a)
    (hb : ∀ b ∈ bs, Opens close text b) (h : ∀ a ∈ as, ∀ b ∈ bs, Tells inside text R a b)
    {rest rest' : List α}
    (heq : items sep close text as ++ rest = items sep close text bs ++ rest') :
    List.Forall₂ R as bs ∧ rest = rest' := by
  cases as with
  | nil =>
    cases bs with
    | nil => exact ⟨.nil, (List.cons.inj heq).2⟩
    | cons b bs =>
      obtain ⟨c, l, hc, hopen⟩ := hb b List.mem_cons_self
      simp only [items, hc, List.cons_append] at heq
      exact absurd (List.cons.inj heq).1.symm hopen
  | cons a as =>
    cases bs with
    | nil =>
      obtain ⟨c, l, hc, hopen⟩ := ha a List.mem_cons_self
      simp only [items, hc, List.cons_append] at heq
      exact absurd (List.cons.inj heq).1 hopen
    | cons b bs =>
      simp only [items, List.append_assoc] at heq
      obtain ⟨hab, hrest⟩ := h a List.mem_cons_self b List.mem_cons_self
        (stops_itemsTail hsep hclose as rest) (stops_itemsTail hsep hclose bs rest') heq
      obtain ⟨hrests, hrest⟩ := tells_itemsTail hne hsep hclose (fun a ha b hb =>
        h a (List.mem_cons_of_mem _ ha) b (List.mem_cons_of_mem _ hb)) hrest
      exact ⟨.cons hab hrests, hrest⟩

end Sequences

/-! ## Codes -/

/-- A code that a reader takes off the front of any text tells its symbols, up to a closing
symbol that starts no code. -/
theorem codes_inj {code : β → List α} {read : List α → Option (β × List α)}
    {close : α} (hread : ∀ b rest, read (code b ++ rest) = some (b, rest))
    (hclose : ∀ rest, read (close :: rest) = none) {as bs : List β} {rest rest' : List α}
    (h : as.flatMap code ++ close :: rest = bs.flatMap code ++ close :: rest') :
    as = bs ∧ rest = rest' := by
  induction as generalizing bs with
  | nil =>
    cases bs with
    | nil => exact ⟨rfl, (List.cons.inj h).2⟩
    | cons b bs =>
      have hfront := congrArg read h
      simp only [List.flatMap_nil, List.nil_append, List.flatMap_cons, List.append_assoc, hread,
        hclose] at hfront
      cases hfront
  | cons a as ih =>
    simp only [List.flatMap_cons, List.append_assoc] at h
    have hfront := congrArg read h
    rw [hread] at hfront
    cases bs with
    | nil =>
      rw [List.flatMap_nil, List.nil_append, hclose] at hfront
      cases hfront
    | cons b bs =>
      rw [List.flatMap_cons, List.append_assoc, hread] at hfront
      obtain ⟨rfl, hlater⟩ := Prod.mk.inj (Option.some.inj hfront)
      obtain ⟨hsame, hrest⟩ := ih hlater
      exact ⟨by rw [hsame], hrest⟩

/-- The same of a whole text, where the reader is only good for some of the symbols. -/
theorem codes_inj_of_forall {code : β → List α} {read : List α → Option (β × List α)}
    {Ok : β → Prop} (hread : ∀ b, Ok b → ∀ rest, read (code b ++ rest) = some (b, rest))
    (hnil : read [] = none) {as bs : List β} (has : ∀ a ∈ as, Ok a) (hbs : ∀ b ∈ bs, Ok b)
    (h : as.flatMap code = bs.flatMap code) : as = bs := by
  induction as generalizing bs with
  | nil =>
    cases bs with
    | nil => rfl
    | cons b bs =>
      have hfront := congrArg read h
      rw [List.flatMap_nil, List.flatMap_cons, hnil, hread b (hbs b List.mem_cons_self)] at hfront
      cases hfront
  | cons a as ih =>
    have hfront := congrArg read h
    rw [List.flatMap_cons, hread a (has a List.mem_cons_self)] at hfront
    cases bs with
    | nil =>
      rw [List.flatMap_nil, hnil] at hfront
      cases hfront
    | cons b bs =>
      rw [List.flatMap_cons, hread b (hbs b List.mem_cons_self)] at hfront
      obtain ⟨rfl, hlater⟩ := Prod.mk.inj (Option.some.inj hfront)
      rw [ih (fun x hx => has x (List.mem_cons_of_mem _ hx))
        (fun x hx => hbs x (List.mem_cons_of_mem _ hx)) hlater]

end Delimited
end Lib
end CampusID
