import Mathlib.Logic.Relation

/-!
# Distance from a set

How many steps of a relation lead from a set to an element.  `Nearer R S n` is what a search that
goes level by level has seen before level `n`, and `Layer R S n` is the level itself: what is
reached in `n` steps and not in fewer.  A level is made of the steps out of the level before it
(`layer_succ`), so that a search need not look at anything older; and where a level is empty, what
is seen is everything that can be reached (`nearer_iff_reached`).
-/

namespace CampusID
namespace Lib

variable {α : Type*} {R : α → α → Prop} {S : α → Prop} {a b c : α} {n : Nat}

/-- `n` steps of the relation lead from one element to the other. -/
inductive StepsTo (R : α → α → Prop) : Nat → α → α → Prop
  | refl (a : α) : StepsTo R 0 a a
  | tail {n : Nat} {a b c : α} (h : StepsTo R n a b) (hstep : R b c) : StepsTo R (n + 1) a c

/-- At distance `n` at most from the set. -/
def WithinSteps (R : α → α → Prop) (S : α → Prop) (n : Nat) (b : α) : Prop :=
  ∃ a, S a ∧ ∃ k ≤ n, StepsTo R k a b

/-- At a distance less than `n` from the set. -/
def Nearer (R : α → α → Prop) (S : α → Prop) (n : Nat) (b : α) : Prop :=
  ∃ a, S a ∧ ∃ k < n, StepsTo R k a b

/-- At distance `n`, and no nearer. -/
def Layer (R : α → α → Prop) (S : α → Prop) (n : Nat) (b : α) : Prop :=
  Nearer R S (n + 1) b ∧ ¬ Nearer R S n b

theorem within_iff : WithinSteps R S n b ↔ Nearer R S (n + 1) b := by
  simp only [WithinSteps, Nearer, Nat.lt_succ_iff]

theorem not_nearer_zero : ¬ Nearer R S 0 b := by
  rintro ⟨a, -, k, hk, -⟩
  exact absurd hk (Nat.not_lt_zero k)

theorem Nearer.succ (h : Nearer R S n b) : Nearer R S (n + 1) b := by
  obtain ⟨a, ha, k, hk, hsteps⟩ := h
  exact ⟨a, ha, k, Nat.lt_succ_of_lt hk, hsteps⟩

/-- **One level more**: the set itself, and what is a step away. -/
theorem nearer_succ : Nearer R S (n + 1) c ↔ S c ∨ ∃ b, Nearer R S n b ∧ R b c := by
  constructor
  · rintro ⟨a, ha, k, hk, hsteps⟩
    cases hsteps with
    | refl => exact .inl ha
    | tail hsteps hstep => exact .inr ⟨_, ⟨a, ha, _, Nat.lt_of_succ_lt_succ hk, hsteps⟩, hstep⟩
  · rintro (hc | ⟨b, ⟨a, ha, k, hk, hsteps⟩, hstep⟩)
    · exact ⟨c, hc, 0, Nat.succ_pos n, .refl c⟩
    · exact ⟨a, ha, k + 1, Nat.succ_lt_succ hk, hsteps.tail hstep⟩

theorem layer_zero : Layer R S 0 b ↔ S b := by
  rw [Layer, nearer_succ]
  constructor
  · rintro ⟨hb | ⟨a, ha, -⟩, -⟩
    · exact hb
    · exact absurd ha not_nearer_zero
  · exact fun hb => ⟨.inl hb, not_nearer_zero⟩

/-- **The next level** is what is a step away from this one and has not been seen. -/
theorem layer_succ : Layer R S (n + 1) c ↔ (∃ b, Layer R S n b ∧ R b c) ∧ ¬ Nearer R S (n + 1) c := by
  constructor
  · rintro ⟨hc, hnot⟩
    refine ⟨?_, hnot⟩
    rcases nearer_succ.mp hc with hstart | ⟨b, hb, hstep⟩
    · exact absurd (nearer_succ.mpr (.inl hstart)) hnot
    · -- a step from an older level would not lead to a new one
      exact ⟨b, ⟨hb, fun hold => hnot (nearer_succ.mpr (.inr ⟨b, hold, hstep⟩))⟩, hstep⟩
  · rintro ⟨⟨b, hb, hstep⟩, hnot⟩
    exact ⟨nearer_succ.mpr (.inr ⟨b, hb.1, hstep⟩), hnot⟩

theorem nearer_succ_iff : Nearer R S (n + 1) b ↔ Nearer R S n b ∨ Layer R S n b := by
  constructor
  · intro hb
    by_cases hold : Nearer R S n b
    · exact .inl hold
    · exact .inr ⟨hb, hold⟩
  · rintro (hold | hb)
    · exact hold.succ
    · exact hb.1

theorem StepsTo.reflTransGen (h : StepsTo R n a b) : Relation.ReflTransGen R a b := by
  induction h with
  | refl => exact .refl
  | tail _ hstep ih => exact ih.tail hstep

/-- **Behind an empty level there is nothing.** -/
theorem nearer_iff_reached (hempty : ∀ b, ¬ Layer R S n b) :
    Nearer R S n b ↔ ∃ a, S a ∧ Relation.ReflTransGen R a b := by
  have hclosed : ∀ b, Nearer R S (n + 1) b → Nearer R S n b := fun b hb =>
    (nearer_succ_iff.mp hb).resolve_right (hempty b)
  constructor
  · rintro ⟨a, ha, k, -, hsteps⟩
    exact ⟨a, ha, hsteps.reflTransGen⟩
  · rintro ⟨a, ha, hreached⟩
    induction hreached with
    | refl => exact hclosed _ (nearer_succ.mpr (.inl ha))
    | tail _ hstep ih => exact hclosed _ (nearer_succ.mpr (.inr ⟨_, ih, hstep⟩))

end Lib
end CampusID
