import Mathlib.Data.List.Basic

/-!
# Events that wait for an answer

In a list of events, oldest first, some open a matter and some close it.  A matter is
open as long as no closing event followed the last opening one.

What happens to an open matter when the list grows is `unanswered_append`: it stays
open unless the new events close it, and the new events may open it themselves.
-/

namespace CampusID
namespace Lib

variable {A : Type}

/-- Some event of `P` is followed by no event of `Q`. -/
def Unanswered (P Q : A → Prop) (trace : List A) : Prop :=
  ∃ xs e ys, trace = xs ++ e :: ys ∧ P e ∧ ∀ c ∈ ys, ¬ Q c

variable {P Q : A → Prop}

theorem not_unanswered_nil : ¬ Unanswered P Q [] := by
  rintro ⟨xs, e, ys, h, -⟩
  simp at h

/-- **An open matter in a longer trace.** -/
theorem unanswered_append {old new : List A} :
    Unanswered P Q (old ++ new) ↔
      (Unanswered P Q old ∧ ∀ c ∈ new, ¬ Q c) ∨ Unanswered P Q new := by
  constructor
  · rintro ⟨xs, e, ys, h, hP, hQ⟩
    rcases List.append_eq_append_iff.mp h with ⟨zs, rfl, hnew⟩ | ⟨zs, hold, hnew⟩
    · exact Or.inr ⟨zs, e, ys, hnew, hP, hQ⟩
    · -- the event lies in the old part, unless the cut falls right before it
      cases zs with
      | nil => exact Or.inr ⟨[], e, ys, by simpa using hnew.symm, hP, hQ⟩
      | cons z zs =>
        obtain ⟨rfl, rfl⟩ := List.cons.inj hnew
        refine Or.inl ⟨⟨xs, e, zs, hold, hP, fun c hc => ?_⟩, fun c hc => ?_⟩
        · exact hQ c (List.mem_append_left _ hc)
        · exact hQ c (List.mem_append_right _ hc)
  · rintro (⟨⟨xs, e, ys, rfl, hP, hQ⟩, hnew⟩ | ⟨xs, e, ys, rfl, hP, hQ⟩)
    · refine ⟨xs, e, ys ++ new, by simp, hP, fun c hc => ?_⟩
      rcases List.mem_append.mp hc with hc | hc
      · exact hQ c hc
      · exact hnew c hc
    · exact ⟨old ++ xs, e, ys, by simp, hP, hQ⟩

theorem not_unanswered_of_forall {trace : List A} (h : ∀ e ∈ trace, ¬ P e) :
    ¬ Unanswered P Q trace := by
  rintro ⟨xs, e, ys, rfl, hP, -⟩
  exact h e (by simp) hP

end Lib
end CampusID
