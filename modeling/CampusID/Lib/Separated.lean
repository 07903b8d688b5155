import Mathlib.Data.List.Basic

/-!
# Words with a separator between them

What a text that is joined of words has in it, and the words a text is split into.
-/

namespace CampusID
namespace Lib

variable {α β : Type*} {sep a : α} {words words' : List (List α)} {text : List α}

theorem mem_intercalate (h : a ∈ [sep].intercalate words) : a = sep ∨ ∃ word ∈ words, a ∈ word := by
  induction words with
  | nil => cases h
  | cons word words ih =>
    cases words with
    | nil => exact .inr ⟨word, List.mem_singleton_self _, by simpa using h⟩
    | cons next words =>
      rw [List.intercalate_cons_cons, List.mem_append, List.mem_append, List.mem_singleton] at h
      rcases h with (hword | hsep) | hlater
      · exact .inr ⟨word, List.mem_cons_self, hword⟩
      · exact .inl hsep
      · rcases ih hlater with hsep | ⟨other, hmem, ha⟩
        · exact .inl hsep
        · exact .inr ⟨other, List.mem_cons_of_mem _ hmem, ha⟩

theorem intercalate_append (h : words ≠ []) (h' : words' ≠ []) :
    [sep].intercalate (words ++ words') =
      [sep].intercalate words ++ sep :: [sep].intercalate words' := by
  induction words with
  | nil => exact absurd rfl h
  | cons word words ih =>
    cases words with
    | nil =>
      obtain ⟨word', words', rfl⟩ := List.exists_cons_of_ne_nil h'
      simp [List.intercalate_cons_cons]
    | cons next words =>
      have hrest := ih (List.cons_ne_nil _ _)
      rw [List.cons_append, List.cons_append, List.intercalate_cons_cons, ← List.cons_append, hrest,
        List.intercalate_cons_cons]
      simp only [List.append_assoc]

/-- What is read as nothing may stand between the words. -/
theorem flatMap_intercalate {f : α → List β} (hsep : f sep = []) : ∀ words : List (List α),
    ([sep].intercalate words).flatMap f = words.flatten.flatMap f
  | [] => rfl
  | [word] => by simp
  | word :: word' :: words => by
    have ih := flatMap_intercalate hsep (word' :: words)
    rw [List.intercalate_cons_cons, List.flatMap_append, List.flatMap_append, ih,
      List.flatMap_singleton, hsep, List.append_nil, ← List.flatMap_append, ← List.flatten_cons]

section Splitting

variable [DecidableEq α]

/-- A character of a text is the separator or stands in a word. -/
theorem mem_splitOn (h : a ∈ text) : a = sep ∨ ∃ word ∈ text.splitOn sep, a ∈ word := by
  rw [← @List.intercalate_splitOn _ text _ _ sep] at h
  exact mem_intercalate h

theorem notMem_of_mem_splitOn {word : List α} (h : word ∈ text.splitOn sep) : sep ∉ word := by
  induction text generalizing word with
  | nil =>
    obtain rfl := List.mem_singleton.mp h
    exact List.not_mem_nil
  | cons c text ih =>
    rw [List.splitOn_cons_eq_if_modifyHead] at h
    split_ifs at h with hc
    · rcases List.mem_cons.mp h with rfl | h
      · exact List.not_mem_nil
      · exact ih h
    · obtain ⟨first, rest, hfirst⟩ := List.exists_cons_of_ne_nil (List.splitOn_ne_nil sep text)
      rw [hfirst, List.modifyHead_cons] at h
      rcases List.mem_cons.mp h with rfl | h
      · rw [List.mem_cons, not_or]
        refine ⟨fun heq => hc (by rw [heq, beq_self_eq_true]), ih ?_⟩
        rw [hfirst]
        exact List.mem_cons_self
      · refine ih ?_
        rw [hfirst]
        exact List.mem_cons_of_mem _ h

end Splitting

end Lib
end CampusID
