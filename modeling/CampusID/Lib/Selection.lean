import Mathlib.Data.List.Basic

/-!
# Working through the selected places of a list

A loop that takes the places of a list a test selects, and changes or deletes what is there,
place by place.  Changing goes through the places in any order, deleting from the last to the
first, so that no place moves before its turn.

Either way the list ends as one pass over it would leave it: `map` where it is changed
(`foldl_modify_indices`), `filter` where it is deleted (`foldl_eraseIdx_indices`).
-/

namespace CampusID
namespace Lib

variable {α : Type*} (p : α → Bool)

/-- The places the test selects, in order. -/
def indices (xs : List α) : List Nat := (xs.zipIdx.filter fun e => p e.1).map Prod.snd

@[simp] theorem indices_nil : indices p [] = [] := rfl

theorem indices_cons (x : α) (xs : List α) :
    indices p (x :: xs) = (if p x then [0] else []) ++ (indices p xs).map (· + 1) := by
  have hshift : (xs.zipIdx 1).filter (fun e => p e.1) =
      (xs.zipIdx.filter fun e => p e.1).map fun e => (e.1, e.2 + 1) := by
    rw [List.zipIdx_succ, List.filter_map]
    rfl
  simp only [indices, List.zipIdx_cons, List.filter_cons, Nat.zero_add, hshift]
  split_ifs <;> simp [Function.comp_def]

/-- Nothing is selected where the test fails everywhere. -/
theorem indices_eq_nil {xs : List α} : indices p xs = [] ↔ ∀ x ∈ xs, p x = false := by
  induction xs with
  | nil => simp
  | cons x xs ih =>
    rw [indices_cons, List.append_eq_nil_iff, List.map_eq_nil_iff, ih, List.forall_mem_cons]
    simp

theorem mem_indices {xs : List α} {i : Nat} :
    i ∈ indices p xs ↔ ∃ x, xs[i]? = some x ∧ p x = true := by
  unfold indices
  constructor
  · intro h
    obtain ⟨⟨x, j⟩, hmem, rfl⟩ := List.mem_map.mp h
    obtain ⟨hzip, hx⟩ := List.mem_filter.mp hmem
    exact ⟨x, List.mem_zipIdx_iff_getElem?.mp hzip, hx⟩
  · rintro ⟨x, hget, hx⟩
    exact List.mem_map.mpr
      ⟨(x, i), List.mem_filter.mpr ⟨List.mem_zipIdx_iff_getElem?.mpr hget, hx⟩, rfl⟩

theorem nodup_indices (xs : List α) : (indices p xs).Nodup := by
  refine List.Nodup.sublist (List.filter_sublist.map _) ?_
  rw [List.zipIdx_map_snd]
  exact List.nodup_range'

theorem foldl_modify_succ (f : α → α) (x : α) (places : List Nat) (xs : List α) :
    (places.map (· + 1)).foldl (fun ys i => ys.modify i f) (x :: xs) =
      x :: places.foldl (fun ys i => ys.modify i f) xs := by
  induction places generalizing xs with
  | nil => rfl
  | cons i places ih => rw [List.map_cons, List.foldl_cons, List.modify_succ_cons, ih, List.foldl_cons]

theorem foldl_eraseIdx_succ (x : α) (places : List Nat) (xs : List α) :
    (places.map (· + 1)).foldl List.eraseIdx (x :: xs) = x :: places.foldl List.eraseIdx xs := by
  induction places generalizing xs with
  | nil => rfl
  | cons i places ih => rw [List.map_cons, List.foldl_cons, List.eraseIdx_cons_succ, ih, List.foldl_cons]

theorem modify_congr {f g : α → α} {xs : List α} {i : Nat} (h : ∀ x, xs[i]? = some x → f x = g x) :
    xs.modify i f = xs.modify i g := by
  refine List.ext_getElem? fun j => ?_
  rw [List.getElem?_modify, List.getElem?_modify]
  by_cases hj : i = j
  · subst hj
    cases hx : xs[i]? with
    | none => rfl
    | some x => simp [h x hx]
  · simp [hj]

/-- A place that is not gone through keeps what is there. -/
theorem getElem?_foldr_modify {f : α → α} {places : List Nat} {i : Nat} (h : i ∉ places)
    (xs : List α) : (places.foldr (fun j ys => ys.modify j f) xs)[i]? = xs[i]? := by
  induction places with
  | nil => rfl
  | cons j places ih =>
    obtain ⟨hne, hnot⟩ := not_or.mp (mt List.mem_cons.mpr h)
    rw [List.foldr_cons, List.getElem?_modify_ne _ _ (Ne.symm hne), ih hnot]

/-- **Changing the selected places** is one pass over the list. -/
theorem foldl_modify_indices (f : α → α) (xs : List α) :
    (indices p xs).foldl (fun ys i => ys.modify i f) xs = xs.map fun x => if p x then f x else x := by
  induction xs with
  | nil => rfl
  | cons x xs ih =>
    rw [indices_cons, List.foldl_append, List.map_cons]
    by_cases hx : p x = true
    · rw [if_pos hx, if_pos hx, List.foldl_cons, List.foldl_nil, List.modify_zero_cons,
        foldl_modify_succ, ih]
    · rw [if_neg hx, if_neg hx, List.foldl_nil, foldl_modify_succ, ih]

/-- **Changing them from the last to the first** is the same pass. -/
theorem foldl_modify_reverse_indices (f : α → α) (xs : List α) :
    (indices p xs).reverse.foldl (fun ys i => ys.modify i f) xs =
      xs.map fun x => if p x then f x else x := by
  induction xs with
  | nil => rfl
  | cons x xs ih =>
    rw [indices_cons, List.reverse_append, List.foldl_append, ← List.map_reverse, foldl_modify_succ,
      ih, List.map_cons]
    by_cases hx : p x = true
    · rw [if_pos hx, if_pos hx, List.reverse_singleton, List.foldl_cons, List.foldl_nil,
        List.modify_zero_cons]
    · rw [if_neg hx, if_neg hx, List.reverse_nil, List.foldl_nil]

/-- **Deleting the selected places from the last to the first** leaves the others. -/
theorem foldl_eraseIdx_indices (xs : List α) :
    (indices p xs).reverse.foldl List.eraseIdx xs = xs.filter fun x => !p x := by
  induction xs with
  | nil => rfl
  | cons x xs ih =>
    rw [indices_cons, List.reverse_append, List.foldl_append, ← List.map_reverse,
      foldl_eraseIdx_succ, ih]
    by_cases hx : p x = true
    · rw [if_pos hx, List.reverse_singleton, List.foldl_cons, List.foldl_nil,
        List.eraseIdx_cons_zero, List.filter_cons_of_neg (by simp [hx])]
    · rw [if_neg hx, List.reverse_nil, List.foldl_nil, List.filter_cons_of_pos (by simpa using hx)]

end Lib
end CampusID
