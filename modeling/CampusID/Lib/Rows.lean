import Mathlib.Data.List.Basic
import Mathlib.Data.List.Sort

/-!
# Rows under a unique key

A table is a list of rows, and a unique index is a function from rows to keys.
`insertNew` is an insert that ignores conflicts: a row is appended unless a row with
its key is there already, and a row that is there is never touched.  `insertAll`
inserts a batch in order.

A change that leaves the keys alone is seen under each key as itself (`find?_map_of_key`), and
rows that are sorted keep the order of those the sort does not tell apart
(`filter_insertionSort`).

The one fact about inserts that matters is `mem_insertAll`: what a batch adds is exactly
the rows whose key is not taken.
-/

namespace CampusID
namespace Lib

variable {R K : Type} [DecidableEq K]

/-- Insert a row, unless its key is taken. -/
def insertNew (key : R → K) (rows : List R) (r : R) : List R :=
  if ∃ r' ∈ rows, key r' = key r then rows else rows ++ [r]

/-- Insert a batch of rows, in order. -/
def insertAll (key : R → K) (rows news : List R) : List R := news.foldl (insertNew key) rows

theorem mem_insertNew {key : R → K} {rows : List R} {r x : R} :
    x ∈ insertNew key rows r ↔ x ∈ rows ∨ (x = r ∧ ∀ r' ∈ rows, key r' ≠ key r) := by
  unfold insertNew
  split_ifs with h
  · constructor
    · exact Or.inl
    · rintro (hx | ⟨-, hnone⟩)
      · exact hx
      · obtain ⟨r', hr', heq⟩ := h
        exact absurd heq (hnone r' hr')
  · have hnone : ∀ r' ∈ rows, key r' ≠ key r := fun r' hr' heq => h ⟨r', hr', heq⟩
    rw [List.mem_append, List.mem_singleton]
    exact or_congr_right ⟨fun hx => ⟨hx, hnone⟩, And.left⟩

/-- **What a batch adds**: the rows whose key was free.  Rows of the batch that share
a key are assumed equal, so that it does not matter which of them comes first. -/
theorem mem_insertAll {key : R → K} {rows news : List R}
    (same : ∀ r ∈ news, ∀ r' ∈ news, key r = key r' → r = r') {x : R} :
    x ∈ insertAll key rows news ↔ x ∈ rows ∨ (x ∈ news ∧ ∀ r ∈ rows, key r ≠ key x) := by
  unfold insertAll
  induction news generalizing rows with
  | nil => simp
  | cons n news ih =>
    have same' : ∀ r ∈ news, ∀ r' ∈ news, key r = key r' → r = r' := fun r hr r' hr' =>
      same r (List.mem_cons_of_mem n hr) r' (List.mem_cons_of_mem n hr')
    rw [List.foldl_cons, ih same', mem_insertNew]
    constructor
    · rintro ((hx | ⟨rfl, hfree⟩) | ⟨hx, hfree⟩)
      · exact Or.inl hx
      · exact Or.inr ⟨List.mem_cons_self, hfree⟩
      · refine Or.inr ⟨List.mem_cons_of_mem n hx, fun r hr => hfree r ?_⟩
        exact mem_insertNew.mpr (Or.inl hr)
    · rintro (hx | ⟨hx, hfree⟩)
      · exact Or.inl (Or.inl hx)
      · rcases List.mem_cons.mp hx with rfl | hx'
        · exact Or.inl (Or.inr ⟨rfl, hfree⟩)
        · by_cases hkey : key n = key x
          · -- the key came earlier in the batch, with the same row
            obtain rfl : n = x := same n List.mem_cons_self x hx hkey
            exact Or.inl (Or.inr ⟨rfl, hfree⟩)
          · refine Or.inr ⟨hx', fun r hr => ?_⟩
            rcases mem_insertNew.mp hr with hr | ⟨rfl, -⟩
            · exact hfree r hr
            · exact hkey

/-! ## Changing rows under their key -/

section Change

variable (key : R → K) {f : R → R}

/-- Rows that keep their key are found under it, changed. -/
theorem find?_map_of_key (hf : ∀ r, key (f r) = key r) (rows : List R) (k : K) :
    (rows.map f).find? (key · = k) = (rows.find? (key · = k)).map f := by
  rw [List.find?_map]
  congr 2
  funext r
  rw [Function.comp_apply, hf]

theorem filter_map_of_key (hf : ∀ r, key (f r) = key r) (rows : List R) (k : K) :
    (rows.map f).filter (key · = k) = (rows.filter (key · = k)).map f := by
  rw [List.filter_map]
  congr 2
  funext r
  rw [Function.comp_apply, hf]

end Change

/-- **Sorting is stable**: rows that may all stand before one another keep their order. -/
theorem filter_insertionSort (r : R → R → Prop) [DecidableRel r] {p : R → Bool} {rows : List R}
    (h : ∀ a ∈ rows, p a = true → ∀ b ∈ rows, p b = true → r a b) :
    (rows.insertionSort r).filter p = rows.filter p := by
  have hsorted : (rows.filter p).Pairwise r := by
    refine List.pairwise_of_forall_mem_list fun a ha b hb => ?_
    obtain ⟨hamem, ha⟩ := List.mem_filter.mp ha
    obtain ⟨hbmem, hb⟩ := List.mem_filter.mp hb
    exact h a hamem ha b hbmem hb
  have hsublist : (rows.filter p).Sublist ((rows.insertionSort r).filter p) := by
    have hfiltered := (List.sublist_insertionSort hsorted List.filter_sublist).filter p
    rwa [List.filter_filter, List.filter_congr fun _ _ => Bool.and_self _] at hfiltered
  refine (hsublist.eq_of_length ?_).symm
  exact ((List.perm_insertionSort r rows).filter p).length_eq.symm

end Lib
end CampusID
