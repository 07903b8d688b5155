import Mathlib.Data.List.Dedup
import Mathlib.Data.List.ProdSigma
import Mathlib.Algebra.BigOperators.Group.List.Basic
import Mathlib.Algebra.Order.Group.Int
import Mathlib.Tactic.Ring

/-!
# Counting into bins

`tally` is a `GROUP BY`: every value that occurs, with how often it does.  `sum_count` is what
the counts of different bins add up to.  `steps` are the starts of the bins of a width in a
half-open range, from the start of the range on, and `floorTo` the start of the bin a value
falls in, counted from zero.

The two grids agree exactly when the range starts on a multiple of the width:
`floorTo_mem_steps_iff`.
-/

namespace CampusID
namespace Lib
namespace Histogram

/-! ## Counts -/

section Counts

variable {β : Type} [DecidableEq β] [BEq β]

/-- Every value that occurs, with how often it does. -/
def tally (xs : List β) : List (β × Nat) := xs.dedup.map fun x => (x, xs.count x)

theorem nodup_tally (xs : List β) : ((tally xs).map Prod.fst).Nodup := by
  have hkeys : (tally xs).map Prod.fst = xs.dedup := by simp [tally, Function.comp_def]
  rw [hkeys]
  exact xs.nodup_dedup

theorem mem_tally {xs : List β} {x : β} : x ∈ (tally xs).map Prod.fst ↔ x ∈ xs := by
  simp [tally]

variable [LawfulBEq β]

/-- How often a value occurs is its tally, and zero where it has none. -/
theorem lookup_tally (xs : List β) (x : β) : ((tally xs).lookup x).getD 0 = xs.count x := by
  have hmap : ∀ l : List β, ((l.map fun y => (y, xs.count y)).lookup x).getD 0 =
      if x ∈ l then xs.count x else 0 := by
    intro l
    induction l with
    | nil => rfl
    | cons y l ih =>
      rw [List.map_cons, List.lookup_cons]
      by_cases hxy : x = y
      · simp [hxy]
      · simpa [hxy, beq_false_of_ne hxy] using ih
  rw [tally, hmap]
  by_cases hx : x ∈ xs
  · simp [hx]
  · simp [hx, List.count_eq_zero_of_not_mem hx]

/-- **What the counts of different bins add up to**: how many values fall in one of them. -/
theorem sum_count {bins : List β} (hnodup : bins.Nodup) (xs : List β) :
    (bins.map xs.count).sum = (xs.filter (· ∈ bins)).length := by
  induction bins with
  | nil => simp
  | cons b bins ih =>
    obtain ⟨hb, hbins⟩ := List.nodup_cons.mp hnodup
    rw [List.map_cons, List.sum_cons, ih hbins, ← List.countP_eq_length_filter,
      ← List.countP_eq_length_filter]
    clear ih hnodup hbins
    simp only [List.mem_cons]
    induction xs with
    | nil => rfl
    | cons x xs ih =>
      rw [List.count_cons, List.countP_cons, List.countP_cons, ← ih]
      by_cases hxb : x = b
      · subst hxb
        simp only [hb, beq_self_eq_true, true_or, decide_true, decide_false, if_true]
        simp only [Bool.false_eq_true, if_false]
        omega
      · simp only [hxb, beq_false_of_ne hxb, false_or, Bool.false_eq_true, if_false]
        omega

end Counts

/-! ## Grids -/

/-- The starts of the bins of this width up to a limit, from a start on. -/
def steps (limit width start : Int) : List Int :=
  if 0 < width ∧ start < limit then start :: steps limit width (start + width) else []
termination_by (limit - start).toNat
decreasing_by omega

variable {limit width start t : Int}

theorem mem_steps (hwidth : 0 < width) :
    t ∈ steps limit width start ↔ t < limit ∧ ∃ n : ℕ, t = start + n * width := by
  fun_induction steps limit width start with
  | case1 start h ih =>
    rw [List.mem_cons, ih]
    constructor
    · rintro (rfl | ⟨hlt, n, rfl⟩)
      · exact ⟨h.2, 0, by simp⟩
      · exact ⟨hlt, n + 1, by push_cast; ring⟩
    · rintro ⟨hlt, n, rfl⟩
      cases n with
      | zero => exact .inl (by simp)
      | succ n => exact .inr ⟨hlt, n, by push_cast; ring⟩
  | case2 start h =>
    refine ⟨fun hmem => absurd hmem List.not_mem_nil, ?_⟩
    rintro ⟨hlt, n, rfl⟩
    have hn : (0 : Int) ≤ n * width := Int.mul_nonneg (Int.natCast_nonneg n) hwidth.le
    exact absurd ⟨hwidth, by omega⟩ h

theorem nodup_steps (hwidth : 0 < width) : (steps limit width start).Nodup := by
  fun_induction steps limit width start with
  | case1 start h ih =>
    refine List.nodup_cons.mpr ⟨fun hmem => ?_, ih⟩
    obtain ⟨-, n, hn⟩ := (mem_steps hwidth).mp hmem
    have hpos : (0 : Int) ≤ n * width := Int.mul_nonneg (Int.natCast_nonneg n) hwidth.le
    omega
  | case2 start h => exact List.nodup_nil

/-- The start of the bin a value falls in. -/
def floorTo (width t : Int) : Int := t / width * width

theorem floorTo_le (hwidth : 0 < width) : floorTo width t ≤ t := by
  have := Int.emod_nonneg t hwidth.ne'
  have := Int.mul_ediv_add_emod t width
  unfold floorTo
  rw [Int.mul_comm]
  omega

/-- A value is in the bin that starts at the last multiple before it. -/
theorem le_floorTo (hwidth : 0 < width) (hdvd : width ∣ start) (h : start ≤ t) :
    start ≤ floorTo width t := by
  obtain ⟨n, rfl⟩ := hdvd
  unfold floorTo
  rw [Int.mul_comm width n]
  refine Int.mul_le_mul_of_nonneg_right ?_ hwidth.le
  exact (Int.le_ediv_iff_mul_le hwidth).mpr (by rwa [Int.mul_comm])

/-- **When the bin a value falls in is one of a range's**: when the range starts on a multiple
of the width. -/
theorem floorTo_mem_steps_iff (hwidth : 0 < width) (hlimit : t < limit) :
    floorTo width t ∈ steps limit width start ↔ start ≤ floorTo width t ∧ width ∣ start := by
  rw [mem_steps hwidth]
  constructor
  · rintro ⟨-, n, hn⟩
    have hpos : (0 : Int) ≤ n * width := Int.mul_nonneg (Int.natCast_nonneg n) hwidth.le
    refine ⟨by omega, ?_⟩
    have hstart : start = floorTo width t - n * width := by omega
    rw [hstart]
    exact Int.dvd_sub (Int.dvd_mul_left _ _) (Int.dvd_mul_left _ _)
  · rintro ⟨hle, m, rfl⟩
    refine ⟨(floorTo_le hwidth).trans_lt hlimit, (t / width - m).toNat, ?_⟩
    have hm : 0 ≤ t / width - m := by
      unfold floorTo at hle
      rw [Int.mul_comm width m] at hle
      have := Int.le_of_mul_le_mul_right hle hwidth
      omega
    rw [Int.toNat_of_nonneg hm, floorTo]
    ring

end Histogram
end Lib
end CampusID
