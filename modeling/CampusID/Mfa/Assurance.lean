import Mathlib.Data.Finset.Card
import Mathlib.Data.List.Sort
import CampusID.Cache

/-!
# What `amr` and `acr` may say

`elevated` adds the category of a factor that was just presented to the methods a session has
recorded, and calls the session AAL2 when these are two categories and the session's
`auth_time` is no longer than `MAX_SPAN` ago.  `satisfies_aal2` asks the methods themselves.

`elevated_acr` and `mem_elevated` say what `elevated` computes, and nothing after this module
unfolds it.
-/

namespace CampusID
namespace Mfa

/-! ## Methods -/

/-- `AAL1`. -/
def aal1 : String := "urn:campusid:aal1"

/-- `AAL2`. -/
def aal2 : String := "urn:campusid:aal2"

/-- `PWD`. -/
def pwd : String := "pwd"

/-- `OTP`. -/
def otp : String := "otp"

/-- `HWK`. -/
def hwk : String := "hwk"

/-- `PUSH`. -/
def push : String := "push"

/-- `RECOVERY`. -/
def recovery : String := "recovery"

/-- `MFA`. -/
def mfa : String := "mfa"

/-- `FACTOR_CATEGORIES`. -/
def factorCategories : List String := [pwd, otp, hwk, push, recovery]

/-- `MAX_SPAN`: twelve hours. -/
def maxSpan : Int := 12 * 3600 * second

/-- `Assurance`. -/
structure Assurance where
  acr : String
  amr : List String
  authTime : Int
  deriving DecidableEq, Repr

/-- `sorted` of a set. -/
def sortedSet (methods : List String) : List String := methods.dedup.insertionSort (· ≤ ·)

/-- `_normalise`. -/
def normalise (methods : List String) : List String :=
  sortedSet (methods.filter fun method => method ≠ "" ∧ method ≠ mfa)

/-- `primary`. -/
def primary (methods : List String) (atTime : Int) : Assurance :=
  ⟨aal1, normalise methods, atTime⟩

/-- `elevated`. -/
def elevated (methods : List String) (category : String) (since now : Int)
    (span : Int := maxSpan) : Assurance :=
  let combined := normalise (methods ++ [category])
  let categories := combined.filter (· ∈ factorCategories)
  if categories.length < 2 ∨ span < now - since then ⟨aal1, combined, now⟩
  else ⟨aal2, sortedSet (combined ++ [mfa]), now⟩

/-- `satisfies_aal2`. -/
def satisfiesAal2 (amr : List String) : Bool :=
  2 ≤ (amr.filter (· ∈ factorCategories)).dedup.length

/-! ### What they compute -/

@[simp] theorem mem_sortedSet {m : String} {methods : List String} :
    m ∈ sortedSet methods ↔ m ∈ methods := by
  rw [sortedSet, List.mem_insertionSort, List.mem_dedup]

theorem nodup_sortedSet (methods : List String) : (sortedSet methods).Nodup :=
  (List.perm_insertionSort _ _).nodup_iff.mpr methods.nodup_dedup

theorem mem_normalise {m : String} {methods : List String} :
    m ∈ normalise methods ↔ m ∈ methods ∧ m ≠ "" ∧ m ≠ mfa := by
  simp [normalise]

theorem ne_of_category {c : String} (h : c ∈ factorCategories) : c ≠ "" ∧ c ≠ mfa := by
  simp only [factorCategories, List.mem_cons, List.not_mem_nil, or_false] at h
  rcases h with rfl | rfl | rfl | rfl | rfl <;> decide

theorem two_le_length_dedup {l : List String} :
    2 ≤ l.dedup.length ↔ ∃ a ∈ l, ∃ b ∈ l, a ≠ b := by
  rw [← List.card_toFinset, Nat.succ_le_iff, Finset.one_lt_card]
  simp

theorem satisfiesAal2_iff {amr : List String} : satisfiesAal2 amr = true ↔
    ∃ a ∈ amr, ∃ b ∈ amr, a ∈ factorCategories ∧ b ∈ factorCategories ∧ a ≠ b := by
  rw [satisfiesAal2, decide_eq_true_eq, two_le_length_dedup]
  simp only [List.mem_filter, decide_eq_true_eq]
  constructor
  · rintro ⟨a, ⟨ha, hca⟩, b, ⟨hb, hcb⟩, hne⟩
    exact ⟨a, ha, b, hb, hca, hcb, hne⟩
  · rintro ⟨a, ha, b, hb, hca, hcb, hne⟩
    exact ⟨a, ⟨ha, hca⟩, b, ⟨hb, hcb⟩, hne⟩

section Elevated

variable {methods : List String} {category : String} {since now span : Int}

/-- **The categories of an elevation** are those there were and the one just presented. -/
theorem mem_elevated {c : String} (hc : c ∈ factorCategories) :
    c ∈ (elevated methods category since now span).amr ↔ c ∈ methods ∨ c = category := by
  obtain ⟨hne, hmfa⟩ := ne_of_category hc
  unfold elevated
  dsimp only
  split_ifs
  · simp [mem_normalise, hne, hmfa]
  · simp [mem_normalise, hne, hmfa]

/-- **When an elevation is called AAL2**: the session's instant is within the span, and some
other category was there. -/
theorem elevated_acr (hcategory : category ∈ factorCategories) :
    (elevated methods category since now span).acr = aal2 ↔
      now - since ≤ span ∧ ∃ other ∈ methods, other ∈ factorCategories ∧ other ≠ category := by
  have hnodup : ((normalise (methods ++ [category])).filter (· ∈ factorCategories)).Nodup :=
    (nodup_sortedSet _).filter _
  have htwo : 2 ≤ ((normalise (methods ++ [category])).filter (· ∈ factorCategories)).length ↔
      ∃ other ∈ methods, other ∈ factorCategories ∧ other ≠ category := by
    rw [← hnodup.dedup, two_le_length_dedup]
    simp only [List.mem_filter, mem_normalise, List.mem_append, List.mem_singleton,
      decide_eq_true_eq]
    constructor
    · rintro ⟨a, ⟨⟨ha, -⟩, hca⟩, b, ⟨⟨hb, -⟩, hcb⟩, hne⟩
      by_cases hac : a = category
      · subst hac
        exact ⟨b, hb.resolve_right hne.symm, hcb, hne.symm⟩
      · exact ⟨a, ha.resolve_right hac, hca, hac⟩
    · rintro ⟨other, hother, hc, hne⟩
      exact ⟨other, ⟨⟨.inl hother, ne_of_category hc⟩, hc⟩, category,
        ⟨⟨.inr rfl, ne_of_category hcategory⟩, hcategory⟩, hne⟩
  have hlevels : aal1 ≠ aal2 := by decide
  unfold elevated
  dsimp only
  split_ifs with h
  · simp only [hlevels, false_iff, ← htwo]
    omega
  · simp only [true_iff, ← htwo]
    omega

theorem satisfiesAal2_elevated (hcategory : category ∈ factorCategories)
    (h : (elevated methods category since now span).acr = aal2) :
    satisfiesAal2 (elevated methods category since now span).amr = true := by
  obtain ⟨-, other, hother, hc, hne⟩ := (elevated_acr hcategory).mp h
  exact satisfiesAal2_iff.mpr ⟨other, (mem_elevated hc).mpr (.inl hother), category,
    (mem_elevated hcategory).mpr (.inr rfl), hc, hcategory, hne⟩

end Elevated

end Mfa
end CampusID
