import CampusID.Lib.Keyset
import CampusID.Oidc.Identity

/-!
# What is released follows the policy

Of any rules, any consent and any scopes: a service learns values that the broker holds, of
attributes that its policy lets out, and of these only what was asked for (`follows_policy`).

Steps that come before the rules cannot be widened by one (`decideAttribute_released`), and the
order in which rules are written down does not matter where no two have the same precedence
(`evaluate_perm`).
-/

namespace CampusID
namespace Oidc

open Lib Policy

/-- The attribute may be let out at all: it is known and not restricted, and no directory item of
somebody who suppressed them, unless to a school official. -/
def Disclosable (policy : ReleasePolicy) (subject : Subject) (name : String) : Prop :=
  ∃ attr, definition name = some attr ∧ attr.classification ≠ .restricted ∧
    ¬ (subject.ferpaDirectorySuppressed = true ∧ attr.ferpaDirectoryItem = true ∧
      policy.internalSchoolOfficial = false)

/-- The policy says something for the attribute: it has a rule, or the bundle has it. -/
def Provided (policy : ReleasePolicy) (name : String) : Prop :=
  (∃ rule ∈ policy.rules, rule.attr = name) ∨ inEntityCategoryBundle policy name = true

/-- What `evaluate` and `claims_for` give out is what the policy lets out. -/
structure FollowsPolicy (fullmatch : FullMatch) (policy : ReleasePolicy) (subject : Subject)
    (available : Attributes) (consented scopes : List String) (result : ReleaseResult) : Prop where
  /-- Every value that is released is one of the attribute's. -/
  held : ∀ name kept, (name, kept) ∈ result.attributes → kept ⊆ available.values name
  /-- What may not be let out is not, whatever the rules. -/
  disclosable : ∀ name kept, (name, kept) ∈ result.attributes → Disclosable policy subject name
  /-- What the policy says nothing for is not let out. -/
  provided : ∀ name kept, (name, kept) ∈ result.attributes → Provided policy name
  /-- There is one decision for each attribute, and for nothing else. -/
  decided : ∀ name, result.decisions.countP (·.attr = name) =
    if name ∈ available.map Prod.fst then 1 else 0
  /-- What is released is what a decision says, if that is anything. -/
  told : ∀ decision ∈ result.decisions, ∀ kept, (decision.attr, kept) ∈ result.attributes ↔
    decision.released = true ∧ decision.values ≠ [] ∧ kept = decision.values
  /-- Rules with precedences of their own may be written in any order. -/
  unordered : (policy.rules.map ReleaseRule.precedence).Nodup → ∀ rules, rules.Perm policy.rules →
    evaluate fullmatch { policy with rules := rules } subject available consented = result
  /-- Every claim is made of a released attribute whose scope was asked for. -/
  claimed : ∀ claim value, (claim, value) ∈ claimsFor scopes result.attributes →
    ∃ mapping ∈ claimMappings, mapping.claim = claim ∧ mapping.scope ∈ scopes ∧
      ∃ kept, (mapping.attr, kept) ∈ result.attributes ∧ value.values ⊆ kept

section Evaluate

variable {fullmatch : FullMatch} {policy : ReleasePolicy} {subject : Subject}
  {available : Attributes} {name : String} {values consented : List String}

/-- **What is released has passed the steps before the rules**, and a rule or the bundle. -/
theorem decideAttribute_released
    (h : (decideAttribute fullmatch policy subject name values consented).released = true) :
    Disclosable policy subject name ∧ Provided policy name := by
  unfold decideAttribute at h
  split at h
  · cases h
  · rename_i attr hattr
    split_ifs at h with hrestricted hsuppressed
    refine ⟨⟨attr, hattr, hrestricted, fun ⟨hflag, hitem, hofficial⟩ => hsuppressed ?_⟩, ?_⟩
    · simp [suppressed, hflag, hitem, hofficial]
    unfold decideByRules at h
    split at h
    · rename_i rule hrule
      have hmem := List.mem_of_find?_eq_some hrule
      rw [ReleasePolicy.ordered, List.mem_insertionSort] at hmem
      exact .inl ⟨rule, hmem, by simpa using List.find?_some hrule⟩
    · split_ifs at h with hbundle
      exact .inr hbundle

theorem decisions_evaluate :
    (evaluate fullmatch policy subject available consented).decisions.map Decision.attr =
      (available.map Prod.fst).insertionSort (· ≤ ·) := by
  simp only [evaluate, List.map_map]
  refine (List.map_congr_left fun name _ => ?_).trans (List.map_id _)
  exact decideAttribute_attribute

theorem mem_decisions {decision : Decision}
    (h : decision ∈ (evaluate fullmatch policy subject available consented).decisions) :
    decision.attr ∈ available.map Prod.fst ∧ decision = decideAttribute fullmatch policy subject
      decision.attr (available.values decision.attr) consented := by
  simp only [evaluate, List.mem_map, List.mem_insertionSort] at h
  obtain ⟨name, hname, rfl⟩ := h
  rw [decideAttribute_attribute]
  exact ⟨List.mem_map.mpr hname, rfl⟩

/-- **The rules are taken in the order of their precedence**, however they are written down. -/
theorem ordered_perm {rules : List ReleaseRule}
    (hdistinct : (policy.rules.map ReleaseRule.precedence).Nodup) (h : rules.Perm policy.rules) :
    ({ policy with rules := rules } : ReleasePolicy).ordered = policy.ordered := by
  have hsorted : ∀ l : List ReleaseRule, (l.insertionSort (·.precedence ≤ ·.precedence)).Pairwise
      fun a b => a.precedence ≤ b.precedence := List.pairwise_insertionSort _
  have hnodup : ((rules.insertionSort (·.precedence ≤ ·.precedence)).map
      ReleaseRule.precedence).Nodup :=
    (((List.perm_insertionSort _ _).trans h).map _).nodup_iff.mpr hdistinct
  refine Keyset.eq_of_perm hnodup (hsorted _) (hsorted _) ?_
  exact ((List.perm_insertionSort _ _).trans h).trans (List.perm_insertionSort _ _).symm

theorem evaluate_perm {rules : List ReleaseRule}
    (hdistinct : (policy.rules.map ReleaseRule.precedence).Nodup) (h : rules.Perm policy.rules) :
    evaluate fullmatch { policy with rules := rules } subject available consented =
      evaluate fullmatch policy subject available consented := by
  have hdecide : ∀ name, decideAttribute fullmatch { policy with rules := rules } subject name
      (available.values name) consented =
        decideAttribute fullmatch policy subject name (available.values name) consented := by
    intro name
    unfold decideAttribute decideByRules
    rw [ordered_perm hdistinct h]
    rfl
  unfold evaluate
  simp only [hdecide]

end Evaluate

/-- **What is released follows the policy and nothing else.** -/
theorem follows_policy (fullmatch : FullMatch) (policy : ReleasePolicy) (subject : Subject)
    (available : Attributes) (consented scopes : List String)
    (hdict : (available.map Prod.fst).Nodup) :
    FollowsPolicy fullmatch policy subject available consented scopes
      (evaluate fullmatch policy subject available consented) where
  held := by
    intro name kept hkept value hvalue
    obtain ⟨-, -, -, rfl⟩ := mem_evaluate.mp hkept
    exact (mem_values_decideAttribute.mp hvalue).1
  disclosable := by
    intro name kept hkept
    obtain ⟨-, -, hreleased, -⟩ := mem_evaluate.mp hkept
    exact (decideAttribute_released hreleased).1
  provided := by
    intro name kept hkept
    obtain ⟨-, -, hreleased, -⟩ := mem_evaluate.mp hkept
    exact (decideAttribute_released hreleased).2
  decided := by
    intro name
    have hcount := List.countP_map (p := (· = name)) (f := Decision.attr)
      (l := (evaluate fullmatch policy subject available consented).decisions)
    rw [decisions_evaluate, (List.perm_insertionSort _ _).countP_eq] at hcount
    refine hcount.symm.trans ?_
    rw [← hdict.count, List.count]
    exact List.countP_congr fun other _ => by simp
  told := by
    intro decision hdecision kept
    obtain ⟨hname, hdecide⟩ := mem_decisions hdecision
    rw [mem_evaluate, ← hdecide]
    constructor
    · rintro ⟨-, hkept, hreleased, rfl⟩
      exact ⟨hreleased, hkept, rfl⟩
    · rintro ⟨hreleased, hkept, rfl⟩
      exact ⟨hname, hkept, hreleased, rfl⟩
  unordered := fun hdistinct rules hperm => evaluate_perm hdistinct hperm
  claimed := fun claim value h => values_claimsFor h

/-- A library that is told the name, and of the affiliations those at the campus. -/
def libraryPolicy : ReleasePolicy where
  spEntityId := "https://library"
  rules := [{ id := "name", effect := .allow, attr := displayName, precedence := 20 },
    { id := "campus", effect := .allowValue, attr := scopedAffiliation,
      valueFilter := some "student@campus.edu", precedence := 10 }]

/-- What the broker holds about Sam. -/
def samHolds : Attributes :=
  [(displayName, ["Sam"]), (scopedAffiliation, ["student@campus.edu", "member@campus.edu"])]

/-- The library learns what its rules let out, and the client the claim it asked for. -/
theorem follows_policy_library :
    FollowsPolicy (fun pattern value => decide (pattern = value)) libraryPolicy { personKey := "sam" }
      samHolds [] ["profile"] (evaluate (fun pattern value => decide (pattern = value))
        libraryPolicy { personKey := "sam" } samHolds) :=
  follows_policy _ _ _ _ _ _ (by decide)

end Oidc
end CampusID
