import CampusID.Authz.Engine
import Mathlib.Data.List.Perm.Basic

/-!
# Does the order of the rules matter?

One deny beats any number of permits, wherever it stands.  Of the permits the first one decides,
and with it its own demand on the assurance: where one permit is content with the session and
another is not, the one that stands first says whether the answer is a challenge.

`outcome` is what the rules say in no order, and `orderFree_iff` when that is the decision.
-/

namespace CampusID
namespace Authz

/-- The session falls short of what the rule demands for the resource. -/
def Rule.Short (rule : Rule) (request : Request) : Prop :=
  fallsShort request.subject.assurance (rule.requiredAssurance request.resource) = true

instance (rule : Rule) (request : Request) : Decidable (rule.Short request) :=
  inferInstanceAs (Decidable (_ = true))

/-- A rule of this effect speaks to the request. -/
def Speaks (rules : PolicySet) (request : Request) (effect : Effect) (rule : Rule) : Prop :=
  rule ∈ rules ∧ rule.effect = effect ∧ rule.matches request = true

/-- What the rules say of a request in no order: a deny, or that none speaks to it; else a permit
that the session suffices for; else a challenge. -/
def outcome (rules : PolicySet) (request : Request) : Effect :=
  if (∃ rule ∈ rules, rule.effect = .deny ∧ rule.matches request = true) ∨
      ¬ ∃ rule ∈ rules, rule.matches request = true then .deny
  else if ∃ rule ∈ rules, rule.effect = .permit ∧ rule.matches request = true ∧
      ¬ rule.Short request then .permit
  else .challenge

/-- **The order does not matter**: however the rules are permuted, the decision is what they say
in no order. -/
def OrderFree (rules : PolicySet) (request : Request) : Prop :=
  ∀ rules' : PolicySet, rules.Perm rules' → (rules'.decide request).effect = outcome rules request

/-- The permits that speak to the request agree on whether the session falls short, and there is
one if any rule speaks to it --- or a rule denies it. -/
def PermitsAgree (rules : PolicySet) (request : Request) : Prop :=
  (∃ rule, Speaks rules request .deny rule) ∨
    (∀ rule other, Speaks rules request .permit rule → Speaks rules request .permit other →
      (rule.Short request ↔ other.Short request)) ∧
    ((∃ rule ∈ rules, rule.matches request = true) → ∃ rule, Speaks rules request .permit rule)

variable {rules rules' : PolicySet} {request : Request} {rule : Rule}

theorem Speaks.of_perm {effect : Effect} (h : Speaks rules request effect rule)
    (hperm : rules.Perm rules') : Speaks rules' request effect rule :=
  ⟨hperm.mem_iff.mp h.1, h.2⟩

theorem Rule.effect_permits (rule : Rule) (request : Request) :
    (rule.permits request).effect = if rule.Short request then .challenge else .permit := by
  unfold Rule.permits
  by_cases hshort : rule.Short request
  · rw [if_pos hshort]
    exact congrArg Decision.effect (if_pos hshort)
  · rw [if_neg hshort]
    exact congrArg Decision.effect (if_neg hshort)

theorem PolicySet.decide_of_not_deny (hdeny : ¬ ∃ rule, Speaks rules request .deny rule) :
    (rules.decide request).effect =
      ((rules.filter (·.matches request)).find? (·.effect = .permit)).elim .deny
        fun rule => (rule.permits request).effect := by
  have hnone : (rules.filter (·.matches request)).find? (·.effect = .deny) = none := by
    rw [List.find?_eq_none]
    intro rule hrule heffect
    obtain ⟨hmem, hmatches⟩ := List.mem_filter.mp hrule
    exact hdeny ⟨rule, hmem, by simpa using heffect, hmatches⟩
  unfold PolicySet.decide
  dsimp only
  rw [hnone]
  cases (rules.filter (·.matches request)).find? (·.effect = .permit) with
  | none => rfl
  | some rule => rfl

theorem PolicySet.decide_cons {permit : Rule}
    (hdeny : ¬ ∃ rule, Speaks (permit :: rules) request .deny rule)
    (hpermit : permit.effect = .permit) (hmatches : permit.matches request = true) :
    (PolicySet.decide (permit :: rules) request).effect = (permit.permits request).effect := by
  rw [decide_of_not_deny hdeny]
  simp [hmatches, hpermit]

theorem PermitsAgree.effect_eq (h : PermitsAgree rules request) :
    (rules.decide request).effect = outcome rules request := by
  by_cases hdeny : ∃ rule, Speaks rules request .deny rule
  · obtain ⟨rule, hrule, heffect, hmatches⟩ := hdeny
    rw [PolicySet.decide_of_deny hrule heffect hmatches, outcome,
      if_pos (.inl ⟨rule, hrule, heffect, hmatches⟩)]
  · obtain ⟨hagree, hsome⟩ := h.resolve_left hdeny
    rw [PolicySet.decide_of_not_deny hdeny]
    cases hfind : (rules.filter (·.matches request)).find? (·.effect = .permit) with
    | none =>
      -- no permit speaks to the request, so no rule does
      have hquiet : ¬ ∃ rule ∈ rules, rule.matches request = true := by
        intro hspeaks
        obtain ⟨rule, hrule, hpermit, hmatches⟩ := hsome hspeaks
        rw [List.find?_eq_none] at hfind
        exact hfind rule (List.mem_filter.mpr ⟨hrule, hmatches⟩) (by simpa using hpermit)
      rw [outcome, if_pos (.inr hquiet)]
      rfl
    | some first =>
      obtain ⟨hmem, hmatches⟩ := List.mem_filter.mp (List.mem_of_find?_eq_some hfind)
      have hpermit : first.effect = .permit := by simpa using List.find?_some hfind
      have hfirst : Speaks rules request .permit first := ⟨hmem, hpermit, hmatches⟩
      have hloud : ¬ ((∃ rule ∈ rules, rule.effect = .deny ∧ rule.matches request = true) ∨
          ¬ ∃ rule ∈ rules, rule.matches request = true) := by
        rintro (⟨rule, hrule, heffect, hspeaks⟩ | hquiet)
        · exact hdeny ⟨rule, hrule, heffect, hspeaks⟩
        · exact hquiet ⟨first, hmem, hmatches⟩
      rw [outcome, if_neg hloud, Option.elim_some, Rule.effect_permits]
      by_cases hshort : first.Short request
      · rw [if_pos hshort, if_neg]
        rintro ⟨rule, hrule, heffect, hspeaks, hlong⟩
        exact hlong ((hagree first rule hfirst ⟨hrule, heffect, hspeaks⟩).mp hshort)
      · rw [if_neg hshort, if_pos ⟨first, hmem, hpermit, hmatches, hshort⟩]

theorem PermitsAgree.of_perm (h : PermitsAgree rules request) (hperm : rules.Perm rules') :
    PermitsAgree rules' request := by
  rcases h with ⟨rule, hrule⟩ | ⟨hagree, hsome⟩
  · exact .inl ⟨rule, hrule.of_perm hperm⟩
  · refine .inr ⟨fun rule other hrule hother => ?_, ?_⟩
    · exact hagree rule other (hrule.of_perm hperm.symm) (hother.of_perm hperm.symm)
    · rintro ⟨rule, hrule, hmatches⟩
      obtain ⟨permit, hpermit⟩ := hsome ⟨rule, hperm.mem_iff.mpr hrule, hmatches⟩
      exact ⟨permit, hpermit.of_perm hperm⟩

theorem outcome_of_perm (hperm : rules.Perm rules') :
    outcome rules' request = outcome rules request := by
  unfold outcome
  simp only [hperm.mem_iff]

theorem OrderFree.short_iff (h : OrderFree rules request)
    (hdeny : ¬ ∃ rule, Speaks rules request .deny rule) {permit : Rule}
    (hpermit : Speaks rules request .permit permit) :
    outcome rules request = if permit.Short request then .challenge else .permit := by
  obtain ⟨front, back, rfl⟩ := List.mem_iff_append.mp hpermit.1
  have hperm : (front ++ permit :: back).Perm (permit :: (front ++ back)) := List.perm_middle
  have hfree : ¬ ∃ rule, Speaks (permit :: (front ++ back)) request .deny rule := by
    rintro ⟨rule, hrule⟩
    exact hdeny ⟨rule, hrule.of_perm hperm.symm⟩
  rw [← h _ hperm, PolicySet.decide_cons hfree hpermit.2.1 hpermit.2.2, Rule.effect_permits]

variable (rules request) in
/-- **The order matters exactly where the permits disagree.** -/
theorem orderFree_iff : OrderFree rules request ↔ PermitsAgree rules request := by
  constructor
  · intro h
    by_cases hdeny : ∃ rule, Speaks rules request .deny rule
    · exact .inl hdeny
    · refine .inr ⟨fun rule other hrule hother => ?_, fun hspeaks => ?_⟩
      · have heq := (h.short_iff hdeny hrule).symm.trans (h.short_iff hdeny hother)
        by_cases hshort : rule.Short request
        · rw [if_pos hshort] at heq
          by_cases hlong : other.Short request
          · exact iff_of_true hshort hlong
          · rw [if_neg hlong] at heq
            cases heq
        · rw [if_neg hshort] at heq
          by_cases hlong : other.Short request
          · rw [if_pos hlong] at heq
            cases heq
          · exact iff_of_false hshort hlong
      · -- a rule speaks, so the rules do not deny, and only a permit can keep the engine from it
        by_contra hnone
        have hdecide := h rules (List.Perm.refl _)
        have hfind : (rules.filter (·.matches request)).find? (·.effect = .permit) = none := by
          rw [List.find?_eq_none]
          intro rule hrule heffect
          obtain ⟨hmem, hmatches⟩ := List.mem_filter.mp hrule
          exact hnone ⟨rule, hmem, by simpa using heffect, hmatches⟩
        rw [PolicySet.decide_of_not_deny hdeny, hfind, outcome, if_neg] at hdecide
        · split_ifs at hdecide
          · cases hdecide
          · cases hdecide
        · rintro (⟨rule, hrule, heffect, hmatches⟩ | hquiet)
          · exact hdeny ⟨rule, hrule, heffect, hmatches⟩
          · exact hquiet hspeaks
  · intro h rules' hperm
    rw [(h.of_perm hperm).effect_eq, outcome_of_perm hperm]

/-- Two rules permit the same, and one of them asks for a second factor. -/
def twoPermits : PolicySet := [
  { id := "strong", effect := .permit, assurance := aal2 }, { id := "weak", effect := .permit }]

/-- The one that stands first decides. -/
theorem not_orderFree :
    ¬ ∀ (rules : PolicySet) (request : Request), OrderFree rules request := by
  intro h
  let request : Request := { subject := {}, resource := { id := "lms:course/101" }, action := "read" }
  have hchallenge := h twoPermits request twoPermits (List.Perm.refl _)
  have hpermit := h twoPermits request twoPermits.reverse twoPermits.reverse_perm.symm
  exact absurd (hchallenge.trans hpermit.symm) (by decide +kernel)

end Authz
end CampusID
