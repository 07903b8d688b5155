import CampusID.Authz.Engine
import CampusID.Identity.Merge

/-!
# Affiliations with somebody else

Merging keeps an affiliation with another institution, and the subject of a decision is asked for
the word of an affiliation without its scope.  So a partner's faculty is faculty to a rule.

`CountsByWord` says how far that goes: no entitlement comes from an assertion, no word but that
of an affiliation out of our scope, and where no rule names such a word the decision is the one
on the registry alone.
-/

namespace CampusID
namespace Authz

open Policy (entitlement scopedAffiliation)
open Identity

section Affiliations

variable (lower : String → String) (scope : String) (asserted fromRegistry : AttributeMap)

/-- The word of an asserted affiliation that merging takes for somebody else's. -/
def ForeignWord (word : String) : Prop :=
  ∃ value, asserted.Carries scopedAffiliation value ∧ inScope lower value scope = false ∧
    Text.beforeFirst '@' value = word

/-- The subject of a session. -/
def ofSession (assurance : String) : Subject :=
  subjectFrom (merge lower asserted fromRegistry scope).entries assurance

/-- The subject that the registry alone makes. -/
def ofRegistry (assurance : String) : Subject := subjectFrom fromRegistry.entries assurance

/-- What the affiliations with other institutions count for in a decision. -/
structure CountsByWord : Prop where
  /-- Entitlements are the registry's. -/
  entitlements : ∀ assurance, (ofSession lower scope asserted fromRegistry assurance).entitlements =
    (ofRegistry fromRegistry assurance).entitlements
  /-- The registry's affiliations count. -/
  ours : ∀ assurance, (ofRegistry fromRegistry assurance).affiliations ⊆
    (ofSession lower scope asserted fromRegistry assurance).affiliations
  /-- An affiliation with somebody else counts by its word, however it is trimmed. -/
  theirs : ∀ assurance value, asserted.Carries scopedAffiliation value →
    inScope lower value scope = false → inScope lower (Text.strip value) scope = false →
      Text.beforeFirst '@' value ∈
        (ofSession lower scope asserted fromRegistry assurance).affiliations
  /-- Nothing else counts: a rule that speaks to the session and would not on the registry alone
  names the word of an affiliation with somebody else. -/
  only : ∀ assurance resource action environment (rule : Rule),
    rule.matches ⟨ofSession lower scope asserted fromRegistry assurance, resource, action,
        environment⟩ = true →
      rule.matches ⟨ofRegistry fromRegistry assurance, resource, action, environment⟩ = true ∨
        ∃ word ∈ rule.affiliations, ForeignWord lower scope asserted word ∧
          word ∉ (ofRegistry fromRegistry assurance).affiliations
  /-- Where no rule names such a word, the decision is the one on the registry alone. -/
  decisions : ∀ assurance resource action environment (rules : PolicySet),
    (∀ rule ∈ rules, ∀ word ∈ rule.affiliations, ForeignWord lower scope asserted word →
      word ∈ (ofRegistry fromRegistry assurance).affiliations) →
    rules.decide ⟨ofSession lower scope asserted fromRegistry assurance, resource, action,
        environment⟩ =
      rules.decide ⟨ofRegistry fromRegistry assurance, resource, action, environment⟩

end Affiliations

variable {lower : String → String} {scope assurance action : String}
  {asserted fromRegistry : AttributeMap} {resource : Resource} {environment : Environment}
  {rule : Rule}

/-! ## The subject of a session -/

theorem mem_affiliations {attributes : AttributeMap} {word : String} :
    word ∈ (subjectFrom attributes.entries assurance).affiliations ↔
      ∃ value, attributes.Carries scopedAffiliation value ∧ Text.beforeFirst '@' value = word := by
  simp only [subjectFrom, List.mem_toFinset, List.mem_map,
    ← carries_iff_mem_values attributes.nodup]
  rfl

theorem mem_entitlements {attributes : AttributeMap} {value : String} :
    value ∈ (subjectFrom attributes.entries assurance).entitlements ↔
      attributes.Carries entitlement value := by
  simp only [subjectFrom, List.mem_toFinset, ← carries_iff_mem_values attributes.nodup]
  rfl

theorem entitlements_ofSession :
    (ofSession lower scope asserted fromRegistry assurance).entitlements =
      (ofRegistry fromRegistry assurance).entitlements := by
  ext value
  have hbroker : entitlement ∈ brokerOwned := by decide
  unfold ofSession ofRegistry
  rw [mem_entitlements, mem_entitlements, carries_merge]
  simp [hbroker]

/-- The words of a session are the registry's and those of the affiliations with somebody
else. -/
theorem mem_affiliations_ofSession {word : String} :
    word ∈ (ofSession lower scope asserted fromRegistry assurance).affiliations ↔
      word ∈ (ofRegistry fromRegistry assurance).affiliations ∨
        ForeignWord lower scope asserted word := by
  have howned : scopedAffiliation ∉ brokerOwned ∧ scopedAffiliation ∈ scopeOwned := by decide
  unfold ofSession ofRegistry ForeignWord
  rw [mem_affiliations, mem_affiliations]
  constructor
  · rintro ⟨value, hvalue, rfl⟩
    rcases carries_merge.mp hvalue with hregistry | ⟨hasserted, -, hforeign⟩
    · exact .inl ⟨value, hregistry, rfl⟩
    · rw [if_pos howned.2] at hforeign
      exact .inr ⟨value, hasserted, hforeign, rfl⟩
  · rintro (⟨value, hregistry, rfl⟩ | ⟨value, hasserted, hforeign, rfl⟩)
    · exact ⟨value, carries_merge.mpr (.inl hregistry), rfl⟩
    · refine ⟨value, carries_merge.mpr (.inr ⟨hasserted, howned.1, ?_⟩), rfl⟩
      rwa [if_pos howned.2]

/-! ## What a rule makes of it -/

/-- A rule makes of a session what it makes of the registry alone, but for its condition on
affiliations. -/
theorem matches_ofSession
    (h : anyHeld rule.affiliations
        (ofSession lower scope asserted fromRegistry assurance).affiliations =
      anyHeld rule.affiliations (ofRegistry fromRegistry assurance).affiliations) :
    rule.matches ⟨ofSession lower scope asserted fromRegistry assurance, resource, action,
        environment⟩ =
      rule.matches ⟨ofRegistry fromRegistry assurance, resource, action, environment⟩ := by
  unfold Rule.matches
  dsimp only
  rw [h, entitlements_ofSession]
  rfl

/-- A condition on affiliations that names no foreign word is what it is on the registry
alone. -/
theorem anyHeld_ofSession
    (h : ∀ word ∈ rule.affiliations, ForeignWord lower scope asserted word →
      word ∈ (ofRegistry fromRegistry assurance).affiliations) :
    anyHeld rule.affiliations
        (ofSession lower scope asserted fromRegistry assurance).affiliations =
      anyHeld rule.affiliations (ofRegistry fromRegistry assurance).affiliations := by
  rw [Bool.eq_iff_iff, anyHeld_iff, anyHeld_iff]
  refine or_congr_right ⟨?_, ?_⟩
  · rintro ⟨word, hword, hheld⟩
    rcases mem_affiliations_ofSession.mp hheld with hours | hforeign
    · exact ⟨word, hword, hours⟩
    · exact ⟨word, hword, h word hword hforeign⟩
  · rintro ⟨word, hword, hheld⟩
    exact ⟨word, hword, mem_affiliations_ofSession.mpr (.inl hheld)⟩

/-- **Another institution's affiliations count by their word and no further.** -/
theorem countsByWord (lower : String → String) (scope : String)
    (asserted fromRegistry : AttributeMap) : CountsByWord lower scope asserted fromRegistry where
  entitlements := fun _ => entitlements_ofSession
  ours := fun _ _ hword => mem_affiliations_ofSession.mpr (.inl hword)
  theirs := fun _ value hvalue hforeign _ =>
    mem_affiliations_ofSession.mpr (.inr ⟨value, hvalue, hforeign, rfl⟩)
  only := by
    intro assurance resource action environment rule hmatches
    by_cases hnamed : ∀ word ∈ rule.affiliations, ForeignWord lower scope asserted word →
        word ∈ (ofRegistry fromRegistry assurance).affiliations
    · rw [matches_ofSession (anyHeld_ofSession hnamed)] at hmatches
      exact .inl hmatches
    · push Not at hnamed
      exact .inr hnamed
  decisions := by
    intro assurance resource action environment rules hnamed
    refine PolicySet.decide_congr (fun rule hrule => ?_) rfl rfl
    exact matches_ofSession (anyHeld_ofSession (hnamed rule hrule))

/-- A partner's faculty is let in where our faculty is. -/
theorem partner_is_permitted :
    ¬ ∀ (asserted fromRegistry : AttributeMap) (scope assurance action : String)
        (resource : Resource) (environment : Environment) (rules : PolicySet),
      (rules.decide ⟨ofSession Text.lower scope asserted fromRegistry assurance, resource, action,
          environment⟩).effect =
        (rules.decide ⟨ofRegistry fromRegistry assurance, resource, action,
          environment⟩).effect := by
  intro h
  have hpermit := h ⟨[(scopedAffiliation, ["faculty@partner.edu"])], by decide⟩
    ⟨[], by decide⟩ "campus.test" aal1 "read" { id := "library" } {}
    [{ id := "faculty-reads", effect := .permit, affiliations := {"faculty"} }]
  exact absurd hpermit (by decide +kernel)

end Authz
end CampusID
