import CampusID.Text

/-!
# What affiliations entitle a person to

`LifecycleRules`: rules that name, for some affiliations, the entitlements they
justify.  A transition compares the grants of two affiliation sets and answers with
a delta --- what is newly granted, what is retained, and what is revoked and when.

The comparison is by entitlement, while each grant carries the rule and the
affiliation that justify it.  `transition_granted` and
`transition_revoked` say so in one line each, and are all that later modules use.

Dates are day numbers.
-/

namespace CampusID

/-- `Entitlement`: its name, and how long it survives the affiliation that justified
it. -/
structure Entitlement where
  urn : String
  graceDays : Int := 0
  deriving DecidableEq, Repr

/-- `Rule`: which affiliations justify which entitlements. -/
structure Rule where
  id : String
  affiliations : Finset String
  grants : List String

/-- `Grant`: one entitlement, and why. -/
structure Grant where
  urn : String
  ruleId : String
  affiliation : String
  deriving DecidableEq, Repr

/-- `Revocation`: an entitlement that is going away, and when. -/
structure Revocation where
  urn : String
  effective : Int
  graceDays : Int := 0
  deriving DecidableEq, Repr

/-- `Delta`: what a transition changes. -/
structure Delta where
  granted : List Grant := []
  retained : List Grant := []
  revoked : List Revocation := []
  deriving DecidableEq, Repr

/-- `Delta.is_empty`: nothing is granted and nothing revoked. -/
def Delta.isEmpty (delta : Delta) : Bool := delta.granted.isEmpty && delta.revoked.isEmpty

/-- `LifecycleRules`. -/
structure LifecycleRules where
  entitlements : List (String × Entitlement) := []
  rules : List Rule := []

namespace LifecycleRules

variable (rules : LifecycleRules)

/-- `grants_for`: everything these affiliations justify, each with the reason. -/
def grantsFor (affiliations : Finset String) : List Grant :=
  rules.rules.flatMap fun rule =>
    (Text.sorted (rule.affiliations ∩ affiliations)).flatMap fun affiliation =>
      rule.grants.map fun urn => ⟨urn, rule.id, affiliation⟩

/-- The entitlements these affiliations justify: the set of URNs `transition` compares. -/
def urns (affiliations : Finset String) : Finset String :=
  ((rules.grantsFor affiliations).map Grant.urn).toFinset

/-- `_revocation`. -/
def revocation (urn : String) (today : Int) : Revocation :=
  let grace := ((rules.entitlements.lookup urn).map Entitlement.graceDays).getD 0
  ⟨urn, today + grace, grace⟩

/-- `transition`. -/
def transition (before after : Finset String) (today : Int) : Delta :=
  let now := rules.grantsFor after
  { granted := now.filter (·.urn ∉ rules.urns before)
    retained := now.filter (·.urn ∈ rules.urns before)
    revoked := (Text.sorted (rules.urns before \ rules.urns after)).map
      (rules.revocation · today) }

theorem mem_urns {affiliations : Finset String} {urn : String} :
    urn ∈ rules.urns affiliations ↔ ∃ g ∈ rules.grantsFor affiliations, g.urn = urn := by
  simp [urns]

@[simp] theorem grantsFor_empty : rules.grantsFor ∅ = [] := by
  simp [grantsFor]

@[simp] theorem urns_empty : rules.urns ∅ = ∅ := by
  simp [urns]

@[simp] theorem revocation_urn (urn : String) (today : Int) :
    (rules.revocation urn today).urn = urn := rfl

variable {rules} {before after : Finset String} {today : Int}

theorem transition_granted {g : Grant} :
    g ∈ (rules.transition before after today).granted ↔
      g ∈ rules.grantsFor after ∧ g.urn ∉ rules.urns before := by
  simp [transition]

theorem transition_revoked {r : Revocation} :
    r ∈ (rules.transition before after today).revoked ↔
      (r.urn ∈ rules.urns before ∧ r.urn ∉ rules.urns after) ∧ r = rules.revocation r.urn today := by
  simp only [transition, List.mem_map, Text.mem_sorted, Finset.mem_sdiff]
  constructor
  · rintro ⟨urn, hurn, rfl⟩
    exact ⟨hurn, rfl⟩
  · rintro ⟨hurn, heq⟩
    exact ⟨r.urn, hurn, heq.symm⟩

end LifecycleRules

end CampusID
