import CampusID.Policy.Release

/-!
# The authorization decision

A request says who asks, what for, what they want to do with it and in which circumstances.  A
rule speaks to it or does not, and of the rules that do one deny beats any number of permits
(`PolicySet.decide`).  The assurance of the session is no condition of a rule: where it falls
short of what the rule demands, the answer is a challenge.

Who asks is what a session holds: `subjectFrom`.
-/

namespace CampusID
namespace Authz

open Policy (Attributes entitlement scopedAffiliation)

/-- `AAL1`. -/
def aal1 : String := "urn:campusid:aal1"

/-- `AAL2`. -/
def aal2 : String := "urn:campusid:aal2"

/-- `ASSURANCE_ORDER`: the rank of an assurance, where an unknown one is the weakest. -/
def assuranceRank (assurance : String) : Nat :=
  (List.lookup assurance [("", 0), (aal1, 1), (aal2, 2)]).getD 0

/-- `DEFAULT_RULE`. -/
def defaultRule : String := "default-deny"

/-- `Effect`. -/
inductive Effect where
  | permit
  | deny
  | challenge
  deriving DecidableEq, Repr

/-- `Subject`. -/
structure Subject where
  entitlements : Finset String := ∅
  affiliations : Finset String := ∅
  roles : Finset String := ∅
  assurance : String := aal1
  personUuid : Option String := none
  deriving DecidableEq

/-- `Resource`. -/
structure Resource where
  id : String
  classification : String := "internal"
  requiresAal2 : Bool := false
  deriving DecidableEq, Repr

/-- `Environment`, with the time of day as a number of microseconds. -/
structure Environment where
  network : String := ""
  moment : Option Nat := none
  deriving DecidableEq, Repr

/-- `Request`. -/
structure Request where
  subject : Subject
  resource : Resource
  action : String
  environment : Environment := {}
  deriving DecidableEq

/-- `Decision`. -/
structure Decision where
  effect : Effect
  ruleId : String
  reason : String := ""
  requiredAssurance : Option String := none
  deriving DecidableEq, Repr

/-- `Rule`. -/
structure Rule where
  id : String
  effect : Effect
  description : String := ""
  entitlements : Finset String := ∅
  affiliations : Finset String := ∅
  roles : Finset String := ∅
  actions : Finset String := ∅
  resources : Finset String := ∅
  resourcePrefix : String := ""
  classifications : Finset String := ∅
  networks : Finset String := ∅
  between : Option (Nat × Nat) := none
  assurance : String := ""
  deriving DecidableEq

/-! ## Whether a rule speaks to a request -/

/-- A condition of a rule on a set: it names nothing, or something that is held. -/
def anyHeld (named held : Finset String) : Bool := named = ∅ ∨ named ∩ held ≠ ∅

/-- A condition of a rule on one value: it names nothing, or the value. -/
def isNamed (named : Finset String) (value : String) : Bool := named = ∅ ∨ value ∈ named

/-- `_within`: a window may wrap midnight. -/
def within (moment : Option Nat) (window : Nat × Nat) : Bool :=
  match moment with
  | none => false
  | some t =>
    if window.1 ≤ window.2 then window.1 ≤ t ∧ t ≤ window.2 else window.1 ≤ t ∨ t ≤ window.2

/-- `Rule.matches`. -/
def Rule.matches (rule : Rule) (request : Request) : Bool :=
  anyHeld rule.entitlements request.subject.entitlements &&
    anyHeld rule.affiliations request.subject.affiliations &&
    anyHeld rule.roles request.subject.roles &&
    isNamed rule.actions request.action &&
    isNamed rule.resources request.resource.id &&
    (rule.resourcePrefix = "" || rule.resourcePrefix.toList.isPrefixOf request.resource.id.toList) &&
    isNamed rule.classifications request.resource.classification &&
    isNamed rule.networks request.environment.network &&
    match rule.between with
    | none => true
    | some window => within request.environment.moment window

/-- `_stronger`. -/
def stronger (left right : String) : String :=
  if assuranceRank right ≤ assuranceRank left then left else right

/-- `Rule.required_assurance`. -/
def Rule.requiredAssurance (rule : Rule) (resource : Resource) : String :=
  if resource.requiresAal2 then stronger rule.assurance aal2 else rule.assurance

/-- `_falls_short`. -/
def fallsShort (held demanded : String) : Bool :=
  demanded ≠ "" ∧ assuranceRank held < assuranceRank demanded

/-! ## The decision -/

/-- `PolicySet`. -/
abbrev PolicySet := List Rule

/-- What a permit that speaks to the request decides. -/
def Rule.permits (rule : Rule) (request : Request) : Decision :=
  let demanded := rule.requiredAssurance request.resource
  if fallsShort request.subject.assurance demanded then
    { effect := .challenge
      ruleId := rule.id
      reason := demanded ++ " required, session is " ++ request.subject.assurance
      requiredAssurance := some demanded }
  else
    { effect := .permit
      ruleId := rule.id
      reason := if rule.description = "" then "permitted" else rule.description }

/-- `PolicySet.decide`. -/
def PolicySet.decide (rules : PolicySet) (request : Request) : Decision :=
  let matched := rules.filter (·.matches request)
  match matched.find? (·.effect = .deny) with
  | some rule =>
    { effect := .deny
      ruleId := rule.id
      reason := if rule.description = "" then "denied by policy" else rule.description }
  | none =>
    match matched.find? (·.effect = .permit) with
    | some rule => rule.permits request
    | none =>
      { effect := .deny, ruleId := defaultRule, reason := "no rule permitted this request" }

/-- `subject_from`. -/
def subjectFrom (attributes : Attributes) (assurance : String := aal1) : Subject where
  entitlements := (attributes.values entitlement).toFinset
  affiliations := ((attributes.values scopedAffiliation).map (Text.beforeFirst '@')).toFinset
  assurance := assurance

/-! ## What a decision depends on -/

variable {rules : PolicySet} {request other : Request} {rule : Rule}

theorem PolicySet.decide_of_deny (hrule : rule ∈ rules) (hdeny : rule.effect = .deny)
    (hmatches : rule.matches request = true) : (rules.decide request).effect = .deny := by
  unfold PolicySet.decide
  dsimp only
  cases hfind : (rules.filter (·.matches request)).find? (·.effect = .deny) with
  | some first => rfl
  | none =>
    rw [List.find?_eq_none] at hfind
    exact absurd (by simpa using hdeny) (hfind rule (List.mem_filter.mpr ⟨hrule, hmatches⟩))

/-- **A decision depends on which rules speak to the request**, on the resource and on the
assurance of who asks. -/
theorem PolicySet.decide_congr (hmatches : ∀ rule ∈ rules, rule.matches request = rule.matches other)
    (hresource : request.resource = other.resource)
    (hassurance : request.subject.assurance = other.subject.assurance) :
    rules.decide request = rules.decide other := by
  have hpermits : ∀ rule : Rule, rule.permits request = rule.permits other := fun rule => by
    unfold Rule.permits
    rw [hresource, hassurance]
  unfold PolicySet.decide
  rw [List.filter_congr hmatches]
  simp only [hpermits]

theorem anyHeld_iff {named held : Finset String} :
    anyHeld named held = true ↔ named = ∅ ∨ ∃ word ∈ named, word ∈ held := by
  unfold anyHeld
  rw [decide_eq_true_iff]
  refine or_congr_right ?_
  rw [← Finset.nonempty_iff_ne_empty]
  constructor
  · rintro ⟨word, hword⟩
    exact ⟨word, Finset.mem_inter.mp hword⟩
  · rintro ⟨word, hword⟩
    exact ⟨word, Finset.mem_inter.mpr hword⟩

end Authz
end CampusID
