import CampusID.Text

/-!
# The attribute release policy engine

The catalogue of attributes, and what of them one service provider may see of one subject.

An attribute that is unknown or restricted is not released.  A directory item of a suppressed
subject is not released except to a school official (`suppressed`).  Then the first rule about
the attribute decides, in the order of precedence, and where there is none the entity category.

`fullmatch`, of a pattern and a value, is a parameter.
-/

namespace CampusID
namespace Policy

/-! ## The catalogue -/

/-- `Classification`. -/
inductive Classification where
  | pub
  | directory
  | internal
  | restricted
  deriving DecidableEq, Repr

/-- `AttributeDefinition`. -/
structure AttributeDefinition where
  name : String
  friendlyName : String
  classification : Classification
  ferpaDirectoryItem : Bool := false
  multivalued : Bool := true
  deriving DecidableEq, Repr

/-- `EPPN`. -/
def eppn : String := "urn:oid:1.3.6.1.4.1.5923.1.1.1.6"

/-- `UNIQUE_ID`. -/
def uniqueId : String := "urn:oid:1.3.6.1.4.1.5923.1.1.1.13"

/-- `SUBJECT_ID`. -/
def subjectIdName : String := "urn:oasis:names:tc:SAML:attribute:subject-id"

/-- `PAIRWISE_ID`. -/
def pairwiseIdName : String := "urn:oasis:names:tc:SAML:attribute:pairwise-id"

/-- `MAIL`. -/
def mail : String := "urn:oid:0.9.2342.19200300.100.1.3"

/-- `DISPLAY_NAME`. -/
def displayName : String := "urn:oid:2.16.840.1.113730.3.1.241"

/-- `GIVEN_NAME`. -/
def givenName : String := "urn:oid:2.5.4.42"

/-- `SURNAME`. -/
def surname : String := "urn:oid:2.5.4.4"

/-- `SCOPED_AFFILIATION`. -/
def scopedAffiliation : String := "urn:oid:1.3.6.1.4.1.5923.1.1.1.9"

/-- `AFFILIATION`. -/
def affiliation : String := "urn:oid:1.3.6.1.4.1.5923.1.1.1.1"

/-- `PRIMARY_AFFILIATION`. -/
def primaryAffiliation : String := "urn:oid:1.3.6.1.4.1.5923.1.1.1.5"

/-- `ENTITLEMENT`. -/
def entitlement : String := "urn:oid:1.3.6.1.4.1.5923.1.1.1.7"

/-- `ASSURANCE`. -/
def assurance : String := "urn:oid:1.3.6.1.4.1.5923.1.1.1.11"

/-- `ORG_UNIT`. -/
def orgUnit : String := "urn:oid:2.5.4.11"

/-- `ORCID`. -/
def orcid : String := "urn:oid:1.3.6.1.4.1.5923.1.1.1.16"

/-- `STUDENT_ID`. -/
def studentId : String := "urn:campusid:attribute:student-id"

/-- `EMPLOYEE_ID`. -/
def employeeId : String := "urn:campusid:attribute:employee-id"

/-- `CATALOGUE`. -/
def catalogue : List AttributeDefinition := [
  { name := subjectIdName, friendlyName := "subject-id", classification := .directory,
    multivalued := false },
  { name := pairwiseIdName, friendlyName := "pairwise-id", classification := .pub,
    multivalued := false },
  { name := eppn, friendlyName := "eduPersonPrincipalName", classification := .directory,
    multivalued := false },
  { name := uniqueId, friendlyName := "eduPersonUniqueId", classification := .internal,
    multivalued := false },
  { name := mail, friendlyName := "mail", classification := .directory,
    ferpaDirectoryItem := true },
  { name := displayName, friendlyName := "displayName", classification := .directory,
    ferpaDirectoryItem := true, multivalued := false },
  { name := givenName, friendlyName := "givenName", classification := .directory,
    ferpaDirectoryItem := true, multivalued := false },
  { name := surname, friendlyName := "sn", classification := .directory,
    ferpaDirectoryItem := true, multivalued := false },
  { name := scopedAffiliation, friendlyName := "eduPersonScopedAffiliation",
    classification := .directory, ferpaDirectoryItem := true },
  { name := affiliation, friendlyName := "eduPersonAffiliation", classification := .directory,
    ferpaDirectoryItem := true },
  { name := primaryAffiliation, friendlyName := "eduPersonPrimaryAffiliation",
    classification := .directory, ferpaDirectoryItem := true, multivalued := false },
  { name := orgUnit, friendlyName := "ou", classification := .directory,
    ferpaDirectoryItem := true },
  { name := entitlement, friendlyName := "eduPersonEntitlement", classification := .internal },
  { name := assurance, friendlyName := "eduPersonAssurance", classification := .internal },
  { name := orcid, friendlyName := "eduPersonOrcid", classification := .pub,
    multivalued := false },
  { name := studentId, friendlyName := "studentID", classification := .restricted,
    multivalued := false },
  { name := employeeId, friendlyName := "employeeNumber", classification := .restricted,
    multivalued := false }]

/-- `definition`. -/
def definition (name : String) : Option AttributeDefinition := catalogue.find? (·.name = name)

/-- The attribute is marked as directory information. -/
def DirectoryItem (name : String) : Prop :=
  ∃ attr ∈ definition name, attr.ferpaDirectoryItem = true

instance (name : String) : Decidable (DirectoryItem name) :=
  inferInstanceAs (Decidable (∃ attr ∈ definition name, attr.ferpaDirectoryItem = true))

/-- `RESEARCH_AND_SCHOLARSHIP`. -/
def researchAndScholarship : String := "http://refeds.org/category/research-and-scholarship"

/-- `RS_BUNDLE`. -/
def rsBundle : List String :=
  [subjectIdName, eppn, mail, displayName, givenName, surname, scopedAffiliation]

/-- Attribute names and their values. -/
abbrev Attributes := List (String × List String)

/-- The values under a name, if there are any. -/
def Attributes.values (attributes : Attributes) (name : String) : List String :=
  (attributes.lookup name).getD []

/-! ## The engine -/

/-- `Basis`. -/
inductive Basis where
  | restricted
  | ferpaSuppressed
  | unknownAttribute
  | explicitDeny
  | explicitAllow
  | valueFilter
  | entityCategory
  | consentGiven
  | consentRequired
  | defaultDeny
  deriving DecidableEq, Repr

/-- `Effect`. -/
inductive Effect where
  | allow
  | allowValue
  | deny
  | requireConsent
  deriving DecidableEq, Repr

/-- `ReleaseRule`. -/
structure ReleaseRule where
  id : String
  effect : Effect
  attr : String
  valueFilter : Option String := none
  precedence : Int := 100
  deriving DecidableEq, Repr

/-- `SubjectIdMode`. -/
inductive SubjectIdMode where
  | pairwise
  | shared
  deriving DecidableEq, Repr

/-- `ReleasePolicy`. -/
structure ReleasePolicy where
  spEntityId : String
  entityCategories : List String := []
  subjectIdMode : SubjectIdMode := .pairwise
  internalSchoolOfficial : Bool := false
  rules : List ReleaseRule := []
  deriving DecidableEq, Repr

/-- `Subject`. -/
structure Subject where
  personKey : String
  ferpaDirectorySuppressed : Bool := false
  deriving DecidableEq, Repr

/-- `Decision`. -/
structure Decision where
  attr : String
  released : Bool
  values : List String
  basis : Basis
  ruleId : Option String := none
  deriving DecidableEq, Repr

/-- `ReleaseResult`. -/
structure ReleaseResult where
  attributes : Attributes
  decisions : List Decision
  deriving DecidableEq, Repr

/-- `re.fullmatch` of a pattern and a value. -/
abbrev FullMatch := String → String → Bool

section Engine

variable (fullmatch : FullMatch)

/-- `ReleaseRule.matches`. -/
def ReleaseRule.matches (rule : ReleaseRule) (value : String) : Bool :=
  match rule.valueFilter with
  | none => true
  | some pattern => fullmatch pattern value

/-- `_suppressed`. -/
def suppressed (policy : ReleasePolicy) (subject : Subject) (attr : AttributeDefinition) :
    Bool :=
  subject.ferpaDirectorySuppressed && attr.ferpaDirectoryItem &&
    !policy.internalSchoolOfficial

/-- `_in_entity_category_bundle`. -/
def inEntityCategoryBundle (policy : ReleasePolicy) (name : String) : Bool :=
  researchAndScholarship ∈ policy.entityCategories ∧ name ∈ rsBundle

/-- What a rule about the attribute decides. -/
def ReleaseRule.decide (rule : ReleaseRule) (name : String) (values consented : List String) :
    Decision :=
  match rule.effect with
  | .deny => ⟨name, false, [], .explicitDeny, some rule.id⟩
  | .allow => ⟨name, true, values, .explicitAllow, some rule.id⟩
  | .requireConsent =>
    if name ∈ consented then ⟨name, true, values, .consentGiven, some rule.id⟩
    else ⟨name, false, [], .consentRequired, some rule.id⟩
  | .allowValue =>
    let kept := values.filter (rule.matches fullmatch)
    ⟨name, !kept.isEmpty, kept, .valueFilter, some rule.id⟩

/-- The rules of a policy in the order of their precedence. -/
def ReleasePolicy.ordered (policy : ReleasePolicy) : List ReleaseRule :=
  policy.rules.insertionSort (·.precedence ≤ ·.precedence)

/-- The loop of `_decide` over the rules, and what follows it. -/
def decideByRules (policy : ReleasePolicy) (name : String) (values consented : List String) :
    Decision :=
  match policy.ordered.find? (·.attr = name) with
  | some rule => rule.decide fullmatch name values consented
  | none =>
    if inEntityCategoryBundle policy name then ⟨name, true, values, .entityCategory, none⟩
    else ⟨name, false, [], .defaultDeny, none⟩

/-- `_decide`. -/
def decideAttribute (policy : ReleasePolicy) (subject : Subject) (name : String)
    (values consented : List String) : Decision :=
  match definition name with
  | none => ⟨name, false, [], .unknownAttribute, none⟩
  | some attr =>
    if attr.classification = .restricted then ⟨name, false, [], .restricted, none⟩
    else if suppressed policy subject attr then ⟨name, false, [], .ferpaSuppressed, none⟩
    else decideByRules fullmatch policy name values consented

/-- `evaluate`. -/
def evaluate (policy : ReleasePolicy) (subject : Subject) (available : Attributes)
    (consented : List String := []) : ReleaseResult :=
  let names := (available.map Prod.fst).insertionSort (· ≤ ·)
  let decisions := names.map fun name =>
    decideAttribute fullmatch policy subject name (available.values name) consented
  { attributes := (decisions.filter fun d => d.released ∧ d.values ≠ []).map fun d =>
      (d.attr, d.values)
    decisions := decisions }

/-! ## What is released -/

variable {fullmatch} {policy : ReleasePolicy} {subject : Subject} {available : Attributes}
  {name : String} {values consented : List String}

theorem decideByRules_attribute :
    (decideByRules fullmatch policy name values consented).attr = name := by
  unfold decideByRules
  split
  · unfold ReleaseRule.decide
    split
    · rfl
    · rfl
    · split_ifs <;> rfl
    · rfl
  · split_ifs <;> rfl

theorem decideAttribute_attribute :
    (decideAttribute fullmatch policy subject name values consented).attr = name := by
  unfold decideAttribute
  split
  · rfl
  · split_ifs
    · rfl
    · rfl
    · exact decideByRules_attribute

/-- **What is released** is what the decision on it passes. -/
theorem mem_evaluate {kept : List String} :
    (name, kept) ∈ (evaluate fullmatch policy subject available consented).attributes ↔
      name ∈ available.map Prod.fst ∧ kept ≠ [] ∧
        (decideAttribute fullmatch policy subject name (available.values name) consented).released
          = true ∧
        (decideAttribute fullmatch policy subject name (available.values name) consented).values
          = kept := by
  simp only [evaluate, List.mem_map, List.mem_filter, Bool.decide_and, Bool.and_eq_true,
    decide_eq_true_eq, Prod.mk.injEq]
  constructor
  · rintro ⟨d, ⟨⟨other, hother, rfl⟩, hreleased, hvalues⟩, hname, rfl⟩
    rw [decideAttribute_attribute] at hname
    subst hname
    rw [List.mem_insertionSort] at hother
    exact ⟨List.mem_map.mp hother, hvalues, hreleased, rfl⟩
  · rintro ⟨hname, hkept, hreleased, rfl⟩
    refine ⟨_, ⟨⟨name, ?_, rfl⟩, hreleased, hkept⟩, decideAttribute_attribute, rfl⟩
    rw [List.mem_insertionSort]
    exact List.mem_map.mpr hname

theorem ReleaseRule.mem_values_decide (rule : ReleaseRule) {value : String} :
    value ∈ (rule.decide fullmatch name values consented).values ↔
      value ∈ values ∧ value ∈ (rule.decide fullmatch name [value] consented).values := by
  unfold ReleaseRule.decide
  cases rule.effect with
  | deny => simp
  | allow => simp
  | requireConsent =>
    dsimp only
    split_ifs
    · simp
    · simp
  | allowValue => simp

/-- **The engine decides value by value**: whether one passes does not depend on the others. -/
theorem mem_values_decideAttribute {value : String} :
    value ∈ (decideAttribute fullmatch policy subject name values consented).values ↔
      value ∈ values ∧
        value ∈ (decideAttribute fullmatch policy subject name [value] consented).values := by
  unfold decideAttribute
  split
  · simp
  · split_ifs
    · simp
    · simp
    · unfold decideByRules
      split
      · exact ReleaseRule.mem_values_decide _
      · split_ifs
        · simp
        · simp

theorem released_of_values
    (h : (decideAttribute fullmatch policy subject name values consented).values ≠ []) :
    (decideAttribute fullmatch policy subject name values consented).released = true := by
  unfold decideAttribute at h ⊢
  split at h
  · exact absurd rfl h
  · split_ifs at h ⊢
    · exact absurd rfl h
    · exact absurd rfl h
    · unfold decideByRules at h ⊢
      split at h
      · unfold ReleaseRule.decide at h ⊢
        split at h
        · exact absurd rfl h
        · rfl
        · split_ifs at h ⊢
          · rfl
          · exact absurd rfl h
        · simpa using h
      · split_ifs at h ⊢
        · rfl
        · exact absurd rfl h

/-- The engine honours the flag: a directory item of a suppressed subject is not released to
a service that is no school official. -/
theorem not_released_of_suppressed (hflag : subject.ferpaDirectorySuppressed = true)
    (hofficial : policy.internalSchoolOfficial = false) (hitem : DirectoryItem name) :
    (decideAttribute fullmatch policy subject name values consented).released = false := by
  obtain ⟨attr, hattribute, hmarked⟩ := hitem
  unfold decideAttribute
  rw [Option.mem_def.mp hattribute]
  dsimp only
  have hsuppressed : suppressed policy subject attr = true := by
    simp [suppressed, hflag, hmarked, hofficial]
  split_ifs
  · rfl
  · rfl

theorem decideAttribute_of_directoryItem (hflag : subject.ferpaDirectorySuppressed = false)
    (hitem : DirectoryItem name) :
    decideAttribute fullmatch policy subject name values consented =
      decideByRules fullmatch policy name values consented := by
  obtain ⟨attr, hattribute, hmarked⟩ := hitem
  have hopen : ∀ a ∈ catalogue, a.ferpaDirectoryItem = true → a.classification ≠ .restricted := by
    decide
  have hmem : attr ∈ catalogue := List.mem_of_find?_eq_some (Option.mem_def.mp hattribute)
  unfold decideAttribute
  rw [Option.mem_def.mp hattribute]
  dsimp only
  rw [if_neg (hopen attr hmem hmarked), if_neg]
  simp [suppressed, hflag]

end Engine

end Policy
end CampusID
