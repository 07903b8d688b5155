import CampusID.Policy.Release

/-!
# Attribute normalisation

What the broker holds about a person, value by value: stripped, in one case, and without the
values that are not of their vocabulary or not of our scope.

`carries_normalize` says what is left.  `lower` is `str.lower`, a parameter: what is said here
holds for any function.
-/

namespace CampusID
namespace Policy

/-- `AFFILIATION_VOCABULARY`. -/
def affiliationVocabulary : List String :=
  ["faculty", "student", "staff", "alum", "member", "affiliate", "employee", "library-walk-in"]

/-- `DroppedValue`. -/
structure DroppedValue where
  attr : String
  value : String
  reason : String
  deriving DecidableEq, Repr

/-- `NormalizationResult`. -/
structure NormalizationResult where
  attributes : Attributes
  dropped : List DroppedValue
  deriving DecidableEq, Repr

/-- The attributes have this value under this name. -/
def Attributes.Carries (attributes : Attributes) (name value : String) : Prop :=
  ∃ values, (name, values) ∈ attributes ∧ value ∈ values

/-- What is kept is in the vocabulary. -/
def outsideVocabulary : String := "outside the eduPerson controlled vocabulary"

/-- `_scoped`. -/
def scopedValue (value scope : String) (vocabulary : Option (List String)) :
    Except String String :=
  match Text.rpartition '@' value with
  | none => .error "not scoped"
  | some (front, assertedScope) =>
    if front = "" then .error "not scoped"
    else if assertedScope ≠ scope then
      .error ("scoped to " ++ Text.pyRepr assertedScope ++ ", not " ++ Text.pyRepr scope)
    else if ∃ words ∈ vocabulary, front ∉ words then .error outsideVocabulary
    else .ok value

section Normalize

variable (lower : String → String)

/-- `_mail`. -/
def mailValue (value : String) : Except String String :=
  match Text.rpartition '@' value with
  | none => .error "not an address"
  | some (front, domain) =>
    if front = "" ∨ domain = "" then .error "not an address"
    else .ok (front ++ "@" ++ lower domain)

/-- `_normalize_value`. -/
def normalizeValue (name value scope : String) : Except String String :=
  if value = "" then .error "empty"
  else if name = eppn then scopedValue (lower value) scope none
  else if name = scopedAffiliation then scopedValue (lower value) scope (some affiliationVocabulary)
  else if name = affiliation ∨ name = primaryAffiliation then
    if lower value ∉ affiliationVocabulary then .error outsideVocabulary
    else .ok (lower value)
  else if name = mail then mailValue lower value
  else .ok value

/-- The loop of `normalize` over the values of one attribute: what is kept so far, and what was
dropped. -/
def normalizeValues (name scope : String) : List String → List String × List DroppedValue →
    List String × List DroppedValue
  | [], out => out
  | raw :: rest, (kept, dropped) =>
    normalizeValues name scope rest <|
      match normalizeValue lower name (Text.strip raw) scope with
      | .error reason => (kept, dropped ++ [⟨name, raw, reason⟩])
      | .ok value => (if value ∈ kept then kept else kept ++ [value], dropped)

/-- `normalize`. -/
def normalize (attributes : Attributes) (scope : String) : NormalizationResult :=
  let all := attributes.map fun entry =>
    (entry.1, normalizeValues lower entry.1 scope entry.2 ([], []))
  { attributes := (all.filter fun entry => entry.2.1 ≠ []).map fun entry => (entry.1, entry.2.1)
    dropped := all.flatMap fun entry => entry.2.2 }

/-! ## What is left -/

variable {lower} {name scope value : String} {attributes : Attributes}

theorem mem_normalizeValues {values : List String} {out : List String × List DroppedValue} :
    value ∈ (normalizeValues lower name scope values out).1 ↔ value ∈ out.1 ∨
      ∃ raw ∈ values, normalizeValue lower name (Text.strip raw) scope = .ok value := by
  induction values generalizing out with
  | nil => simp [normalizeValues]
  | cons raw rest ih =>
    obtain ⟨kept, dropped⟩ := out
    rw [normalizeValues, ih]
    cases hraw : normalizeValue lower name (Text.strip raw) scope with
    | error reason => simp [hraw]
    | ok v =>
      have hkept : value ∈ (if v ∈ kept then kept else kept ++ [v]) ↔ value ∈ kept ∨ v = value := by
        split_ifs with hv
        · constructor
          · exact .inl
          · rintro (h | rfl)
            · exact h
            · exact hv
        · simp [eq_comm]
      simp only [hkept, List.exists_mem_cons_iff, hraw, Except.ok.injEq, or_assoc]

/-- **What normalisation leaves** under a name are the normalised values that were there. -/
theorem carries_normalize : (normalize lower attributes scope).attributes.Carries name value ↔
    ∃ raw, attributes.Carries name raw ∧
      normalizeValue lower name (Text.strip raw) scope = .ok value := by
  constructor
  · rintro ⟨values, hvalues, hvalue⟩
    simp only [normalize, List.mem_map, List.mem_filter] at hvalues
    obtain ⟨entry, ⟨⟨source, hsource, rfl⟩, -⟩, heq⟩ := hvalues
    obtain ⟨rfl, rfl⟩ := Prod.mk.inj heq
    rcases mem_normalizeValues.mp hvalue with h | ⟨raw, hraw, hok⟩
    · cases h
    · exact ⟨raw, ⟨source.2, hsource, hraw⟩, hok⟩
  · rintro ⟨raw, ⟨values, hvalues, hraw⟩, hok⟩
    have hmem : value ∈ (normalizeValues lower name scope values ([], [])).1 :=
      mem_normalizeValues.mpr (.inr ⟨raw, hraw, hok⟩)
    refine ⟨_, ?_, hmem⟩
    simp only [normalize, List.mem_map, List.mem_filter]
    exact ⟨_, ⟨⟨(name, values), hvalues, rfl⟩, by simpa using List.ne_nil_of_mem hmem⟩, rfl⟩

theorem nodup_normalize (h : (attributes.map Prod.fst).Nodup) :
    ((normalize lower attributes scope).attributes.map Prod.fst).Nodup := by
  simp only [normalize, List.map_map]
  refine List.Nodup.sublist (List.Sublist.map _ List.filter_sublist) ?_
  rw [List.map_map]
  exact h

theorem normalizeValue_scopedAffiliation :
    normalizeValue lower scopedAffiliation value scope = .ok name ↔
      value ≠ "" ∧ lower value = name ∧
        ∃ word ∈ affiliationVocabulary, Text.rpartition '@' (lower value) = some (word, scope) := by
  have hword : ∀ word ∈ affiliationVocabulary, word ≠ "" := by decide
  have heppn : scopedAffiliation ≠ eppn := by decide
  unfold normalizeValue
  by_cases hempty : value = ""
  · simp [hempty]
  rw [if_neg hempty, if_neg heppn, if_pos rfl, scopedValue]
  cases hsplit : Text.rpartition '@' (lower value) with
  | none => simp
  | some parts =>
    obtain ⟨front, assertedScope⟩ := parts
    dsimp only
    split_ifs with hfront hscope hwords
    · simp only [Option.some.injEq, Prod.mk.injEq, false_iff, not_and, not_exists]
      rintro - - word hmem ⟨rfl, -⟩
      exact absurd hfront (hword _ hmem)
    · simp [hscope]
    · obtain ⟨words, hsome, hfront⟩ := hwords
      obtain rfl : affiliationVocabulary = words := Option.some.inj hsome
      simp only [Option.some.injEq, Prod.mk.injEq, false_iff, not_and, not_exists]
      rintro - - word hmem ⟨rfl, -⟩
      exact absurd hmem hfront
    · have hfront : front ∈ affiliationVocabulary := by simpa using hwords
      have hours : assertedScope = scope := not_not.mp hscope
      simp [hempty, hfront, hours]

theorem normalizeValue_bare (h : name = affiliation ∨ name = primaryAffiliation) {kept : String} :
    normalizeValue lower name value scope = .ok kept ↔
      value ≠ "" ∧ lower value = kept ∧ lower value ∈ affiliationVocabulary := by
  have hother : name ≠ eppn ∧ name ≠ scopedAffiliation := by
    rcases h with rfl | rfl
    · decide
    · decide
  unfold normalizeValue
  by_cases hempty : value = ""
  · simp [hempty]
  rw [if_neg hempty, if_neg hother.1, if_neg hother.2, if_pos h]
  split_ifs with hword
  · simp [hempty, hword]
  · simp [hword]

end Normalize

end Policy
end CampusID
