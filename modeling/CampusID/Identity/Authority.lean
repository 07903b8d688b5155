import CampusID.Identity.Merge

/-!
# Who may say what about us

Merging reads the scope of a value as it was sent, normalising reads it after trimming, and of
the affiliations that have no scope merging reads nothing at all.  So a value can be somebody
else's for the one and ours for the other.

`Confined` says that none is, and `speaksForUs_iff` that exactly then everything a session says
about us is from the registry.  `released_agree` is the same for two assertions.
-/

namespace CampusID
namespace Identity

open Lib Policy

/-- The attributes that say what somebody is to an institution. -/
def affiliationNames : List String := [scopedAffiliation, affiliation, primaryAffiliation]

section Authority

variable (lower : String → String) (scope : String)

/-- The value is ours to state: under a name the broker owns, or an affiliation with us. -/
def OursToState (name value : String) : Prop :=
  name ∈ brokerOwned ∨ name ∈ affiliationNames ∧ inScope lower value scope = true

/-- A value as normalisation writes it. -/
def tidied (value : String) : String := lower (Text.strip value)

/-- The value is an affiliation with us once it is tidied: a word of the vocabulary, at our
scope. -/
def ReadsAsOurs (value : String) : Prop :=
  Text.strip value ≠ "" ∧ ∃ word ∈ affiliationVocabulary,
    Text.rpartition '@' (tidied lower value) = some (word, scope)

/-- The value is a word of the vocabulary once it is tidied. -/
def ReadsAsWord (value : String) : Prop :=
  Text.strip value ≠ "" ∧ tidied lower value ∈ affiliationVocabulary

/-- What a session holds of an assertion, as it is released. -/
def held (asserted fromRegistry : AttributeMap) : Attributes :=
  (normalize lower (merge lower asserted fromRegistry scope).entries scope).attributes

/-- **The registry speaks for us**: what is ours to state in a session is what the registry
says. -/
def SpeaksForUs (asserted fromRegistry : AttributeMap) : Prop :=
  ∀ name value, (held lower scope asserted fromRegistry).Carries name value →
    OursToState lower scope name value →
      (normalize lower fromRegistry.entries scope).attributes.Carries name value

/-- Nothing that is asserted is somebody else's for merging and ours for normalising, nor an
affiliation without a scope, unless the registry says the same. -/
structure Confined (asserted fromRegistry : AttributeMap) : Prop where
  foreign : ∀ value, asserted.Carries scopedAffiliation value →
    inScope lower value scope = false → ReadsAsOurs lower scope value →
      ∃ ours, fromRegistry.Carries scopedAffiliation ours ∧ Text.strip ours ≠ "" ∧
        tidied lower ours = tidied lower value
  bare : ∀ name ∈ [affiliation, primaryAffiliation], ¬ fromRegistry.Names name →
    ∀ value, asserted.Carries name value → ¬ ReadsAsWord lower value

/-- The two assertions differ in nothing but what is ours to state once it is tidied. -/
def DifferAboutUs (asserted other : AttributeMap) : Prop :=
  ∀ name value, ¬ OursToState lower scope name (tidied lower value) →
    (asserted.Carries name value ↔ other.Carries name value)

/-- Of both assertions the same is released, to whomever. -/
def ReleasedAlike (fromRegistry asserted other : AttributeMap) : Prop :=
  ∀ fullmatch policy subject consented name value,
    (evaluate fullmatch policy subject (held lower scope asserted fromRegistry)
        consented).attributes.Carries name value ↔
      (evaluate fullmatch policy subject (held lower scope other fromRegistry)
        consented).attributes.Carries name value

variable {lower scope} {asserted other fromRegistry : AttributeMap} {name value : String}

/-! ## What is left of an assertion -/

theorem carries_normalize_scopedAffiliation {attributes : AttributeMap} :
    (normalize lower attributes.entries scope).attributes.Carries scopedAffiliation value ↔
      ∃ raw, attributes.Carries scopedAffiliation raw ∧ ReadsAsOurs lower scope raw ∧
        tidied lower raw = value := by
  rw [carries_normalize]
  refine exists_congr fun raw => and_congr_right fun _ => ?_
  rw [normalizeValue_scopedAffiliation]
  unfold ReadsAsOurs tidied
  tauto

theorem carries_normalize_bare {attributes : AttributeMap}
    (h : name ∈ [affiliation, primaryAffiliation]) :
    (normalize lower attributes.entries scope).attributes.Carries name value ↔
      ∃ raw, attributes.Carries name raw ∧ ReadsAsWord lower raw ∧ tidied lower raw = value := by
  rw [carries_normalize]
  refine exists_congr fun raw => and_congr_right fun _ => ?_
  rw [normalizeValue_bare (by simpa using h)]
  unfold ReadsAsWord tidied
  tauto

theorem inScope_of_readsAsOurs (h : ReadsAsOurs lower scope value) :
    inScope lower (tidied lower value) scope = true := by
  obtain ⟨-, word, -, hsplit⟩ := h
  unfold inScope
  rw [hsplit]
  simp

theorem inScope_of_word (h : value ∈ affiliationVocabulary) : inScope lower value scope = true := by
  have hbare : ∀ word ∈ affiliationVocabulary, Text.rpartition '@' word = none := by decide
  unfold inScope
  rw [hbare value h]

theorem held_of_brokerOwned (h : name ∈ brokerOwned) :
    (held lower scope asserted fromRegistry).Carries name value ↔
      (normalize lower fromRegistry.entries scope).attributes.Carries name value := by
  unfold held
  rw [carries_normalize, carries_normalize]
  refine exists_congr fun raw => and_congr_left fun _ => ?_
  exact carries_merge.trans (by simp [h, AttributeMap.Carries])

theorem nodup_held : ((held lower scope asserted fromRegistry).map Prod.fst).Nodup :=
  nodup_normalize (merge lower asserted fromRegistry scope).nodup

theorem held_of_fromRegistry
    (h : (normalize lower fromRegistry.entries scope).attributes.Carries name value) :
    (held lower scope asserted fromRegistry).Carries name value := by
  obtain ⟨raw, hraw, hok⟩ := carries_normalize.mp h
  exact carries_normalize.mpr ⟨raw, carries_merge.mpr (.inl hraw), hok⟩

/-! ## When the registry speaks for us -/

theorem Confined.speaksForUs (h : Confined lower scope asserted fromRegistry) :
    SpeaksForUs lower scope asserted fromRegistry := by
  intro name value hheld hours
  rcases hours with hbroker | ⟨haffiliation, -⟩
  · exact (held_of_brokerOwned hbroker).mp hheld
  · have hcases : name = scopedAffiliation ∨ name ∈ [affiliation, primaryAffiliation] := by
      simpa [affiliationNames] using haffiliation
    rcases hcases with rfl | hbare
    · obtain ⟨raw, hraw, hreads, rfl⟩ := carries_normalize_scopedAffiliation.mp hheld
      refine carries_normalize_scopedAffiliation.mpr ?_
      rcases carries_merge.mp hraw with hregistry | ⟨hasserted, -, hforeign⟩
      · exact ⟨raw, hregistry, hreads, rfl⟩
      · -- kept as somebody else's, and read as ours: the registry says it too
        obtain ⟨ours, hregistry, hne, heq⟩ := h.foreign raw hasserted hforeign hreads
        exact ⟨ours, hregistry, ⟨hne, heq ▸ hreads.2⟩, heq⟩
    · obtain ⟨raw, hraw, hreads, rfl⟩ := (carries_normalize_bare hbare).mp hheld
      refine (carries_normalize_bare hbare).mpr ?_
      have hscoped : name ∉ scopeOwned := by
        have hall : ∀ n ∈ [affiliation, primaryAffiliation], n ∉ scopeOwned := by decide
        exact hall name hbare
      rcases carries_merge.mp hraw with hregistry | ⟨hasserted, -, hunnamed⟩
      · exact ⟨raw, hregistry, hreads, rfl⟩
      · rw [if_neg hscoped] at hunnamed
        exact absurd hreads (h.bare name hbare hunnamed raw hasserted)

theorem SpeaksForUs.confined (h : SpeaksForUs lower scope asserted fromRegistry) :
    Confined lower scope asserted fromRegistry where
  foreign := by
    intro raw hasserted hforeign hreads
    have hraw : (merge lower asserted fromRegistry scope).Carries scopedAffiliation raw :=
      carries_merge.mpr (.inr ⟨hasserted, by decide, by rwa [if_pos (by decide)]⟩)
    have hheld := carries_normalize_scopedAffiliation.mpr ⟨raw, hraw, hreads, rfl⟩
    have hours : OursToState lower scope scopedAffiliation (tidied lower raw) :=
      .inr ⟨by decide, inScope_of_readsAsOurs hreads⟩
    obtain ⟨ours, hregistry, hown, heq⟩ :=
      carries_normalize_scopedAffiliation.mp (h _ _ hheld hours)
    exact ⟨ours, hregistry, hown.1, heq⟩
  bare := by
    intro name hbare hunnamed raw hasserted hreads
    have howned : name ∉ brokerOwned ∧ name ∉ scopeOwned ∧ name ∈ affiliationNames := by
      have hall : ∀ n ∈ [affiliation, primaryAffiliation],
          n ∉ brokerOwned ∧ n ∉ scopeOwned ∧ n ∈ affiliationNames := by decide
      exact hall name hbare
    have hraw : (merge lower asserted fromRegistry scope).Carries name raw :=
      carries_merge.mpr (.inr ⟨hasserted, howned.1, by rwa [if_neg howned.2.1]⟩)
    have hheld : (held lower scope asserted fromRegistry).Carries name (tidied lower raw) :=
      (carries_normalize_bare hbare).mpr ⟨raw, hraw, hreads, rfl⟩
    have hours : OursToState lower scope name (tidied lower raw) :=
      .inr ⟨howned.2.2, inScope_of_word hreads.2⟩
    obtain ⟨ours, hregistry, -⟩ := (carries_normalize_bare hbare).mp (h _ _ hheld hours)
    exact hunnamed (AttributeMap.names_of_carries hregistry)

/-! ## Two assertions -/

theorem eq_tidied_of_ok (h : name ∈ affiliationNames) {raw : String}
    (hok : normalizeValue lower name (Text.strip raw) scope = .ok value) :
    value = tidied lower raw := by
  have hcases : name = scopedAffiliation ∨ name = affiliation ∨ name = primaryAffiliation := by
    simpa [affiliationNames] using h
  rcases hcases with rfl | hbare
  · exact (normalizeValue_scopedAffiliation.mp hok).2.1.symm
  · exact ((normalizeValue_bare hbare).mp hok).2.1.symm

/-- What a session holds of one confined assertion it holds of another that differs from it in
nothing but what is ours to state. -/
theorem held_of_differAboutUs (h : Confined lower scope asserted fromRegistry)
    (hdiffer : DifferAboutUs lower scope asserted other)
    (hheld : (held lower scope asserted fromRegistry).Carries name value) :
    (held lower scope other fromRegistry).Carries name value := by
  by_cases hours : OursToState lower scope name value
  · exact held_of_fromRegistry (h.speaksForUs name value hheld hours)
  · obtain ⟨raw, hraw, hok⟩ := carries_normalize.mp hheld
    refine carries_normalize.mpr ⟨raw, carries_merge.mpr ?_, hok⟩
    rcases carries_merge.mp hraw with hregistry | ⟨hasserted, hbroker, hkept⟩
    · exact .inl hregistry
    · have htheirs : ¬ OursToState lower scope name (tidied lower raw) := by
        rintro (hb | ⟨haffiliation, hin⟩)
        · exact hbroker hb
        · exact hours (.inr ⟨haffiliation, eq_tidied_of_ok haffiliation hok ▸ hin⟩)
      exact .inr ⟨(hdiffer name raw htheirs).mp hasserted, hbroker, hkept⟩

theorem carries_evaluate {fullmatch : FullMatch} {policy : ReleasePolicy} {subject : Subject}
    {available : Attributes} {consented : List String}
    (h : (available.map Prod.fst).Nodup) :
    (evaluate fullmatch policy subject available consented).attributes.Carries name value ↔
      available.Carries name value ∧
        value ∈ (decideAttribute fullmatch policy subject name [value] consented).values := by
  have hpasses :
      value ∈ (decideAttribute fullmatch policy subject name (available.values name)
          consented).values ↔
        value ∈ available.values name ∧
          value ∈ (decideAttribute fullmatch policy subject name [value] consented).values :=
    mem_values_decideAttribute
  rw [carries_iff_mem_values h, ← hpasses]
  constructor
  · rintro ⟨kept, hkept, hvalue⟩
    obtain ⟨-, -, -, rfl⟩ := mem_evaluate.mp hkept
    exact hvalue
  · intro hvalue
    have hne := List.ne_nil_of_mem hvalue
    refine ⟨_, mem_evaluate.mpr ⟨?_, hne, released_of_values hne, rfl⟩, hvalue⟩
    obtain ⟨values, hmem, -⟩ := (carries_iff_mem_values h).mpr (hpasses.mp hvalue).1
    exact List.mem_map.mpr ⟨(name, values), hmem, rfl⟩

/-- **Nothing else gets out**: of two confined assertions that differ in nothing but what is
ours to state the same is released. -/
theorem released_agree (h : Confined lower scope asserted fromRegistry)
    (hother : Confined lower scope other fromRegistry)
    (hdiffer : DifferAboutUs lower scope asserted other) :
    ReleasedAlike lower scope fromRegistry asserted other := by
  intro fullmatch policy subject consented name value
  have hback : DifferAboutUs lower scope other asserted := fun n v hv => (hdiffer n v hv).symm
  rw [carries_evaluate nodup_held, carries_evaluate nodup_held]
  exact and_congr_left fun _ =>
    ⟨held_of_differAboutUs h hdiffer, held_of_differAboutUs hother hback⟩

variable (lower scope asserted fromRegistry) in
/-- **The registry speaks for us exactly of a confined assertion**, and of two of these that
differ in nothing but what is ours to state the same is released. -/
theorem speaksForUs_iff :
    (SpeaksForUs lower scope asserted fromRegistry ↔
      Confined lower scope asserted fromRegistry) ∧
    ∀ other, Confined lower scope asserted fromRegistry →
      Confined lower scope other fromRegistry → DifferAboutUs lower scope asserted other →
        ReleasedAlike lower scope fromRegistry asserted other :=
  ⟨⟨SpeaksForUs.confined, Confined.speaksForUs⟩,
    fun _ h hother hdiffer => released_agree h hother hdiffer⟩

/-- A space after the scope makes a student of a partner's person, and so does an affiliation
without a scope. -/
theorem not_speaksForUs :
    ¬ SpeaksForUs Text.lower "campus.test"
        ⟨[(scopedAffiliation, ["student@campus.test "])], by decide⟩ ⟨[], by decide⟩ ∧
      ¬ SpeaksForUs Text.lower "campus.test"
        ⟨[(affiliation, ["student"])], by decide⟩ ⟨[], by decide⟩ := by
  constructor
  · intro h
    obtain ⟨ours, ⟨values, hnone, -⟩, -⟩ := h.confined.foreign "student@campus.test "
      ⟨_, List.mem_singleton_self _, List.mem_singleton_self _⟩ (by decide)
      ⟨by decide, "student", by decide, by decide⟩
    cases hnone
  · intro h
    refine h.confined.bare affiliation (by decide) (by simp [AttributeMap.Names]) "student"
      ⟨_, List.mem_singleton_self _, List.mem_singleton_self _⟩ ⟨by decide, by decide⟩

end Authority

end Identity
end CampusID
