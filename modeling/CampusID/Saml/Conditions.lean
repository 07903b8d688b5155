import CampusID.Saml.Coverage

/-!
# What an assertion is conditional on

The tenth to twelfth steps of the gate beside what they are to check.  Several restrictions of
the audience are a conjunction, each a list of alternatives; several confirmations of the subject
are alternatives, each a conjunction.

The gate puts the audiences of all restrictions in one list, and of the confirmations it looks at
the first bearer confirmation that has data.  `accepts_iff` says what it accepts, and
`accepts_iff_specified` when that is what it should.
-/

namespace CampusID
namespace Saml

open Lib Element Raising

section Statements

/-- The audiences of a restriction. -/
def audiencesOf (restriction : Element) : List String :=
  (restriction.findall qAudience).map fun audience => Text.strip (textOf (some audience))

/-- Every condition is one the broker knows. -/
def Recognised (conditions : Element) : Prop :=
  ∀ child ∈ conditions.elements, child.tag ∈ recognisedConditions

/-- The data of the bearer confirmations, in their order. -/
def bearerConfirmations (assertion : Element) : List Element :=
  match assertion.find qSubject with
  | none => []
  | some subject =>
    ((subject.findall qSubjectConfirmation).filter
      (·.get "Method" = some bearerConfirmationMethod)).filterMap (·.find qSubjectConfirmationData)

variable {T : Type} [AddCommGroup T] [LinearOrder T] (g : Gate T)

namespace Gate

/-- The attribute is there and is an instant. -/
def InstantOf (element : Element) (name : String) (instant : DateTime T) : Prop :=
  ∃ raw, element.get name = some raw ∧ g.calendar.fromisoformat raw = some (.aware instant)

/-- The instant is in the window of the conditions. -/
def Timely (conditions : Element) (now : T) : Prop :=
  (∀ raw, conditions.get "NotBefore" = some raw → ∃ notBefore,
      g.calendar.fromisoformat raw = some (.aware notBefore) ∧
      notBefore.time - g.policy.clockSkew ≤ now) ∧
    ∃ notOnOrAfter, g.InstantOf conditions "NotOnOrAfter" notOnOrAfter ∧
      now < notOnOrAfter.time + g.policy.clockSkew

/-- The data of a confirmation are for this broker, unexpired, and of the expected request. -/
def Confirms (request : Option (OutstandingRequest T)) (now : T) (data : Element) : Prop :=
  data.get "Recipient" = some g.policy.destination ∧
    (∃ expiry, g.InstantOf data "NotOnOrAfter" expiry ∧ now < expiry.time + g.policy.clockSkew) ∧
    data.get "InResponseTo" = request.map (·.requestId)

/-- Our audience is in some restriction. -/
def InSomeRestriction (conditions : Element) : Prop :=
  ∃ restriction ∈ conditions.findall qAudienceRestriction,
    g.policy.audience ∈ audiencesOf restriction

/-- Our audience is in every restriction, and there is one. -/
def InEveryRestriction (conditions : Element) : Prop :=
  conditions.findall qAudienceRestriction ≠ [] ∧
    ∀ restriction ∈ conditions.findall qAudienceRestriction,
      g.policy.audience ∈ audiencesOf restriction

/-- The first bearer confirmation with data confirms the subject. -/
def FirstConfirms (assertion : Element) (request : Option (OutstandingRequest T)) (now : T) :
    Prop :=
  ∃ data, (bearerConfirmations assertion).head? = some data ∧ g.Confirms request now data

/-- Some bearer confirmation confirms the subject. -/
def SomeConfirms (assertion : Element) (request : Option (OutstandingRequest T)) (now : T) :
    Prop :=
  ∃ data ∈ bearerConfirmations assertion, g.Confirms request now data

/-- **What the conditions of an assertion are to mean.** -/
def Specified (assertion : Element) (request : Option (OutstandingRequest T)) (now : T) : Prop :=
  ∃ conditions, assertion.find qConditions = some conditions ∧ g.Timely conditions now ∧
    Recognised conditions ∧ g.InEveryRestriction conditions ∧ g.SomeConfirms assertion request now

/-- The tenth to twelfth steps of the gate. -/
def conditionChecks (assertion : Element) (request : Option (OutstandingRequest T)) :
    Steps T (DateTime T) := do
  check (g.checkAudience assertion)
  let notOnOrAfter ← g.checkConditions assertion
  g.checkSubjectConfirmation assertion request
  return notOnOrAfter

/-- The steps return when the clock says `now`, both times it is read. -/
def Accepts (assertion : Element) (request : Option (OutstandingRequest T)) (now : T) : Prop :=
  ∃ notOnOrAfter, (g.conditionChecks assertion request).Returns [⟨.now, now⟩, ⟨.now, now⟩]
    notOnOrAfter

end Gate

end Statements

namespace Gate

variable {T : Type} [AddCommGroup T] [LinearOrder T] {g : Gate T} {assertion conditions : Element}
  {request : Option (OutstandingRequest T)} {now : T}

/-! ## What each step accepts -/

omit [AddCommGroup T] [LinearOrder T] in
theorem parseInstant_eq_ok {name raw : String} {instant : DateTime T} :
    g.parseInstant name raw = .ok instant ↔
      g.calendar.fromisoformat raw = some (.aware instant) := by
  unfold parseInstant
  split
  · next h => simp [h]
  · next h => simp [h]
  · next parsed h => simp [h]

omit [AddCommGroup T] [LinearOrder T] in
theorem requiredInstant_eq_ok {element : Element} {name : String} {instant : DateTime T} :
    g.requiredInstant element name = .ok instant ↔ g.InstantOf element name instant := by
  unfold requiredInstant InstantOf
  rw [Eff.except_bind_eq_ok]
  constructor
  · rintro ⟨raw, hraw, hparsed⟩
    exact ⟨raw, requiredAttribute_ok hraw, parseInstant_eq_ok.mp hparsed⟩
  · rintro ⟨raw, hraw, hparsed⟩
    exact ⟨raw, by rw [requiredAttribute, hraw], parseInstant_eq_ok.mpr hparsed⟩

omit [AddCommGroup T] [LinearOrder T] in
theorem checkAudience_eq_ok {u : Unit} : g.checkAudience assertion = .ok u ↔
    ∃ conditions, assertion.find qConditions = some conditions ∧
      g.InSomeRestriction conditions := by
  unfold checkAudience
  cases hfind : assertion.find qConditions with
  | none => simp
  | some conditions =>
    simp only [Eff.except_bind_eq_ok, rejectIf_eq_ok, Option.some.injEq, exists_eq_left']
    have hmem : g.policy.audience ∈ (conditions.findallPath qAudienceRestriction qAudience).map
        (fun audience => Text.strip (textOf (some audience))) ↔ g.InSomeRestriction conditions := by
      simp only [findallPath, List.map_flatMap, List.mem_flatMap]
      exact Iff.rfl
    rw [not_not, hmem]
    constructor
    · rintro ⟨-, -, hsome⟩
      exact hsome
    · intro hsome
      refine ⟨(), ?_, hsome⟩
      rw [← hmem] at hsome
      exact List.ne_nil_of_mem hsome

omit [AddCommGroup T] [LinearOrder T] in
theorem checkRecognised_eq_ok {children : List Element} {u : Unit} :
    checkRecognised children = .ok u ↔ ∀ child ∈ children, child.tag ∈ recognisedConditions := by
  induction children with
  | nil => simp [checkRecognised]
  | cons child children ih =>
    rw [checkRecognised, Eff.except_bind_eq_ok, List.forall_mem_cons, ← ih]
    simp

theorem checkEnd_eq_ok {notOnOrAfter : DateTime T} : (do
      let notOnOrAfter ← g.requiredInstant conditions "NotOnOrAfter"
      rejectIf (notOnOrAfter.time + g.policy.clockSkew ≤ now) .assertionExpired
        ("NotOnOrAfter " ++ notOnOrAfter.isoformat ++ " has passed")
      return notOnOrAfter : Except SamlRejected (DateTime T)) = .ok notOnOrAfter ↔
    g.InstantOf conditions "NotOnOrAfter" notOnOrAfter ∧
      now < notOnOrAfter.time + g.policy.clockSkew := by
  simp only [Eff.except_bind_eq_ok, requiredInstant_eq_ok, rejectIf_eq_ok, not_le]
  constructor
  · rintro ⟨instant, hinstant, -, hbefore, hsame⟩
    cases hsame
    exact ⟨hinstant, hbefore⟩
  · rintro ⟨hinstant, hbefore⟩
    exact ⟨_, hinstant, (), hbefore, rfl⟩

theorem checkWindow_eq_ok {notOnOrAfter : DateTime T} :
    g.checkWindow conditions now = .ok notOnOrAfter ↔
      (∀ raw, conditions.get "NotBefore" = some raw → ∃ notBefore,
        g.calendar.fromisoformat raw = some (.aware notBefore) ∧
        notBefore.time - g.policy.clockSkew ≤ now) ∧
      g.InstantOf conditions "NotOnOrAfter" notOnOrAfter ∧
      now < notOnOrAfter.time + g.policy.clockSkew := by
  rw [← checkEnd_eq_ok]
  unfold checkWindow optionalInstant
  cases hraw : conditions.get "NotBefore" with
  | none =>
    refine ⟨fun h => ⟨fun raw h' => ?_, h⟩, And.right⟩
    cases h'
  | some raw =>
    have hinstant : ∀ instant, g.calendar.fromisoformat raw = some (.aware instant) ↔
        g.parseInstant "NotBefore" raw = .ok instant := fun _ => parseInstant_eq_ok.symm
    simp only [Option.some.injEq, forall_eq', hinstant]
    cases hparsed : g.parseInstant "NotBefore" raw with
    | error e =>
      refine iff_of_false (fun h => ?_) ?_
      · cases h
      · rintro ⟨⟨notBefore, h, -⟩, -⟩
        cases h
    | ok notBefore =>
      simp only [Except.map, Except.ok.injEq, exists_eq_left']
      by_cases hearly : now < notBefore.time - g.policy.clockSkew
      · refine iff_of_false (fun h => ?_) fun h => absurd h.1 (not_le.mpr hearly)
        obtain ⟨_, hok, h⟩ := Eff.except_bind_eq_ok.mp h
        cases hok
        obtain ⟨_, hpass, -⟩ := Eff.except_bind_eq_ok.mp h
        exact rejectIf_eq_ok.mp hpass hearly
      · have hpass : ∀ reason detail, rejectIf (now < notBefore.time - g.policy.clockSkew) reason
            detail = .ok () := fun reason detail => rejectIf_eq_ok.mpr hearly
        refine ⟨fun h => ⟨not_lt.mp hearly, ?_⟩, fun h => ?_⟩
        · obtain ⟨_, hok, h⟩ := Eff.except_bind_eq_ok.mp h
          cases hok
          obtain ⟨_, -, h⟩ := Eff.except_bind_eq_ok.mp h
          exact h
        · refine Eff.except_bind_eq_ok.mpr ⟨_, rfl, ?_⟩
          exact Eff.except_bind_eq_ok.mpr ⟨(), hpass _ _, h.2⟩

theorem checkConditions_returns {h : List (Σ c : Command T, Reply c)} {notOnOrAfter : DateTime T} :
    (g.checkConditions assertion).Returns h notOnOrAfter ↔ ∃ conditions now,
      assertion.find qConditions = some conditions ∧ Recognised conditions ∧
        g.checkWindow conditions now = .ok notOnOrAfter ∧ h = [⟨.now, now⟩] := by
  unfold checkConditions
  cases hfind : assertion.find qConditions with
  | none => simp
  | some conditions =>
    simp only [Option.some.injEq, exists_eq_left', exists_and_left]
    rw [returns_check_bind]
    constructor
    · rintro ⟨_, hrecognised, hrest⟩
      obtain ⟨now, h', rfl, hwindow⟩ := returns_ask_bind.mp hrest
      obtain ⟨rfl, hok⟩ := returns_check.mp hwindow
      exact ⟨checkRecognised_eq_ok.mp hrecognised, now, hok, rfl⟩
    · rintro ⟨hrecognised, now, hok, rfl⟩
      exact ⟨(), checkRecognised_eq_ok.mpr hrecognised,
        returns_ask_bind.mpr ⟨now, [], rfl, returns_check.mpr ⟨rfl, hok⟩⟩⟩

theorem checkConfirmationData_returns {data : Element} {h : List (Σ c : Command T, Reply c)}
    {u : Unit} : (g.checkConfirmationData data request).Returns h u ↔
      ∃ now, h = [⟨.now, now⟩] ∧ g.Confirms request now data := by
  unfold checkConfirmationData
  rw [returns_check_bind]
  constructor
  · rintro ⟨_, hrecipient, hrest⟩
    obtain ⟨expiry, hexpiry, hclock⟩ := returns_check_bind.mp hrest
    obtain ⟨now, h', rfl, hunexpired⟩ := returns_ask_bind.mp hclock
    obtain ⟨_, hbefore, hlast⟩ := returns_check_bind.mp hunexpired
    obtain ⟨rfl, hresponse⟩ := returns_check.mp hlast
    rw [rejectIf_eq_ok, not_not] at hrecipient hresponse
    rw [rejectIf_eq_ok, not_le] at hbefore
    exact ⟨now, rfl, hrecipient, ⟨expiry, requiredInstant_eq_ok.mp hexpiry, hbefore⟩, hresponse⟩
  · rintro ⟨now, rfl, hrecipient, ⟨expiry, hexpiry, hbefore⟩, hresponse⟩
    refine ⟨(), rejectIf_eq_ok.mpr (not_not.mpr hrecipient), ?_⟩
    refine returns_check_bind.mpr ⟨expiry, requiredInstant_eq_ok.mpr hexpiry, ?_⟩
    refine returns_ask_bind.mpr ⟨now, [], rfl, ?_⟩
    refine returns_check_bind.mpr ⟨(), rejectIf_eq_ok.mpr (not_le.mpr hbefore), ?_⟩
    exact returns_check.mpr ⟨rfl, rejectIf_eq_ok.mpr (not_not.mpr hresponse)⟩

/-- **The first bearer confirmation with data decides.** -/
theorem checkSubjectConfirmation_returns {h : List (Σ c : Command T, Reply c)} {u : Unit} :
    (g.checkSubjectConfirmation assertion request).Returns h u ↔
      ∃ now, h = [⟨.now, now⟩] ∧ g.FirstConfirms assertion request now := by
  unfold checkSubjectConfirmation FirstConfirms bearerConfirmations
  cases hfind : assertion.find qSubject with
  | none => simp
  | some subject =>
    simp only [bearerData, ← List.head?_filterMap]
    cases hhead : (((subject.findall qSubjectConfirmation).filter
        (·.get "Method" = some bearerConfirmationMethod)).filterMap
          (·.find qSubjectConfirmationData)).head? with
    | none => simp
    | some data =>
      simp only [Option.some.injEq, exists_eq_left']
      exact checkConfirmationData_returns

/-- **What the gate accepts.** -/
theorem accepts_iff : g.Accepts assertion request now ↔
    ∃ conditions, assertion.find qConditions = some conditions ∧ g.Timely conditions now ∧
      Recognised conditions ∧ g.InSomeRestriction conditions ∧
        g.FirstConfirms assertion request now := by
  unfold Accepts conditionChecks
  simp only [returns_check_bind, checkAudience_eq_ok]
  constructor
  · rintro ⟨notOnOrAfter, -, ⟨conditions, hfind, haudience⟩, hrest⟩
    obtain ⟨_, h₁, h₂, hsplit, hconditions, hrest⟩ := returns_bind.mp hrest
    obtain ⟨_, h₃, h₄, rfl, hsubject, hlast⟩ := returns_bind.mp hrest
    obtain ⟨rfl, rfl⟩ := returns_pure.mp hlast
    obtain ⟨found, now₁, hfound, hrecognised, hwindow, rfl⟩ := checkConditions_returns.mp hconditions
    obtain ⟨now₂, rfl, hfirst⟩ := checkSubjectConfirmation_returns.mp hsubject
    obtain rfl : conditions = found := Option.some.inj (hfind.symm.trans hfound)
    obtain ⟨rfl, rfl⟩ : now = now₁ ∧ now = now₂ := by simpa using hsplit
    obtain ⟨hstart, hinstant, hend⟩ := checkWindow_eq_ok.mp hwindow
    exact ⟨conditions, hfind, ⟨hstart, _, hinstant, hend⟩, hrecognised, haudience, hfirst⟩
  · rintro ⟨conditions, hfind, ⟨hstart, notOnOrAfter, hinstant, hend⟩, hrecognised, haudience,
      hfirst⟩
    refine ⟨notOnOrAfter, (), ⟨conditions, hfind, haudience⟩, ?_⟩
    refine returns_bind.mpr ⟨notOnOrAfter, [⟨.now, now⟩], [⟨.now, now⟩], rfl, ?_, ?_⟩
    · exact checkConditions_returns.mpr ⟨conditions, now, hfind, hrecognised,
        checkWindow_eq_ok.mpr ⟨hstart, hinstant, hend⟩, rfl⟩
    · refine returns_bind.mpr ⟨(), [⟨.now, now⟩], [], rfl, ?_, returns_pure.mpr ⟨rfl, rfl⟩⟩
      exact checkSubjectConfirmation_returns.mpr ⟨now, rfl, hfirst⟩

/-! ## Where the two part -/

omit [AddCommGroup T] [LinearOrder T] in
theorem InEveryRestriction.some (h : g.InEveryRestriction conditions) :
    g.InSomeRestriction conditions := by
  obtain ⟨hne, hall⟩ := h
  obtain ⟨restriction, hmem⟩ := List.exists_mem_of_ne_nil _ hne
  exact ⟨restriction, hmem, hall restriction hmem⟩

theorem FirstConfirms.some (h : g.FirstConfirms assertion request now) :
    g.SomeConfirms assertion request now := by
  obtain ⟨data, hhead, hconfirms⟩ := h
  exact ⟨data, List.mem_of_mem_head? hhead, hconfirms⟩

/-- **The gate accepts what is specified** exactly if, under conditions that are known and timely,
a first confirmation that holds comes with an audience that is in all restrictions or in none, and
with our audience in all restrictions the first confirmation holds or none does. -/
theorem accepts_iff_specified :
    (g.Accepts assertion request now ↔ g.Specified assertion request now) ↔
      ∀ conditions, assertion.find qConditions = some conditions → g.Timely conditions now →
        Recognised conditions →
          (g.FirstConfirms assertion request now →
            g.InSomeRestriction conditions → g.InEveryRestriction conditions) ∧
          (g.InEveryRestriction conditions →
            g.SomeConfirms assertion request now → g.FirstConfirms assertion request now) := by
  rw [accepts_iff]
  constructor
  · intro hiff conditions hfind htimely hrecognised
    refine ⟨fun hfirst hsome => ?_, fun hevery hsome => ?_⟩
    · obtain ⟨found, hfound, -, -, hevery, -⟩ :=
        hiff.mp ⟨conditions, hfind, htimely, hrecognised, hsome, hfirst⟩
      obtain rfl : conditions = found := Option.some.inj (hfind.symm.trans hfound)
      exact hevery
    · obtain ⟨_, -, -, -, -, hfirst⟩ :=
        hiff.mpr ⟨conditions, hfind, htimely, hrecognised, hevery, hsome⟩
      exact hfirst
  · intro hcond
    constructor
    · rintro ⟨conditions, hfind, htimely, hrecognised, hsome, hfirst⟩
      exact ⟨conditions, hfind, htimely, hrecognised,
        (hcond conditions hfind htimely hrecognised).1 hfirst hsome, hfirst.some⟩
    · rintro ⟨conditions, hfind, htimely, hrecognised, hevery, hsome⟩
      exact ⟨conditions, hfind, htimely, hrecognised, hevery.some,
        (hcond conditions hfind htimely hrecognised).2 hevery hsome⟩

end Gate

/-! ## Two restrictions -/

namespace Sample

/-- A restriction to one audience. -/
def restriction (audience : String) : Element :=
  .mk qAudienceRestriction [] "" [(.mk qAudience [] audience [], "")]

/-- A bearer confirmation at this recipient. -/
def confirmation (recipient : String) : Element :=
  .mk qSubjectConfirmation [("Method", bearerConfirmationMethod)] ""
    [(.mk qSubjectConfirmationData
      [("Recipient", recipient), ("NotOnOrAfter", "2026-01-01T00:05:00Z")] "" [], "")]

/-- An assertion under these restrictions, with these confirmations. -/
def conditional (restrictions confirmations : List Element) : Element :=
  .mk qAssertion [] "" [(.mk qSubject [] "" (confirmations.map (·, "")), ""),
    (.mk qConditions [("NotOnOrAfter", "2026-01-01T00:05:00Z")] "" (restrictions.map (·, "")), "")]

end Sample

/-- **Our audience in one restriction of two is enough for the gate.** -/
theorem Gate.not_accepts_iff_specified : ¬ ∀ (g : Gate ℚ) (assertion : Element)
    (request : Option (OutstandingRequest ℚ)) (now : ℚ),
      g.Accepts assertion request now ↔ g.Specified assertion request now := by
  intro h
  have hiff := h (Sample.gate []) (Sample.conditional
    [Sample.restriction "https://sp.test/saml", Sample.restriction "https://other.test/saml"]
    [Sample.confirmation "https://sp.test/saml/acs"]) none 0
  have haccepts : (Sample.gate []).Accepts (Sample.conditional
      [Sample.restriction "https://sp.test/saml", Sample.restriction "https://other.test/saml"]
      [Sample.confirmation "https://sp.test/saml/acs"]) none 0 := by
    refine Gate.accepts_iff.mpr ⟨_, rfl, ⟨?_, ⟨300, _⟩, ⟨_, rfl, rfl⟩, by decide +kernel⟩, ?_, ?_, ?_⟩
    · rintro raw ⟨⟩
    · unfold Recognised
      decide
    · exact ⟨_, List.mem_cons_self, by decide +kernel⟩
    · exact ⟨_, rfl, rfl, ⟨⟨300, _⟩, ⟨_, rfl, rfl⟩, by decide +kernel⟩, rfl⟩
  obtain ⟨conditions, hfind, -, -, ⟨-, hall⟩, -⟩ := hiff.mp haccepts
  cases hfind
  have hother := hall (Sample.restriction "https://other.test/saml") 
    (List.mem_cons_of_mem _ List.mem_cons_self)
  exact absurd hother (by decide +kernel)

end Saml
end CampusID
