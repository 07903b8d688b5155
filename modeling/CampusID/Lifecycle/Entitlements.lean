import CampusID.Lib.Runs
import CampusID.Lifecycle.Store

/-!
# Entitlements over whole runs

A person starts with no affiliation and no row, and goes through any number of
transitions, with sweeps in between.  Two questions are asked of the rows after
every step.

*Is the person entitled to what their affiliations justify, and to nothing else
outside a grace period?*  The second half always holds.  The first rests on the
insert: a grant is written under the key of its justification, ignoring conflicts,
and a revoked row keeps its key.  Somebody who leaves and comes back for the same
reason is granted nothing.

*Do the rows name the justifications that hold now?*  Rows are written for
entitlements that are new and ended for entitlements that are gone.  An entitlement
that stays keeps the rows it had, whatever justifies it now.
-/

namespace CampusID

open Lib

/-! ## Runs of transitions and sweeps -/

/-- A person's affiliations, the tables, the revocations of the transitions so far,
and the date of the last step. -/
structure EntitlementState where
  tables : LifecycleTables
  affiliations : Finset String
  revoked : List Revocation
  today : Int

/-- One step: the affiliations become `after` on a day, or the sweep runs on a day.
`now` is the wall clock. -/
inductive EntitlementOp where
  | transition (after : Finset String) (on now : Int)
  | sweep (on now : Int)

namespace LifecycleRules

variable (rules : LifecycleRules) (person : String)

/-- A person with no affiliation. -/
def unaffiliated (tables : LifecycleTables) (today : Int) : EntitlementState :=
  ⟨tables, ∅, [], today⟩

/-- One step of a person's run. -/
def step (s : EntitlementState) : EntitlementOp → EntitlementState
  | .transition after on now =>
    let delta := rules.transition s.affiliations after on
    { tables := s.tables.apply person delta s.affiliations after .scim now
      affiliations := after
      revoked := s.revoked ++ delta.revoked
      today := on }
  | .sweep on now => { s with tables := (s.tables.expireDue on now).1, today := on }

/-- Dates do not run backwards. -/
def Ordered (s : EntitlementState) : EntitlementOp → Prop
  | .transition _ on _ => s.today ≤ on
  | .sweep on _ => s.today ≤ on

/-- **Entitled**: everything the affiliations justify is held, and whatever else is held
was revoked by some transition and is still inside its grace period. -/
def Entitled (s : EntitlementState) : Prop :=
  (∀ urn ∈ rules.urns s.affiliations, urn ∈ s.tables.held person s.today) ∧
    ∀ urn ∈ s.tables.held person s.today, urn ∉ rules.urns s.affiliations →
      ∃ r ∈ s.revoked, r.urn = urn ∧ s.today < r.effective

/-- Every entitlement a step newly grants has a justification that no row of the person
carries yet. -/
def FirstTime (s : EntitlementState) : EntitlementOp → Prop
  | .transition after _ _ => ∀ urn ∈ rules.urns after, urn ∉ rules.urns s.affiliations →
      ∃ g ∈ rules.grantsFor after, g.urn = urn ∧
        ∀ row ∈ s.tables.grants, row.key ≠ (person, urn, justificationRef g)
  | .sweep _ _ => True

/-! ## The rows after a step -/

section Rows

variable {rules person} {s : EntitlementState} {after : Finset String} {on now : Int}

/-- A row after a transition was there before, or is one that was inserted; either
way the revocations have been applied to it. -/
theorem mem_step_transition {row' : EntitlementGrant} :
    row' ∈ (rules.step person s (.transition after on now)).tables.grants ↔
      ∃ row, (row ∈ s.tables.grants ∨
          ((∃ g ∈ rules.grantsFor after, g.urn ∉ rules.urns s.affiliations ∧
            grantRow person g = row) ∧ ∀ r ∈ s.tables.grants, r.key ≠ row.key)) ∧
        revokeRow person (rules.transition s.affiliations after on).revoked now row = row' := by
  simp only [step, LifecycleTables.apply, List.mem_map, mem_grantRows, transition_granted,
    and_assoc]

theorem revokeRow_of_not_lost {row : EntitlementGrant}
    (h : ¬ (row.entitlementUrn ∈ rules.urns s.affiliations ∧
      row.entitlementUrn ∉ rules.urns after)) :
    revokeRow person (rules.transition s.affiliations after on).revoked now row = row := by
  rcases revokeRow_cases person (rules.transition s.affiliations after on).revoked now row with
    ⟨heq, -⟩ | ⟨r, hr, hurn, -⟩
  · exact heq
  · obtain ⟨hlost, -⟩ := transition_revoked.mp hr
    rw [hurn] at hlost
    exact absurd hlost h

theorem mem_step_sweep {row' : EntitlementGrant} :
    row' ∈ (rules.step person s (.sweep on now)).tables.grants ↔
      ∃ row ∈ s.tables.grants,
        (if row.Due on then { row with revokedAt := some now } else row) = row' := by
  simp only [step, LifecycleTables.expireDue, List.mem_map]

end Rows

/-! ## Being entitled -/

/-- The invariant behind `Entitled`: what is justified has a row nothing is scheduled
against, every deadline was set by a revocation, and an unrevoked row of an
entitlement that is no longer justified has one. -/
structure Tracked (s : EntitlementState) : Prop where
  clean : ∀ urn ∈ rules.urns s.affiliations, ∃ row ∈ s.tables.grants,
    row.personUuid = person ∧ row.entitlementUrn = urn ∧ row.Clean
  deadline : ∀ row ∈ s.tables.grants, row.personUuid = person → row.revokedAt = none →
    ∀ d ∈ row.revokeAt, ∃ r ∈ s.revoked, r.urn = row.entitlementUrn ∧ r.effective = d
  scheduled : ∀ row ∈ s.tables.grants, row.personUuid = person → row.revokedAt = none →
    row.entitlementUrn ∉ rules.urns s.affiliations → row.revokeAt ≠ none

variable {rules person} {s : EntitlementState}

theorem Tracked.entitled (h : rules.Tracked person s) : rules.Entitled person s := by
  refine ⟨fun urn hurn => ?_, fun urn hheld hnot => ?_⟩
  · obtain ⟨row, hrow, hp, hu, hn, hd⟩ := h.clean urn hurn
    exact mem_held.mpr ⟨row, hrow, hp, ⟨hn, by simp [hd]⟩, hu⟩
  · obtain ⟨row, hrow, hp, ⟨hn, hd⟩, rfl⟩ := mem_held.mp hheld
    obtain ⟨d, hsome⟩ := Option.ne_none_iff_exists'.mp (h.scheduled row hrow hp hn hnot)
    obtain ⟨r, hr, hurn, rfl⟩ := h.deadline row hrow hp hn d hsome
    exact ⟨r, hr, hurn, hd _ hsome⟩

theorem Tracked.unaffiliated {tables : LifecycleTables} {today : Int}
    (h : ∀ row ∈ tables.grants, row.personUuid ≠ person) :
    rules.Tracked person (unaffiliated tables today) := by
  refine ⟨by simp [LifecycleRules.unaffiliated], fun row hrow hp => ?_, fun row hrow hp => ?_⟩
  · exact absurd hp (h row hrow)
  · exact absurd hp (h row hrow)

theorem Tracked.transition (h : rules.Tracked person s) {after : Finset String} {on now : Int}
    (hfirst : rules.FirstTime person s (.transition after on now)) :
    rules.Tracked person (rules.step person s (.transition after on now)) := by
  refine ⟨fun urn hurn => ?_, fun row' hrow' hp hn => ?_, fun row' hrow' hp hn hnot => ?_⟩
  · -- a row that was clean and is still justified, or the one just inserted
    by_cases hin : urn ∈ rules.urns s.affiliations
    · obtain ⟨row, hrow, hp, hu, hclean⟩ := h.clean urn hin
      refine ⟨row, mem_step_transition.mpr ⟨row, Or.inl hrow, ?_⟩, hp, hu, hclean⟩
      exact revokeRow_of_not_lost fun hlost => hlost.2 (hu ▸ hurn)
    · obtain ⟨g, hg, rfl, hfree⟩ := hfirst urn hurn hin
      refine ⟨grantRow person g, mem_step_transition.mpr ⟨_, Or.inr ⟨⟨g, hg, hin, rfl⟩, hfree⟩, ?_⟩,
        rfl, rfl, grantRow_clean person g⟩
      exact revokeRow_of_not_lost fun hlost => hin hlost.1
  · obtain ⟨row, hfrom, rfl⟩ := mem_step_transition.mp hrow'
    -- the deadlines a row had before
    have hold : row.personUuid = person → row.revokedAt = none → ∀ d ∈ row.revokeAt,
        ∃ r ∈ s.revoked, r.urn = row.entitlementUrn ∧ r.effective = d := by
      rcases hfrom with hrow | ⟨⟨g, -, -, rfl⟩, -⟩
      · exact h.deadline row hrow
      · intro _ _ d hd
        simp [grantRow] at hd
    rcases revokeRow_cases person (rules.transition s.affiliations after on).revoked now row with
      ⟨heq, -⟩ | ⟨r, hr, hurn, hp₀, hn₀, heq⟩
    · rw [heq] at hp hn ⊢
      intro d hd
      obtain ⟨r, hr, hre⟩ := hold hp hn d hd
      exact ⟨r, List.mem_append_left _ hr, hre⟩
    · rw [heq] at hn ⊢
      have hkey : (endRow row r now).entitlementUrn = row.entitlementUrn :=
        congrArg (·.2.1) (endRow_key row r now)
      intro d hd
      rcases endRow_deadline row r now with hne | ⟨d', hd', hfromr | hfromrow⟩
      · exact absurd hn hne
      · obtain rfl : d = d' := Option.some.inj (hd.symm.trans hd')
        exact ⟨r, List.mem_append_right _ hr, by rw [hkey, hurn], hfromr.symm⟩
      · obtain rfl : d = d' := Option.some.inj (hd.symm.trans hd')
        obtain ⟨r', hr', hre, hde⟩ := hold hp₀ hn₀ d hfromrow
        exact ⟨r', List.mem_append_left _ hr', by rw [hkey, hre], hde⟩
  · obtain ⟨row, hfrom, rfl⟩ := mem_step_transition.mp hrow'
    have hkey := revokeRow_key person (rules.transition s.affiliations after on).revoked now row
    have hurn : (revokeRow person (rules.transition s.affiliations after on).revoked now
        row).entitlementUrn = row.entitlementUrn := congrArg (·.2.1) hkey
    replace hnot : row.entitlementUrn ∉ rules.urns after := hurn ▸ hnot
    rcases revokeRow_cases person (rules.transition s.affiliations after on).revoked now row with
      ⟨heq, hunlisted⟩ | ⟨r, hr, -, -, -, heq⟩
    · rw [heq] at hp hn ⊢
      rcases hfrom with hrow | ⟨⟨g, hg, -, rfl⟩, -⟩
      · -- not among the revoked ones, so it was not justified before either
        refine h.scheduled row hrow hp hn fun hin => ?_
        exact hunlisted hp hn (rules.revocation row.entitlementUrn on)
          (transition_revoked.mpr ⟨⟨hin, hnot⟩, rfl⟩) rfl
      · exact absurd ((rules.mem_urns).mpr ⟨g, hg, rfl⟩) hnot
    · rw [heq] at hn ⊢
      rcases endRow_deadline row r now with hne | ⟨d, hd, -⟩
      · exact absurd hn hne
      · simp [hd]

theorem Tracked.sweep (h : rules.Tracked person s) (on now : Int) :
    rules.Tracked person (rules.step person s (.sweep on now)) := by
  -- a row that is still unrevoked was not due, and is unchanged
  have hback : ∀ row' ∈ (rules.step person s (.sweep on now)).tables.grants,
      row'.revokedAt = none → row' ∈ s.tables.grants := by
    intro row' hrow' hn
    obtain ⟨row, hrow, rfl⟩ := mem_step_sweep.mp hrow'
    split_ifs at hn ⊢ with hdue
    · exact hrow
  refine ⟨fun urn hurn => ?_, fun row hrow hp hn => ?_, fun row hrow hp hn hnot => ?_⟩
  · obtain ⟨row, hrow, hp, hu, hclean⟩ := h.clean urn hurn
    refine ⟨row, mem_step_sweep.mpr ⟨row, hrow, if_neg ?_⟩, hp, hu, hclean⟩
    rintro ⟨-, d, hd, -⟩
    simp [hclean.2] at hd
  · exact h.deadline row (hback row hrow hn) hp hn
  · exact h.scheduled row (hback row hrow hn) hp hn hnot

/-- **Entitled throughout, when nobody is granted again what was once granted.**  In every
run in which each newly granted entitlement has a justification no row carries yet,
the person holds after every step everything their affiliations justify, and
whatever else they hold was revoked and is inside its grace period. -/
theorem entitled_of_firstTime {tables : LifecycleTables} {today : Int}
    {ops : List EntitlementOp} (hnone : ∀ row ∈ tables.grants, row.personUuid ≠ person)
    (h : Run (rules.FirstTime person) (rules.step person) (unaffiliated tables today) ops s) :
    rules.Entitled person s := by
  refine Tracked.entitled (h.invariant (I := rules.Tracked person) (fun s op hs hop => ?_)
    (Tracked.unaffiliated hnone))
  cases op with
  | transition after on now => exact hs.transition hop
  | sweep on now => exact hs.sweep on now

/-- One rule: a student has the LMS, which ends with the affiliation. -/
def sampleRules : LifecycleRules where
  entitlements := [("urn:lms", { urn := "urn:lms" })]
  rules := [{ id := "lms", affiliations := {"student", "faculty"}, grants := ["urn:lms"] }]

theorem entitled_while_student :
    sampleRules.Entitled "p" (sampleRules.step "p" (sampleRules.step "p" (unaffiliated {} 0)
      (.transition {"student"} 0 0)) (.sweep 1 0)) := by
  have hnone : ∀ row ∈ ({} : LifecycleTables).grants, row.personUuid ≠ "p" := by simp
  have hrun : Run (sampleRules.FirstTime "p") (sampleRules.step "p") (unaffiliated {} 0)
      [.transition {"student"} 0 0, .sweep 1 0] (sampleRules.step "p" (sampleRules.step "p"
        (unaffiliated {} 0) (.transition {"student"} 0 0)) (.sweep 1 0)) := by
    refine .cons (fun urn hurn _ => ?_) (.cons trivial (.nil _))
    obtain rfl : urn = "urn:lms" := by
      have hurns : sampleRules.urns {"student"} = {"urn:lms"} := by decide
      simpa [hurns] using hurn
    exact ⟨⟨"urn:lms", "lms", "student"⟩, by decide, rfl, by simp [unaffiliated]⟩
  exact entitled_of_firstTime hnone hrun

/-- A student who leaves and comes back. -/
def leaveAndReturn : List EntitlementOp :=
  [.transition {"student"} 0 0, .transition ∅ 1 0, .transition {"student"} 2 0]

/-- **A returning student holds nothing.**  The row revoked when they left still has the
key of the grant they come back to, and the insert ignores the conflict. -/
theorem not_entitled_after_return :
    ¬ ∀ (rules : LifecycleRules) (person : String) (tables : LifecycleTables) (today : Int)
      (ops : List EntitlementOp) (s : EntitlementState),
      (∀ row ∈ tables.grants, row.personUuid ≠ person) →
      Run Ordered (rules.step person) (unaffiliated tables today) ops s →
        rules.Entitled person s := by
  intro h
  have hrun : Run Ordered (sampleRules.step "p") (unaffiliated {} 0) leaveAndReturn
      (leaveAndReturn.foldl (sampleRules.step "p") (unaffiliated {} 0)) := by
    refine .cons ?_ (.cons ?_ (.cons ?_ (.nil _)))
    · exact le_refl 0
    · exact (by decide : (0 : Int) ≤ 1)
    · exact (by decide : (1 : Int) ≤ 2)
  have hentitled := (h sampleRules "p" {} 0 leaveAndReturn _ (by simp) hrun).1
  have hurn : "urn:lms" ∈ sampleRules.urns {"student"} := by decide
  exact absurd (hentitled "urn:lms" hurn) (by decide)

/-! ## Being justified -/

section Justifications

variable (rules person) (s)

/-- What the affiliations justify, entitlement by justification. -/
def justified (affiliations : Finset String) : Finset (String × String) :=
  ((rules.grantsFor affiliations).map fun g => (g.urn, justificationRef g)).toFinset

/-- The rows of the person that nothing is scheduled against. -/
def standing : Finset (String × String) :=
  ((s.tables.grants.filter fun row => row.personUuid = person ∧ row.Clean).map
    fun row => (row.entitlementUrn, row.justificationRef)).toFinset

/-- **Per justification**: the standing rows are exactly the justifications that hold
now. -/
def PerJustification : Prop := standing person s = rules.justified s.affiliations

/-- No step grants an entitlement that was revoked earlier in the run. -/
def NoRejoin (s : EntitlementState) : EntitlementOp → Prop
  | .transition after _ _ => ∀ urn ∈ rules.urns after, ∀ r ∈ s.revoked, r.urn ≠ urn
  | .sweep _ _ => True

/-- Every entitlement held before and after a step has the same justifications before
and after. -/
def Kept (s : EntitlementState) : EntitlementOp → Prop
  | .transition after _ _ => ∀ urn ∈ rules.urns s.affiliations, urn ∈ rules.urns after →
      ∀ ref, (urn, ref) ∈ rules.justified s.affiliations ↔ (urn, ref) ∈ rules.justified after
  | .sweep _ _ => True

variable {rules person s}

theorem mem_justified {affiliations : Finset String} {urn ref : String} :
    (urn, ref) ∈ rules.justified affiliations ↔
      ∃ g ∈ rules.grantsFor affiliations, g.urn = urn ∧ justificationRef g = ref := by
  simp [justified]

theorem urn_of_justified {affiliations : Finset String} {urn ref : String}
    (h : (urn, ref) ∈ rules.justified affiliations) : urn ∈ rules.urns affiliations := by
  obtain ⟨g, hg, rfl, -⟩ := mem_justified.mp h
  exact rules.mem_urns.mpr ⟨g, hg, rfl⟩

theorem mem_standing {urn ref : String} :
    (urn, ref) ∈ standing person s ↔ ∃ row ∈ s.tables.grants,
      row.key = (person, urn, ref) ∧ row.Clean := by
  simp only [standing, List.mem_toFinset, List.mem_map, List.mem_filter, decide_eq_true_eq,
    Prod.mk.injEq, EntitlementGrant.key]
  constructor
  · rintro ⟨row, ⟨hrow, hp, hc⟩, hu, hr⟩
    exact ⟨row, hrow, ⟨hp, hu, hr⟩, hc⟩
  · rintro ⟨row, hrow, ⟨hp, hu, hr⟩, hc⟩
    exact ⟨row, ⟨hrow, hp, hc⟩, hu, hr⟩

/-- Every row belongs to an entitlement that is justified, or was revoked. -/
def Accounted (rules : LifecycleRules) (person : String) (s : EntitlementState) : Prop :=
  ∀ row ∈ s.tables.grants, row.personUuid = person →
    row.entitlementUrn ∈ rules.urns s.affiliations ∨ ∃ r ∈ s.revoked, r.urn = row.entitlementUrn

theorem accounted_step (h : Accounted rules person s) (op : EntitlementOp) :
    Accounted rules person (rules.step person s op) := by
  cases op with
  | sweep on now =>
    intro row' hrow' hp
    obtain ⟨row, hrow, rfl⟩ := mem_step_sweep.mp hrow'
    split_ifs at hp ⊢
    · exact h row hrow hp
    · exact h row hrow hp
  | transition after on now =>
    intro row' hrow' hp
    obtain ⟨row, hfrom, rfl⟩ := mem_step_transition.mp hrow'
    have hkey := revokeRow_key person (rules.transition s.affiliations after on).revoked now row
    have hp₀ : row.personUuid = person := (congrArg (·.1) hkey).symm.trans hp
    rw [show (revokeRow person _ now row).entitlementUrn = row.entitlementUrn from
      congrArg (·.2.1) hkey]
    rcases hfrom with hrow | ⟨⟨g, hg, -, rfl⟩, -⟩
    · rcases h row hrow hp₀ with hin | ⟨r, hr, hurn⟩
      · by_cases hout : row.entitlementUrn ∈ rules.urns after
        · exact Or.inl hout
        · exact Or.inr ⟨rules.revocation row.entitlementUrn on, List.mem_append_right _
            (transition_revoked.mpr ⟨⟨hin, hout⟩, rfl⟩), rfl⟩
      · exact Or.inr ⟨r, List.mem_append_left _ hr, hurn⟩
    · exact Or.inl (rules.mem_urns.mpr ⟨g, hg, rfl⟩)

/-- **The standing rows after a transition**: those of entitlements that were not lost,
and one for each justification of an entitlement that is new. -/
theorem mem_standing_step (h : Accounted rules person s) {after : Finset String} {on now : Int}
    (hno : rules.NoRejoin s (.transition after on now)) (urn ref : String) :
    (urn, ref) ∈ standing person (rules.step person s (.transition after on now)) ↔
      ((urn, ref) ∈ standing person s ∧
          ¬ (urn ∈ rules.urns s.affiliations ∧ urn ∉ rules.urns after)) ∨
        ((urn, ref) ∈ rules.justified after ∧ urn ∉ rules.urns s.affiliations) := by
  rw [mem_standing]
  constructor
  · rintro ⟨row', hrow', hkey', hclean⟩
    obtain ⟨row, hfrom, rfl⟩ := mem_step_transition.mp hrow'
    rw [revokeRow_key] at hkey'
    rcases revokeRow_cases person (rules.transition s.affiliations after on).revoked now row with
      ⟨heq, hunlisted⟩ | ⟨r, -, -, -, -, heq⟩
    · rw [heq] at hclean
      obtain ⟨hp, rfl, rfl⟩ : row.personUuid = person ∧ row.entitlementUrn = urn ∧
          row.justificationRef = ref := by simpa [EntitlementGrant.key] using hkey'
      rcases hfrom with hrow | ⟨⟨g, hg, hnew, rfl⟩, -⟩
      · refine Or.inl ⟨mem_standing.mpr ⟨row, hrow, hkey', hclean⟩, fun hlost => ?_⟩
        exact hunlisted hp hclean.1 (rules.revocation row.entitlementUrn on)
          (transition_revoked.mpr ⟨hlost, rfl⟩) rfl
      · exact Or.inr ⟨mem_justified.mpr ⟨g, hg, rfl, rfl⟩, hnew⟩
    · -- an ended row is not standing
      rw [heq] at hclean
      rcases endRow_deadline row r now with hne | ⟨d, hd, -⟩
      · exact absurd hclean.1 hne
      · simp [hclean.2] at hd
  · rintro (⟨hold, hkeep⟩ | ⟨hjust, hnew⟩)
    · obtain ⟨row, hrow, hkey, hclean⟩ := mem_standing.mp hold
      have hurn : row.entitlementUrn = urn := congrArg (·.2.1) hkey
      refine ⟨row, mem_step_transition.mpr ⟨row, Or.inl hrow, ?_⟩, hkey, hclean⟩
      exact revokeRow_of_not_lost (hurn ▸ hkeep)
    · obtain ⟨g, hg, rfl, rfl⟩ := mem_justified.mp hjust
      refine ⟨grantRow person g, mem_step_transition.mpr ⟨_, Or.inr ⟨⟨g, hg, hnew, rfl⟩, ?_⟩, ?_⟩,
        rfl, grantRow_clean person g⟩
      · -- a row in the way would be of an entitlement held before, or revoked before
        intro row hrow hkey
        rw [grantRow_key] at hkey
        have hurn : row.entitlementUrn = g.urn := congrArg (·.2.1) hkey
        rcases h row hrow (congrArg (·.1) hkey) with hin | ⟨r, hr, hre⟩
        · exact hnew (hurn ▸ hin)
        · exact hno g.urn (rules.mem_urns.mpr ⟨g, hg, rfl⟩) r hr (hre.trans hurn)
      · exact revokeRow_of_not_lost fun hlost => hnew hlost.1

theorem standing_sweep (on now : Int) :
    standing person (rules.step person s (.sweep on now)) = standing person s := by
  ext ⟨urn, ref⟩
  rw [mem_standing, mem_standing]
  constructor
  · rintro ⟨row', hrow', hkey, hclean⟩
    obtain ⟨row, hrow, rfl⟩ := mem_step_sweep.mp hrow'
    split_ifs at hkey hclean with hdue
    · cases hclean.1
    · exact ⟨row, hrow, hkey, hclean⟩
  · rintro ⟨row, hrow, hkey, hclean⟩
    refine ⟨row, mem_step_sweep.mpr ⟨row, hrow, if_neg ?_⟩, hkey, hclean⟩
    rintro ⟨-, d, hd, -⟩
    simp [hclean.2] at hd

/-- **One step keeps the rows per justification exactly when it keeps the justifications**
of every entitlement that stays. -/
theorem perJustification_step (h : Accounted rules person s) {op : EntitlementOp}
    (hno : rules.NoRejoin s op) (hs : rules.PerJustification person s) :
    rules.PerJustification person (rules.step person s op) ↔ rules.Kept s op := by
  cases op with
  | sweep on now =>
    refine iff_of_true ?_ trivial
    show standing person (rules.step person s (.sweep on now)) = rules.justified s.affiliations
    rw [standing_sweep]
    exact hs
  | transition after on now =>
    have hmem := mem_standing_step h hno
    rw [hs] at hmem
    constructor
    · intro heq urn hin hafter ref
      have hiff := hmem urn ref
      rw [heq] at hiff
      constructor
      · intro hb
        exact hiff.mpr (Or.inl ⟨hb, fun hlost => hlost.2 hafter⟩)
      · intro ha
        rcases hiff.mp ha with ⟨hb, -⟩ | ⟨-, hnew⟩
        · exact hb
        · exact absurd hin hnew
    · intro hkept
      refine Finset.ext ?_
      rintro ⟨urn, ref⟩
      rw [hmem]
      constructor
      · rintro (⟨hb, hkeep⟩ | ⟨ha, -⟩)
        · have hin := urn_of_justified hb
          have hafter : urn ∈ rules.urns after := by
            by_contra hout
            exact hkeep ⟨hin, hout⟩
          exact (hkept urn hin hafter ref).mp hb
        · exact ha
      · intro ha
        have hafter := urn_of_justified ha
        by_cases hin : urn ∈ rules.urns s.affiliations
        · exact Or.inl ⟨(hkept urn hin hafter ref).mpr ha, fun hlost => hlost.2 hafter⟩
        · exact Or.inr ⟨ha, hin⟩

theorem accounted_of_run {allowed : EntitlementState → EntitlementOp → Prop}
    {tables : LifecycleTables} {today : Int} {ops : List EntitlementOp}
    (hnone : ∀ row ∈ tables.grants, row.personUuid ≠ person)
    (h : Run allowed (rules.step person) (unaffiliated tables today) ops s) :
    Accounted rules person s := by
  refine h.invariant (I := Accounted rules person) (fun s op hs _ => accounted_step hs op) ?_
  intro row hrow hp
  exact absurd hp (hnone row hrow)

/-- **The rows name the justifications exactly as long as no step changes those of an
entitlement that stays.**  In a run without rejoins, the standing rows are the
justifications after every step if and only if every entitlement held before and
after a step has the same justifications before and after it. -/
theorem perJustification_iff_kept {tables : LifecycleTables} {today : Int}
    {ops : List EntitlementOp} (hnone : ∀ row ∈ tables.grants, row.personUuid ≠ person)
    (h : Run (rules.NoRejoin) (rules.step person) (unaffiliated tables today) ops s) :
    (∀ pre post, ops = pre ++ post →
        rules.PerJustification person (pre.foldl (rules.step person) (unaffiliated tables today))) ↔
      ∀ pre op post, ops = pre ++ op :: post →
        rules.Kept (pre.foldl (rules.step person) (unaffiliated tables today)) op := by
  constructor
  · rintro hper pre op post rfl
    obtain ⟨hpre, hno⟩ := h.at_op
    refine (perJustification_step (accounted_of_run hnone hpre) hno (hper pre _ rfl)).mp ?_
    have hnext := hper (pre ++ [op]) post (by simp)
    rwa [List.foldl_append] at hnext
  · intro hkept pre
    induction pre using List.reverseRecOn with
    | nil =>
      rintro post -
      refine Finset.ext ?_
      rintro ⟨urn, ref⟩
      rw [mem_standing]
      simp only [List.foldl_nil, unaffiliated, justified, grantsFor_empty, List.map_nil,
        List.toFinset_nil, Finset.notMem_empty, iff_false, not_exists, not_and]
      intro row hrow hkey
      exact absurd (congrArg (·.1) hkey) (hnone row hrow)
    | append_singleton pre op ih =>
      rintro post heq
      rw [List.append_assoc] at heq
      subst heq
      obtain ⟨hpre, hno⟩ := h.at_op
      rw [List.foldl_append]
      exact (perJustification_step (accounted_of_run hnone hpre) hno (ih _ rfl)).mpr
        (hkept pre op post rfl)

/-- Two rules: students have the LMS, and staff an office. -/
def twoRules : LifecycleRules where
  entitlements := [("urn:lms", { urn := "urn:lms" }), ("urn:office", { urn := "urn:office" })]
  rules := [{ id := "lms", affiliations := {"student"}, grants := ["urn:lms"] },
    { id := "office", affiliations := {"staff"}, grants := ["urn:office"] }]

/-- A student who joins the staff. -/
def mover : List EntitlementOp :=
  [.transition {"student"} 0 0, .transition {"student", "staff"} 1 0]

theorem kept_mover (pre : List EntitlementOp) (op : EntitlementOp) (post : List EntitlementOp)
    (h : mover = pre ++ op :: post) :
    twoRules.Kept (pre.foldl (twoRules.step "p") (unaffiliated {} 0)) op := by
  rcases pre with _ | ⟨first, _ | ⟨second, pre⟩⟩
  · obtain rfl : EntitlementOp.transition {"student"} 0 0 = op := (List.cons.inj h).1
    intro urn hurn
    simp [unaffiliated] at hurn
  · obtain ⟨rfl, hrest⟩ := List.cons.inj h
    obtain rfl : EntitlementOp.transition {"student", "staff"} 1 0 = op := (List.cons.inj hrest).1
    have hbefore : twoRules.justified {"student"} = {("urn:lms", "lms:student")} := by decide
    have hafter : twoRules.justified {"student", "staff"} =
        {("urn:lms", "lms:student"), ("urn:office", "office:staff")} := by decide
    intro urn hurn _ ref
    have hurns : twoRules.urns {"student"} = {"urn:lms"} := by decide
    obtain rfl : urn = "urn:lms" := by
      have hmem : urn ∈ twoRules.urns {"student"} := hurn
      simpa [hurns] using hmem
    show _ ∈ twoRules.justified {"student"} ↔ _
    rw [hbefore, hafter]
    simp
  · simp [mover, -List.append_assoc] at h

/-- The rows are the two justifications. -/
theorem perJustification_of_mover :
    twoRules.PerJustification "p" (mover.foldl (twoRules.step "p") (unaffiliated {} 0)) := by
  have hrun : Run twoRules.NoRejoin (twoRules.step "p") (unaffiliated {} 0) mover
      (mover.foldl (twoRules.step "p") (unaffiliated {} 0)) := by
    refine .cons (fun urn _ r hr => ?_) (.cons (fun urn _ r hr => ?_) (.nil _))
    · simp [unaffiliated] at hr
    · have hnone : (twoRules.step "p" (unaffiliated {} 0)
          (.transition {"student"} 0 0)).revoked = [] := by decide
      simp [hnone] at hr
  exact (perJustification_iff_kept (by simp) hrun).mpr kept_mover mover [] rfl

/-- A student who becomes faculty as well. -/
def secondAffiliation : List EntitlementOp :=
  [.transition {"student"} 0 0, .transition {"student", "faculty"} 1 0]

/-- **A second justification gets no row.** -/
theorem second_justification_not_recorded :
    ¬ ∀ (rules : LifecycleRules) (person : String) (tables : LifecycleTables) (today : Int)
      (ops : List EntitlementOp) (s : EntitlementState),
      (∀ row ∈ tables.grants, row.personUuid ≠ person) →
      Run (fun s op => Ordered s op ∧ rules.NoRejoin s op) (rules.step person)
        (unaffiliated tables today) ops s → rules.PerJustification person s := by
  intro h
  have hrun : Run (fun s op => Ordered s op ∧ sampleRules.NoRejoin s op) (sampleRules.step "p")
      (unaffiliated {} 0) secondAffiliation
      (secondAffiliation.foldl (sampleRules.step "p") (unaffiliated {} 0)) := by
    refine .cons ⟨le_refl (0 : Int), fun urn _ r hr => ?_⟩
      (.cons ⟨(by decide : (0 : Int) ≤ 1), fun urn _ r hr => ?_⟩ (.nil _))
    · simp [unaffiliated] at hr
    · have hnone : (sampleRules.step "p" (unaffiliated {} 0)
          (.transition {"student"} 0 0)).revoked = [] := by decide
      simp [hnone] at hr
  have hper := h sampleRules "p" {} 0 secondAffiliation _ (by simp) hrun
  exact absurd hper (by
    unfold PerJustification
    decide)

end Justifications

end LifecycleRules

end CampusID
