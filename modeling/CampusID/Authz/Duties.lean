import CampusID.Authz.Roles
import CampusID.Lib.Runs
import Mathlib.Data.Finset.Card

/-!
# Does the separation of duties hold on every day?

`grant` looks at one day, the first of the window it is asked for (`checked_of_grant`).  What it
writes is in force on more days than that: on all of the window, and where it extends a row, on the
days of that row.

`separated_of_runs` says which grants keep the duties apart: those that are compatible with what
the person holds on the days of their row that `grant` does not look at.
-/

namespace CampusID
namespace Authz

open Lib

/-- **No person holds on any day by decisions all roles of a conflict.** -/
def Separated (catalogue : RoleCatalogue) (t : Assignments) : Prop :=
  ∀ personUuid day, catalogue.conflicting (t.directRoles personUuid day) = []

/-- A call of `grant` or `revoke`, and the day on which it is made. -/
inductive RoleCall where
  | grant (personUuid role grantedBy : String) (validFrom validUntil : Option Int) (today : Int)
  | revoke (personUuid role : String) (day : Option Int) (today : Int)
  deriving DecidableEq, Repr

variable {catalogue : RoleCatalogue} {t t' : Assignments} {row other : RoleAssignment}
  {counts : RoleAssignment → Bool} {personUuid role grantedBy person : String}
  {validFrom validUntil : Option Int} {day today start : Int} {added : Bool}
  {key : String × String × Origin × String}

/-! ## What a write leaves -/

namespace Assignments

theorem mem_heldBy : role ∈ t.heldBy counts personUuid day ↔
    ∃ row ∈ t.rows, row.personUuid = personUuid ∧ row.live day = true ∧ counts row = true ∧
      row.role = role := by
  simp [heldBy, and_assoc]

theorem eq_of_key (hrow : row ∈ t.rows) (hother : other ∈ t.rows) (hkey : row.key = other.key) :
    row = other :=
  List.inj_on_of_nodup_map t.keyed hrow hother hkey

theorem insert_ok (h : t.insert row = .ok t') :
    row.key ∉ t.rows.map RoleAssignment.key ∧ t'.rows = t.rows ++ [row] := by
  unfold insert at h
  split at h
  · rename_i hnew
    obtain rfl := Except.ok.inj h
    exact ⟨hnew.1, rfl⟩
  · cases h

theorem setEnds_ok {last : RoleAssignment → Option Int} (h : t.setEnds last = .ok t') :
    t'.rows = t.rows.map fun row => row.endAt (last row) := by
  unfold setEnds at h
  split at h
  · obtain rfl := Except.ok.inj h
    rfl
  · cases h

/-- The first day of the row that a grant leaves: a row that is there keeps its own. -/
def startOf (t : Assignments) (key : String × String × Origin × String) (start : Int) : Int :=
  match t.rows.find? (·.key = key) with
  | some row => row.validFrom
  | none => start

theorem startOf_of_mem (hrow : row ∈ t.rows) : t.startOf row.key start = row.validFrom := by
  unfold startOf
  cases hfind : t.rows.find? (·.key = row.key) with
  | none =>
    rw [List.find?_eq_none] at hfind
    exact absurd (by simp) (hfind row hrow)
  | some other =>
    have hkey : other.key = row.key := by simpa using List.find?_some hfind
    rw [eq_of_key (List.mem_of_find?_eq_some hfind) hrow hkey]

theorem startOf_of_notMem (h : key ∉ t.rows.map RoleAssignment.key) :
    t.startOf key start = start := by
  unfold startOf
  cases hfind : t.rows.find? (·.key = key) with
  | none => rfl
  | some other =>
    have hkey : other.key = key := by simpa using List.find?_some hfind
    exact absurd (List.mem_map.mpr ⟨other, List.mem_of_find?_eq_some hfind, hkey⟩) h

/-- **A grant that went through** leaves the other rows and one row of its own. -/
theorem grant_ok (h : t.grant catalogue personUuid role grantedBy validFrom validUntil today =
      .ok (t', added)) :
    ∃ granted : RoleAssignment, granted.key = (personUuid, role, .direct, grantedBy) ∧
      granted.validFrom = t.startOf (personUuid, role, .direct, grantedBy) (validFrom.getD today) ∧
      granted.validUntil = validUntil ∧
      ∀ row, row ∈ t'.rows ↔
        (row ∈ t.rows ∧ row.key ≠ (personUuid, role, .direct, grantedBy)) ∨ row = granted := by
  unfold grant at h
  split_ifs at h with hunknown
  obtain ⟨-, -, h⟩ := Eff.except_bind_eq_ok.mp h
  dsimp only at h
  split_ifs at h with hthere
  · obtain ⟨extended, hends, h⟩ := Eff.except_bind_eq_ok.mp h
    cases h
    obtain ⟨old, hold, hkey⟩ := List.mem_map.mp hthere
    refine ⟨old.endAt validUntil, hkey, ?_, rfl, fun row => ?_⟩
    · rw [← hkey, startOf_of_mem hold]
      rfl
    · rw [setEnds_ok hends, List.mem_map]
      constructor
      · rintro ⟨before, hbefore, rfl⟩
        by_cases hsame : before.key = (personUuid, role, Origin.direct, grantedBy)
        · rw [if_pos hsame, eq_of_key hbefore hold (hsame.trans hkey.symm)]
          exact .inr rfl
        · rw [if_neg hsame]
          exact .inl ⟨hbefore, hsame⟩
      · rintro (⟨hrow, hne⟩ | rfl)
        · exact ⟨row, hrow, by rw [if_neg hne]; rfl⟩
        · exact ⟨old, hold, by rw [if_pos hkey]⟩
  · obtain ⟨granted, hinsert, h⟩ := Eff.except_bind_eq_ok.mp h
    cases h
    obtain ⟨-, hrows⟩ := insert_ok hinsert
    refine ⟨⟨personUuid, role, .direct, grantedBy, validFrom.getD today, validUntil,
      some grantedBy⟩, rfl, (startOf_of_notMem hthere).symm, rfl, fun row => ?_⟩
    rw [hrows, List.mem_append, List.mem_singleton]
    refine or_congr_left (iff_self_and.mpr ?_)
    rintro hrow hkey
    exact hthere (List.mem_map.mpr ⟨row, hrow, hkey⟩)

/-- **A revocation that went through** ends the rows in force. -/
theorem revoke_ok {ended : Nat} {last : Option Int}
    (h : t.revoke personUuid role last today = .ok (t', ended)) :
    t'.rows = t.rows.map fun row => row.endAt
      (if row.personUuid = personUuid ∧ row.role = role ∧ row.live (last.getD today) = true then
        some (last.getD today) else row.validUntil) := by
  obtain ⟨table, hends, h⟩ := Eff.except_bind_eq_ok.mp h
  cases h
  simpa using setEnds_ok hends

theorem live_of_live_endAt (hlive : (row.endAt (some start)).live day = true)
    (hbefore : row.live start = true) : row.live day = true := by
  rw [RoleAssignment.live_iff] at hlive hbefore ⊢
  refine ⟨hlive.1, fun last hlast => ?_⟩
  exact lt_trans (hlive.2 start rfl) (hbefore.2 last hlast)

/-- **A revocation gives nobody a role.** -/
theorem heldBy_revoke_subset {ended : Nat} {last : Option Int}
    (h : t.revoke personUuid role last today = .ok (t', ended))
    (hcounts : ∀ row last, counts (row.endAt last) = counts row) :
    t'.heldBy counts person day ⊆ t.heldBy counts person day := by
  intro name hname
  rw [mem_heldBy] at hname ⊢
  obtain ⟨row, hrow, hperson, hlive, hcount, hrole⟩ := hname
  rw [revoke_ok h, List.mem_map] at hrow
  obtain ⟨old, hold, rfl⟩ := hrow
  rw [hcounts] at hcount
  refine ⟨old, hold, hperson, ?_, hcount, hrole⟩
  split_ifs at hlive with hended
  · exact live_of_live_endAt hlive hended.2.2
  · exact hlive

/-- On a day on which the row of a grant is in force the person holds the role, and what they held
by decisions. -/
theorem directRoles_grant (h : t.grant catalogue personUuid role grantedBy validFrom validUntil
      today = .ok (t', added))
    (hstart : t.startOf (personUuid, role, .direct, grantedBy) (validFrom.getD today) ≤ day)
    (hlast : ∀ last ∈ validUntil, day < last) :
    t'.directRoles personUuid day = Insert.insert role (t.directRoles personUuid day) := by
  obtain ⟨granted, hkey, hfrom, huntil, hrows⟩ := grant_ok h
  simp only [RoleAssignment.key, Prod.mk.injEq] at hkey
  ext name
  rw [Finset.mem_insert, directRoles, directRoles, mem_heldBy, mem_heldBy]
  constructor
  · rintro ⟨row, hrow, hperson, hlive, hdirect, hrole⟩
    rcases (hrows row).mp hrow with ⟨hold, -⟩ | rfl
    · exact .inr ⟨row, hold, hperson, hlive, hdirect, hrole⟩
    · exact .inl (hrole.symm.trans hkey.2.1)
  · rintro (rfl | ⟨row, hrow, hperson, hlive, hdirect, hrole⟩)
    · refine ⟨granted, (hrows granted).mpr (.inr rfl), hkey.1, ?_, by simp [hkey.2.2.1],
        hkey.2.1⟩
      rw [RoleAssignment.live_iff, hfrom, huntil]
      exact ⟨hstart, hlast⟩
    · by_cases hsame : row.key = (personUuid, role, Origin.direct, grantedBy)
      · -- the row that was extended bears the role of the grant
        refine ⟨granted, (hrows granted).mpr (.inr rfl), hkey.1, ?_, by simp [hkey.2.2.1], ?_⟩
        · rw [RoleAssignment.live_iff, hfrom, huntil]
          exact ⟨hstart, hlast⟩
        · rw [hkey.2.1, ← hrole]
          simp only [RoleAssignment.key, Prod.mk.injEq] at hsame
          exact hsame.2.1.symm
      · exact ⟨row, (hrows row).mpr (.inl ⟨hrow, hsame⟩), hperson, hlive, hdirect, hrole⟩

theorem directRoles_grant_subset (h : t.grant catalogue personUuid role grantedBy validFrom
      validUntil today = .ok (t', added))
    (hnot : ¬ (person = personUuid ∧
      t.startOf (personUuid, role, .direct, grantedBy) (validFrom.getD today) ≤ day ∧
      ∀ last ∈ validUntil, day < last)) :
    t'.directRoles person day ⊆ t.directRoles person day := by
  obtain ⟨granted, hkey, hfrom, huntil, hrows⟩ := grant_ok h
  simp only [RoleAssignment.key, Prod.mk.injEq] at hkey
  intro name hname
  rw [directRoles, mem_heldBy] at hname ⊢
  obtain ⟨row, hrow, hperson, hlive, hdirect, hrole⟩ := hname
  rcases (hrows row).mp hrow with ⟨hold, -⟩ | rfl
  · exact ⟨row, hold, hperson, hlive, hdirect, hrole⟩
  · rw [RoleAssignment.live_iff, hfrom, huntil] at hlive
    exact absurd ⟨hperson.symm.trans hkey.1, hlive⟩ hnot

end Assignments

/-! ## Runs -/

namespace RoleCatalogue

/-- What a call writes, unless it is refused. -/
def outcome (catalogue : RoleCatalogue) (t : Assignments) : RoleCall → Option Assignments
  | .grant personUuid role grantedBy validFrom validUntil today =>
    (t.grant catalogue personUuid role grantedBy validFrom validUntil today).toOption.map Prod.fst
  | .revoke personUuid role day today =>
    (t.revoke personUuid role day today).toOption.map Prod.fst

/-- One step of a run: a call that is refused changes nothing. -/
def step (catalogue : RoleCatalogue) (t : Assignments) (call : RoleCall) : Assignments :=
  (catalogue.outcome t call).getD t

/-- **Which calls keep the duties apart**: a grant has to be compatible with what the person holds
by decisions on the days that are not looked at, all of the window that its row has afterwards but
the day from which it is asked for. -/
def Compatible (catalogue : RoleCatalogue) (t : Assignments) : RoleCall → Prop
  | .grant personUuid role grantedBy validFrom validUntil today =>
    ∀ day ≠ validFrom.getD today,
      t.startOf (personUuid, role, .direct, grantedBy) (validFrom.getD today) ≤ day →
      (∀ last ∈ validUntil, day < last) →
        catalogue.conflicting (Insert.insert role (t.directRoles personUuid day)) = []
  | .revoke _ _ _ _ => True

theorem conflicting_mono {roles fewer : Finset String} (hsubset : fewer ⊆ roles)
    (h : catalogue.conflicting roles = []) : catalogue.conflicting fewer = [] := by
  rw [conflicting, List.filter_eq_nil_iff] at h ⊢
  intro conflict hconflict hviolated
  exact h conflict hconflict (by simpa using (of_decide_eq_true hviolated).trans hsubset)

theorem assertCompatible_ok {roles : Finset String} (h : catalogue.assertCompatible roles = .ok ()) :
    catalogue.conflicting roles = [] := by
  unfold assertCompatible at h
  split at h
  · assumption
  · cases h

/-- **What a grant looks at**: the day from which it is asked for. -/
theorem checked_of_grant (h : t.grant catalogue personUuid role grantedBy validFrom validUntil today =
      .ok (t', added)) :
    catalogue.conflicting (Insert.insert role (t.directRoles personUuid (validFrom.getD today))) =
      [] := by
  unfold Assignments.grant at h
  split_ifs at h with hunknown
  obtain ⟨⟨⟩, hcheck, -⟩ := Eff.except_bind_eq_ok.mp h
  refine conflicting_mono (Finset.insert_subset_insert role ?_) (assertCompatible_ok hcheck)
  intro name hname
  rw [Assignments.directRoles, Assignments.mem_heldBy] at hname
  obtain ⟨row, hrow, hperson, hlive, -, hrole⟩ := hname
  rw [Assignments.rolesFor, Assignments.mem_heldBy]
  exact ⟨row, hrow, hperson, hlive, rfl, hrole⟩

/-- **A grant keeps the duties apart exactly where it is compatible.** -/
theorem separated_grant_iff (hseparated : Separated catalogue t)
    (h : t.grant catalogue personUuid role grantedBy validFrom validUntil today = .ok (t', added)) :
    Separated catalogue t' ↔ catalogue.Compatible t
      (.grant personUuid role grantedBy validFrom validUntil today) := by
  constructor
  · intro hafter day _ hstart hlast
    rw [← Assignments.directRoles_grant h hstart hlast]
    exact hafter personUuid day
  · intro hcompatible person day
    by_cases hwindow : person = personUuid ∧
        t.startOf (personUuid, role, .direct, grantedBy) (validFrom.getD today) ≤ day ∧
        ∀ last ∈ validUntil, day < last
    · obtain ⟨rfl, hstart, hlast⟩ := hwindow
      rw [Assignments.directRoles_grant h hstart hlast]
      by_cases hday : day = validFrom.getD today
      · rw [hday]
        exact checked_of_grant h
      · exact hcompatible day hday hstart hlast
    · exact conflicting_mono (Assignments.directRoles_grant_subset h hwindow)
        (hseparated person day)

/-- **A call keeps the duties apart exactly where it is compatible.** -/
theorem separated_outcome_iff {call : RoleCall} (hseparated : Separated catalogue t)
    (h : catalogue.outcome t call = some t') :
    Separated catalogue t' ↔ catalogue.Compatible t call := by
  cases call with
  | grant personUuid role grantedBy validFrom validUntil today =>
    obtain ⟨⟨written, added⟩, hok, rfl⟩ := Eff.toOption_map_eq_some.mp h
    exact separated_grant_iff hseparated hok
  | revoke personUuid role day today =>
    obtain ⟨⟨written, ended⟩, hok, rfl⟩ := Eff.toOption_map_eq_some.mp h
    refine iff_of_true (fun person day => ?_) trivial
    exact conflicting_mono (Assignments.heldBy_revoke_subset hok fun _ _ => rfl)
      (hseparated person day)

theorem separated_empty (hproper : ∀ conflict ∈ catalogue.conflicts, conflict.roles ≠ ∅) :
    Separated catalogue {} := by
  intro personUuid day
  rw [conflicting, List.filter_eq_nil_iff]
  intro conflict hconflict hviolated
  exact hproper conflict hconflict (Finset.subset_empty.mp (of_decide_eq_true hviolated))

/-- **The duties are separated on every day** wherever a run gets to exactly where the calls that
go through are compatible. -/
theorem separated_of_runs (catalogue : RoleCatalogue) (t : Assignments)
    (hseparated : Separated catalogue t) (calls : List RoleCall) :
    (∀ pre post, calls = pre ++ post → Separated catalogue (pre.foldl catalogue.step t)) ↔
      Run (fun t call => catalogue.outcome t call ≠ none → catalogue.Compatible t call)
        catalogue.step t calls (calls.foldl catalogue.step t) := by
  refine (Run.iff_forall_reached (fun t call hseparated hcompatible => ?_) (fun _ h => h)
    (fun t call hseparated hafter hdone => ?_) hseparated).symm
  · unfold step
    cases hout : catalogue.outcome t call with
    | none => exact hseparated
    | some t' => exact (separated_outcome_iff hseparated hout).mpr (hcompatible (by simp [hout]))
  · obtain ⟨t', hout⟩ := Option.ne_none_iff_exists'.mp hdone
    rw [step, hout] at hafter
    exact (separated_outcome_iff hseparated hout).mp hafter

/-! ### A window that begins later -/

/-- Who raises a payment does not approve it. -/
def payments : RoleCatalogue where
  roles := {"raise", "approve"}
  conflicts := [⟨{"raise", "approve"}, "nobody pays themselves"⟩]

/-- Sam raises payments, and approves them in another window. -/
def samPays (raiseFrom : Int) (raiseUntil : Option Int) (approveFrom : Int) : List RoleCall :=
  [.grant "sam" "raise" "ann" (some raiseFrom) raiseUntil 0,
    .grant "sam" "approve" "ann" (some approveFrom) none 0]

/-- One window after the other. -/
theorem separated_of_handover :
    Separated payments ((samPays 0 (some 10) 10).foldl payments.step {}) := by
  refine (separated_of_runs payments {} (separated_empty (by decide +kernel))
    (samPays 0 (some 10) 10)).mpr ?_ _ [] (List.append_nil _).symm
  refine .cons (fun _ day _ _ _ => ?_) (.cons (fun _ day _ hday _ => ?_) (.nil _))
  · exact (by decide +kernel : payments.conflicting {"raise"} = [])
  · -- on the days of the second window the first one is over
    have hrows : (payments.step {} (.grant "sam" "raise" "ann" (some 0) (some 10) 0)).rows =
        [⟨"sam", "raise", .direct, "ann", 0, some 10, some "ann"⟩] := by decide +kernel
    unfold Assignments.startOf at hday
    rw [hrows] at hday
    have hlate : (⟨"sam", "raise", .direct, "ann", 0, some 10, some "ann"⟩ :
        RoleAssignment).live day = false := by
      rw [← Bool.not_eq_true, RoleAssignment.live_iff]
      exact fun hlive => absurd (hlive.2 10 rfl) (Int.not_lt.mpr hday)
    unfold Assignments.directRoles Assignments.heldBy
    rw [hrows, List.filter_cons, hlate]
    exact (by decide +kernel : payments.conflicting {"approve"} = [])

/-- **Sam raises and approves**: the second window is looked at on its first day only. -/
theorem not_separated : ¬ ∀ (catalogue : RoleCatalogue) (calls : List RoleCall),
    (∀ conflict ∈ catalogue.conflicts, 2 ≤ conflict.roles.card) →
      Run (fun t call => catalogue.outcome t call ≠ none) catalogue.step {} calls
        (calls.foldl catalogue.step {}) →
      Separated catalogue (calls.foldl catalogue.step {}) := by
  intro h
  have hseparated := h payments (samPays 10 none 0) (by decide +kernel)
    (Run.of_admits (by decide +kernel)) "sam" 10
  exact absurd hseparated (by decide +kernel)

end RoleCatalogue

end Authz
end CampusID
