import CampusID.Authz.Days

/-!
# Do the derived roles match the facts?

`reconcile_derived` is handed the assignments that somebody's affiliations and groups give them
now.  It ends the derived rows that are not among them, reopens those that are and have ended, and
adds the ones for which there is no row.

A row that ended on the very day is neither in force nor reopened, and one that begins on a later
day stands in the way of a new one (`reconciles_iff`).  What is left is stable: the same call finds
nothing more to do (`reconcileDerived_again`).
-/

namespace CampusID
namespace Authz

open Lib

/-- The role, the origin and the reference. -/
abbrev RoleFact := String × Origin × String

/-- What a row says. -/
def RoleAssignment.fact (row : RoleAssignment) : RoleFact := (row.role, row.originKind, row.originRef)

/-- What a derivation says. -/
def Assignment.fact (item : Assignment) : RoleFact := (item.role, item.origin, item.reference)

namespace Assignments

variable (t : Assignments)

/-- What the derived rows of a person say that are in force on a day. -/
def derivedFacts (personUuid : String) (day : Int) : Finset RoleFact :=
  ((t.rows.filter fun row =>
    row.personUuid = personUuid ∧ row.originKind.Derived ∧ row.live day).map
      RoleAssignment.fact).toFinset

/-- The rows that a derivation for the person does not own: the decisions, and those of others. -/
def notDerived (personUuid : String) : List RoleAssignment :=
  t.rows.filter fun row => ¬ (row.personUuid = personUuid ∧ row.originKind.Derived)

/-- A derivation goes through and leaves the facts in force, the decisions as they are, and
nothing to do for the same derivation. -/
def Reconciles (personUuid : String) (derived : List Assignment) (day : Option Int)
    (today : Int) : Prop :=
  ∃ t' counts, t.reconcileDerived personUuid derived day today = .ok (t', counts) ∧
    t'.derivedFacts personUuid (day.getD today) = (derived.map Assignment.fact).toFinset ∧
    t'.notDerived personUuid = t.notDerived personUuid ∧
    t'.reconcileDerived personUuid derived day today = .ok (t', (0, 0))

/-- What is derived has a derived origin, and no row for it ended on the day or begins later. -/
structure InTime (personUuid : String) (derived : List Assignment) (start : Int) : Prop where
  owned : ∀ item ∈ derived, item.origin.Derived
  begun : ∀ row ∈ t.rows, row.key ∈ derived.map (derivedKey personUuid) → row.validFrom ≤ start
  unended : ∀ row ∈ t.rows, row.key ∈ derived.map (derivedKey personUuid) →
    row.validUntil ≠ some start

/-! ## What a derivation does -/

/-- The rows that a derivation owns. -/
def ownedBy (personUuid : String) : List RoleAssignment :=
  t.rows.filter fun row => row.personUuid = personUuid ∧ row.originKind.Derived

/-- What is derived and has no row, in the order in which it is added. -/
def missing (personUuid : String) (derived : List Assignment) : List Assignment :=
  (derived.dedup.filter fun item =>
    derivedKey personUuid item ∉ (t.ownedBy personUuid).map RoleAssignment.key).insertionSort
      fun a b => toLex (a.role, toLex (a.origin.value, a.reference)) ≤
        toLex (b.role, toLex (b.origin.value, b.reference))

/-- The row that is added for what is derived. -/
def derivedRow (personUuid : String) (start : Int) (item : Assignment) : RoleAssignment where
  personUuid := personUuid
  role := item.role
  originKind := item.origin
  originRef := item.reference
  validFrom := start

end Assignments

section Steps

variable {t t' : Assignments} {row other : RoleAssignment} {item : Assignment}
  {personUuid : String} {derived : List Assignment} {day : Option Int} {today start : Int}

theorem derivedKey_injective : Function.Injective (Assignments.derivedKey personUuid) := by
  rintro ⟨role, origin, reference⟩ ⟨role', origin', reference'⟩ h
  simpa [Assignments.derivedKey] using h

theorem personUuid_of_key (h : row.key ∈ derived.map (Assignments.derivedKey personUuid)) :
    row.personUuid = personUuid := by
  obtain ⟨item, -, hkey⟩ := List.mem_map.mp h
  exact (congrArg Prod.fst hkey).symm

theorem mem_missing : item ∈ t.missing personUuid derived ↔ item ∈ derived ∧
    Assignments.derivedKey personUuid item ∉ (t.ownedBy personUuid).map RoleAssignment.key := by
  simp [Assignments.missing]

theorem notMem_of_missing (howned : ∀ item ∈ derived, item.origin.Derived)
    (h : item ∈ t.missing personUuid derived) :
    Assignments.derivedKey personUuid item ∉ t.rows.map RoleAssignment.key := by
  obtain ⟨hitem, hmissing⟩ := mem_missing.mp h
  intro hmem
  obtain ⟨row, hrow, hkey⟩ := List.mem_map.mp hmem
  refine hmissing (List.mem_map.mpr ⟨row, ?_, hkey⟩)
  have hperson : row.personUuid = personUuid := congrArg Prod.fst hkey
  have horigin : row.originKind = item.origin := congrArg (fun key => key.2.2.1) hkey
  simpa [Assignments.ownedBy, hrow, hperson, horigin] using howned item hitem

theorem reconciledEnd_of_not (h : ¬ (row.personUuid = personUuid ∧ row.originKind.Derived)) :
    Assignments.reconciledEnd personUuid derived start row = row.validUntil :=
  if_neg h

theorem reconciledEnd_of_wanted (howned : row.personUuid = personUuid ∧ row.originKind.Derived)
    (hwanted : row.key ∈ derived.map (Assignments.derivedKey personUuid)) :
    Assignments.reconciledEnd personUuid derived start row =
      row.validUntil.filter (start ≤ ·) := by
  unfold Assignments.reconciledEnd
  rw [if_pos howned, if_pos hwanted]
  cases row.validUntil with
  | none => rfl
  | some last =>
    by_cases hended : last < start
    · simp [Option.filter, hended]
    · simp [Option.filter, hended, Int.not_lt.mp hended]

theorem reconciledEnd_of_unwanted (howned : row.personUuid = personUuid ∧ row.originKind.Derived)
    (hwanted : row.key ∉ derived.map (Assignments.derivedKey personUuid)) :
    Assignments.reconciledEnd personUuid derived start row =
      if row.live start then some start else row.validUntil := by
  unfold Assignments.reconciledEnd
  rw [if_pos howned, if_neg hwanted]

/-- **The end that a derivation gives a row of its own**: on its day the row is in force when it is
wanted, has begun and did not end on that day. -/
theorem live_endAt_iff (howned : row.personUuid = personUuid ∧ row.originKind.Derived) :
    (row.endAt (Assignments.reconciledEnd personUuid derived start row)).live start = true ↔
      row.key ∈ derived.map (Assignments.derivedKey personUuid) ∧ row.validFrom ≤ start ∧
        row.validUntil ≠ some start := by
  by_cases hwanted : row.key ∈ derived.map (Assignments.derivedKey personUuid)
  · rw [reconciledEnd_of_wanted howned hwanted, RoleAssignment.live_iff]
    cases hlast : row.validUntil with
    | none => simp [RoleAssignment.endAt, hwanted]
    | some last =>
      simp only [RoleAssignment.endAt, Option.mem_def, Option.filter_eq_some_iff, hwanted, ne_eq,
        Option.some.injEq, decide_eq_true_eq, and_imp, true_and]
      refine and_congr_right fun _ => ?_
      constructor
      · intro h heq
        exact absurd (h last rfl (by omega)) (by omega)
      · rintro hne _ rfl hle
        omega
  · rw [reconciledEnd_of_unwanted howned hwanted]
    split_ifs with hlive
    · simp [RoleAssignment.live_iff, RoleAssignment.endAt, hwanted]
    · rw [RoleAssignment.endAt_validUntil]
      simp [hwanted, hlive]

theorem reconciledEnd_again {last : Option Int}
    (hlast : Assignments.reconciledEnd personUuid derived start row = last) :
    Assignments.reconciledEnd personUuid derived start (row.endAt last) = last := by
  by_cases howned : row.personUuid = personUuid ∧ row.originKind.Derived
  · have hstill : (row.endAt last).personUuid = personUuid ∧
        (row.endAt last).originKind.Derived := howned
    by_cases hwanted : row.key ∈ derived.map (Assignments.derivedKey personUuid)
    · rw [reconciledEnd_of_wanted howned hwanted] at hlast
      rw [reconciledEnd_of_wanted hstill hwanted, ← hlast]
      cases row.validUntil with
      | none => rfl
      | some end' => by_cases hle : start ≤ end' <;> simp [Option.filter, RoleAssignment.endAt, hle]
    · have hnot : ¬ (row.endAt last).live start = true := by
        rw [← hlast, live_endAt_iff howned]
        exact fun h => hwanted h.1
      rw [reconciledEnd_of_unwanted hstill hwanted, if_neg hnot]
      rfl
  · have hstill : ¬ ((row.endAt last).personUuid = personUuid ∧
        (row.endAt last).originKind.Derived) := howned
    rw [reconciledEnd_of_not hstill]
    rfl

/-! ## One derivation -/

theorem exists_foldlM_insert {make : Assignment → RoleAssignment} {items : List Assignment}
    (hnodup : (items.map fun item => (make item).key).Nodup)
    (hnew : ∀ item ∈ items, (make item).key ∉ t.rows.map RoleAssignment.key)
    (hdated : ∀ item ∈ items, (make item).Dated) :
    ∃ t', items.foldlM (fun table item => table.insert (make item)) t = .ok t' := by
  induction items generalizing t with
  | nil => exact ⟨t, rfl⟩
  | cons item items ih =>
    obtain ⟨hfirst, hrest⟩ := List.nodup_cons.mp hnodup
    obtain ⟨table, hinsert⟩ : ∃ table, t.insert (make item) = .ok table := by
      unfold Assignments.insert
      rw [dif_pos ⟨hnew item List.mem_cons_self, hdated item List.mem_cons_self⟩]
      exact ⟨_, rfl⟩
    rw [List.foldlM_cons, hinsert]
    refine ih hrest (fun other hother hmem => ?_)
      fun other hother => hdated other (List.mem_cons_of_mem _ hother)
    rw [(Assignments.insert_ok hinsert).2, List.map_append, List.mem_append] at hmem
    rcases hmem with hold | hsame
    · exact hnew other (List.mem_cons_of_mem _ hother) hold
    · rw [List.map_singleton, List.mem_singleton] at hsame
      exact hfirst (List.mem_map.mpr ⟨other, hother, hsame⟩)

theorem dated_reconciledEnd (hrow : row ∈ t.rows) :
    (row.endAt (Assignments.reconciledEnd personUuid derived start row)).Dated := by
  have hdated := t.dated row hrow
  by_cases howned : row.personUuid = personUuid ∧ row.originKind.Derived
  · by_cases hwanted : row.key ∈ derived.map (Assignments.derivedKey personUuid)
    · rw [reconciledEnd_of_wanted howned hwanted]
      intro last hlast
      exact hdated last (Option.mem_def.mpr (Option.filter_eq_some_iff.mp hlast).1)
    · rw [reconciledEnd_of_unwanted howned hwanted]
      split_ifs with hlive
      · intro last hlast
        obtain rfl := Option.some.inj hlast
        exact (RoleAssignment.live_iff.mp hlive).1
      · exact hdated
  · rw [reconciledEnd_of_not howned]
    exact hdated

/-- How many rows a derivation ends. -/
def Assignments.endedBy (t : Assignments) (personUuid : String) (derived : List Assignment)
    (start : Int) : Nat :=
  (t.ownedBy personUuid).countP fun row =>
    row.key ∉ derived.map (Assignments.derivedKey personUuid) ∧ row.live start

theorem reconcileDerived_eq : t.reconcileDerived personUuid derived day today =
    (t.setEnds (Assignments.reconciledEnd personUuid derived (day.getD today)) >>=
      fun reconciled => (t.missing personUuid derived).foldlM (fun table item =>
        table.insert (Assignments.derivedRow personUuid (day.getD today) item)) reconciled >>=
          fun added => .ok (added, (t.missing personUuid derived).length,
            t.endedBy personUuid derived (day.getD today))) :=
  rfl

/-- **A derivation gives its rows their ends and adds what is missing.** -/
theorem rows_reconcileDerived {counts : Nat × Nat}
    (h : t.reconcileDerived personUuid derived day today = .ok (t', counts)) :
    t'.rows = (t.rows.map fun row =>
      row.endAt (Assignments.reconciledEnd personUuid derived (day.getD today) row)) ++
        (t.missing personUuid derived).map
          (Assignments.derivedRow personUuid (day.getD today)) := by
  rw [reconcileDerived_eq] at h
  obtain ⟨reconciled, hends, h⟩ := Eff.except_bind_eq_ok.mp h
  obtain ⟨table, hinserted, h⟩ := Eff.except_bind_eq_ok.mp h
  cases h
  rw [foldlM_insert_ok hinserted, Assignments.setEnds_ok hends]

/-- **A derivation of derived origins goes through.** -/
theorem exists_reconcileDerived (howned : ∀ item ∈ derived, item.origin.Derived) :
    ∃ t' counts, t.reconcileDerived personUuid derived day today = .ok (t', counts) := by
  obtain ⟨reconciled, hends⟩ : ∃ reconciled, t.setEnds
      (Assignments.reconciledEnd personUuid derived (day.getD today)) = .ok reconciled := by
    unfold Assignments.setEnds
    rw [dif_pos fun row hrow => dated_reconciledEnd hrow]
    exact ⟨_, rfl⟩
  have hkeys : reconciled.rows.map RoleAssignment.key = t.rows.map RoleAssignment.key := by
    rw [Assignments.setEnds_ok hends, List.map_map]
    rfl
  have hnodup : ((t.missing personUuid derived).map fun item =>
      (Assignments.derivedRow personUuid (day.getD today) item).key).Nodup :=
    ((List.perm_insertionSort _ _).nodup_iff.mpr
      (List.Nodup.filter _ derived.nodup_dedup)).map derivedKey_injective
  have hnew : ∀ item ∈ t.missing personUuid derived,
      (Assignments.derivedRow personUuid (day.getD today) item).key ∉
        reconciled.rows.map RoleAssignment.key := by
    intro item hitem
    rw [hkeys]
    exact notMem_of_missing howned hitem
  obtain ⟨table, hinserted⟩ := exists_foldlM_insert hnodup hnew fun item _ last hlast => by
    cases hlast
  refine ⟨table, ((t.missing personUuid derived).length,
    t.endedBy personUuid derived (day.getD today)), ?_⟩
  rw [reconcileDerived_eq]
  exact Eff.except_bind_eq_ok.mpr
    ⟨reconciled, hends, Eff.except_bind_eq_ok.mpr ⟨table, hinserted, rfl⟩⟩

/-- **After a derivation the derived rows in force are the wanted ones** that had begun and had not
ended on the day, and those it added. -/
theorem mem_derivedFacts {counts : Nat × Nat} {fact : RoleFact}
    (h : t.reconcileDerived personUuid derived day today = .ok (t', counts)) :
    fact ∈ t'.derivedFacts personUuid (day.getD today) ↔
      (∃ row ∈ t.rows, row.originKind.Derived ∧
        row.key ∈ derived.map (Assignments.derivedKey personUuid) ∧
        row.validFrom ≤ day.getD today ∧ row.validUntil ≠ some (day.getD today) ∧
        row.fact = fact) ∨
      ∃ item ∈ t.missing personUuid derived, item.origin.Derived ∧ item.fact = fact := by
  simp only [Assignments.derivedFacts, rows_reconcileDerived h, List.mem_toFinset, List.mem_map,
    List.mem_filter, List.mem_append, decide_eq_true_eq]
  constructor
  · rintro ⟨row, ⟨⟨old, hold, rfl⟩ | ⟨item, hitem, rfl⟩, hperson, hderived, hlive⟩, rfl⟩
    · have howned : old.personUuid = personUuid ∧ old.originKind.Derived := ⟨hperson, hderived⟩
      obtain ⟨hwanted, hfrom, huntil⟩ := (live_endAt_iff howned).mp hlive
      exact .inl ⟨old, hold, hderived, List.mem_map.mp hwanted, hfrom, huntil, rfl⟩
    · exact .inr ⟨item, hitem, hderived, rfl⟩
  · rintro (⟨row, hrow, hderived, hwanted, hfrom, huntil, rfl⟩ | ⟨item, hitem, hderived, rfl⟩)
    · have hkey := List.mem_map.mpr hwanted
      have hperson := personUuid_of_key hkey
      exact ⟨_, ⟨.inl ⟨row, hrow, rfl⟩, hperson, hderived,
        (live_endAt_iff ⟨hperson, hderived⟩).mpr ⟨hkey, hfrom, huntil⟩⟩, rfl⟩
    · refine ⟨_, ⟨.inr ⟨item, hitem, rfl⟩, rfl, hderived, ?_⟩, rfl⟩
      exact RoleAssignment.live_iff.mpr ⟨le_refl _, fun _ hlast => by cases hlast⟩

/-- **The decisions stay as they are**, and so do the rows of other people. -/
theorem notDerived_reconcileDerived {counts : Nat × Nat}
    (howned : ∀ item ∈ derived, item.origin.Derived)
    (h : t.reconcileDerived personUuid derived day today = .ok (t', counts)) :
    t'.notDerived personUuid = t.notDerived personUuid := by
  unfold Assignments.notDerived
  rw [rows_reconcileDerived h, List.filter_append, List.filter_map, List.filter_map]
  have hadded : (t.missing personUuid derived).filter ((fun row : RoleAssignment =>
      decide (¬ (row.personUuid = personUuid ∧ row.originKind.Derived))) ∘
        Assignments.derivedRow personUuid (day.getD today)) = [] := by
    refine List.filter_eq_nil_iff.mpr fun item hitem => ?_
    have hderived := howned item (mem_missing.mp hitem).1
    simp [Assignments.derivedRow, hderived]
  rw [hadded, List.map_nil, List.append_nil]
  refine (List.map_congr_left fun row hrow => ?_).trans (List.map_id _)
  have hnot : ¬ (row.personUuid = personUuid ∧ row.originKind.Derived) :=
    of_decide_eq_true (List.mem_filter.mp hrow).2
  rw [reconciledEnd_of_not hnot]
  rfl

/-- **The same derivation again finds nothing to do.** -/
theorem reconcileDerived_again {counts : Nat × Nat}
    (howned : ∀ item ∈ derived, item.origin.Derived)
    (h : t.reconcileDerived personUuid derived day today = .ok (t', counts)) :
    t'.reconcileDerived personUuid derived day today = .ok (t', (0, 0)) := by
  have hrows := rows_reconcileDerived h
  -- every row has the end that the derivation gives it
  have hsettled : ∀ row ∈ t'.rows,
      Assignments.reconciledEnd personUuid derived (day.getD today) row = row.validUntil := by
    intro row hrow
    rw [hrows, List.mem_append] at hrow
    rcases hrow with hold | hadded
    · obtain ⟨old, -, rfl⟩ := List.mem_map.mp hold
      exact reconciledEnd_again rfl
    · obtain ⟨item, hitem, rfl⟩ := List.mem_map.mp hadded
      obtain ⟨hderived, -⟩ := mem_missing.mp hitem
      have hown : (Assignments.derivedRow personUuid (day.getD today) item).personUuid =
          personUuid ∧ (Assignments.derivedRow personUuid (day.getD today) item).originKind.Derived :=
        ⟨rfl, howned item hderived⟩
      exact reconciledEnd_of_wanted hown (List.mem_map.mpr ⟨item, hderived, rfl⟩)
  have hends : t'.setEnds (Assignments.reconciledEnd personUuid derived (day.getD today)) =
      .ok t' := by
    unfold Assignments.setEnds
    rw [dif_pos fun row hrow => by
      rw [hsettled row hrow]
      exact t'.dated row hrow]
    have hsame : (t'.rows.map fun row =>
        row.endAt (Assignments.reconciledEnd personUuid derived (day.getD today) row)) = t'.rows :=
      (List.map_congr_left fun row hrow => by rw [hsettled row hrow]; rfl).trans (List.map_id _)
    simp only [hsame]
  -- everything that is wanted has its row
  have hnone : t'.missing personUuid derived = [] := by
    refine List.eq_nil_iff_forall_not_mem.mpr fun item hitem => ?_
    obtain ⟨hderived, hno⟩ := mem_missing.mp hitem
    have hnot := notMem_of_missing howned hitem
    rw [hrows, List.map_append, List.mem_append, not_or] at hnot
    by_cases hthere : Assignments.derivedKey personUuid item ∈ t.rows.map RoleAssignment.key
    · refine hnot.1 ?_
      rw [List.map_map]
      exact hthere
    · refine hnot.2 ?_
      rw [List.map_map]
      refine List.mem_map.mpr ⟨item, mem_missing.mpr ⟨hderived, fun hmem => hthere ?_⟩, rfl⟩
      exact (List.filter_sublist.map RoleAssignment.key).subset hmem
  -- and nothing that is in force is not wanted
  have hended : t'.endedBy personUuid derived (day.getD today) = 0 := by
    refine List.countP_eq_zero.mpr fun row hrow => ?_
    obtain ⟨hmem, hown⟩ := List.mem_filter.mp hrow
    have hlive : (row.endAt (Assignments.reconciledEnd personUuid derived (day.getD today)
        row)).live (day.getD today) = true ↔ _ := live_endAt_iff (of_decide_eq_true hown)
    rw [hsettled row hmem, RoleAssignment.endAt_validUntil] at hlive
    simp only [decide_eq_true_eq, not_and, Bool.not_eq_true]
    intro hunwanted
    exact Bool.eq_false_iff.mpr fun hin => hunwanted (hlive.mp hin).1
  rw [reconcileDerived_eq, hends, hnone, hended]
  rfl

end Steps

/-! ## The facts -/

/-- **Deriving roles makes them match the facts exactly where every row for them is in time.** -/
theorem reconciles_iff (t : Assignments) (personUuid : String) (derived : List Assignment)
    (day : Option Int) (today : Int) : t.Reconciles personUuid derived day today ↔
      t.InTime personUuid derived (day.getD today) := by
  constructor
  · rintro ⟨t', counts, h, hfacts, -, -⟩
    have hin : ∀ item ∈ derived, item.fact ∈ t'.derivedFacts personUuid (day.getD today) := by
      intro item hitem
      rw [hfacts, List.mem_toFinset]
      exact List.mem_map.mpr ⟨item, hitem, rfl⟩
    have howned : ∀ item ∈ derived, item.origin.Derived := by
      intro item hitem
      rcases (mem_derivedFacts h).mp (hin item hitem) with
        ⟨row, -, hderived, -, -, -, hfact⟩ | ⟨other, -, hderived, hfact⟩
      · have horigin : row.originKind = item.origin := congrArg (fun fact => fact.2.1) hfact
        exact horigin ▸ hderived
      · have horigin : other.origin = item.origin := congrArg (fun fact => fact.2.1) hfact
        exact horigin ▸ hderived
    -- a wanted row is the only one that can be in force for what it says
    have hwanted : ∀ row ∈ t.rows, row.key ∈ derived.map (Assignments.derivedKey personUuid) →
        row.validFrom ≤ day.getD today ∧ row.validUntil ≠ some (day.getD today) := by
      intro row hrow hkey
      obtain ⟨item, hitem, hsame⟩ := List.mem_map.mp hkey
      have hitemFact : item.fact = row.fact := (congrArg Prod.snd hsame :)
      rcases (mem_derivedFacts h).mp (hin item hitem) with
        ⟨other, hother, -, hotherKey, hfrom, huntil, hfact⟩ | ⟨other, hother, -, hfact⟩
      · have hperson := personUuid_of_key hkey
        have hotherPerson := personUuid_of_key hotherKey
        obtain rfl : other = row := Assignments.eq_of_key hother hrow
          (Prod.ext (hotherPerson.trans hperson.symm) (hfact.trans hitemFact))
        exact ⟨hfrom, huntil⟩
      · refine absurd (List.mem_map.mpr ⟨row, hrow, ?_⟩) (notMem_of_missing howned hother)
        rw [← hsame]
        exact Prod.ext rfl hfact.symm
    exact ⟨howned, fun row hrow hkey => (hwanted row hrow hkey).1,
      fun row hrow hkey => (hwanted row hrow hkey).2⟩
  · rintro ⟨howned, hbegun, hopen⟩
    obtain ⟨t', counts, h⟩ : ∃ t' counts,
        t.reconcileDerived personUuid derived day today = .ok (t', counts) :=
      exists_reconcileDerived howned
    refine ⟨t', counts, h, ?_, notDerived_reconcileDerived howned h, reconcileDerived_again howned h⟩
    ext fact
    rw [mem_derivedFacts h, List.mem_toFinset, List.mem_map]
    constructor
    · rintro (⟨row, -, -, hkey, -, -, rfl⟩ | ⟨item, hitem, -, rfl⟩)
      · obtain ⟨item, hitem, hsame⟩ := List.mem_map.mp hkey
        exact ⟨item, hitem, (congrArg Prod.snd hsame :)⟩
      · exact ⟨item, (mem_missing.mp hitem).1, rfl⟩
    · rintro ⟨item, hitem, rfl⟩
      by_cases hthere : Assignments.derivedKey personUuid item ∈ t.rows.map RoleAssignment.key
      · obtain ⟨row, hrow, hsame⟩ := List.mem_map.mp hthere
        have hkey : row.key ∈ derived.map (Assignments.derivedKey personUuid) :=
          List.mem_map.mpr ⟨item, hitem, hsame.symm⟩
        have horigin : row.originKind = item.origin := congrArg (fun key => key.2.2.1) hsame
        exact .inl ⟨row, hrow, horigin ▸ howned item hitem, hkey, hbegun row hrow hkey,
          hopen row hrow hkey, (congrArg Prod.snd hsame :)⟩
      · refine .inr ⟨item, mem_missing.mpr ⟨hitem, fun hmem => hthere ?_⟩, howned item hitem, rfl⟩
        exact (List.filter_sublist.map RoleAssignment.key).subset hmem

/-! ### Enrolled, gone and back on one day -/

/-- Sam's affiliation makes him a student. -/
def studies : List Assignment := [⟨"student", .affiliation, "student"⟩]

/-- The table after a derivation. -/
def derivedOn (t : Assignments) (derived : List Assignment) (day : Int) : Assignments :=
  match t.reconcileDerived "sam" derived (some day) day with
  | .ok (t', _) => t'
  | .error _ => t

/-- **Sam is not a student again**: his affiliation came back on the day on which it had gone. -/
theorem not_reconciles : ¬ ∀ (t : Assignments) (personUuid : String) (derived : List Assignment)
    (day : Option Int) (today : Int), (∀ item ∈ derived, item.origin.Derived) →
      t.Reconciles personUuid derived day today := by
  intro h
  have hback := (reconciles_iff (derivedOn (derivedOn {} studies 0) [] 10) "sam" studies (some 10)
    10).mp (h _ _ _ _ _ (by decide))
  exact absurd hback.unended (by decide +kernel)

end Authz
end CampusID
