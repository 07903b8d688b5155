import CampusID.Authz.Duties

/-!
# Does a change of roles act from its day forward?

`roles_for` answers for any day, so what it says of a day that has passed should stay.  Three
writes change an answer of the past or miss one of the future: a grant extends a row in place and
keeps its first day, a revocation ends what is in force and passes over what begins later, and a
derivation reopens a row by taking its end away.

`acts_forward_iff` says when each of them does as it should.
-/

namespace CampusID
namespace Authz

open Lib

/-- A call of `grant`, `revoke` or `reconcile_derived`, and the day on which it is made. -/
inductive RoleChange where
  | grant (personUuid role grantedBy : String) (validFrom validUntil : Option Int) (today : Int)
  | revoke (personUuid role : String) (day : Option Int) (today : Int)
  | reconcile (personUuid : String) (derived : List Assignment) (day : Option Int) (today : Int)
  deriving DecidableEq, Repr

/-- The day as of which a change is made. -/
def RoleChange.day : RoleChange → Int
  | .grant _ _ _ validFrom _ today => validFrom.getD today
  | .revoke _ _ day today => day.getD today
  | .reconcile _ _ day today => day.getD today

/-- What a change writes, unless it is refused. -/
def RoleCatalogue.change (catalogue : RoleCatalogue) (t : Assignments) :
    RoleChange → Option Assignments
  | .grant personUuid role grantedBy validFrom validUntil today =>
    (t.grant catalogue personUuid role grantedBy validFrom validUntil today).toOption.map Prod.fst
  | .revoke personUuid role day today =>
    (t.revoke personUuid role day today).toOption.map Prod.fst
  | .reconcile personUuid derived day today =>
    (t.reconcileDerived personUuid derived day today).toOption.map Prod.fst

/-- What the change is for: a grant gives the role on its window, a revocation takes it from its
day on. -/
def RoleChange.Done (t : Assignments) : RoleChange → Prop
  | .grant personUuid role _ validFrom validUntil today => ∀ day, validFrom.getD today ≤ day →
      (∀ last ∈ validUntil, day < last) → role ∈ t.rolesFor personUuid day
  | .revoke personUuid role last today => ∀ day, last.getD today ≤ day →
      role ∉ t.rolesFor personUuid day
  | .reconcile _ _ _ _ => True

/-- **The change acts from its day forward**: before it every answer stays, and from it on the
change is done. -/
def ActsForward (t t' : Assignments) (change : RoleChange) : Prop :=
  (∀ person, ∀ day < change.day, t'.rolesFor person day = t.rolesFor person day) ∧ change.Done t'

/-- The roles of the rows that a grant does not touch. -/
def Assignments.heldElsewhere (t : Assignments) (key : String × String × Origin × String)
    (personUuid : String) (day : Int) : Finset String :=
  t.heldBy (fun row => row.key ≠ key) personUuid day

/-- **When a change acts forward.**

* A grant by somebody who has granted the role before: on each day before it the row is in force
  with its new end as it was with the old one, on each day of the window the row has begun, or else
  another row gives the role on that day.
* A revocation: each row of the role that is in force on a day from it on is in force on its own
  day.
* A derivation: on each day before it on which a row that it reopens has begun, the person held the
  role. -/
def ForwardOnly (t : Assignments) : RoleChange → Prop
  | .grant personUuid role grantedBy validFrom validUntil today =>
    ∀ row ∈ t.rows, row.key = (personUuid, role, Origin.direct, grantedBy) →
      (∀ day < validFrom.getD today, row.live day = (row.endAt validUntil).live day ∨
        role ∈ t.heldElsewhere row.key personUuid day) ∧
      ∀ day, validFrom.getD today ≤ day → (∀ last ∈ validUntil, day < last) →
        row.validFrom ≤ day ∨ role ∈ t.heldElsewhere row.key personUuid day
  | .revoke personUuid role last today =>
    ∀ row ∈ t.rows, row.personUuid = personUuid → row.role = role →
      ∀ day, last.getD today ≤ day → row.live day = true → row.live (last.getD today) = true
  | .reconcile personUuid derived last today =>
    ∀ row ∈ t.rows, row.personUuid = personUuid → row.originKind.Derived →
      row.key ∈ derived.map (Assignments.derivedKey personUuid) →
        (∃ ended ∈ row.validUntil, ended < last.getD today) →
          ∀ day < last.getD today, row.validFrom ≤ day → row.role ∈ t.rolesFor personUuid day

variable {catalogue : RoleCatalogue} {t t' : Assignments} {row : RoleAssignment}
  {personUuid role grantedBy person name : String} {validFrom validUntil last : Option Int}
  {day today : Int} {added : Bool} {derived : List Assignment}

/-! ## Grants -/

theorem mem_rolesFor : name ∈ t.rolesFor person day ↔
    ∃ row ∈ t.rows, row.personUuid = person ∧ row.live day = true ∧ row.role = name := by
  simp [Assignments.rolesFor, Assignments.mem_heldBy]

theorem mem_rolesFor_iff (hrow : row ∈ t.rows) : name ∈ t.rolesFor person day ↔
    name ∈ t.heldElsewhere row.key person day ∨
      (row.personUuid = person ∧ row.live day = true ∧ row.role = name) := by
  rw [mem_rolesFor, Assignments.heldElsewhere, Assignments.mem_heldBy]
  constructor
  · rintro ⟨other, hother, hperson, hlive, hrole⟩
    by_cases hkey : other.key = row.key
    · obtain rfl := Assignments.eq_of_key hother hrow hkey
      exact .inr ⟨hperson, hlive, hrole⟩
    · exact .inl ⟨other, hother, hperson, hlive, by simpa using hkey, hrole⟩
  · rintro (⟨other, hother, hperson, hlive, -, hrole⟩ | ⟨hperson, hlive, hrole⟩)
    · exact ⟨other, hother, hperson, hlive, hrole⟩
    · exact ⟨row, hrow, hperson, hlive, hrole⟩

theorem mem_rolesFor_grant (h : t.grant catalogue personUuid role grantedBy validFrom validUntil
      today = .ok (t', added)) : name ∈ t'.rolesFor person day ↔
    name ∈ t.heldElsewhere (personUuid, role, .direct, grantedBy) person day ∨
      (personUuid = person ∧ (t.startOf (personUuid, role, .direct, grantedBy)
        (validFrom.getD today) ≤ day ∧ ∀ last ∈ validUntil, day < last) ∧ role = name) := by
  obtain ⟨granted, hkey, hfrom, huntil, hrows⟩ := Assignments.grant_ok h
  have hgranted : granted.live day = true ↔
      t.startOf (personUuid, role, .direct, grantedBy) (validFrom.getD today) ≤ day ∧
        ∀ last ∈ validUntil, day < last := by
    rw [RoleAssignment.live_iff, hfrom, huntil]
  simp only [RoleAssignment.key, Prod.mk.injEq] at hkey
  rw [mem_rolesFor, Assignments.heldElsewhere, Assignments.mem_heldBy, ← hgranted]
  constructor
  · rintro ⟨other, hother, hperson, hlive, hrole⟩
    rcases (hrows other).mp hother with ⟨hold, hne⟩ | rfl
    · exact .inl ⟨other, hold, hperson, hlive, by simpa using hne, hrole⟩
    · exact .inr ⟨hkey.1.symm.trans hperson, hlive, hkey.2.1.symm.trans hrole⟩
  · rintro (⟨other, hold, hperson, hlive, hne, hrole⟩ | ⟨hperson, hlive, hrole⟩)
    · exact ⟨other, (hrows other).mpr (.inl ⟨hold, by simpa using hne⟩), hperson, hlive, hrole⟩
    · exact ⟨granted, (hrows granted).mpr (.inr rfl), hkey.1.trans hperson, hlive,
        hkey.2.1.trans hrole⟩

theorem heldElsewhere_of_new {key : String × String × Origin × String}
    (hnew : key ∉ t.rows.map RoleAssignment.key) :
    t.heldElsewhere key person day = t.rolesFor person day := by
  ext name
  rw [mem_rolesFor, Assignments.heldElsewhere, Assignments.mem_heldBy]
  refine exists_congr fun row => and_congr_right fun hrow => ?_
  have hne : row.key ≠ key := fun hkey => hnew (List.mem_map.mpr ⟨row, hrow, hkey⟩)
  simp [hne]

/-- **A grant of somebody who has not granted the role before acts forward.** -/
theorem acts_forward_of_new (h : t.grant catalogue personUuid role grantedBy validFrom validUntil
      today = .ok (t', added))
    (hnew : (personUuid, role, Origin.direct, grantedBy) ∉ t.rows.map RoleAssignment.key) :
    ActsForward t t' (.grant personUuid role grantedBy validFrom validUntil today) := by
  have hstart : t.startOf (personUuid, role, .direct, grantedBy) (validFrom.getD today) =
      validFrom.getD today := Assignments.startOf_of_notMem hnew
  refine ⟨fun person day hday => ?_, fun day hday hlast => ?_⟩
  · ext name
    rw [mem_rolesFor_grant h, hstart, heldElsewhere_of_new hnew]
    exact or_iff_left fun hnow => absurd hnow.2.1.1 (Int.not_le.mpr hday)
  · rw [mem_rolesFor_grant h, hstart]
    exact .inr ⟨rfl, ⟨hday, hlast⟩, rfl⟩

/-- **A grant of somebody who has granted the role before.** -/
theorem acts_forward_of_old (h : t.grant catalogue personUuid role grantedBy validFrom validUntil
      today = .ok (t', added)) (hrow : row ∈ t.rows)
    (hkey : row.key = (personUuid, role, Origin.direct, grantedBy)) :
    ActsForward t t' (.grant personUuid role grantedBy validFrom validUntil today) ↔
      (∀ day < validFrom.getD today, row.live day = (row.endAt validUntil).live day ∨
        role ∈ t.heldElsewhere row.key personUuid day) ∧
      ∀ day, validFrom.getD today ≤ day → (∀ last ∈ validUntil, day < last) →
        row.validFrom ≤ day ∨ role ∈ t.heldElsewhere row.key personUuid day := by
  have hafter : ∀ name person day, name ∈ t'.rolesFor person day ↔
      name ∈ t.heldElsewhere row.key person day ∨
        (personUuid = person ∧ (row.endAt validUntil).live day = true ∧ role = name) := by
    intro name person day
    rw [mem_rolesFor_grant h, RoleAssignment.live_iff, ← hkey, Assignments.startOf_of_mem hrow]
    rfl
  have hbefore : ∀ name person day, name ∈ t.rolesFor person day ↔
      name ∈ t.heldElsewhere row.key person day ∨
        (personUuid = person ∧ row.live day = true ∧ role = name) := by
    intro name person day
    simp only [RoleAssignment.key, Prod.mk.injEq] at hkey
    rw [mem_rolesFor_iff hrow, hkey.1, hkey.2.1]
  refine and_congr ⟨fun hstays day hday => ?_, fun hsame person day hday => ?_⟩
    ⟨fun hdone day hday hlast => ?_, fun hbegun day hday hlast => ?_⟩
  · refine or_iff_not_imp_right.mpr fun hnot => ?_
    have hrole := Finset.ext_iff.mp (hstays personUuid day hday) role
    rw [hafter, hbefore, or_iff_right hnot, or_iff_right hnot] at hrole
    simp only [true_and, and_true] at hrole
    exact Bool.eq_iff_iff.mpr hrole.symm
  · ext name
    rw [hafter, hbefore]
    by_cases hother : personUuid = person ∧ role = name
    · obtain ⟨rfl, rfl⟩ := hother
      rcases hsame day hday with heq | hheld
      · rw [heq]
      · exact iff_of_true (.inl hheld) (.inl hheld)
    · refine or_congr_right (iff_of_false ?_ ?_)
      · exact fun hnow => hother ⟨hnow.1, hnow.2.2⟩
      · exact fun hnow => hother ⟨hnow.1, hnow.2.2⟩
  · rcases (hafter role personUuid day).mp (hdone day hday hlast) with hheld | ⟨-, hlive, -⟩
    · exact .inr hheld
    · exact .inl (RoleAssignment.live_iff.mp hlive).1
  · rw [hafter]
    rcases hbegun day hday hlast with hfrom | hheld
    · exact .inr ⟨rfl, RoleAssignment.live_iff.mpr ⟨hfrom, hlast⟩, rfl⟩
    · exact .inl hheld

/-! ## Revocations -/

/-- **A revocation.** -/
theorem acts_forward_revoke {ended : Nat}
    (h : t.revoke personUuid role last today = .ok (t', ended)) :
    ActsForward t t' (.revoke personUuid role last today) ↔
      ∀ row ∈ t.rows, row.personUuid = personUuid → row.role = role →
        ∀ day, last.getD today ≤ day → row.live day = true → row.live (last.getD today) = true := by
  have hrows := Assignments.revoke_ok h
  constructor
  · rintro ⟨-, hdone⟩ row hrow hperson hrole day hday hlive
    by_contra hnot
    refine hdone day hday (mem_rolesFor.mpr ⟨row, ?_, hperson, hlive, hrole⟩)
    rw [hrows, List.mem_map]
    refine ⟨row, hrow, ?_⟩
    rw [if_neg fun hwanted => hnot hwanted.2.2, RoleAssignment.endAt_validUntil]
  · intro hforward
    refine ⟨fun person day hday => ?_, fun day hday hheld => ?_⟩
    · refine Finset.Subset.antisymm (Assignments.heldBy_revoke_subset h fun _ _ => rfl) ?_
      intro name hname
      rw [mem_rolesFor] at hname ⊢
      obtain ⟨row, hrow, hperson, hlive, hrole⟩ := hname
      rw [hrows]
      refine ⟨_, List.mem_map.mpr ⟨row, hrow, rfl⟩, hperson, ?_, hrole⟩
      split_ifs with hended
      · rw [RoleAssignment.live_iff]
        refine ⟨(RoleAssignment.live_iff.mp hlive).1, fun last hlast => ?_⟩
        obtain rfl := Option.some.inj hlast
        exact hday
      · exact hlive
    · obtain ⟨row, hrow, hperson, hlive, hrole⟩ := mem_rolesFor.mp hheld
      rw [hrows, List.mem_map] at hrow
      obtain ⟨old, hold, rfl⟩ := hrow
      split_ifs at hlive with hended
      · exact absurd ((RoleAssignment.live_iff.mp hlive).2 _ rfl) (Int.not_lt.mpr hday)
      · exact hended ⟨hperson, hrole, hforward old hold hperson hrole day hday hlive⟩

/-! ## Derivations -/

theorem foldlM_insert_ok {β : Type} {make : β → RoleAssignment} {items : List β}
    (h : items.foldlM (fun table item => table.insert (make item)) t = .ok t') :
    t'.rows = t.rows ++ items.map make := by
  induction items generalizing t with
  | nil =>
    cases h
    exact (List.append_nil _).symm
  | cons item items ih =>
    rw [List.foldlM_cons] at h
    obtain ⟨table, hinsert, h⟩ := Eff.except_bind_eq_ok.mp h
    rw [ih h, (Assignments.insert_ok hinsert).2, List.map_cons, List.append_assoc,
      List.singleton_append]

/-- **A derivation that went through** gives the rows of its origins other ends, and adds rows that
begin on its day. -/
theorem reconcileDerived_ok {counts : Nat × Nat}
    (h : t.reconcileDerived personUuid derived last today = .ok (t', counts)) :
    ∃ new : List RoleAssignment, (∀ row ∈ new, row.validFrom = last.getD today) ∧
      t'.rows = (t.rows.map fun row =>
        row.endAt (Assignments.reconciledEnd personUuid derived (last.getD today) row)) ++ new := by
  obtain ⟨reconciled, hends, h⟩ := Eff.except_bind_eq_ok.mp h
  obtain ⟨table, hinserted, h⟩ := Eff.except_bind_eq_ok.mp h
  cases h
  have hrows := foldlM_insert_ok hinserted
  rw [Assignments.setEnds_ok hends] at hrows
  refine ⟨_, fun row hrow => ?_, hrows⟩
  obtain ⟨item, -, rfl⟩ := List.mem_map.mp hrow
  rfl

/-- A derivation reopens the row: it is wanted and has ended. -/
def Reopened (personUuid : String) (derived : List Assignment) (start : Int)
    (row : RoleAssignment) : Prop :=
  row.personUuid = personUuid ∧ row.originKind.Derived ∧
    row.key ∈ derived.map (Assignments.derivedKey personUuid) ∧
      ∃ ended ∈ row.validUntil, ended < start

theorem live_reconciledEnd {start : Int} (hday : day < start) :
    (row.endAt (Assignments.reconciledEnd personUuid derived start row)).live day = true ↔
      row.live day = true ∨ (Reopened personUuid derived start row ∧ row.validFrom ≤ day) := by
  unfold Assignments.reconciledEnd
  split_ifs with howned hwanted hlive
  · cases hlast : row.validUntil with
    | none =>
      have hsame : row.endAt none = row := by rw [← hlast, RoleAssignment.endAt_validUntil]
      rw [hsame, or_iff_left fun hopen => by simp [Reopened, hlast] at hopen]
    | some ended =>
      dsimp only
      split_ifs with hended
      · have hopen : Reopened personUuid derived start row :=
          ⟨howned.1, howned.2, hwanted, ended, hlast, hended⟩
        rw [RoleAssignment.live_iff, RoleAssignment.live_iff]
        constructor
        · exact fun hlive => .inr ⟨hopen, hlive.1⟩
        · rintro (hlive | ⟨-, hfrom⟩)
          · exact ⟨hlive.1, fun _ h => by cases h⟩
          · exact ⟨hfrom, fun _ h => by cases h⟩
      · have hsame : row.endAt (some ended) = row := by
          rw [← hlast, RoleAssignment.endAt_validUntil]
        rw [hsame, or_iff_left fun hopen => ?_]
        obtain ⟨⟨-, -, -, other, hother, hbefore⟩, -⟩ := hopen
        rw [hlast] at hother
        obtain rfl := Option.some.inj hother
        exact hended hbefore
  · -- what is ended on that day is in force before it as it was
    rw [or_iff_left fun hopen => hwanted hopen.1.2.2.1, RoleAssignment.live_iff,
      RoleAssignment.live_iff]
    refine and_congr_right fun hfrom => iff_of_true (fun last hlast => ?_) fun last hlast => ?_
    · obtain rfl := Option.some.inj hlast
      exact hday
    · exact lt_trans hday ((RoleAssignment.live_iff.mp hlive).2 last hlast)
  · rw [RoleAssignment.endAt_validUntil, or_iff_left fun hopen => hwanted hopen.1.2.2.1]
  · rw [RoleAssignment.endAt_validUntil, or_iff_left fun hopen => howned ⟨hopen.1.1, hopen.1.2.1⟩]

/-- **A derivation.** -/
theorem acts_forward_reconcile {counts : Nat × Nat}
    (h : t.reconcileDerived personUuid derived last today = .ok (t', counts)) :
    ActsForward t t' (.reconcile personUuid derived last today) ↔
      ForwardOnly t (.reconcile personUuid derived last today) := by
  obtain ⟨new, hnew, hrows⟩ := reconcileDerived_ok h
  have hafter : ∀ name person, ∀ day < last.getD today, name ∈ t'.rolesFor person day ↔
      name ∈ t.rolesFor person day ∨ ∃ row ∈ t.rows, row.personUuid = person ∧
        (Reopened personUuid derived (last.getD today) row ∧ row.validFrom ≤ day) ∧
          row.role = name := by
    intro name person day hday
    rw [mem_rolesFor, mem_rolesFor, hrows]
    constructor
    · rintro ⟨row, hrow, hperson, hlive, hrole⟩
      rcases List.mem_append.mp hrow with hmapped | hadded
      · obtain ⟨old, hold, rfl⟩ := List.mem_map.mp hmapped
        rcases (live_reconciledEnd hday).mp hlive with hbefore | hopen
        · exact .inl ⟨old, hold, hperson, hbefore, hrole⟩
        · exact .inr ⟨old, hold, hperson, hopen, hrole⟩
      · have hfrom := (RoleAssignment.live_iff.mp hlive).1
        rw [hnew row hadded] at hfrom
        exact absurd hfrom (Int.not_le.mpr hday)
    · rintro (⟨old, hold, hperson, hbefore, hrole⟩ | ⟨old, hold, hperson, hopen, hrole⟩)
      · refine ⟨_, List.mem_append_left new (List.mem_map.mpr ⟨old, hold, rfl⟩), hperson, ?_, hrole⟩
        exact (live_reconciledEnd hday).mpr (.inl hbefore)
      · refine ⟨_, List.mem_append_left new (List.mem_map.mpr ⟨old, hold, rfl⟩), hperson, ?_, hrole⟩
        exact (live_reconciledEnd hday).mpr (.inr hopen)
  constructor
  · rintro ⟨hstays, -⟩ row hrow hperson hderived hwanted hended day hday hfrom
    rw [← hstays personUuid day hday, hafter _ _ day hday]
    exact .inr ⟨row, hrow, hperson, ⟨⟨hperson, hderived, hwanted, hended⟩, hfrom⟩, rfl⟩
  · intro hforward
    refine ⟨fun person day hday => ?_, trivial⟩
    ext name
    rw [hafter name person day hday, or_iff_left_iff_imp]
    rintro ⟨row, hrow, hperson, ⟨⟨howner, hderived, hwanted, hended⟩, hfrom⟩, rfl⟩
    rw [← hperson, howner]
    exact hforward row hrow howner hderived hwanted hended day hday hfrom

/-! ## Every change -/

/-- **A change acts from its day forward exactly where it touches no row of the past** that the
others do not make up for. -/
theorem acts_forward_iff (catalogue : RoleCatalogue) (t t' : Assignments) (change : RoleChange)
    (h : catalogue.change t change = some t') : ActsForward t t' change ↔ ForwardOnly t change := by
  cases change with
  | grant personUuid role grantedBy validFrom validUntil today =>
    obtain ⟨⟨written, added⟩, hok, rfl⟩ := Eff.toOption_map_eq_some.mp h
    by_cases hthere : (personUuid, role, Origin.direct, grantedBy) ∈ t.rows.map RoleAssignment.key
    · obtain ⟨row, hrow, hkey⟩ := List.mem_map.mp hthere
      rw [acts_forward_of_old hok hrow hkey]
      constructor
      · intro hforward other hother hsame
        obtain rfl := Assignments.eq_of_key hother hrow (hsame.trans hkey.symm)
        exact hforward
      · exact fun hforward => hforward row hrow hkey
    · refine iff_of_true (acts_forward_of_new hok hthere) fun row hrow hkey => ?_
      exact absurd (List.mem_map.mpr ⟨row, hrow, hkey⟩) hthere
  | revoke personUuid role day today =>
    obtain ⟨⟨written, ended⟩, hok, rfl⟩ := Eff.toOption_map_eq_some.mp h
    exact acts_forward_revoke hok
  | reconcile personUuid derived day today =>
    obtain ⟨⟨written, counts⟩, hok, rfl⟩ := Eff.toOption_map_eq_some.mp h
    exact acts_forward_reconcile hok

/-! ### Days that are rewritten -/

/-- Roles without conflicts. -/
def courses : RoleCatalogue where
  roles := {"instructor", "student"}

/-- Ann makes Sam an instructor. -/
def teaches (validFrom : Int) (validUntil : Option Int) : RoleChange :=
  .grant "sam" "instructor" "ann" (some validFrom) validUntil 0

/-- The table after a change. -/
def changed (t : Assignments) (change : RoleChange) : Assignments :=
  (courses.change t change).getD t

theorem change_eq_some {change : RoleChange} (h : courses.change t change ≠ none) :
    courses.change t change = some (changed t change) := by
  obtain ⟨t', hout⟩ := Option.ne_none_iff_exists'.mp h
  rw [changed, hout]
  rfl

/-- Sam, who teaches until the twentieth day, will go on: nothing changes before the fifteenth. -/
theorem acts_forward_extended :
    ActsForward (changed {} (teaches 10 (some 20)))
      (changed (changed {} (teaches 10 (some 20))) (teaches 15 none)) (teaches 15 none) := by
  have hrows : (changed {} (teaches 10 (some 20))).rows =
      [⟨"sam", "instructor", .direct, "ann", 10, some 20, some "ann"⟩] := by decide +kernel
  refine (acts_forward_iff courses _ _ _ (change_eq_some (by decide +kernel))).mpr ?_
  intro row hrow _
  rw [hrows, List.mem_singleton] at hrow
  subst hrow
  refine ⟨fun day hday => .inl ?_, fun day hday _ => .inl ?_⟩
  · have hend : day < 20 := lt_trans hday (by decide)
    simp [RoleAssignment.live, RoleAssignment.endAt, hend]
  · exact le_trans (by decide) hday

/-- **Sam has taught all along**: a grant for days five days after the first has ended covers the
days between. -/
theorem not_acts_forward : ¬ ∀ (catalogue : RoleCatalogue) (t t' : Assignments)
    (change : RoleChange), catalogue.change t change = some t' → ActsForward t t' change := by
  intro h
  have hforward := h courses (changed {} (teaches 0 (some 5))) _ (teaches 10 none)
    (change_eq_some (by decide +kernel))
  exact absurd (hforward.1 "sam" 7 (by decide)) (by decide +kernel)

end Authz
end CampusID
