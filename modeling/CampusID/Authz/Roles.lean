import CampusID.Lib.Effects
import CampusID.Text
import Mathlib.Data.Prod.Lex
import Mathlib.Data.String.Basic
import Mathlib.Data.Finset.Image

/-!
# Role assignments

`RoleAssignmentStore`: one row for each reason somebody holds a role, with the days on which it is
in force.  An administrator's grant is refused where it would break the separation of duties
(`grant`), a derivation adds and ends the rows of its own origins (`reconcileDerived`), and a
revocation ends the rows of every origin (`revoke`).

The table carries its constraints, so a write that would violate one is refused.  A day is a
number; `today` stands for the day on which a method is called.
-/

namespace CampusID
namespace Authz

open Lib

/-! ## The catalogue -/

/-- `Origin`. -/
inductive Origin where
  | affiliation
  | group
  | direct
  deriving DecidableEq, Repr

/-- `Origin.value`. -/
def Origin.value : Origin → String
  | .affiliation => "affiliation"
  | .group => "group"
  | .direct => "direct"

/-- `DERIVED`: the origins a derivation owns. -/
def Origin.Derived (origin : Origin) : Prop := origin ≠ .direct

instance (origin : Origin) : Decidable origin.Derived := inferInstanceAs (Decidable (_ ≠ _))

/-- `Conflict`. -/
structure Conflict where
  roles : Finset String
  reason : String
  deriving DecidableEq

/-- `Assignment`. -/
structure Assignment where
  role : String
  origin : Origin
  reference : String
  deriving DecidableEq, Repr

/-- `RoleCatalogue`, without what its roles are called and how they are derived. -/
structure RoleCatalogue where
  roles : Finset String
  conflicts : List Conflict := []

/-- What a write is refused with: a `RoleError`, or the constraint of a table. -/
inductive RoleError where
  | role (message : String)
  | integrity
  deriving DecidableEq, Repr

/-- `repr` of a list of strings. -/
def reprs (words : List String) : String := "[" ++ ", ".intercalate (words.map Text.pyRepr) ++ "]"

/-- `str` of a conflict. -/
def Conflict.text (conflict : Conflict) : String :=
  reprs (Text.sorted conflict.roles) ++ ": " ++ conflict.reason

namespace RoleCatalogue

variable (catalogue : RoleCatalogue)

/-- `conflicting`. -/
def conflicting (roles : Finset String) : List Conflict :=
  catalogue.conflicts.filter (·.roles ⊆ roles)

/-- `assert_compatible`. -/
def assertCompatible (roles : Finset String) : Except RoleError Unit :=
  match catalogue.conflicting roles with
  | [] => .ok ()
  | violations => .error (.role ("separation of duties refuses this combination — " ++
      "; ".intercalate (violations.map Conflict.text)))

end RoleCatalogue

/-! ## The table -/

/-- `RoleAssignment`. -/
structure RoleAssignment where
  personUuid : String
  role : String
  originKind : Origin
  originRef : String
  validFrom : Int
  validUntil : Option Int := none
  grantedBy : Option String := none
  deriving DecidableEq, Repr

namespace RoleAssignment

/-- `_live`. -/
def live (row : RoleAssignment) (day : Int) : Bool :=
  if row.validFrom > day then false
  else
    match row.validUntil with
    | none => true
    | some last => last > day

/-- What the constraint compares is compared with its parts. -/
instance : LawfulBEq (String × String × Origin × String) := inferInstance

/-- `uq_role_assignment_origin`. -/
def key (row : RoleAssignment) : String × String × Origin × String :=
  (row.personUuid, row.role, row.originKind, row.originRef)

/-- `ck_role_assignment_dates`. -/
def Dated (row : RoleAssignment) : Prop := ∀ last ∈ row.validUntil, row.validFrom ≤ last

instance (row : RoleAssignment) : Decidable row.Dated :=
  inferInstanceAs (Decidable (∀ last ∈ row.validUntil, _ ≤ last))

/-- The row with another end. -/
def endAt (row : RoleAssignment) (last : Option Int) : RoleAssignment :=
  { row with validUntil := last }

@[simp] theorem key_endAt (row : RoleAssignment) (last : Option Int) :
    (row.endAt last).key = row.key := rfl

@[simp] theorem endAt_validUntil (row : RoleAssignment) : row.endAt row.validUntil = row := rfl

theorem live_iff {row : RoleAssignment} {day : Int} :
    row.live day = true ↔ row.validFrom ≤ day ∧ ∀ last ∈ row.validUntil, day < last := by
  unfold live
  cases row.validUntil with
  | none => simp
  | some last => simp

end RoleAssignment

/-- The table, with its constraints. -/
structure Assignments where
  rows : List RoleAssignment := []
  keyed : (rows.map RoleAssignment.key).Nodup := by simp
  dated : ∀ row ∈ rows, row.Dated := by simp

namespace Assignments

variable (t : Assignments)

/-- Insert a row under the constraints. -/
def insert (row : RoleAssignment) : Except RoleError Assignments :=
  if h : row.key ∉ t.rows.map RoleAssignment.key ∧ row.Dated then
    .ok {
      rows := t.rows ++ [row]
      keyed := by
        rw [List.map_append, List.map_singleton]
        exact t.keyed.append (List.nodup_singleton _) (List.disjoint_singleton.mpr h.1)
      dated := fun other hother => by
        rcases List.mem_append.mp hother with hold | hnew
        · exact t.dated other hold
        · rw [List.mem_singleton.mp hnew]
          exact h.2 }
  else .error .integrity

/-- Give the rows other ends under the constraints. -/
def setEnds (last : RoleAssignment → Option Int) : Except RoleError Assignments :=
  if h : ∀ row ∈ t.rows, (row.endAt (last row)).Dated then
    .ok {
      rows := t.rows.map fun row => row.endAt (last row)
      keyed := by
        rw [List.map_map]
        exact t.keyed
      dated := fun other hother => by
        obtain ⟨row, hrow, rfl⟩ := List.mem_map.mp hother
        exact h row hrow }
  else .error .integrity

/-- The roles that a person holds on a day by rows that count. -/
def heldBy (counts : RoleAssignment → Bool) (personUuid : String) (day : Int) : Finset String :=
  ((t.rows.filter fun row => row.personUuid = personUuid ∧ row.live day ∧ counts row).map
    RoleAssignment.role).toFinset

/-- `roles_for`. -/
def rolesFor (personUuid : String) (day : Int) : Finset String :=
  t.heldBy (fun _ => true) personUuid day

/-- The roles that a person holds on a day by somebody's decision. -/
def directRoles (personUuid : String) (day : Int) : Finset String :=
  t.heldBy (fun row => row.originKind = .direct) personUuid day

end Assignments

/-! ## The store -/

namespace Assignments

variable (t : Assignments)

/-- `grant`: the table, and whether there is a new row. -/
def grant (catalogue : RoleCatalogue) (personUuid role grantedBy : String) (validFrom : Option Int)
    (validUntil : Option Int) (today : Int) : Except RoleError (Assignments × Bool) :=
  if role ∉ catalogue.roles then .error (.role ("no such role " ++ Text.pyRepr role))
  else do
    let start := validFrom.getD today
    catalogue.assertCompatible (Insert.insert role (t.rolesFor personUuid start))
    let key := (personUuid, role, Origin.direct, grantedBy)
    if key ∈ t.rows.map RoleAssignment.key then do
      -- the same grant from the same person: only its end changes
      let extended ← t.setEnds fun row => if row.key = key then validUntil else row.validUntil
      return (extended, false)
    else do
      let granted ← t.insert {
        personUuid := personUuid
        role := role
        originKind := .direct
        originRef := grantedBy
        validFrom := start
        validUntil := validUntil
        grantedBy := some grantedBy }
      return (granted, true)

/-- `revoke`: the table, and how many rows were ended. -/
def revoke (personUuid role : String) (day : Option Int) (today : Int) :
    Except RoleError (Assignments × Nat) := do
  let last := day.getD today
  let wanted (row : RoleAssignment) : Bool :=
    row.personUuid = personUuid ∧ row.role = role ∧ row.live last
  let ended ← t.setEnds fun row => if wanted row then some last else row.validUntil
  return (ended, t.rows.countP wanted)

/-- The key of a row that a derivation asks for. -/
def derivedKey (personUuid : String) (item : Assignment) : String × String × Origin × String :=
  (personUuid, item.role, item.origin, item.reference)

/-- The end that a derivation gives a row of the person: one that is wanted and has ended is
reopened, one that is not wanted and in force is ended. -/
def reconciledEnd (personUuid : String) (derived : List Assignment) (today : Int)
    (row : RoleAssignment) : Option Int :=
  if row.personUuid = personUuid ∧ row.originKind.Derived then
    if row.key ∈ derived.map (derivedKey personUuid) then
      match row.validUntil with
      | some last => if last < today then none else some last
      | none => none
    else if row.live today then some today
    else row.validUntil
  else row.validUntil

/-- `reconcile_derived`: the table, and how many rows were added and ended. -/
def reconcileDerived (personUuid : String) (derived : List Assignment) (day : Option Int)
    (today : Int) : Except RoleError (Assignments × (Nat × Nat)) := do
  let start := day.getD today
  let owned := t.rows.filter fun row => row.personUuid = personUuid ∧ row.originKind.Derived
  let missing := (derived.dedup.filter fun item =>
    derivedKey personUuid item ∉ owned.map RoleAssignment.key).insertionSort fun a b =>
      toLex (a.role, toLex (a.origin.value, a.reference)) ≤
        toLex (b.role, toLex (b.origin.value, b.reference))
  let reconciled ← t.setEnds (reconciledEnd personUuid derived start)
  let added ← missing.foldlM (fun table item => table.insert {
    personUuid := personUuid
    role := item.role
    originKind := item.origin
    originRef := item.reference
    validFrom := start }) reconciled
  return (added, missing.length, owned.countP fun row =>
    row.key ∉ derived.map (derivedKey personUuid) ∧ row.live start)

end Assignments

end Authz
end CampusID
