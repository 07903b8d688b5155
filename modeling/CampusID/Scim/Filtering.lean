import CampusID.Scim.Membership
import CampusID.Scim.Removing

/-!
# What a filter sees of a member

A filter of `members` is evaluated on a member as it is projected for it: the person's identifier,
a name to show, and a type.  A filter for a `value` selects the projection that has it
(`selects_projected`), and the rows it stands for are told by `mem_selected`.
-/

namespace CampusID
namespace Scim
namespace GroupPatch

open Lib
open Audit (Json)

variable {py : Builtins} {uuids : Uuids} {persons : List Person} {uniqueId : String → String}
  {groupId : String} {tables : GroupTables} {path : AttrPath} {value : String}

/-- A path that names an attribute of the member itself. -/
def Unqualified (path : AttrPath) : Prop := truthy path.urn = none ∧ path.subAttribute = none

theorem memberTarget_eq_some {predicate : Node} {target : String} :
    memberTarget py uuids predicate = some target ↔ ∃ path value,
      predicate = .comparison path .eq (.str value) ∧ py.lower path.attributeName = "value" ∧
        truthy path.subAttribute = none ∧ uuids.parse value = some target := by
  unfold memberTarget
  split
  · rename_i path value
    constructor
    · intro h
      split_ifs at h with hother
      rw [not_or, not_not, Option.not_isSome_iff_eq_none] at hother
      exact ⟨path, value, rfl, hother.1, hother.2, h⟩
    · rintro ⟨_, _, ⟨⟩, hvalue, hsub, hparse⟩
      rw [if_neg (by simp [hvalue, hsub]), hparse]
  · rename_i hother
    simp only [reduceCtorEq, false_iff]
    rintro ⟨path, value, rfl, -⟩
    exact hother path value rfl

/-! ## Names in an object -/

theorem getInsensitive_of_lookup {entry : Object} {k name : String} {value : Json}
    (hsingle : Folded.Single py.lower entry) (hlookup : entry.lookup k = some value)
    (hname : py.lower name = py.lower k) : getInsensitive py entry name = value := by
  have hmem := mem_of_lookup hlookup
  cases hspelling : Folded.spelling py.lower entry name with
  | none => exact absurd hname.symm (Folded.spelling_eq_none.mp hspelling _ hmem)
  | some spelled =>
    obtain ⟨held, hheld, hkey⟩ := List.mem_map.mp (Folded.spelling_mem hspelling)
    have hfold : py.lower held.1 = py.lower k := by
      rw [hkey, Folded.fold_spelling hspelling, hname]
    rw [hsingle.eq hheld hmem hfold] at hkey
    rw [getInsensitive, hspelling, ← hkey, Option.bind_some, hlookup]
    rfl

/-- A filter for a `value` compares it with the one of the entry, whatever else that holds. -/
theorem selects_value {entry : Object} {raw : String} (hpath : Unqualified path)
    (hvalue : py.lower path.attributeName = "value") (hsingle : Folded.Single py.lower entry)
    (hlookup : entry.lookup "value" = some (.str raw)) :
    selects py (.comparison path .eq (.str value)) (.dict entry) = true ↔
      py.lower raw = py.lower value := by
  have hread : readPath py entry path = .str raw := by
    unfold readPath
    rw [hpath.1, hpath.2]
    exact getInsensitive_of_lookup hsingle hlookup
      (hvalue.trans ((py.lower_ascii "value" rfl).trans (by decide)).symm)
  have hselects : selects py (.comparison path .eq (.str value)) (.dict entry) =
      compare py entry path .eq (.str value) := rfl
  rw [hselects, compare, hread]
  simp [compareOne, isEqual]

/-! ## A projected member -/

/-- The entries of a projected member. -/
def entriesOf (member : String × String) : Object :=
  [("value", .str member.1), ("display", .str member.2), ("type", .str "User")]

theorem single_entriesOf (member : String × String) :
    Folded.Single py.lower (entriesOf member) := by
  have hvalue : py.lower "value" = "value" := (py.lower_ascii "value" rfl).trans (by decide)
  have hdisplay : py.lower "display" = "display" := (py.lower_ascii "display" rfl).trans (by decide)
  have htype : py.lower "type" = "type" := (py.lower_ascii "type" rfl).trans (by decide)
  unfold Folded.Single entriesOf
  simp only [List.map_cons, List.map_nil, hvalue, hdisplay, htype]
  decide

theorem getInsensitive_entriesOf (member : String × String) (name : String) (entries : Object) :
    getInsensitive py (entriesOf member) name ≠ .dict entries := by
  intro h
  unfold getInsensitive at h
  rcases hfound : (Folded.spelling py.lower (entriesOf member) name).bind fun key =>
    (entriesOf member).lookup key with _ | found
  · rw [hfound] at h
    cases h
  · rw [hfound, Option.getD_some] at h
    obtain ⟨key, -, hlookup⟩ := Option.bind_eq_some_iff.mp hfound
    have hmem := mem_of_lookup hlookup
    rw [h] at hmem
    simp [entriesOf] at hmem

theorem readPath_entriesOf (hvalue : py.lower path.attributeName = "value")
    (member : String × String) :
    (Unqualified path ∧ readPath py (entriesOf member) path = .str member.1) ∨
      (¬ Unqualified path ∧ readPath py (entriesOf member) path = .null) := by
  unfold readPath
  cases hurn : truthy path.urn with
  | some urn =>
    -- no value of a member is an object, so there is nothing under a URN
    refine .inr ⟨fun h => by simp [h.1] at hurn, ?_⟩
    dsimp only
    cases hextension : getInsensitive py (entriesOf member) urn with
    | dict entries => exact absurd hextension (getInsensitive_entriesOf member urn entries)
    | _ => cases path.subAttribute <;> rfl
  | none =>
    have hread : getInsensitive py (entriesOf member) path.attributeName = .str member.1 :=
      getInsensitive_of_lookup (single_entriesOf member) rfl
        (hvalue.trans ((py.lower_ascii "value" rfl).trans (by decide)).symm)
    dsimp only
    rw [hread]
    cases hname : path.subAttribute with
    | none => exact .inl ⟨⟨hurn, hname⟩, rfl⟩
    | some name => exact .inr ⟨fun h => by simp [h.2] at hname, rfl⟩

theorem selects_projected (hvalue : py.lower path.attributeName = "value")
    (member : String × String) :
    selects py (.comparison path .eq (.str value)) (projected member) = true ↔
      Unqualified path ∧ py.lower member.1 = py.lower value := by
  have hselects : selects py (.comparison path .eq (.str value)) (projected member) =
      compare py (entriesOf member) path .eq (.str value) := rfl
  rw [hselects, compare]
  rcases readPath_entriesOf hvalue member with ⟨hpath, hread⟩ | ⟨hpath, hread⟩
  · rw [hread]
    simp [compareOne, isEqual, hpath]
  · rw [hread]
    simp [compareOne, hpath]

/-! ## The people of the rows -/

/-- How a person is shown among the members. -/
def shownAs (persons : List Person) (uniqueId : String → String) (id : String) :
    Option (String × String) :=
  (persons.find? (·.personUuid = id)).map fun person =>
    (id, (person.displayName.filter (· ≠ "")).getD (uniqueId id))

theorem fst_of_shownAs {id : String} {member : String × String}
    (h : shownAs persons uniqueId id = some member) : member.1 = id := by
  obtain ⟨person, -, rfl⟩ := Option.map_eq_some_iff.mp h
  rfl

/-- **The people a filter selects that is not recognised**: members whose projection it selects. -/
theorem mem_selected {predicate : String × String → Bool} {people : List String}
    (h : GroupTables.selected persons uniqueId groupId tables (.matching predicate) = .ok people)
    (id : String) : id ∈ people ↔ tables.isMember groupId id = true ∧
      ∃ member, shownAs persons uniqueId id = some member ∧ predicate member = true := by
  unfold GroupTables.selected at h
  dsimp only at h
  split_ifs at h with hmany
  cases h
  simp only [GroupTables.membersOf, List.mem_map, List.mem_filter, List.mem_filterMap]
  rw [List.take_of_length_le (by rw [List.length_insertionSort]; exact Nat.le_of_not_lt hmany),
    GroupTables.isMember_iff]
  constructor
  · rintro ⟨member, ⟨⟨row, hrow, hshown⟩, hpredicate⟩, rfl⟩
    obtain ⟨hrow, hgroup⟩ := List.mem_filter.mp ((List.mem_insertionSort _).mp hrow)
    have hid := fst_of_shownAs hshown
    exact ⟨⟨row, hrow, of_decide_eq_true hgroup, hid.symm⟩, member, hid ▸ hshown, hpredicate⟩
  · rintro ⟨⟨row, hrow, hgroup, rfl⟩, member, hshown, hpredicate⟩
    refine ⟨member, ⟨⟨row, ?_, hshown⟩, hpredicate⟩, fst_of_shownAs hshown⟩
    exact (List.mem_insertionSort _).mpr (List.mem_filter.mpr ⟨hrow, decide_eq_true hgroup⟩)

end GroupPatch
end Scim
end CampusID
