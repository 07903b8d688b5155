import CampusID.Scim.Agreeing

/-!
# The filter every client sends

A removal with the filter `value eq "<id>"` is answered without reading the members
(`member_target`).  Any other filter is evaluated on the members as they are projected.

The two differ in what they take for the same person.  The recognised filter is read by
`uuid.UUID`, which takes several spellings of an identifier, and its schema URN is not looked at; an
evaluation compares texts, and finds nothing under a URN.  `pathsAgree_iff` says exactly when this
makes no difference.
-/

namespace CampusID
namespace Scim
namespace GroupPatch

open Lib
open Audit (Json)

section Definitions

variable (py : Builtins) (uuids : Uuids) (persons : List Person) (uniqueId : String → String)
  (groupId : String) (tables : GroupTables)

/-- **The two answers are one**: if the filter is recognised, the people it names without a look at
the members are, among the members, those an evaluation of the filter selects. -/
def PathsAgree (predicate : Node) : Prop :=
  ∀ target, memberTarget py uuids predicate = some target →
    ∃ fast slow,
      GroupTables.selected persons uniqueId groupId tables (selectionOf py uuids predicate) =
        .ok fast ∧
      GroupTables.selected persons uniqueId groupId tables
        (.matching fun member => selects py predicate (projected member)) = .ok slow ∧
      ∀ id, id ∈ slow ↔ id ∈ fast ∧ tables.isMember groupId id = true

/-- **The literal is spelled as the member is**, where that matters: a member it is read as is found
by its spelling too, and one that has its spelling is the one it is read as. -/
def SpelledAlike (predicate : Node) : Prop :=
  ∀ path value person, predicate = .comparison path .eq (.str value) →
    py.lower path.attributeName = "value" → truthy path.subAttribute = none →
    uuids.parse value = some person →
      (tables.isMember groupId person = true → Unqualified path ∧ py.lower value = person) ∧
      (Unqualified path → tables.isMember groupId (py.lower value) = true →
        py.lower value = person)

end Definitions

variable {py : Builtins} {uuids : Uuids} {persons : List Person} {uniqueId : String → String}
  {groupId : String} {tables : GroupTables} {path : AttrPath} {value : String}

/-! ## Both answers -/

theorem mem_slow (hsound : Sound uuids persons groupId tables)
    (hvalue : py.lower path.attributeName = "value") :
    ∃ slow, GroupTables.selected persons uniqueId groupId tables
        (.matching fun member => selects py (.comparison path .eq (.str value))
          (projected member)) = .ok slow ∧
      ∀ id, id ∈ slow ↔ tables.isMember groupId id = true ∧ Unqualified path ∧
        id = py.lower value := by
  have hcanonical : ∀ id, tables.isMember groupId id = true → py.lower id = id := by
    intro id hid
    obtain ⟨row, hrow, -, rfl⟩ := (GroupTables.isMember_iff).mp hid
    obtain ⟨hascii, hlower⟩ := uuids.canonical _ _ (hsound.canonical row hrow)
    rw [py.lower_ascii _ hascii, hlower]
  refine ⟨_, if_neg (Nat.not_lt.mpr hsound.inline), fun id => ?_⟩
  simp only [List.mem_map, List.mem_filter, selects_projected hvalue]
  have hmembers : (∃ member ∈ GroupTables.membersOf persons uniqueId groupId tables,
      member.1 = id) ↔ tables.isMember groupId id = true := mem_membersOf hsound id
  rw [← hmembers]
  constructor
  · rintro ⟨member, ⟨hmember, hpath, hlower⟩, rfl⟩
    refine ⟨⟨member, hmember, rfl⟩, hpath, ?_⟩
    rw [← hlower, hcanonical member.1 ((mem_membersOf hsound member.1).mp ⟨member, hmember, rfl⟩)]
  · rintro ⟨⟨member, hmember, rfl⟩, hpath, heq⟩
    refine ⟨member, ⟨hmember, hpath, ?_⟩, rfl⟩
    rw [hcanonical member.1 ((mem_membersOf hsound member.1).mp ⟨member, hmember, rfl⟩), heq]

/-- **When the two answers are one**: when the literal is spelled as the member is. -/
theorem pathsAgree_iff (hsound : Sound uuids persons groupId tables) (predicate : Node) :
    PathsAgree py uuids persons uniqueId groupId tables predicate ↔
      SpelledAlike py uuids groupId tables predicate := by
  constructor
  · rintro h path value person rfl hvalue hsub hparse
    have htarget : memberTarget py uuids (.comparison path .eq (.str value)) = some person :=
      memberTarget_eq_some.mpr ⟨path, value, rfl, hvalue, hsub, hparse⟩
    obtain ⟨fast, slow, hfast, hslow, hsame⟩ := h person htarget
    obtain ⟨slow', hslow', hmem⟩ := mem_slow hsound hvalue
    cases hslow'.symm.trans hslow
    have hone : fast = [person] := by
      rw [selectionOf, htarget] at hfast
      cases hfast
      rfl
    subst hone
    constructor
    · intro hperson
      obtain ⟨-, hpath, heq⟩ := (hmem person).mp ((hsame person).mpr ⟨List.mem_singleton_self _,
        hperson⟩)
      exact ⟨hpath, heq.symm⟩
    · intro hpath hspelled
      obtain ⟨hfast, -⟩ := (hsame _).mp ((hmem _).mpr ⟨hspelled, hpath, rfl⟩)
      exact List.mem_singleton.mp hfast
  · intro h target htarget
    obtain ⟨path, value, rfl, hvalue, hsub, hparse⟩ := memberTarget_eq_some.mp htarget
    obtain ⟨hread, hfound⟩ := h path value target rfl hvalue hsub hparse
    obtain ⟨slow, hslow, hmem⟩ := mem_slow hsound hvalue
    refine ⟨[target], slow, ?_, hslow, fun id => ?_⟩
    · rw [selectionOf, htarget]
      rfl
    · rw [hmem, List.mem_singleton]
      constructor
      · rintro ⟨hid, hpath, rfl⟩
        exact ⟨hfound hpath hid, hid⟩
      · rintro ⟨rfl, hid⟩
        obtain ⟨hpath, heq⟩ := hread hid
        exact ⟨hid, hpath, heq.symm⟩

/-! ## One member -/

/-- The plain filter finds the member both ways. -/
theorem pathsAgree_value : PathsAgree Builtins.ascii twoUuids twoPeople id "g1" staffTables
    (namingMember ⟨"value", none, none⟩) := by
  refine (pathsAgree_iff sound_staff _).mpr ?_
  rintro path value person ⟨⟩ - - hparse
  obtain rfl : "3f2504e0-4f89-41d3-9a0c-0305e82c3301" = person := Option.some.inj hparse
  exact ⟨fun _ => ⟨⟨rfl, rfl⟩, by decide⟩, fun _ _ => by decide⟩

/-- The same filter under the URN of a schema is recognised, but selects nobody. -/
theorem not_pathsAgree : ¬ ∀ (py : Builtins) (uuids : Uuids) (persons : List Person)
    (uniqueId : String → String) (groupId : String) (tables : GroupTables),
      Sound uuids persons groupId tables →
      ∀ predicate, PathsAgree py uuids persons uniqueId groupId tables predicate := by
  intro h
  obtain ⟨fast, slow, hfast, hslow, hsame⟩ := h Builtins.ascii twoUuids twoPeople id "g1"
    staffTables sound_staff (namingMember ⟨"value", none, some coreUser⟩)
    "3f2504e0-4f89-41d3-9a0c-0305e82c3301" (by decide)
  cases (show GroupTables.selected twoPeople id "g1" staffTables
    (.target "3f2504e0-4f89-41d3-9a0c-0305e82c3301") = .ok fast from hfast)
  have hnobody : GroupTables.selected twoPeople id "g1" staffTables (.matching fun member =>
      selects Builtins.ascii (namingMember ⟨"value", none, some coreUser⟩) (projected member)) =
        .ok [] := rfl
  cases hnobody.symm.trans hslow
  exact absurd ((hsame "3f2504e0-4f89-41d3-9a0c-0305e82c3301").mpr ⟨List.mem_singleton_self _,
    by decide⟩) List.not_mem_nil

end GroupPatch
end Scim
end CampusID
