import CampusID.Scim.Users

/-!
# SCIM groups

`GroupStore`: groups and their members are rows.  A write either refuses and changes nothing, or
leaves the tables it describes.  A request is taken as it was read: a group with the people it
names, and a PATCH operation as the columns it sets or the members it adds, replaces or removes.

What a person sees of all this is `groupsOf`, the groups they belong to with their names.  A write
to one group leaves it alone for everybody when it is quiet: it neither adds nor removes a member,
and a group that has members keeps its name (`groupsOf_of_quiet`).
-/

namespace CampusID
namespace Scim

open Lib

/-- `ScimGroup`. -/
structure ScimGroup where
  groupUuid : String
  displayName : String
  externalId : Option String := none
  revision : Nat := 1
  deriving DecidableEq, Repr

/-- `ScimGroupMember`. -/
structure ScimGroupMember where
  groupUuid : String
  personUuid : String
  addedAt : Int
  deriving DecidableEq, Repr

/-- The tables of the groups. -/
structure GroupTables where
  groups : List ScimGroup := []
  members : List ScimGroupMember := []
  deriving DecidableEq, Repr

/-- `ParsedGroup`: without members when the document does not mention any. -/
structure ParsedGroup where
  displayName : String
  externalId : Option String := none
  members : Option (List String) := none
  deriving DecidableEq, Repr

/-- Which members a value filter selects: one it names, or those it holds of. -/
inductive Selection where
  | target (personUuid : String)
  | matching (predicate : String × String → Bool)

/-- A PATCH operation of a group, as it was read.  One that could not be read refuses when its
turn comes. -/
inductive GroupOperation where
  | set (displayName : Option String) (externalId : Option (Option String))
  | add (people : List String)
  | replace (people : List String)
  | remove (selection : Option Selection)
  | unreadable (e : ScimError)

/-- `not_found` of a group. -/
def groupNotFound (groupId : String) : StoreError :=
  .scim ⟨404, "Group " ++ groupId ++ " not found", none⟩

/-- `group_etag`. -/
def groupEtag (revision : Nat) : String := "W/\"" ++ toString revision ++ "\""

/-- `matches_version`. -/
def matchesVersion (current ifMatch : String) : Bool :=
  Text.strip ifMatch = "*" ||
    let tags := (Text.split ',' ifMatch).map Text.strip
    let candidates := tags ++ tags.map (Text.dropText "W/")
    candidates.contains current || candidates.contains (Text.dropText "W/" current)

/-- `_assert_version` of a group. -/
def assertGroupVersion (group : ScimGroup) : Option String → Except StoreError Unit
  | none => .ok ()
  | some ifMatch =>
    if matchesVersion (groupEtag group.revision) ifMatch then .ok ()
    else .error (versionMismatch (groupEtag group.revision))

/-- `MAX_MEMBERS_INLINE`. -/
def maxMembersInline : Nat := 1000

/-- `_assert_people_exist`. -/
def assertPeopleExist (persons : List Person) (people : List String) : Except StoreError Unit :=
  let missing := people.filter fun p => !persons.any (·.personUuid = p)
  if missing.isEmpty then .ok ()
  else .error (.scim ⟨400,
    "no such member: " ++ ", ".intercalate (missing.insertionSort (· ≤ ·)), some "invalidValue"⟩)

namespace GroupTables

/-- `_load` of a group. -/
def load (tables : GroupTables) (groupId : String) : Except StoreError ScimGroup :=
  match tables.groups.find? (·.groupUuid = groupId) with
  | some group => .ok group
  | none => .error (groupNotFound groupId)

/-- The row of a member is there. -/
def isMember (tables : GroupTables) (groupUuid personUuid : String) : Bool :=
  tables.members.any fun row => row.groupUuid = groupUuid ∧ row.personUuid = personUuid

/-- `_groups` of one person: the groups that have them as a member, in the order the database
collates their names. -/
def groupsOf (collate : String → String → Bool) (tables : GroupTables) (personUuid : String) :
    List (String × String) :=
  ((tables.groups.filter fun group => tables.isMember group.groupUuid personUuid).map
    fun group => (group.groupUuid, group.displayName)).insertionSort fun a b => collate a.2 b.2

/-! ## Members -/

/-- `INSERT ... ON CONFLICT DO NOTHING`. -/
def insertMember (groupUuid : String) (now : Int) (tables : GroupTables) (personUuid : String) :
    GroupTables :=
  if tables.isMember groupUuid personUuid then tables
  else { tables with members := tables.members ++ [⟨groupUuid, personUuid, now⟩] }

/-- `_add_members`. -/
def addMembers (persons : List Person) (now : Int) (groupUuid : String) (people : List String)
    (tables : GroupTables) : Except StoreError GroupTables :=
  if people.isEmpty then .ok tables
  else do
    assertPeopleExist persons people
    return people.foldl (insertMember groupUuid now) tables

/-- `_remove_members`. -/
def removeMembers (groupUuid : String) (people : List String) (tables : GroupTables) :
    GroupTables :=
  { tables with
    members := tables.members.filter fun row =>
      !(row.groupUuid = groupUuid && people.contains row.personUuid) }

/-- `_replace_members`. -/
def replaceMembers (persons : List Person) (now : Int) (groupUuid : String) (people : List String)
    (tables : GroupTables) : Except StoreError GroupTables :=
  addMembers persons now groupUuid people
    { tables with members := tables.members.filter (·.groupUuid ≠ groupUuid) }

/-- The members of a `PUT`: a document that does not mention any leaves them alone. -/
def writeMembers (persons : List Person) (now : Int) (groupUuid : String) :
    Option (List String) → GroupTables → Except StoreError GroupTables
  | none, tables => .ok tables
  | some people, tables => replaceMembers persons now groupUuid people tables

/-- `_members`: who is in the group, in the order they were added, with a name to show. -/
def membersOf (persons : List Person) (uniqueId : String → String) (groupUuid : String)
    (tables : GroupTables) : List (String × String) :=
  (((tables.members.filter (·.groupUuid = groupUuid)).insertionSort
    fun a b => a.addedAt ≤ b.addedAt).take maxMembersInline).filterMap fun row =>
      (persons.find? (·.personUuid = row.personUuid)).map fun person =>
        (row.personUuid, (person.displayName.filter (· ≠ "")).getD (uniqueId row.personUuid))

/-- `_selected`. -/
def selected (persons : List Person) (uniqueId : String → String) (groupUuid : String)
    (tables : GroupTables) : Selection → Except StoreError (List String)
  | .target personUuid => .ok [personUuid]
  | .matching predicate =>
    if maxMembersInline < (tables.members.filter (·.groupUuid = groupUuid)).length then
      .error (.scim ⟨400, "this filter has to be evaluated against the whole membership, and this " ++
        "group has more than " ++ toString maxMembersInline ++ " members; remove by " ++
        "members[value eq \"<id>\"] instead", some "tooMany"⟩)
    else .ok (((membersOf persons uniqueId groupUuid tables).filter predicate).map Prod.fst)

/-! ## The row of a group -/

/-- Change the row of one group. -/
def updateGroup (groupUuid : String) (f : ScimGroup → ScimGroup) (tables : GroupTables) :
    GroupTables :=
  { tables with
    groups := tables.groups.map fun group => if group.groupUuid = groupUuid then f group else group }

/-- `session.flush()`: no other group has the name, or the external identifier, of this one. -/
def flush (groupUuid displayName : String) (externalId : Option String) (tables : GroupTables) :
    Except StoreError Unit :=
  let others := tables.groups.filter (·.groupUuid ≠ groupUuid)
  if others.any (·.displayName = displayName) then .error (duplicate "displayName" displayName)
  else match externalId with
    | none => .ok ()
    | some value =>
      if others.any (·.externalId = some value) then .error (duplicate "externalId" value)
      else .ok ()

/-! ## Writes -/

/-- `create`, with the identifier the new group is given.  A replayed request changes nothing. -/
def create (persons : List Person) (now : Int) (groupUuid : String) (parsed : ParsedGroup)
    (tables : GroupTables) : Except StoreError GroupTables :=
  let known := parsed.externalId.bind fun externalId =>
    if externalId = "" then none
    else tables.groups.find? fun group => group.externalId = some externalId
  match known with
  | some _ => .ok tables
  | none =>
    if tables.groups.any (·.groupUuid = groupUuid) then
      .error (duplicate "displayName" parsed.displayName)
    else do
      flush groupUuid parsed.displayName parsed.externalId tables
      addMembers persons now groupUuid (parsed.members.getD [])
        { tables with
          groups := tables.groups ++ [⟨groupUuid, parsed.displayName, parsed.externalId, 1⟩] }

/-- `replace`. -/
def replace (persons : List Person) (now : Int) (groupId : String) (parsed : ParsedGroup)
    (ifMatch : Option String) (tables : GroupTables) : Except StoreError GroupTables := do
  let group ← tables.load groupId
  assertGroupVersion group ifMatch
  let written ← writeMembers persons now groupId parsed.members tables
  flush groupId parsed.displayName parsed.externalId written
  return updateGroup groupId (fun group =>
    { group with
      displayName := parsed.displayName
      externalId := parsed.externalId
      revision := group.revision + 1 }) written

/-- One operation of a PATCH: `_patch_members`, or the columns of `attribute_changes`. -/
def patchOne (persons : List Person) (uniqueId : String → String) (now : Int) (groupId : String)
    (tables : GroupTables) : GroupOperation → Except StoreError GroupTables
  | .set displayName externalId => .ok (updateGroup groupId (fun group =>
      { group with
        displayName := displayName.getD group.displayName
        externalId := externalId.getD group.externalId }) tables)
  | .add people => addMembers persons now groupId people tables
  | .replace people => replaceMembers persons now groupId people tables
  | .remove none => replaceMembers persons now groupId [] tables
  | .remove (some selection) => do
    return removeMembers groupId (← selected persons uniqueId groupId tables selection) tables
  | .unreadable e => .error (.scim e)

/-- `patch`. -/
def patch (persons : List Person) (uniqueId : String → String) (now : Int) (groupId : String)
    (operations : List GroupOperation) (ifMatch : Option String) (tables : GroupTables) :
    Except StoreError GroupTables := do
  let group ← tables.load groupId
  assertGroupVersion group ifMatch
  let written ← operations.foldlM (patchOne persons uniqueId now groupId) tables
  let row ← written.load groupId
  flush groupId row.displayName row.externalId written
  return updateGroup groupId (fun group => { group with revision := group.revision + 1 }) written

/-- `delete`: the membership goes with the group. -/
def delete (groupId : String) (ifMatch : Option String) (tables : GroupTables) :
    Except StoreError GroupTables := do
  let group ← tables.load groupId
  assertGroupVersion group ifMatch
  return { groups := tables.groups.filter (·.groupUuid ≠ groupId)
           members := tables.members.filter (·.groupUuid ≠ groupId) }

/-! ## What a write does to the groups -/

/-- What one write does to the rows of the groups. -/
inductive Edited : List ScimGroup → List ScimGroup → Prop
  | kept (groups) : Edited groups groups
  | added (groups group) : Edited groups (groups ++ [group])
  | changed (groups) {groupId : String} {f : ScimGroup → ScimGroup}
      (hf : ∀ group, (f group).groupUuid = group.groupUuid) :
      Edited groups (groups.map fun group => if group.groupUuid = groupId then f group else group)
  | removed (groups) (groupId : String) : Edited groups (groups.filter (·.groupUuid ≠ groupId))

theorem groups_insertMembers (groupUuid : String) (now : Int) (people : List String)
    (tables : GroupTables) :
    (people.foldl (insertMember groupUuid now) tables).groups = tables.groups := by
  induction people generalizing tables with
  | nil => rfl
  | cons person people ih =>
    rw [List.foldl_cons, ih, insertMember]
    split <;> rfl

theorem groups_addMembers {persons : List Person} {now : Int} {groupUuid : String}
    {people : List String} {tables after : GroupTables}
    (h : addMembers persons now groupUuid people tables = .ok after) :
    after.groups = tables.groups := by
  unfold addMembers at h
  split at h
  · cases h
    rfl
  · obtain ⟨-, -, h⟩ := Eff.except_bind_eq_ok.mp h
    cases h
    exact groups_insertMembers groupUuid now people tables

theorem groups_replaceMembers {persons : List Person} {now : Int} {groupUuid : String}
    {people : List String} {tables after : GroupTables}
    (h : replaceMembers persons now groupUuid people tables = .ok after) :
    after.groups = tables.groups := by
  rw [replaceMembers] at h
  have hgroups := groups_addMembers h
  exact hgroups

/-- One group was changed, in place. -/
def InPlace (groupId : String) (groups groups' : List ScimGroup) : Prop :=
  ∃ f : ScimGroup → ScimGroup, (∀ group, (f group).groupUuid = group.groupUuid) ∧
    groups' = groups.map fun group => if group.groupUuid = groupId then f group else group

theorem inPlace_refl (groupId : String) (groups : List ScimGroup) :
    InPlace groupId groups groups := ⟨id, fun _ => rfl, by simp⟩

theorem inPlace_of_eq {groupId : String} {groups groups' : List ScimGroup} (h : groups' = groups) :
    InPlace groupId groups groups' := h ▸ inPlace_refl groupId groups

theorem inPlace_updateGroup {groupId : String} (f : ScimGroup → ScimGroup)
    (hf : ∀ group, (f group).groupUuid = group.groupUuid) (tables : GroupTables) :
    InPlace groupId tables.groups (updateGroup groupId f tables).groups := ⟨f, hf, rfl⟩

theorem InPlace.trans {groupId : String} {a b c : List ScimGroup} (hab : InPlace groupId a b)
    (hbc : InPlace groupId b c) : InPlace groupId a c := by
  obtain ⟨f, hf, rfl⟩ := hab
  obtain ⟨g, hg, rfl⟩ := hbc
  refine ⟨g ∘ f, fun group => (hg _).trans (hf _), ?_⟩
  rw [List.map_map]
  refine List.map_congr_left fun group _ => ?_
  by_cases hid : group.groupUuid = groupId
  · simp [hid, hf]
  · simp [hid]

theorem InPlace.edited {groupId : String} {groups groups' : List ScimGroup}
    (h : InPlace groupId groups groups') : Edited groups groups' := by
  obtain ⟨f, hf, rfl⟩ := h
  exact .changed groups hf

theorem create_edited {persons : List Person} {now : Int} {groupUuid : String}
    {parsed : ParsedGroup} {tables after : GroupTables}
    (h : create persons now groupUuid parsed tables = .ok after) :
    Edited tables.groups after.groups := by
  unfold create at h
  simp only at h
  split at h
  · cases h
    exact .kept _
  · split at h
    · cases h
    · obtain ⟨-, -, h⟩ := Eff.except_bind_eq_ok.mp h
      rw [groups_addMembers h]
      exact .added _ _

theorem replace_edited {persons : List Person} {now : Int} {groupId : String}
    {parsed : ParsedGroup} {ifMatch : Option String} {tables after : GroupTables}
    (h : replace persons now groupId parsed ifMatch tables = .ok after) :
    Edited tables.groups after.groups := by
  unfold replace at h
  obtain ⟨group, -, h⟩ := Eff.except_bind_eq_ok.mp h
  obtain ⟨-, -, h⟩ := Eff.except_bind_eq_ok.mp h
  obtain ⟨written, hwritten, h⟩ := Eff.except_bind_eq_ok.mp h
  obtain ⟨-, -, h⟩ := Eff.except_bind_eq_ok.mp h
  cases h
  have hgroups : written.groups = tables.groups := by
    cases hmembers : parsed.members with
    | none =>
      rw [hmembers] at hwritten
      cases hwritten
      rfl
    | some people =>
      rw [hmembers] at hwritten
      exact groups_replaceMembers hwritten
  have hrow : InPlace groupId written.groups _ := inPlace_updateGroup
    (fun group => { group with
      displayName := parsed.displayName
      externalId := parsed.externalId
      revision := group.revision + 1 }) (fun _ => rfl) written
  exact ((inPlace_of_eq hgroups).trans hrow).edited

theorem patchOne_inPlace {persons : List Person} {uniqueId : String → String} {now : Int}
    {groupId : String} {operation : GroupOperation} {tables after : GroupTables}
    (h : patchOne persons uniqueId now groupId tables operation = .ok after) :
    InPlace groupId tables.groups after.groups := by
  cases operation with
  | set displayName externalId =>
    cases h
    exact inPlace_updateGroup (fun group => { group with
      displayName := displayName.getD group.displayName
      externalId := externalId.getD group.externalId }) (fun _ => rfl) tables
  | add people => exact inPlace_of_eq (groups_addMembers h)
  | replace people => exact inPlace_of_eq (groups_replaceMembers h)
  | remove selection =>
    cases selection with
    | none => exact inPlace_of_eq (groups_replaceMembers h)
    | some selection =>
      obtain ⟨people, -, h⟩ := Eff.except_bind_eq_ok.mp h
      cases h
      exact inPlace_refl _ _
  | unreadable e => cases h

theorem patch_edited {persons : List Person} {uniqueId : String → String} {now : Int}
    {groupId : String} {operations : List GroupOperation} {ifMatch : Option String}
    {tables after : GroupTables}
    (h : patch persons uniqueId now groupId operations ifMatch tables = .ok after) :
    Edited tables.groups after.groups := by
  unfold patch at h
  obtain ⟨group, -, h⟩ := Eff.except_bind_eq_ok.mp h
  obtain ⟨-, -, h⟩ := Eff.except_bind_eq_ok.mp h
  obtain ⟨written, hwritten, h⟩ := Eff.except_bind_eq_ok.mp h
  obtain ⟨row, -, h⟩ := Eff.except_bind_eq_ok.mp h
  obtain ⟨-, -, h⟩ := Eff.except_bind_eq_ok.mp h
  cases h
  have hops : InPlace groupId tables.groups written.groups := by
    clear * - hwritten
    induction operations generalizing tables with
    | nil =>
      cases hwritten
      exact inPlace_refl _ _
    | cons operation operations ih =>
      rw [List.foldlM_cons] at hwritten
      obtain ⟨next, hnext, hrest⟩ := Eff.except_bind_eq_ok.mp hwritten
      exact (patchOne_inPlace hnext).trans (ih hrest)
  have hrow : InPlace groupId written.groups _ := inPlace_updateGroup
    (fun group => { group with revision := group.revision + 1 }) (fun _ => rfl) written
  exact (hops.trans hrow).edited

theorem delete_edited {groupId : String} {ifMatch : Option String} {tables after : GroupTables}
    (h : delete groupId ifMatch tables = .ok after) : Edited tables.groups after.groups := by
  unfold delete at h
  obtain ⟨group, -, h⟩ := Eff.except_bind_eq_ok.mp h
  obtain ⟨-, -, h⟩ := Eff.except_bind_eq_ok.mp h
  cases h
  exact .removed _ _

/-! ## Writes nobody notices -/

/-- The names a group is listed under. -/
def namesOf (tables : GroupTables) (groupUuid : String) : List String :=
  (tables.groups.filter (·.groupUuid = groupUuid)).map ScimGroup.displayName

/-- No member comes or goes, and a group that has members keeps its name. -/
def Quiet (before after : GroupTables) : Prop :=
  (∀ row ∈ after.members, before.isMember row.groupUuid row.personUuid = true) ∧
    ∀ row ∈ before.members, after.isMember row.groupUuid row.personUuid = true ∧
      after.namesOf row.groupUuid = before.namesOf row.groupUuid

instance (before after : GroupTables) : Decidable (Quiet before after) :=
  inferInstanceAs (Decidable (_ ∧ _))

theorem isMember_iff {tables : GroupTables} {groupUuid personUuid : String} :
    tables.isMember groupUuid personUuid = true ↔
      ∃ row ∈ tables.members, row.groupUuid = groupUuid ∧ row.personUuid = personUuid := by
  simp [isMember]

theorem Quiet.isMember {before after : GroupTables} (h : Quiet before after)
    (groupUuid personUuid : String) :
    after.isMember groupUuid personUuid = before.isMember groupUuid personUuid := by
  rw [Bool.eq_iff_iff]
  constructor
  · intro hmem
    obtain ⟨row, hrow, rfl, rfl⟩ := isMember_iff.mp hmem
    exact h.1 row hrow
  · intro hmem
    obtain ⟨row, hrow, rfl, rfl⟩ := isMember_iff.mp hmem
    exact (h.2 row hrow).1

theorem Quiet.namesOf {before after : GroupTables} (h : Quiet before after)
    {groupUuid personUuid : String} (hmem : before.isMember groupUuid personUuid = true) :
    after.namesOf groupUuid = before.namesOf groupUuid := by
  obtain ⟨row, hrow, rfl, -⟩ := isMember_iff.mp hmem
  exact (h.2 row hrow).2

/-- **A quiet write leaves everybody in the groups they were in**, under the names they had. -/
theorem groupsOf_of_quiet (collate : String → String → Bool) {before after : GroupTables}
    (he : Edited before.groups after.groups) (hq : Quiet before after) (personUuid : String) :
    groupsOf collate after personUuid = groupsOf collate before personUuid := by
  have hmember : (fun group : ScimGroup => after.isMember group.groupUuid personUuid) =
      fun group => before.isMember group.groupUuid personUuid :=
    funext fun group => hq.isMember group.groupUuid personUuid
  have hnames : ∀ {group : ScimGroup}, before.isMember group.groupUuid personUuid = true →
      (after.groups.filter (·.groupUuid = group.groupUuid)).map ScimGroup.displayName =
        (before.groups.filter (·.groupUuid = group.groupUuid)).map ScimGroup.displayName :=
    fun hmem => hq.namesOf hmem
  unfold groupsOf
  rw [hmember]
  congr 1
  generalize after.groups = groups' at he hnames
  cases he with
  | kept => rfl
  | added group =>
    -- the new group would be listed, where none was before
    have hout : before.isMember group.groupUuid personUuid = false := by
      by_contra hin
      have hlen := congrArg List.length (@hnames group (by simpa using hin))
      simp at hlen
    simp [List.filter_append, hout]
  | @changed groupId f hf =>
    have hkey : ((fun group : ScimGroup => before.isMember group.groupUuid personUuid) ∘
        fun group => if group.groupUuid = groupId then f group else group) =
        fun group => before.isMember group.groupUuid personUuid := by
      funext group
      by_cases hid : group.groupUuid = groupId <;> simp [hid, hf]
    rw [List.filter_map, hkey, List.map_map]
    refine List.map_congr_left fun group hgroup => ?_
    obtain ⟨hin, hmem⟩ := List.mem_filter.mp hgroup
    by_cases hid : group.groupUuid = groupId
    · -- the group has a member, so it is listed under the name it had
      have hsame := hnames hmem
      have hown : ((fun row : ScimGroup => decide (row.groupUuid = group.groupUuid)) ∘
          fun row => if row.groupUuid = groupId then f row else row) =
          fun row => decide (row.groupUuid = group.groupUuid) := by
        funext row
        by_cases hrow : row.groupUuid = groupId <;> simp [hrow, hf]
      rw [List.filter_map, hown, List.map_map, List.map_inj_left] at hsame
      have hname := hsame group (List.mem_filter.mpr ⟨hin, by simp⟩)
      simp only [Function.comp_apply, if_pos hid] at hname ⊢
      rw [hf, hname]
    · simp [hid]
  | removed groupId =>
    rw [List.filter_filter]
    congr 1
    refine List.filter_congr fun group hgroup => ?_
    cases hmem : before.isMember group.groupUuid personUuid with
    | false => rfl
    | true =>
      have hne : group.groupUuid ≠ groupId := by
        rintro rfl
        have hsame := hnames hmem
        rw [List.filter_filter, List.filter_eq_nil_iff.mpr (by simp), List.map_nil] at hsame
        have hnone := List.map_eq_nil_iff.mp hsame.symm
        exact absurd (List.mem_filter.mpr ⟨hgroup, by simp⟩) (hnone ▸ List.not_mem_nil)
      simp [hne]

end GroupTables

end Scim
end CampusID
