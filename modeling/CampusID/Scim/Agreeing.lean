import CampusID.Scim.Filtering

/-!
# A PATCH of a group, twice

A group is patched as rows.  The same operations can be applied to its document, by the engine
that patches any resource.  The two agree when the name, the external identifier and the people of
the rows are those of the document (`Agrees`).

They read an operation differently in several places.  The rows do not look at a schema URN or a
sub-attribute, take a filter only where something is removed, strip the name, and do not read the
members of an operation without a path; they take a filter for a `value` for the person that
`uuid.UUID` reads, and evaluate any other on the projections of the members; and the engine lets the
client's own entries into the array, which a filter sees as they were sent.  An operation without
any of this is plain (`Plain`), and a PATCH whose operations are all plain where they are applied
makes the same group of both (`patch_agrees`).
-/

namespace CampusID
namespace Scim

open Lib
open Audit (Json)

namespace Patch

variable {py : Builtins} {container container' : Object} {name name' : String} {op : PatchOp}
  {value : Json}

/-! ## Reading what was written -/

theorem get_of_mem (hsingle : Folded.Single py.lower container) (hname : name ≠ "") {k : String}
    {v : Json} (hmem : (k, v) ∈ container) (hfold : py.lower k = py.lower name) :
    get py container name = v := by
  cases hk : key py container name with
  | none => exact absurd hfold (new_of_key_eq_none hname hk _ hmem)
  | some k' =>
    obtain ⟨⟨k₁, w⟩, hentry, rfl⟩ := List.mem_map.mp (key_mem hk)
    have heq : (k₁, w) = (k, v) := hsingle.eq hentry hmem ((lower_key hk).trans hfold.symm)
    cases heq
    rw [get_of_key hk, lookup_of_mem hsingle.keys hmem]
    rfl

theorem get_of_new (h : ∀ entry ∈ container, py.lower entry.1 ≠ py.lower name) :
    get py container name = .null :=
  get_of_key_eq_none (by rw [key, Folded.spelling_eq_none.mpr h]; rfl)

theorem get_congr (hsingle : Folded.Single py.lower container)
    (hsingle' : Folded.Single py.lower container') (hname : name ≠ "") (hname' : name' ≠ "")
    (hlower : py.lower name = py.lower name')
    (h : ∀ entry, py.lower entry.1 = py.lower name → (entry ∈ container ↔ entry ∈ container')) :
    get py container name = get py container' name' := by
  by_cases hheld : ∃ entry ∈ container, py.lower entry.1 = py.lower name
  · obtain ⟨⟨k, v⟩, hmem, hfold⟩ := hheld
    rw [get_of_mem hsingle hname hmem hfold,
      get_of_mem hsingle' hname' ((h _ hfold).mp hmem) (hfold.trans hlower)]
  · push Not at hheld
    have hheld' : ∀ entry ∈ container', py.lower entry.1 ≠ py.lower name' := by
      intro entry hmem hfold
      rw [← hlower] at hfold
      exact hheld entry ((h entry hfold).mpr hmem) hfold
    rw [get_of_new hheld, get_of_new hheld']

theorem single_set (hsingle : Folded.Single py.lower container) (value : Json) :
    Folded.Single py.lower (set py container name value) :=
  (Folded.single_assign hsingle value).mpr (spelled_written container name)

theorem single_direct (hsingle : Folded.Single py.lower container) :
    Folded.Single py.lower (direct py op value container name) := by
  unfold direct
  split
  · unfold delete
    split
    · exact hsingle.erase _
    · exact hsingle
  · split
    · exact single_set hsingle _
    · exact single_set hsingle _
  · exact single_set hsingle _

/-- What an operation leaves under its name. -/
def written (op : PatchOp) (value existing : Json) : Json :=
  match op with
  | .remove => .null
  | .add =>
    match existing with
    | .list existing => .list (existing ++ additions value)
    | _ => value
  | .replace => value

theorem get_delete (hsingle : Folded.Single py.lower container) :
    get py (delete py container name) name = .null := by
  unfold delete
  split
  · rename_i k hk
    refine get_of_new fun entry hentry hfold => ?_
    obtain ⟨hmem, hne⟩ := List.mem_filter.mp hentry
    obtain ⟨held, hheld, rfl⟩ := List.mem_map.mp (key_mem hk)
    obtain rfl := hsingle.eq hmem hheld (hfold.trans (lower_key hk).symm)
    exact of_decide_eq_true hne rfl
  · rename_i hk
    exact get_of_key_eq_none hk

/-- **What an operation makes of the value it names.** -/
theorem get_direct (hsingle : Folded.Single py.lower container) (hname : name ≠ "") :
    get py (direct py op value container name) name = written op value (get py container name) := by
  unfold direct written
  cases op with
  | remove => exact get_delete hsingle
  | add =>
    cases get py container name with
    | list existing => exact get_set hname _
    | _ => exact get_set hname _
  | replace => exact get_set hname _

/-- **It leaves the values of other names alone.** -/
theorem get_direct_of_ne (hsingle : Folded.Single py.lower container) (hname' : name' ≠ "")
    (hne : py.lower name ≠ py.lower name') :
    get py (direct py op value container name) name' = get py container name' := by
  refine get_congr (single_direct hsingle) hsingle hname' hname' rfl fun entry hfold => ?_
  have hpart : Folded.part py.lower (fun other => other = py.lower name')
      (direct py op value container name) =
        Folded.part py.lower (fun other => other = py.lower name') container :=
    part_direct (by simpa using hne) op value
  have hmem : entry ∈ Folded.part py.lower (fun other => other = py.lower name')
      (direct py op value container name) ↔
        entry ∈ Folded.part py.lower (fun other => other = py.lower name') container := by
    rw [hpart]
  simpa [Folded.part, List.mem_filter, hfold] using hmem

end Patch

namespace GroupTables

variable {persons : List Person} {now : Int} {groupUuid personUuid : String}
  {people : List String} {tables after : GroupTables}

/-! ## What a write does to the rows -/

theorem isMember_insertMember (person : String) :
    (insertMember groupUuid now tables person).isMember groupUuid personUuid = true ↔
      tables.isMember groupUuid personUuid = true ∨ personUuid = person := by
  unfold insertMember
  split
  · rename_i hmem
    refine ⟨.inl, fun h => h.elim id ?_⟩
    rintro rfl
    exact hmem
  · simp only [isMember_iff, List.mem_append, List.mem_singleton]
    constructor
    · rintro ⟨row, hrow | rfl, hgroup, hperson⟩
      · exact .inl ⟨row, hrow, hgroup, hperson⟩
      · exact .inr hperson.symm
    · rintro (⟨row, hrow, hgroup, hperson⟩ | rfl)
      · exact ⟨row, .inl hrow, hgroup, hperson⟩
      · exact ⟨_, .inr rfl, rfl, rfl⟩

theorem isMember_insertMembers :
    (people.foldl (insertMember groupUuid now) tables).isMember groupUuid personUuid = true ↔
      tables.isMember groupUuid personUuid = true ∨ personUuid ∈ people := by
  induction people generalizing tables with
  | nil => simp
  | cons person people ih =>
    rw [List.foldl_cons, ih, isMember_insertMember, List.mem_cons, or_assoc]

/-- **Members that are added** are there, with those who were. -/
theorem isMember_addMembers (h : addMembers persons now groupUuid people tables = .ok after) :
    after.isMember groupUuid personUuid = true ↔
      tables.isMember groupUuid personUuid = true ∨ personUuid ∈ people := by
  unfold addMembers at h
  split at h
  · rename_i hempty
    cases h
    rw [List.isEmpty_iff.mp hempty]
    simp
  · obtain ⟨-, -, h⟩ := Eff.except_bind_eq_ok.mp h
    cases h
    exact isMember_insertMembers

/-- **Members that are replaced** are those who were sent. -/
theorem isMember_replaceMembers
    (h : replaceMembers persons now groupUuid people tables = .ok after) :
    after.isMember groupUuid personUuid = true ↔ personUuid ∈ people := by
  unfold replaceMembers at h
  rw [isMember_addMembers h, isMember_iff]
  refine ⟨fun hmem => hmem.resolve_left ?_, .inr⟩
  rintro ⟨row, hrow, hgroup, -⟩
  exact of_decide_eq_true (List.mem_filter.mp hrow).2 hgroup

theorem isMember_removeMembers :
    (removeMembers groupUuid people tables).isMember groupUuid personUuid = true ↔
      tables.isMember groupUuid personUuid = true ∧ personUuid ∉ people := by
  simp only [removeMembers, isMember_iff, List.mem_filter, Bool.not_eq_true', Bool.and_eq_false_iff,
    decide_eq_false_iff_not, List.contains_eq_mem]
  constructor
  · rintro ⟨row, ⟨hrow, hkept⟩, rfl, rfl⟩
    exact ⟨⟨row, hrow, rfl, rfl⟩, hkept.resolve_left (not_not_intro rfl)⟩
  · rintro ⟨⟨row, hrow, rfl, rfl⟩, hkept⟩
    exact ⟨row, ⟨hrow, .inr hkept⟩, rfl, rfl⟩

theorem load_congr (h : after.groups = tables.groups) (groupId : String) :
    after.load groupId = tables.load groupId := by
  rw [load, load, h]

theorem load_updateGroup {groupId : String} {group : ScimGroup} {f : ScimGroup → ScimGroup}
    (hf : ∀ group, (f group).groupUuid = group.groupUuid) (h : tables.load groupId = .ok group) :
    (updateGroup groupId f tables).load groupId = .ok (f group) := by
  unfold load at h ⊢
  split at h
  · rename_i row hfind
    cases h
    have hid : group.groupUuid = groupId := by simpa using List.find?_some hfind
    have hkey : ((fun row : ScimGroup => decide (row.groupUuid = groupId)) ∘
        fun row => if row.groupUuid = groupId then f row else row) =
          fun row => decide (row.groupUuid = groupId) := by
      funext row
      by_cases hrow : row.groupUuid = groupId <;> simp [hrow, hf]
    simp only [updateGroup, List.find?_map, hkey, hfind, Option.map_some, if_pos hid]
  · cases h

end GroupTables

namespace GroupPatch

/-! ## When rows and document agree -/

section Definitions

variable (py : Builtins) (uuids : Uuids) (persons : List Person) (uniqueId : String → String)
  (now : Int) (groupId : String)

/-- The entries of a value of `members`: an object counts as the only one. -/
def entriesIn : Json → List Json
  | .dict entry => [.dict entry]
  | .list entries => entries
  | _ => []

/-- The people a value of `members` names. -/
def named (value : Json) : Set String :=
  {id | ∃ entry ∈ entriesIn value, memberId uuids entry = .ok id}

/-- The value of an attribute is a text; null and the empty text are no text. -/
def Shows (value : Json) (text : Option String) : Prop :=
  value = (given text).elim .null .str ∨ (value = .str "" ∧ given text = none)

/-- The row of a group and its members are what the document says. -/
structure AgreesWith (group : ScimGroup) (isMember : String → Prop) (document : Object) :
    Prop where
  displayName : Patch.get py document "displayName" = .str group.displayName
  externalId : Shows (Patch.get py document "externalId") group.externalId
  members : ∀ id, isMember id ↔ id ∈ named uuids (Patch.get py document "members")

/-- **The group is the one the document describes.** -/
def Agrees (tables : GroupTables) (document : Object) : Prop :=
  ∃ group, tables.load groupId = .ok group ∧
    AgreesWith py uuids group (fun id => tables.isMember groupId id = true) document

/-- The path of the operation names a sub-attribute of the members. -/
def NamesPart (operation : Operation) : Prop :=
  ∃ path, operation.path = some path ∧ py.lower path.path.attributeName = "members" ∧
    (truthy path.subAttribute).isSome

/-- **What is expected of a PATCH**: the same group in rows and document, and no member more or
less through operations on sub-attributes of the members. -/
def Faithful (operations : List Operation) (before after : GroupTables) (result : Object) : Prop :=
  Agrees py uuids groupId after result ∧
    ((∀ operation ∈ operations, NamesPart py operation) →
      ∀ id, after.isMember groupId id = before.isMember groupId id)

/-! ## Plain operations -/

/-- A text without blanks around it. -/
def Stripped (value : Json) : Prop := ∀ text, value = .str text → Text.strip text = text

/-- The members in the document are not an object. -/
def NotAlone (document : Object) : Prop := ∀ entry, Patch.get py document "members" ≠ .dict entry

/-- A filter for a `value`, if `uuid.UUID` reads its literal, has no URN and spells the identifier
as the rows do. -/
def SpelledOut (predicate : Node) : Prop :=
  ∀ path value person, predicate = .comparison path .eq (.str value) →
    py.lower path.attributeName = "value" → truthy path.subAttribute = none →
    uuids.parse value = some person → Unqualified path ∧ py.lower value = person

/-- A filter makes no difference between an entry of the document and the projection of the person
it names. -/
def SeenAlike (document : Object) (predicate : Node) : Prop :=
  ∀ entry ∈ entriesIn (Patch.get py document "members"), ∀ id, memberId uuids entry = .ok id →
    ∀ member ∈ shownAs persons uniqueId id,
      selects py predicate entry = selects py predicate (projected member)

/-- An operation on the members that both read in the same way. -/
def PlainMembers (operation : Operation) (predicate : Option Node) (document : Object) : Prop :=
  match predicate with
  | none => operation.op = .add → NotAlone py document
  | some predicate => operation.op = .remove ∧ NotAlone py document ∧
      SpelledOut py uuids predicate ∧ SeenAlike py uuids persons uniqueId document predicate

/-- **A plain operation**: without a URN, a sub-attribute or blanks around a name; with a filter
only where it removes members, and sees the entries as the projections; and with members only under
a path. -/
def Plain (operation : Operation) (document : Object) : Prop :=
  match operation.path with
  | none => ∀ entries, operation.value = .dict entries → ∀ entry ∈ entries,
      py.lower entry.1 ≠ "members" ∧ (py.lower entry.1 = "displayname" → Stripped entry.2)
  | some path => truthy path.path.urn = none ∧ truthy path.subAttribute = none ∧
      if py.lower path.path.attributeName = "members" then
        PlainMembers py uuids persons uniqueId operation path.predicate document
      else path.predicate = none ∧
        (py.lower path.path.attributeName = "displayname" → Stripped operation.value)

/-- Every operation is plain in the document it is applied to. -/
def PlainFrom : List Operation → Object → Prop
  | [], _ => True
  | operation :: operations, document =>
    Plain py uuids persons uniqueId operation document ∧
      ∀ document', Patch.applyOne py document operation = .ok document' →
        PlainFrom operations document'

end Definitions

variable {py : Builtins} {uuids : Uuids} {persons : List Person} {uniqueId : String → String}
  {now : Int} {groupId : String} {operation : Operation} {path : PatchPath} {index : Nat}
  {tables tables' : GroupTables} {document document' : Object} {name : String} {value : Json}
  {group : ScimGroup} {people : String → Prop}

/-! ## Names -/

theorem lower_displayName : py.lower "displayName" = "displayname" :=
  (py.lower_ascii "displayName" rfl).trans (by decide)

theorem lower_externalId : py.lower "externalId" = "externalid" :=
  (py.lower_ascii "externalId" rfl).trans (by decide)

theorem lower_members : py.lower "members" = "members" :=
  (py.lower_ascii "members" rfl).trans (by decide)

theorem ne_empty_of_lower {text : String} (h : py.lower name = text) (htext : text ≠ "") :
    name ≠ "" := by
  rintro rfl
  rw [py.lower_ascii "" rfl] at h
  exact htext (h.symm.trans (by decide))

theorem get_direct_spelled (hsingle : Folded.Single py.lower document) {op : PatchOp} {name' : String}
    (hname : name ≠ "") (hname' : name' ≠ "") (hlower : py.lower name = py.lower name') :
    Patch.get py (Patch.direct py op value document name) name' =
      Patch.written op value (Patch.get py document name') := by
  have hsame : Folded.Single py.lower (Patch.direct py op value document name) :=
    Patch.single_direct hsingle
  rw [Patch.get_congr hsame hsame hname' hname hlower.symm fun _ _ => Iff.rfl,
    Patch.get_direct hsingle hname,
    Patch.get_congr hsingle hsingle hname hname' hlower fun _ _ => Iff.rfl]

/-! ## Columns -/

/-- The row after some changes. -/
def changed (changes : Changes) (group : ScimGroup) : ScimGroup :=
  { group with
    displayName := changes.displayName.getD group.displayName
    externalId := changes.externalId.getD group.externalId }

theorem changed_update (changes later : Changes) (group : ScimGroup) :
    changed (changes.update later) group = changed later (changed changes group) := by
  rcases changes with ⟨_ | _, _ | _⟩ <;> rcases later with ⟨_ | _, _ | _⟩ <;> rfl

theorem oneChange_ok {changes : Changes} (h : oneChange py name value index = .ok changes) :
    (py.lower name = "displayname" ∧
        ∃ text, value = .str text ∧ changes = { displayName := some (Text.strip text) }) ∨
      (py.lower name = "externalid" ∧ ((value = .null ∧ changes = { externalId := some none }) ∨
        ∃ text, value = .str text ∧ changes = { externalId := some (some text) })) := by
  unfold oneChange at h
  split at h
  · cases h
  split at h
  · rename_i hname
    split at h
    · rename_i text
      split at h
      · cases h
      · cases h
        exact .inl ⟨hname, text, rfl, rfl⟩
    · cases h
  split at h
  · rename_i hname
    split at h
    · cases h
      exact .inr ⟨hname, .inl ⟨rfl, rfl⟩⟩
    · rename_i text
      cases h
      exact .inr ⟨hname, .inr ⟨text, rfl, rfl⟩⟩
    · cases h
  · cases h

theorem written_of_not_list {op : PatchOp} {existing : Json} (hop : op ≠ .remove)
    (h : ∀ items, existing ≠ .list items) : Patch.written op value existing = value := by
  cases op with
  | remove => exact absurd rfl hop
  | add =>
    cases existing with
    | list items => exact absurd rfl (h items)
    | _ => rfl
  | replace => rfl

theorem Shows.not_list {text : Option String} (h : Shows value text) :
    ∀ items, value ≠ .list items := by
  rintro items rfl
  rcases h with h | ⟨h, -⟩
  · cases hgiven : given text with
    | none =>
      rw [hgiven] at h
      cases h
    | some _ =>
      rw [hgiven] at h
      cases h
  · cases h

theorem shows_str (text : String) : Shows (.str text) (some text) := by
  by_cases hempty : text = ""
  · subst hempty
    exact .inr ⟨rfl, rfl⟩
  · refine .inl ?_
    have hgiven : given (some text) = some text := by simp [given, hempty]
    rw [hgiven]
    rfl

theorem get_members_of_ne (hsingle : Folded.Single py.lower document) {op : PatchOp}
    (hne : py.lower name ≠ "members") :
    Patch.get py (Patch.direct py op value document name) "members" =
      Patch.get py document "members" :=
  Patch.get_direct_of_ne hsingle (by decide) (by rwa [lower_members])

/-- **One change**, to the row and to the document. -/
theorem agreesWith_change {op : PatchOp} {changes : Changes}
    (hsingle : Folded.Single py.lower document) (h : AgreesWith py uuids group people document)
    (hchange : oneChange py name (if op = .remove then .null else value) index = .ok changes)
    (hstripped : py.lower name = "displayname" → Stripped value) :
    AgreesWith py uuids (changed changes group) people
      (Patch.direct py op value document name) := by
  rcases oneChange_ok hchange with ⟨hname, text, htext, rfl⟩ | ⟨hname, hvalue⟩
  · have hnamed := ne_empty_of_lower hname (by decide)
    have hop : op ≠ .remove := by
      rintro rfl
      cases htext
    rw [if_neg hop] at htext
    refine ⟨?_, ?_, ?_⟩
    · rw [get_direct_spelled hsingle hnamed (by decide) (hname.trans lower_displayName.symm),
        h.displayName, written_of_not_list hop (by simp), htext]
      simp only [changed, Option.getD_some, hstripped hname text htext]
    · rw [Patch.get_direct_of_ne hsingle (by decide) (by rw [hname, lower_externalId]; decide)]
      exact h.externalId
    · rw [get_members_of_ne hsingle (by rw [hname]; decide)]
      exact h.members
  · have hnamed := ne_empty_of_lower hname (by decide)
    have hkept : changes.displayName = none := by
      rcases hvalue with ⟨-, rfl⟩ | ⟨text, -, rfl⟩ <;> rfl
    refine ⟨?_, ?_, ?_⟩
    · rw [Patch.get_direct_of_ne hsingle (by decide) (by rw [hname, lower_displayName]; decide),
        h.displayName]
      simp only [changed, hkept, Option.getD_none]
    · rw [get_direct_spelled hsingle hnamed (by decide) (hname.trans lower_externalId.symm)]
      by_cases hop : op = .remove
      · subst hop
        rcases hvalue with ⟨-, rfl⟩ | ⟨text, htext, -⟩
        · exact .inl rfl
        · cases htext
      · rw [written_of_not_list hop h.externalId.not_list]
        rw [if_neg hop] at hvalue
        rcases hvalue with ⟨rfl, rfl⟩ | ⟨text, rfl, rfl⟩
        · exact .inl rfl
        · exact shows_str text
    · rw [get_members_of_ne hsingle (by rw [hname]; decide)]
      exact h.members

/-- **The changes of an object**, one after another. -/
theorem agreesWith_changes {entries : Object} {changes later : Changes}
    (hsingle : Folded.Single py.lower document)
    (h : AgreesWith py uuids (changed changes group) people document)
    (hop : operation.op ≠ .remove)
    (hplain : ∀ entry ∈ entries, py.lower entry.1 = "displayname" → Stripped entry.2)
    (hrows : entries.foldlM (manyChanges py index) changes = .ok later)
    (hdocument : entries.foldlM (Patch.applyEntry py operation.op) document = .ok document') :
    Folded.Single py.lower document' ∧
      AgreesWith py uuids (changed later group) people document' := by
  induction entries generalizing changes document with
  | nil =>
    cases hrows
    cases hdocument
    exact ⟨hsingle, h⟩
  | cons entry entries ih =>
    obtain ⟨hfirst, hothers⟩ := List.forall_mem_cons.mp hplain
    rw [List.foldlM_cons] at hrows hdocument
    obtain ⟨next, hnext, hrows⟩ := Eff.except_bind_eq_ok.mp hrows
    obtain ⟨one, hone, hreturn⟩ := Eff.except_bind_eq_ok.mp hnext
    cases hreturn
    obtain ⟨working, hworking, hdocument⟩ := Eff.except_bind_eq_ok.mp hdocument
    unfold Patch.applyEntry at hworking
    split at hworking
    · cases hworking
    · cases hworking
      refine ih (Patch.single_direct hsingle) ?_ hothers hrows hdocument
      rw [changed_update]
      exact agreesWith_change hsingle h (by rwa [if_neg hop]) hfirst

/-! ## Members -/

theorem memberIds_ok {ids : List String} (h : memberIds uuids value = .ok ids) (id : String) :
    id ∈ ids ↔ id ∈ named uuids value := by
  unfold memberIds at h
  obtain ⟨entries, hentries, h⟩ := Eff.except_bind_eq_ok.mp h
  obtain ⟨found, hfound, h⟩ := Eff.except_bind_eq_ok.mp h
  cases h
  have hsent : entriesIn value = entries := by
    cases value with
    | null => cases hentries; rfl
    | dict entry => cases hentries; rfl
    | list items => cases hentries; rfl
    | _ => cases hentries
  rw [List.mem_eraseDups, named, Set.mem_ofPred_eq, hsent]
  exact ⟨Eff.exists_of_mapM_eq_ok hfound,
    fun ⟨entry, hentry, hid⟩ => Eff.mem_of_mapM_eq_ok hfound hentry hid⟩

theorem lower_memberId {entry : Json} {id : String} (h : memberId uuids entry = .ok id) :
    py.lower id = id := by
  unfold memberId at h
  split at h
  · split at h
    · rename_i raw _ parsed hparse
      cases h
      obtain ⟨hascii, hlower⟩ := uuids.canonical _ _ hparse
      rw [py.lower_ascii _ hascii, hlower]
    · cases h
  · cases h

theorem named_additions (value : Json) (existing : List Json) (id : String) :
    id ∈ named uuids (.list (existing ++ Patch.additions value)) ↔
      id ∈ named uuids (.list existing) ∨ ∃ entry ∈ Patch.additions value,
        memberId uuids entry = .ok id := by
  simp only [named, Set.mem_ofPred_eq, entriesIn, List.mem_append]
  constructor
  · rintro ⟨entry, hentry | hentry, hid⟩
    · exact .inl ⟨entry, hentry, hid⟩
    · exact .inr ⟨entry, hentry, hid⟩
  · rintro (⟨entry, hentry, hid⟩ | ⟨entry, hentry, hid⟩)
    · exact ⟨entry, .inl hentry, hid⟩
    · exact ⟨entry, .inr hentry, hid⟩

theorem mem_additions {ids : List String} (h : memberIds uuids value = .ok ids) (id : String) :
    (∃ entry ∈ Patch.additions value, memberId uuids entry = .ok id) ↔ id ∈ named uuids value := by
  cases value with
  | null =>
    constructor
    · rintro ⟨entry, hentry, hid⟩
      obtain rfl := List.mem_singleton.mp hentry
      cases hid
    · rintro ⟨entry, hentry, -⟩
      cases hentry
  | dict entry => exact Iff.rfl
  | list items => exact Iff.rfl
  | bool b => cases h
  | num n => cases h
  | str text => cases h

theorem named_of_not_array (hlist : ∀ items, value ≠ .list items)
    (hdict : ∀ entry, value ≠ .dict entry) : named uuids value = ∅ := by
  refine Set.eq_empty_of_forall_notMem ?_
  rintro id ⟨entry, hentry, -⟩
  cases value with
  | list items => exact hlist items rfl
  | dict entry => exact hdict entry rfl
  | _ => cases hentry

/-- **An addition** to the members. -/
theorem named_add {ids : List String} {existing : Json} (h : memberIds uuids value = .ok ids)
    (halone : ∀ entry, existing ≠ .dict entry) (id : String) :
    id ∈ named uuids (Patch.written .add value existing) ↔
      id ∈ named uuids existing ∨ id ∈ ids := by
  rw [memberIds_ok h]
  by_cases hlist : ∃ items, existing = .list items
  · obtain ⟨items, rfl⟩ := hlist
    rw [← mem_additions h]
    exact named_additions value items id
  · push Not at hlist
    rw [written_of_not_list (by decide) hlist, named_of_not_array hlist halone]
    simp

/-- The members that a filter leaves. -/
def left (py : Builtins) (predicate : Node) : Json → Json
  | .list members => .list (members.filter fun member => !selects py predicate member)
  | value => value

/-- **A filtered removal**, in the dictionary that holds the members. -/
theorem get_filtered {predicate : Node} (hsingle : Folded.Single py.lower document)
    (hname : py.lower name = "members") (hop : operation.op = .remove)
    (hsub : truthy path.subAttribute = none)
    (h : Patch.filtered py operation path predicate document name = .ok document') :
    Folded.Single py.lower document' ∧ (Patch.get py document' "members" =
        left py predicate (Patch.get py document "members")) ∧
      ∀ other, other ≠ "" → py.lower other ≠ "members" →
        Patch.get py document' other = Patch.get py document other := by
  have hnamed := ne_empty_of_lower hname (by decide)
  have hspelled : Patch.get py document name = Patch.get py document "members" :=
    Patch.get_congr hsingle hsingle hnamed (by decide) (hname.trans lower_members.symm)
      fun _ _ => Iff.rfl
  unfold Patch.filtered at h
  split at h
  · rename_i members hmembers
    have hleft : Patch.changeSelected py operation path members
        (selectMembers py predicate members) =
          members.filter fun member => !selects py predicate member := by
      rw [Patch.changeSelected, if_pos hop, Patch.removeSelected_eq, hsub]
    rw [← hspelled, hmembers]
    split at h
    · rename_i hnone
      cases h
      refine ⟨hsingle, ?_, fun _ _ _ => rfl⟩
      -- nobody is selected, so nobody is left out
      rw [← hspelled, hmembers, left, List.filter_eq_self.mpr fun member hmember => ?_]
      rw [(indices_eq_nil _).mp (List.isEmpty_iff.mp hnone) member hmember]
      rfl
    · cases h
      rw [hleft]
      refine ⟨Patch.single_set hsingle _, ?_, fun other hother hne => ?_⟩
      · have hset : Folded.Single py.lower (Patch.set py document name
            (.list (members.filter fun member => !selects py predicate member))) :=
          Patch.single_set hsingle _
        rw [Patch.get_congr hset hset (by decide) hnamed (lower_members.trans hname.symm)
          fun _ _ => Iff.rfl, Patch.get_set hnamed]
        rfl
      · have hnames : py.lower name ≠ py.lower other := by
          rw [hname]
          exact hne.symm
        exact @Patch.get_direct_of_ne py document name other .replace _ hsingle hother hnames
  · rename_i hlist
    rw [if_pos hop] at h
    cases h
    refine ⟨hsingle, ?_, fun _ _ _ => rfl⟩
    cases hvalue : Patch.get py document "members" with
    | list items => exact absurd (hspelled.trans hvalue) (hlist items)
    | _ => rfl

theorem named_left {predicate : Node} {selected : List String}
    (halone : ∀ entry, value ≠ .dict entry)
    (hsame : ∀ entry ∈ entriesIn value, ∀ id, memberId uuids entry = .ok id →
      (selects py predicate entry = true ↔ id ∈ selected)) (id : String) :
    id ∈ named uuids (left py predicate value) ↔ id ∈ named uuids value ∧ id ∉ selected := by
  cases value with
  | list members =>
    simp only [named, left, entriesIn, Set.mem_ofPred_eq, List.mem_filter, Bool.not_eq_true']
    constructor
    · rintro ⟨entry, ⟨hentry, hkept⟩, hid⟩
      refine ⟨⟨entry, hentry, hid⟩, fun hselected => ?_⟩
      rw [(hsame entry hentry id hid).mpr hselected] at hkept
      cases hkept
    · rintro ⟨⟨entry, hentry, hid⟩, hkept⟩
      refine ⟨entry, ⟨hentry, ?_⟩, hid⟩
      rw [Bool.eq_false_iff]
      exact fun hselects => hkept ((hsame entry hentry id hid).mp hselects)
  | dict entry => exact absurd rfl (halone entry)
  | _ => simp [named, left, entriesIn]

theorem AgreesWith.of_members (h : AgreesWith py uuids group people document)
    {people' : String → Prop}
    (hrest : ∀ other, other ≠ "" → py.lower other ≠ "members" →
      Patch.get py document' other = Patch.get py document other)
    (hmembers : ∀ id, people' id ↔ id ∈ named uuids (Patch.get py document' "members")) :
    AgreesWith py uuids group people' document' where
  displayName := by
    rw [hrest "displayName" (by decide) (by rw [lower_displayName]; decide)]
    exact h.displayName
  externalId := by
    rw [hrest "externalId" (by decide) (by rw [lower_externalId]; decide)]
    exact h.externalId
  members := hmembers

/-! ## One operation -/

/-- Rows and document are one group, and the document holds every name once. -/
structure Matched (py : Builtins) (uuids : Uuids) (groupId : String) (tables : GroupTables)
    (document : Object) : Prop where
  agrees : Agrees py uuids groupId tables document
  single : Folded.Single py.lower document

theorem applyOne_direct (hpath : operation.path = some path) (hurn : truthy path.path.urn = none)
    (hsub : truthy path.subAttribute = none) (hpredicate : path.predicate = none) :
    Patch.applyOne py document operation =
      .ok (Patch.direct py operation.op operation.value document path.path.attributeName) := by
  rw [Patch.applyOne_of_path hpath, Patch.onExtension, hurn]
  simp only [Patch.inContainer, hpredicate, hsub]

theorem applyOne_filtered {predicate : Node} (hpath : operation.path = some path)
    (hurn : truthy path.path.urn = none) (hpredicate : path.predicate = some predicate) :
    Patch.applyOne py document operation =
      Patch.filtered py operation path predicate document path.path.attributeName := by
  rw [Patch.applyOne_of_path hpath, Patch.onExtension, hurn]
  simp only [Patch.inContainer, hpredicate]

theorem agrees_set {changes : Changes} (hload : tables.load groupId = .ok group)
    (hstep : GroupTables.patchOne persons uniqueId now groupId tables
      (.set changes.displayName changes.externalId) = .ok tables')
    (h : AgreesWith py uuids (changed changes group)
      (fun id => tables.isMember groupId id = true) document) :
    Agrees py uuids groupId tables' document := by
  cases hstep
  exact ⟨changed changes group,
    GroupTables.load_updateGroup (f := changed changes) (fun _ => rfl) hload, h⟩

/-- **An operation on columns**. -/
theorem matched_columns (h : Matched py uuids groupId tables document)
    (hplain : Plain py uuids persons uniqueId operation document)
    (hread : operation.op = .remove → operation.path ≠ none)
    (htargets : targetsMembers py operation = false)
    (hrows : GroupTables.patchOne persons uniqueId now groupId tables
      (readAs (fun changes => .set changes.displayName changes.externalId)
        (attributeChanges py operation index)) = .ok tables')
    (hdocument : Patch.applyOne py document operation = .ok document') :
    Matched py uuids groupId tables' document' := by
  obtain ⟨⟨group, hload, hagrees⟩, hsingle⟩ := h
  cases hchanges : attributeChanges py operation index with
  | error e =>
    rw [hchanges] at hrows
    cases hrows
  | ok changes =>
    rw [hchanges] at hrows
    cases hpath : operation.path with
    | none =>
      unfold attributeChanges at hchanges
      unfold Patch.applyOne Patch.applyPathless at hdocument
      unfold Plain at hplain
      rw [hpath] at hchanges hdocument hplain
      dsimp only at hchanges hdocument hplain
      cases hvalue : operation.value with
      | dict entries =>
        rw [hvalue] at hchanges hdocument
        have hchanged : AgreesWith py uuids (changed {} group)
            (fun id => tables.isMember groupId id = true) document := hagrees
        obtain ⟨hsingle', hagrees'⟩ := agreesWith_changes hsingle hchanged
          (fun hremove => hread hremove hpath)
          (fun entry hentry => (hplain entries hvalue entry hentry).2) hchanges hdocument
        exact ⟨agrees_set hload hrows hagrees', hsingle'⟩
      | _ =>
        rw [hvalue] at hchanges
        cases hchanges
    | some path =>
      unfold Plain at hplain
      unfold attributeChanges at hchanges
      unfold targetsMembers at htargets
      rw [hpath] at hplain hchanges htargets
      obtain ⟨hurn, hsub, hattribute⟩ := hplain
      rw [if_neg (of_decide_eq_false htargets)] at hattribute
      rw [applyOne_direct hpath hurn hsub hattribute.1] at hdocument
      cases hdocument
      exact ⟨agrees_set hload hrows
        (agreesWith_change hsingle hagrees hchanges hattribute.2), Patch.single_direct hsingle⟩

theorem matched_of_members (h : Matched py uuids groupId tables document)
    (hgroups : tables'.groups = tables.groups) (hsingle : Folded.Single py.lower document')
    (hrest : ∀ other, other ≠ "" → py.lower other ≠ "members" →
      Patch.get py document' other = Patch.get py document other)
    (hmembers : ∀ id, tables'.isMember groupId id = true ↔
      id ∈ named uuids (Patch.get py document' "members")) :
    Matched py uuids groupId tables' document' := by
  obtain ⟨⟨group, hload, hagrees⟩, -⟩ := h
  refine ⟨⟨group, ?_, hagrees.of_members hrest hmembers⟩, hsingle⟩
  rw [GroupTables.load_congr hgroups, hload]

/-- **An operation on the members without a filter**. -/
theorem matched_direct (h : Matched py uuids groupId tables document)
    (hname : py.lower name = "members")
    (hadd : operation.op = .add → NotAlone py document)
    (hpath : operation.path = some path) (hpredicate : path.predicate = none)
    (hrows : GroupTables.patchOne persons uniqueId now groupId tables
      (patchMembers py uuids operation index) = .ok tables') :
    Matched py uuids groupId tables'
      (Patch.direct py operation.op operation.value document name) := by
  have hsingle := h.single
  have hnamed := ne_empty_of_lower hname (by decide)
  obtain ⟨group, -, hagrees⟩ := h.agrees
  have hget : Patch.get py (Patch.direct py operation.op operation.value document name) "members" =
      Patch.written operation.op operation.value (Patch.get py document "members") :=
    get_direct_spelled hsingle hnamed (by decide) (hname.trans lower_members.symm)
  have hrest : ∀ other, other ≠ "" → py.lower other ≠ "members" →
      Patch.get py (Patch.direct py operation.op operation.value document name) other =
        Patch.get py document other := fun other hother hne =>
    Patch.get_direct_of_ne hsingle hother (by rw [hname]; exact hne.symm)
  have hmatched : tables'.groups = tables.groups →
      (∀ id, tables'.isMember groupId id = true ↔ id ∈ named uuids
        (Patch.written operation.op operation.value (Patch.get py document "members"))) →
        Matched py uuids groupId tables'
          (Patch.direct py operation.op operation.value document name) := by
    rw [← hget]
    exact fun hgroups => matched_of_members h hgroups (Patch.single_direct hsingle) hrest
  unfold patchMembers at hrows
  cases hop : operation.op with
  | add =>
    rw [hop] at hrows hmatched
    cases hids : memberIds uuids operation.value with
    | error e =>
      rw [hids] at hrows
      cases hrows
    | ok ids =>
      rw [hids] at hrows
      refine hmatched (GroupTables.groups_addMembers hrows) fun id => ?_
      rw [GroupTables.isMember_addMembers hrows, named_add hids (hadd hop), hagrees.members]
  | replace =>
    simp only [hop, hpath, hpredicate, Option.isSome_none, Bool.false_eq_true, if_false] at hrows
    rw [hop] at hmatched
    cases hids : memberIds uuids operation.value with
    | error e =>
      rw [hids] at hrows
      cases hrows
    | ok ids =>
      rw [hids] at hrows
      refine hmatched (GroupTables.groups_replaceMembers hrows) fun id => ?_
      rw [GroupTables.isMember_replaceMembers hrows, memberIds_ok hids]
      rfl
  | remove =>
    simp only [hop, hpath, Option.bind_some, hpredicate, Option.map_none] at hrows
    rw [hop] at hmatched
    refine hmatched (GroupTables.groups_replaceMembers hrows) fun id => ?_
    rw [GroupTables.isMember_replaceMembers hrows]
    simp [Patch.written, named, entriesIn]

/-- The rows are of people who are there. -/
def Known (persons : List Person) (tables : GroupTables) : Prop :=
  ∀ row ∈ tables.members, ∃ person ∈ persons, person.personUuid = row.personUuid

instance (persons : List Person) (tables : GroupTables) : Decidable (Known persons tables) :=
  inferInstanceAs (Decidable (∀ row ∈ tables.members, ∃ person ∈ persons, _ = row.personUuid))

theorem exists_shownAs {id : String} (hknown : Known persons tables)
    (hmember : tables.isMember groupId id = true) :
    ∃ member, shownAs persons uniqueId id = some member := by
  obtain ⟨row, hrow, -, rfl⟩ := GroupTables.isMember_iff.mp hmember
  obtain ⟨person, hperson, hid⟩ := hknown row hrow
  have hfind : (persons.find? (·.personUuid = row.personUuid)).isSome := by
    rw [List.find?_isSome]
    exact ⟨person, hperson, by simpa using hid⟩
  obtain ⟨found, hfound⟩ := Option.isSome_iff_exists.mp hfind
  exact ⟨_, Option.map_eq_some_iff.mpr ⟨found, hfound, rfl⟩⟩

/-- **A plain filter selects the same people** among the rows and in the document. -/
theorem selects_iff_mem_selected {predicate : Node} {selected : List String}
    (h : Matched py uuids groupId tables document) (hknown : Known persons tables)
    (hspelled : SpelledOut py uuids predicate)
    (hseen : SeenAlike py uuids persons uniqueId document predicate)
    (hselected : GroupTables.selected persons uniqueId groupId tables
      (selectionOf py uuids predicate) = .ok selected) :
    ∀ entry ∈ entriesIn (Patch.get py document "members"), ∀ id, memberId uuids entry = .ok id →
      (selects py predicate entry = true ↔ id ∈ selected) := by
  intro entry hentry id hid
  obtain ⟨group, -, hagrees⟩ := h.agrees
  have hmember : tables.isMember groupId id = true := (hagrees.members id).mpr ⟨entry, hentry, hid⟩
  obtain ⟨member, hshown⟩ := exists_shownAs hknown hmember
  rw [hseen entry hentry id hid member hshown]
  unfold selectionOf at hselected
  cases htarget : memberTarget py uuids predicate with
  | some target =>
    -- the filter is recognised, and the person it names is the one with its spelling
    rw [htarget] at hselected
    cases hselected
    obtain ⟨path, value, rfl, hvalue, hsub, hparse⟩ := memberTarget_eq_some.mp htarget
    obtain ⟨hpath, hspelling⟩ := hspelled path value target rfl hvalue hsub hparse
    rw [selects_projected hvalue, fst_of_shownAs hshown, lower_memberId hid, hspelling,
      List.mem_singleton]
    exact and_iff_right hpath
  | none =>
    rw [htarget] at hselected
    rw [mem_selected hselected]
    constructor
    · exact fun hselects => ⟨hmember, member, hshown, hselects⟩
    · rintro ⟨-, member', hshown', hselects⟩
      rw [hshown] at hshown'
      cases hshown'
      exact hselects

/-- **A filtered removal** of members. -/
theorem matched_filtered {predicate : Node} (h : Matched py uuids groupId tables document)
    (hknown : Known persons tables)
    (hname : py.lower name = "members") (hop : operation.op = .remove)
    (halone : NotAlone py document) (hspelled : SpelledOut py uuids predicate)
    (hseen : SeenAlike py uuids persons uniqueId document predicate)
    (hpath : operation.path = some path) (hpredicate : path.predicate = some predicate)
    (hsub : truthy path.subAttribute = none)
    (hrows : GroupTables.patchOne persons uniqueId now groupId tables
      (patchMembers py uuids operation index) = .ok tables')
    (hdocument : Patch.filtered py operation path predicate document name = .ok document') :
    Matched py uuids groupId tables' document' := by
  obtain ⟨hsingle, hget, hrest⟩ := get_filtered h.single hname hop hsub hdocument
  obtain ⟨group, -, hagrees⟩ := h.agrees
  unfold patchMembers at hrows
  simp only [hop, hpath, Option.bind_some, hpredicate, Option.map_some] at hrows
  obtain ⟨people, hpeople, hrows⟩ := Eff.except_bind_eq_ok.mp hrows
  cases hrows
  refine matched_of_members h rfl hsingle hrest fun id => ?_
  rw [hget, named_left halone (selects_iff_mem_selected h hknown hspelled hseen hpeople),
    GroupTables.isMember_removeMembers, hagrees.members]

/-- **A plain operation keeps rows and document the same group.** -/
theorem Matched.step (h : Matched py uuids groupId tables document)
    (hknown : Known persons tables)
    (hplain : Plain py uuids persons uniqueId operation document)
    (hread : operation.op = .remove → operation.path ≠ none)
    (hrows : GroupTables.patchOne persons uniqueId now groupId tables
      (readOperation py uuids operation index) = .ok tables')
    (hdocument : Patch.applyOne py document operation = .ok document') :
    Matched py uuids groupId tables' document' := by
  unfold readOperation at hrows
  cases htargets : targetsMembers py operation with
  | false =>
    rw [htargets] at hrows
    exact matched_columns h hplain hread htargets hrows hdocument
  | true =>
    rw [htargets] at hrows
    unfold Plain at hplain
    unfold targetsMembers at htargets
    cases hpath : operation.path with
    | none =>
      -- members are only changed under a path
      rw [hpath] at hplain htargets
      dsimp only at hplain htargets
      cases hvalue : operation.value with
      | dict entries =>
        rw [hvalue] at htargets
        obtain ⟨entry, hentry, hname⟩ := List.any_eq_true.mp htargets
        exact absurd (of_decide_eq_true hname) (hplain entries hvalue entry hentry).1
      | _ =>
        rw [hvalue] at htargets
        cases htargets
    | some path =>
      rw [hpath] at hplain htargets
      obtain ⟨hurn, hsub, hmembers⟩ := hplain
      have hname : py.lower path.path.attributeName = "members" := of_decide_eq_true htargets
      rw [if_pos hname] at hmembers
      cases hpredicate : path.predicate with
      | none =>
        rw [hpredicate] at hmembers
        rw [applyOne_direct hpath hurn hsub hpredicate] at hdocument
        cases hdocument
        exact matched_direct h hname hmembers hpath hpredicate hrows
      | some predicate =>
        rw [hpredicate] at hmembers
        obtain ⟨hop, halone, hspelled, hseen⟩ := hmembers
        rw [applyOne_filtered hpath hurn hpredicate] at hdocument
        exact matched_filtered h hknown hname hop halone hspelled hseen hpath hpredicate hsub hrows
          hdocument

theorem exists_of_assertPeopleExist {ids : List String} {u : Unit}
    (h : assertPeopleExist persons ids = .ok u) :
    ∀ id ∈ ids, ∃ person ∈ persons, person.personUuid = id := by
  unfold assertPeopleExist at h
  dsimp only at h
  split_ifs at h with hnone
  rw [List.isEmpty_iff, List.filter_eq_nil_iff] at hnone
  intro id hid
  simpa using hnone id hid

theorem Known.addMembers {ids : List String} (h : Known persons tables)
    (hadd : GroupTables.addMembers persons now groupId ids tables = .ok tables') :
    Known persons tables' := by
  unfold GroupTables.addMembers at hadd
  split at hadd
  · cases hadd
    exact h
  · rename_i hsome
    obtain ⟨_, hexist, hadd⟩ := Eff.except_bind_eq_ok.mp hadd
    cases hadd
    have hthere := exists_of_assertPeopleExist hexist
    clear hsome hexist hadd
    induction ids generalizing tables with
    | nil => exact h
    | cons id ids ih =>
      refine ih ?_ fun id hid => hthere id (List.mem_cons_of_mem _ hid)
      unfold GroupTables.insertMember
      split
      · exact h
      · intro row hrow
        rcases List.mem_append.mp hrow with hrow | hrow
        · exact h row hrow
        · obtain rfl := List.mem_singleton.mp hrow
          exact hthere id List.mem_cons_self

/-- **The rows stay rows of people who are there.** -/
theorem Known.patchOne {change : GroupOperation} (h : Known persons tables)
    (hrows : GroupTables.patchOne persons uniqueId now groupId tables change = .ok tables') :
    Known persons tables' := by
  have hreplace : ∀ {ids : List String}, GroupTables.replaceMembers persons now groupId ids tables =
      .ok tables' → Known persons tables' := fun hrows =>
    Known.addMembers (fun row hrow => h row (List.mem_of_mem_filter hrow)) hrows
  cases change with
  | set displayName externalId =>
    cases hrows
    exact h
  | add people => exact h.addMembers hrows
  | replace people => exact hreplace hrows
  | remove selection =>
    cases selection with
    | none => exact hreplace hrows
    | some selection =>
      obtain ⟨people, -, hrows⟩ := Eff.except_bind_eq_ok.mp hrows
      cases hrows
      exact fun row hrow => h row (List.mem_of_mem_filter hrow)
  | unreadable e => cases hrows

/-- **A run of plain operations**. -/
theorem Matched.run {operations : List Operation} (h : Matched py uuids groupId tables document)
    (hknown : Known persons tables)
    (hread : ∀ operation ∈ operations, operation.op = .remove → operation.path ≠ none)
    (hplain : PlainFrom py uuids persons uniqueId operations document)
    (hrows : ((operations.zipIdx index).map fun operation =>
        readOperation py uuids operation.1 operation.2).foldlM
      (GroupTables.patchOne persons uniqueId now groupId) tables = .ok tables')
    (hdocument : operations.foldlM (Patch.applyOne py) document = .ok document') :
    Matched py uuids groupId tables' document' := by
  induction operations generalizing index tables document with
  | nil =>
    cases hrows
    cases hdocument
    exact h
  | cons operation operations ih =>
    obtain ⟨hfirst, hothers⟩ := List.forall_mem_cons.mp hread
    rw [List.zipIdx_cons, List.map_cons, List.foldlM_cons] at hrows
    rw [List.foldlM_cons] at hdocument
    obtain ⟨next, hnext, hrows⟩ := Eff.except_bind_eq_ok.mp hrows
    obtain ⟨working, hworking, hdocument⟩ := Eff.except_bind_eq_ok.mp hdocument
    exact ih (h.step hknown hplain.1 hfirst hnext hworking) (hknown.patchOne hnext) hothers
      (hplain.2 working hworking) hrows hdocument

/-! ## The projected group -/

/-- What the columns of the member table promise: identifiers are canonical, and of people who
are there. -/
structure Sound (uuids : Uuids) (persons : List Person) (groupId : String)
    (tables : GroupTables) : Prop where
  canonical : ∀ row ∈ tables.members, uuids.parse row.personUuid = some row.personUuid
  known : Known persons tables
  inline : (tables.members.filter (·.groupUuid = groupId)).length ≤ maxMembersInline

/-- **The members that are projected** are all the members. -/
theorem mem_membersOf (hsound : Sound uuids persons groupId tables) (id : String) :
    (∃ member ∈ GroupTables.membersOf persons uniqueId groupId tables, member.1 = id) ↔
      tables.isMember groupId id = true := by
  unfold GroupTables.membersOf
  rw [List.take_of_length_le (by rw [List.length_insertionSort]; exact hsound.inline),
    GroupTables.isMember_iff]
  constructor
  · rintro ⟨member, hmember, rfl⟩
    obtain ⟨row, hrow, hfound⟩ := List.mem_filterMap.mp hmember
    obtain ⟨person, -, rfl⟩ := Option.map_eq_some_iff.mp hfound
    obtain ⟨hrow, hgroup⟩ := List.mem_filter.mp ((List.mem_insertionSort _).mp hrow)
    exact ⟨row, hrow, of_decide_eq_true hgroup, rfl⟩
  · rintro ⟨row, hrow, hgroup, rfl⟩
    have hmember := GroupTables.isMember_iff.mpr ⟨row, hrow, hgroup, rfl⟩
    obtain ⟨member, hshown⟩ := exists_shownAs hsound.known hmember
    refine ⟨member, List.mem_filterMap.mpr ⟨row, ?_, hshown⟩, fst_of_shownAs hshown⟩
    exact (List.mem_insertionSort _).mpr (List.mem_filter.mpr ⟨hrow, decide_eq_true hgroup⟩)

theorem named_projected {issuer : String} {members : List (String × String)}
    (h : ∀ member ∈ members, uuids.parse member.1 = some member.1) (id : String) :
    id ∈ named uuids (.list (members.map (memberJson issuer))) ↔
      ∃ member ∈ members, member.1 = id := by
  have hid : ∀ member ∈ members, memberId uuids (memberJson issuer member) = .ok member.1 := by
    intro member hmember
    have hraw : memberId.rawId (memberJson issuer member) = some (.str member.1) := rfl
    simp only [memberId, hraw, h member hmember]
  simp only [named, entriesIn, Set.mem_ofPred_eq, List.mem_map]
  constructor
  · rintro ⟨_, ⟨member, hmember, rfl⟩, hok⟩
    rw [hid member hmember] at hok
    exact ⟨member, hmember, Except.ok.inj hok⟩
  · rintro ⟨member, hmember, rfl⟩
    exact ⟨_, ⟨member, hmember, rfl⟩, hid member hmember⟩

/-- The names of a projected group. -/
def groupNames : List String := ["schemas", "id", "displayName", "externalId", "members", "meta"]

theorem names_toScimGroup (issuer created modified : String) (group : ScimGroup)
    (members : List (String × String)) :
    ((toScimGroup issuer created modified group (some members)).map Prod.fst).Sublist
      groupNames := by
  unfold toScimGroup
  cases given group.externalId with
  | none =>
    show ["schemas", "id", "displayName", "members", "meta"].Sublist groupNames
    decide
  | some _ =>
    show ["schemas", "id", "displayName", "externalId", "members", "meta"].Sublist groupNames
    decide

theorem single_of_names (h : (document.map Prod.fst).Sublist groupNames) :
    Folded.Single py.lower document := by
  have hlower : groupNames.map py.lower = groupNames.map Text.lower :=
    List.map_congr_left fun name hname => py.lower_ascii name (by
      have hall : ∀ name ∈ groupNames, Text.isAscii name = true := by decide
      exact hall name hname)
  have hnodup : (groupNames.map py.lower).Nodup := by
    rw [hlower]
    decide
  have hsub := h.map py.lower
  rw [List.map_map] at hsub
  exact hnodup.sublist hsub

/-- **A group and its projection are matched.** -/
theorem matched_toScimGroup {issuer created modified : String}
    (hsound : Sound uuids persons groupId tables) (hload : tables.load groupId = .ok group) :
    Matched py uuids groupId tables (toScimGroup issuer created modified group
      (some (GroupTables.membersOf persons uniqueId groupId tables))) := by
  have hnames := names_toScimGroup issuer created modified group
    (GroupTables.membersOf persons uniqueId groupId tables)
  have hsingle : Folded.Single py.lower _ := single_of_names hnames
  refine ⟨⟨group, hload, ?_, ?_, fun id => ?_⟩, hsingle⟩
  · refine Patch.get_of_mem hsingle (by decide) (k := "displayName") ?_ rfl
    simp [toScimGroup]
  · refine .inl ?_
    cases hgiven : given group.externalId with
    | some text =>
      refine Patch.get_of_mem hsingle (by decide) (k := "externalId") ?_ rfl
      simp [toScimGroup, hgiven, attr]
    | none =>
      refine Patch.get_of_new fun entry hentry hfold => ?_
      have hkeys : (toScimGroup issuer created modified group
          (some (GroupTables.membersOf persons uniqueId groupId tables))).map Prod.fst =
            ["schemas", "id", "displayName", "members", "meta"] := by
        simp [toScimGroup, hgiven, attr]
      have hmem := List.mem_map_of_mem (f := Prod.fst) hentry
      rw [hkeys] at hmem
      have hascii : ∀ name ∈ ["schemas", "id", "displayName", "members", "meta"],
          Text.isAscii name = true ∧ Text.lower name ≠ "externalid" := by decide
      obtain ⟨hall, hne⟩ := hascii _ hmem
      rw [lower_externalId, py.lower_ascii _ hall] at hfold
      exact hne hfold
  · have hmembers : Patch.get py (toScimGroup issuer created modified group
        (some (GroupTables.membersOf persons uniqueId groupId tables))) "members" =
          .list ((GroupTables.membersOf persons uniqueId groupId tables).map
            (memberJson issuer)) := by
      refine Patch.get_of_mem hsingle (by decide) (k := "members") ?_ rfl
      simp [toScimGroup, attr]
    rw [hmembers, named_projected, mem_membersOf hsound]
    · intro member hmember
      unfold GroupTables.membersOf at hmember
      obtain ⟨row, hrow, hfound⟩ := List.mem_filterMap.mp hmember
      obtain ⟨person, -, rfl⟩ := Option.map_eq_some_iff.mp hfound
      have hrow := (List.mem_insertionSort _).mp (List.mem_of_mem_take hrow)
      exact hsound.canonical row (List.mem_of_mem_filter hrow)

theorem path_of_remove {body : Json} {operations : List Operation}
    (h : Patch.parseOperations py body = .ok operations) :
    ∀ operation ∈ operations, operation.op = .remove → operation.path ≠ none :=
  Patch.parseOperations_forall (fun hone hremove hnone => by
    obtain ⟨path, hpath, -⟩ := Patch.parseOne_remove hone hremove
    rw [hnone] at hpath
    cases hpath) h

theorem Plain.not_namesPart (h : Plain py uuids persons uniqueId operation document) :
    ¬ NamesPart py operation := by
  rintro ⟨path, hpath, -, hsub⟩
  unfold Plain at h
  rw [hpath] at h
  rw [h.2.1] at hsub
  cases hsub

/-- **A PATCH of plain operations is faithful**: what `GroupStore.patch` makes of the rows and what
`apply_patch` makes of the projected document is the same group. -/
theorem patch_agrees {issuer created modified : String} {body : Json}
    {operations : List Operation} {ifMatch : Option String} {after : GroupTables}
    {result : Object} (hsound : Sound uuids persons groupId tables)
    (hload : tables.load groupId = .ok group)
    (hparse : Patch.parseOperations py body = .ok operations)
    (hstore : GroupTables.patch persons uniqueId now groupId
      (readOperations py uuids operations) ifMatch tables = .ok after)
    (hengine : Patch.applyPatch py (toScimGroup issuer created modified group
      (some (GroupTables.membersOf persons uniqueId groupId tables))) operations = .ok result)
    (hplain : PlainFrom py uuids persons uniqueId operations
      (toScimGroup issuer created modified group
        (some (GroupTables.membersOf persons uniqueId groupId tables)))) :
    Faithful py uuids groupId operations tables after result := by
  have hmatched : Matched py uuids groupId tables (toScimGroup issuer created modified group
      (some (GroupTables.membersOf persons uniqueId groupId tables))) :=
    matched_toScimGroup hsound hload
  unfold GroupTables.patch at hstore
  obtain ⟨loaded, -, hstore⟩ := Eff.except_bind_eq_ok.mp hstore
  obtain ⟨-, -, hstore⟩ := Eff.except_bind_eq_ok.mp hstore
  obtain ⟨written, hwritten, hstore⟩ := Eff.except_bind_eq_ok.mp hstore
  obtain ⟨row, -, hstore⟩ := Eff.except_bind_eq_ok.mp hstore
  obtain ⟨-, -, hstore⟩ := Eff.except_bind_eq_ok.mp hstore
  cases hstore
  have hrun := hmatched.run hsound.known (path_of_remove hparse) hplain hwritten
    (Patch.applyPatch_ok.mp hengine)
  obtain ⟨group', hload', hagrees⟩ := hrun.agrees
  refine ⟨⟨{ group' with revision := group'.revision + 1 },
    GroupTables.load_updateGroup (fun _ => rfl) hload', ⟨hagrees.1, hagrees.2, hagrees.3⟩⟩, ?_⟩
  intro hparts
  cases operations with
  | nil =>
    cases hwritten
    exact fun _ => rfl
  | cons operation operations =>
    exact absurd (hparts operation List.mem_cons_self) (Plain.not_namesPart hplain.1)

/-! ## The filter of one person -/

theorem spelledOut_value {path : AttrPath} {id : String} (hpath : Unqualified path)
    (hid : ∀ person, uuids.parse id = some person → person = id) :
    SpelledOut py uuids (.comparison path .eq (.str id)) := by
  rintro _ _ person ⟨⟩ - - hparse
  obtain rfl := hid person hparse
  obtain ⟨hascii, hlower⟩ := uuids.canonical _ _ hparse
  exact ⟨hpath, by rw [py.lower_ascii _ hascii, hlower]⟩

theorem seenAlike_value {path : AttrPath} {text : String} (hpath : Unqualified path)
    (hvalue : py.lower path.attributeName = "value")
    (hentries : ∀ entry ∈ entriesIn (Patch.get py document "members"), ∀ id,
      memberId uuids entry = .ok id → ∃ object raw, entry = .dict object ∧
        Folded.Single py.lower object ∧ object.lookup "value" = some (.str raw) ∧
        py.lower raw = id) :
    SeenAlike py uuids persons uniqueId document (.comparison path .eq (.str text)) := by
  intro entry hentry id hid member hshown
  obtain ⟨object, raw, rfl, hsingle, hlookup, hraw⟩ := hentries entry hentry id hid
  rw [Bool.eq_iff_iff, selects_value hpath hvalue hsingle hlookup, selects_projected hvalue,
    fst_of_shownAs hshown, lower_memberId hid, hraw]
  exact (and_iff_right hpath).symm

/-! ## Two people -/

/-- The identifiers of two people, and no others. -/
def twoUuids : Uuids where
  parse text :=
    if text = "3f2504e0-4f89-41d3-9a0c-0305e82c3301" ∨
      text = "3f2504e0-4f89-41d3-9a0c-0305e82c3302" then some text else none
  canonical text id h := by
    split at h
    · rename_i hknown
      cases h
      rcases hknown with rfl | rfl <;> decide
    · cases h

/-- The two people. -/
def twoPeople : List Person :=
  [{ personUuid := "3f2504e0-4f89-41d3-9a0c-0305e82c3301" },
    { personUuid := "3f2504e0-4f89-41d3-9a0c-0305e82c3302" }]

/-- A group of one of them. -/
def staff : ScimGroup := { groupUuid := "g1", displayName := "Staff" }

/-- The tables with the group. -/
def staffTables : GroupTables where
  groups := [staff]
  members := [⟨"g1", "3f2504e0-4f89-41d3-9a0c-0305e82c3301", 0⟩]

/-- The document of the group. -/
def staffDocument : Object :=
  toScimGroup "https://id.test" "2026-01-01T00:00:00Z" "2026-01-01T00:00:00Z" staff
    (some (GroupTables.membersOf twoPeople id "g1" staffTables))

theorem sound_staff : Sound twoUuids twoPeople "g1" staffTables where
  canonical := by decide
  known := by decide
  inline := by decide

/-- The operation, as it is read. -/
def adding (path : PatchPath) : Operation :=
  ⟨.add, some path, .list [.dict [("value", .str "3f2504e0-4f89-41d3-9a0c-0305e82c3302")]]⟩

/-- The members. -/
def membersPath : PatchPath := ⟨⟨"members", none, none⟩, none, none⟩

/-- The names the members are shown with. -/
def displayPath : PatchPath := ⟨⟨"members", some "display", none⟩, none, some "display"⟩

/-- The tables after the PATCH. -/
def bothTables : GroupTables where
  groups := [{ staff with revision := 2 }]
  members := [⟨"g1", "3f2504e0-4f89-41d3-9a0c-0305e82c3301", 0⟩,
    ⟨"g1", "3f2504e0-4f89-41d3-9a0c-0305e82c3302", 1⟩]

theorem patch_adding (path : PatchPath) (h : path = membersPath ∨ path = displayPath) :
    GroupTables.patch twoPeople id 1 "g1" (readOperations .ascii twoUuids [adding path]) none
      staffTables = .ok bothTables := by
  rcases h with rfl | rfl <;> rfl

/-- An entry that adds the other one. -/
def addingEntry (target : String) : Json :=
  .dict [("op", .str "add"), ("path", .str target),
    ("value", .list [.dict [("value", .str "3f2504e0-4f89-41d3-9a0c-0305e82c3302")]])]

/-- An entry that removes the first. -/
def leavingEntry : Json :=
  .dict [("op", .str "remove"),
    ("path", .str "members[value eq \"3f2504e0-4f89-41d3-9a0c-0305e82c3301\"]")]

/-- A PATCH that adds the other one, under some path. -/
def addingAt (target : String) : Json :=
  .dict [("schemas", .list [.str patchOpSchema]), ("Operations", .list [addingEntry target])]

/-- A PATCH that puts the other one in the place of the first. -/
def exchanging : Json :=
  .dict [("schemas", .list [.str patchOpSchema]),
    ("Operations", .list [addingEntry "members", leavingEntry])]

/-- The filter that names the member of the group, under a path. -/
def namingMember (path : AttrPath) : Node :=
  .comparison path .eq (.str "3f2504e0-4f89-41d3-9a0c-0305e82c3301")

/-- The members the filter selects. -/
def leavingPath : PatchPath :=
  ⟨⟨"members", none, none⟩, some (namingMember ⟨"value", none, none⟩), none⟩

/-- The removal, as it is read. -/
def leaving : Operation := ⟨.remove, some leavingPath, .null⟩

theorem parse_leaving : Patch.parseOne .ascii leavingEntry 1 = .ok leaving := by
  have hpath : parsePatchPath .ascii "members[value eq \"3f2504e0-4f89-41d3-9a0c-0305e82c3301\"]" =
      .ok leavingPath := by
    decide +kernel
  rw [leavingEntry, Patch.parseOne, Patch.readTarget]
  simp only [List.lookup_cons, List.lookup_nil, String.reduceBEq, hpath]
  rfl

theorem parse_exchanging :
    Patch.parseOperations .ascii exchanging = .ok [adding membersPath, leaving] := by
  have hadding : Patch.parseOne .ascii (addingEntry "members") 0 = .ok (adding membersPath) := rfl
  have heach : Patch.parseEach .ascii 0 [addingEntry "members", leavingEntry] =
      .ok [adding membersPath, leaving] := by
    simp only [Patch.parseEach, hadding, Nat.zero_add, parse_leaving]
    rfl
  rw [exchanging, Patch.parseOperations, if_neg (by decide)]
  exact heach

/-- The tables after the exchange. -/
def otherTables : GroupTables where
  groups := [{ staff with revision := 2 }]
  members := [⟨"g1", "3f2504e0-4f89-41d3-9a0c-0305e82c3302", 1⟩]

/-- The document with both. -/
def bothDocument : Object :=
  Patch.direct .ascii .add (adding membersPath).value staffDocument "members"

theorem seenAlike_both : SeenAlike .ascii twoUuids twoPeople id bothDocument
    (namingMember ⟨"value", none, none⟩) := by
  refine seenAlike_value ⟨rfl, rfl⟩ (by decide) ?_
  have hentries : entriesIn (Patch.get .ascii bothDocument "members") =
      [memberJson "https://id.test"
        ("3f2504e0-4f89-41d3-9a0c-0305e82c3301", "3f2504e0-4f89-41d3-9a0c-0305e82c3301"),
        .dict [("value", .str "3f2504e0-4f89-41d3-9a0c-0305e82c3302")]] := rfl
  rw [hentries]
  intro entry hentry id hid
  rcases List.mem_cons.mp hentry with rfl | hentry
  · cases hid
    exact ⟨_, _, rfl, by decide, rfl, by decide⟩
  · obtain rfl := List.mem_singleton.mp hentry
    cases hid
    exact ⟨_, _, rfl, by decide, rfl, by decide⟩

/-- The first one has left rows and document, and the other one is in both. -/
theorem faithful_members : ∃ result,
    Patch.applyPatch .ascii staffDocument [adding membersPath, leaving] = .ok result ∧
      Faithful .ascii twoUuids "g1" [adding membersPath, leaving] staffTables otherTables
        result := by
  have hstore : GroupTables.patch twoPeople id 1 "g1"
      (readOperations .ascii twoUuids [adding membersPath, leaving]) none staffTables =
        .ok otherTables := rfl
  have hplain : PlainFrom .ascii twoUuids twoPeople id [adding membersPath, leaving]
      staffDocument := by
    refine ⟨⟨rfl, rfl, ?_⟩, ?_⟩
    · rw [if_pos (show Builtins.ascii.lower membersPath.path.attributeName = "members" by decide)]
      intro _ entry hentry
      cases hentry
    · rintro document' hdocument
      cases (show bothDocument = document' from Except.ok.inj hdocument)
      refine ⟨⟨rfl, rfl, ?_⟩, fun _ _ => trivial⟩
      rw [if_pos (show Builtins.ascii.lower leavingPath.path.attributeName = "members" by decide)]
      refine ⟨rfl, fun entry hentry => ?_, spelledOut_value ⟨rfl, rfl⟩ ?_, seenAlike_both⟩
      · cases hentry
      · intro person hperson
        exact (Option.some.inj hperson).symm
  exact ⟨_, rfl, patch_agrees sound_staff rfl parse_exchanging hstore rfl hplain⟩

/-- **A sub-attribute of the members is not looked at**: a value under the names they are shown
with makes somebody a member of the rows, and leaves nobody in the document. -/
theorem not_faithful : ¬ ∀ (py : Builtins) (uuids : Uuids) (persons : List Person)
    (uniqueId : String → String) (now : Int) (groupId issuer created modified : String)
    (group : ScimGroup) (tables after : GroupTables) (body : Json) (operations : List Operation)
    (ifMatch : Option String) (result : Object), Sound uuids persons groupId tables →
      tables.load groupId = .ok group → Patch.parseOperations py body = .ok operations →
        GroupTables.patch persons uniqueId now groupId (readOperations py uuids operations) ifMatch
          tables = .ok after →
        Patch.applyPatch py (toScimGroup issuer created modified group
          (some (GroupTables.membersOf persons uniqueId groupId tables))) operations =
            .ok result → Faithful py uuids groupId operations tables after result := by
  intro h
  have hparse : Patch.parseOperations .ascii (addingAt "members.display") =
    .ok [adding displayPath] := rfl
  obtain ⟨⟨group, -, hagrees⟩, -⟩ := h .ascii twoUuids twoPeople id 1 "g1" "https://id.test"
    "2026-01-01T00:00:00Z" "2026-01-01T00:00:00Z" staff staffTables bothTables _ _ none _
    sound_staff rfl hparse (patch_adding _ (.inr rfl)) rfl
  -- in the document the members have become one object, which names nobody
  obtain ⟨entry, hentry, hid⟩ :=
    (hagrees.members "3f2504e0-4f89-41d3-9a0c-0305e82c3302").mp (by decide)
  obtain rfl := List.mem_singleton.mp hentry
  cases hid

end GroupPatch

end Scim
end CampusID
