import CampusID.Scim.Groups
import CampusID.Scim.Reading

/-!
# Group documents

A group is projected to a document, and a PATCH of a group is read: an operation about `members`
becomes rows to insert or delete, any other sets columns.  The reading is by hand.  Of a path it
takes the attribute and, for a removal, the filter; a schema URN and a sub-attribute are not
looked at.

A filter `value eq "<id>"` is recognised and not evaluated (`memberTarget`).
-/

namespace CampusID
namespace Scim

open Lib
open Audit (Json)

/-- `CORE_GROUP`. -/
def coreGroup : String := "urn:ietf:params:scim:schemas:core:2.0:Group"

/-- `uuid.UUID` of a text: the canonical spelling of the identifier, which is in lower case. -/
structure Uuids where
  parse : String → Option String
  canonical : ∀ text id, parse text = some id → Text.isAscii id = true ∧ Text.lower id = id

/-! ## The document of a group -/

/-- A member in the document. -/
def memberJson (issuer : String) (member : String × String) : Json :=
  .dict [("value", .str member.1), ("display", .str member.2), ("type", .str "User"),
    ("$ref", .str (issuer ++ "/scim/v2/Users/" ++ member.1))]

/-- `meta`, with the times it was created and changed at. -/
def groupMeta (issuer created modified : String) (group : ScimGroup) : Json :=
  .dict [("resourceType", .str "Group"), ("created", .str created),
    ("lastModified", .str modified),
    ("location", .str (issuer ++ "/scim/v2/Groups/" ++ group.groupUuid)),
    ("version", .str (groupEtag group.revision))]

/-- `to_scim_group`. -/
def toScimGroup (issuer created modified : String) (group : ScimGroup)
    (members : Option (List (String × String))) : Object :=
  [("schemas", .list [.str coreGroup]), ("id", .str group.groupUuid),
      ("displayName", .str group.displayName)] ++
    attr "externalId" ((given group.externalId).map .str) ++
    attr "members" (members.map fun members => .list (members.map (memberJson issuer))) ++
    [("meta", groupMeta issuer created modified group)]

namespace GroupPatch

variable (py : Builtins) (uuids : Uuids)

/-! ## Members -/

/-- The identifier an entry of `members` names: a bare text is one too. -/
def memberId (entry : Json) : Except ScimError String :=
  match rawId entry with
  | some (.str raw) =>
    match uuids.parse raw with
    | some id => .ok id
    | none => .error (invalidValue (Text.pyRepr raw ++ " is not a member id"))
  | _ => .error (invalidValue "each member needs a value")
where
  /-- The `value` of an object, or anything else itself. -/
  rawId : Json → Option Json
    | .dict entry => entry.lookup "value"
    | entry => some entry

/-- The array a client sent as `members`. -/
def sentMembers : Json → Except ScimError (List Json)
  | .null => .ok []
  | .dict entry => .ok [.dict entry]
  | .list entries => .ok entries
  | _ => .error (invalidValue "members must be an array")

/-- `member_ids`. -/
def memberIds (value : Json) : Except ScimError (List String) := do
  let entries ← sentMembers value
  let ids ← entries.mapM (memberId uuids)
  return ids.eraseDups

/-- `member_target`. -/
def memberTarget (predicate : Node) : Option String :=
  match predicate with
  | .comparison path .eq (.str value) =>
    if py.lower path.attributeName ≠ "value" ∨ (truthy path.subAttribute).isSome then none
    else uuids.parse value
  | _ => none

/-- A member as a filter sees it. -/
def projected (member : String × String) : Json :=
  .dict [("value", .str member.1), ("display", .str member.2), ("type", .str "User")]

/-- What a value filter selects. -/
def selectionOf (predicate : Node) : Selection :=
  match memberTarget py uuids predicate with
  | some personUuid => .target personUuid
  | none => .matching fun member => selects py predicate (projected member)

/-- `targets_members`. -/
def targetsMembers (operation : Operation) : Bool :=
  match operation.path with
  | some path => py.lower path.path.attributeName = "members"
  | none =>
    match operation.value with
    | .dict entries => entries.any fun entry => py.lower entry.1 = "members"
    | _ => false

/-- An operation that was read, or the refusal of it. -/
def readAs {α : Type} (read : α → GroupOperation) : Except ScimError α → GroupOperation
  | .ok a => read a
  | .error e => .unreadable e

/-- What is said about a replacement through a filter. -/
def filteredMembers (operation : Operation) (index : Nat) : GroupOperation :=
  .unreadable ⟨400, Patch.aboutOperation index
    (": " ++ operation.op.text ++ " on a filtered members path is not supported"),
    some "invalidPath"⟩

/-- `_patch_members`, as it is read. -/
def patchMembers (operation : Operation) (index : Nat) : GroupOperation :=
  match operation.op with
  | .add => readAs .add (memberIds uuids operation.value)
  | .replace =>
    match operation.path with
    | some path =>
      if path.predicate.isSome then filteredMembers operation index
      else readAs .replace (memberIds uuids operation.value)
    | none => filteredMembers operation index
  | .remove =>
    .remove ((operation.path.bind PatchPath.predicate).map (selectionOf py uuids))

/-! ## Columns -/

/-- The columns an operation sets: `display_name`, and `external_id`, which may become null. -/
structure Changes where
  displayName : Option String := none
  externalId : Option (Option String) := none

/-- `changes.update(...)`. -/
def Changes.update (changes later : Changes) : Changes where
  displayName := later.displayName.or changes.displayName
  externalId := later.externalId.or changes.externalId

/-- `_one_change`. -/
def oneChange (name : String) (value : Json) (index : Nat) : Except ScimError Changes :=
  if Patch.isImmutable py name then
    .error ⟨400, Patch.aboutOperation index (": " ++ name ++ " cannot be changed"),
      some "mutability"⟩
  else if py.lower name = "displayname" then
    match value with
    | .str text =>
      if Text.strip text = "" then
        .error (invalidValue "displayName cannot be removed or emptied")
      else .ok { displayName := some (Text.strip text) }
    | _ => .error (invalidValue "displayName cannot be removed or emptied")
  else if py.lower name = "externalid" then
    match value with
    | .null => .ok { externalId := some none }
    | .str text => .ok { externalId := some (some text) }
    | _ => .error (invalidValue "externalId must be a string")
  else
    .error ⟨400, Patch.aboutOperation index (": a Group has no " ++ Text.pyRepr name ++
      " attribute"), some "invalidPath"⟩

/-- The changes of an object, one after another. -/
def manyChanges (index : Nat) (changes : Changes) (entry : String × Json) :
    Except ScimError Changes := do
  return changes.update (← oneChange py entry.1 entry.2 index)

/-- `attribute_changes`. -/
def attributeChanges (operation : Operation) (index : Nat) : Except ScimError Changes :=
  match operation.path with
  | none =>
    match operation.value with
    | .dict entries => entries.foldlM (manyChanges py index) {}
    | _ => .error ⟨400, Patch.aboutOperation index ": a pathless operation needs an object value",
        some "invalidValue"⟩
  | some path =>
    oneChange py path.path.attributeName
      (if operation.op = .remove then .null else operation.value) index

/-- An operation, as `GroupStore.patch` reads it. -/
def readOperation (operation : Operation) (index : Nat) : GroupOperation :=
  if targetsMembers py operation then patchMembers py uuids operation index
  else readAs (fun changes => .set changes.displayName changes.externalId)
    (attributeChanges py operation index)

/-- The operations of a PATCH. -/
def readOperations (operations : List Operation) : List GroupOperation :=
  operations.zipIdx.map fun operation => readOperation py uuids operation.1 operation.2

end GroupPatch
end Scim
end CampusID
