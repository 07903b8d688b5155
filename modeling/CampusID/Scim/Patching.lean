import CampusID.Scim.Matching
import CampusID.Lib.Effects

/-!
# PATCH

A PATCH body becomes a list of operations, all of them read before any is applied, and the
operations change a copy of the resource one after another.  An operation that is refused leaves
no copy: the result is the working document after the last operation, or an error.

A path names a dictionary in the document and a key in it.  The dictionaries on the way, the
extension of a schema URN and the parent of a sub-attribute, are written back where they were
found; where there is none, one is made, whatever the operation is (`onTarget`).
-/

namespace CampusID
namespace Scim

open Lib
open Audit (Json)

/-- `PATCH_OP_SCHEMA`. -/
def patchOpSchema : String := "urn:ietf:params:scim:api:messages:2.0:PatchOp"

/-- `IMMUTABLE`. -/
def immutableNames : List String := ["id", "schemas", "meta"]

/-- `MAX_OPERATIONS`. -/
def maxOperations : Nat := 100

/-- `PatchError`. -/
structure PatchError where
  detail : String
  scimType : String := "invalidValue"
  deriving DecidableEq, Repr

/-- `Op` of `scim/patch.py`. -/
inductive PatchOp where
  | add | remove | replace
  deriving DecidableEq, Repr

namespace PatchOp

/-- `op.value`. -/
def text : PatchOp → String
  | .add => "add"
  | .remove => "remove"
  | .replace => "replace"

/-- `Op(text)`, where it does not raise. -/
def ofText (text : String) : Option PatchOp :=
  if text = "add" then some .add
  else if text = "remove" then some .remove
  else if text = "replace" then some .replace
  else none

end PatchOp

/-- `Operation`. -/
structure Operation where
  op : PatchOp
  path : Option PatchPath := none
  value : Json := .null

namespace Patch

variable (py : Builtins)

/-! ## Reading the body -/

/-- An error about one operation. -/
def aboutOperation (index : Nat) (text : String) : String :=
  "operation " ++ toString index ++ text

/-- The name, in any case, is one a client may not change. -/
def isImmutable (name : String) : Bool := immutableNames.contains (py.lower name)

/-- The `op` of an entry. -/
def readOp (entry : Object) (index : Nat) : Except PatchError PatchOp :=
  match entry.lookup "op" with
  | some (.str raw) =>
    match PatchOp.ofText (py.lower raw) with
    | some op => .ok op
    | none => .error
        ⟨aboutOperation index (": " ++ Text.pyRepr raw ++ " is not add, remove or replace"),
          "invalidValue"⟩
  | _ => .error ⟨aboutOperation index " has no op", "invalidValue"⟩

/-- The `path` of an entry, if it has one. -/
def readTarget (entry : Object) (index : Nat) : Except PatchError (Option PatchPath) :=
  match entry.lookup "path" with
  | none => .ok none
  | some .null => .ok none
  | some (.str raw) =>
    match parsePatchPath py raw with
    | .error e => .error ⟨aboutOperation index (": " ++ e.text), "invalidPath"⟩
    | .ok path =>
      if isImmutable py path.path.attributeName then
        .error ⟨aboutOperation index (": " ++ path.path.attributeName ++ " cannot be changed"),
          "mutability"⟩
      else .ok (some path)
  | some _ => .error ⟨aboutOperation index " has a non-string path", "invalidPath"⟩

/-- `_parse_one`. -/
def parseOne (entry : Json) (index : Nat) : Except PatchError Operation :=
  match entry with
  | .dict entry => do
    let op ← readOp py entry index
    let path ← readTarget py entry index
    if op = .remove ∧ path.isNone then
      throw ⟨aboutOperation index ": remove requires a path", "noTarget"⟩
    else if op ≠ .remove ∧ (entry.lookup "value").isNone then
      throw ⟨aboutOperation index (": " ++ op.text ++ " requires a value"), "invalidValue"⟩
    else return ⟨op, path, (entry.lookup "value").getD .null⟩
  | _ => .error ⟨aboutOperation index " is not an object", "invalidValue"⟩

/-- `_parse_one` of every entry, from an index on. -/
def parseEach : Nat → List Json → Except PatchError (List Operation)
  | _, [] => .ok []
  | index, entry :: entries => do
    let operation ← parseOne py entry index
    let operations ← parseEach (index + 1) entries
    return operation :: operations

/-- The body declares the schema of a PATCH. -/
def declaresPatch (body : Object) : Bool :=
  match body.lookup "schemas" with
  | some (.list schemas) => schemas.any fun schema => match schema with
    | .str s => s = patchOpSchema
    | _ => false
  | _ => false

/-- `parse_operations`. -/
def parseOperations (document : Json) : Except PatchError (List Operation) :=
  match document with
  | .dict body =>
    if !declaresPatch body then
      .error ⟨"a PATCH body must declare " ++ patchOpSchema, "invalidValue"⟩
    else
      match body.lookup "Operations" with
      | some (.list (entry :: entries)) =>
        if maxOperations < (entry :: entries).length then
          .error ⟨"a PATCH may carry at most " ++ toString maxOperations ++ " operations",
            "invalidValue"⟩
        else parseEach py 0 (entry :: entries)
      | _ => .error ⟨"a PATCH body needs at least one operation", "invalidValue"⟩
  | _ => .error ⟨"a PATCH body must be an object", "invalidValue"⟩

/-! ## Attributes -/

/-- `_key`, as its callers take it: a name that is empty counts as none. -/
def key (container : Object) (name : String) : Option String :=
  truthy (Folded.spelling py.lower container name)

/-- `_get`. -/
def get (container : Object) (name : String) : Json :=
  ((key py container name).bind fun k => container.lookup k).getD .null

/-- `_set`. -/
def set (container : Object) (name : String) (value : Json) : Object :=
  assign container ((key py container name).getD name) value

/-- `_delete`. -/
def delete (container : Object) (name : String) : Object :=
  match key py container name with
  | some k => Folded.erase container k
  | none => container

/-- `member.update(entries)`. -/
def update (member entries : Object) : Object :=
  entries.foldl (fun member entry => assign member entry.1 entry.2) member

/-- The members of an object; of anything else, none. -/
def entriesOf : Json → Object
  | .dict entries => entries
  | _ => []

/-- Change the extension of a schema URN.  One that is no object is replaced by a new one, under
the client's spelling of the URN. -/
def onExtension (resource : Object) (urn : Option String)
    (change : Object → Except PatchError Object) : Except PatchError Object :=
  match truthy urn with
  | none => change resource
  | some urn =>
    match get py resource urn with
    | .dict extension => do return set py resource urn (.dict (← change extension))
    | _ => do return assign resource urn (.dict (← change []))

/-- Change the dictionary a path writes into, `_target`, given the key it writes there. -/
def onTarget (resource : Object) (path : PatchPath)
    (change : Object → String → Except PatchError Object) : Except PatchError Object :=
  onExtension py resource path.path.urn fun container =>
    match truthy path.subAttribute, path.predicate with
    | some sub, none => do
      -- a parent that is no object is replaced by a new one
      let parent := entriesOf (get py container path.path.attributeName)
      return set py container path.path.attributeName (.dict (← change parent sub))
    | _, _ => change container path.path.attributeName

/-! ## One operation -/

/-- What is added to a list. -/
def additions : Json → List Json
  | .list items => items
  | value => [value]

/-- What `_apply_direct` does to the dictionary it writes into. -/
def direct (op : PatchOp) (value : Json) (container : Object) (name : String) : Object :=
  match op with
  | .remove => delete py container name
  | .add =>
    match get py container name with
    | .list existing => set py container name (.list (existing ++ additions value))
    | _ => set py container name value
  | .replace => set py container name value

/-- `_apply_direct`. -/
def applyDirect (resource : Object) (op : PatchOp) (value : Json) (path : PatchPath) :
    Except PatchError Object :=
  onTarget py resource path fun container name => .ok (direct py op value container name)

/-- `_delete` in a member of a list. -/
def deleteIn (sub : String) : Json → Json
  | .dict member => .dict (delete py member sub)
  | member => member

/-- The members at the selected places go, or lose a sub-attribute, the last place first. -/
def removeSelected (sub : Option String) (members : List Json) (selected : List Nat) : List Json :=
  match truthy sub with
  | some sub => selected.reverse.foldl (fun ms place => ms.modify place (deleteIn py sub)) members
  | none => selected.reverse.foldl List.eraseIdx members

/-- A member is given a value: under a sub-attribute, merged into it, or in its place. -/
def writeMember (sub : Option String) (value : Json) : Json → Json
  | .dict member =>
    match truthy sub with
    | some sub => .dict (set py member sub value)
    | none =>
      match value with
      | .dict entries => .dict (update member entries)
      | value => value
  | member => member

/-- The members at the selected places are written. -/
def writeSelected (sub : Option String) (value : Json) (members : List Json)
    (selected : List Nat) : List Json :=
  selected.foldl (fun ms place => ms.modify place (writeMember py sub value)) members

/-- What an operation makes of a list with selected members. -/
def changeSelected (operation : Operation) (path : PatchPath) (members : List Json)
    (selected : List Nat) : List Json :=
  if operation.op = .remove then removeSelected py path.subAttribute members selected
  else writeSelected py path.subAttribute operation.value members selected

/-- What `_apply_filtered` does to the dictionary with the list. -/
def filtered (operation : Operation) (path : PatchPath) (predicate : Node) (container : Object)
    (name : String) : Except PatchError Object :=
  match get py container name with
  | .list members =>
    if (selectMembers py predicate members).isEmpty then .ok container
    else .ok (set py container name
      (.list (changeSelected py operation path members (selectMembers py predicate members))))
  | _ =>
    if operation.op = .remove then .ok container
    else .error ⟨path.path.text ++ " is not a multi-valued attribute", "noTarget"⟩

/-- `_apply_filtered`. -/
def applyFiltered (resource : Object) (operation : Operation) (path : PatchPath)
    (predicate : Node) : Except PatchError Object :=
  onTarget py resource ⟨path.path, none, none⟩ (filtered py operation path predicate)

/-- One member of the value of an operation without a path. -/
def applyEntry (op : PatchOp) (resource : Object) (entry : String × Json) :
    Except PatchError Object :=
  if isImmutable py entry.1 then .error ⟨entry.1 ++ " cannot be changed", "mutability"⟩
  else applyDirect py resource op entry.2 ⟨⟨entry.1, none, none⟩, none, none⟩

/-- `_apply_pathless`. -/
def applyPathless (resource : Object) (operation : Operation) : Except PatchError Object :=
  match operation.value with
  | .dict entries => entries.foldlM (applyEntry py operation.op) resource
  | _ => .error ⟨"an operation without a path needs an object value", "invalidValue"⟩

/-- `_apply_one`. -/
def applyOne (resource : Object) (operation : Operation) : Except PatchError Object :=
  match operation.path with
  | none => applyPathless py resource operation
  | some path =>
    match path.predicate with
    | some predicate => applyFiltered py resource operation path predicate
    | none => applyDirect py resource operation.op operation.value path

/-- What an operation with a path does to the dictionary its URN names. -/
def inContainer (operation : Operation) (path : PatchPath) (container : Object) :
    Except PatchError Object :=
  match path.predicate, truthy path.subAttribute with
  | some predicate, _ => filtered py operation path predicate container path.path.attributeName
  | none, none =>
    .ok (direct py operation.op operation.value container path.path.attributeName)
  | none, some sub =>
    .ok (set py container path.path.attributeName (.dict (direct py operation.op operation.value
      (entriesOf (get py container path.path.attributeName)) sub)))

/-- The loop of `apply_patch`, from an index on. -/
def applyFrom : Nat → Object → List Operation → Except PatchError Object
  | _, working, [] => .ok working
  | index, working, operation :: operations =>
    match applyOne py working operation with
    | .error e => .error ⟨aboutOperation index (": " ++ e.detail), e.scimType⟩
    | .ok working => applyFrom (index + 1) working operations

/-- `apply_patch`. -/
def applyPatch (resource : Object) (operations : List Operation) : Except PatchError Object :=
  applyFrom py 0 resource operations

/-! ## What is written -/

variable {py} {resource result container : Object} {name k : String}

@[simp] theorem truthy_eq_some {value : Option String} {text : String} :
    truthy value = some text ↔ value = some text ∧ text ≠ "" := by
  unfold truthy
  rw [Option.filter_eq_some_iff]
  simp

theorem lower_key (h : key py container name = some k) : py.lower k = py.lower name :=
  Folded.fold_spelling (truthy_eq_some.mp h).1

theorem key_mem (h : key py container name = some k) : k ∈ container.map Prod.fst :=
  Folded.spelling_mem (truthy_eq_some.mp h).1

theorem lower_written : py.lower ((key py container name).getD name) = py.lower name := by
  cases h : key py container name with
  | none => rfl
  | some k => exact lower_key h

theorem key_congr {container' : Object}
    (h : container'.map Prod.fst = container.map Prod.fst) (name : String) :
    key py container' name = key py container name := by
  rw [key, key, Folded.spelling_congr h]

theorem new_of_key_eq_none (hname : name ≠ "") (h : key py container name = none) :
    ∀ entry ∈ container, py.lower entry.1 ≠ py.lower name := by
  refine Folded.spelling_eq_none.mp ?_
  by_contra hsome
  obtain ⟨k, hk⟩ := Option.ne_none_iff_exists'.mp hsome
  have hempty : k = "" := by
    by_contra hne
    rw [key, truthy_eq_some.mpr ⟨hk, hne⟩] at h
    cases h
  refine hname (py.lower_eq_empty name ?_)
  rw [← Folded.fold_spelling hk, hempty, py.lower_ascii "" rfl]
  rfl

theorem get_of_key_eq_none (h : key py container name = none) : get py container name = .null := by
  rw [get, h]
  rfl

theorem mem_of_get {v : Json} (h : get py container name = v) (hv : v ≠ .null) :
    ∃ k, key py container name = some k ∧ container.lookup k = some v := by
  cases hk : key py container name with
  | none => exact absurd ((get_of_key_eq_none hk).symm.trans h).symm hv
  | some k =>
    rw [get, hk, Option.bind_some] at h
    cases hl : container.lookup k with
    | none =>
      rw [hl] at h
      exact absurd h.symm hv
    | some w =>
      rw [hl] at h
      exact ⟨k, rfl, hl.trans (congrArg some h)⟩

theorem key_set (hname : name ≠ "") (value : Json) :
    key py (set py container name value) name = some ((key py container name).getD name) := by
  unfold set
  cases hk : key py container name with
  | some k => rw [Option.getD_some, key_congr (keys_assign_of_mem (key_mem hk) value), hk]
  | none =>
    rw [Option.getD_none, key, truthy_eq_some]
    refine ⟨Folded.spelling_of_mem (List.mem_map_of_mem (assign_mem container name value)), hname⟩

/-- **What was set is read.** -/
theorem get_set (hname : name ≠ "") (value : Json) :
    get py (set py container name value) name = value := by
  rw [get, key_set hname, Option.bind_some, set, lookup_assign, if_pos rfl]
  rfl

theorem set_set (hname : name ≠ "") (value value' : Json) :
    set py (set py container name value) name value' = set py container name value' := by
  rw [set, key_set hname, Option.getD_some, set, assign_assign]
  rfl

theorem set_self {v : Json} (hkeys : (container.map Prod.fst).Nodup)
    (h : get py container name = v) (hv : v ≠ .null) : set py container name v = container := by
  obtain ⟨k, hk, hlookup⟩ := mem_of_get h hv
  rw [set, hk, Option.getD_some, assign_self hkeys (mem_of_lookup hlookup)]

theorem part_set {P : String → Bool} (hname : P (py.lower name) = false) (value : Json) :
    Folded.part py.lower P (set py container name value) = Folded.part py.lower P container :=
  Folded.part_assign (by rw [lower_written, hname]) value

theorem part_delete {P : String → Bool} (hname : P (py.lower name) = false) :
    Folded.part py.lower P (delete py container name) = Folded.part py.lower P container := by
  unfold delete
  split
  · next k hk => exact Folded.part_erase (by rw [lower_key hk, hname])
  · rfl

theorem part_direct {P : String → Bool} (hname : P (py.lower name) = false) (op : PatchOp)
    (value : Json) :
    Folded.part py.lower P (direct py op value container name) =
      Folded.part py.lower P container := by
  unfold direct
  split
  · exact part_delete hname
  · split
    · exact part_set hname _
    · exact part_set hname _
  · exact part_set hname _

theorem part_filtered {P : String → Bool} (hname : P (py.lower name) = false)
    {operation : Operation} {path : PatchPath} {predicate : Node}
    (h : filtered py operation path predicate container name = .ok result) :
    Folded.part py.lower P result = Folded.part py.lower P container := by
  unfold filtered at h
  split at h
  · split at h
    · cases h
      rfl
    · cases h
      exact part_set hname _
  · split at h
    · cases h
      rfl
    · cases h

/-- **An operation with a path** changes the dictionary its URN names. -/
theorem applyOne_of_path {operation : Operation} {path : PatchPath}
    (hpath : operation.path = some path) : applyOne py resource operation =
      onExtension py resource path.path.urn (inContainer py operation path) := by
  unfold applyOne inContainer
  simp only [hpath]
  cases hpredicate : path.predicate with
  | some predicate => rfl
  | none =>
    unfold applyDirect onTarget
    simp only [hpredicate]
    cases truthy path.subAttribute with
    | none => rfl
    | some sub => rfl

/-- **What is changed through a URN** is the object under it, or a new one. -/
theorem onExtension_ok {urn : Option String} {change : Object → Except PatchError Object}
    (h : onExtension py resource urn change = .ok result) :
    (truthy urn = none ∧ change resource = .ok result) ∨
      ∃ u extension written, truthy urn = some u ∧
        change (entriesOf (get py resource u)) = .ok extension ∧
        result = assign resource written (.dict extension) ∧ py.lower written = py.lower u ∧
        ((written = (key py resource u).getD u ∧ ∃ entries, get py resource u = .dict entries) ∨
          written = u ∧ ∀ entries, get py resource u ≠ .dict entries) := by
  unfold onExtension at h
  split at h
  · next hurn => exact .inl ⟨hurn, h⟩
  · next u hurn =>
    right
    split at h
    · next extension hget =>
      obtain ⟨changed, hchange, hresult⟩ := Eff.except_bind_eq_ok.mp h
      cases hresult
      exact ⟨u, changed, _, hurn, by rwa [hget], rfl, lower_written, .inl ⟨rfl, extension, hget⟩⟩
    · next hget =>
      obtain ⟨changed, hchange, hresult⟩ := Eff.except_bind_eq_ok.mp h
      cases hresult
      refine ⟨u, changed, u, hurn, ?_, rfl, rfl, .inr ⟨rfl, hget⟩⟩
      have hnone : entriesOf (get py resource u) = [] := by
        cases hjson : get py resource u with
        | dict entries => exact absurd hjson (hget entries)
        | _ => rfl
      rwa [hnone]

/-! ## Lists of operations -/

theorem parseEach_forall {P : Operation → Prop}
    (hone : ∀ {entry index operation}, parseOne py entry index = .ok operation → P operation)
    {entries : List Json} : ∀ {index : Nat} {operations : List Operation},
      parseEach py index entries = .ok operations → ∀ operation ∈ operations, P operation := by
  induction entries with
  | nil =>
    intro index operations h
    cases h
    simp
  | cons entry entries ih =>
    intro index operations h
    obtain ⟨operation, hentry, h⟩ := Eff.except_bind_eq_ok.mp h
    obtain ⟨rest, hrest, h⟩ := Eff.except_bind_eq_ok.mp h
    cases h
    exact List.forall_mem_cons.mpr ⟨hone hentry, ih hrest⟩

theorem parseOperations_forall {P : Operation → Prop}
    (hone : ∀ {entry index operation}, parseOne py entry index = .ok operation → P operation)
    {body : Json} {operations : List Operation} (h : parseOperations py body = .ok operations) :
    ∀ operation ∈ operations, P operation := by
  unfold parseOperations at h
  split at h
  · split at h
    · cases h
    · split at h
      · split at h
        · cases h
        · exact parseEach_forall hone h
      · cases h
  · cases h

theorem applyFrom_ok {operations : List Operation} : ∀ {index : Nat} {working : Object},
    applyFrom py index working operations = .ok result ↔
      operations.foldlM (applyOne py) working = .ok result := by
  induction operations with
  | nil => exact Iff.rfl
  | cons operation operations ih =>
    intro index working
    rw [applyFrom, List.foldlM_cons]
    cases applyOne py working operation with
    | error e =>
      constructor
      · rintro ⟨⟩
      · rintro ⟨⟩
    | ok working => exact ih

theorem applyPatch_ok {operations : List Operation} :
    applyPatch py resource operations = .ok result ↔
      operations.foldlM (applyOne py) resource = .ok result :=
  applyFrom_ok

end Patch
end Scim
end CampusID
