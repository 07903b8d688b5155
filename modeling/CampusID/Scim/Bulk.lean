import Mathlib.Data.Finset.Option
import CampusID.Scim.Reading

/-!
# Bulk requests

`parse_bulk`: a document becomes a list of operations, in the order they will run in.  A `bulkId`
stands for the resource an operation creates, and may be used before the operation that declares
it; so the operations are sorted, in rounds.  A round takes all the operations whose references
are resolved by the rounds before it, in the order they were sent.

The rounds end after as many as there are operations, since each takes at least one.
-/

namespace CampusID
namespace Scim

open Lib
open Audit (Json)

/-- `BULK_REQUEST`. -/
def bulkRequest : String := "urn:ietf:params:scim:api:messages:2.0:BulkRequest"

/-- `BULK_ID_PREFIX`. -/
def bulkIdPrefix : String := "bulkId:"

/-- `MAX_BULK_OPERATIONS`. -/
def maxBulkOperations : Nat := 100

/-- `METHODS`. -/
inductive Method where
  | post | put | patch | delete
  deriving DecidableEq, Repr

namespace Method

/-- The name of a method. -/
def text : Method → String
  | .post => "POST"
  | .put => "PUT"
  | .patch => "PATCH"
  | .delete => "DELETE"

/-- The method of a name. -/
def ofText (text : String) : Option Method :=
  if text = "POST" then some .post
  else if text = "PUT" then some .put
  else if text = "PATCH" then some .patch
  else if text = "DELETE" then some .delete
  else none

end Method

/-- `RESOURCES`. -/
inductive Endpoint where
  | users | groups
  deriving DecidableEq, Repr

namespace Endpoint

/-- The name of an endpoint. -/
def text : Endpoint → String
  | .users => "Users"
  | .groups => "Groups"

/-- The endpoint of a name. -/
def ofText (text : String) : Option Endpoint :=
  if text = "Users" then some .users
  else if text = "Groups" then some .groups
  else none

end Endpoint

/-- `BulkOperation`. -/
structure BulkOperation where
  method : Method
  resource : Endpoint
  resourceId : Option String := none
  bulkId : Option String := none
  data : Json := .null
  version : Option String := none
  dependsOn : Finset String := ∅

/-- `BulkRequest`. -/
structure BulkRequest where
  operations : List BulkOperation
  failOnErrors : Option Nat := none

namespace Bulk

/-! ## References -/

/-- The `bulkId` a text refers to. -/
def reference (text : String) : Option String :=
  if bulkIdPrefix.toList <+: text.toList then some (Text.dropText bulkIdPrefix text) else none

mutual

/-- `referenced_bulk_ids`. -/
def referencedBulkIds : Json → Finset String
  | .str text => (reference text).toFinset
  | .list items => referencedInItems items
  | .dict entries => referencedInEntries entries
  | _ => ∅

/-- The references in the items of a list. -/
def referencedInItems : List Json → Finset String
  | [] => ∅
  | item :: items => referencedBulkIds item ∪ referencedInItems items

/-- The references in the values of an object. -/
def referencedInEntries : List (String × Json) → Finset String
  | [] => ∅
  | (_, item) :: entries => referencedBulkIds item ∪ referencedInEntries entries

end

variable (py : Readers)

/-- `resolve_references` of a text. -/
def resolveText (resolved : List (String × String)) (text : String) : Except ScimError String :=
  match reference text with
  | none => .ok text
  | some key =>
    match resolved.lookup key with
    | some id => .ok id
    | none =>
      .error ⟨404, "bulkId " ++ py.repr (.str key) ++ " produced no resource", some "invalidValue"⟩

mutual

/-- `resolve_references`. -/
def resolveReferences (resolved : List (String × String)) : Json → Except ScimError Json
  | .str text => do return .str (← resolveText py resolved text)
  | .list items => do return .list (← resolveItems resolved items)
  | .dict entries => do return .dict (← resolveEntries resolved entries)
  | value => .ok value

/-- `resolve_references` of the items of a list. -/
def resolveItems (resolved : List (String × String)) : List Json → Except ScimError (List Json)
  | [] => .ok []
  | item :: items => do
    let first ← resolveReferences resolved item
    let others ← resolveItems resolved items
    return first :: others

/-- `resolve_references` of the values of an object. -/
def resolveEntries (resolved : List (String × String)) :
    List (String × Json) → Except ScimError (List (String × Json))
  | [] => .ok []
  | (key, item) :: entries => do
    let first ← resolveReferences resolved item
    let others ← resolveEntries resolved entries
    return (key, first) :: others

end

/-! ## One entry -/

/-- An error about one operation. -/
def about (index status : Nat) (text scimType : String) : ScimError :=
  ⟨status, "operation " ++ toString index ++ text, some scimType⟩

/-- The `method` of an entry, in any case. -/
def readMethod (entry : Object) (index : Nat) : Except ScimError Method :=
  match entry.lookup "method" with
  | some (.str text) =>
    match Method.ofText (py.upper text) with
    | some method => .ok method
    | none => .error (about index 400 (": " ++ py.repr (.str text) ++ " is not a bulk method")
        "invalidValue")
  | value => .error (about index 400
      (": " ++ py.repr (value.getD .null) ++ " is not a bulk method") "invalidValue")

/-- `_parse_path`. -/
def parsePath (path : Option Json) (index : Nat) : Except ScimError (Endpoint × Option String) :=
  match path with
  | some (.str text) =>
    if "/".toList <+: text.toList then
      match (Text.split '/' text).filter (· ≠ "") with
      | [name] => addressed text (Endpoint.ofText name) none
      | [name, resourceId] => addressed text (Endpoint.ofText name) (some resourceId)
      | _ => addressed text none none
    else .error (about index 400 (": " ++ py.repr (.str text) ++ " is not a bulk path")
      "invalidPath")
  | value => .error (about index 400
      (": " ++ py.repr (value.getD .null) ++ " is not a bulk path") "invalidPath")
where
  /-- The endpoint a path names, with the identifier after it. -/
  addressed (text : String) (endpoint : Option Endpoint) (resourceId : Option String) :
      Except ScimError (Endpoint × Option String) :=
    match endpoint with
    | some endpoint => .ok (endpoint, resourceId)
    | none => .error (about index 400
        (": " ++ py.repr (.str text) ++ " does not address /Users or /Groups") "invalidPath")

/-- An entry that is a text where it is given. -/
def readText (entry : Object) (name : String) (index : Nat) : Except ScimError (Option String) :=
  match entry.lookup name with
  | none => .ok none
  | some .null => .ok none
  | some (.str text) => .ok (some text)
  | some _ => .error (about index 400 (": " ++ name ++ " must be a string") "invalidValue")

/-- A `POST` has a `bulkId` and addresses a collection; another method addresses a resource. -/
def checkAddress (method : Method) (resourceId bulkId : Option String) (index : Nat) :
    Except ScimError Unit :=
  if method = .post ∧ (truthy bulkId).isNone then
    .error (about index 400 ": a POST needs a bulkId" "invalidValue")
  else if method ≠ .post ∧ resourceId.isNone then
    .error (about index 400 (": " ++ method.text ++ " needs a resource id in its path")
      "invalidPath")
  else if method = .post ∧ resourceId.isSome then
    .error (about index 400 ": a POST addresses a collection" "invalidPath")
  else .ok ()

/-- The `data` of an entry: an object, except of a `DELETE`. -/
def readData (entry : Object) (method : Method) (index : Nat) : Except ScimError Json :=
  match entry.lookup "data" with
  | some (.dict data) => .ok (.dict data)
  | value =>
    if method = .delete then .ok (value.getD .null)
    else .error (about index 400 (": " ++ method.text ++ " needs data") "invalidValue")

/-- Every `bulkId` an operation refers to, in its data and in its path. -/
def references (data : Json) (resourceId : Option String) : Finset String :=
  referencedBulkIds data ∪ (resourceId.bind reference).toFinset

/-- No operation refers to itself. -/
def checkReferences (bulkId : Option String) (references : Finset String) (index : Nat) :
    Except ScimError Unit :=
  match bulkId with
  | none => .ok ()
  | some id =>
    if id ∈ references then
      .error (about index 409 (": bulkId " ++ py.repr (.str id) ++ " refers to itself")
        "invalidValue")
    else .ok ()

/-- `_parse_one`. -/
def parseOne (entry : Json) (index : Nat) : Except ScimError BulkOperation :=
  match entry with
  | .dict entry => do
    let method ← readMethod py entry index
    let (resource, resourceId) ← parsePath py (entry.lookup "path") index
    let bulkId ← readText entry "bulkId" index
    checkAddress method resourceId bulkId index
    let version ← readText entry "version" index
    let data ← readData entry method index
    checkReferences py bulkId (references data resourceId) index
    return { method, resource, resourceId, bulkId, data, version
             dependsOn := references data resourceId }
  | _ => .error (about index 400 " is not an object" "invalidSyntax")

/-! ## All of them -/

/-- `_assert_bulk_ids_unique`, from an index on. -/
def assertUnique : Nat → Finset String → List BulkOperation → Except ScimError Unit
  | _, _, [] => .ok ()
  | index, seen, operation :: operations =>
    match operation.bulkId with
    | none => assertUnique (index + 1) seen operations
    | some id =>
      if id ∈ seen then
        .error (about index 409 (": bulkId " ++ py.repr (.str id) ++ " is used twice")
          "uniqueness")
      else assertUnique (index + 1) (insert id seen) operations

/-- The `bulkId`s some operations declare. -/
def produced (operations : List BulkOperation) : Finset String :=
  (operations.filterMap fun operation => truthy operation.bulkId).toFinset

/-- The `bulkId`s some operations refer to. -/
def referenced (operations : List BulkOperation) : Finset String :=
  operations.foldr (fun operation names => operation.dependsOn ∪ names) ∅

/-- All an operation refers to has been produced. -/
def isReady (done : Finset String) (operation : BulkOperation) : Bool :=
  operation.dependsOn ⊆ done

/-- A list of texts as a message has it. -/
def texts (names : List String) : String := py.repr (.list (names.map .str))

/-- The `409` for operations that all wait for one another. -/
def cycle (remaining : List BulkOperation) : ScimError :=
  ⟨409, "bulkId references form a cycle: " ++
    texts py ((remaining.map fun operation => operation.bulkId.getD "None").insertionSort (· ≤ ·)),
    some "invalidValue"⟩

/-- The rounds of `_ordered`: as many as the first argument at most. -/
def rounds : Nat → Finset String → List BulkOperation → Except ScimError (List BulkOperation)
  | 0, _, _ => .ok []
  | bound + 1, done, remaining =>
    if remaining.isEmpty then .ok []
    else if (remaining.filter (isReady done)).isEmpty then .error (cycle py remaining)
    else do
      let others ← rounds bound (done ∪ produced (remaining.filter (isReady done)))
        (remaining.filter (!isReady done ·))
      return remaining.filter (isReady done) ++ others

/-- `_ordered`. -/
def ordered (operations : List BulkOperation) : Except ScimError (List BulkOperation) :=
  if (referenced operations \ produced operations).Nonempty then
    .error ⟨400, "no operation declares bulkId " ++
      texts py (Text.sorted (referenced operations \ produced operations)), some "invalidValue"⟩
  else rounds py operations.length ∅ operations

/-- `_fail_on_errors`. -/
def readFailOnErrors (value : Option Json) : Except ScimError (Option Nat) :=
  match value with
  | none => .ok none
  | some .null => .ok none
  | some (.num (.int limit)) =>
    if limit < 1 then
      .error ⟨400, "failOnErrors must be a positive integer", some "invalidValue"⟩
    else .ok (some limit.toNat)
  | some _ => .error ⟨400, "failOnErrors must be a positive integer", some "invalidValue"⟩

/-- The body declares the schema of a bulk request. -/
def declaresBulk (body : Object) : Bool :=
  match body.lookup "schemas" with
  | some (.list schemas) => schemas.any fun schema => match schema with
    | .str s => s = bulkRequest
    | _ => false
  | _ => false

/-- `parse_bulk`. -/
def parseBulk (document : Json) : Except ScimError BulkRequest :=
  match document with
  | .dict body =>
    if !declaresBulk body then
      .error ⟨400, "a bulk request must declare " ++ bulkRequest, some "invalidSyntax"⟩
    else
      match body.lookup "Operations" with
      | some (.list (entry :: entries)) =>
        if maxBulkOperations < (entry :: entries).length then
          .error ⟨413, "a bulk request may carry at most " ++ toString maxBulkOperations ++
            " operations", some "tooMany"⟩
        else do
          let failOnErrors ← readFailOnErrors (body.lookup "failOnErrors")
          let operations ← (entry :: entries).zipIdx.mapM fun entry => parseOne py entry.1 entry.2
          assertUnique py 0 ∅ operations
          return ⟨← ordered py operations, failOnErrors⟩
      | _ => .error ⟨400, "a bulk request needs at least one operation", some "invalidValue"⟩
  | _ => .error ⟨400, "a bulk request must be an object", some "invalidSyntax"⟩

/-! ## What a request that was read is like -/

variable {py}

/-- **The rounds reorder what they are given.** -/
theorem rounds_perm {bound : Nat} {done : Finset String} {remaining result : List BulkOperation}
    (hbound : remaining.length ≤ bound) (h : rounds py bound done remaining = .ok result) :
    result.Perm remaining := by
  induction bound generalizing done remaining result with
  | zero =>
    cases h
    rw [List.length_eq_zero_iff.mp (Nat.le_zero.mp hbound)]
  | succ bound ih =>
    unfold rounds at h
    split at h
    · rename_i hempty
      cases h
      rw [List.isEmpty_iff.mp hempty]
    split at h
    · cases h
    · rename_i hready
      obtain ⟨others, hothers, hresult⟩ := Eff.except_bind_eq_ok.mp h
      cases hresult
      have hsplit := remaining.filter_append_perm (isReady done)
      -- a round takes at least one operation, so one fewer round is enough for the others
      have hpos : 0 < (remaining.filter (isReady done)).length :=
        List.length_pos_iff.mpr fun hnil => hready (List.isEmpty_iff.mpr hnil)
      have hlength := hsplit.length_eq
      rw [List.length_append] at hlength
      have hrest := ih (by omega) hothers
      exact (List.Perm.append_left _ hrest).trans hsplit

theorem ordered_perm {operations result : List BulkOperation}
    (h : ordered py operations = .ok result) : result.Perm operations := by
  unfold ordered at h
  split at h
  · cases h
  · exact rounds_perm le_rfl h

/-- An operation of another method than `POST` addresses a resource. -/
def Addressed (operation : BulkOperation) : Prop :=
  operation.method ≠ .post → (truthy operation.resourceId).isSome

theorem parsePath_ne_empty {path : Option Json} {index : Nat} {resource : Endpoint} {id : String}
    (h : parsePath py path index = .ok (resource, some id)) : id ≠ "" := by
  have haddressed : ∀ {text : String} {endpoint : Option Endpoint} {resourceId : Option String},
      parsePath.addressed py index text endpoint resourceId = .ok (resource, some id) →
        resourceId = some id := by
    intro text endpoint resourceId hok
    unfold parsePath.addressed at hok
    split at hok
    · cases hok
      rfl
    · cases hok
  unfold parsePath at h
  split at h
  · split at h
    · split at h
      · exact absurd (haddressed h) (by simp)
      · rename_i text _ _ name resourceId hparts
        cases haddressed h
        have hmem : id ∈ (Text.split '/' text).filter (· ≠ "") := by
          rw [hparts]
          exact List.mem_cons_of_mem _ List.mem_cons_self
        exact of_decide_eq_true (List.mem_filter.mp hmem).2
      · exact absurd (haddressed h) (by simp)
    · cases h
  · cases h

theorem checkAddress_addressed {method : Method} {resourceId bulkId : Option String} {index : Nat}
    {u : Unit} (h : checkAddress method resourceId bulkId index = .ok u) :
    method ≠ .post → resourceId.isSome := by
  intro hmethod
  unfold checkAddress at h
  split_ifs at h with hpost haddress
  exact Option.isSome_iff_ne_none.mpr fun hnone =>
    haddress ⟨hmethod, Option.isNone_iff_eq_none.mpr hnone⟩

theorem parseOne_addressed {entry : Json} {index : Nat} {operation : BulkOperation}
    (h : parseOne py entry index = .ok operation) : Addressed operation := by
  unfold parseOne at h
  split at h
  · obtain ⟨method, -, h⟩ := Eff.except_bind_eq_ok.mp h
    obtain ⟨⟨resource, resourceId⟩, hpath, h⟩ := Eff.except_bind_eq_ok.mp h
    dsimp only at h
    obtain ⟨bulkId, -, h⟩ := Eff.except_bind_eq_ok.mp h
    obtain ⟨u, haddress, h⟩ := Eff.except_bind_eq_ok.mp h
    obtain ⟨version, -, h⟩ := Eff.except_bind_eq_ok.mp h
    obtain ⟨data, -, h⟩ := Eff.except_bind_eq_ok.mp h
    obtain ⟨u', -, h⟩ := Eff.except_bind_eq_ok.mp h
    cases h
    intro hmethod
    obtain ⟨id, rfl⟩ := Option.isSome_iff_exists.mp (checkAddress_addressed haddress hmethod)
    exact Option.isSome_iff_exists.mpr
      ⟨id, Patch.truthy_eq_some.mpr ⟨rfl, parsePath_ne_empty hpath⟩⟩
  · cases h

theorem one_le_of_readFailOnErrors {value : Option Json} {limit : Nat}
    (h : readFailOnErrors value = .ok (some limit)) : 1 ≤ limit := by
  unfold readFailOnErrors at h
  split at h
  · cases h
  · cases h
  · split at h
    · cases h
    · cases h
      omega
  · cases h

theorem parts_of_parseBulk {document : Json} {request : BulkRequest}
    (h : parseBulk py document = .ok request) :
    ∃ (value : Option Json) (entries : List Json) (operations : List BulkOperation),
      readFailOnErrors value = .ok request.failOnErrors ∧
      entries.zipIdx.mapM (fun entry => parseOne py entry.1 entry.2) = .ok operations ∧
      assertUnique py 0 ∅ operations = .ok () ∧
      ordered py operations = .ok request.operations := by
  unfold parseBulk at h
  split at h
  · split at h
    · cases h
    split at h
    · rename_i entry entries _
      split at h
      · cases h
      obtain ⟨failOnErrors, hlimit, h⟩ := Eff.except_bind_eq_ok.mp h
      obtain ⟨operations, hentries, h⟩ := Eff.except_bind_eq_ok.mp h
      obtain ⟨⟨⟩, hunique, h⟩ := Eff.except_bind_eq_ok.mp h
      obtain ⟨sorted, hsorted, h⟩ := Eff.except_bind_eq_ok.mp h
      cases h
      exact ⟨_, entry :: entries, operations, hlimit, hentries, hunique, hsorted⟩
    · cases h
  · cases h

theorem parseBulk_addressed {document : Json} {request : BulkRequest}
    (h : parseBulk py document = .ok request) :
    ∀ operation ∈ request.operations, Addressed operation := by
  intro operation hmem
  obtain ⟨-, entries, operations, -, hentries, -, hsorted⟩ := parts_of_parseBulk h
  obtain ⟨entry, -, hentry⟩ :=
    Eff.exists_of_mapM_eq_ok hentries ((ordered_perm hsorted).mem_iff.mp hmem)
  exact parseOne_addressed hentry

theorem parseBulk_limit {document : Json} {request : BulkRequest} {limit : Nat}
    (h : parseBulk py document = .ok request) (hlimit : request.failOnErrors = some limit) :
    1 ≤ limit := by
  obtain ⟨value, -, -, hvalue, -⟩ := parts_of_parseBulk h
  rw [hlimit] at hvalue
  exact one_le_of_readFailOnErrors hvalue

end Bulk
end Scim
end CampusID
