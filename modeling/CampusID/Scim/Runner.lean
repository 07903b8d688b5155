import CampusID.Scim.Bulk

/-!
# Running a bulk request

`BulkRunner.run` takes the operations one by one.  An operation that is refused with a
`ScimError` becomes an entry of the answer like one that succeeds; any other exception leaves the
loop, and the entries of what has been done before are lost with it.

There are two such exceptions.  `apply_patch` raises a `PatchError`, which is translated where a
PATCH body is parsed but not where it is applied to a user; and `from_scim` raises an
`OverflowError` on an instant off the calendar.  Whether one comes up depends on the operation,
on the identifiers produced before it and, for a PATCH, on what the store has for the user at that
point (`Answerable`).  An answer is complete exactly when all the operations that are reached
are answerable (`fullAnswer_iff`).
-/

namespace CampusID
namespace Scim

open Lib
open Audit (Json)

/-- `ERROR_SCHEMA`. -/
def errorSchema : String := "urn:ietf:params:scim:api:messages:2.0:Error"

/-- `ScimError.to_dict`. -/
def errorBody (e : ScimError) : Json :=
  .dict ([("schemas", .list [.str errorSchema]), ("status", .str (toString e.status))] ++
    attr "scimType" ((truthy e.scimType).map .str) ++ [("detail", .str e.detail)])

namespace Bulk

/-- `BULK_RESPONSE`. -/
def bulkResponse : String := "urn:ietf:params:scim:api:messages:2.0:BulkResponse"

/-- What comes out of an operation that does not return. -/
inductive Raised where
  | scim (e : ScimError)
  | patch (e : PatchError)
  | overflow
  | assertion
  deriving DecidableEq

/-- What a store hands back: a document with the identifier and the location that every projection
puts into it. -/
structure Resource where
  document : Object
  id : String
  location : String
  document_id : document.lookup "id" = some (.str id)
  document_location : ∃ entries, document.lookup "meta" = some (.dict entries) ∧
    entries.lookup "location" = some (.str location)

/-- `UserOperations` and `GroupOperations`: what the runner asks of the stores.  Each either
succeeds or raises a `ScimError`, and may change the state of the stores in any way. -/
structure Stores (σ : Type) where
  createUser : ParsedUser → Json → Eff σ ScimError (Resource × Bool)
  getUser : String → Eff σ ScimError Object
  replaceUser : String → ParsedUser → Json → Option String → Eff σ ScimError Resource
  applyPatched : String → ParsedUser → Json → Option String → Eff σ ScimError Resource
  softDelete : String → Option String → Eff σ ScimError Unit
  createGroup : Json → Eff σ ScimError (Resource × Bool)
  replaceGroup : String → Json → Option String → Eff σ ScimError Resource
  patchGroup : String → List Operation → Option String → Eff σ ScimError Resource
  deleteGroup : String → Option String → Eff σ ScimError Unit

/-- One entry of the answer. -/
structure Entry where
  method : String
  status : String
  bulkId : Option String
  location : Option String := none
  response : Option Json := none

/-- The answer. -/
structure BulkResponse where
  schemas : List String
  operations : List Entry

/-- How far a run has come: the identifier of each `bulkId`, and the number of failures. -/
structure Progress where
  resolved : List (String × String) := []
  errors : Nat := 0

variable {σ : Type} (py : Readers) (stores : Stores σ) (issuer : String)

/-! ## One operation -/

/-- What `from_scim` raises, in the run of an operation. -/
def raisedBy : ReadError → Raised
  | .scim e => .scim e
  | .overflow => .overflow

/-- `from_scim`, in the run of an operation. -/
def readUser (document : Json) : Eff σ Raised ParsedUser :=
  Eff.check ((fromScim py document).mapError raisedBy)

/-- `_patch_operations`. -/
def patchOperations (data : Json) : Except ScimError (List Operation) :=
  (Patch.parseOperations py.toBuiltins data).mapError fun e => ⟨400, e.detail, some e.scimType⟩

/-- `_user`. -/
def user (operation : BulkOperation) (resourceId : Option String) (data : Json) :
    Eff σ Raised (Option Resource × Nat) :=
  match operation.method, resourceId with
  | .post, _ => do
    let parsed ← readUser py data
    let made ← Eff.relabel .scim (stores.createUser parsed data)
    return (some made.1, if made.2 then 201 else 200)
  | _, none => Eff.raise .assertion
  | .put, some id => do
    let parsed ← readUser py data
    let resource ← Eff.relabel .scim (stores.replaceUser id parsed data operation.version)
    return (some resource, 200)
  | .patch, some id => do
    let current ← Eff.relabel .scim (stores.getUser id)
    let operations ← Eff.check ((patchOperations py data).mapError .scim)
    -- what `apply_patch` raises is not translated
    let patched ← Eff.check
      ((Patch.applyPatch py.toBuiltins current operations).mapError .patch)
    let parsed ← readUser py (.dict patched)
    let resource ← Eff.relabel .scim
      (stores.applyPatched id parsed (.dict patched) operation.version)
    return (some resource, 200)
  | .delete, some id => do
    Eff.relabel .scim (stores.softDelete id operation.version)
    return (none, 204)

/-- `_group`. -/
def group (operation : BulkOperation) (resourceId : Option String) (data : Json) :
    Eff σ Raised (Option Resource × Nat) :=
  match operation.method, resourceId with
  | .post, _ => do
    let made ← Eff.relabel .scim (stores.createGroup data)
    return (some made.1, if made.2 then 201 else 200)
  | _, none => Eff.raise .assertion
  | .put, some id => do
    let resource ← Eff.relabel .scim (stores.replaceGroup id data operation.version)
    return (some resource, 200)
  | .patch, some id => do
    let operations ← Eff.check ((patchOperations py data).mapError .scim)
    let resource ← Eff.relabel .scim (stores.patchGroup id operations operation.version)
    return (some resource, 200)
  | .delete, some id => do
    Eff.relabel .scim (stores.deleteGroup id operation.version)
    return (none, 204)

/-- `_user` or `_group`. -/
def dispatch (operation : BulkOperation) (resourceId : Option String) (data : Json) :
    Eff σ Raised (Option Resource × Nat) :=
  match operation.resource with
  | .users => user py stores operation resourceId data
  | .groups => group py stores operation resourceId data

/-- The identifier in the path, resolved. -/
def resolveId (resolved : List (String × String)) (resourceId : Option String) :
    Except ScimError (Option String) :=
  match truthy resourceId with
  | none => .ok none
  | some id => do return some (← resolveText py resolved id)

/-- `_entry`. -/
def entryOf (operation : BulkOperation) (status : Nat) (location : Option String)
    (response : Option Json) : Entry where
  method := operation.method.text
  status := toString status
  bulkId := truthy operation.bulkId
  location := truthy location
  response := response

/-- Where the resource of an operation is. -/
def locationOf (operation : BulkOperation) (resourceId : Option String)
    (resource : Option Resource) : Option String :=
  (resource.map Resource.location).or (resourceId.map fun id =>
    issuer ++ "/scim/v2/" ++ operation.resource.text ++ "/" ++ id)

/-- The identifiers after an operation that handed back a resource. -/
def recorded (operation : BulkOperation) (resource : Option Resource)
    (resolved : List (String × String)) : List (String × String) :=
  match truthy operation.bulkId, resource with
  | some bulkId, some resource => assign resolved bulkId resource.id
  | _, _ => resolved

/-- `_one`. -/
def one (operation : BulkOperation) (resolved : List (String × String)) :
    Eff σ Raised (Entry × List (String × String)) := do
  let data ← Eff.check ((resolveReferences py resolved operation.data).mapError .scim)
  let resourceId ← Eff.check ((resolveId py resolved operation.resourceId).mapError .scim)
  let done ← dispatch py stores operation resourceId data
  return (entryOf operation done.2 (locationOf issuer operation resourceId done.1) none,
    recorded operation done.1 resolved)

/-! ## All of them -/

/-- The body of the loop: `_one`, and an entry for the `ScimError` it raises. -/
def answer (operation : BulkOperation) (progress : Progress) :
    Eff σ Raised (Entry × Progress) := do
  match ← Eff.attempt (one py stores issuer operation progress.resolved) with
  | .ok done => return (done.1, { progress with resolved := done.2 })
  | .error (.scim e) =>
    return (entryOf operation e.status none (some (errorBody e)),
      { progress with errors := progress.errors + 1 })
  | .error raised => Eff.raise raised

/-- So many failures end the run. -/
def stops (failOnErrors : Option Nat) (errors : Nat) : Bool := failOnErrors.any (· ≤ errors)

/-- The loop of `run`. -/
def runFrom (failOnErrors : Option Nat) : List BulkOperation → Progress → Eff σ Raised (List Entry)
  | [], _ => return []
  | operation :: operations, progress => do
    let done ← answer py stores issuer operation progress
    if stops failOnErrors done.2.errors then return [done.1]
    else return done.1 :: (← runFrom failOnErrors operations done.2)

/-- `run`. -/
def run (request : BulkRequest) : Eff σ Raised BulkResponse := do
  let results ← runFrom py stores issuer request.failOnErrors request.operations {}
  return ⟨[bulkResponse], results⟩

/-! ## What does not come out of the loop -/

/-- A `ScimError`, which the loop catches. -/
def IsScim : Raised → Prop
  | .scim _ => True
  | _ => False

/-- The document has no instant off the calendar, or is refused before that is found. -/
def Readable (document : Json) : Prop := fromScim py document ≠ .error .overflow

/-- The operations of a PATCH can be applied to what the store has for the user, and the result
can be read. -/
def Applicable (id : String) (data : Json) (s : σ) : Prop :=
  ∀ current s' operations, (stores.getUser id).run s = (.ok current, s') →
    Patch.parseOperations py.toBuiltins data = .ok operations →
      ∃ patched, Patch.applyPatch py.toBuiltins current operations = .ok patched ∧
        Readable py (.dict patched)

/-- The operation, once its references are resolved, raises nothing but a `ScimError`. -/
def Answerable (operation : BulkOperation) (resolved : List (String × String)) (s : σ) : Prop :=
  operation.resource = .users → ∀ data resourceId,
    resolveReferences py resolved operation.data = .ok data →
      resolveId py resolved operation.resourceId = .ok resourceId →
        (operation.method = .post ∨ operation.method = .put → Readable py data) ∧
          (operation.method = .patch → ∀ id, resourceId = some id →
            Applicable py stores id data s)

/-- **Every operation that is reached is answerable** in the state it is reached in. -/
def Reaches (failOnErrors : Option Nat) : List BulkOperation → Progress → σ → Prop
  | [], _, _ => True
  | operation :: operations, progress, s =>
    Answerable py stores operation progress.resolved s ∧
      ∀ entry progress' s', (answer py stores issuer operation progress).run s =
          (.ok (entry, progress'), s') → stops failOnErrors progress'.errors = false →
        Reaches failOnErrors operations progress' s'

/-- The entry answers the operation. -/
def Answers (operation : BulkOperation) (entry : Entry) : Prop :=
  entry.method = operation.method.text ∧ entry.bulkId = truthy operation.bulkId

/-- The number of failed entries. -/
def failures (entries : List Entry) : Nat := (entries.filter (·.response.isSome)).length

/-- **A full answer**: an entry for each operation, up to where the failures reach the limit. -/
def FullAnswer (request : BulkRequest) (outcome : Except Raised BulkResponse) : Prop :=
  ∃ response done rest, outcome = .ok response ∧ request.operations = done ++ rest ∧
    List.Forall₂ Answers done response.operations ∧
      (rest = [] ∨ request.failOnErrors = some (failures response.operations))

variable {py stores issuer}

theorem raisesOnly_scim {α : Type} (x : Eff σ ScimError α) (s : σ) :
    Eff.RaisesOnly IsScim (Eff.relabel .scim x) s :=
  Eff.RaisesOnly.relabel.mpr fun _ _ => trivial

theorem isScim_of_mapError {α : Type} {x : Except ScimError α} {e : Raised}
    (h : x.mapError Raised.scim = .error e) : IsScim e := by
  cases x with
  | error _ =>
    cases h
    trivial
  | ok _ => cases h

theorem mapError_eq_ok {ε δ α : Type} {f : ε → δ} {x : Except ε α} {a : α} :
    x.mapError f = .ok a ↔ x = .ok a := by
  cases x <;> simp [Except.mapError]

theorem raisesOnly_readUser {document : Json} {s : σ} :
    Eff.RaisesOnly IsScim (readUser py document) s ↔ Readable py document := by
  unfold readUser Readable
  rw [Eff.RaisesOnly.check]
  constructor
  · intro h hoverflow
    exact h .overflow (by rw [hoverflow]; rfl)
  · intro h e he
    rcases hread : fromScim py document with (e' | _) | parsed
    · rw [hread] at he
      cases he
      trivial
    · exact absurd hread h
    · rw [hread] at he
      cases he

theorem raisesOnly_readUser_bind {α : Type} {document : Json} {s : σ}
    {f : ParsedUser → Eff σ Raised α} (hf : ∀ parsed s, Eff.RaisesOnly IsScim (f parsed) s) :
    Eff.RaisesOnly IsScim (readUser py document >>= f) s ↔ Readable py document := by
  rw [Eff.RaisesOnly.bind, raisesOnly_readUser]
  exact and_iff_left fun parsed s' _ => hf parsed s'

theorem raisesOnly_ask {α β : Type} (x : Eff σ ScimError α) (f : α → β) (s : σ) :
    Eff.RaisesOnly IsScim (Eff.relabel .scim x >>= fun a => pure (f a)) s :=
  Eff.RaisesOnly.bind.mpr ⟨raisesOnly_scim x s, fun _ _ _ => Eff.RaisesOnly.pure _⟩

theorem patchOperations_eq_ok {data : Json} {operations : List Operation} :
    patchOperations py data = .ok operations ↔
      Patch.parseOperations py.toBuiltins data = .ok operations :=
  mapError_eq_ok

/-- **When a PATCH of a user raises nothing else.** -/
theorem raisesOnly_patchUser {id : String} {data : Json} {s : σ} {operation : BulkOperation}
    (hmethod : operation.method = .patch) :
    Eff.RaisesOnly IsScim (user py stores operation (some id) data) s ↔
      Applicable py stores id data s := by
  unfold user
  rw [hmethod]
  dsimp only
  rw [Eff.RaisesOnly.bind, and_iff_right (raisesOnly_scim _ s)]
  constructor
  · intro h current s' operations hget hparse
    have hpatch := h current s' (by rw [Eff.run_relabel, hget]; rfl)
    rw [Eff.RaisesOnly.check_bind] at hpatch
    have happly := hpatch.2 operations (mapError_eq_ok.mpr (patchOperations_eq_ok.mpr hparse))
    rw [Eff.RaisesOnly.check_bind] at happly
    rcases hpatched : Patch.applyPatch py.toBuiltins current operations with e | patched
    · exact (happly.1 (.patch e) (by rw [hpatched]; rfl)).elim
    · refine ⟨patched, rfl, ?_⟩
      have hread := happly.2 patched (mapError_eq_ok.mpr hpatched)
      exact (raisesOnly_readUser_bind fun parsed s => raisesOnly_ask _ _ s).mp hread
  · intro h current s' hget
    have hget : (stores.getUser id).run s = (.ok current, s') := by
      rw [Eff.run_relabel, Prod.mk.injEq] at hget
      exact Prod.ext (mapError_eq_ok.mp hget.1) hget.2
    rw [Eff.RaisesOnly.check_bind]
    refine ⟨fun e => isScim_of_mapError, fun operations hparse => ?_⟩
    obtain ⟨patched, hpatched, hread⟩ := h current s' operations hget
      (patchOperations_eq_ok.mp (mapError_eq_ok.mp hparse))
    rw [Eff.RaisesOnly.check_bind, hpatched]
    refine ⟨fun e he => (by cases he), fun patched' heq => ?_⟩
    cases heq
    exact (raisesOnly_readUser_bind fun parsed s => raisesOnly_ask _ _ s).mpr hread

theorem raisesOnly_group {operation : BulkOperation} {resourceId : Option String} {data : Json}
    {s : σ} (haddressed : operation.method ≠ .post → resourceId.isSome) :
    Eff.RaisesOnly IsScim (group py stores operation resourceId data) s := by
  unfold group
  split
  · exact raisesOnly_ask _ _ s
  · rename_i hpost
    exact absurd (haddressed fun h => hpost h) (by simp)
  · exact raisesOnly_ask _ _ s
  · exact Eff.RaisesOnly.check_bind.mpr
      ⟨fun e => isScim_of_mapError, fun _ _ => raisesOnly_ask _ _ s⟩
  · exact raisesOnly_ask _ _ s

/-- **When an operation on a user raises nothing else.** -/
theorem raisesOnly_user {operation : BulkOperation} {resourceId : Option String} {data : Json}
    {s : σ} (haddressed : operation.method ≠ .post → resourceId.isSome) :
    Eff.RaisesOnly IsScim (user py stores operation resourceId data) s ↔
      (operation.method = .post ∨ operation.method = .put → Readable py data) ∧
        (operation.method = .patch → ∀ id, resourceId = some id →
          Applicable py stores id data s) := by
  cases hmethod : operation.method with
  | post =>
    unfold user
    rw [hmethod]
    dsimp only
    rw [raisesOnly_readUser_bind fun parsed s => raisesOnly_ask _ _ s]
    simp
  | put =>
    obtain ⟨id, rfl⟩ := Option.isSome_iff_exists.mp (haddressed (by rw [hmethod]; decide))
    unfold user
    rw [hmethod]
    dsimp only
    rw [raisesOnly_readUser_bind fun parsed s => raisesOnly_ask _ _ s]
    simp
  | patch =>
    obtain ⟨id, rfl⟩ := Option.isSome_iff_exists.mp (haddressed (by rw [hmethod]; decide))
    rw [raisesOnly_patchUser hmethod]
    simp
  | delete =>
    obtain ⟨id, rfl⟩ := Option.isSome_iff_exists.mp (haddressed (by rw [hmethod]; decide))
    unfold user
    rw [hmethod]
    dsimp only
    simpa using raisesOnly_ask _ _ s

theorem resolveId_isSome {resolved : List (String × String)} {operation : BulkOperation}
    {resourceId : Option String} (haddressed : Addressed operation)
    (h : resolveId py resolved operation.resourceId = .ok resourceId) :
    operation.method ≠ .post → resourceId.isSome := by
  intro hmethod
  obtain ⟨id, hid⟩ := Option.isSome_iff_exists.mp (haddressed hmethod)
  unfold resolveId at h
  rw [hid] at h
  obtain ⟨target, -, hreturn⟩ := Eff.except_bind_eq_ok.mp h
  cases hreturn
  rfl

/-- **When an operation raises nothing else**: exactly when it is answerable. -/
theorem raisesOnly_one {operation : BulkOperation} {resolved : List (String × String)} {s : σ}
    (haddressed : Addressed operation) :
    Eff.RaisesOnly IsScim (one py stores issuer operation resolved) s ↔
      Answerable py stores operation resolved s := by
  unfold one
  rw [Eff.RaisesOnly.check_bind, and_iff_right fun e => isScim_of_mapError]
  simp only [Eff.RaisesOnly.check_bind, mapError_eq_ok]
  unfold Answerable
  cases hresource : operation.resource with
  | users =>
    simp only [dispatch, hresource, true_imp_iff]
    refine forall_congr' fun data => ⟨fun h resourceId hdata hid => ?_, fun h hdata => ?_⟩
    · have huser := (h hdata).2 resourceId hid
      exact (raisesOnly_user (resolveId_isSome haddressed hid)).mp
        (Eff.RaisesOnly.bind.mp huser).1
    · refine ⟨fun e => isScim_of_mapError, fun resourceId hid => ?_⟩
      refine Eff.RaisesOnly.bind.mpr ⟨?_, fun _ _ _ => Eff.RaisesOnly.pure _⟩
      exact (raisesOnly_user (resolveId_isSome haddressed hid)).mpr (h resourceId hdata hid)
  | groups =>
    simp only [dispatch, hresource, reduceCtorEq, false_imp_iff, iff_true]
    refine fun data hdata => ⟨fun e => isScim_of_mapError, fun resourceId hid => ?_⟩
    refine Eff.RaisesOnly.bind.mpr ⟨?_, fun _ _ _ => Eff.RaisesOnly.pure _⟩
    exact raisesOnly_group (resolveId_isSome haddressed hid)

/-! ## Runs -/

/-- An entry was added: it answers the operation, and the failures are counted. -/
structure Recorded (operation : BulkOperation) (progress : Progress) (entry : Entry)
    (progress' : Progress) : Prop where
  answers : Answers operation entry
  errors : progress'.errors = progress.errors + failures [entry]
  one_more : failures [entry] ≤ 1

theorem recorded_of_answer {operation : BulkOperation} {progress progress' : Progress}
    {entry : Entry} {s s' : σ}
    (h : (answer py stores issuer operation progress).run s = (.ok (entry, progress'), s')) :
    Recorded operation progress entry progress' := by
  unfold answer at h
  rw [Eff.run_attempt_bind] at h
  rcases hone : (one py stores issuer operation progress.resolved).run s with
    ⟨raised | done, s₁⟩
  · rw [hone] at h
    cases raised with
    | scim e =>
      cases h
      exact ⟨⟨rfl, rfl⟩, rfl, le_rfl⟩
    | patch e => cases h
    | overflow => cases h
    | assertion => cases h
  · rw [hone] at h
    cases h
    unfold one at hone
    obtain ⟨data, s₂, -, hone⟩ := Eff.run_bind_eq_ok.mp hone
    obtain ⟨resourceId, s₃, -, hone⟩ := Eff.run_bind_eq_ok.mp hone
    obtain ⟨result, s₄, -, hone⟩ := Eff.run_bind_eq_ok.mp hone
    cases hone
    exact ⟨⟨rfl, rfl⟩, rfl, Nat.zero_le _⟩

/-- **One round of the loop goes through exactly when the operation is answerable.** -/
theorem answer_returns_iff {operation : BulkOperation} {progress : Progress} {s : σ}
    (haddressed : Addressed operation) :
    (∃ entry progress' s', (answer py stores issuer operation progress).run s =
        (.ok (entry, progress'), s')) ↔ Answerable py stores operation progress.resolved s := by
  have honly : Eff.RaisesOnly IsScim (one py stores issuer operation progress.resolved) s ↔ _ :=
    raisesOnly_one haddressed
  rw [← honly]
  unfold answer
  rw [Eff.run_attempt_bind]
  unfold Eff.RaisesOnly
  rcases (one py stores issuer operation progress.resolved).run s with ⟨raised | done, s₁⟩
  · cases raised with
    | scim e => exact iff_of_true ⟨_, _, _, rfl⟩ fun e' he => by cases he; trivial
    | patch e => exact iff_of_false (fun ⟨_, _, _, h⟩ => by cases h) fun h => h _ rfl
    | overflow => exact iff_of_false (fun ⟨_, _, _, h⟩ => by cases h) fun h => h _ rfl
    | assertion => exact iff_of_false (fun ⟨_, _, _, h⟩ => by cases h) fun h => h _ rfl
  · exact iff_of_true ⟨_, _, _, rfl⟩ fun e he => by cases he

theorem failures_cons (entry : Entry) (entries : List Entry) :
    failures (entry :: entries) = failures [entry] + failures entries := by
  unfold failures
  rw [← List.singleton_append, List.filter_append, List.length_append]

/-- The failures so far are fewer than the limit. -/
def Below (failOnErrors : Option Nat) (errors : Nat) : Prop :=
  ∀ limit, failOnErrors = some limit → errors < limit

theorem stops_eq_false {failOnErrors : Option Nat} {errors : Nat} :
    stops failOnErrors errors = false ↔ Below failOnErrors errors := by
  unfold stops Below
  cases failOnErrors <;> simp

/-- **A run that reaches only answerable operations goes through**, with an entry for each of
them up to where the failures reach the limit. -/
theorem runFrom_of_reaches {failOnErrors : Option Nat} {operations : List BulkOperation}
    {progress : Progress} {s : σ} (haddressed : ∀ operation ∈ operations, Addressed operation)
    (hbelow : Below failOnErrors progress.errors)
    (h : Reaches py stores issuer failOnErrors operations progress s) :
    ∃ entries s' done rest,
      (runFrom py stores issuer failOnErrors operations progress).run s = (.ok entries, s') ∧
        operations = done ++ rest ∧ List.Forall₂ Answers done entries ∧
          (rest = [] ∨ failOnErrors = some (progress.errors + failures entries)) := by
  induction operations generalizing progress s with
  | nil => exact ⟨[], s, [], [], rfl, rfl, .nil, .inl rfl⟩
  | cons operation operations ih =>
    obtain ⟨hfirst, hothers⟩ := List.forall_mem_cons.mp haddressed
    obtain ⟨entry, progress', s₁, hanswer⟩ := (answer_returns_iff hfirst).mpr h.1
    have hrecorded := recorded_of_answer hanswer
    unfold runFrom
    rw [Eff.run_bind_of_ok hanswer]
    cases hstops : stops failOnErrors progress'.errors with
    | true =>
      refine ⟨[entry], s₁, [operation], operations, by simp, rfl,
        .cons hrecorded.answers .nil, .inr ?_⟩
      -- the failure just counted is the first to reach the limit
      have hreached : ¬ Below failOnErrors progress'.errors := by
        rw [← stops_eq_false, hstops]
        decide
      unfold Below at hreached hbelow
      push Not at hreached
      obtain ⟨limit, rfl, hlimit⟩ := hreached
      have hone := hrecorded.one_more
      have hless := hbelow limit rfl
      rw [hrecorded.errors] at hlimit
      rw [Option.some_inj]
      omega
    | false =>
      obtain ⟨entries, s₂, done, rest, hrun, rfl, hanswers, hrest⟩ :=
        ih hothers (stops_eq_false.mp hstops) (h.2 entry progress' s₁ hanswer hstops)
      refine ⟨entry :: entries, s₂, operation :: done, rest, ?_, rfl,
        .cons hrecorded.answers hanswers, hrest.imp_right fun hlimit => ?_⟩
      · simp only [Bool.false_eq_true, if_false]
        rw [Eff.run_bind_of_ok hrun]
        rfl
      · rw [hlimit, hrecorded.errors, failures_cons entry entries, Nat.add_assoc]

theorem reaches_of_runFrom {failOnErrors : Option Nat} {operations : List BulkOperation}
    {progress : Progress} {s s' : σ} {entries : List Entry}
    (haddressed : ∀ operation ∈ operations, Addressed operation)
    (h : (runFrom py stores issuer failOnErrors operations progress).run s = (.ok entries, s')) :
    Reaches py stores issuer failOnErrors operations progress s := by
  induction operations generalizing progress s s' entries with
  | nil => trivial
  | cons operation operations ih =>
    obtain ⟨hfirst, hothers⟩ := List.forall_mem_cons.mp haddressed
    unfold runFrom at h
    obtain ⟨⟨entry, progress'⟩, s₁, hanswer, hrest⟩ := Eff.run_bind_eq_ok.mp h
    refine ⟨(answer_returns_iff hfirst).mp ⟨entry, progress', s₁, hanswer⟩, ?_⟩
    intro entry₂ progress₂ s₂ hanswer₂ hstops
    obtain ⟨heq, rfl⟩ := Prod.mk.inj (hanswer.symm.trans hanswer₂)
    obtain ⟨rfl, rfl⟩ := Prod.mk.inj (Except.ok.inj heq)
    simp only [hstops, Bool.false_eq_true, if_false] at hrest
    obtain ⟨others, s₃, hothers', -⟩ := Eff.run_bind_eq_ok.mp hrest
    exact ih hothers hothers'

/-- **When a bulk request gets a full answer**: exactly when every operation that is reached is
answerable in the state it is reached in. -/
theorem fullAnswer_iff {document : Json} {request : BulkRequest}
    (h : parseBulk py document = .ok request) (s : σ) :
    FullAnswer request ((run py stores issuer request).run s).1 ↔
      Reaches py stores issuer request.failOnErrors request.operations {} s := by
  have haddressed := parseBulk_addressed h
  constructor
  · rintro ⟨response, done, rest, hrun, -⟩
    obtain ⟨entries, s', hentries, -⟩ := Eff.run_bind_eq_ok.mp
      (show (run py stores issuer request).run s =
        (.ok response, ((run py stores issuer request).run s).2) from Prod.ext hrun rfl)
    exact reaches_of_runFrom haddressed hentries
  · intro hreaches
    have hbelow : Below request.failOnErrors (Progress.errors {}) := fun limit hlimit =>
      parseBulk_limit h hlimit
    obtain ⟨entries, s', done, rest, hrun, hsplit, hanswers, hrest⟩ :=
      runFrom_of_reaches haddressed hbelow hreaches
    refine ⟨⟨[bulkResponse], entries⟩, done, rest, ?_, hsplit, hanswers, ?_⟩
    · unfold run
      rw [Eff.run_bind_of_ok hrun]
      rfl
    · simpa using hrest

/-! ## A user who is suspended -/

/-- A resource with an identifier and a location. -/
def resourceOf (id location : String) : Resource where
  document := [("id", .str id), ("meta", .dict [("location", .str location)])]
  id := id
  location := location
  document_id := rfl
  document_location := ⟨_, rfl, rfl⟩

/-- A user. -/
def sam : Object := [("id", .str "u1"), ("userName", .str "sam"), ("active", .bool true)]

/-- Stores with one user, that accept every change. -/
def oneUser : Stores Unit where
  createUser _ _ := pure (resourceOf "u1" "https://id.test/scim/v2/Users/u1", true)
  getUser _ := pure sam
  replaceUser _ _ _ _ := pure (resourceOf "u1" "https://id.test/scim/v2/Users/u1")
  applyPatched _ _ _ _ := pure (resourceOf "u1" "https://id.test/scim/v2/Users/u1")
  softDelete _ _ := pure ()
  createGroup _ := pure (resourceOf "g1" "https://id.test/scim/v2/Groups/g1", true)
  replaceGroup _ _ _ := pure (resourceOf "g1" "https://id.test/scim/v2/Groups/g1")
  patchGroup _ _ _ := pure (resourceOf "g1" "https://id.test/scim/v2/Groups/g1")
  deleteGroup _ _ := pure ()

/-- The operations of the language, on ASCII text without dates. -/
def asciiReaders : Readers where
  toBuiltins := .ascii
  upper text := String.ofList (text.toList.map Char.toUpper)
  repr
    | .str text => Text.pyRepr text
    | _ => "None"
  today := 739000
  instant _ := .valueError
  date _ := none

/-- A PATCH that replaces some attributes. -/
def replacing (value : Object) : Json :=
  .dict [("schemas", .list [.str patchOpSchema]), ("Operations", .list [.dict [
    ("op", .str "replace"), ("value", .dict value)]])]

/-- A bulk request with that one operation. -/
def inBulk (data : Json) : Json :=
  .dict [("schemas", .list [.str bulkRequest]), ("Operations", .list [.dict [
    ("method", .str "PATCH"), ("path", .str "/Users/u1"), ("data", data)]])]

/-- Suspend the user. -/
def suspending : Json := replacing [("active", .bool false)]

/-- Suspend the user, whose identifier is sent along. -/
def suspendingById : Json := replacing [("active", .bool false), ("id", .str "u1")]

/-- The request with one operation, as it is read. -/
def requestOf (data : Json) : BulkRequest :=
  ⟨[⟨.patch, .users, some "u1", none, data, none, references data (some "u1")⟩], none⟩

theorem parseBulk_suspending :
    parseBulk asciiReaders (inBulk suspending) = .ok (requestOf suspending) := rfl

theorem parseBulk_suspendingById :
    parseBulk asciiReaders (inBulk suspendingById) = .ok (requestOf suspendingById) := rfl

theorem applyPatch_suspending : Patch.applyPatch asciiReaders.toBuiltins sam
    [⟨.replace, none, .dict [("active", .bool false)]⟩] =
      .ok [("id", .str "u1"), ("userName", .str "sam"), ("active", .bool false)] := rfl

theorem answerable_suspending : ∀ operation ∈ (requestOf suspending).operations,
    Answerable asciiReaders oneUser operation [] () := by
  intro operation hmem
  obtain rfl := List.mem_singleton.mp hmem
  rintro - data resourceId hdata hid
  have hdata : (.ok suspending : Except ScimError Json) = .ok data := hdata
  have hid : (.ok (some "u1") : Except ScimError (Option String)) = .ok resourceId := hid
  cases hdata
  cases hid
  refine ⟨fun hmethod => (by simp at hmethod), fun _ id _ current s' operations hget hparse => ?_⟩
  cases hget
  have hparse : (.ok [⟨.replace, none, .dict [("active", .bool false)]⟩] :
    Except PatchError (List Operation)) = .ok operations := hparse
  cases hparse
  exact ⟨_, applyPatch_suspending, by exact nofun⟩

/-- The user is suspended, and the answer is complete. -/
theorem fullAnswer_suspending : FullAnswer (requestOf suspending)
    ((run asciiReaders oneUser "https://id.test" (requestOf suspending)).run ()).1 :=
  (fullAnswer_iff parseBulk_suspending ()).mpr
    ⟨answerable_suspending _ List.mem_cons_self, fun _ _ _ _ _ => trivial⟩

/-- **A PATCH that is refused leaves no answer.** -/
theorem not_fullAnswer : ¬ ∀ (σ : Type) (py : Readers) (stores : Stores σ) (issuer : String)
    (document : Json) (request : BulkRequest), parseBulk py document = .ok request →
      ∀ s, FullAnswer request ((run py stores issuer request).run s).1 := by
  intro h
  obtain ⟨response, done, rest, hrun, -⟩ := h Unit asciiReaders oneUser "https://id.test"
    (inBulk suspendingById) (requestOf suspendingById) parseBulk_suspendingById ()
  have hraised : ((run asciiReaders oneUser "https://id.test"
      (requestOf suspendingById)).run ()).1 =
        .error (.patch ⟨"operation 0: id cannot be changed", "mutability"⟩) := rfl
  rw [hraised] at hrun
  cases hrun

end Bulk
end Scim
end CampusID
