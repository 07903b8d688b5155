import CampusID.Lib.Dict
import CampusID.Lifecycle.Orchestrator

/-!
# SCIM users over the registry

`UserStore`: a SCIM request becomes rows.  A write is a transaction --- it either
refuses and changes nothing, or leaves the tables it describes --- and then, outside
the transaction, the lifecycle is told which affiliations the person had and has.

A transaction is a function of the tables; a method runs one, and calls the hook with
what it returned.  The hook is `Orchestrator.transitioned`.

The SCIM document a record is projected to, the version computed over it, and `str.lower`
are parameters of the store: of the documents only the version is ever compared.  A resource
identifier that is no UUID is refused like one nobody has, so identifiers are taken
in their canonical form.
-/

namespace CampusID

open Lib

/-! ## What a client sends -/

/-- `ParsedAffiliation`. -/
structure ParsedAffiliation where
  value : String
  isPrimary : Bool := false
  orgUnit : Option String := none
  validFrom : Int
  validUntil : Option Int := none
  deriving DecidableEq, Repr

/-- `ParsedUser`. -/
structure ParsedUser where
  userName : String
  externalId : Option String := none
  displayName : Option String := none
  givenName : Option String := none
  surname : Option String := none
  preferredLanguage : Option String := none
  active : Bool := true
  emails : List (String × Bool) := []
  employeeNumber : Option String := none
  ferpaDirectorySuppressed : Bool := false
  affiliations : List ParsedAffiliation := []
  deriving DecidableEq, Repr

namespace ParsedUser

/-- `ParsedUser.status`. -/
def status (parsed : ParsedUser) : Status := if parsed.active then .active else .suspended

/-- The affiliations a client sent, as a set of values. -/
def affiliationValues (parsed : ParsedUser) : Finset String :=
  (parsed.affiliations.map ParsedAffiliation.value).toFinset

end ParsedUser

/-! ## What a client is told -/

/-- `ScimError`. -/
structure ScimError where
  status : Nat
  detail : String
  scimType : Option String := none
  deriving DecidableEq, Repr

/-- What a write can refuse with: an error of the store, the constraint of a table, or a
failed assertion. -/
inductive StoreError where
  | scim (e : ScimError)
  | integrity
  | assertion
  deriving DecidableEq, Repr

/-- `not_found` of a user. -/
def notFound (resourceId : String) : StoreError :=
  .scim ⟨404, "User " ++ resourceId ++ " not found", none⟩

/-- `duplicate`. -/
def duplicate (name value : String) : StoreError :=
  .scim ⟨409, name ++ " " ++ Text.pyRepr value ++ " is already in use", some "uniqueness"⟩

/-- `version_mismatch`. -/
def versionMismatch (expected : String) : StoreError :=
  .scim ⟨412, "the resource has changed; current version is " ++ expected, none⟩

/-- The `invalid_value` of an affiliation outside the vocabulary. -/
def outsideVocabulary (value : String) : StoreError :=
  .scim ⟨400, Text.pyRepr value ++ " is outside the eduPerson vocabulary", some "invalidValue"⟩

/-- `AFFILIATION_VOCABULARY`. -/
def affiliationVocabulary : List String :=
  ["faculty", "student", "staff", "alum", "member", "affiliate", "employee", "library-walk-in"]

/-- `_candidates`: the versions an `If-Match` header names. -/
def candidates (ifMatch : String) : List String :=
  if Text.strip ifMatch = "*" then ["*"]
  else
    let tags := (Text.split ',' ifMatch).map Text.strip
    tags ++ tags.map ("W/" ++ ·) ++ tags.map (Text.dropText "W/")

/-- `_scope_of`, with `str.lower`. -/
def scopeOf (lower : String → String) (eppn : String) : Option String :=
  (Text.afterLast '@' eppn).map lower

/-! ## Identifiers -/

/-- The identifiers a client wants, each with whether it is primary. -/
def wantedIdentifiers (parsed : ParsedUser) : List ((IdType × String) × Bool) :=
  let withMail := parsed.emails.foldl
    (fun d email => assign d (.mail, email.1) email.2) [((.eppn, parsed.userName), true)]
  match parsed.employeeNumber with
  | some number => if number = "" then withMail else assign withMail (.employeeId, number) true
  | none => withMail

/-- The row of a newly issued identifier. -/
def issueIdentifier (lower : String → String) (personUuid : String) (now : Int) (idType : IdType)
    (value : String) (isPrimary : Bool) : Identifier where
  personUuid := personUuid
  idType := idType
  value := value
  scope := if idType = .eppn then scopeOf lower value else none
  isPrimary := isPrimary
  issuedAt := now

/-- Tombstone a row. -/
def releaseIdentifier (now : Int) (row : Identifier) : Identifier :=
  { row with releasedAt := some now, isPrimary := false }

/-- The loop of `_replace_identifiers` over the person's live rows: keep what is wanted,
release what is not, and hand back what is still wanted. -/
def reconcileIdentifiers (personUuid : String) (now : Int) :
    List Identifier → List ((IdType × String) × Bool) →
      List Identifier × List ((IdType × String) × Bool)
  | [], wanted => ([], wanted)
  | row :: rows, wanted =>
    if row.personUuid = personUuid ∧ row.Live then
      match wanted.lookup (row.idType, row.value) with
      | some isPrimary =>
        let rest := reconcileIdentifiers personUuid now rows
          (wanted.filter (·.1 ≠ (row.idType, row.value)))
        ({ row with isPrimary := isPrimary } :: rest.1, rest.2)
      | none =>
        let rest := reconcileIdentifiers personUuid now rows wanted
        if row.idType = .eppn ∨ row.idType = .mail ∨ row.idType = .employeeId then
          (releaseIdentifier now row :: rest.1, rest.2)
        else (row :: rest.1, rest.2)
    else
      let rest := reconcileIdentifiers personUuid now rows wanted
      (row :: rest.1, rest.2)

/-- `uq_identifier_type_value_scope`: a row without a scope conflicts with nothing. -/
def Identifier.Conflicts (row other : Identifier) : Prop :=
  row.idType = other.idType ∧ row.value = other.value ∧ row.scope = other.scope ∧ row.scope ≠ none

instance (row other : Identifier) : Decidable (row.Conflicts other) :=
  inferInstanceAs (Decidable (_ ∧ _ ∧ _ ∧ _))

/-- Insert identifier rows under the constraint. -/
def addIdentifiers (rows new : List Identifier) : Except StoreError (List Identifier) :=
  if ∃ row ∈ new, ∃ other ∈ rows, row.Conflicts other then .error .integrity
  else .ok (rows ++ new)

/-- `_replace_identifiers`. -/
def replaceIdentifiers (lower : String → String) (personUuid : String) (parsed : ParsedUser)
    (now : Int) (rows : List Identifier) : Except StoreError (List Identifier) :=
  let reconciled := reconcileIdentifiers personUuid now rows (wantedIdentifiers parsed)
  addIdentifiers reconciled.1
    (reconciled.2.map fun entry =>
      issueIdentifier lower personUuid now entry.1.1 entry.1.2 entry.2)

/-- `_write_identifiers`. -/
def writeIdentifiers (lower : String → String) (personUuid : String) (parsed : ParsedUser)
    (now : Int) (rows : List Identifier) : Except StoreError (List Identifier) :=
  addIdentifiers rows
    (issueIdentifier lower personUuid now .eppn parsed.userName true ::
      parsed.emails.map (fun email => issueIdentifier lower personUuid now .mail email.1 email.2) ++
      match parsed.employeeNumber with
      | some number =>
        if number = "" then [] else [issueIdentifier lower personUuid now .employeeId number true]
      | none => [])

/-! ## Affiliations -/

/-- The row of an affiliation as it was sent. -/
def affiliationRow (personUuid : String) (sent : ParsedAffiliation) : Affiliation where
  personUuid := personUuid
  affiliation := sent.value
  isPrimary := sent.isPrimary
  orgUnit := sent.orgUnit
  validFrom := sent.validFrom
  validUntil := sent.validUntil

/-- Insert affiliation rows, refusing a value outside the vocabulary. -/
def addAffiliations (personUuid : String) (rows : List Affiliation)
    (sent : List ParsedAffiliation) : Except StoreError (List Affiliation) :=
  match sent.find? (·.value ∉ affiliationVocabulary) with
  | some affiliation => .error (outsideVocabulary affiliation.value)
  | none => .ok (rows ++ sent.map (affiliationRow personUuid))

/-- The affiliations a client wants, by value and start. -/
def wantedAffiliations (parsed : ParsedUser) : List ((String × Int) × ParsedAffiliation) :=
  parsed.affiliations.foldl (fun d sent => assign d (sent.value, sent.validFrom) sent) []

/-- The loop of `_replace_affiliations` over the person's rows: rewrite what is wanted,
close what is open and not wanted, and hand back what is still wanted. -/
def reconcileAffiliations (personUuid : String) (today : Int) :
    List Affiliation → List ((String × Int) × ParsedAffiliation) →
      List Affiliation × List ((String × Int) × ParsedAffiliation)
  | [], wanted => ([], wanted)
  | row :: rows, wanted =>
    if row.personUuid = personUuid then
      match wanted.lookup (row.affiliation, row.validFrom) with
      | some sent =>
        let rest := reconcileAffiliations personUuid today rows
          (wanted.filter (·.1 ≠ (row.affiliation, row.validFrom)))
        ({ row with isPrimary := sent.isPrimary, orgUnit := sent.orgUnit,
                    validUntil := sent.validUntil } :: rest.1, rest.2)
      | none =>
        let rest := reconcileAffiliations personUuid today rows wanted
        if row.Open then ({ row with validUntil := some today } :: rest.1, rest.2)
        else (row :: rest.1, rest.2)
    else
      let rest := reconcileAffiliations personUuid today rows wanted
      (row :: rest.1, rest.2)

/-- `_replace_affiliations`. -/
def replaceAffiliations (personUuid : String) (parsed : ParsedUser) (today : Int)
    (rows : List Affiliation) : Except StoreError (List Affiliation) :=
  let reconciled := reconcileAffiliations personUuid today rows (wantedAffiliations parsed)
  addAffiliations personUuid reconciled.1 (reconciled.2.map Prod.snd)

/-! ## Transactions -/

/-- `UserRecord`: what a document is projected from. -/
structure UserRecord where
  person : Person
  identifiers : List Identifier
  affiliations : List Affiliation
  externalId : Option String
  deriving DecidableEq, Repr

/-- `TransitionHook`: told what a write changed about a person's affiliations. -/
abbrev TransitionHook (Doc δ E : Type) :=
  String → Finset String → Finset String → Action Doc δ E Delta

/-- `UserStore`: the projection to a document, the version of a document, the lifecycle's
hook, and `str.lower`. -/
structure UserStore (Doc δ E : Type) where
  toScim : UserRecord → Doc
  version : Doc → String
  onTransition : Option (TransitionHook Doc δ E) := none
  lower : String → String := Text.lower

/-- The store whose hook is the orchestrator. -/
def UserStore.wire {Doc δ E : Type} (store : UserStore Doc δ E) (o : Orchestrator δ E) :
    UserStore Doc δ E :=
  { store with onTransition := some fun personUuid before after =>
      o.transitioned personUuid before after }

/-- `_load`. -/
def Registry.load {Doc : Type} (registry : Registry Doc) (personUuid : String) :
    Except StoreError UserRecord :=
  match registry.get personUuid with
  | none => .error .assertion
  | some person => .ok
    { person := person
      identifiers := registry.identifiers.filter (·.personUuid = personUuid)
      affiliations := registry.affiliationsOf personUuid
      externalId := (registry.sourceOf personUuid).bind ScimSourceRecord.externalId }

/-- `_assert_version`. -/
def assertVersion {Doc : Type} (source : Option (ScimSourceRecord Doc)) (ifMatch : Option String) :
    Except StoreError Unit :=
  match ifMatch, source with
  | none, _ => .ok ()
  | some _, none => .error (versionMismatch "unknown")
  | some tags, some source =>
    if source.version ∈ candidates tags then .ok () else .error (versionMismatch source.version)

/-- `_assert_username_free`. -/
def assertUsernameFree {Doc : Type} (registry : Registry Doc) (userName : String)
    (excluding : Option String) : Except StoreError Unit :=
  match registry.liveEppn userName with
  | some row => if excluding = some row.personUuid then .ok () else .error (duplicate "userName" userName)
  | none => .ok ()

/-- The fields of a person a client writes. -/
def writePerson (parsed : ParsedUser) (person : Person) : Person :=
  { person with
    displayName := parsed.displayName
    givenName := parsed.givenName
    surname := parsed.surname
    preferredLanguage := parsed.preferredLanguage
    ferpaDirectorySuppressed := parsed.ferpaDirectorySuppressed
    status := parsed.status }

/-- Change the row of one person. -/
def Registry.updatePerson {Doc : Type} (registry : Registry Doc) (personUuid : String)
    (f : Person → Person) : List Person :=
  registry.persons.map fun person => if person.personUuid = personUuid then f person else person

namespace UserStore

variable {Doc δ E : Type} (store : UserStore Doc δ E)

/-- The transaction of `create`, with the identifier the new person is given. -/
def createRows (parsed : ParsedUser) (raw : Doc) (personUuid : String) (now : Int)
    (registry : Registry Doc) : Except StoreError (Registry Doc × Doc × Bool) :=
  let known := parsed.externalId.bind fun externalId =>
    if externalId = "" then none
    else registry.sources.find? fun source => source.externalId = some externalId
  match known with
  | some source => do
    let record ← registry.load source.personUuid
    return (registry, store.toScim record, false)
  | none => do
    assertUsernameFree registry parsed.userName none
    let affiliations ← addAffiliations personUuid registry.affiliations parsed.affiliations
    let identifiers ← writeIdentifiers store.lower personUuid parsed now registry.identifiers
    let written : Registry Doc :=
      { registry with
        persons := registry.persons ++ [writePerson parsed { personUuid := personUuid }]
        identifiers := identifiers
        affiliations := affiliations }
    let record ← written.load personUuid
    let resource := store.toScim record
    return ({ written with
      sources := written.sources ++ [⟨personUuid, parsed.externalId, raw, store.version resource⟩] },
      resource, true)

/-- `_finish`. -/
def finish (personUuid : String) (raw : Doc) (registry : Registry Doc) :
    Except StoreError (Registry Doc × Doc) := do
  let record ← registry.load personUuid
  let resource := store.toScim record
  match registry.sourceOf personUuid with
  | none => return ({ registry with
      sources := registry.sources ++ [⟨personUuid, none, raw, store.version resource⟩] }, resource)
  | some _ => return ({ registry with
      sources := registry.sources.map fun source =>
        if source.personUuid = personUuid then
          { source with rawResource := raw, version := store.version resource }
        else source }, resource)

/-- The transaction of `replace`: the tables, the resource, and the affiliations before
and after. -/
def replaceRows (resourceId : String) (parsed : ParsedUser) (raw : Doc) (ifMatch : Option String)
    (now today : Int) (registry : Registry Doc) :
    Except StoreError (Registry Doc × Doc × Finset String × Finset String) :=
  match registry.get resourceId with
  | none => .error (notFound resourceId)
  | some _ => do
    assertVersion (registry.sourceOf resourceId) ifMatch
    assertUsernameFree registry parsed.userName (some resourceId)
    let identifiers ← replaceIdentifiers store.lower resourceId parsed now registry.identifiers
    let affiliations ← replaceAffiliations resourceId parsed today registry.affiliations
    let finished ← store.finish resourceId raw
      { registry with
        persons := registry.updatePerson resourceId (writePerson parsed)
        identifiers := identifiers
        affiliations := affiliations }
    -- `active: false` is a leaver, whatever the affiliations say
    return (finished.1, finished.2, registry.openAffiliations resourceId,
      if parsed.status = .active then parsed.affiliationValues else ∅)

/-- The transaction of `soft_delete`: the tables, and the affiliations it ended. -/
def softDeleteRows (resourceId : String) (ifMatch : Option String) (now today : Int)
    (registry : Registry Doc) : Except StoreError (Registry Doc × Finset String) :=
  match registry.get resourceId with
  | none => .error (notFound resourceId)
  | some person =>
    if person.status = .deactivated then .error (notFound resourceId)
    else do
      assertVersion (registry.sourceOf resourceId) ifMatch
      return ({ registry with
        persons := registry.updatePerson resourceId ({ · with status := .deactivated })
        identifiers := registry.identifiers.map fun row =>
          if row.personUuid = resourceId ∧ row.Live then releaseIdentifier now row else row
        affiliations := registry.affiliations.map fun row =>
          if row.personUuid = resourceId ∧ row.Open then { row with validUntil := some today }
          else row },
        registry.openAffiliations resourceId)

/-! ## The methods -/

/-- Run a transaction: a refusal changes nothing. -/
def transact {α : Type} (tx : World Doc δ → Except StoreError (Registry Doc × α)) :
    Action Doc δ E (Except StoreError α) :=
  Eff.step fun w =>
    match tx w with
    | .ok (registry, a) => (.ok a, { w with registry := registry })
    | .error e => (.error e, w)

/-- Call the hook, if there is one. -/
def tell (personUuid : String) (before after : Finset String) : Action Doc δ E Unit :=
  match store.onTransition with
  | none => pure ()
  | some hook => do
    let _ ← hook personUuid before after

/-- `_transitioned`: a change that is none is not worth telling. -/
def transitioned (personUuid : String) (before after : Finset String) : Action Doc δ E Unit :=
  if before = after then pure () else store.tell personUuid before after

/-- `create`. -/
def create (parsed : ParsedUser) (raw : Doc) (personUuid : String) :
    Action Doc δ E (Except StoreError (Doc × Bool)) := do
  let outcome ← transact fun w => store.createRows parsed raw personUuid w.now w.registry
  match outcome with
  | .error e => return .error e
  | .ok (resource, created) => do
    if created then store.transitioned personUuid ∅ parsed.affiliationValues else pure ()
    return .ok (resource, created)

/-- `replace`. -/
def replace (resourceId : String) (parsed : ParsedUser) (raw : Doc) (ifMatch : Option String) :
    Action Doc δ E (Except StoreError Doc) := do
  let outcome ← transact fun w =>
    store.replaceRows resourceId parsed raw ifMatch w.now w.today w.registry
  match outcome with
  | .error e => return .error e
  | .ok (resource, before, after) => do
    store.transitioned resourceId before after
    return .ok resource

/-- `apply_patched`. -/
def applyPatched (resourceId : String) (parsed : ParsedUser) (raw : Doc)
    (ifMatch : Option String) : Action Doc δ E (Except StoreError Doc) :=
  store.replace resourceId parsed raw ifMatch

/-- `soft_delete`: the hook is called whatever ended. -/
def softDelete (resourceId : String) (ifMatch : Option String) :
    Action Doc δ E (Except StoreError Unit) := do
  let outcome ← transact fun w =>
    (softDeleteRows resourceId ifMatch w.now w.today w.registry)
  match outcome with
  | .error e => return .error e
  | .ok before => do
    store.tell resourceId before ∅
    return .ok ()

end UserStore

/-- A write to one person. -/
inductive UserWrite (Doc : Type) where
  | create (parsed : ParsedUser) (raw : Doc)
  | replace (parsed : ParsedUser) (raw : Doc) (ifMatch : Option String)
  | applyPatched (parsed : ParsedUser) (raw : Doc) (ifMatch : Option String)
  | softDelete (ifMatch : Option String)

namespace UserStore

variable {Doc δ E : Type} (store : UserStore Doc δ E)

/-- Perform a write, keeping only whether it was accepted. -/
def perform (personUuid : String) : UserWrite Doc → Action Doc δ E (Except StoreError Unit)
  | .create parsed raw => do
    return (← store.create parsed raw personUuid).map fun _ => ()
  | .replace parsed raw ifMatch => do
    return (← store.replace personUuid parsed raw ifMatch).map fun _ => ()
  | .applyPatched parsed raw ifMatch => do
    return (← store.applyPatched personUuid parsed raw ifMatch).map fun _ => ()
  | .softDelete ifMatch => store.softDelete personUuid ifMatch

/-! ## What a transaction leaves -/

theorem get_updatePerson (registry : Registry Doc) {personUuid : String} {f : Person → Person}
    (hf : ∀ person, (f person).personUuid = person.personUuid) {persons : List Person}
    (h : persons = registry.updatePerson personUuid f) (identifiers affiliations sources) :
    (Registry.mk persons identifiers affiliations sources : Registry Doc).get personUuid =
      (registry.get personUuid).map f := by
  subst h
  unfold Registry.get Registry.updatePerson
  rw [List.find?_map]
  have hkey : ((fun person : Person => decide (person.personUuid = personUuid)) ∘
      fun person => if person.personUuid = personUuid then f person else person) =
      fun person => decide (person.personUuid = personUuid) := by
    funext person
    by_cases hp : person.personUuid = personUuid
    · simp [hp, hf]
    · simp [hp]
  rw [hkey]
  cases hfind : registry.persons.find? (·.personUuid = personUuid) with
  | none => rfl
  | some person =>
    have hp : person.personUuid = personUuid := by simpa using List.find?_some hfind
    simp [hp]

theorem finish_ok {personUuid : String} {raw resource : Doc} {registry registry' : Registry Doc}
    (h : store.finish personUuid raw registry = .ok (registry', resource)) :
    registry'.persons = registry.persons ∧ registry'.identifiers = registry.identifiers ∧
      registry'.affiliations = registry.affiliations := by
  unfold finish at h
  obtain ⟨record, -, h⟩ := Eff.except_bind_eq_ok.mp h
  cases hs : registry.sourceOf personUuid with
  | none =>
    simp only [hs] at h
    cases h
    exact ⟨rfl, rfl, rfl⟩
  | some source =>
    simp only [hs] at h
    cases h
    exact ⟨rfl, rfl, rfl⟩

/-- **What a replacement does**: its checks, the rows it writes, and what it finishes. -/
theorem replaceRows_cases {resourceId : String} {parsed : ParsedUser} {raw resource : Doc}
    {ifMatch : Option String} {now today : Int} {registry registry' : Registry Doc}
    {before after : Finset String}
    (h : store.replaceRows resourceId parsed raw ifMatch now today registry =
      .ok (registry', resource, before, after)) :
    ∃ person identifiers affiliations, registry.get resourceId = some person ∧
      assertVersion (registry.sourceOf resourceId) ifMatch = .ok () ∧
      assertUsernameFree registry parsed.userName (some resourceId) = .ok () ∧
      replaceIdentifiers store.lower resourceId parsed now registry.identifiers =
        .ok identifiers ∧
      replaceAffiliations resourceId parsed today registry.affiliations = .ok affiliations ∧
      store.finish resourceId raw ⟨registry.updatePerson resourceId (writePerson parsed),
        identifiers, affiliations, registry.sources⟩ = .ok (registry', resource) ∧
      before = registry.openAffiliations resourceId ∧
      after = if parsed.status = .active then parsed.affiliationValues else ∅ := by
  unfold replaceRows at h
  cases hget : registry.get resourceId with
  | none => simp [hget] at h
  | some person =>
    simp only [hget] at h
    obtain ⟨_, hversion, h⟩ := Eff.except_bind_eq_ok.mp h
    obtain ⟨_, hfree, h⟩ := Eff.except_bind_eq_ok.mp h
    obtain ⟨identifiers, hids, h⟩ := Eff.except_bind_eq_ok.mp h
    obtain ⟨affiliations, haffs, h⟩ := Eff.except_bind_eq_ok.mp h
    obtain ⟨⟨finished, resource'⟩, hfin, h⟩ := Eff.except_bind_eq_ok.mp h
    cases h
    exact ⟨person, identifiers, affiliations, rfl, hversion, hfree, hids, haffs, hfin, rfl, rfl⟩

/-- **A replacement that went through**: what it tells the lifecycle, and the tables it
leaves. -/
theorem replaceRows_ok {resourceId : String} {parsed : ParsedUser} {raw resource : Doc}
    {ifMatch : Option String} {now today : Int} {registry registry' : Registry Doc}
    {before after : Finset String}
    (h : store.replaceRows resourceId parsed raw ifMatch now today registry =
      .ok (registry', resource, before, after)) :
    (∃ person, registry.get resourceId = some person) ∧
      before = registry.openAffiliations resourceId ∧
      after = (if parsed.status = .active then parsed.affiliationValues else ∅) ∧
      registry'.persons = registry.updatePerson resourceId (writePerson parsed) ∧
      replaceIdentifiers store.lower resourceId parsed now registry.identifiers =
        .ok registry'.identifiers ∧
      replaceAffiliations resourceId parsed today registry.affiliations =
        .ok registry'.affiliations := by
  obtain ⟨person, identifiers, affiliations, hget, -, -, hid, haff, hfin, hbefore, hafter⟩ :=
    store.replaceRows_cases h
  obtain ⟨hpersons, hids, haffs⟩ := store.finish_ok hfin
  exact ⟨⟨person, hget⟩, hbefore, hafter, hpersons, hids ▸ hid, haffs ▸ haff⟩

theorem replaceRows_status {resourceId : String} {parsed : ParsedUser} {raw resource : Doc}
    {ifMatch : Option String} {now today : Int} {registry registry' : Registry Doc}
    {before after : Finset String}
    (h : store.replaceRows resourceId parsed raw ifMatch now today registry =
      .ok (registry', resource, before, after)) :
    (registry'.get resourceId).map Person.status = some parsed.status := by
  obtain ⟨⟨person, hget⟩, -, -, hpersons, -, -⟩ := store.replaceRows_ok h
  have hget' := get_updatePerson registry (f := writePerson parsed) (fun _ => rfl) hpersons
    registry'.identifiers registry'.affiliations registry'.sources
  rw [show registry'.get resourceId = _ from hget', hget]
  rfl

/-- **A deletion that went through.** -/
theorem softDeleteRows_ok {resourceId : String} {ifMatch : Option String} {now today : Int}
    {registry registry' : Registry Doc} {before : Finset String}
    (h : softDeleteRows resourceId ifMatch now today registry = .ok (registry', before)) :
    before = registry.openAffiliations resourceId ∧
      registry'.persons = registry.updatePerson resourceId ({ · with status := .deactivated }) ∧
      registry'.identifiers = registry.identifiers.map (fun row =>
        if row.personUuid = resourceId ∧ row.Live then releaseIdentifier now row else row) ∧
      registry'.affiliations = registry.affiliations.map (fun row =>
        if row.personUuid = resourceId ∧ row.Open then { row with validUntil := some today }
        else row) := by
  unfold softDeleteRows at h
  cases hget : registry.get resourceId with
  | none => simp [hget] at h
  | some person =>
    simp only [hget] at h
    split_ifs at h with hd
    obtain ⟨-, -, h⟩ := Eff.except_bind_eq_ok.mp h
    cases h
    exact ⟨rfl, rfl, rfl, rfl⟩

theorem softDeleteRows_status {resourceId : String} {ifMatch : Option String} {now today : Int}
    {registry registry' : Registry Doc} {before : Finset String}
    (h : softDeleteRows resourceId ifMatch now today registry = .ok (registry', before)) :
    (registry'.get resourceId).map Person.status = some .deactivated := by
  obtain ⟨-, hpersons, -, -⟩ := softDeleteRows_ok h
  have hget' := get_updatePerson registry (f := ({ · with status := .deactivated }))
    (fun _ => rfl) hpersons registry'.identifiers registry'.affiliations registry'.sources
  rw [show registry'.get resourceId = _ from hget']
  unfold softDeleteRows at h
  cases hget : registry.get resourceId with
  | none => simp [hget] at h
  | some person => rfl

/-! ## What a method does -/

theorem run_transact_of_ok {α : Type} {tx : World Doc δ → Except StoreError (Registry Doc × α)}
    {w : World Doc δ} {registry : Registry Doc} {a : α} (h : tx w = .ok (registry, a)) :
    (transact tx : Action Doc δ E _).run w = (.ok (.ok a), { w with registry := registry }) := by
  simp [transact, h]

theorem run_transact_of_error {α : Type} {tx : World Doc δ → Except StoreError (Registry Doc × α)}
    {w : World Doc δ} {e : StoreError} (h : tx w = .error e) :
    (transact tx : Action Doc δ E _).run w = (.ok (.error e), w) := by
  simp [transact, h]

/-- **A successful `replace`** is a transaction that went through, and a lifecycle that
was told. -/
theorem replace_ok {resourceId : String} {parsed : ParsedUser} {raw resource : Doc}
    {ifMatch : Option String} {w w' : World Doc δ}
    (h : (store.replace resourceId parsed raw ifMatch : Action Doc δ E _).run w =
      (.ok (.ok resource), w')) :
    ∃ registry before after,
      store.replaceRows resourceId parsed raw ifMatch w.now w.today w.registry =
        .ok (registry, resource, before, after) ∧
      (store.transitioned resourceId before after).run { w with registry := registry } =
        (.ok (), w') := by
  unfold replace at h
  cases htx : store.replaceRows resourceId parsed raw ifMatch w.now w.today w.registry with
  | error e =>
    rw [Eff.run_bind_of_ok (run_transact_of_error htx)] at h
    cases h
  | ok written =>
    obtain ⟨registry, resource', before, after⟩ := written
    rw [Eff.run_bind_of_ok (run_transact_of_ok htx)] at h
    obtain ⟨u, m, htold, hrest⟩ := Eff.run_bind_eq_ok.mp h
    cases hrest
    exact ⟨registry, before, after, rfl, htold⟩

/-- **A successful `soft_delete`.** -/
theorem softDelete_ok {resourceId : String} {ifMatch : Option String} {w w' : World Doc δ}
    (h : (store.softDelete resourceId ifMatch : Action Doc δ E _).run w = (.ok (.ok ()), w')) :
    ∃ registry before,
      softDeleteRows resourceId ifMatch w.now w.today w.registry = .ok (registry, before) ∧
      (store.tell resourceId before ∅).run { w with registry := registry } = (.ok (), w') := by
  unfold softDelete at h
  cases htx : softDeleteRows resourceId ifMatch w.now w.today w.registry with
  | error e =>
    rw [Eff.run_bind_of_ok (run_transact_of_error htx)] at h
    cases h
  | ok written =>
    obtain ⟨registry, before⟩ := written
    rw [Eff.run_bind_of_ok (run_transact_of_ok htx)] at h
    obtain ⟨u, m, htold, hrest⟩ := Eff.run_bind_eq_ok.mp h
    cases hrest
    exact ⟨registry, before, rfl, htold⟩

theorem run_map_ok {α : Type} {x : Action Doc δ E (Except StoreError α)} {w w' : World Doc δ}
    (h : (do return (← x).map fun _ => () : Action Doc δ E (Except StoreError Unit)).run w =
      (.ok (.ok ()), w')) : ∃ a, x.run w = (.ok (.ok a), w') := by
  obtain ⟨outcome, m, hx, hrest⟩ := Eff.run_bind_eq_ok.mp h
  cases outcome with
  | error e => cases hrest
  | ok a =>
    cases hrest
    exact ⟨a, hx⟩

theorem run_wire_tell (o : Orchestrator δ E) (personUuid : String) (before after : Finset String)
    {w w' : World Doc δ} : ((store.wire o).tell personUuid before after).run w = (.ok (), w') ↔
      ∃ delta, (o.transitioned personUuid before after : Action Doc δ E _).run w =
        (.ok delta, w') := by
  show (o.transitioned personUuid before after >>= fun _ => pure ()).run w = _ ↔ _
  rw [Eff.run_bind_eq_ok]
  constructor
  · rintro ⟨delta, m, hrun, hm⟩
    cases hm
    exact ⟨delta, hrun⟩
  · rintro ⟨delta, hrun⟩
    exact ⟨delta, w', hrun, rfl⟩

end UserStore

end CampusID
