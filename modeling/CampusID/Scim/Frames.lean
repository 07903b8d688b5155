import CampusID.Lib.Rows
import CampusID.Identity.Uniqueness

/-!
# What a write to one person leaves alone

A user's document is loaded from the rows with their identifier in them.  Here are the rows a
write leaves, person by person: for everybody else they are the rows that were there before, and
for the person written the record that was projected is the one a later read loads
(`createRows_loads`, `replaceRows_loads`) --- up to the external identifier, which a creation
writes after it has projected.
-/

namespace CampusID

open Lib

/-! ## Rows of other people -/

section Rows

variable {personUuid other : String} {lower : String → String} {now today : Int}
  {parsed : ParsedUser}

theorem filter_append_other {R : Type} (key : R → String) (hne : other ≠ personUuid)
    (rows : List R) {new : List R} (h : ∀ row ∈ new, key row = personUuid) :
    (rows ++ new).filter (key · = other) = rows.filter (key · = other) := by
  have hnone : new.filter (key · = other) = [] := by
    rw [List.filter_eq_nil_iff]
    intro row hrow heq
    exact hne ((of_decide_eq_true heq).symm.trans (h row hrow))
  rw [List.filter_append, hnone, List.append_nil]

section Change

variable {R : Type} (key : R → String) {f : R → R} {C : R → Prop} [DecidablePred C]

theorem key_change (hf : ∀ row, key (f row) = key row) (row : R) :
    key (if key row = personUuid ∧ C row then f row else row) = key row := by
  split
  · exact hf row
  · rfl

theorem filter_change_own (hf : ∀ row, key (f row) = key row) (rows : List R) :
    (rows.map fun row => if key row = personUuid ∧ C row then f row else row).filter
        (key · = personUuid) =
      (rows.filter (key · = personUuid)).map fun row => if C row then f row else row := by
  rw [filter_map_of_key key (key_change key hf)]
  refine List.map_congr_left fun row hrow => ?_
  have hown : key row = personUuid := by simpa using (List.mem_filter.mp hrow).2
  simp [hown]

theorem filter_change_other (hf : ∀ row, key (f row) = key row) (hne : other ≠ personUuid)
    (rows : List R) :
    (rows.map fun row => if key row = personUuid ∧ C row then f row else row).filter
        (key · = other) = rows.filter (key · = other) := by
  rw [filter_map_of_key key (key_change key hf)]
  refine (List.map_congr_left fun row hrow => ?_).trans (List.map_id _)
  have hkey : key row = other := by simpa using (List.mem_filter.mp hrow).2
  have hother : key row ≠ personUuid := fun h => hne (hkey.symm.trans h)
  rw [if_neg fun h => hother h.1]
  rfl

end Change

theorem reconcileIdentifiers_other (hne : other ≠ personUuid) (rows : List Identifier)
    (wanted : List ((IdType × String) × Bool)) :
    (reconcileIdentifiers personUuid now rows wanted).1.filter (·.personUuid = other) =
      rows.filter (·.personUuid = other) := by
  induction rows generalizing wanted with
  | nil => rfl
  | cons row rows ih =>
    rw [reconcileIdentifiers]
    split
    · rename_i hlive
      -- a row of the person, whatever becomes of it
      have hrow : row.personUuid ≠ other := fun h => hne (h.symm.trans hlive.1)
      split
      · simp [hrow, ih]
      · dsimp only
        split <;> simp [hrow, releaseIdentifier, ih]
    · rw [List.filter_cons, List.filter_cons, ih]

theorem replaceIdentifiers_other (hne : other ≠ personUuid) {rows rows' : List Identifier}
    (h : replaceIdentifiers lower personUuid parsed now rows = .ok rows') :
    rows'.filter (·.personUuid = other) = rows.filter (·.personUuid = other) := by
  obtain ⟨rfl, -⟩ := Identity.addIdentifiers_ok h
  refine (filter_append_other Identifier.personUuid hne _ fun row hrow => ?_).trans
    (reconcileIdentifiers_other hne rows _)
  obtain ⟨entry, -, rfl⟩ := List.mem_map.mp hrow
  rfl

theorem writeIdentifiers_rows {rows rows' : List Identifier}
    (h : writeIdentifiers lower personUuid parsed now rows = .ok rows') :
    ∃ new, rows' = rows ++ new ∧ ∀ row ∈ new,
      row = issueIdentifier lower personUuid now .eppn parsed.userName true ∨
      (∃ email ∈ parsed.emails,
        row = issueIdentifier lower personUuid now .mail email.1 email.2) ∨
      ∃ number, parsed.employeeNumber = some number ∧
        row = issueIdentifier lower personUuid now .employeeId number true := by
  obtain ⟨rfl, -⟩ := Identity.addIdentifiers_ok h
  refine ⟨_, rfl, fun row hrow => ?_⟩
  simp only [List.cons_append, List.mem_cons, List.mem_append, List.mem_map] at hrow
  rcases hrow with rfl | ⟨email, hemail, rfl⟩ | hnumber
  · exact .inl rfl
  · exact .inr (.inl ⟨email, hemail, rfl⟩)
  · cases hemployee : parsed.employeeNumber with
    | none => simp [hemployee] at hnumber
    | some number =>
      rw [hemployee] at hnumber
      dsimp only at hnumber
      split at hnumber
      · cases hnumber
      · exact .inr (.inr ⟨number, rfl, List.mem_singleton.mp hnumber⟩)

theorem writeIdentifiers_other (hne : other ≠ personUuid) {rows rows' : List Identifier}
    (h : writeIdentifiers lower personUuid parsed now rows = .ok rows') :
    rows'.filter (·.personUuid = other) = rows.filter (·.personUuid = other) := by
  obtain ⟨new, rfl, hnew⟩ := writeIdentifiers_rows h
  refine filter_append_other Identifier.personUuid hne rows fun row hrow => ?_
  rcases hnew row hrow with rfl | ⟨email, -, rfl⟩ | ⟨number, -, rfl⟩ <;> rfl

theorem addAffiliations_other (hne : other ≠ personUuid) {sent : List ParsedAffiliation}
    {rows rows' : List Affiliation} (h : addAffiliations personUuid rows sent = .ok rows') :
    rows'.filter (·.personUuid = other) = rows.filter (·.personUuid = other) := by
  unfold addAffiliations at h
  split at h
  · cases h
  · obtain rfl := Except.ok.inj h
    refine filter_append_other Affiliation.personUuid hne rows fun row hrow => ?_
    obtain ⟨entry, -, rfl⟩ := List.mem_map.mp hrow
    rfl

theorem reconcileAffiliations_other (hne : other ≠ personUuid) (rows : List Affiliation)
    (wanted : List ((String × Int) × ParsedAffiliation)) :
    (reconcileAffiliations personUuid today rows wanted).1.filter (·.personUuid = other) =
      rows.filter (·.personUuid = other) := by
  induction rows generalizing wanted with
  | nil => rfl
  | cons row rows ih =>
    rw [reconcileAffiliations]
    split
    · rename_i hp
      have hrow : row.personUuid ≠ other := fun h => hne (h.symm.trans hp)
      split
      · simp [hrow, ih]
      · dsimp only
        split <;> simp [hrow, ih]
    · rw [List.filter_cons, List.filter_cons, ih]

theorem replaceAffiliations_other (hne : other ≠ personUuid) {rows rows' : List Affiliation}
    (h : replaceAffiliations personUuid parsed today rows = .ok rows') :
    rows'.filter (·.personUuid = other) = rows.filter (·.personUuid = other) := by
  rw [addAffiliations_other hne h, reconcileAffiliations_other hne]

end Rows

/-! ## What is loaded -/

section Load

variable {Doc : Type} {registry registry' : Registry Doc} {personUuid other : String}

/-- **A record is loaded** from the rows of the person. -/
theorem Registry.load_eq_ok {record : UserRecord} :
    registry.load personUuid = .ok record ↔ ∃ person, registry.get personUuid = some person ∧
      record = ⟨person, registry.identifiers.filter (·.personUuid = personUuid),
        registry.affiliationsOf personUuid,
        (registry.sourceOf personUuid).bind ScimSourceRecord.externalId⟩ := by
  unfold Registry.load
  cases registry.get personUuid with
  | none => simp
  | some person =>
    rw [Except.ok.injEq]
    constructor
    · rintro rfl
      exact ⟨person, rfl, rfl⟩
    · rintro ⟨person', hperson, rfl⟩
      obtain rfl := Option.some.inj hperson
      rfl

theorem Registry.load_of_get {person : Person} (h : registry.get personUuid = some person) :
    registry.load personUuid = .ok ⟨person, registry.identifiers.filter (·.personUuid = personUuid),
      registry.affiliationsOf personUuid,
      (registry.sourceOf personUuid).bind ScimSourceRecord.externalId⟩ :=
  Registry.load_eq_ok.mpr ⟨person, h, rfl⟩

/-- The rows of a person are as they were. -/
structure Registry.Untouched (registry registry' : Registry Doc) (personUuid : String) : Prop where
  get : registry'.get personUuid = registry.get personUuid
  identifiers : registry'.identifiers.filter (·.personUuid = personUuid) =
    registry.identifiers.filter (·.personUuid = personUuid)
  affiliations : registry'.affiliationsOf personUuid = registry.affiliationsOf personUuid
  source : registry'.sourceOf personUuid = registry.sourceOf personUuid

/-- **Untouched rows load as they did.** -/
theorem Registry.Untouched.load (h : registry.Untouched registry' personUuid) :
    registry'.load personUuid = registry.load personUuid := by
  unfold Registry.load
  rw [h.get, h.identifiers, h.affiliations, h.source]

theorem get_updatePerson_other (hne : other ≠ personUuid) {f : Person → Person}
    (hf : ∀ person, (f person).personUuid = person.personUuid)
    (hpersons : registry'.persons = registry.updatePerson personUuid f) :
    registry'.get other = registry.get other := by
  unfold Registry.get
  rw [hpersons, Registry.updatePerson, find?_map_of_key Person.personUuid]
  · cases hfind : registry.persons.find? (·.personUuid = other) with
    | none => rfl
    | some person =>
      have hkey : person.personUuid = other := by simpa using List.find?_some hfind
      have hother : person.personUuid ≠ personUuid := fun h => hne (hkey.symm.trans h)
      rw [Option.map_some, if_neg hother]
  · intro person
    split
    · exact hf person
    · rfl

theorem Registry.Untouched.trans {registry'' : Registry Doc}
    (h : registry.Untouched registry' personUuid) (h' : registry'.Untouched registry'' personUuid) :
    registry.Untouched registry'' personUuid :=
  ⟨h'.get.trans h.get, h'.identifiers.trans h.identifiers, h'.affiliations.trans h.affiliations,
    h'.source.trans h.source⟩

/-- Add a source record. -/
def Registry.addSource (registry : Registry Doc) (source : ScimSourceRecord Doc) : Registry Doc :=
  { registry with sources := registry.sources ++ [source] }

theorem Registry.untouched_addSource {source : ScimSourceRecord Doc}
    (hne : other ≠ source.personUuid) : registry.Untouched (registry.addSource source) other := by
  refine ⟨rfl, rfl, rfl, ?_⟩
  have hmiss : source.personUuid ≠ other := Ne.symm hne
  unfold Registry.sourceOf Registry.addSource
  rw [List.find?_append, List.find?_cons_of_neg (by simpa using hmiss), List.find?_nil,
    Option.or_none]

theorem Registry.sourceOf_addSource {source : ScimSourceRecord Doc}
    (h : registry.sourceOf source.personUuid = none) :
    (registry.addSource source).sourceOf source.personUuid = some source := by
  unfold Registry.sourceOf at h ⊢
  rw [Registry.addSource, List.find?_append, h, List.find?_cons_of_pos (by simp), Option.none_or]

theorem Registry.load_addSource (registry : Registry Doc) (source : ScimSourceRecord Doc)
    {record : UserRecord} (hnone : registry.sourceOf source.personUuid = none)
    (h : registry.load source.personUuid = .ok record) : record.externalId = none ∧
      (registry.addSource source).load source.personUuid =
        .ok { record with externalId := source.externalId } := by
  obtain ⟨person, hget, rfl⟩ := Registry.load_eq_ok.mp h
  have hget' : (registry.addSource source).get source.personUuid = some person := hget
  rw [Registry.load_of_get hget', Registry.sourceOf_addSource hnone, hnone]
  exact ⟨rfl, rfl⟩

/-- Write a document and a version into the source record of a person. -/
def Registry.updateSource (registry : Registry Doc) (personUuid : String) (raw : Doc)
    (version : String) : Registry Doc :=
  { registry with
    sources := registry.sources.map fun source =>
      if source.personUuid = personUuid then
        { source with rawResource := raw, version := version }
      else source }

theorem Registry.find_updateSource (registry : Registry Doc) (raw : Doc) (version : String) :
    (registry.updateSource personUuid raw version).sourceOf other =
      (registry.sourceOf other).map fun source =>
        if source.personUuid = personUuid then
          { source with rawResource := raw, version := version }
        else source := by
  refine find?_map_of_key ScimSourceRecord.personUuid (fun source => ?_) _ _
  split <;> rfl

theorem Registry.personUuid_of_sourceOf {source : ScimSourceRecord Doc}
    (h : registry.sourceOf personUuid = some source) : source.personUuid = personUuid := by
  simpa using List.find?_some h

theorem Registry.sourceOf_updateSource {source : ScimSourceRecord Doc}
    (h : registry.sourceOf personUuid = some source) (raw : Doc) (version : String) :
    (registry.updateSource personUuid raw version).sourceOf personUuid =
      some { source with rawResource := raw, version := version } := by
  rw [registry.find_updateSource, h, Option.map_some, if_pos (Registry.personUuid_of_sourceOf h)]

theorem Registry.untouched_updateSource (hne : other ≠ personUuid) (raw : Doc) (version : String) :
    registry.Untouched (registry.updateSource personUuid raw version) other := by
  refine ⟨rfl, rfl, rfl, ?_⟩
  rw [registry.find_updateSource]
  cases h : registry.sourceOf other with
  | none => rfl
  | some source =>
    have hother : source.personUuid ≠ personUuid := fun heq =>
      hne ((Registry.personUuid_of_sourceOf h).symm.trans heq)
    rw [Option.map_some, if_neg hother]

theorem Registry.load_updateSource {source : ScimSourceRecord Doc} {record : UserRecord}
    (hsource : registry.sourceOf personUuid = some source)
    (h : registry.load personUuid = .ok record) (raw : Doc) (version : String) :
    (registry.updateSource personUuid raw version).load personUuid = .ok record := by
  obtain ⟨person, hget, rfl⟩ := Registry.load_eq_ok.mp h
  have hget' : (registry.updateSource personUuid raw version).get personUuid = some person := hget
  rw [Registry.load_of_get hget', Registry.sourceOf_updateSource hsource, hsource]
  rfl

end Load

namespace UserStore

variable {Doc δ E : Type} {store : UserStore Doc δ E} {parsed : ParsedUser} {raw resource : Doc}
  {personUuid resourceId : String} {now today : Int} {registry registry' : Registry Doc}

/-- **A creation that is no replay**: the record that was projected is the one a read loads, but
for the external identifier. -/
theorem createRows_loads {created : Bool} (hnew : registry.knownSource parsed = none)
    (hsource : registry.sourceOf personUuid = none)
    (h : store.createRows parsed raw personUuid now registry = .ok (registry', resource, created)) :
    (∃ record : UserRecord, record.externalId = none ∧
      registry'.load personUuid = .ok { record with externalId := parsed.externalId } ∧
      registry'.sourceOf personUuid =
        some ⟨personUuid, parsed.externalId, raw, store.version (store.toScim record)⟩) ∧
    ∀ other ≠ personUuid, registry.Untouched registry' other := by
  obtain ⟨identifiers, affiliations, record, -, haff, hids, hload, hregistry, -, -⟩ :=
    store.createRows_new hnew h
  -- the tables as they are when the record is loaded
  generalize hwritten : Registry.mk (registry.persons ++
    [writePerson parsed { personUuid := personUuid }]) identifiers affiliations registry.sources =
      written at hload
  obtain rfl : registry' = written.addSource
      ⟨personUuid, parsed.externalId, raw, store.version (store.toScim record)⟩ := by
    rw [hregistry, ← hwritten]
    rfl
  have hnone : written.sourceOf personUuid = none := by
    subst hwritten
    exact hsource
  have huntouched : ∀ other ≠ personUuid, registry.Untouched written other := by
    intro other hne
    subst hwritten
    refine ⟨?_, writeIdentifiers_other hne hids, addAffiliations_other hne haff, rfl⟩
    have hmiss : (writePerson parsed { personUuid := personUuid }).personUuid ≠ other := Ne.symm hne
    unfold Registry.get
    rw [List.find?_append, List.find?_cons_of_neg (by simpa using hmiss), List.find?_nil,
      Option.or_none]
  obtain ⟨hexternal, hload'⟩ := Registry.load_addSource written
    ⟨personUuid, parsed.externalId, raw, store.version (store.toScim record)⟩ hnone hload
  exact ⟨⟨record, hexternal, hload', Registry.sourceOf_addSource hnone⟩,
    fun other hne => (huntouched other hne).trans (Registry.untouched_addSource hne)⟩

/-- **What `_finish` writes** is the version of the record that a read loads. -/
theorem finish_loads (h : store.finish personUuid raw registry = .ok (registry', resource)) :
    (∃ record source, registry'.load personUuid = .ok record ∧
      registry'.sourceOf personUuid = some source ∧
      source.version = store.version (store.toScim record)) ∧
    ∀ other ≠ personUuid, registry.Untouched registry' other := by
  unfold finish at h
  obtain ⟨record, hload, h⟩ := Eff.except_bind_eq_ok.mp h
  cases hs : registry.sourceOf personUuid with
  | none =>
    simp only [hs] at h
    cases h
    obtain ⟨hexternal, hload'⟩ := Registry.load_addSource registry
      ⟨personUuid, none, raw, store.version (store.toScim record)⟩ hs hload
    have hsame : { record with externalId := none } = record := by
      rw [← hexternal]
    rw [hsame] at hload'
    exact ⟨⟨record, _, hload', Registry.sourceOf_addSource hs, rfl⟩,
      fun other hne => Registry.untouched_addSource hne⟩
  | some source =>
    simp only [hs] at h
    cases h
    exact ⟨⟨record, _, Registry.load_updateSource hs hload raw _,
        Registry.sourceOf_updateSource hs raw _, rfl⟩,
      fun other hne => Registry.untouched_updateSource hne raw _⟩

/-- **A replacement.** -/
theorem replaceRows_loads {ifMatch : Option String} {before after : Finset String}
    (h : store.replaceRows resourceId parsed raw ifMatch now today registry =
      .ok (registry', resource, before, after)) :
    (∃ record source, registry'.load resourceId = .ok record ∧
      registry'.sourceOf resourceId = some source ∧
      source.version = store.version (store.toScim record)) ∧
    ∀ other ≠ resourceId, registry.Untouched registry' other := by
  obtain ⟨person, identifiers, affiliations, -, -, -, hids, haff, hfin, -, -⟩ :=
    store.replaceRows_cases h
  obtain ⟨hloads, huntouched⟩ := finish_loads hfin
  refine ⟨hloads, fun other hne => ?_⟩
  have hwritten : registry.Untouched ⟨registry.updatePerson resourceId (writePerson parsed),
      identifiers, affiliations, registry.sources⟩ other :=
    ⟨get_updatePerson_other hne (f := writePerson parsed) (fun _ => rfl) rfl,
      replaceIdentifiers_other hne hids, replaceAffiliations_other hne haff, rfl⟩
  exact hwritten.trans (huntouched other hne)

/-- A person's rows once they are deleted. -/
def deleted (now today : Int) (record : UserRecord) : UserRecord where
  person := { record.person with status := .deactivated }
  identifiers := record.identifiers.map fun row =>
    if row.Live then releaseIdentifier now row else row
  affiliations := record.affiliations.map fun row =>
    if row.Open then { row with validUntil := some today } else row
  externalId := record.externalId

/-- **A deletion** leaves the version of the person it is about as it was. -/
theorem softDeleteRows_loads {ifMatch : Option String} {before : Finset String}
    (h : softDeleteRows resourceId ifMatch now today registry = .ok (registry', before)) :
    (∃ record, registry.load resourceId = .ok record ∧
      registry'.load resourceId = .ok (deleted now today record)) ∧
    registry'.sources = registry.sources ∧
    ∀ other ≠ resourceId, registry.Untouched registry' other := by
  obtain ⟨-, hpersons, hidentifiers, haffiliations⟩ := softDeleteRows_ok h
  unfold softDeleteRows at h
  cases hget : registry.get resourceId with
  | none => simp [hget] at h
  | some person =>
    have hsources : registry'.sources = registry.sources := by
      simp only [hget] at h
      split at h
      · cases h
      · obtain ⟨-, -, h⟩ := Eff.except_bind_eq_ok.mp h
        cases h
        rfl
    have hsource : ∀ q, registry'.sourceOf q = registry.sourceOf q := fun q => by
      rw [Registry.sourceOf, Registry.sourceOf, hsources]
    have hperson := get_updatePerson registry (f := ({ · with status := .deactivated }))
      (fun _ => rfl) hpersons registry'.identifiers registry'.affiliations registry'.sources
    rw [hget] at hperson
    have hids : registry'.identifiers.filter (·.personUuid = resourceId) =
        (registry.identifiers.filter (·.personUuid = resourceId)).map fun row =>
          if row.Live then releaseIdentifier now row else row := by
      rw [hidentifiers]
      exact filter_change_own Identifier.personUuid (f := releaseIdentifier now)
        (C := Identifier.Live) (fun _ => rfl) _
    have haffs : registry'.affiliationsOf resourceId =
        (registry.affiliationsOf resourceId).map fun row =>
          if row.Open then { row with validUntil := some today } else row := by
      rw [Registry.affiliationsOf, haffiliations]
      exact filter_change_own Affiliation.personUuid
        (f := fun row => { row with validUntil := some today }) (C := Affiliation.Open)
        (fun _ => rfl) _
    refine ⟨⟨_, Registry.load_of_get hget, ?_⟩, hsources, fun other hne => ⟨?_, ?_, ?_, hsource _⟩⟩
    · rw [Registry.load_of_get hperson, hids, haffs, hsource]
      rfl
    · exact get_updatePerson_other hne (f := ({ · with status := .deactivated })) (fun _ => rfl)
        hpersons
    · rw [hidentifiers]
      exact filter_change_other Identifier.personUuid (f := releaseIdentifier now)
        (C := Identifier.Live) (fun _ => rfl) hne _
    · rw [Registry.affiliationsOf, haffiliations]
      exact filter_change_other Affiliation.personUuid
        (f := fun row => { row with validUntil := some today }) (C := Affiliation.Open)
        (fun _ => rfl) hne _

end UserStore

end CampusID
