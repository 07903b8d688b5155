import CampusID.Lib.Runs
import CampusID.Scim.Etags
import CampusID.Scim.Frames
import CampusID.Scim.Groups

/-!
# Do the versions of users mean what they say?

The version a read shows is taken over the document as it is now, from the person's rows, the
groups and the day.  The version an `If-Match` is compared with was stored by some earlier write.
So the stored one has to follow everything the document is made of, and it follows a replacement
only: a creation stores the version of the document without its external identifier, a deletion
and the writes of `/Groups` store none, and neither does midnight.

What has to hold is `UpToDate`, and it is a matter of one person at a time: a write to one person
leaves the others alone.  `version_follows` is about runs in which every step that is no
replacement leaves the documents as they are (`Keeps`).
-/

namespace CampusID
namespace Scim

open Lib
open Audit (Json)

/-- What the stores are set up with: the issuer, the permanent names of people, the digest of a
version, the collation of the database and `str.lower`. -/
structure Service where
  issuer : String
  uniqueId : String → String
  digest : HexDigest
  collate : String → String → Bool := fun a b => a ≤ b
  lower : String → String := Text.lower

/-- The tables, and what the clock says. -/
structure State where
  registry : Registry Json := {}
  tables : GroupTables := {}
  now : Int
  today : Int

/-- A user as a read shows it: the document, and the version in its `meta`. -/
structure Shown where
  document : Json
  version : String

/-- What happens: the writes of `UserStore` and `GroupStore`, with the identifiers the database
draws, and time. -/
inductive Op where
  | create (personUuid : String) (parsed : ParsedUser) (raw : Json)
  | replace (resourceId : String) (parsed : ParsedUser) (raw : Json) (ifMatch : Option String)
  | applyPatched (resourceId : String) (parsed : ParsedUser) (raw : Json) (ifMatch : Option String)
  | softDelete (resourceId : String) (ifMatch : Option String)
  | createGroup (groupUuid : String) (parsed : ParsedGroup)
  | replaceGroup (groupId : String) (parsed : ParsedGroup) (ifMatch : Option String)
  | patchGroup (groupId : String) (operations : List GroupOperation) (ifMatch : Option String)
  | deleteGroup (groupId : String) (ifMatch : Option String)
  | pass (now today : Int)

namespace Service

variable (scim : Service)

/-- `to_scim` of a record that is loaded now. -/
def project (s : State) (record : UserRecord) : Json :=
  toScim scim.issuer scim.uniqueId s.today
    { record with groups := s.tables.groupsOf scim.collate record.person.personUuid }

/-- `UserStore`, as it is now. -/
def store (s : State) : UserStore Json Unit Unit where
  toScim := scim.project s
  version := scim.digest.etag
  lower := scim.lower

/-- `UserStore.get`. -/
def get (s : State) (resourceId : String) : Except StoreError Shown :=
  match s.registry.load resourceId with
  | .ok record => .ok ⟨scim.project s record, scim.digest.etag (scim.project s record)⟩
  | .error _ => .error (notFound resourceId)

/-- A write to the registry. -/
def withRegistry {α : Type} (s : State) (x : Except StoreError (Registry Json × α)) :
    Except StoreError State :=
  x.map fun written => { s with registry := written.1 }

/-- A write to the groups. -/
def withTables (s : State) (x : Except StoreError GroupTables) : Except StoreError State :=
  x.map fun tables => { s with tables := tables }

/-- One operation.  A primary key is not drawn twice. -/
def attempt (s : State) : Op → Except StoreError State
  | .create personUuid parsed raw =>
    if (s.registry.knownSource parsed).isNone && (s.registry.get personUuid).isSome then
      .error .integrity
    else withRegistry s ((scim.store s).createRows parsed raw personUuid s.now s.registry)
  | .replace resourceId parsed raw ifMatch =>
    withRegistry s
      ((scim.store s).replaceRows resourceId parsed raw ifMatch s.now s.today s.registry)
  | .applyPatched resourceId parsed raw ifMatch =>
    withRegistry s
      ((scim.store s).replaceRows resourceId parsed raw ifMatch s.now s.today s.registry)
  | .softDelete resourceId ifMatch =>
    withRegistry s (UserStore.softDeleteRows resourceId ifMatch s.now s.today s.registry)
  | .createGroup groupUuid parsed =>
    withTables s (s.tables.create s.registry.persons s.now groupUuid parsed)
  | .replaceGroup groupId parsed ifMatch =>
    withTables s (s.tables.replace s.registry.persons s.now groupId parsed ifMatch)
  | .patchGroup groupId operations ifMatch =>
    withTables s
      (s.tables.patch s.registry.persons scim.uniqueId s.now groupId operations ifMatch)
  | .deleteGroup groupId ifMatch => withTables s (s.tables.delete groupId ifMatch)
  | .pass now today => .ok { s with now := now, today := today }

/-- One operation: a refusal changes nothing. -/
def step (s : State) (op : Op) : State :=
  match scim.attempt s op with
  | .ok s' => s'
  | .error _ => s

/-- `_assert_version` accepts these tags for a user. -/
def Accepts (s : State) (resourceId ifMatch : String) : Prop :=
  assertVersion (s.registry.sourceOf resourceId) (some ifMatch) = .ok ()

instance (s : State) (resourceId ifMatch : String) : Decidable (Accepts s resourceId ifMatch) :=
  decidable_of_iff (∃ source ∈ s.registry.sourceOf resourceId,
    source.version ∈ candidates ifMatch) <| by
    unfold Accepts assertVersion
    cases s.registry.sourceOf resourceId with
    | none => simp
    | some source => simp

/-! ## Steps that keep the versions -/

/-- The identifiers of a person, all released. -/
def released (now : Int) (identifiers : List Identifier) : List Identifier :=
  identifiers.map fun row => if row.Live then releaseIdentifier now row else row

/-- Deleting the person shows nowhere: they are not active, have no live address and no open
affiliation, and their name and their number are read off the released rows as they are now. -/
structure Faded (now : Int) (record : UserRecord) : Prop where
  inactive : record.person.status ≠ .active
  noAddress : ∀ row ∈ record.identifiers, row.idType = .mail → ¬ row.Live
  noOpen : ∀ row ∈ record.affiliations, ¬ row.Open
  name : userName scim.uniqueId record.person (released now record.identifiers) =
    userName scim.uniqueId record.person record.identifiers
  number : given (primary (released now record.identifiers) .employeeId) =
    given (primary record.identifiers .employeeId)

/-- **What a step must not do** for the versions to stay right.

* A creation carries no external identifier, unless it is replayed.
* A deletion is of a person whose document does not show it.
* A write to a group neither adds nor removes a member, and renames or deletes no group that has
  members.
* Time leaves everybody the department they have. -/
def Keeps (s : State) : Op → Prop
  | .create _ parsed _ => given parsed.externalId = none ∨ s.registry.knownSource parsed ≠ none
  | .replace _ _ _ _ => True
  | .applyPatched _ _ _ _ => True
  | .softDelete resourceId _ =>
    ∀ record, s.registry.load resourceId = .ok record → scim.Faded s.now record
  | .createGroup groupUuid parsed => ∀ tables,
    s.tables.create s.registry.persons s.now groupUuid parsed = .ok tables → s.tables.Quiet tables
  | .replaceGroup groupId parsed ifMatch => ∀ tables,
    s.tables.replace s.registry.persons s.now groupId parsed ifMatch = .ok tables →
      s.tables.Quiet tables
  | .patchGroup groupId operations ifMatch => ∀ tables,
    s.tables.patch s.registry.persons scim.uniqueId s.now groupId operations ifMatch = .ok tables →
      s.tables.Quiet tables
  | .deleteGroup groupId ifMatch => ∀ tables,
    s.tables.delete groupId ifMatch = .ok tables → s.tables.Quiet tables
  | .pass _ today => ∀ person ∈ s.registry.persons,
    department today (s.registry.affiliationsOf person.personUuid) =
      department s.today (s.registry.affiliationsOf person.personUuid)

/-- A step that is refused, or meets the condition. -/
def Harmless (s : State) (op : Op) : Prop := (∃ e, scim.attempt s op = .error e) ∨ scim.Keeps s op

/-! ## What has to hold -/

/-- The version stored for a person is that of the document a read shows, and for nobody else a
version is stored. -/
def UpToDate (s : State) (personUuid : String) : Prop :=
  match s.registry.load personUuid with
  | .ok record => ∃ source, s.registry.sourceOf personUuid = some source ∧
      source.version = scim.digest.etag (scim.project s record)
  | .error _ => s.registry.sourceOf personUuid = none

variable {scim} {s s' : State} {personUuid resourceId : String}

theorem upToDate_of_load {record : UserRecord} (h : s.registry.load personUuid = .ok record) :
    scim.UpToDate s personUuid ↔ ∃ source, s.registry.sourceOf personUuid = some source ∧
      source.version = scim.digest.etag (scim.project s record) := by
  unfold UpToDate
  rw [h]

/-- **A step that leaves a person's document and version alone** leaves them up to date. -/
theorem UpToDate.congr (h : scim.UpToDate s personUuid)
    (hload : s'.registry.load personUuid = s.registry.load personUuid)
    (hsource : s'.registry.sourceOf personUuid = s.registry.sourceOf personUuid)
    (hproject : ∀ record, s.registry.load personUuid = .ok record →
      scim.project s' record = scim.project s record) : scim.UpToDate s' personUuid := by
  unfold UpToDate at h ⊢
  rw [hload, hsource]
  cases hrecord : s.registry.load personUuid with
  | error e =>
    rw [hrecord] at h
    exact h
  | ok record =>
    rw [hrecord] at h
    dsimp only at h ⊢
    rw [hproject record hrecord]
    exact h

theorem UpToDate.of_untouched {registry : Registry Json} (h : scim.UpToDate s personUuid)
    (hu : s.registry.Untouched registry personUuid) :
    scim.UpToDate { s with registry := registry } personUuid :=
  h.congr hu.load hu.source fun _ _ => rfl

theorem project_externalId {record : UserRecord} {externalId : Option String}
    (hnone : record.externalId = none) (hgiven : given externalId = none) :
    scim.project s { record with externalId := externalId } = scim.project s record :=
  toScim_congr rfl rfl Iff.rfl (by rw [hnone, hgiven]; rfl) rfl rfl rfl rfl rfl

theorem withRegistry_eq_ok {α : Type} {x : Except StoreError (Registry Json × α)} :
    withRegistry s x = .ok s' ↔
      ∃ registry a, x = .ok (registry, a) ∧ s' = { s with registry := registry } := by
  cases x with
  | error e => simp [withRegistry, Except.map]
  | ok written =>
    constructor
    · intro h
      cases h
      exact ⟨_, _, rfl, rfl⟩
    · rintro ⟨registry, a, h, rfl⟩
      cases h
      rfl

theorem withTables_eq_ok {x : Except StoreError GroupTables} :
    withTables s x = .ok s' ↔ ∃ tables, x = .ok tables ∧ s' = { s with tables := tables } := by
  cases x with
  | error e => simp [withTables, Except.map]
  | ok tables =>
    constructor
    · intro h
      cases h
      exact ⟨_, rfl, rfl⟩
    · rintro ⟨tables, h, rfl⟩
      cases h
      rfl

theorem upToDate_create {parsed : ParsedUser} {raw : Json} (hall : ∀ p, scim.UpToDate s p)
    (hgiven : given parsed.externalId = none ∨ s.registry.knownSource parsed ≠ none)
    (h : scim.attempt s (.create personUuid parsed raw) = .ok s') (p : String) :
    scim.UpToDate s' p := by
  rw [attempt] at h
  split at h
  · cases h
  · rename_i hfree
    obtain ⟨registry, ⟨resource, created⟩, hrows, rfl⟩ := withRegistry_eq_ok.mp h
    cases hknown : s.registry.knownSource parsed with
    | some source =>
      obtain ⟨rfl, -⟩ := UserStore.createRows_of_known _ (by simp [hknown]) hrows
      exact hall p
    | none =>
      have hget : s.registry.get personUuid = none := by simpa [hknown] using hfree
      have hsource : s.registry.sourceOf personUuid = none := by
        have hown := hall personUuid
        unfold UpToDate Registry.load at hown
        rwa [hget] at hown
      obtain ⟨⟨record, hexternal, hload, hstored⟩, hothers⟩ :=
        UserStore.createRows_loads hknown hsource hrows
      by_cases hp : p = personUuid
      · subst hp
        refine (upToDate_of_load hload).mpr ⟨_, hstored, ?_⟩
        have hnone : given parsed.externalId = none :=
          hgiven.resolve_right fun hne => hne hknown
        exact congrArg scim.digest.etag (project_externalId hexternal hnone).symm
      · exact (hall p).of_untouched (hothers p hp)

/-- **A replacement stores the version of what is read later.** -/
theorem upToDate_replace {parsed : ParsedUser} {raw : Json} {ifMatch : Option String}
    (hall : ∀ p, scim.UpToDate s p)
    (h : withRegistry s ((scim.store s).replaceRows resourceId parsed raw ifMatch s.now s.today
      s.registry) = .ok s') (p : String) : scim.UpToDate s' p := by
  obtain ⟨registry, ⟨resource, before, after⟩, hrows, rfl⟩ := withRegistry_eq_ok.mp h
  obtain ⟨⟨record, source, hload, hsource, hversion⟩, hothers⟩ := UserStore.replaceRows_loads hrows
  by_cases hp : p = resourceId
  · subst hp
    exact (upToDate_of_load hload).mpr ⟨source, hsource, hversion⟩
  · exact (hall p).of_untouched (hothers p hp)

theorem project_deleted {record : UserRecord} (h : scim.Faded s.now record) :
    scim.project s (UserStore.deleted s.now s.today record) = scim.project s record := by
  have hemails : emails (UserStore.deleted s.now s.today record).identifiers =
      emails record.identifiers := by
    have hrow : ∀ row ∈ record.identifiers, (row.idType = .mail ∧ row.Live) = False :=
      fun row hrow => eq_false fun hmail => h.noAddress row hrow hmail.1 hmail.2
    have hreleased : ∀ row ∈ (UserStore.deleted s.now s.today record).identifiers,
        (row.idType = .mail ∧ row.Live) = False := by
      intro row hmem
      obtain ⟨old, hold, rfl⟩ := List.mem_map.mp hmem
      by_cases hlive : old.Live
      · rw [if_pos hlive]
        simp [releaseIdentifier, Identifier.Live]
      · rw [if_neg hlive]
        exact hrow old hold
    have hnone : ∀ rows : List Identifier, (∀ row ∈ rows, (row.idType = .mail ∧ row.Live) = False) →
        emails rows = [] := by
      intro rows hrows
      have hfilter : rows.filter (fun row => row.idType = .mail ∧ row.Live) = [] :=
        List.filter_eq_nil_iff.mpr fun row hmem => by simp [hrows row hmem]
      rw [emails, hfilter]
      rfl
    rw [hnone _ hreleased, hnone _ hrow]
  have haffiliations : (UserStore.deleted s.now s.today record).affiliations =
      record.affiliations := by
    refine (List.map_congr_left fun row hrow => ?_).trans (List.map_id _)
    rw [if_neg (h.noOpen row hrow)]
    rfl
  have hactive : (UserStore.deleted s.now s.today record).person.status = .active ↔
      record.person.status = .active :=
    ⟨fun hactive => (by cases hactive), fun hactive => absurd hactive h.inactive⟩
  exact toScim_congr rfl h.name hactive rfl hemails h.number (by rw [haffiliations])
    haffiliations rfl

theorem upToDate_softDelete {ifMatch : Option String} (hall : ∀ p, scim.UpToDate s p)
    (hfaded : ∀ record, s.registry.load resourceId = .ok record → scim.Faded s.now record)
    (h : scim.attempt s (.softDelete resourceId ifMatch) = .ok s') (p : String) :
    scim.UpToDate s' p := by
  obtain ⟨registry, before, hrows, rfl⟩ := withRegistry_eq_ok.mp h
  obtain ⟨⟨record, hload, hload'⟩, hsources, hothers⟩ := UserStore.softDeleteRows_loads hrows
  by_cases hp : p = resourceId
  · subst hp
    obtain ⟨source, hsource, hversion⟩ := (upToDate_of_load hload).mp (hall p)
    have hsource' : registry.sourceOf p = some source := by
      rw [← hsource, Registry.sourceOf, Registry.sourceOf, hsources]
    refine (upToDate_of_load hload').mpr ⟨source, hsource', ?_⟩
    rw [hversion]
    exact congrArg scim.digest.etag (project_deleted (hfaded record hload)).symm
  · exact (hall p).of_untouched (hothers p hp)

theorem upToDate_groups {x : Except StoreError GroupTables} (hall : ∀ p, scim.UpToDate s p)
    (hedited : ∀ tables, x = .ok tables → GroupTables.Edited s.tables.groups tables.groups)
    (hquiet : ∀ tables, x = .ok tables → s.tables.Quiet tables)
    (h : withTables s x = .ok s') (p : String) : scim.UpToDate s' p := by
  obtain ⟨tables, hx, rfl⟩ := withTables_eq_ok.mp h
  refine (hall p).congr rfl rfl fun record _ => ?_
  unfold project
  rw [GroupTables.groupsOf_of_quiet scim.collate (hedited tables hx) (hquiet tables hx)]

theorem upToDate_pass {now today : Int} (hall : ∀ p, scim.UpToDate s p)
    (hdepartment : ∀ person ∈ s.registry.persons,
      department today (s.registry.affiliationsOf person.personUuid) =
        department s.today (s.registry.affiliationsOf person.personUuid)) (p : String) :
    scim.UpToDate { s with now := now, today := today } p := by
  refine (hall p).congr rfl rfl fun record hload => ?_
  obtain ⟨person, hget, rfl⟩ := Registry.load_eq_ok.mp hload
  have hown : person.personUuid = p := by simpa using List.find?_some hget
  have hsame := hdepartment person (List.mem_of_find?_eq_some hget)
  rw [hown] at hsame
  exact toScim_of_department hsame

/-- **A harmless step keeps everybody up to date.** -/
theorem upToDate_step {op : Op} (hall : ∀ p, scim.UpToDate s p) (h : scim.Harmless s op) :
    ∀ p, scim.UpToDate (scim.step s op) p := by
  unfold step
  cases hx : scim.attempt s op with
  | error e => exact hall
  | ok s' =>
    have hkeeps : scim.Keeps s op := h.resolve_left fun ⟨e, he⟩ => by cases hx.symm.trans he
    cases op with
    | create personUuid parsed raw => exact upToDate_create hall hkeeps hx
    | replace resourceId parsed raw ifMatch => exact upToDate_replace hall hx
    | applyPatched resourceId parsed raw ifMatch => exact upToDate_replace hall hx
    | softDelete resourceId ifMatch => exact upToDate_softDelete hall hkeeps hx
    | createGroup groupUuid parsed =>
      exact upToDate_groups hall (fun _ => GroupTables.create_edited) hkeeps hx
    | replaceGroup groupId parsed ifMatch =>
      exact upToDate_groups hall (fun _ => GroupTables.replace_edited) hkeeps hx
    | patchGroup groupId operations ifMatch =>
      exact upToDate_groups hall (fun _ => GroupTables.patch_edited) hkeeps hx
    | deleteGroup groupId ifMatch =>
      exact upToDate_groups hall (fun _ => GroupTables.delete_edited) hkeeps hx
    | pass now today =>
      cases hx
      exact upToDate_pass hall hkeeps

/-! ## What a version says -/

/-- Nothing has happened yet. -/
def start (now today : Int) : State := { now := now, today := today }

theorem upToDate_start (now today : Int) (p : String) : scim.UpToDate (start now today) p := rfl

theorem accepts_iff {source : ScimSourceRecord Json}
    (h : s.registry.sourceOf resourceId = some source) (ifMatch : String) :
    Accepts s resourceId ifMatch ↔ source.version ∈ candidates ifMatch := by
  unfold Accepts assertVersion
  rw [h]
  dsimp only
  split <;> simp_all

theorem get_eq_ok {shown : Shown} (h : scim.get s resourceId = .ok shown) :
    ∃ record, s.registry.load resourceId = .ok record ∧
      shown = ⟨scim.project s record, scim.digest.etag (scim.project s record)⟩ := by
  unfold get at h
  cases hload : s.registry.load resourceId with
  | error e =>
    rw [hload] at h
    cases h
  | ok record =>
    rw [hload] at h
    cases h
    exact ⟨record, rfl, rfl⟩

/-- **Where everybody is up to date**, a version of some document is accepted for a user exactly
when it is the one a read shows. -/
theorem accepts_etag_iff {shown : Shown} (hall : ∀ p, scim.UpToDate s p)
    (h : scim.get s resourceId = .ok shown) (document : Json) :
    Accepts s resourceId (scim.digest.etag document) ↔
      scim.digest.etag shown.document = scim.digest.etag document := by
  obtain ⟨record, hload, rfl⟩ := get_eq_ok h
  obtain ⟨source, hsource, hversion⟩ := (upToDate_of_load hload).mp (hall resourceId)
  rw [accepts_iff hsource, hversion, etag_mem_candidates]

/-- **Versions mean what they say** in every run of harmless steps: the version a read shows is
accepted, and that of an earlier read is refused once the document is another. -/
theorem version_follows {now today : Int} {first second : List Op} {t : State}
    (hfirst : Run scim.Harmless scim.step (start now today) first s)
    (hsecond : Run scim.Harmless scim.step s second t) {earlier later : Shown}
    (hearlier : scim.get s resourceId = .ok earlier) (hlater : scim.get t resourceId = .ok later) :
    Accepts t resourceId later.version ∧
      (scim.digest.Separates later.document earlier.document →
        earlier.document.normal ≠ later.document.normal →
          ¬ Accepts t resourceId earlier.version) := by
  have hs := hfirst.invariant (fun _ _ hall hop => upToDate_step hall hop) (upToDate_start now today)
  have ht := hsecond.invariant (fun _ _ hall hop => upToDate_step hall hop) hs
  have haccepts := accepts_etag_iff ht hlater
  obtain ⟨before, -, rfl⟩ := get_eq_ok hearlier
  obtain ⟨after, -, rfl⟩ := get_eq_ok hlater
  refine ⟨(haccepts _).mpr rfl, fun hseparates hdiffer haccepted => hdiffer ?_⟩
  exact (normal_eq_of_etag_eq hseparates (dumps_toScim _ _ _ _) (dumps_toScim _ _ _ _)
    ((haccepts _).mp haccepted)).symm

/-! ### A user who is renamed -/

/-- The text of the document of a user, with what may stand between name and identifier. -/
def sampleText (displayName externalId : String) : String :=
  "\x7b\"active\":true,\"displayName\":\"" ++ displayName ++ "\"," ++ externalId ++
    "\"id\":\"6f1c2b9e-0d57-4a54-9c1e-3b7a2f4d8e10\",\"name\":\x7b\"formatted\":\"" ++
    displayName ++ "\"\x7d,\"schemas\":[\"urn:ietf:params:scim:schemas:core:2.0:User\"]," ++
    "\"userName\":\"ada@uni.edu\"\x7d"

/-- SHA-256 of three documents. -/
def sampleDigest : HexDigest where
  text s :=
    if s = sampleText "Ada" "" then "55d1f81381ea49b207ded8d0a10c73cd"
    else if s = sampleText "Ada L." "" then "e2acd952f0cb8ee8ca525913629ad8b3"
    else if s = sampleText "Ada" "\"externalId\":\"sis-1\"," then "07d67a8cef5d1918cc2165d667834d89"
    else "00000000000000000000000000000000"
  hex s := by
    split_ifs <;> simp

/-- The stores of one university. -/
def sampleService : Service where
  issuer := "https://id.uni.edu"
  uniqueId personUuid := personUuid ++ "@uni.edu"
  digest := sampleDigest

def samplePerson : String := "6f1c2b9e-0d57-4a54-9c1e-3b7a2f4d8e10"

/-- What the client sends, with or without a key of its own. -/
def sampleUser (displayName : String) (externalId : Option String) : ParsedUser where
  userName := "ada@uni.edu"
  externalId := externalId
  displayName := some displayName

def sampleCreation : Op := .create samplePerson (sampleUser "Ada" none) .null

def sampleRenaming : Op := .replace samplePerson (sampleUser "Ada L." none) .null none

/-- After the creation, and after the renaming. -/
def createdState : State := sampleService.step (start 0 738000) sampleCreation

def renamedState : State := sampleService.step createdState sampleRenaming

/-- What a read shows, where it shows something. -/
def seen (s : State) : Shown :=
  match sampleService.get s samplePerson with
  | .ok shown => shown
  | .error _ => ⟨.null, ""⟩

theorem get_eq_seen (h : (sampleService.get s samplePerson).isOk = true) :
    sampleService.get s samplePerson = .ok (seen s) := by
  unfold seen
  cases hget : sampleService.get s samplePerson with
  | ok shown => rfl
  | error e =>
    rw [hget] at h
    cases h

/-- The display name in a document. -/
def displayNameIn : Json → Option String
  | .dict entries => entries.findSome? fun entry =>
      match entry with
      | ("displayName", .str text) => some text
      | _ => none
  | _ => none

theorem canonical_of_text {document : Json} {name id : String}
    (h : Audit.okD (Audit.dumps document) "" = sampleText name id)
    (hname : name.toList.all (·.toNat < 127)) (hid : id.toList.all (·.toNat < 127)) :
    canonical document = sampleText name id := by
  have happ {s t : String} (hs : s.toList.all (·.toNat < 127)) (ht : t.toList.all (·.toNat < 127)) :
      (s ++ t).toList.all (·.toNat < 127) := by
    rw [String.toList_append, List.all_append, hs, ht]
    rfl
  have htext : (sampleText name id).toList.all (·.toNat < 127) := by
    refine happ (happ (happ (happ (happ (happ (happ ?_ hname) ?_) hid) ?_) hname) ?_) ?_ <;>
      decide +kernel
  have hascii : ∀ c ∈ (sampleText name id).toList, c.toNat < 127 := fun c hc =>
    of_decide_eq_true (List.all_eq_true.mp htext c hc)
  rw [canonical, h, Audit.asciiText, Audit.flatMap_ascii_of_lt hascii, String.ofList_toList]

theorem canonical_created : canonical (seen createdState).document = sampleText "Ada" "" :=
  canonical_of_text (by decide +kernel) (by decide) (by decide)

theorem canonical_renamed : canonical (seen renamedState).document = sampleText "Ada L." "" :=
  canonical_of_text (by decide +kernel) (by decide) (by decide)

/-- The version of the renamed user is accepted, and the one from before the renaming is not. -/
theorem version_follows_renaming :
    Accepts renamedState samplePerson (seen renamedState).version ∧
      ¬ Accepts renamedState samplePerson (seen createdState).version := by
  have hfirst : Run sampleService.Harmless sampleService.step (start 0 738000) [sampleCreation]
      createdState := .cons (.inr (.inl rfl)) (.nil _)
  have hsecond : Run sampleService.Harmless sampleService.step createdState [sampleRenaming]
      renamedState := .cons (.inr trivial) (.nil _)
  obtain ⟨haccepted, hrefused⟩ := version_follows hfirst hsecond
    (get_eq_seen (s := createdState) (by decide +kernel))
    (get_eq_seen (s := renamedState) (by decide +kernel))
  refine ⟨haccepted, hrefused (fun heq => ?_) fun hnormal => ?_⟩
  · rw [canonical_renamed, canonical_created] at heq
    exact absurd heq (by decide +kernel)
  · exact absurd (congrArg displayNameIn hnormal) (by decide +kernel)

/-! ### A user with a key of the client's -/

/-- After a creation that carries an external identifier. -/
def numberedState : State :=
  sampleService.step (start 0 738000) (.create samplePerson (sampleUser "Ada" (some "sis-1")) .null)

theorem canonical_numbered : canonical (seen numberedState).document =
    sampleText "Ada" "\"externalId\":\"sis-1\"," :=
  canonical_of_text (by decide +kernel) (by decide) (by decide)

theorem sourceOf_numbered : numberedState.registry.sourceOf samplePerson =
    some ⟨samplePerson, some "sis-1", .null, sampleDigest.etag (seen createdState).document⟩ :=
  rfl

/-- The version that is read right after the creation is refused. -/
theorem own_version_refused : ¬ ∀ shown, sampleService.get numberedState samplePerson = .ok shown →
    Accepts numberedState samplePerson shown.version := by
  intro h
  have hget := get_eq_seen (s := numberedState) (by decide +kernel)
  obtain ⟨record, -, hshown⟩ := get_eq_ok hget
  have haccepted := h _ hget
  have hversion : (seen numberedState).version =
      sampleDigest.etag (seen numberedState).document := by
    rw [hshown]
    rfl
  rw [hversion, accepts_iff sourceOf_numbered, etag_mem_candidates, HexDigest.etag, HexDigest.etag,
    canonical_created, canonical_numbered] at haccepted
  exact absurd haccepted (by decide +kernel)

end Service
end Scim
end CampusID
