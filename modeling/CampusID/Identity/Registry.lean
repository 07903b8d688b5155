import CampusID.Text
import Mathlib.Data.List.Sort

/-!
# The identity registry

The tables a person lives in: the person, the identifiers they are or were known by,
their affiliations over time, and the SCIM source record.  An identifier is
tombstoned, never deleted, and the unique constraint on it covers the tombstones; an
affiliation is closed by a date.

The queries here are the ones the lifecycle asks: a person's identifiers in the order
they were issued, and their open affiliations.
-/

namespace CampusID

/-- `Person.status`. -/
inductive Status where
  | active
  | suspended
  | deactivated
  | archived
  deriving DecidableEq, Repr

/-- `Person`. -/
structure Person where
  personUuid : String
  displayName : Option String := none
  givenName : Option String := none
  surname : Option String := none
  preferredLanguage : Option String := none
  ferpaDirectorySuppressed : Bool := false
  status : Status := .active
  deriving DecidableEq, Repr

/-- `Identifier.id_type`. -/
inductive IdType where
  | eppn
  | mail
  | netid
  | samAccount
  | employeeId
  | studentId
  | orcid
  | uniqueId
  deriving DecidableEq, Repr

/-- `Identifier`: one external name for a person, and its history. -/
structure Identifier where
  personUuid : String
  idType : IdType
  value : String
  scope : Option String := none
  isPrimary : Bool := false
  issuedAt : Int
  releasedAt : Option Int := none
  deriving DecidableEq, Repr

/-- `Affiliation`: a time-bounded relationship between a person and the institution. -/
structure Affiliation where
  personUuid : String
  affiliation : String
  isPrimary : Bool := false
  orgUnit : Option String := none
  validFrom : Int
  validUntil : Option Int := none
  deriving DecidableEq, Repr

/-- `ScimSourceRecord`: the resource as it was last sent, of type `Doc`, and the version
handed out for it. -/
structure ScimSourceRecord (Doc : Type) where
  personUuid : String
  externalId : Option String := none
  rawResource : Doc
  version : String

/-- The tables of the registry. -/
structure Registry (Doc : Type) where
  persons : List Person := []
  identifiers : List Identifier := []
  affiliations : List Affiliation := []
  sources : List (ScimSourceRecord Doc) := []

/-- The row is not tombstoned. -/
def Identifier.Live (row : Identifier) : Prop := row.releasedAt = none

instance (row : Identifier) : Decidable row.Live := inferInstanceAs (Decidable (_ = _))

/-- The affiliation is open. -/
def Affiliation.Open (row : Affiliation) : Prop := row.validUntil = none

instance (row : Affiliation) : Decidable row.Open := inferInstanceAs (Decidable (_ = _))

namespace Registry

variable {Doc : Type} (registry : Registry Doc)

/-- `IdentityRegistry.get`. -/
def get (personUuid : String) : Option Person :=
  registry.persons.find? (·.personUuid = personUuid)

/-- `IdentityRegistry.identifiers` with the released ones: in the order they were
issued. -/
def allIdentifiers (personUuid : String) : List Identifier :=
  (registry.identifiers.filter (·.personUuid = personUuid)).insertionSort
    (·.issuedAt ≤ ·.issuedAt)

/-- `IdentityRegistry.identifiers`: the live ones. -/
def liveIdentifiers (personUuid : String) : List Identifier :=
  (registry.allIdentifiers personUuid).filter (·.Live)

/-- A person's affiliation rows. -/
def affiliationsOf (personUuid : String) : List Affiliation :=
  registry.affiliations.filter (·.personUuid = personUuid)

/-- The values of a person's open affiliations. -/
def openAffiliations (personUuid : String) : Finset String :=
  (((registry.affiliationsOf personUuid).filter (·.Open)).map Affiliation.affiliation).toFinset

/-- The source record of a person. -/
def sourceOf (personUuid : String) : Option (ScimSourceRecord Doc) :=
  registry.sources.find? (·.personUuid = personUuid)

/-- `_by_live_eppn` without the person's status: who holds this ePPN now. -/
def liveEppn (value : String) : Option Identifier :=
  registry.identifiers.find? fun row => row.idType = .eppn ∧ row.value = value ∧ row.Live

theorem mem_openAffiliations {personUuid value : String} :
    value ∈ registry.openAffiliations personUuid ↔ ∃ row ∈ registry.affiliations,
      row.personUuid = personUuid ∧ row.Open ∧ row.affiliation = value := by
  simp [openAffiliations, affiliationsOf, and_assoc, and_left_comm]

theorem openAffiliations_eq_empty {personUuid : String} :
    registry.openAffiliations personUuid = ∅ ↔
      ∀ row ∈ registry.affiliations, row.personUuid = personUuid → ¬ row.Open := by
  rw [Finset.eq_empty_iff_forall_notMem]
  constructor
  · intro h row hrow hp hopen
    exact h row.affiliation (registry.mem_openAffiliations.mpr ⟨row, hrow, hp, hopen, rfl⟩)
  · intro h value hv
    obtain ⟨row, hrow, hp, hopen, -⟩ := registry.mem_openAffiliations.mp hv
    exact h row hrow hp hopen

end Registry

end CampusID
