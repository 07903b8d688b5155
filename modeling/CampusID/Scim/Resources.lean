import CampusID.Audit.AsciiText
import CampusID.Scim.Transitions

/-!
# The document of a person

`to_scim`: a person, with their identifiers, affiliations, external identifier and groups,
becomes one document.  `meta` is left out of it: the version is taken over the rest.

Two things in the document are not in the tables of the person.  The department is the
organisational unit of an affiliation that is in effect, so it depends on the day
(`toScim_of_department`), and the groups are the rows of `/Groups`.

A day is a number, counted as `date.toordinal` counts.  Attributes without a value are left out,
so what two records have to share for one document is less than the records themselves
(`toScim_congr`).
-/

namespace CampusID
namespace Scim

open Audit (Json Dumps)

/-- `CORE_USER`. -/
def coreUser : String := "urn:ietf:params:scim:schemas:core:2.0:User"

/-- `ENTERPRISE_USER`. -/
def enterpriseUser : String := "urn:ietf:params:scim:schemas:extension:enterprise:2.0:User"

/-- `CAMPUS_USER`. -/
def campusUser : String := "urn:campusid:scim:schemas:extension:2.0:User"

/-- `UserRecord` with the groups the person belongs to: identifier and display name. -/
structure Record extends UserRecord where
  groups : List (String × String) := []

/-! ## Parts of the document -/

/-- A text that is there and not empty. -/
def given (value : Option String) : Option String := value.filter (· ≠ "")

/-- An attribute, if it has a value. -/
def attr (name : String) (value : Option Json) : List (String × Json) :=
  value.toList.map fun json => (name, json)

/-- An object, if it has attributes. -/
def object (attributes : List (String × Json)) : Option Json :=
  if attributes.isEmpty then none else some (.dict attributes)

/-- An array, if it has elements. -/
def array (elements : List Json) : Option Json :=
  if elements.isEmpty then none else some (.list elements)

/-- The decimal digits of a number, in at least `width` places. -/
def padded (width n : Nat) : String :=
  let digits := toString n
  String.ofList (List.replicate (width - digits.length) '0') ++ digits

/-- `date.isoformat()`.  The year is counted from March, so that a leap day is its last. -/
def isoformat (ordinal : Int) : String :=
  let days := (ordinal + 305).toNat
  let era := days / 146097
  let doe := days % 146097
  let yoe := (doe - doe / 1460 + doe / 36524 - doe / 146096) / 365
  let doy := doe - (365 * yoe + yoe / 4 - yoe / 100)
  let mp := (5 * doy + 2) / 153
  let day := doy - (153 * mp + 2) / 5 + 1
  let month := if mp < 10 then mp + 3 else mp - 9
  let year := yoe + era * 400 + if month ≤ 2 then 1 else 0
  padded 4 year ++ "-" ++ padded 2 month ++ "-" ++ padded 2 day

example : isoformat 738000 = "2021-07-29" ∧ isoformat 737484 = "2020-02-29" := by decide

/-- The primary value among some identifiers, or else the first. -/
def chosen (candidates : List Identifier) : Option String :=
  (given ((candidates.find? (·.isPrimary)).map Identifier.value)).or
    (candidates.head?.map Identifier.value)

/-- `_primary`: a live identifier of the type, or else a released one. -/
def primary (identifiers : List Identifier) (idType : IdType) : Option String :=
  let ofType := identifiers.filter (·.idType = idType)
  (chosen (ofType.filter (·.Live))).or (chosen ofType)

/-- `_user_name`, with the permanent name of the person to fall back to. -/
def userName (uniqueId : String → String) (person : Person) (identifiers : List Identifier) :
    String :=
  (given (primary identifiers .eppn)).getD (uniqueId person.personUuid)

/-- `sorted(..., key=lambda i: (not i.is_primary, i.value))`. -/
def Before (a b : Identifier) : Prop :=
  (a.isPrimary = true ∧ b.isPrimary = false) ∨ (a.isPrimary = b.isPrimary ∧ a.value ≤ b.value)

instance (a b : Identifier) : Decidable (Before a b) := inferInstanceAs (Decidable (_ ∨ _))

/-- `_emails`. -/
def emails (identifiers : List Identifier) : List Json :=
  ((identifiers.filter fun row => row.idType = .mail ∧ row.Live).insertionSort Before).map fun row =>
    .dict [("value", .str row.value), ("type", .str "work"), ("primary", .bool row.isPrimary)]

/-- The organisational unit of the first affiliation of `_current` that has one. -/
def department (today : Int) (affiliations : List Affiliation) : Option String :=
  (affiliations.filter (·.Current today)).findSome? fun row => given row.orgUnit

/-- `_enterprise`. -/
def enterprise (today : Int) (record : Record) : List (String × Json) :=
  attr "employeeNumber" ((given (primary record.identifiers .employeeId)).map .str) ++
    attr "department" ((department today record.affiliations).map .str)

/-- An affiliation with its dates. -/
def affiliationJson (row : Affiliation) : Json :=
  .dict ([("value", .str row.affiliation), ("primary", .bool row.isPrimary)] ++
    attr "orgUnit" (row.orgUnit.map .str) ++ [("validFrom", .str (isoformat row.validFrom))] ++
    attr "validUntil" (row.validUntil.map fun day => .str (isoformat day)))

/-- `_campus`. -/
def campus (record : Record) : List (String × Json) :=
  attr "affiliations" (array ((record.affiliations.insertionSort fun a b =>
      a.validFrom ≤ b.validFrom).map affiliationJson)) ++
    attr "ferpaDirectorySuppressed"
      (if record.person.ferpaDirectorySuppressed then some (.bool true) else none)

/-- The name of a person. -/
def name (person : Person) : List (String × Json) :=
  attr "formatted" ((given person.displayName).map .str) ++
    attr "givenName" ((given person.givenName).map .str) ++
    attr "familyName" ((given person.surname).map .str)

/-- A group of the person. -/
def groupJson (issuer : String) (group : String × String) : Json :=
  .dict [("value", .str group.1), ("display", .str group.2), ("type", .str "direct"),
    ("$ref", .str (issuer ++ "/scim/v2/Groups/" ++ group.1))]

/-- `resource["schemas"]`. -/
def schemas (today : Int) (record : Record) : List Json :=
  (coreUser :: (if (enterprise today record).isEmpty then [] else [enterpriseUser]) ++
    if (campus record).isEmpty then [] else [campusUser]).map .str

/-- `to_scim` without `meta`. -/
def toScim (issuer : String) (uniqueId : String → String) (today : Int) (record : Record) : Json :=
  .dict ([("schemas", .list (schemas today record)), ("id", .str record.person.personUuid),
      ("userName", .str (userName uniqueId record.person record.identifiers)),
      ("active", .bool (record.person.status = .active))] ++
    attr "externalId" ((given record.externalId).map .str) ++
    attr "name" (object (name record.person)) ++
    attr "displayName" ((given record.person.displayName).map .str) ++
    attr "preferredLanguage" ((given record.person.preferredLanguage).map .str) ++
    attr "emails" (array (emails record.identifiers)) ++
    attr enterpriseUser (object (enterprise today record)) ++
    attr "groups" (array (record.groups.map (groupJson issuer))) ++
    attr campusUser (object (campus record)))

/-! ## The document has a text -/

theorem dumps_attr {name : String} {value : Option Json} (h : ∀ json ∈ value, Dumps json) :
    ∀ e ∈ attr name value, Dumps e.2 := by
  intro e he
  obtain ⟨json, hjson, rfl⟩ := List.mem_map.mp he
  exact h json (Option.mem_toList.mp hjson)

theorem dumps_attr_str (name : String) (value : Option String) :
    ∀ e ∈ attr name (value.map .str), Dumps e.2 := by
  refine dumps_attr fun json hjson => ?_
  obtain ⟨s, -, rfl⟩ := Option.mem_map.mp hjson
  exact Audit.dumps_str s

theorem dumps_object {attributes : List (String × Json)} (h : ∀ e ∈ attributes, Dumps e.2) :
    ∀ json ∈ object attributes, Dumps json := by
  intro json hjson
  unfold object at hjson
  split at hjson
  · cases hjson
  · obtain rfl := Option.mem_some.mp hjson
    exact .dict h

theorem dumps_array {elements : List Json} (h : ∀ json ∈ elements, Dumps json) :
    ∀ json ∈ array elements, Dumps json := by
  intro json hjson
  unfold array at hjson
  split at hjson
  · cases hjson
  · obtain rfl := Option.mem_some.mp hjson
    exact .list h

theorem dumps_append {l l' : List (String × Json)} (h : ∀ e ∈ l, Dumps e.2)
    (h' : ∀ e ∈ l', Dumps e.2) : ∀ e ∈ l ++ l', Dumps e.2 :=
  List.forall_mem_append.mpr ⟨h, h'⟩

theorem dumps_strings (texts : List String) : ∀ json ∈ texts.map Json.str, Dumps json := by
  intro json hjson
  obtain ⟨s, -, rfl⟩ := List.mem_map.mp hjson
  exact Audit.dumps_str s

theorem dumps_emails (identifiers : List Identifier) : ∀ json ∈ emails identifiers, Dumps json := by
  intro json hjson
  obtain ⟨row, -, rfl⟩ := List.mem_map.mp hjson
  refine .dict ?_
  simp [Audit.dumps_str, Audit.dumps_bool]

theorem dumps_enterprise (today : Int) (record : Record) :
    ∀ e ∈ enterprise today record, Dumps e.2 :=
  dumps_append (dumps_attr_str _ _) (dumps_attr_str _ _)

theorem dumps_affiliationJson (row : Affiliation) : Dumps (affiliationJson row) := by
  refine .dict (dumps_append (dumps_append (dumps_append ?_ (dumps_attr_str _ _)) ?_) ?_)
  · simp [Audit.dumps_str, Audit.dumps_bool]
  · simp [Audit.dumps_str]
  · refine dumps_attr fun json hjson => ?_
    obtain ⟨day, -, rfl⟩ := Option.mem_map.mp hjson
    exact Audit.dumps_str _

theorem dumps_campus (record : Record) : ∀ e ∈ campus record, Dumps e.2 := by
  refine dumps_append (dumps_attr (dumps_array fun json hjson => ?_)) (dumps_attr fun json hjson => ?_)
  · obtain ⟨row, -, rfl⟩ := List.mem_map.mp hjson
    exact dumps_affiliationJson row
  · split at hjson
    · obtain rfl := Option.mem_some.mp hjson
      exact Audit.dumps_bool true
    · cases hjson

theorem dumps_name (person : Person) : ∀ e ∈ name person, Dumps e.2 :=
  dumps_append (dumps_append (dumps_attr_str _ _) (dumps_attr_str _ _)) (dumps_attr_str _ _)

theorem dumps_groupJson (issuer : String) (group : String × String) :
    Dumps (groupJson issuer group) := by
  refine .dict ?_
  simp [Audit.dumps_str]

/-- **The document has a text**: it holds no number. -/
theorem dumps_toScim (issuer : String) (uniqueId : String → String) (today : Int)
    (record : Record) : Dumps (toScim issuer uniqueId today record) := by
  have hgroups : ∀ json ∈ record.groups.map (groupJson issuer), Dumps json := by
    intro json hjson
    obtain ⟨group, -, rfl⟩ := List.mem_map.mp hjson
    exact dumps_groupJson issuer group
  have hhead : ∀ e ∈ [("schemas", Json.list (schemas today record)),
      ("id", .str record.person.personUuid),
      ("userName", .str (userName uniqueId record.person record.identifiers)),
      ("active", .bool (record.person.status = .active))], Dumps e.2 := by
    have hschemas : Dumps (.list (schemas today record)) := .list (dumps_strings _)
    simp [hschemas, Audit.dumps_str, Audit.dumps_bool]
  refine .dict (dumps_append (dumps_append (dumps_append (dumps_append (dumps_append (dumps_append
    (dumps_append (dumps_append hhead ?_) ?_) ?_) ?_) ?_) ?_) ?_) ?_)
  · exact dumps_attr_str _ _
  · exact dumps_attr (dumps_object (dumps_name _))
  · exact dumps_attr_str _ _
  · exact dumps_attr_str _ _
  · exact dumps_attr (dumps_array (dumps_emails _))
  · exact dumps_attr (dumps_object (dumps_enterprise _ _))
  · exact dumps_attr (dumps_array hgroups)
  · exact dumps_attr (dumps_object (dumps_campus _))

/-! ## What the document depends on -/

/-- **What two records have to share** for one document on two days. -/
theorem toScim_congr {issuer : String} {uniqueId : String → String} {today today' : Int}
    {record record' : Record}
    (hperson : record'.person = { record.person with status := record'.person.status })
    (hname : userName uniqueId record'.person record'.identifiers =
      userName uniqueId record.person record.identifiers)
    (hactive : record'.person.status = .active ↔ record.person.status = .active)
    (hexternal : given record'.externalId = given record.externalId)
    (hemails : emails record'.identifiers = emails record.identifiers)
    (hemployee : given (primary record'.identifiers .employeeId) =
      given (primary record.identifiers .employeeId))
    (hdepartment : department today' record'.affiliations = department today record.affiliations)
    (haffiliations : record'.affiliations = record.affiliations)
    (hgroups : record'.groups = record.groups) :
    toScim issuer uniqueId today' record' = toScim issuer uniqueId today record := by
  have hid : record'.person.personUuid = record.person.personUuid := by
    rw [hperson]
  have hdisplay : record'.person.displayName = record.person.displayName := by
    rw [hperson]
  have hlanguage : record'.person.preferredLanguage = record.person.preferredLanguage := by
    rw [hperson]
  have hgiven : record'.person.givenName = record.person.givenName := by
    rw [hperson]
  have hsurname : record'.person.surname = record.person.surname := by
    rw [hperson]
  have hferpa : record'.person.ferpaDirectorySuppressed = record.person.ferpaDirectorySuppressed := by
    rw [hperson]
  have henterprise : enterprise today' record' = enterprise today record := by
    rw [enterprise, enterprise, hemployee, hdepartment]
  have hcampus : campus record' = campus record := by
    rw [campus, campus, haffiliations, hferpa]
  have hparts : name record'.person = name record.person := by
    rw [name, name, hdisplay, hgiven, hsurname]
  have hschemas : schemas today' record' = schemas today record := by
    rw [schemas, schemas, henterprise, hcampus]
  rw [toScim, toScim, hschemas, hid, hname, hexternal, hparts, hdisplay, hlanguage, hemails,
    henterprise, hgroups, hcampus, decide_eq_decide.mpr hactive]

/-- **The day is in the department only.** -/
theorem toScim_of_department {issuer : String} {uniqueId : String → String} {today today' : Int}
    {record : Record}
    (h : department today' record.affiliations = department today record.affiliations) :
    toScim issuer uniqueId today' record = toScim issuer uniqueId today record :=
  toScim_congr rfl rfl Iff.rfl rfl rfl rfl h rfl rfl

end Scim
end CampusID
