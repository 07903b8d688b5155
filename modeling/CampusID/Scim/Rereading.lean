import Mathlib.Data.List.DropRight
import CampusID.Scim.Etags
import CampusID.Scim.Reading

/-!
# What is made of a document that is sent back

`to_scim` shows the rows of a person, and `from_scim` reads them again.  A text comes back if it
is written as `from_scim` writes it: stripped, and lower-cased where it is an address
(`Clean`); a day comes back if the calendar has it.

So a document the broker made itself is refused for two things only, and neither is about a single
value: an affiliation that ended before it was to start, and two affiliations that are both
primary.  `fromScim_toScim` says so, and what is read otherwise (`echo`).
-/

namespace CampusID
namespace Scim

open Lib
open Audit (Json)

/-! ## Texts as they are kept -/

/-- What `_optional_string` gives: nothing, or a text with something in it. -/
def Kept (value : Option String) : Prop := ∀ text ∈ value, text ≠ "" ∧ Text.strip text = text

/-- A day comes back from its text. -/
def Readers.Day (py : Readers) (day : Int) : Prop := py.date (isoformat day) = some day

/-- What the language promises: lower-casing is done once, leaves white space and the sign of an
address where they are, and the calendar reads the days it writes. -/
structure Readers.Lawful (py : Readers) : Prop where
  lower_lower : ∀ text, py.lower (py.lower text) = py.lower text
  strip_lower : ∀ text, Text.strip (py.lower text) = py.lower (Text.strip text)
  at_lower : ∀ text, '@' ∈ text.toList → '@' ∈ (py.lower text).toList
  day_of_date : ∀ text day, py.date text = some day → py.Day day
  day_of_instant : ∀ text day, py.instant text = .day day → py.Day day

/-- The language on a day. -/
def Readers.on (py : Readers) (today : Int) : Readers := { py with today := today }

theorem Readers.Lawful.on {py : Readers} (h : py.Lawful) (today : Int) : (py.on today).Lawful :=
  ⟨h.lower_lower, h.strip_lower, h.at_lower, h.day_of_date, h.day_of_instant⟩

variable {py : Readers}

theorem Readers.Lawful.lower_strip (hpy : py.Lawful) (text : String) :
    py.lower (Text.strip (py.lower (Text.strip text))) = py.lower (Text.strip text) := by
  rw [hpy.strip_lower, Text.strip_strip, hpy.lower_lower]

theorem kept_of_truthy {text : String} : Kept (truthy (some (Text.strip text))) := by
  intro value hvalue
  obtain ⟨heq, hne⟩ := Option.filter_eq_some_iff.mp hvalue
  obtain rfl := Option.some.inj heq
  exact ⟨by simpa using hne, Text.strip_strip text⟩

theorem kept_optionalString (container : Object) (name : String) :
    Kept (optionalString container name) := by
  unfold optionalString
  split
  · exact kept_of_truthy
  · exact nofun

theorem Kept.or {value value' : Option String} (h : Kept value) (h' : Kept value') :
    Kept (value.or value') := by
  intro text htext
  rcases Option.or_eq_some_iff.mp htext with hfirst | ⟨-, hsecond⟩
  · exact h text hfirst
  · exact h' text hsecond

theorem Kept.given_eq {value : Option String} (h : Kept value) : given value = value := by
  cases value with
  | none => rfl
  | some text => exact if_pos (by simpa using (h text rfl).1)

theorem Kept.truthy_eq {text : String} (h : Kept (some text)) :
    truthy (some (Text.strip text)) = some text := by
  obtain ⟨hne, hstrip⟩ := h text rfl
  rw [hstrip]
  exact if_pos (by simpa using hne)

/-! ## What `from_scim` gives -/

/-- An affiliation as `from_scim` gives it. -/
structure CleanAffiliation (py : Readers) (sent : ParsedAffiliation) : Prop where
  value : py.lower (Text.strip sent.value) = sent.value
  orgUnit : Kept sent.orgUnit
  validFrom : py.Day sent.validFrom
  validUntil : ∀ day ∈ sent.validUntil, py.Day day

/-- A user as `from_scim` gives them. -/
structure Clean (py : Readers) (parsed : ParsedUser) : Prop where
  userName : py.lower (Text.strip parsed.userName) = parsed.userName ∧ parsed.userName ≠ ""
  displayName : Kept parsed.displayName
  givenName : Kept parsed.givenName
  surname : Kept parsed.surname
  preferredLanguage : Kept parsed.preferredLanguage
  employeeNumber : Kept parsed.employeeNumber
  emails : ∀ email ∈ parsed.emails,
    py.lower (Text.strip email.1) = email.1 ∧ '@' ∈ email.1.toList
  onePrimary : (parsed.emails.filter Prod.snd).length ≤ 1
  affiliations : ∀ sent ∈ parsed.affiliations, CleanAffiliation py sent

theorem CleanAffiliation.on {sent : ParsedAffiliation} {today : Int} :
    CleanAffiliation (py.on today) sent ↔ CleanAffiliation py sent :=
  ⟨fun h => ⟨h.value, h.orgUnit, h.validFrom, h.validUntil⟩,
    fun h => ⟨h.value, h.orgUnit, h.validFrom, h.validUntil⟩⟩

theorem Clean.of_on {parsed : ParsedUser} {today : Int} (h : Clean (py.on today) parsed) :
    Clean py parsed :=
  ⟨h.userName, h.displayName, h.givenName, h.surname, h.preferredLanguage, h.employeeNumber,
    h.emails, h.onePrimary, fun sent hsent => CleanAffiliation.on.mp (h.affiliations sent hsent)⟩

theorem day_of_parseDate (hpy : py.Lawful) {raw : Option Json} {field : String} {day : Int}
    (h : parseDate py raw field = .ok (some day)) : py.Day day := by
  unfold parseDate at h
  split at h
  · cases h
  · cases h
  · rename_i text
    split at h
    · split at h
      · next ordinal hinstant =>
        cases h
        exact hpy.day_of_instant _ _ hinstant
      · cases h
      · cases h
    · split at h
      · next ordinal hdate =>
        cases h
        exact hpy.day_of_date _ _ hdate
      · cases h
  · cases h

theorem clean_of_parseAffiliation (hpy : py.Lawful) (htoday : py.Day py.today) {entry : Json}
    {sent : ParsedAffiliation} (h : parseAffiliation py entry = .ok sent) :
    CleanAffiliation py sent := by
  unfold parseAffiliation at h
  split at h
  · rename_i members
    split at h
    · split at h
      · cases h
      · obtain ⟨validFrom, hfrom, h⟩ := Eff.except_bind_eq_ok.mp h
        obtain ⟨validUntil, huntil, h⟩ := Eff.except_bind_eq_ok.mp h
        unfold datedAffiliation at h
        split at h
        · cases h
        · cases h
          refine ⟨hpy.lower_strip _, kept_optionalString _ _, ?_, ?_⟩
          · cases validFrom with
            | none => exact htoday
            | some day => exact day_of_parseDate hpy hfrom
          · rintro day hday
            obtain rfl := Option.mem_def.mp hday
            exact day_of_parseDate hpy huntil
    · cases h
  · cases h

theorem clean_of_parseAffiliations (hpy : py.Lawful) (htoday : py.Day py.today)
    {raw : Option Json} {parsed : List ParsedAffiliation}
    (h : parseAffiliations py raw = .ok parsed) : ∀ sent ∈ parsed, CleanAffiliation py sent := by
  unfold parseAffiliations at h
  split at h
  · cases h
    exact nofun
  · cases h
    exact nofun
  · obtain ⟨read, hread, h⟩ := Eff.except_bind_eq_ok.mp h
    split at h
    · cases h
    · cases h
      intro sent hsent
      obtain ⟨entry, -, hentry⟩ := Eff.exists_of_mapM_eq_ok hread hsent
      exact clean_of_parseAffiliation hpy htoday hentry
  · cases h

theorem clean_of_parseEmail (hpy : py.Lawful) {entry : Json} {email : String × Bool}
    (h : parseEmail py entry = .ok email) :
    py.lower (Text.strip email.1) = email.1 ∧ '@' ∈ email.1.toList := by
  unfold parseEmail at h
  split at h
  · split at h
    · split at h
      · next hat =>
        cases h
        exact ⟨hpy.lower_strip _, hpy.at_lower _ (Text.mem_strip hat (by decide))⟩
      · cases h
    · cases h
  · cases h

theorem clean_of_parseEmails (hpy : py.Lawful) {raw : Option Json}
    {parsed : List (String × Bool)} (h : parseEmails py raw = .ok parsed) :
    (∀ email ∈ parsed, py.lower (Text.strip email.1) = email.1 ∧ '@' ∈ email.1.toList) ∧
      (parsed.filter Prod.snd).length ≤ 1 := by
  unfold parseEmails at h
  split at h
  · cases h
    exact ⟨nofun, Nat.zero_le _⟩
  · cases h
    exact ⟨nofun, Nat.zero_le _⟩
  · obtain ⟨read, hread, h⟩ := Eff.except_bind_eq_ok.mp h
    split at h
    · cases h
    · next hprimary =>
      cases h
      refine ⟨fun email hemail => ?_, not_lt.mp hprimary⟩
      obtain ⟨entry, -, hentry⟩ := Eff.exists_of_mapM_eq_ok hread hemail
      exact clean_of_parseEmail hpy hentry
  · cases h

/-- **What `from_scim` gives is clean.** -/
theorem clean_of_fromScim (hpy : py.Lawful) (htoday : py.Day py.today) {document : Json}
    {parsed : ParsedUser} (h : fromScim py document = .ok parsed) : Clean py parsed := by
  unfold fromScim at h
  split at h
  · rename_i document
    obtain ⟨userName, hname, h⟩ := Eff.except_bind_eq_ok.mp h
    obtain ⟨active, -, h⟩ := Eff.except_bind_eq_ok.mp h
    obtain ⟨emails, hemails, h⟩ := Eff.except_bind_eq_ok.mp h
    obtain ⟨affiliations, haffiliations, h⟩ := Eff.except_bind_eq_ok.mp h
    cases h
    obtain ⟨hclean, hone⟩ := clean_of_parseEmails hpy hemails
    refine ⟨?_, (kept_optionalString _ _).or (kept_optionalString _ _), kept_optionalString _ _,
      kept_optionalString _ _, kept_optionalString _ _, kept_optionalString _ _, hclean, hone,
      clean_of_parseAffiliations hpy htoday haffiliations⟩
    unfold readUserName at hname
    split at hname
    · split at hname
      · cases hname
      · next hne =>
        cases hname
        exact ⟨hpy.lower_strip _, fun hempty => hne (py.lower_eq_empty _ hempty)⟩
    · cases hname
  · cases h

/-! ## A day -/

theorem notMem_isoformat (day : Int) : 'T' ∉ (isoformat day).toList := by
  have hdigits : ∀ n : Nat, 'T' ∉ (toString n).toList := by
    intro n h
    have hchars : (toString n).toList = Nat.toDigits 10 n := String.toList_ofList
    rw [hchars] at h
    exact absurd (Nat.isDigit_of_mem_toDigits (by decide) (by decide) h) (by decide)
  have hpadded : ∀ width n : Nat, 'T' ∉ (padded width n).toList := by
    intro width n h
    rw [padded, String.toList_append, List.mem_append, String.toList_ofList] at h
    rcases h with hzero | hdigit
    · exact absurd (List.eq_of_mem_replicate hzero) (by decide)
    · exact hdigits n hdigit
  unfold isoformat
  simp only [String.toList_append, List.mem_append, not_or]
  exact ⟨⟨⟨⟨hpadded _ _, by decide⟩, hpadded _ _⟩, by decide⟩, hpadded _ _⟩

theorem parseDate_isoformat {day : Int} (h : py.Day day) (field : String) :
    parseDate py (some (.str (isoformat day))) field = .ok (some day) := by
  unfold parseDate
  dsimp only
  rw [if_neg (notMem_isoformat day), show py.date (isoformat day) = some day from h]

/-! ## What is shown comes back -/

@[simp] theorem lookup_attr (name key : String) (value : Option Json) :
    (attr name value).lookup key = if key = name then value else none := by
  cases value with
  | none => simp [attr]
  | some json =>
    by_cases hkey : key = name
    · simp [attr, hkey]
    · simp [attr, hkey, List.lookup_cons, beq_false_of_ne hkey]

theorem entriesOf_object (attributes : Object) :
    Patch.entriesOf ((object attributes).getD .null) = attributes := by
  cases attributes with
  | nil => rfl
  | cons entry attributes => rfl

theorem optionalString_of_lookup {container : Object} {name : String} {value : Option String}
    (hkept : Kept value) (h : container.lookup name = value.map .str) :
    optionalString container name = value := by
  unfold optionalString
  rw [h]
  cases value with
  | none => rfl
  | some text => exact hkept.truthy_eq

/-- The affiliation a row is read as. -/
def sentOf (row : Affiliation) : ParsedAffiliation :=
  ⟨row.affiliation, row.isPrimary, row.orgUnit, row.validFrom, row.validUntil⟩

/-- The affiliation does not end before it starts. -/
def Ordered (row : Affiliation) : Prop := ∀ ends ∈ row.validUntil, row.validFrom ≤ ends

instance (row : Affiliation) : Decidable (Ordered row) :=
  decidable_of_iff (row.validUntil.all (row.validFrom ≤ ·) = true) (by simp [Ordered, Option.all_eq_true])

theorem lookup_affiliationJson (row : Affiliation) (name : String) :
    (Patch.entriesOf (affiliationJson row)).lookup name =
      if name = "value" then some (.str row.affiliation)
      else if name = "primary" then some (.bool row.isPrimary)
      else if name = "orgUnit" then row.orgUnit.map .str
      else if name = "validFrom" then some (.str (isoformat row.validFrom))
      else if name = "validUntil" then row.validUntil.map fun day => .str (isoformat day)
      else none := by
  have hmembers : Patch.entriesOf (affiliationJson row) =
      attr "value" (some (.str row.affiliation)) ++ attr "primary" (some (.bool row.isPrimary)) ++
        attr "orgUnit" (row.orgUnit.map .str) ++
        attr "validFrom" (some (.str (isoformat row.validFrom))) ++
        attr "validUntil" (row.validUntil.map fun day => .str (isoformat day)) := rfl
  rw [hmembers]
  simp only [List.lookup_append, lookup_attr]
  by_cases hvalue : name = "value"
  · simp [hvalue]
  by_cases hprimary : name = "primary"
  · simp [hprimary]
  by_cases horg : name = "orgUnit"
  · simp [horg]
  by_cases hfrom : name = "validFrom"
  · simp [hfrom]
  · simp [hvalue, hprimary, horg, hfrom]

theorem parseAffiliation_json {row : Affiliation} (hne : row.affiliation ≠ "")
    (h : CleanAffiliation py (sentOf row)) : parseAffiliation py (affiliationJson row) =
      if Ordered row then .ok (sentOf row)
      else .error (.scim (invalidValue "an affiliation cannot end before it starts")) := by
  have hlookup := lookup_affiliationJson row
  obtain ⟨members, hmembers⟩ : ∃ members, affiliationJson row = .dict members := ⟨_, rfl⟩
  rw [hmembers] at hlookup ⊢
  change ∀ name, members.lookup name = _ at hlookup
  have hvalue : members.lookup "value" = some (.str row.affiliation) := hlookup _
  have hprimary : members.lookup "primary" = some (.bool row.isPrimary) := hlookup _
  have horg : members.lookup "orgUnit" = row.orgUnit.map .str := hlookup _
  have hfrom : members.lookup "validFrom" = some (.str (isoformat row.validFrom)) := hlookup _
  have huntil : members.lookup "validUntil" =
      row.validUntil.map fun day => .str (isoformat day) := hlookup _
  have hstarts : parseDate py (members.lookup "validFrom") "validFrom" =
      .ok (some row.validFrom) := by
    rw [hfrom]
    exact parseDate_isoformat h.validFrom _
  have hends : parseDate py (members.lookup "validUntil") "validUntil" = .ok row.validUntil := by
    rw [huntil]
    cases hu : row.validUntil with
    | none => rfl
    | some day => exact parseDate_isoformat (h.validUntil day hu) _
  have hread : parseAffiliation py (.dict members) =
      datedAffiliation py members row.affiliation row.validFrom row.validUntil := by
    unfold parseAffiliation
    dsimp only
    rw [hvalue]
    dsimp only
    rw [if_neg hne, hstarts, hends]
    rfl
  rw [hread]
  unfold datedAffiliation
  have hvalid : row.validUntil.any (fun day => decide (day < row.validFrom)) = true ↔
      ¬ Ordered row := by
    unfold Ordered
    cases row.validUntil <;> simp
  by_cases hordered : Ordered row
  · rw [if_pos hordered, if_neg (by simpa [hvalid] using hordered)]
    have hflag : flag members "primary" = row.isPrimary := by
      rw [flag, hprimary]
      rfl
    have horg' : optionalString members "orgUnit" = row.orgUnit :=
      optionalString_of_lookup h.orgUnit horg
    have hvalue' : py.lower (Text.strip row.affiliation) = row.affiliation := h.value
    rw [hflag, horg', hvalue']
    rfl
  · rw [if_neg hordered, if_pos (by simpa [hvalid] using hordered)]

/-- The affiliations that are shown are read, unless one ends before it starts or two are
primary. -/
theorem parseAffiliations_json {rows : List Affiliation} {parsed : List ParsedAffiliation}
    (h : ∀ row ∈ rows, row.affiliation ≠ "" ∧ CleanAffiliation py (sentOf row)) :
    parseAffiliations py (array (rows.map affiliationJson)) = .ok parsed ↔
      (∀ row ∈ rows, Ordered row) ∧ (rows.filter (·.isPrimary)).length ≤ 1 ∧
        parsed = rows.map sentOf := by
  have hread : ∀ read, (rows.map affiliationJson).mapM (parseAffiliation py) = .ok read ↔
      (∀ row ∈ rows, Ordered row) ∧ read = rows.map sentOf := by
    intro read
    rw [List.mapM_map]
    exact Eff.mapM_eq_ok_iff fun row hrow => parseAffiliation_json (h row hrow).1 (h row hrow).2
  have hprimary : ((rows.map sentOf).filter ParsedAffiliation.isPrimary).length =
      (rows.filter (·.isPrimary)).length := by
    rw [List.filter_map, List.length_map]
    rfl
  cases hrows : rows with
  | nil =>
    constructor
    · intro hok
      cases hok
      exact ⟨by simp, by simp, rfl⟩
    · rintro ⟨-, -, rfl⟩
      rfl
  | cons row rest =>
    have harray : array ((row :: rest).map affiliationJson) =
        some (.list ((row :: rest).map affiliationJson)) := rfl
    rw [hrows] at hread hprimary
    rw [harray, parseAffiliations, Eff.except_bind_eq_ok]
    constructor
    · rintro ⟨read, hok, hrest⟩
      obtain ⟨hordered, rfl⟩ := (hread read).mp hok
      rw [hprimary] at hrest
      split at hrest
      · cases hrest
      · next hone =>
        cases hrest
        exact ⟨hordered, not_lt.mp hone, rfl⟩
    · rintro ⟨hordered, hone, rfl⟩
      refine ⟨_, (hread _).mpr ⟨hordered, rfl⟩, ?_⟩
      rw [hprimary, if_neg (not_lt.mpr hone)]
      rfl

/-- The live addresses in the order they are shown in. -/
def liveMails (identifiers : List Identifier) : List Identifier :=
  (identifiers.filter fun row => row.idType = .mail ∧ row.Live).insertionSort Before

theorem parseEmails_json {identifiers : List Identifier}
    (h : ∀ row ∈ liveMails identifiers,
      py.lower (Text.strip row.value) = row.value ∧ '@' ∈ row.value.toList)
    (hone : ((liveMails identifiers).filter (·.isPrimary)).length ≤ 1) :
    parseEmails py (array (emails identifiers)) =
      .ok ((liveMails identifiers).map fun row => (row.value, row.isPrimary)) := by
  have hshown : emails identifiers = (liveMails identifiers).map fun row =>
    .dict [("value", .str row.value), ("type", .str "work"), ("primary", .bool row.isPrimary)] := rfl
  have hread : (emails identifiers).mapM (parseEmail py) =
      .ok ((liveMails identifiers).map fun row => (row.value, row.isPrimary)) := by
    rw [hshown, List.mapM_map]
    refine (Eff.mapM_eq_ok_iff (C := fun row : Identifier => '@' ∈ row.value.toList)
      (e := fun row => .scim (invalidValue (py.repr (.str row.value) ++ " is not an email address")))
      fun row hrow => ?_).mpr ⟨fun row hrow => (h row hrow).2, rfl⟩
    have hemail : (py.lower (Text.strip row.value), row.isPrimary) = (row.value, row.isPrimary) := by
      rw [(h row hrow).1]
    rw [← hemail]
    rfl
  have hprimary : (((liveMails identifiers).map fun row => (row.value, row.isPrimary)).filter
      Prod.snd).length = ((liveMails identifiers).filter (·.isPrimary)).length := by
    rw [List.filter_map, List.length_map]
    rfl
  cases hrows : emails identifiers with
  | nil =>
    have hnone : liveMails identifiers = [] := List.map_eq_nil_iff.mp (hshown.symm.trans hrows)
    rw [hnone]
    rfl
  | cons entry rest =>
    have harray : array (entry :: rest) = some (.list (entry :: rest)) := rfl
    rw [harray, parseEmails, ← hrows, hread]
    exact if_neg (by rw [hprimary]; exact not_lt.mpr hone)

/-! ## The whole document -/

/-- What is read of the document of a person. -/
def echo (uniqueId : String → String) (record : Record) : ParsedUser where
  userName := userName uniqueId record.person record.identifiers
  externalId := (given record.externalId).bind fun text => truthy (some (Text.strip text))
  displayName := record.person.displayName
  givenName := record.person.givenName
  surname := record.person.surname
  preferredLanguage := record.person.preferredLanguage
  active := record.person.status = .active
  emails := (liveMails record.identifiers).map fun row => (row.value, row.isPrimary)
  employeeNumber := given (primary record.identifiers .employeeId)
  ferpaDirectorySuppressed := record.person.ferpaDirectorySuppressed
  affiliations :=
    (record.affiliations.insertionSort fun a b => a.validFrom ≤ b.validFrom).map sentOf

/-- Every value that is shown is as `from_scim` gives it. -/
structure Shows (py : Readers) (uniqueId : String → String) (record : Record) : Prop where
  userName : py.lower (Text.strip (userName uniqueId record.person record.identifiers)) =
      userName uniqueId record.person record.identifiers ∧
    userName uniqueId record.person record.identifiers ≠ ""
  displayName : Kept record.person.displayName
  givenName : Kept record.person.givenName
  surname : Kept record.person.surname
  preferredLanguage : Kept record.person.preferredLanguage
  employeeNumber : Kept (given (primary record.identifiers .employeeId))
  emails : ∀ row ∈ liveMails record.identifiers,
    py.lower (Text.strip row.value) = row.value ∧ '@' ∈ row.value.toList
  onePrimary : ((liveMails record.identifiers).filter (·.isPrimary)).length ≤ 1
  affiliations : ∀ row ∈ record.affiliations,
    row.affiliation ≠ "" ∧ CleanAffiliation py (sentOf row)

variable {uniqueId : String → String} {issuer : String} {today : Int} {record : Record}

theorem Shows.on (h : Shows py uniqueId record) (day : Int) : Shows (py.on day) uniqueId record :=
  ⟨h.userName, h.displayName, h.givenName, h.surname, h.preferredLanguage, h.employeeNumber,
    h.emails, h.onePrimary, fun row hrow =>
      ⟨(h.affiliations row hrow).1, CleanAffiliation.on.mpr (h.affiliations row hrow).2⟩⟩

/-- Where the parts of a record are found in its document. -/
structure Parts (uniqueId : String → String) (today : Int) (record : Record)
    (document : Object) : Prop where
  userName : document.lookup "userName" =
    some (.str (Scim.userName uniqueId record.person record.identifiers))
  active : document.lookup "active" = some (.bool (record.person.status = .active))
  externalId : document.lookup "externalId" = (given record.externalId).map .str
  displayName : document.lookup "displayName" = (given record.person.displayName).map .str
  preferredLanguage : document.lookup "preferredLanguage" =
    (given record.person.preferredLanguage).map .str
  emails : document.lookup "emails" = array (emails record.identifiers)
  name : objectAt document "name" = name record.person
  enterprise : objectAt document enterpriseUser = enterprise today record
  campus : objectAt document campusUser = campus record

theorem exists_parts : ∃ document, toScim issuer uniqueId today record = .dict document ∧
    Parts uniqueId today record document := by
  refine ⟨attr "schemas" (some (.list (schemas today record))) ++
      attr "id" (some (.str record.person.personUuid)) ++
      attr "userName" (some (.str (Scim.userName uniqueId record.person record.identifiers))) ++
      attr "active" (some (.bool (record.person.status = .active))) ++
      attr "externalId" ((given record.externalId).map .str) ++
      attr "name" (object (name record.person)) ++
      attr "displayName" ((given record.person.displayName).map .str) ++
      attr "preferredLanguage" ((given record.person.preferredLanguage).map .str) ++
      attr "emails" (array (emails record.identifiers)) ++
      attr enterpriseUser (object (enterprise today record)) ++
      attr "groups" (array (record.groups.map (groupJson issuer))) ++
      attr campusUser (object (campus record)), rfl, ?_⟩
  constructor
  case name | enterprise | campus =>
    refine (congrArg (fun json => Patch.entriesOf (Option.getD json .null)) ?_).trans
      (entriesOf_object _)
    simp [List.lookup_append, enterpriseUser, campusUser]
  all_goals simp [List.lookup_append, enterpriseUser, campusUser]

theorem texts_of_parts {document : Object} (parts : Parts uniqueId today record document)
    (h : Shows py uniqueId record) :
    (optionalString document "displayName").or
        (optionalString (objectAt document "name") "formatted") = record.person.displayName ∧
      optionalString (objectAt document "name") "givenName" = record.person.givenName ∧
      optionalString (objectAt document "name") "familyName" = record.person.surname ∧
      optionalString document "preferredLanguage" = record.person.preferredLanguage ∧
      optionalString (objectAt document enterpriseUser) "employeeNumber" =
        given (primary record.identifiers .employeeId) ∧
      optionalString document "externalId" =
        (given record.externalId).bind fun text => truthy (some (Text.strip text)) := by
  have hdisplay := parts.displayName
  have hlanguage := parts.preferredLanguage
  rw [h.displayName.given_eq] at hdisplay
  rw [h.preferredLanguage.given_eq] at hlanguage
  rw [parts.name, parts.enterprise]
  have hformatted : (name record.person).lookup "formatted" =
      record.person.displayName.map .str := by
    simp [name, List.lookup_append, h.displayName.given_eq]
  have hgiven : (name record.person).lookup "givenName" = record.person.givenName.map .str := by
    simp [name, List.lookup_append, h.givenName.given_eq]
  have hsurname : (name record.person).lookup "familyName" = record.person.surname.map .str := by
    simp [name, List.lookup_append, h.surname.given_eq]
  have hnumber : (enterprise today record).lookup "employeeNumber" =
      (given (primary record.identifiers .employeeId)).map .str := by
    simp [enterprise, List.lookup_append]
  refine ⟨?_, optionalString_of_lookup h.givenName hgiven,
    optionalString_of_lookup h.surname hsurname,
    optionalString_of_lookup h.preferredLanguage hlanguage,
    optionalString_of_lookup h.employeeNumber hnumber, ?_⟩
  · rw [optionalString_of_lookup h.displayName hdisplay,
      optionalString_of_lookup h.displayName hformatted, Option.or_self]
  · rw [optionalString, parts.externalId]
    cases given record.externalId <;> rfl

/-- **A document that is sent back is refused for two things only.** -/
theorem fromScim_toScim (h : Shows py uniqueId record) {parsed : ParsedUser} :
    fromScim py (toScim issuer uniqueId today record) = .ok parsed ↔
      (∀ row ∈ record.affiliations, Ordered row) ∧
        (record.affiliations.filter (·.isPrimary)).length ≤ 1 ∧ parsed = echo uniqueId record := by
  obtain ⟨document, hdocument, parts⟩ : ∃ document, toScim issuer uniqueId today record =
    .dict document ∧ Parts uniqueId today record document := exists_parts
  have huser : readUserName py document =
      .ok (userName uniqueId record.person record.identifiers) := by
    obtain ⟨hclean, hne⟩ := h.userName
    unfold readUserName
    rw [parts.userName]
    dsimp only
    rw [if_neg, hclean]
    intro hempty
    rw [hempty, py.lower_ascii "" rfl] at hclean
    exact hne (hclean.symm.trans (by decide))
  have hactive : readActive document = .ok (decide (record.person.status = .active)) := by
    unfold readActive
    rw [parts.active]
  have hemails := parseEmails_json h.emails h.onePrimary
  rw [← parts.emails] at hemails
  have hperm := List.perm_insertionSort (fun a b : Affiliation => a.validFrom ≤ b.validFrom)
    record.affiliations
  have haffiliations : ∀ sent, parseAffiliations py
      ((objectAt document campusUser).lookup "affiliations") = .ok sent ↔
      (∀ row ∈ record.affiliations, Ordered row) ∧
        (record.affiliations.filter (·.isPrimary)).length ≤ 1 ∧
        sent = (echo uniqueId record).affiliations := by
    intro sent
    have hlookup : (objectAt document campusUser).lookup "affiliations" =
        array ((record.affiliations.insertionSort fun a b =>
          a.validFrom ≤ b.validFrom).map affiliationJson) := by
      rw [parts.campus, campus]
      simp [List.lookup_append]
    rw [hlookup, parseAffiliations_json fun row hrow => h.affiliations row (hperm.mem_iff.mp hrow),
      (hperm.filter _).length_eq]
    exact and_congr_left fun _ => forall_congr' fun row => by rw [hperm.mem_iff]
  have hferpa : flag (objectAt document campusUser) "ferpaDirectorySuppressed" =
      record.person.ferpaDirectorySuppressed := by
    rw [parts.campus, flag, campus]
    cases record.person.ferpaDirectorySuppressed <;> simp [List.lookup_append, isTrue]
  obtain ⟨hdisplay, hgiven, hsurname, hlanguage, hnumber, hexternal⟩ := texts_of_parts parts h
  have hread : fromScim py (.dict document) =
      (parseAffiliations py ((objectAt document campusUser).lookup "affiliations") >>= fun sent =>
        .ok { echo uniqueId record with affiliations := sent }) := by
    unfold fromScim
    dsimp only
    rw [huser, hactive, hemails, hdisplay, hgiven, hsurname, hlanguage, hnumber, hexternal, hferpa]
    rfl
  rw [hdocument, hread, Eff.except_bind_eq_ok]
  constructor
  · rintro ⟨sent, hsent, hreturn⟩
    obtain ⟨hordered, hone, rfl⟩ := (haffiliations sent).mp hsent
    cases hreturn
    exact ⟨hordered, hone, rfl⟩
  · rintro ⟨hordered, hone, rfl⟩
    exact ⟨_, (haffiliations _).mpr ⟨hordered, hone, rfl⟩, rfl⟩

end Scim
end CampusID
