import CampusID.Scim.Reconciling
import CampusID.Scim.Rereading
import CampusID.Scim.Versions

/-!
# What every registry keeps

The operations of `UserStore` are given what `from_scim` made of a document, so the rows of a
person are made of what it gives: texts that are stripped, addresses that are lower-cased, days the
calendar has (`Sound`).  A person who was not deleted has one live user name, addresses of which at
most one is primary, and perhaps one live employee number (`Held`).  And a live user name is one
person's, because `_assert_username_free` was asked first.

`ordinary_of_write` is the step that all writes share; `Service.ordinary_of_reached` is about every
state that is reached from the empty registry.
-/

namespace CampusID
namespace Scim

open Lib
open Audit (Json)

/-! ## What every registry keeps -/

/-- A value as it is kept in a row of its type. -/
def CleanName (py : Readers) : IdType → String → Prop
  | .eppn, value => py.lower (Text.strip value) = value ∧ value ≠ ""
  | .mail, value => py.lower (Text.strip value) = value ∧ '@' ∈ value.toList
  | .employeeId, value => value ≠ "" ∧ Text.strip value = value
  | _, _ => False

/-- An affiliation is as `from_scim` gives it. -/
def CleanRow (py : Readers) (row : Affiliation) : Prop :=
  row.affiliation ≠ "" ∧ CleanAffiliation py (sentOf row)

/-- The names of somebody who was not deleted: one user name, addresses of which at most one is
primary, and perhaps an employee number. -/
def Held (names : List ((IdType × String) × Bool)) : Prop :=
  ∃ userName mails number, List.Perm names (named userName mails number) ∧
    (mails.filter Prod.snd).length ≤ 1

/-- The record of a person is made of what `from_scim` gives. -/
structure Sound (py : Readers) (record : UserRecord) : Prop where
  displayName : Kept record.person.displayName
  givenName : Kept record.person.givenName
  surname : Kept record.person.surname
  preferredLanguage : Kept record.person.preferredLanguage
  identifiers : ∀ row ∈ record.identifiers, CleanName py row.idType row.value
  affiliations : ∀ row ∈ record.affiliations, CleanRow py row
  names : record.person.status = .deactivated ∨
    Held (liveNames record.person.personUuid record.identifiers)

/-- **What every registry keeps**: people are there once, with a source record and a sound record;
what belongs to nobody is not there; and a user name that is live is one person's. -/
structure Ordinary (py : Readers) (registry : Registry Json) : Prop where
  uuids : (registry.persons.map Person.personUuid).Nodup
  loads : ∀ p record, registry.load p = .ok record →
    Sound py record ∧ registry.sourceOf p ≠ none
  unknown : ∀ p, registry.get p = none → registry.sourceOf p = none ∧
    registry.identifiers.filter (·.personUuid = p) = [] ∧ registry.affiliationsOf p = []
  holders : ∀ p q value isPrimary isPrimary',
    ((.eppn, value), isPrimary) ∈ liveNames p registry.identifiers →
      ((.eppn, value), isPrimary') ∈ liveNames q registry.identifiers → p = q

theorem ordinary_empty (py : Readers) : Ordinary py {} where
  uuids := List.nodup_nil
  loads := fun p record h => by cases h
  unknown := fun p _ => ⟨rfl, rfl, rfl⟩
  holders := fun p q value isPrimary isPrimary' h => by cases h

variable {py : Readers} {registry registry' : Registry Json} {personUuid : String}
  {parsed : ParsedUser} {lower : String → String} {now today : Int}

theorem kind_of_cleanName {row : Identifier} (h : CleanName py row.idType row.value) : row.Kind := by
  unfold Identifier.Kind
  cases hkind : row.idType with
  | eppn => exact .inl rfl
  | mail => exact .inr (.inl rfl)
  | employeeId => exact .inr (.inr rfl)
  | _ =>
    rw [hkind] at h
    exact h.elim

theorem cleanName_of_mem_named (h : Clean py parsed) {mails : List (String × Bool)}
    (hmails : ∀ mail ∈ mails, mail ∈ parsed.emails) {entry : (IdType × String) × Bool}
    (hentry : entry ∈ named parsed.userName mails parsed.employeeNumber) :
    CleanName py entry.1.1 entry.1.2 := by
  unfold named at hentry
  rcases List.mem_append.mp hentry with hfirst | hnumber
  · rcases List.mem_cons.mp hfirst with rfl | hmail
    · exact h.userName
    · obtain ⟨mail, hmem, rfl⟩ := List.mem_map.mp hmail
      exact h.emails mail (hmails mail hmem)
  · obtain ⟨number, hmem, rfl⟩ := List.mem_map.mp hnumber
    exact h.employeeNumber number (Option.mem_toList.mp hmem)

theorem mem_addresses {emails : List (String × Bool)} {mail : String × Bool}
    (h : mail ∈ addresses emails) : mail ∈ emails := by
  obtain ⟨email, hmem, rfl⟩ := exists_of_mem_assignAll _ _ h
  exact hmem

theorem held_wantedIdentifiers (h : Clean py parsed) : Held (wantedIdentifiers parsed) := by
  refine ⟨parsed.userName, addresses parsed.emails, parsed.employeeNumber, ?_, ?_⟩
  · rw [wantedIdentifiers_eq fun number hnumber => (h.employeeNumber number hnumber).1]
  · exact (length_filter_assignAll Prod.fst Prod.snd id parsed.emails).trans h.onePrimary

theorem liveNames_filter (rows : List Identifier) :
    liveNames personUuid (rows.filter (·.personUuid = personUuid)) = liveNames personUuid rows :=
  liveNames_congr (List.filter_filter.trans (List.filter_congr fun _ _ => Bool.and_self _))

/-! ### What a write puts into the rows -/

theorem cleanName_of_replaceIdentifiers (hclean : Clean py parsed) {rows rows' : List Identifier}
    (hrows : ∀ row ∈ rows, row.personUuid = personUuid → CleanName py row.idType row.value)
    (h : replaceIdentifiers lower personUuid parsed now rows = .ok rows') :
    ∀ row ∈ rows', row.personUuid = personUuid → CleanName py row.idType row.value := by
  have hkind : ∀ row ∈ rows, row.personUuid = personUuid → row.Kind :=
    fun row hrow hmine => kind_of_cleanName (hrows row hrow hmine)
  obtain ⟨rfl, -⟩ := Identity.addIdentifiers_ok h
  intro row hrow hmine
  rcases List.mem_append.mp hrow with hold | hnew
  · -- a row that was there has kept its type and its value
    obtain ⟨old, hmem, hface⟩ := Identity.exists_face (Identity.faces_reconcileIdentifiers _) hold
    simp only [Identity.face, Prod.mk.injEq] at hface
    obtain ⟨hperson, htype, hvalue, -⟩ := hface
    rw [← htype, ← hvalue]
    exact hrows old hmem (hperson.trans hmine)
  · obtain ⟨entry, hentry, rfl⟩ := List.mem_map.mp hnew
    have hwanted : entry ∈ wantedIdentifiers parsed :=
      (perm_reconcileIdentifiers hkind (nodup_wantedIdentifiers parsed)).subset
        (List.mem_append_right _ hentry)
    rw [wantedIdentifiers_eq fun number hnumber => (hclean.employeeNumber number hnumber).1]
      at hwanted
    exact cleanName_of_mem_named hclean (fun _ => mem_addresses) hwanted

theorem cleanName_of_writeIdentifiers (hclean : Clean py parsed) {rows rows' : List Identifier}
    (hrows : ∀ row ∈ rows, row.personUuid ≠ personUuid)
    (h : writeIdentifiers lower personUuid parsed now rows = .ok rows') :
    ∀ row ∈ rows', row.personUuid = personUuid → CleanName py row.idType row.value := by
  obtain ⟨new, rfl, hnew⟩ := writeIdentifiers_rows h
  intro row hrow hmine
  rcases List.mem_append.mp hrow with hold | hadded
  · exact absurd hmine (hrows row hold)
  · rcases hnew row hadded with rfl | ⟨email, hemail, rfl⟩ | ⟨number, hnumber, rfl⟩
    · exact hclean.userName
    · exact hclean.emails email hemail
    · exact hclean.employeeNumber number hnumber

theorem cleanRow_of_addAffiliations {sent : List ParsedAffiliation}
    (hsent : ∀ s ∈ sent, CleanAffiliation py s) {rows rows' : List Affiliation}
    (hrows : ∀ row ∈ rows, row.personUuid = personUuid → CleanRow py row)
    (h : addAffiliations personUuid rows sent = .ok rows') :
    ∀ row ∈ rows', row.personUuid = personUuid → CleanRow py row := by
  unfold addAffiliations at h
  split at h
  · cases h
  · next hvocabulary =>
    obtain rfl := Except.ok.inj h
    intro row hrow hmine
    rcases List.mem_append.mp hrow with hold | hnew
    · exact hrows row hold hmine
    · obtain ⟨s, hs, rfl⟩ := List.mem_map.mp hnew
      have hword : s.value ∈ affiliationVocabulary := by
        simpa using List.find?_eq_none.mp hvocabulary s hs
      refine ⟨fun hempty => ?_, hsent s hs⟩
      rw [show s.value = "" from hempty] at hword
      exact absurd hword (by decide)

theorem cleanRow_of_reconcileAffiliations (htoday : py.Day today)
    {wanted : List ((String × Int) × ParsedAffiliation)}
    (hwanted : ∀ entry ∈ wanted, CleanAffiliation py entry.2) {rows : List Affiliation}
    (hrows : ∀ row ∈ rows, row.personUuid = personUuid → CleanRow py row) :
    (∀ row ∈ (reconcileAffiliations personUuid today rows wanted).1,
        row.personUuid = personUuid → CleanRow py row) ∧
      ∀ entry ∈ (reconcileAffiliations personUuid today rows wanted).2, CleanAffiliation py entry.2 := by
  induction rows generalizing wanted with
  | nil => exact ⟨nofun, hwanted⟩
  | cons row rows ih =>
    obtain ⟨hrow, hrest⟩ := List.forall_mem_cons.mp hrows
    rw [reconcileAffiliations]
    by_cases hmine : row.personUuid = personUuid
    · rw [if_pos hmine]
      obtain ⟨hne, hold⟩ := hrow hmine
      cases hlookup : wanted.lookup (row.affiliation, row.validFrom) with
      | some sent =>
        -- the row takes what is sent, but for its value and its start
        obtain ⟨hothers, hleft⟩ := ih (fun entry hentry =>
          hwanted entry (List.mem_of_mem_filter hentry)) hrest
        have hsent := hwanted _ (mem_of_lookup hlookup)
        refine ⟨List.forall_mem_cons.mpr ⟨fun _ => ⟨hne, ?_⟩, hothers⟩, hleft⟩
        exact ⟨hold.value, hsent.orgUnit, hold.validFrom, hsent.validUntil⟩
      | none =>
        obtain ⟨hothers, hleft⟩ := ih hwanted hrest
        dsimp only
        by_cases hopen : row.Open
        · rw [if_pos hopen]
          refine ⟨List.forall_mem_cons.mpr ⟨fun _ => ⟨hne, ?_⟩, hothers⟩, hleft⟩
          refine ⟨hold.value, hold.orgUnit, hold.validFrom, fun day hday => ?_⟩
          obtain rfl := Option.some.inj hday
          exact htoday
        · rw [if_neg hopen]
          exact ⟨List.forall_mem_cons.mpr ⟨hrow, hothers⟩, hleft⟩
    · rw [if_neg hmine]
      obtain ⟨hothers, hleft⟩ := ih hwanted hrest
      exact ⟨List.forall_mem_cons.mpr ⟨hrow, hothers⟩, hleft⟩

theorem cleanRow_of_replaceAffiliations (htoday : py.Day today) (hclean : Clean py parsed)
    {rows rows' : List Affiliation}
    (hrows : ∀ row ∈ rows, row.personUuid = personUuid → CleanRow py row)
    (h : replaceAffiliations personUuid parsed today rows = .ok rows') :
    ∀ row ∈ rows', row.personUuid = personUuid → CleanRow py row := by
  have hwanted : ∀ entry ∈ wantedAffiliations parsed, CleanAffiliation py entry.2 := by
    intro entry hentry
    obtain ⟨sent, hsent, rfl⟩ := exists_of_mem_assignAll ParsedAffiliation.key id hentry
    exact hclean.affiliations sent hsent
  obtain ⟨hreconciled, hleft⟩ := cleanRow_of_reconcileAffiliations htoday hwanted hrows
  refine cleanRow_of_addAffiliations (fun sent hsent => ?_) hreconciled h
  obtain ⟨entry, hentry, rfl⟩ := List.mem_map.mp hsent
  exact hleft entry hentry

/-! ### Who holds a user name -/

theorem mem_liveNames {rows : List Identifier} {idType : IdType} {value : String}
    {isPrimary : Bool} : ((idType, value), isPrimary) ∈ liveNames personUuid rows ↔
      ∃ row ∈ rows, row.personUuid = personUuid ∧ row.Live ∧ row.idType = idType ∧
        row.value = value ∧ row.isPrimary = isPrimary := by
  simp only [liveNames, List.mem_map, List.mem_filter, decide_eq_true_eq, Prod.mk.injEq, and_assoc]

theorem eq_of_mem_named {userName value : String} {mails : List (String × Bool)}
    {number : Option String} {isPrimary : Bool}
    (h : ((.eppn, value), isPrimary) ∈ named userName mails number) : value = userName := by
  have hfirst : value = userName ∧ isPrimary = true := by simpa [named] using h
  exact hfirst.1

theorem eq_of_free (hholders : ∀ p q value isPrimary isPrimary',
      ((.eppn, value), isPrimary) ∈ liveNames p registry.identifiers →
        ((.eppn, value), isPrimary') ∈ liveNames q registry.identifiers → p = q)
    {userName : String} {excluding : Option String}
    (h : assertUsernameFree registry userName excluding = .ok ()) {q : String} {isPrimary : Bool}
    (hmem : ((.eppn, userName), isPrimary) ∈ liveNames q registry.identifiers) :
    excluding = some q := by
  unfold assertUsernameFree at h
  cases hfound : registry.liveEppn userName with
  | none =>
    obtain ⟨row, hrow, -, hlive, htype, hvalue, -⟩ := mem_liveNames.mp hmem
    rw [Registry.liveEppn, List.find?_eq_none] at hfound
    exact absurd (hfound row hrow) (by simp [htype, hvalue, hlive])
  | some first =>
    have hfirst := List.find?_some hfound
    simp only [decide_eq_true_eq] at hfirst
    have hholds : ((.eppn, userName), first.isPrimary) ∈
        liveNames first.personUuid registry.identifiers :=
      mem_liveNames.mpr ⟨first, List.mem_of_find?_eq_some hfound, rfl, hfirst.2.2, hfirst.1,
        hfirst.2.1, rfl⟩
    rw [hfound] at h
    dsimp only at h
    split_ifs at h with hexcluding
    rw [hexcluding, hholders _ _ _ _ _ hholds hmem]

theorem holders_of_write (hordinary : Ordinary py registry)
    (hothers : ∀ q ≠ personUuid, registry.Untouched registry' q)
    (hown : ∀ value isPrimary, ((.eppn, value), isPrimary) ∈
      liveNames personUuid registry'.identifiers → ∀ q isPrimary',
        ((.eppn, value), isPrimary') ∈ liveNames q registry.identifiers → q = personUuid)
    (p q : String) (value : String) (isPrimary isPrimary' : Bool)
    (hp : ((.eppn, value), isPrimary) ∈ liveNames p registry'.identifiers)
    (hq : ((.eppn, value), isPrimary') ∈ liveNames q registry'.identifiers) : p = q := by
  have hsame : ∀ r ≠ personUuid, liveNames r registry'.identifiers =
      liveNames r registry.identifiers := fun r hr => liveNames_congr (hothers r hr).identifiers
  by_cases hpp : p = personUuid
  · subst hpp
    by_contra hne
    rw [hsame q (Ne.symm hne)] at hq
    exact hne (hown value isPrimary hp q isPrimary' hq).symm
  · rw [hsame p hpp] at hp
    by_cases hqp : q = personUuid
    · subst hqp
      exact hown value isPrimary' hq p isPrimary hp
    · rw [hsame q hqp] at hq
      exact hordinary.holders p q value isPrimary isPrimary' hp hq

/-- **A write keeps the registry ordinary** if it does so at the person it is about. -/
theorem ordinary_of_write (hordinary : Ordinary py registry)
    (hothers : ∀ q ≠ personUuid, registry.Untouched registry' q)
    (huuids : (registry'.persons.map Person.personUuid).Nodup)
    {record : UserRecord} (hload : registry'.load personUuid = .ok record)
    (hsound : Sound py record) (hsource : registry'.sourceOf personUuid ≠ none)
    (hown : ∀ value isPrimary, ((.eppn, value), isPrimary) ∈
      liveNames personUuid registry'.identifiers → ∀ q isPrimary',
        ((.eppn, value), isPrimary') ∈ liveNames q registry.identifiers → q = personUuid) :
    Ordinary py registry' where
  uuids := huuids
  loads := by
    intro p record' hrecord
    by_cases hp : p = personUuid
    · subst hp
      obtain rfl := Except.ok.inj (hload.symm.trans hrecord)
      exact ⟨hsound, hsource⟩
    · rw [(hothers p hp).load] at hrecord
      rw [(hothers p hp).source]
      exact hordinary.loads p record' hrecord
  unknown := by
    intro p hnone
    have hp : p ≠ personUuid := by
      rintro rfl
      obtain ⟨person, hget, -⟩ := Registry.load_eq_ok.mp hload
      rw [hnone] at hget
      cases hget
    have hsame := hothers p hp
    rw [hsame.source, hsame.identifiers, hsame.affiliations]
    exact hordinary.unknown p (hsame.get.symm.trans hnone)
  holders := holders_of_write hordinary hothers hown

/-! ### The three writes -/

variable {store : UserStore Json Unit Unit} {raw resource : Json} {ifMatch : Option String}
  {before after : Finset String}

theorem createRows_affiliations {created : Bool} (hnew : registry.knownSource parsed = none)
    (h : store.createRows parsed raw personUuid now registry = .ok (registry', resource, created)) :
    addAffiliations personUuid registry.affiliations parsed.affiliations =
      .ok registry'.affiliations := by
  obtain ⟨identifiers, affiliations, record, -, haff, -, -, rfl, -, -⟩ :=
    store.createRows_new hnew h
  exact haff

theorem ordinary_create (hordinary : Ordinary py registry) (hclean : Clean py parsed)
    (hfresh : registry.get personUuid = none) {created : Bool}
    (hnew : registry.knownSource parsed = none)
    (h : store.createRows parsed raw personUuid now registry = .ok (registry', resource, created)) :
    Ordinary py registry' := by
  obtain ⟨hsource, hidentifiers, haffiliations⟩ := hordinary.unknown personUuid hfresh
  obtain ⟨⟨record, -, hload, hstored⟩, hothers⟩ := UserStore.createRows_loads hnew hsource h
  obtain ⟨-, hpersons, haffs⟩ := store.createRows_of_new hnew h
  obtain ⟨hfree, hids⟩ := Identity.Writers.createRows_identifiers hnew h
  have hnumber : ∀ number ∈ parsed.employeeNumber, number ≠ "" :=
    fun number hnumber => (hclean.employeeNumber number hnumber).1
  have hnames : liveNames personUuid registry'.identifiers =
      named parsed.userName parsed.emails parsed.employeeNumber := by
    rw [liveNames_of_writeIdentifiers hnumber hids, ← liveNames_filter, hidentifiers]
    rfl
  have hget : registry'.get personUuid = some (writePerson parsed { personUuid := personUuid }) := by
    have hold : registry.persons.find? (·.personUuid = personUuid) = none := hfresh
    unfold Registry.get
    rw [hpersons, List.find?_append, hold]
    simp [writePerson]
  refine ordinary_of_write hordinary hothers ?_ (Registry.load_of_get hget) ?_
    (by rw [hstored]; exact Option.some_ne_none _) ?_
  · rw [hpersons, List.map_append, List.nodup_append]
    refine ⟨hordinary.uuids, by simp, fun p hp q hq heq => ?_⟩
    obtain ⟨person, hperson, rfl⟩ := List.mem_map.mp hp
    obtain rfl : q = personUuid := by simpa [writePerson] using hq
    have hmiss := List.find?_eq_none.mp hfresh person hperson
    exact hmiss (decide_eq_true heq)
  · refine ⟨hclean.displayName, hclean.givenName, hclean.surname, hclean.preferredLanguage, ?_, ?_,
      .inr ⟨parsed.userName, parsed.emails, parsed.employeeNumber, ?_, hclean.onePrimary⟩⟩
    · intro row hrow
      obtain ⟨hmem, hmine⟩ := List.mem_filter.mp hrow
      refine cleanName_of_writeIdentifiers hclean (fun old hold hown => ?_) hids row hmem
        (of_decide_eq_true hmine)
      exact List.filter_eq_nil_iff.mp hidentifiers old hold (decide_eq_true hown)
    · intro row hrow
      obtain ⟨hmem, hmine⟩ := List.mem_filter.mp hrow
      refine cleanRow_of_addAffiliations hclean.affiliations (fun old hold hown => ?_)
        (createRows_affiliations hnew h) row hmem (of_decide_eq_true hmine)
      exact absurd (decide_eq_true hown) (List.filter_eq_nil_iff.mp haffiliations old hold)
    · rw [show (writePerson parsed { personUuid := personUuid }).personUuid = personUuid from rfl,
        liveNames_filter, hnames]
  · intro value isPrimary hmem q isPrimary' hq
    rw [hnames] at hmem
    obtain rfl := eq_of_mem_named hmem
    cases eq_of_free hordinary.holders hfree hq

theorem personUuids_of_updatePerson {f : Person → Person}
    (hpersons : registry'.persons = registry.updatePerson personUuid f)
    (hf : ∀ person, (f person).personUuid = person.personUuid) :
    registry'.persons.map Person.personUuid = registry.persons.map Person.personUuid := by
  rw [hpersons, Registry.updatePerson, List.map_map]
  refine List.map_congr_left fun person _ => ?_
  show (if person.personUuid = personUuid then f person else person).personUuid = _
  split
  · exact hf person
  · rfl

theorem ordinary_replace (hordinary : Ordinary py registry) (hclean : Clean py parsed)
    (htoday : py.Day today)
    (h : store.replaceRows personUuid parsed raw ifMatch now today registry =
      .ok (registry', resource, before, after)) : Ordinary py registry' := by
  obtain ⟨⟨person, hget⟩, -, -, hpersons, hids, haffs⟩ := store.replaceRows_ok h
  obtain ⟨⟨record, source, hload, hsource, -⟩, hothers⟩ := UserStore.replaceRows_loads h
  have hold := hordinary.loads personUuid _ (Registry.load_of_get hget)
  have hget' : registry'.get personUuid = some (writePerson parsed person) := by
    have hupdated := UserStore.get_updatePerson registry (f := writePerson parsed) (fun _ => rfl)
      hpersons registry'.identifiers registry'.affiliations registry'.sources
    rw [show registry'.get personUuid = _ from hupdated, hget]
    rfl
  have hown : (writePerson parsed person).personUuid = personUuid := by
    simpa using List.find?_some hget'
  have hrows : ∀ row ∈ registry.identifiers, row.personUuid = personUuid →
      CleanName py row.idType row.value := fun row hrow hmine =>
    hold.1.identifiers row (List.mem_filter.mpr ⟨hrow, decide_eq_true hmine⟩)
  have hnames : List.Perm (liveNames personUuid registry'.identifiers) (wantedIdentifiers parsed) :=
    liveNames_of_replaceIdentifiers
      (fun row hrow hmine => kind_of_cleanName (hrows row hrow hmine)) hids
  refine ordinary_of_write hordinary hothers ?_ (Registry.load_of_get hget') ?_
    (by rw [hsource]; exact Option.some_ne_none _) ?_
  · rw [personUuids_of_updatePerson hpersons fun _ => rfl]
    exact hordinary.uuids
  · refine ⟨hclean.displayName, hclean.givenName, hclean.surname, hclean.preferredLanguage, ?_, ?_,
      .inr ?_⟩
    · intro row hrow
      obtain ⟨hmem, hmine⟩ := List.mem_filter.mp hrow
      exact cleanName_of_replaceIdentifiers hclean hrows hids row hmem (of_decide_eq_true hmine)
    · intro row hrow
      obtain ⟨hmem, hmine⟩ := List.mem_filter.mp hrow
      refine cleanRow_of_replaceAffiliations htoday hclean (fun old hmem hmine => ?_) haffs row hmem
        (of_decide_eq_true hmine)
      exact hold.1.affiliations old (List.mem_filter.mpr ⟨hmem, decide_eq_true hmine⟩)
    · rw [hown, liveNames_filter]
      obtain ⟨userName, mails, number, hperm, hone⟩ := held_wantedIdentifiers hclean
      exact ⟨userName, mails, number, hnames.trans hperm, hone⟩
  · intro value isPrimary hmem q isPrimary' hq
    have hwanted := hnames.subset hmem
    rw [wantedIdentifiers_eq fun number hnumber => (hclean.employeeNumber number hnumber).1]
      at hwanted
    obtain rfl := eq_of_mem_named hwanted
    have hfree := eq_of_free hordinary.holders (Identity.Writers.replaceRows_free h) hq
    exact (Option.some.inj hfree).symm

theorem ordinary_softDelete (hordinary : Ordinary py registry) (htoday : py.Day today)
    (h : UserStore.softDeleteRows personUuid ifMatch now today registry = .ok (registry', before)) :
    Ordinary py registry' := by
  obtain ⟨⟨record, hload, hload'⟩, hsources, hothers⟩ := UserStore.softDeleteRows_loads h
  obtain ⟨-, hpersons, hids, -⟩ := UserStore.softDeleteRows_ok h
  obtain ⟨hold, hsource⟩ := hordinary.loads personUuid record hload
  refine ordinary_of_write hordinary hothers ?_ hload' ?_ ?_ ?_
  · rw [personUuids_of_updatePerson hpersons fun _ => rfl]
    exact hordinary.uuids
  · refine ⟨hold.displayName, hold.givenName, hold.surname, hold.preferredLanguage, ?_, ?_, .inl rfl⟩
    · intro row hrow
      obtain ⟨old, hmem, rfl⟩ := List.mem_map.mp hrow
      have hclean := hold.identifiers old hmem
      split
      · exact hclean
      · exact hclean
    · intro row hrow
      obtain ⟨old, hmem, rfl⟩ := List.mem_map.mp hrow
      obtain ⟨hne, hclean⟩ := hold.affiliations old hmem
      split
      · refine ⟨hne, hclean.value, hclean.orgUnit, hclean.validFrom, fun day hday => ?_⟩
        obtain rfl := Option.some.inj hday
        exact htoday
      · exact ⟨hne, hclean⟩
  · rw [Registry.sourceOf, hsources]
    exact hsource
  · -- nothing of a person who is deleted is live
    intro value isPrimary hmem
    obtain ⟨row, hrow, hmine, hlive, -⟩ := mem_liveNames.mp hmem
    rw [hids] at hrow
    obtain ⟨old, -, rfl⟩ := List.mem_map.mp hrow
    split at hlive
    · cases hlive
    · next hnot =>
      rw [if_neg hnot] at hmine
      exact absurd ⟨hmine, hlive⟩ hnot

/-! ## Runs -/

namespace Service

/-- What the operations are given: what `from_scim` makes of some document on that day, and days
of the calendar. -/
def Sent (py : Readers) (s : State) : Op → Prop
  | .create _ parsed _ => ∃ document, fromScim (py.on s.today) document = .ok parsed
  | .replace _ parsed _ _ => ∃ document, fromScim (py.on s.today) document = .ok parsed
  | .applyPatched _ parsed _ _ => ∃ document, fromScim (py.on s.today) document = .ok parsed
  | .pass _ today => py.Day today
  | _ => True

/-- **The states that are reached** from the empty registry. -/
inductive Reached (scim : Service) (py : Readers) : State → Prop
  | start (now today : Int) (hday : py.Day today) : Reached scim py (start now today)
  | step {s : State} {op : Op} (hs : Reached scim py s) (hop : Sent py s op) :
      Reached scim py (scim.step s op)

variable {scim : Service} {s s' : State}

/-- **One operation** keeps the registry ordinary. -/
theorem ordinary_step (hpy : py.Lawful) {op : Op} (hordinary : Ordinary py s.registry)
    (hday : py.Day s.today) (hop : Sent py s op) :
    Ordinary py (scim.step s op).registry ∧ py.Day (scim.step s op).today := by
  have hclean : ∀ {parsed}, (∃ document, fromScim (py.on s.today) document = .ok parsed) →
      Clean py parsed := fun ⟨document, hread⟩ =>
    (clean_of_fromScim (hpy.on s.today) hday hread).of_on
  have hreplace : ∀ {resourceId parsed raw ifMatch s'},
      (∃ document, fromScim (py.on s.today) document = .ok parsed) →
      withRegistry s ((scim.store s).replaceRows resourceId parsed raw ifMatch s.now s.today
        s.registry) = .ok s' → Ordinary py s'.registry ∧ py.Day s'.today := by
    intro resourceId parsed raw ifMatch s' hread hx
    obtain ⟨registry, ⟨resource, before, after⟩, hrows, rfl⟩ := withRegistry_eq_ok.mp hx
    exact ⟨ordinary_replace hordinary (hclean hread) hday hrows, hday⟩
  have hgroups : ∀ {x s'}, withTables s x = .ok s' → Ordinary py s'.registry ∧ py.Day s'.today := by
    intro x s' hx
    obtain ⟨tables, -, rfl⟩ := withTables_eq_ok.mp hx
    exact ⟨hordinary, hday⟩
  unfold step
  cases hx : scim.attempt s op with
  | error e => exact ⟨hordinary, hday⟩
  | ok s' =>
    cases op with
    | create personUuid parsed raw =>
      rw [attempt] at hx
      split at hx
      · cases hx
      · next hfree =>
        obtain ⟨registry, ⟨resource, created⟩, hrows, rfl⟩ := withRegistry_eq_ok.mp hx
        cases hknown : s.registry.knownSource parsed with
        | some source =>
          obtain ⟨rfl, -⟩ := UserStore.createRows_of_known _ (by simp [hknown]) hrows
          exact ⟨hordinary, hday⟩
        | none =>
          have hfresh : s.registry.get personUuid = none := by simpa [hknown] using hfree
          exact ⟨ordinary_create hordinary (hclean hop) hfresh hknown hrows, hday⟩
    | replace resourceId parsed raw ifMatch => exact hreplace hop hx
    | applyPatched resourceId parsed raw ifMatch => exact hreplace hop hx
    | softDelete resourceId ifMatch =>
      obtain ⟨registry, before, hrows, rfl⟩ := withRegistry_eq_ok.mp hx
      exact ⟨ordinary_softDelete hordinary hday hrows, hday⟩
    | createGroup | replaceGroup | patchGroup | deleteGroup => exact hgroups hx
    | pass now today =>
      cases hx
      exact ⟨hordinary, hop⟩

/-- **Every registry that is reached is ordinary.** -/
theorem ordinary_of_reached (hpy : py.Lawful) (h : Reached scim py s) :
    Ordinary py s.registry ∧ py.Day s.today := by
  induction h with
  | start now today hday => exact ⟨ordinary_empty py, hday⟩
  | step hs hop ih => exact ordinary_step hpy ih.1 ih.2 hop

end Service

end Scim
end CampusID
