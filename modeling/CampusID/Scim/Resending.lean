import CampusID.Scim.Ordinary

/-!
# Does sending a document back change nothing?

`replace` with the document `get` shows, read again by `from_scim`: a PATCH of one attribute does
just that to all the others.  The document loses what the rows tell apart --- a status of four
values is a boolean in it, a number that was released looks like one that is live, an affiliation
that has ended is among those that have not --- and the rows are reconciled with the rest.

`Settled` says what is not lost, in terms of the rows alone.  In every state that is reached,
sending a person's document back changes nothing exactly when they are settled
(`Service.resentUnchanged_iff`), so somebody who was deleted comes back as a suspended person
(`Service.not_resentUnchanged`).
-/

namespace CampusID
namespace Scim

open Lib
open Audit (Json)

/-! ## What is shown of somebody who was not deleted -/

section Shown

variable {personUuid : String} {identifiers : List Identifier} {idType : IdType}
  {userName' : String} {mails mails' : List (String × Bool)} {number number' : Option String}

/-- The values of a type, and whether they are primary. -/
def ofType (idType : IdType) (names : List ((IdType × String) × Bool)) : List (String × Bool) :=
  (names.filter (·.1.1 = idType)).map fun entry => (entry.1.2, entry.2)

/-- A row, as one of its type. -/
def entryOf (row : Identifier) : String × Bool := (row.value, row.isPrimary)

theorem ofType_named : ofType .eppn (named userName' mails number) = [(userName', true)] ∧
    ofType .mail (named userName' mails number) = mails ∧
    ofType .employeeId (named userName' mails number) =
      number.toList.map fun number => (number, true) := by
  have hmails : ∀ t, (mails.map fun mail => ((IdType.mail, mail.1), mail.2)).filter (·.1.1 = t) =
      if t = .mail then mails.map fun mail => ((IdType.mail, mail.1), mail.2) else [] := by
    intro t
    rw [List.filter_map]
    split
    · next ht => simp [ht, Function.comp_def]
    · next ht => simp [Ne.symm ht, Function.comp_def]
  cases number <;> simp [ofType, named, hmails, Function.comp_def]

theorem ofType_liveNames (hown : ∀ row ∈ identifiers, row.personUuid = personUuid) :
    ofType idType (liveNames personUuid identifiers) =
      ((identifiers.filter (·.idType = idType)).filter (·.Live)).map entryOf := by
  rw [ofType, liveNames, List.filter_map, List.map_map, List.filter_filter, List.filter_filter]
  have hsame : identifiers.filter (fun row => decide (row.idType = idType) &&
      decide (row.personUuid = personUuid ∧ row.Live)) =
      identifiers.filter fun row => decide row.Live && decide (row.idType = idType) := by
    refine List.filter_congr fun row hrow => ?_
    rw [← Bool.decide_and, ← Bool.decide_and, decide_eq_decide]
    have hmine := hown row hrow
    tauto
  exact congrArg (List.map entryOf) hsame

theorem perm_named_iff :
    List.Perm (named userName' mails number) (named userName' mails' number') ↔
      List.Perm mails mails' ∧ number = number' := by
  constructor
  · intro h
    have hof : ∀ t, List.Perm (ofType t (named userName' mails number))
        (ofType t (named userName' mails' number')) := fun t => (h.filter _).map _
    have hmails := hof .mail
    have hnumber := hof .employeeId
    rw [ofType_named.2.1, ofType_named.2.1] at hmails
    rw [ofType_named.2.2, ofType_named.2.2] at hnumber
    refine ⟨hmails, ?_⟩
    cases number <;> cases number' <;> simp_all
  · rintro ⟨hmails, rfl⟩
    exact ((hmails.map _).cons _).append_right _

/-! ### The value that is shown -/

theorem chosen_eq_none {rows : List Identifier} : chosen rows = none ↔ rows = [] := by
  cases rows with
  | nil => simp [chosen, given]
  | cons row rows => simp [chosen]

theorem mem_of_chosen {rows : List Identifier} {value : String} (h : chosen rows = some value) :
    ∃ row ∈ rows, row.value = value := by
  rcases Option.or_eq_some_iff.mp h with hprimary | ⟨-, hfirst⟩
  · obtain ⟨hvalue, -⟩ := Option.filter_eq_some_iff.mp hprimary
    obtain ⟨row, hrow, rfl⟩ := Option.map_eq_some_iff.mp hvalue
    exact ⟨row, List.mem_of_find?_eq_some hrow, rfl⟩
  · obtain ⟨row, hrow, rfl⟩ := Option.map_eq_some_iff.mp hfirst
    exact ⟨row, List.mem_of_head? hrow, rfl⟩

theorem chosen_singleton {rows : List Identifier} {value : String} {isPrimary : Bool}
    (h : rows.map entryOf = [(value, isPrimary)]) : chosen rows = some value := by
  obtain ⟨row, rfl, hrow⟩ := List.map_eq_singleton_iff.mp h
  obtain ⟨rfl, -⟩ := Prod.mk.inj hrow
  cases hchosen : chosen [row] with
  | none => exact absurd (chosen_eq_none.mp hchosen) (List.cons_ne_nil _ _)
  | some shown =>
    obtain ⟨row', hmem, rfl⟩ := mem_of_chosen hchosen
    rw [List.mem_singleton.mp hmem]

theorem mem_of_primary {value : String} (h : primary identifiers idType = some value) :
    ∃ row ∈ identifiers, row.idType = idType ∧ row.value = value := by
  rcases Option.or_eq_some_iff.mp h with hlive | ⟨-, hany⟩
  · obtain ⟨row, hrow, hvalue⟩ := mem_of_chosen hlive
    obtain ⟨hrow, htype⟩ := List.mem_filter.mp (List.mem_of_mem_filter hrow)
    exact ⟨row, hrow, of_decide_eq_true htype, hvalue⟩
  · obtain ⟨row, hrow, hvalue⟩ := mem_of_chosen hany
    obtain ⟨hrow, htype⟩ := List.mem_filter.mp hrow
    exact ⟨row, hrow, of_decide_eq_true htype, hvalue⟩

theorem primary_of_single (hown : ∀ row ∈ identifiers, row.personUuid = personUuid)
    {value : String} {isPrimary : Bool}
    (h : ofType idType (liveNames personUuid identifiers) = [(value, isPrimary)]) :
    primary identifiers idType = some value := by
  rw [ofType_liveNames hown] at h
  unfold primary
  dsimp only
  rw [chosen_singleton h, Option.some_or]

theorem primary_eq_none_iff (hown : ∀ row ∈ identifiers, row.personUuid = personUuid)
    (h : ofType idType (liveNames personUuid identifiers) = []) :
    primary identifiers idType = none ↔ ∀ row ∈ identifiers, row.idType ≠ idType := by
  rw [ofType_liveNames hown, List.map_eq_nil_iff] at h
  unfold primary
  dsimp only
  rw [h, chosen_eq_none.mpr rfl, Option.none_or, chosen_eq_none, List.filter_eq_nil_iff]
  simp only [decide_eq_true_eq, ne_eq]

/-! ### The whole record -/

variable {py : Readers} {record : UserRecord} {uniqueId : String → String}
  {groups : List (String × String)}

/-- Where an employee number is not live, none ever was. -/
def NumberLive (identifiers : List Identifier) : Prop :=
  ∀ row ∈ identifiers, row.idType = .employeeId →
    ∃ other ∈ identifiers, other.idType = .employeeId ∧ other.Live

theorem perm_liveMails (hown : ∀ row ∈ identifiers, row.personUuid = personUuid) :
    List.Perm ((liveMails identifiers).map entryOf)
      (ofType .mail (liveNames personUuid identifiers)) := by
  rw [ofType_liveNames hown, List.filter_filter]
  refine ((List.perm_insertionSort _ _).map _).trans (List.Perm.of_eq (congrArg _ ?_))
  refine List.filter_congr fun row _ => ?_
  rw [Bool.decide_and, Bool.and_comm]

theorem given_of_ne {text : String} (h : text ≠ "") : given (some text) = some text :=
  if_pos (by simpa using h)

/-- **The names that are shown** are the live ones, but for a number that was released. -/
theorem shown_of_named (hown : ∀ row ∈ identifiers, row.personUuid = personUuid)
    (hclean : ∀ row ∈ identifiers, CleanName py row.idType row.value)
    (h : List.Perm (liveNames personUuid identifiers) (named userName' mails number))
    (person : Person) :
    userName uniqueId person identifiers = userName' ∧
      List.Perm ((liveMails identifiers).map entryOf) mails ∧
      (given (primary identifiers .employeeId) = number ↔ NumberLive identifiers) := by
  have hof : ∀ t, List.Perm (ofType t (liveNames personUuid identifiers))
      (ofType t (named userName' mails number)) := fun t => (h.filter _).map _
  obtain ⟨hname, hmails, hnumber⟩ : ofType .eppn (named userName' mails number) =
    [(userName', true)] ∧ _ ∧ _ := ofType_named
  have hkept : ∀ value, primary identifiers .employeeId = some value →
      given (some value) = some value := by
    intro value hvalue
    obtain ⟨row, hrow, htype, rfl⟩ := mem_of_primary hvalue
    have hrowclean := hclean row hrow
    rw [htype] at hrowclean
    exact given_of_ne hrowclean.1
  refine ⟨?_, hmails ▸ (perm_liveMails hown).trans (hof .mail), ?_⟩
  · have hshown := primary_of_single hown (List.perm_singleton.mp (hname ▸ hof .eppn))
    obtain ⟨row, hrow, htype, rfl⟩ := mem_of_primary hshown
    have hrowclean := hclean row hrow
    rw [htype] at hrowclean
    rw [userName, hshown, given_of_ne hrowclean.2, Option.getD_some]
  · have hlive := hof .employeeId
    rw [hnumber] at hlive
    cases number with
    | some value =>
      have hsingle := List.perm_singleton.mp hlive
      have hshown := primary_of_single hown hsingle
      rw [hshown, hkept value hshown]
      refine iff_of_true rfl fun _ _ _ => ?_
      rw [ofType_liveNames hown, List.map_eq_singleton_iff] at hsingle
      obtain ⟨row, hrow, -⟩ := hsingle
      have hmem : row ∈ (identifiers.filter (·.idType = .employeeId)).filter (·.Live) := by
        rw [hrow]
        exact List.mem_singleton_self row
      simp only [List.mem_filter, decide_eq_true_eq] at hmem
      exact ⟨row, hmem.1.1, hmem.1.2, hmem.2⟩
    | none =>
      have hnone : ofType .employeeId (liveNames personUuid identifiers) = [] := hlive.eq_nil
      have hgiven : given (primary identifiers .employeeId) = none ↔
          primary identifiers .employeeId = none := by
        cases hprimary : primary identifiers .employeeId with
        | none => exact Iff.rfl
        | some value => rw [hkept value hprimary]
      rw [hgiven, primary_eq_none_iff hown hnone]
      constructor
      · exact fun hnever row hrow htype => absurd htype (hnever row hrow)
      · intro hnumberlive row hrow htype
        obtain ⟨other, hother, hkind, hlive⟩ := hnumberlive row hrow htype
        rw [ofType_liveNames hown, List.map_eq_nil_iff, List.filter_eq_nil_iff] at hnone
        exact hnone other (List.mem_filter.mpr ⟨hother, decide_eq_true hkind⟩)
          (decide_eq_true hlive)

theorem kept_given_primary (hclean : ∀ row ∈ identifiers, CleanName py row.idType row.value) :
    Kept (given (primary identifiers .employeeId)) := by
  intro value hvalue
  obtain ⟨hprimary, -⟩ := Option.filter_eq_some_iff.mp hvalue
  obtain ⟨row, hrow, htype, rfl⟩ := mem_of_primary hprimary
  have hrowclean := hclean row hrow
  rwa [htype] at hrowclean

/-- **Every value of somebody who was not deleted is shown as `from_scim` gives it.** -/
theorem shows_of_sound (h : Sound py record) (hpresent : record.person.status ≠ .deactivated)
    (hown : ∀ row ∈ record.identifiers, row.personUuid = record.person.personUuid) :
    Shows py uniqueId { record with groups := groups } := by
  obtain ⟨userName', mails, number, hperm, hone⟩ := h.names.resolve_left hpresent
  obtain ⟨hname, hmails, -⟩ :
    userName uniqueId record.person record.identifiers = userName' ∧ _ ∧ _ :=
      shown_of_named hown h.identifiers hperm record.person
  have hholds : ((.eppn, userName'), true) ∈
      liveNames record.person.personUuid record.identifiers := by
    rw [hperm.mem_iff]
    exact List.mem_append_left _ List.mem_cons_self
  refine ⟨?_, h.displayName, h.givenName, h.surname, h.preferredLanguage,
    kept_given_primary h.identifiers, fun row hrow => ?_, ?_, h.affiliations⟩
  · rw [show userName uniqueId { record with groups := groups : Record }.person
      { record with groups := groups : Record }.identifiers = userName' from hname]
    obtain ⟨row, hrow, -, -, htype, rfl, -⟩ := mem_liveNames.mp hholds
    have hrowclean := h.identifiers row hrow
    rwa [htype] at hrowclean
  · obtain ⟨hmem, hmail⟩ := List.mem_filter.mp ((List.mem_insertionSort _).mp hrow)
    have hrowclean := h.identifiers row hmem
    rwa [(of_decide_eq_true hmail).1] at hrowclean
  · have hprimary : ((liveMails record.identifiers).filter (·.isPrimary)).length =
        (((liveMails record.identifiers).map entryOf).filter Prod.snd).length := by
      rw [List.filter_map, List.length_map]
      rfl
    rw [show ((liveMails { record with groups := groups : Record }.identifiers).filter
      (·.isPrimary)).length = _ from hprimary, (hmails.filter _).length_eq]
    exact hone

/-- **The names that are sent back are the live ones** exactly when no two of these are one and
no number was released. -/
theorem perm_wanted_echo_iff (h : Sound py record) (hpresent : record.person.status ≠ .deactivated)
    (hown : ∀ row ∈ record.identifiers, row.personUuid = record.person.personUuid) :
    List.Perm (liveNames record.person.personUuid record.identifiers)
        (wantedIdentifiers (echo uniqueId { record with groups := groups })) ↔
      ((liveNames record.person.personUuid record.identifiers).map Prod.fst).Nodup ∧
        NumberLive record.identifiers := by
  obtain ⟨userName', mails, number, hperm, -⟩ := h.names.resolve_left hpresent
  obtain ⟨hname, hmails, hnumber⟩ :
    userName uniqueId record.person record.identifiers = userName' ∧ _ ∧ _ :=
      shown_of_named hown h.identifiers hperm record.person
  have hwanted : wantedIdentifiers (echo uniqueId { record with groups := groups }) =
      named userName' (addresses ((liveMails record.identifiers).map entryOf))
        (given (primary record.identifiers .employeeId)) := by
    rw [wantedIdentifiers_eq fun number hnumber =>
      (kept_given_primary h.identifiers number hnumber).1, ← hname]
    rfl
  have hnodup := nodup_wantedIdentifiers (echo uniqueId { record with groups := groups })
  constructor
  · intro hsame
    refine ⟨(hsame.map Prod.fst).nodup_iff.mpr hnodup, hnumber.mp ?_⟩
    rw [hwanted] at hsame
    exact (perm_named_iff.mp (hperm.symm.trans hsame)).2.symm
  · rintro ⟨honce, hlive⟩
    have hkeys : (((liveMails record.identifiers).map entryOf).map Prod.fst).Nodup := by
      have hof : ((ofType .mail (liveNames record.person.personUuid record.identifiers)).map
          Prod.fst).Nodup := by
        refine List.Nodup.of_map (fun address => (IdType.mail, address)) ?_
        have hfirst : ((ofType .mail (liveNames record.person.personUuid record.identifiers)).map
            Prod.fst).map (fun address => (IdType.mail, address)) =
            ((liveNames record.person.personUuid record.identifiers).filter
              (·.1.1 = .mail)).map Prod.fst := by
          rw [ofType, List.map_map, List.map_map]
          refine List.map_congr_left fun entry hentry => ?_
          have htype : entry.1.1 = .mail := by simpa using (List.mem_filter.mp hentry).2
          exact Prod.ext htype.symm rfl
        rw [hfirst]
        exact honce.sublist (List.filter_sublist.map _)
      exact ((perm_liveMails hown).map Prod.fst).nodup_iff.mpr hof
    have haddresses : addresses ((liveMails record.identifiers).map entryOf) =
        (liveMails record.identifiers).map entryOf :=
      (assignAll_of_nodup Prod.fst Prod.snd hkeys).trans (List.map_id _)
    rw [hwanted, haddresses, hnumber.mpr hlive]
    exact hperm.trans (perm_named_iff.mpr ⟨hmails.symm, rfl⟩)

end Shown

/-! ## Affiliations -/

/-- Of the rows of one value and one start, the last says what the first does, and none but the
first is open. -/
def Consistent : List Affiliation → Prop
  | [] => True
  | row :: rows => ∀ last ∈ rows.getLast?, (sentOf last).Says row ∧ ∀ other ∈ rows, ¬ other.Open

theorem unaltered_getLast_iff {rows : List Affiliation} :
    Unaltered (rows.getLast?.map sentOf) rows ↔ Consistent rows := by
  cases rows with
  | nil => exact Iff.rfl
  | cons row rows =>
    rcases List.eq_nil_or_concat rows with rfl | ⟨others, last, rfl⟩
    · -- one row says what it says
      simp [Unaltered, Consistent, ParsedAffiliation.Says, sentOf]
    · have hlast : (row :: (others ++ [last])).getLast? = some last := by
        rw [← List.cons_append, List.getLast?_concat]
      rw [List.concat_eq_append, hlast]
      simp [Unaltered, Consistent]

section Affiliations

variable {personUuid : String} {today : Int} {record : UserRecord} {uniqueId : String → String}
  {groups : List (String × String)}

theorem filter_echo_affiliations (key : String × Int) :
    (echo uniqueId { record with groups := groups }).affiliations.filter (·.key = key) =
      (record.affiliations.filter (·.key = key)).map sentOf := by
  have hsorted : (record.affiliations.insertionSort fun a b => a.validFrom ≤ b.validFrom).filter
      (·.key = key) = record.affiliations.filter (·.key = key) := by
    refine filter_insertionSort _ fun a _ ha b _ hb => ?_
    have hsame : a.key = b.key := (of_decide_eq_true ha).trans (of_decide_eq_true hb).symm
    exact le_of_eq (congrArg Prod.snd hsame)
  rw [← hsorted]
  exact List.filter_map

/-- **The affiliations that are sent back leave the rows as they are** exactly when those of each
key are consistent. -/
theorem replaceAffiliations_echo_iff {rows : List Affiliation}
    (hrows : record.affiliations = rows.filter (·.personUuid = personUuid)) :
    replaceAffiliations personUuid (echo uniqueId { record with groups := groups }) today rows =
        .ok rows ↔
      ∀ row ∈ record.affiliations,
        Consistent (record.affiliations.filter (·.key = row.key)) := by
  have hkeyed : ∀ key, Affiliation.keyed personUuid key rows =
      record.affiliations.filter (·.key = key) := by
    intro key
    rw [hrows, List.filter_filter, Affiliation.keyed]
    refine List.filter_congr fun row _ => ?_
    rw [Bool.decide_and, Bool.and_comm]
  rw [replaceAffiliations_eq_self_iff]
  · have hkeys : (∀ key, Unaltered
        ((echo uniqueId { record with groups := groups }).affiliations.filter
          (·.key = key)).getLast? (Affiliation.keyed personUuid key rows)) ↔
        ∀ key, Consistent (record.affiliations.filter (·.key = key)) := by
      refine forall_congr' fun key => ?_
      rw [filter_echo_affiliations, hkeyed, List.getLast?_map, unaltered_getLast_iff]
    rw [hkeys]
    constructor
    · exact fun h row _ => h row.key
    · intro h key
      cases hfound : record.affiliations.filter (·.key = key) with
      | nil => trivial
      | cons row others =>
        have hmem : row ∈ record.affiliations.filter (·.key = key) := by
          rw [hfound]
          exact List.mem_cons_self
        obtain ⟨hrow, hkey⟩ := List.mem_filter.mp hmem
        rw [← hfound, ← of_decide_eq_true hkey]
        exact h row hrow
  · intro sent hsent
    obtain ⟨row, hrow, rfl⟩ := List.mem_map.mp hsent
    rw [List.mem_insertionSort] at hrow
    have hmem : row ∈ record.affiliations := hrow
    rw [hrows] at hmem
    obtain ⟨hmem, hmine⟩ := List.mem_filter.mp hmem
    exact ⟨row, hmem, of_decide_eq_true hmine, rfl⟩

end Affiliations

/-! ## The whole replacement -/

/-- **What is sent back changes nothing** for such a person.

* They are active or suspended.
* No two of their live identifiers are one, and if they have no live employee number they never
  had one.
* No affiliation ends before it starts, at most one of all of them is primary, and of several with
  one value and one start the last says what the first does, and none but the first is open.
* Of an active person every affiliation has the value of an open one; of a suspended person none
  is open. -/
structure Settled (record : UserRecord) : Prop where
  present : record.person.status = .active ∨ record.person.status = .suspended
  once : ((liveNames record.person.personUuid record.identifiers).map Prod.fst).Nodup
  number : NumberLive record.identifiers
  ordered : ∀ row ∈ record.affiliations, Ordered row
  onePrimary : (record.affiliations.filter (·.isPrimary)).length ≤ 1
  consistent : ∀ row ∈ record.affiliations,
    Consistent (record.affiliations.filter (·.key = row.key))
  current : record.person.status = .active → ∀ row ∈ record.affiliations,
    ∃ other ∈ record.affiliations, other.Open ∧ other.affiliation = row.affiliation
  ended : record.person.status = .suspended → ∀ row ∈ record.affiliations, ¬ row.Open

section Replacement

variable {personUuid : String} {now today : Int} {record : UserRecord} {py : Readers}
  {registry : Registry Json} {uniqueId : String → String} {groups : List (String × String)}

theorem assertUsernameFree_of_holder (hordinary : Ordinary py registry) {userName' : String}
    {isPrimary : Bool}
    (h : ((.eppn, userName'), isPrimary) ∈ liveNames personUuid registry.identifiers) :
    assertUsernameFree registry userName' (some personUuid) = .ok () := by
  unfold assertUsernameFree
  cases hfound : registry.liveEppn userName' with
  | none => rfl
  | some row =>
    have hrow := List.find?_some hfound
    simp only [decide_eq_true_eq] at hrow
    have hholds : ((.eppn, userName'), row.isPrimary) ∈
        liveNames row.personUuid registry.identifiers :=
      mem_liveNames.mpr ⟨row, List.mem_of_find?_eq_some hfound, rfl, hrow.2.2, hrow.1, hrow.2.1,
        rfl⟩
    have hsame : personUuid = row.personUuid := hordinary.holders _ _ _ _ _ h hholds
    exact if_pos (congrArg some hsame)

theorem updatePerson_eq_self (huuids : (registry.persons.map Person.personUuid).Nodup)
    {f : Person → Person} {person : Person} (hget : registry.get personUuid = some person)
    (hf : f person = person) : registry.updatePerson personUuid f = registry.persons := by
  refine (List.map_congr_left fun other hother => ?_).trans (List.map_id _)
  show (if other.personUuid = personUuid then f other else other) = other
  split
  · next hmine =>
    have hperson : person.personUuid = personUuid := by simpa using List.find?_some hget
    obtain rfl : other = person := List.inj_on_of_nodup_map huuids hother
      (List.mem_of_find?_eq_some hget) (hmine.trans hperson.symm)
    exact hf
  · rfl

theorem status_echo : (echo uniqueId { record with groups := groups }).status =
    if record.person.status = .active then .active else .suspended := by
  simp [ParsedUser.status, echo]

theorem writePerson_echo (h : record.person.status = .active ∨ record.person.status = .suspended) :
    writePerson (echo uniqueId { record with groups := groups }) record.person = record.person := by
  have hstatus : (echo uniqueId { record with groups := groups }).status =
      record.person.status := by
    rw [status_echo]
    rcases h with h | h <;> simp [h]
  unfold writePerson
  rw [hstatus]
  rfl

/-- **Nobody is told of a change** exactly when the open affiliations are those the store takes
the entries for. -/
theorem openValues_echo_iff (h : record.person.status = .active ∨ record.person.status = .suspended) :
    ((record.affiliations.filter (·.Open)).map Affiliation.affiliation).toFinset =
        (if (echo uniqueId { record with groups := groups }).status = .active then
          (echo uniqueId { record with groups := groups }).affiliationValues else ∅) ↔
      (record.person.status = .active → ∀ row ∈ record.affiliations,
        ∃ other ∈ record.affiliations, other.Open ∧ other.affiliation = row.affiliation) ∧
      (record.person.status = .suspended → ∀ row ∈ record.affiliations, ¬ row.Open) := by
  have hvalues : ∀ value, value ∈ (echo uniqueId { record with groups := groups }).affiliationValues ↔
      ∃ row ∈ record.affiliations, row.affiliation = value := by
    intro value
    simp [ParsedUser.affiliationValues, echo, sentOf]
  rw [status_echo]
  rcases h with h | h
  · simp only [h, if_true, forall_const, reduceCtorEq, false_implies, and_true]
    rw [Finset.ext_iff]
    simp only [hvalues, List.mem_toFinset, List.mem_map, List.mem_filter, decide_eq_true_eq]
    constructor
    · intro hsame row hrow
      obtain ⟨other, ⟨hother, hopen⟩, hvalue⟩ := (hsame row.affiliation).mpr ⟨row, hrow, rfl⟩
      exact ⟨other, hother, hopen, hvalue⟩
    · intro hopen value
      constructor
      · rintro ⟨row, ⟨hrow, -⟩, rfl⟩
        exact ⟨row, hrow, rfl⟩
      · rintro ⟨row, hrow, rfl⟩
        obtain ⟨other, hother, hisopen, hvalue⟩ := hopen row hrow
        exact ⟨other, ⟨hother, hisopen⟩, hvalue⟩
  · simp [h, List.filter_eq_nil_iff]

theorem parts_of_load (hload : registry.load personUuid = .ok record) :
    registry.get personUuid = some record.person ∧ record.person.personUuid = personUuid ∧
      record.identifiers = registry.identifiers.filter (·.personUuid = personUuid) ∧
      record.affiliations = registry.affiliationsOf personUuid := by
  obtain ⟨person, hget, rfl⟩ := Registry.load_eq_ok.mp hload
  exact ⟨hget, by simpa using List.find?_some hget, rfl, rfl⟩

theorem present_of_settled (h : record.person.status = .active ∨ record.person.status = .suspended) :
    record.person.status ≠ .deactivated := by
  intro hdeactivated
  rw [hdeactivated] at h
  exact h.elim (fun hactive => by cases hactive) fun hsuspended => by cases hsuspended

theorem own_of_load (hload : registry.load personUuid = .ok record) :
    ∀ row ∈ record.identifiers, row.personUuid = record.person.personUuid := by
  obtain ⟨-, huuid, hidentifiers, -⟩ := parts_of_load hload
  intro row hrow
  rw [hidentifiers] at hrow
  rw [huuid]
  exact of_decide_eq_true (List.mem_filter.mp hrow).2

variable {lower : String → String} {δ E : Type} {store : UserStore Json δ E} {raw : Json}

theorem openAffiliations_echo_iff (hload : registry.load personUuid = .ok record)
    (h : record.person.status = .active ∨ record.person.status = .suspended) :
    registry.openAffiliations personUuid =
        (if (echo uniqueId { record with groups := groups }).status = .active then
          (echo uniqueId { record with groups := groups }).affiliationValues else ∅) ↔
      (record.person.status = .active → ∀ row ∈ record.affiliations,
        ∃ other ∈ record.affiliations, other.Open ∧ other.affiliation = row.affiliation) ∧
      (record.person.status = .suspended → ∀ row ∈ record.affiliations, ¬ row.Open) := by
  obtain ⟨-, -, -, haffiliations⟩ := parts_of_load hload
  rw [Registry.openAffiliations, ← haffiliations]
  exact openValues_echo_iff h

/-- The names that are sent back leave the rows as they are exactly when no two live ones are one
and no number was released. -/
theorem replaceIdentifiers_echo_iff (hload : registry.load personUuid = .ok record)
    (hsound : Sound py record) (hpresent : record.person.status ≠ .deactivated) :
    replaceIdentifiers lower personUuid (echo uniqueId { record with groups := groups }) now
        registry.identifiers = .ok registry.identifiers ↔
      ((liveNames record.person.personUuid record.identifiers).map Prod.fst).Nodup ∧
        NumberLive record.identifiers := by
  obtain ⟨-, huuid, hidentifiers, -⟩ := parts_of_load hload
  have hkind : ∀ row ∈ registry.identifiers, row.personUuid = personUuid → row.Kind := by
    intro row hrow hmine
    refine kind_of_cleanName (hsound.identifiers row ?_)
    rw [hidentifiers]
    exact List.mem_filter.mpr ⟨hrow, decide_eq_true hmine⟩
  have hnames : liveNames personUuid registry.identifiers =
      liveNames record.person.personUuid record.identifiers := by
    rw [huuid, hidentifiers, liveNames_filter]
  rw [replaceIdentifiers_eq_self_iff hkind, hnames,
    perm_wanted_echo_iff hsound hpresent (own_of_load hload)]

theorem assertUsernameFree_echo (hordinary : Ordinary py registry)
    (hload : registry.load personUuid = .ok record) (hsound : Sound py record)
    (hpresent : record.person.status ≠ .deactivated) :
    assertUsernameFree registry (echo uniqueId { record with groups := groups }).userName
      (some personUuid) = .ok () := by
  obtain ⟨-, huuid, hidentifiers, -⟩ := parts_of_load hload
  obtain ⟨userName', mails, number, hperm, -⟩ := hsound.names.resolve_left hpresent
  obtain ⟨hname, -⟩ : userName uniqueId record.person record.identifiers = userName' ∧ _ :=
    shown_of_named (own_of_load hload) hsound.identifiers hperm record.person
  have hholds : ((.eppn, userName'), true) ∈ liveNames personUuid registry.identifiers := by
    rw [huuid, hidentifiers, liveNames_filter] at hperm
    rw [hperm.mem_iff]
    exact List.mem_append_left _ List.mem_cons_self
  rw [← hname] at hholds
  exact assertUsernameFree_of_holder hordinary hholds

/-- **Of a settled person the replacement writes the source record and nothing else.** -/
theorem replaceRows_echo (hordinary : Ordinary py registry)
    (hload : registry.load personUuid = .ok record) (h : Settled record) :
    ∃ registry' resource,
      store.replaceRows personUuid (echo uniqueId { record with groups := groups }) raw none now
          today registry =
        .ok (registry', resource, registry.openAffiliations personUuid,
          registry.openAffiliations personUuid) ∧
      registry'.persons = registry.persons ∧ registry'.identifiers = registry.identifiers ∧
      registry'.affiliations = registry.affiliations ∧
      registry'.load personUuid = .ok record := by
  obtain ⟨hsound, hsource⟩ := hordinary.loads personUuid record hload
  obtain ⟨source, hstored⟩ := Option.ne_none_iff_exists'.mp hsource
  obtain ⟨hget, huuid, hidentifiers, haffiliations⟩ := parts_of_load hload
  have hpresent := present_of_settled h.present
  have hpersons : registry.updatePerson personUuid
      (writePerson (echo uniqueId { record with groups := groups })) = registry.persons :=
    updatePerson_eq_self hordinary.uuids hget (writePerson_echo h.present)
  have hrows : store.replaceRows personUuid (echo uniqueId { record with groups := groups }) raw
      none now today registry = _ :=
    UserStore.replaceRows_of_unchanged hload hstored
      (assertUsernameFree_echo hordinary hload hsound hpresent)
      ((replaceIdentifiers_echo_iff hload hsound hpresent).mpr ⟨h.once, h.number⟩)
      ((replaceAffiliations_echo_iff haffiliations).mpr h.consistent) hpersons
  rw [← (openAffiliations_echo_iff hload h.present).mpr ⟨h.current, h.ended⟩] at hrows
  exact ⟨_, _, hrows, rfl, rfl, rfl, Registry.load_updateSource hstored hload _ _⟩

end Replacement

/-! ## In every state that is reached -/

/-- The world, with the rows and the clock of the stores. -/
def State.within (s : State) (w : World Json (List Delivery)) : World Json (List Delivery) :=
  { w with registry := s.registry, now := s.now, today := s.today }

namespace Service

/-- `UserStore`, as it is now, with a hook that writes down what it is told. -/
def recorder (scim : Service) (s : State) : UserStore Json (List Delivery) Unit :=
  UserStore.recording ⟨scim.project s, scim.digest.etag, none, scim.lower⟩

/-- **Sending back what is read changes nothing**: the document is read by `from_scim`, and its
replacement succeeds, leaves the people, identifiers and affiliations as they are, is not told to
the hook, and what is read afterwards is the same document. -/
def ResentUnchanged (scim : Service) (py : Readers) (s : State) (resourceId : String)
    (w : World Json (List Delivery)) : Prop :=
  ∃ shown parsed resource w',
    scim.get s resourceId = .ok shown ∧
    fromScim (py.on s.today) shown.document = .ok parsed ∧
    ((scim.recorder s).replace resourceId parsed shown.document none).run (s.within w) =
      (.ok (.ok resource), w') ∧
    w'.registry.persons = s.registry.persons ∧
    w'.registry.identifiers = s.registry.identifiers ∧
    w'.registry.affiliations = s.registry.affiliations ∧
    w'.downstream = w.downstream ∧
    ∃ later, scim.get { s with registry := w'.registry } resourceId = .ok later ∧
      later.document = shown.document

variable {scim : Service} {py : Readers} {s : State} {resourceId : String} {record : UserRecord}
  {w : World Json (List Delivery)}

theorem get_of_load (hload : s.registry.load resourceId = .ok record) :
    scim.get s resourceId =
      .ok ⟨scim.project s record, scim.digest.etag (scim.project s record)⟩ := by
  unfold get
  rw [hload]

theorem deliveriesOf_eq_nil_iff {before after : Finset String} :
    deliveriesOf resourceId before after = [] ↔ before = after := by
  unfold deliveriesOf
  split_ifs with h <;> simp [h]

/-- The record that is shown. -/
abbrev withGroups (scim : Service) (s : State) (record : UserRecord) : Record :=
  { record with groups := s.tables.groupsOf scim.collate record.person.personUuid }

theorem fromScim_project (hsound : Sound py record)
    (hload : s.registry.load resourceId = .ok record)
    (hpresent : record.person.status ≠ .deactivated) {parsed : ParsedUser} :
    fromScim (py.on s.today) (scim.project s record) = .ok parsed ↔
      (∀ row ∈ record.affiliations, Ordered row) ∧
        (record.affiliations.filter (·.isPrimary)).length ≤ 1 ∧
        parsed = echo scim.uniqueId (scim.withGroups s record) :=
  fromScim_toScim ((shows_of_sound hsound hpresent (own_of_load hload)).on s.today)

/-- **Sending back what is read changes nothing for a settled person.** -/
theorem resentUnchanged_of_settled (hordinary : Ordinary py s.registry)
    (hload : s.registry.load resourceId = .ok record) (h : Settled record) :
    scim.ResentUnchanged py s resourceId w := by
  obtain ⟨hsound, -⟩ := hordinary.loads resourceId record hload
  have hread : fromScim (py.on s.today) (scim.project s record) =
      .ok (echo scim.uniqueId (scim.withGroups s record)) :=
    (fromScim_project hsound hload (present_of_settled h.present)).mpr
      ⟨h.ordered, h.onePrimary, rfl⟩
  obtain ⟨registry, resource, hrows, hpersons, hidentifiers, haffiliations, hload'⟩ :
      ∃ registry resource, (scim.recorder s).replaceRows resourceId
          (echo scim.uniqueId (scim.withGroups s record)) (scim.project s record) none s.now s.today
          s.registry =
        .ok (registry, resource, s.registry.openAffiliations resourceId,
          s.registry.openAffiliations resourceId) ∧ _ :=
    replaceRows_echo hordinary hload h
  have htold : (scim.recorder s).transitioned resourceId (s.registry.openAffiliations resourceId)
      (s.registry.openAffiliations resourceId) = pure () := if_pos rfl
  have hreplace : ((scim.recorder s).replace resourceId
      (echo scim.uniqueId (scim.withGroups s record)) (scim.project s record) none).run
        (s.within w) = (.ok (.ok resource), { s.within w with registry := registry }) := by
    unfold UserStore.replace
    rw [Eff.run_bind_of_ok (UserStore.run_transact_of_ok hrows)]
    dsimp only
    rw [htold]
    rfl
  refine ⟨_, _, resource, _, get_of_load hload, hread, hreplace, hpersons, hidentifiers,
    haffiliations, rfl, _, ?_, rfl⟩
  exact get_of_load (s := { s with registry := registry }) hload'

/-- **And for nobody else.** -/
theorem settled_of_resentUnchanged (hordinary : Ordinary py s.registry)
    (hload : s.registry.load resourceId = .ok record)
    (h : scim.ResentUnchanged py s resourceId w) : Settled record := by
  obtain ⟨hsound, -⟩ := hordinary.loads resourceId record hload
  obtain ⟨hget, -, -, haffiliations⟩ := parts_of_load hload
  obtain ⟨shown, parsed, resource, w', hshown, hread, hreplace, hpersons, hids, haffs, htold, -⟩ := h
  obtain rfl := Except.ok.inj ((get_of_load hload).symm.trans hshown)
  obtain ⟨registry, before, after, hrows, htransitioned⟩ := (scim.recorder s).replace_ok hreplace
  rw [recorder, UserStore.run_recording_transitioned] at htransitioned
  obtain rfl := (Prod.mk.inj htransitioned).2
  -- the status that is written is the one that was there
  have hstatus : record.person.status = parsed.status := by
    have hwritten := (scim.recorder s).replaceRows_status hrows
    have hsame : registry.get resourceId = s.registry.get resourceId :=
      congrArg (List.find? _) hpersons
    rw [hsame, hget] at hwritten
    exact Option.some.inj hwritten
  have hpresent : record.person.status = .active ∨ record.person.status = .suspended := by
    rw [hstatus, ParsedUser.status]
    split_ifs <;> simp
  have hnot := present_of_settled hpresent
  obtain ⟨hordered, hone, rfl⟩ := (fromScim_project hsound hload hnot).mp hread
  obtain ⟨-, rfl, rfl, -, hidentifiers, haffected⟩ := (scim.recorder s).replaceRows_ok hrows
  rw [show registry.identifiers = s.registry.identifiers from hids] at hidentifiers
  rw [show registry.affiliations = s.registry.affiliations from haffs] at haffected
  obtain ⟨honce, hnumber⟩ := (replaceIdentifiers_echo_iff hload hsound hnot).mp hidentifiers
  have hsame := deliveriesOf_eq_nil_iff.mp (List.append_right_eq_self.mp htold)
  obtain ⟨hcurrent, hended⟩ := (openAffiliations_echo_iff hload hpresent).mp hsame
  exact ⟨hpresent, honce, hnumber, hordered, hone,
    (replaceAffiliations_echo_iff haffiliations).mp haffected, hcurrent, hended⟩

/-- **When sending back what is read changes nothing.** -/
theorem resentUnchanged_iff (hpy : py.Lawful) (h : Reached scim py s)
    (hload : s.registry.load resourceId = .ok record) :
    scim.ResentUnchanged py s resourceId w ↔ Settled record := by
  obtain ⟨hordinary, -⟩ := ordinary_of_reached hpy h
  exact ⟨settled_of_resentUnchanged hordinary hload, resentUnchanged_of_settled hordinary hload⟩

/-! ### Ada, who is a student, and who was deleted -/

/-- The language on ASCII text, and a calendar of one day. -/
def oneDay : Readers where
  toBuiltins := .ascii
  upper text := String.ofList (text.toList.map Char.toUpper)
  repr _ := ""
  today := 738000
  instant _ := .valueError
  date text := if text = "2021-07-29" then some 738000 else none

theorem day_oneDay : oneDay.Day 738000 := by
  show (if isoformat 738000 = "2021-07-29" then some 738000 else none) = some (738000 : Int)
  decide

theorem lawful_oneDay : oneDay.Lawful where
  lower_lower := Text.lower_lower
  strip_lower text := by
    show Text.strip (Text.lower text) = Text.lower (Text.strip text)
    have hdrop : ∀ l : List Char, (l.map Char.toLower).dropWhile Text.isSpace =
        (l.dropWhile Text.isSpace).map Char.toLower := by
      intro l
      have hspace : Text.isSpace ∘ Char.toLower = Text.isSpace := funext Text.isSpace_toLower
      rw [List.dropWhile_map, hspace]
    simp only [Text.strip, Text.lower, String.toList_ofList, hdrop, ← List.map_reverse]
  at_lower text h := by
    show '@' ∈ (Text.lower text).toList
    rw [Text.lower, String.toList_ofList]
    exact List.mem_map.mpr ⟨'@', h, rfl⟩
  day_of_date text day h := by
    have hday : (if text = "2021-07-29" then some 738000 else none) = some day := h
    split at hday
    · cases hday
      exact day_oneDay
    · cases hday
  day_of_instant text day h := by cases h

/-- What is sent of Ada. -/
def adaDocument : Json :=
  .dict [("userName", .str "ada@uni.edu"), ("displayName", .str "Ada"),
    (campusUser, .dict [("affiliations", .list [.dict [("value", .str "student"),
      ("validFrom", .str "2021-07-29")]])])]

/-- And what is read of it. -/
def ada : ParsedUser where
  userName := "ada@uni.edu"
  displayName := some "Ada"
  affiliations := [{ value := "student", validFrom := 738000 }]

/-- Ada has been created, and has been deleted again. -/
def enrolledState : State :=
  sampleService.step (start 0 738000) (.create samplePerson ada adaDocument)

def goneState : State := sampleService.step enrolledState (.softDelete samplePerson none)

/-- The rows of Ada. -/
def adaRecord : UserRecord where
  person := writePerson ada { personUuid := samplePerson }
  identifiers := [issueIdentifier Text.lower samplePerson 0 .eppn "ada@uni.edu" true]
  affiliations := [affiliationRow samplePerson { value := "student", validFrom := 738000 }]
  externalId := none

/-- Nothing else has happened. -/
def quietWorld : World Json (List Delivery) where
  redis := Store.empty
  now := 0
  today := 738000
  rules := {}
  registry := {}
  lifecycle := {}
  downstream := []

theorem reached_enrolled : Reached sampleService oneDay enrolledState :=
  .step (.start 0 738000 day_oneDay) ⟨adaDocument, rfl⟩

theorem reached_gone : Reached sampleService oneDay goneState :=
  .step reached_enrolled trivial

theorem load_enrolled : enrolledState.registry.load samplePerson = .ok adaRecord := rfl

theorem load_gone : goneState.registry.load samplePerson =
    .ok (UserStore.deleted 0 738000 adaRecord) := rfl

theorem settled_ada : Settled adaRecord where
  present := .inl rfl
  once := by decide
  number row hrow htype := by
    obtain rfl := List.mem_singleton.mp hrow
    cases htype
  ordered := by decide
  onePrimary := by decide
  consistent row hrow := by
    obtain rfl := List.mem_singleton.mp hrow
    exact nofun
  current _ row hrow := ⟨row, hrow, by
    obtain rfl := List.mem_singleton.mp hrow
    exact ⟨rfl, rfl⟩⟩
  ended := nofun

/-- Sending Ada's document back changes nothing. -/
theorem resentUnchanged_ada :
    sampleService.ResentUnchanged oneDay enrolledState samplePerson quietWorld :=
  (resentUnchanged_iff lawful_oneDay reached_enrolled load_enrolled).mpr settled_ada

/-- **Sending back the document of somebody who was deleted** makes them a suspended person. -/
theorem not_resentUnchanged : ¬ ∀ (scim : Service) (py : Readers) (s : State) (resourceId : String)
    (record : UserRecord) (w : World Json (List Delivery)), py.Lawful → Reached scim py s →
      s.registry.load resourceId = .ok record → scim.ResentUnchanged py s resourceId w := by
  intro h
  have hsettled := settled_of_resentUnchanged (ordinary_of_reached lawful_oneDay reached_gone).1
    load_gone (h _ _ _ _ _ quietWorld lawful_oneDay reached_gone load_gone)
  rcases hsettled.present with hactive | hsuspended
  · cases hactive
  · cases hsuspended

end Service

end Scim
end CampusID
