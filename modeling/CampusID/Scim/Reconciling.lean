import CampusID.Scim.Frames

/-!
# When a replacement has nothing to do

`_replace_identifiers` and `_replace_affiliations` go through the rows of a person with a
dictionary of what is wanted, and pop the key of each row they find in it.

For the identifiers the dictionary and the live names of the person are two lists of the same
kind of entries.  Whatever the loop does, the live names are the wanted ones afterwards
(`liveNames_of_replaceIdentifiers`), so it leaves the rows as they are exactly when they were the
wanted ones before (`replaceIdentifiers_eq_self_iff`).

For the affiliations the dictionary has one entry for a value and a start, and there can be several
rows.  The first gets what the entry says; the others are closed, if they are open
(`reconcileAffiliations_eq_self_iff`).
-/

namespace CampusID

open Lib

/-! ## Identifiers -/

/-- The live names of a person: type and value, and whether it is primary. -/
def liveNames (personUuid : String) (rows : List Identifier) : List ((IdType × String) × Bool) :=
  (rows.filter fun row => row.personUuid = personUuid ∧ row.Live).map fun row =>
    ((row.idType, row.value), row.isPrimary)

/-- The row is of a type the store writes. -/
def Identifier.Kind (row : Identifier) : Prop :=
  row.idType = .eppn ∨ row.idType = .mail ∨ row.idType = .employeeId

variable {personUuid other : String} {lower : String → String} {now today : Int}
  {parsed : ParsedUser}

@[simp] theorem liveNames_nil : liveNames personUuid [] = [] := rfl

theorem liveNames_cons_of_live {row : Identifier} (rows : List Identifier)
    (h : row.personUuid = personUuid ∧ row.Live) : liveNames personUuid (row :: rows) =
      ((row.idType, row.value), row.isPrimary) :: liveNames personUuid rows := by
  rw [liveNames, List.filter_cons_of_pos (by simpa using h)]
  rfl

theorem liveNames_cons_of_not {row : Identifier} (rows : List Identifier)
    (h : ¬ (row.personUuid = personUuid ∧ row.Live)) :
    liveNames personUuid (row :: rows) = liveNames personUuid rows := by
  rw [liveNames, List.filter_cons_of_neg (by simpa using h)]
  rfl

@[simp] theorem liveNames_append (rows rows' : List Identifier) :
    liveNames personUuid (rows ++ rows') =
      liveNames personUuid rows ++ liveNames personUuid rows' := by
  rw [liveNames, List.filter_append, List.map_append]
  rfl

theorem liveNames_congr {rows rows' : List Identifier}
    (h : rows'.filter (·.personUuid = personUuid) = rows.filter (·.personUuid = personUuid)) :
    liveNames personUuid rows' = liveNames personUuid rows := by
  have hnames : ∀ rows : List Identifier, liveNames personUuid rows =
      ((rows.filter (·.personUuid = personUuid)).filter (·.Live)).map fun row =>
        ((row.idType, row.value), row.isPrimary) := by
    intro rows
    rw [List.filter_filter, liveNames]
    refine congrArg _ (List.filter_congr fun row _ => ?_)
    rw [Bool.decide_and, Bool.and_comm]
  rw [hnames, hnames, h]

theorem liveNames_issued (wanted : List ((IdType × String) × Bool)) :
    liveNames personUuid (wanted.map fun entry =>
      issueIdentifier lower personUuid now entry.1.1 entry.1.2 entry.2) = wanted := by
  induction wanted with
  | nil => rfl
  | cons entry wanted ih =>
    have hissued : (issueIdentifier lower personUuid now entry.1.1 entry.1.2 entry.2).personUuid =
        personUuid ∧ (issueIdentifier lower personUuid now entry.1.1 entry.1.2 entry.2).Live :=
      ⟨rfl, rfl⟩
    rw [List.map_cons, liveNames_cons_of_live _ hissued, ih]
    rfl

/-- **What the loop leaves live, and what it hands back, is what was wanted.** -/
theorem perm_reconcileIdentifiers {rows : List Identifier}
    (hkind : ∀ row ∈ rows, row.personUuid = personUuid → row.Kind)
    {wanted : List ((IdType × String) × Bool)} (hnodup : (wanted.map Prod.fst).Nodup) :
    List.Perm (liveNames personUuid (reconcileIdentifiers personUuid now rows wanted).1 ++
      (reconcileIdentifiers personUuid now rows wanted).2) wanted := by
  induction rows generalizing wanted with
  | nil => exact List.Perm.refl _
  | cons row rows ih =>
    obtain ⟨hrow, hrows⟩ := List.forall_mem_cons.mp hkind
    rw [reconcileIdentifiers]
    by_cases hmine : row.personUuid = personUuid ∧ row.Live
    · rw [if_pos hmine]
      cases hlookup : wanted.lookup (row.idType, row.value) with
      | some isPrimary =>
        -- the row is kept, and its key popped
        dsimp only
        have hkept : ({ row with isPrimary := isPrimary } : Identifier).personUuid = personUuid ∧
          ({ row with isPrimary := isPrimary } : Identifier).Live := hmine
        rw [liveNames_cons_of_live _ hkept, List.cons_append]
        refine (List.Perm.cons _ (ih hrows ?_)).trans (perm_of_lookup hnodup hlookup)
        exact List.Nodup.sublist (List.filter_sublist.map _) hnodup
      | none =>
        -- the row is released, being of one of the three types
        have hkind : row.idType = .eppn ∨ row.idType = .mail ∨ row.idType = .employeeId :=
          hrow hmine.1
        dsimp only
        rw [if_pos hkind, liveNames_cons_of_not]
        · exact ih hrows hnodup
        · rintro ⟨-, hlive⟩
          cases hlive
    · rw [if_neg hmine]
      dsimp only
      rw [liveNames_cons_of_not _ hmine]
      exact ih hrows hnodup

/-- **The loop has nothing to do** where the live names are the wanted ones. -/
theorem reconcileIdentifiers_eq_self {rows : List Identifier}
    {wanted : List ((IdType × String) × Bool)} (hnodup : (wanted.map Prod.fst).Nodup)
    (h : List.Perm wanted (liveNames personUuid rows)) :
    reconcileIdentifiers personUuid now rows wanted = (rows, []) := by
  induction rows generalizing wanted with
  | nil =>
    obtain rfl := h.eq_nil
    rfl
  | cons row rows ih =>
    rw [reconcileIdentifiers]
    by_cases hmine : row.personUuid = personUuid ∧ row.Live
    · rw [liveNames_cons_of_live _ hmine] at h
      have hlookup : wanted.lookup (row.idType, row.value) = some row.isPrimary :=
        lookup_of_mem hnodup (h.mem_iff.mpr List.mem_cons_self)
      have hrest : List.Perm (wanted.filter (·.1 ≠ (row.idType, row.value)))
          (liveNames personUuid rows) :=
        ((perm_of_lookup hnodup hlookup).trans h).cons_inv
      rw [if_pos hmine, hlookup]
      dsimp only
      rw [ih (List.Nodup.sublist (List.filter_sublist.map _) hnodup) hrest]
    · rw [liveNames_cons_of_not _ hmine] at h
      rw [if_neg hmine]
      dsimp only
      rw [ih hnodup h]

/-! ### What is wanted -/

/-- The names of somebody: the user name, the addresses, and the employee number. -/
def named (userName : String) (mails : List (String × Bool)) (number : Option String) :
    List ((IdType × String) × Bool) :=
  ((.eppn, userName), true) :: (mails.map fun mail => ((.mail, mail.1), mail.2)) ++
    number.toList.map fun number => ((.employeeId, number), true)

/-- The addresses a client sends, the last of several the same. -/
def addresses (emails : List (String × Bool)) : List (String × Bool) :=
  assignAll Prod.fst Prod.snd emails

theorem assign_mail (userName address : String) (isPrimary : Bool) (mails : List (String × Bool)) :
    assign (((.eppn, userName), true) :: mails.map fun mail => ((.mail, mail.1), mail.2))
        ((.mail, address) : IdType × String) isPrimary =
      ((.eppn, userName), true) ::
        (assign mails address isPrimary).map fun mail => ((.mail, mail.1), mail.2) := by
  have hany : (((IdType.eppn, userName), true) :: mails.map fun mail =>
      ((IdType.mail, mail.1), mail.2)).any (·.1 = (IdType.mail, address)) =
        mails.any (·.1 = address) := by
    simp [List.any_map, Function.comp_def]
  rw [assign, assign, hany]
  by_cases hthere : mails.any (·.1 = address) = true
  · rw [if_pos hthere, if_pos hthere, List.map_cons, if_neg (by simp), List.map_map, List.map_map]
    refine congrArg _ (List.map_congr_left fun mail _ => ?_)
    by_cases hmail : mail.1 = address
    · simp [hmail]
    · simp [hmail]
  · rw [if_neg hthere, if_neg hthere, List.map_append]
    rfl

/-- **What a client wants**, name by name. -/
theorem wantedIdentifiers_eq (hnumber : ∀ number ∈ parsed.employeeNumber, number ≠ "") :
    wantedIdentifiers parsed =
      named parsed.userName (addresses parsed.emails) parsed.employeeNumber := by
  have hmails : parsed.emails.foldl (fun d email =>
      assign d ((.mail, email.1) : IdType × String) email.2) [((.eppn, parsed.userName), true)] =
        ((.eppn, parsed.userName), true) ::
          (addresses parsed.emails).map fun mail => ((.mail, mail.1), mail.2) := by
    induction parsed.emails using List.reverseRecOn with
    | nil => rfl
    | append_singleton emails email ih =>
      rw [List.foldl_append, ih]
      refine (assign_mail _ _ _ _).trans ?_
      have hconcat : addresses (emails ++ [email]) = assign (addresses emails) email.1 email.2 :=
        assignAll_concat _ _ _ _
      rw [hconcat]
  unfold wantedIdentifiers
  rw [hmails]
  cases hemployee : parsed.employeeNumber with
  | none => simp [named]
  | some number =>
    dsimp only
    rw [if_neg (hnumber number hemployee), assign, if_neg]
    · rfl
    · simp

theorem nodup_wantedIdentifiers (parsed : ParsedUser) :
    ((wantedIdentifiers parsed).map Prod.fst).Nodup := by
  have hmails : ((parsed.emails.foldl (fun d email =>
      assign d ((.mail, email.1) : IdType × String) email.2)
        [((.eppn, parsed.userName), true)]).map Prod.fst).Nodup := by
    induction parsed.emails using List.reverseRecOn with
    | nil => simp
    | append_singleton emails email ih =>
      rw [List.foldl_append]
      exact nodup_assign _ _ ih
  unfold wantedIdentifiers
  split
  · split_ifs
    · exact hmails
    · exact nodup_assign _ _ hmails
  · exact hmails

/-! ### What a write leaves live -/

/-- **After a replacement** the live names are the wanted ones. -/
theorem liveNames_of_replaceIdentifiers {rows rows' : List Identifier}
    (hkind : ∀ row ∈ rows, row.personUuid = personUuid → row.Kind)
    (h : replaceIdentifiers lower personUuid parsed now rows = .ok rows') :
    List.Perm (liveNames personUuid rows') (wantedIdentifiers parsed) := by
  obtain ⟨rfl, -⟩ := Identity.addIdentifiers_ok h
  rw [liveNames_append, liveNames_issued]
  exact perm_reconcileIdentifiers hkind (nodup_wantedIdentifiers parsed)

/-- **A replacement leaves the rows as they are** exactly when the live names are the wanted
ones. -/
theorem replaceIdentifiers_eq_self_iff {rows : List Identifier}
    (hkind : ∀ row ∈ rows, row.personUuid = personUuid → row.Kind) :
    replaceIdentifiers lower personUuid parsed now rows = .ok rows ↔
      List.Perm (liveNames personUuid rows) (wantedIdentifiers parsed) := by
  constructor
  · exact liveNames_of_replaceIdentifiers hkind
  · intro h
    unfold replaceIdentifiers
    rw [reconcileIdentifiers_eq_self (nodup_wantedIdentifiers parsed) h.symm]
    simp [addIdentifiers]

/-- **After a creation** the names are the ones that were sent, the addresses as they came. -/
theorem liveNames_of_writeIdentifiers {rows rows' : List Identifier}
    (hnumber : ∀ number ∈ parsed.employeeNumber, number ≠ "")
    (h : writeIdentifiers lower personUuid parsed now rows = .ok rows') :
    liveNames personUuid rows' = liveNames personUuid rows ++
      named parsed.userName parsed.emails parsed.employeeNumber := by
  obtain ⟨rfl, -⟩ := Identity.addIdentifiers_ok h
  have hnames : liveNames personUuid
      ((named parsed.userName parsed.emails parsed.employeeNumber).map fun entry =>
        issueIdentifier lower personUuid now entry.1.1 entry.1.2 entry.2) =
      named parsed.userName parsed.emails parsed.employeeNumber := liveNames_issued _
  rw [liveNames_append]
  refine congrArg _ ((congrArg (liveNames personUuid) ?_).trans hnames)
  unfold named
  rw [List.map_append, List.map_cons, List.map_map]
  cases hemployee : parsed.employeeNumber with
  | none => rfl
  | some number =>
    dsimp only
    rw [if_neg (hnumber number hemployee)]
    rfl

/-! ## Affiliations -/

/-- The entry says of the row what the row says. -/
def ParsedAffiliation.Says (sent : ParsedAffiliation) (row : Affiliation) : Prop :=
  sent.isPrimary = row.isPrimary ∧ sent.orgUnit = row.orgUnit ∧ sent.validUntil = row.validUntil

instance (sent : ParsedAffiliation) (row : Affiliation) : Decidable (sent.Says row) :=
  inferInstanceAs (Decidable (_ ∧ _ ∧ _))

/-- The rows of one value and one start have nothing done to them: the first is what the entry
says, and no other is open.  Without an entry none is. -/
def Unaltered : Option ParsedAffiliation → List Affiliation → Prop
  | _, [] => True
  | some sent, row :: rows => sent.Says row ∧ ∀ other ∈ rows, ¬ other.Open
  | none, row :: rows => ∀ other ∈ row :: rows, ¬ other.Open

theorem unaltered_none {rows : List Affiliation} :
    Unaltered none rows ↔ ∀ row ∈ rows, ¬ row.Open := by
  cases rows with
  | nil => simp [Unaltered]
  | cons row rows => exact Iff.rfl

/-- The rows of a person with a key. -/
def Affiliation.keyed (personUuid : String) (key : String × Int) (rows : List Affiliation) :
    List Affiliation :=
  rows.filter fun row => row.personUuid = personUuid ∧ row.key = key

theorem rewritten_eq_iff {row : Affiliation} {sent : ParsedAffiliation} :
    { row with
      isPrimary := sent.isPrimary
      orgUnit := sent.orgUnit
      validUntil := sent.validUntil } = row ↔ sent.Says row := by
  obtain ⟨p, value, isPrimary, orgUnit, validFrom, validUntil⟩ := row
  simp [ParsedAffiliation.Says]

/-- **The loop leaves the rows as they are** exactly when it disturbs those of no key. -/
theorem reconcileAffiliations_eq_self_iff {rows : List Affiliation}
    (wanted : List ((String × Int) × ParsedAffiliation)) :
    (reconcileAffiliations personUuid today rows wanted).1 = rows ↔
      ∀ key, Unaltered (wanted.lookup key) (Affiliation.keyed personUuid key rows) := by
  induction rows generalizing wanted with
  | nil => simp [reconcileAffiliations, Affiliation.keyed, Unaltered]
  | cons row rows ih =>
    have hkeydef : (row.affiliation, row.validFrom) = row.key := rfl
    rw [reconcileAffiliations, hkeydef]
    by_cases hmine : row.personUuid = personUuid
    · rw [if_pos hmine]
      have hkeyed : ∀ key, Affiliation.keyed personUuid key (row :: rows) =
          if row.key = key then row :: Affiliation.keyed personUuid key rows
          else Affiliation.keyed personUuid key rows := by
        intro key
        by_cases hkey : row.key = key
        · rw [if_pos hkey, Affiliation.keyed, List.filter_cons_of_pos (by simp [hmine, hkey])]
          rfl
        · rw [if_neg hkey, Affiliation.keyed, List.filter_cons_of_neg (by simp [hkey])]
          rfl
      cases hlookup : wanted.lookup row.key with
      | some sent =>
        dsimp only
        rw [List.cons.injEq, ih]
        rw [rewritten_eq_iff]
        constructor
        · rintro ⟨hfirst, hothers⟩ key
          have hrest := hothers key
          rw [lookup_filter_ne] at hrest
          rw [hkeyed]
          by_cases hkey : row.key = key
          · subst hkey
            rw [if_pos rfl] at hrest ⊢
            rw [hlookup]
            exact ⟨hfirst, unaltered_none.mp hrest⟩
          · rw [if_neg hkey]
            rwa [if_neg (Ne.symm hkey)] at hrest
        · intro h
          have hown := h row.key
          rw [hkeyed, if_pos rfl, hlookup] at hown
          refine ⟨hown.1, fun key => ?_⟩
          rw [lookup_filter_ne]
          by_cases hkey : key = row.key
          · rw [if_pos hkey]
            subst hkey
            exact unaltered_none.mpr hown.2
          · rw [if_neg hkey]
            have hother := h key
            rwa [hkeyed, if_neg (Ne.symm hkey)] at hother
      | none =>
        have hiff : (∀ key, Unaltered (wanted.lookup key)
            (Affiliation.keyed personUuid key (row :: rows))) ↔ ¬ row.Open ∧
              ∀ key, Unaltered (wanted.lookup key) (Affiliation.keyed personUuid key rows) := by
          constructor
          · intro h
            have hown := h row.key
            rw [hkeyed, if_pos rfl, hlookup] at hown
            obtain ⟨hfirst, hothers⟩ := List.forall_mem_cons.mp hown
            refine ⟨hfirst, fun key => ?_⟩
            by_cases hkey : row.key = key
            · subst hkey
              rw [hlookup]
              exact unaltered_none.mpr hothers
            · have hother := h key
              rwa [hkeyed, if_neg hkey] at hother
          · rintro ⟨hfirst, hothers⟩ key
            have hother := hothers key
            rw [hkeyed]
            by_cases hkey : row.key = key
            · subst hkey
              rw [hlookup] at hother ⊢
              rw [if_pos rfl]
              exact List.forall_mem_cons.mpr ⟨hfirst, unaltered_none.mp hother⟩
            · rwa [if_neg hkey]
        rw [hiff]
        dsimp only
        by_cases hopen : row.Open
        · rw [if_pos hopen]
          refine iff_of_false (fun heq => ?_) fun h => h.1 hopen
          -- the row would be closed
          have hclosed := congrArg Affiliation.validUntil (List.cons.inj heq).1
          rw [show row.validUntil = none from hopen] at hclosed
          cases hclosed
        · rw [if_neg hopen]
          simp only [List.cons.injEq, true_and, hopen, not_false_eq_true]
          exact ih wanted
    · have hkeyed : ∀ key, Affiliation.keyed personUuid key (row :: rows) =
          Affiliation.keyed personUuid key rows := fun key => by
        rw [Affiliation.keyed, List.filter_cons_of_neg (by simp [hmine])]
        rfl
      rw [if_neg hmine]
      simp only [List.cons.injEq, true_and, hkeyed]
      exact ih wanted

theorem notMem_of_mem_reconcileAffiliations {rows : List Affiliation}
    {wanted : List ((String × Int) × ParsedAffiliation)} {entry : (String × Int) × ParsedAffiliation}
    (h : entry ∈ (reconcileAffiliations personUuid today rows wanted).2) :
    entry ∈ wanted ∧ ∀ row ∈ rows, row.personUuid = personUuid → row.key ≠ entry.1 := by
  induction rows generalizing wanted with
  | nil => exact ⟨h, nofun⟩
  | cons row rows ih =>
    have hkeydef : (row.affiliation, row.validFrom) = row.key := rfl
    rw [reconcileAffiliations, hkeydef] at h
    rw [List.forall_mem_cons]
    by_cases hmine : row.personUuid = personUuid
    · rw [if_pos hmine] at h
      cases hlookup : wanted.lookup row.key with
      | some sent =>
        rw [hlookup] at h
        obtain ⟨hmem, hrest⟩ := ih h
        obtain ⟨hwanted, hne⟩ := List.mem_filter.mp hmem
        exact ⟨hwanted, fun _ => Ne.symm (by simpa using hne), hrest⟩
      | none =>
        rw [hlookup] at h
        have hmem : entry ∈ (reconcileAffiliations personUuid today rows wanted).2 := by
          dsimp only at h
          split at h <;> exact h
        obtain ⟨hwanted, hrest⟩ := ih hmem
        refine ⟨hwanted, fun _ hkey => notMem_keys_of_lookup hlookup ?_, hrest⟩
        exact hkey ▸ List.mem_map_of_mem hwanted
    · rw [if_neg hmine] at h
      obtain ⟨hwanted, hrest⟩ := ih h
      exact ⟨hwanted, fun heq => absurd heq hmine, hrest⟩

/-- The key an affiliation is sent under. -/
def ParsedAffiliation.key (sent : ParsedAffiliation) : String × Int := (sent.value, sent.validFrom)

/-- **A replacement leaves the affiliations as they are**, where it adds none, exactly when it
disturbs those of no key: the last of several entries with one key is the one that counts. -/
theorem replaceAffiliations_eq_self_iff {rows : List Affiliation}
    (hrows : ∀ sent ∈ parsed.affiliations, ∃ row ∈ rows, row.personUuid = personUuid ∧
      row.key = sent.key) :
    replaceAffiliations personUuid parsed today rows = .ok rows ↔
      ∀ key, Unaltered (parsed.affiliations.filter (·.key = key)).getLast?
        (Affiliation.keyed personUuid key rows) := by
  have hwanted : wantedAffiliations parsed =
      assignAll ParsedAffiliation.key id parsed.affiliations := rfl
  have hlast : ∀ key, (wantedAffiliations parsed).lookup key =
      (parsed.affiliations.filter (·.key = key)).getLast? := fun key => by
    rw [hwanted, lookup_assignAll, Option.map_id]
    rfl
  have hnone : (reconcileAffiliations personUuid today rows (wantedAffiliations parsed)).2 = [] := by
    refine List.eq_nil_iff_forall_not_mem.mpr fun entry hentry => ?_
    obtain ⟨hmem, hfree⟩ := notMem_of_mem_reconcileAffiliations hentry
    rw [hwanted] at hmem
    obtain ⟨sent, hsent, rfl⟩ := exists_of_mem_assignAll _ _ hmem
    obtain ⟨row, hrow, hmine, hkey⟩ := hrows sent hsent
    exact hfree row hrow hmine hkey
  unfold replaceAffiliations
  dsimp only
  rw [hnone, List.map_nil]
  simp only [addAffiliations, List.find?_nil, List.map_nil, List.append_nil, Except.ok.injEq]
  rw [reconcileAffiliations_eq_self_iff]
  exact forall_congr' fun key => by rw [hlast]

/-! ## The transaction -/

/-- **A replacement that has nothing to do** writes the source record and nothing else. -/
theorem UserStore.replaceRows_of_unchanged {Doc δ E : Type} {store : UserStore Doc δ E} {raw : Doc}
    {registry : Registry Doc} {record : UserRecord} {source : ScimSourceRecord Doc}
    (hload : registry.load personUuid = .ok record)
    (hsource : registry.sourceOf personUuid = some source)
    (hfree : assertUsernameFree registry parsed.userName (some personUuid) = .ok ())
    (hidentifiers : replaceIdentifiers store.lower personUuid parsed now registry.identifiers =
      .ok registry.identifiers)
    (haffiliations : replaceAffiliations personUuid parsed today registry.affiliations =
      .ok registry.affiliations)
    (hpersons : registry.updatePerson personUuid (writePerson parsed) = registry.persons) :
    store.replaceRows personUuid parsed raw none now today registry =
      .ok (registry.updateSource personUuid raw (store.version (store.toScim record)),
        store.toScim record, registry.openAffiliations personUuid,
        if parsed.status = .active then parsed.affiliationValues else ∅) := by
  obtain ⟨person, hget, -⟩ := Registry.load_eq_ok.mp hload
  have hsame : ({ registry with
      persons := registry.updatePerson personUuid (writePerson parsed)
      identifiers := registry.identifiers
      affiliations := registry.affiliations } : Registry Doc) = registry := by
    rw [hpersons]
  have hfinish : store.finish personUuid raw registry =
      .ok (registry.updateSource personUuid raw (store.version (store.toScim record)),
        store.toScim record) := by
    unfold finish
    rw [hload, hsource]
    rfl
  unfold replaceRows
  rw [hget]
  dsimp only
  rw [hfree, hidentifiers, haffiliations]
  show (store.finish personUuid raw { registry with
      persons := registry.updatePerson personUuid (writePerson parsed)
      identifiers := registry.identifiers
      affiliations := registry.affiliations } >>= _) = _
  rw [hsame, hfinish]
  rfl

end CampusID
