import CampusID.Identity.Returning

/-!
# On which evidence a login is linked

Five rules, each weaker than the one before, and the first that applies decides.  What makes a
rule apply is said here by the rows of the tables: a live identifier, an account, the active
holder of a live name, a live address.  The last rule makes somebody new, under a name nobody has
or had.

`resolve` does what the rules say whenever it returns, and changes rows of nobody else.  It does
not return where the rule that decides writes a row the tables refuse (`resolves_iff`).
-/

namespace CampusID
namespace Identity

open Lib

/-! ## The rules -/

section Rules

variable {Doc : Type} (lower : String → String) (tables : Tables Doc) (assertion : Assertion)

/-- The asserted unique identifier is a live row of the person. -/
def ByUniqueId (personUuid : String) : Prop :=
  ∃ value, given assertion.uniqueId = some value ∧ ∃ row ∈ tables.registry.identifiers,
    row.idType = .uniqueId ∧ row.value = value ∧ row.Live ∧ row.personUuid = personUuid

/-- The subject has an account at the issuer, which is the person's. -/
def ByAccount (personUuid : String) : Prop :=
  ∃ account ∈ tables.accounts, account.subject = assertion.key ∧ account.personUuid = personUuid

/-- The person holds the asserted ePPN, unreleased, and is active. -/
def ByEppn (personUuid : String) : Prop :=
  ∃ value row person, given assertion.eppn = some value ∧
    tables.registry.liveEppn (lower value) = some row ∧ row.personUuid = personUuid ∧
    tables.registry.get personUuid = some person ∧ person.status = .active

/-- The asserted address is a live row of somebody. -/
def ByMail : Prop :=
  ∃ value, given assertion.mail = some value ∧ ∃ row ∈ tables.registry.identifiers,
    row.idType = .mail ∧ row.value = lower value ∧ row.Live

/-- **The first rule that applies**, and whom it decides on; `new` is who is made up otherwise. -/
def Decides (new : String) : LinkBasis → Option String → Prop
  | .uniqueId, decided => ∃ p, decided = some p ∧ ByUniqueId tables assertion p
  | .existingAccount, decided => (∀ p, ¬ ByUniqueId tables assertion p) ∧
      ∃ p, decided = some p ∧ ByAccount tables assertion p
  | .eppn, decided => (∀ p, ¬ ByUniqueId tables assertion p) ∧
      (∀ p, ¬ ByAccount tables assertion p) ∧ ∃ p, decided = some p ∧ ByEppn lower tables assertion p
  | .manualReview, decided => (∀ p, ¬ ByUniqueId tables assertion p) ∧
      (∀ p, ¬ ByAccount tables assertion p) ∧ (∀ p, ¬ ByEppn lower tables assertion p) ∧
      ByMail lower tables assertion ∧ decided = none
  | .created, decided => (∀ p, ¬ ByUniqueId tables assertion p) ∧
      (∀ p, ¬ ByAccount tables assertion p) ∧ (∀ p, ¬ ByEppn lower tables assertion p) ∧
      ¬ ByMail lower tables assertion ∧ decided = some new

/-- Rows were added for one person, and names only that no row bore. -/
def AddsFresh (personUuid : String) (rows rows' : List Identifier) : Prop :=
  ∃ new, rows' = rows ++ new ∧ ∀ row ∈ new, row.personUuid = personUuid ∧
    (row.idType = .eppn → ∀ other ∈ rows, other.idType = .eppn → other.value ≠ row.value)

/-- A name and all its suffixed forms are on rows. -/
def NamesTaken (wanted : String) (rows : List Identifier) : Prop :=
  identifierTaken rows .eppn (lower wanted) = true ∧
    ∀ suffix ∈ List.range' 2 (maxEppnSuffix - 1), identifierTaken rows .eppn
      (suffixedEppn (((Text.rpartition '@' (lower wanted)).map Prod.fst).getD "")
        (scopeOf lower (lower wanted)) suffix) = true

/-- A row with a name is among those that were added. -/
def AddsName (rows rows' : List Identifier) : Prop :=
  ∃ new, rows' = rows ++ new ∧ ∃ row ∈ new, row.idType = .eppn

/-- Somebody is new, under a name that no row bore, and nameless only where the name that was
wanted is taken in every form. -/
structure Creates (wanted new : String) (registry registry' : Registry Doc) : Prop where
  person : ∃ person, registry'.persons = registry.persons ++ [person] ∧ person.personUuid = new
  fresh : AddsFresh new registry.identifiers registry'.identifiers
  named : AddsName registry.identifiers registry'.identifiers ∨
    NamesTaken lower wanted registry.identifiers

/-- Nothing changed but the account and the identifier rows of one person, and nothing of that was
taken away. -/
structure OthersKept (decided : Option String) (tables tables' : Tables Doc) : Prop where
  persons : ∃ new, tables'.registry.persons = tables.registry.persons ++ new ∧
    ∀ person ∈ new, decided = some person.personUuid
  identifiers : ∃ new, tables'.registry.identifiers = tables.registry.identifiers ++ new ∧
    ∀ row ∈ new, decided = some row.personUuid
  accounts : ∀ other, decided ≠ some other →
    tables'.accounts.filter (·.personUuid = other) = tables.accounts.filter (·.personUuid = other)
  affiliations : tables'.registry.affiliations = tables.registry.affiliations
  sources : tables'.registry.sources = tables.registry.sources

/-- What a resolution has to be. -/
structure Resolves (wanted new : String) (tables' : Tables Doc) (resolution : Resolution) :
    Prop where
  decides : Decides lower tables assertion new resolution.basis resolution.personUuid
  creates : resolution.basis = .created →
    Creates lower wanted new tables.registry tables'.registry
  others : OthersKept resolution.personUuid tables tables'

/-- The unique identifier decides, and the subject has an account already. -/
def AccountAgain : Prop :=
  (∃ p, ByUniqueId tables assertion p) ∧ ∃ p, ByAccount tables assertion p

/-- Nothing decides, and the unique identifier is on a row, under its scope. -/
def UniqueIdTaken : Prop :=
  (∀ p, ¬ ByUniqueId tables assertion p) ∧ (∀ p, ¬ ByAccount tables assertion p) ∧
    (∀ p, ¬ ByEppn lower tables assertion p) ∧ ¬ ByMail lower tables assertion ∧
    ∃ value scope, given assertion.uniqueId = some value ∧ scopeOf lower value = some scope ∧
      ∃ row ∈ tables.registry.identifiers,
        row.idType = .uniqueId ∧ row.value = value ∧ row.scope = some scope

end Rules

/-- The name somebody new is to have: the asserted one, or one that is made up. -/
def IdentityRegistry.wantedEppn (r : IdentityRegistry) (assertion : Assertion) (minted : Minted) :
    String :=
  (given assertion.eppn).getD (newUniqueId minted.token r.scope)

variable {Doc : Type} {r : IdentityRegistry} {assertion : Assertion} {minted : Minted} {now : Int}
  {tables tables' : Tables Doc} {resolution : Resolution} {rows rows' : List Identifier}
  {accounts accounts' : List Account} {personUuid : String} {registry : Registry Doc}

/-! ## The lookups are the rules -/

theorem get_uuid {person : Person} (h : registry.get personUuid = some person) :
    person.personUuid = personUuid := by
  simpa using List.find?_some h

theorem byUniqueId_of_lookup {person : Person}
    (h : IdentityRegistry.byAssertedUniqueId tables.registry assertion.uniqueId = some person) :
    ByUniqueId tables assertion person.personUuid := by
  obtain ⟨value, hvalue, h⟩ := Option.bind_eq_some_iff.mp h
  obtain ⟨row, hrow, hperson⟩ := Option.bind_eq_some_iff.mp h
  have hkey : row.idType = .uniqueId ∧ row.value = value ∧ row.Live := by
    simpa using List.find?_some hrow
  obtain ⟨htype, hsame, hlive⟩ := hkey
  exact ⟨value, hvalue, row, List.mem_of_find?_eq_some hrow, htype, hsame, hlive,
    (get_uuid hperson).symm⟩

theorem byUniqueId_none (hattached : Attached tables.registry.persons tables.registry.identifiers) :
    IdentityRegistry.byAssertedUniqueId tables.registry assertion.uniqueId = none ↔
      ∀ p, ¬ ByUniqueId tables assertion p := by
  rw [byAssertedUniqueId_eq_none hattached]
  constructor
  · rintro hnever p ⟨value, hvalue, row, hrow, htype, hsame, hlive, -⟩
    exact hnever value hvalue row hrow ⟨htype, hsame, hlive⟩
  · rintro hnobody value hvalue row hrow ⟨htype, hsame, hlive⟩
    exact hnobody row.personUuid ⟨value, hvalue, row, hrow, htype, hsame, hlive, rfl⟩

theorem byAccount_of_lookup {account : Account}
    (h : IdentityRegistry.accountOf assertion tables.accounts = some account) :
    ByAccount tables assertion account.personUuid := by
  have hkey : account.idpEntityId = assertion.idpEntityId ∧
      account.subjectAtIdp = assertion.subject := by
    simpa using List.find?_some h
  exact ⟨account, List.mem_of_find?_eq_some h, Prod.ext hkey.1 hkey.2, rfl⟩

theorem byAccount_none : IdentityRegistry.accountOf assertion tables.accounts = none ↔
    ∀ p, ¬ ByAccount tables assertion p := by
  rw [accountOf_eq_none, List.mem_map]
  constructor
  · rintro hnone p ⟨account, haccount, hkey, -⟩
    exact hnone ⟨account, haccount, hkey⟩
  · rintro hnobody ⟨account, haccount, hkey⟩
    exact hnobody account.personUuid ⟨account, haccount, hkey, rfl⟩

theorem byLiveEppn_eq_some {person : Person} :
    r.byLiveEppn tables.registry assertion.eppn = some person ↔
      ∃ value row, given assertion.eppn = some value ∧
        tables.registry.liveEppn (r.lower value) = some row ∧
        tables.registry.get row.personUuid = some person ∧ person.status = .active := by
  unfold IdentityRegistry.byLiveEppn
  simp only [Option.bind_eq_bind, Option.bind_eq_some_iff]
  constructor
  · rintro ⟨value, hvalue, row, hrow, found, hfound, hactive⟩
    split_ifs at hactive with hstatus
    obtain rfl := Option.some.inj hactive
    exact ⟨value, row, hvalue, hrow, hfound, hstatus⟩
  · rintro ⟨value, row, hvalue, hrow, hfound, hstatus⟩
    exact ⟨value, hvalue, row, hrow, person, hfound, if_pos hstatus⟩

theorem byEppn_of_lookup {person : Person}
    (h : r.byLiveEppn tables.registry assertion.eppn = some person) :
    ByEppn r.lower tables assertion person.personUuid := by
  obtain ⟨value, row, hvalue, hrow, hfound, hstatus⟩ := byLiveEppn_eq_some.mp h
  have huuid := get_uuid hfound
  exact ⟨value, row, person, hvalue, hrow, huuid.symm, by rwa [huuid], hstatus⟩

theorem byEppn_none : r.byLiveEppn tables.registry assertion.eppn = none ↔
    ∀ p, ¬ ByEppn r.lower tables assertion p := by
  rw [Option.eq_none_iff_forall_ne_some]
  constructor
  · rintro hnone p ⟨value, row, person, hvalue, hrow, rfl, hfound, hstatus⟩
    exact hnone person (byLiveEppn_eq_some.mpr ⟨value, row, hvalue, hrow, hfound, hstatus⟩)
  · intro hnobody person hperson
    exact hnobody _ (byEppn_of_lookup hperson)

theorem byMail_iff :
    r.mailOnlyMatch tables.registry assertion.mail = true ↔ ByMail r.lower tables assertion := by
  unfold IdentityRegistry.mailOnlyMatch ByMail
  cases given assertion.mail with
  | none => simp
  | some value => simp [List.any_eq_true]

/-! ## What a creation writes -/

theorem addsFresh_refl : AddsFresh personUuid rows rows :=
  ⟨[], (List.append_nil rows).symm, by simp⟩

theorem AddsFresh.trans {rows'' : List Identifier} (h : AddsFresh personUuid rows rows')
    (h' : AddsFresh personUuid rows' rows'') : AddsFresh personUuid rows rows'' := by
  obtain ⟨new, rfl, hnew⟩ := h
  obtain ⟨new', rfl, hnew'⟩ := h'
  refine ⟨new ++ new', List.append_assoc rows new new', fun row hrow => ?_⟩
  rcases List.mem_append.mp hrow with hrow | hrow
  · exact hnew row hrow
  · obtain ⟨hperson, hfree⟩ := hnew' row hrow
    exact ⟨hperson, fun htype other hother => hfree htype other (List.mem_append_left new hother)⟩

theorem AddsFresh.append (h : AddsFresh personUuid rows rows') :
    ∃ new, rows' = rows ++ new ∧ ∀ row ∈ new, row.personUuid = personUuid := by
  obtain ⟨new, heq, hnew⟩ := h
  exact ⟨new, heq, fun row hrow => (hnew row hrow).1⟩

theorem addIdentifiers_of_not_taken {row : Identifier}
    (h : identifierTaken rows row.idType row.value = false) :
    addIdentifiers rows [row] = .ok (rows ++ [row]) := by
  refine if_neg ?_
  rintro ⟨new, hnew, other, hother, htype, hvalue, -⟩
  obtain rfl := List.mem_singleton.mp hnew
  exact value_ne_of_not_taken h other hother htype.symm hvalue.symm

theorem addsFresh_singleton {row : Identifier} (hperson : row.personUuid = personUuid)
    (h : row.idType = .eppn → identifierTaken rows .eppn row.value = false) :
    AddsFresh personUuid rows (rows ++ [row]) := by
  refine ⟨[row], rfl, fun new hnew => ?_⟩
  obtain rfl := List.mem_singleton.mp hnew
  exact ⟨hperson, fun htype => value_ne_of_not_taken (h htype)⟩

theorem claimEppn_ok (asserted : String) : ∃ rows', r.claimEppn personUuid asserted now rows =
    .ok rows' ∧ AddsFresh personUuid rows rows' ∧
      (AddsName rows rows' ∨ NamesTaken r.lower asserted rows) := by
  unfold IdentityRegistry.claimEppn
  dsimp only
  split
  · next hfree =>
    have hfree : identifierTaken rows .eppn (r.lower asserted) = false := by simpa using hfree
    exact ⟨_, addIdentifiers_of_not_taken hfree, addsFresh_singleton rfl fun _ => hfree,
      .inl ⟨_, rfl, _, List.mem_singleton_self _, rfl⟩⟩
  · next htaken =>
    split
    · next suffix hsuffix =>
      have hfree := by simpa using List.find?_some hsuffix
      exact ⟨_, addIdentifiers_of_not_taken hfree, addsFresh_singleton rfl fun _ => hfree,
        .inl ⟨_, rfl, _, List.mem_singleton_self _, rfl⟩⟩
    · next hnone =>
      refine ⟨rows, rfl, addsFresh_refl, .inr ⟨by simpa using htaken, fun suffix hsuffix => ?_⟩⟩
      simpa using List.find?_eq_none.mp hnone suffix hsuffix

theorem keepMail_ok : ∃ rows', r.keepMail assertion personUuid now rows = .ok rows' ∧
    AddsFresh personUuid rows rows' := by
  unfold IdentityRegistry.keepMail
  split
  · exact ⟨rows, rfl, addsFresh_refl⟩
  · next value _ =>
    split
    · exact ⟨rows, rfl, addsFresh_refl⟩
    · next hfree =>
      have hfree : identifierTaken rows .mail (r.lower value) = false := by simpa using hfree
      exact ⟨_, addIdentifiers_of_not_taken hfree, addsFresh_singleton rfl (by simp)⟩

theorem keepUniqueId_ok : (∃ rows', r.keepUniqueId assertion personUuid now rows = .ok rows' ∧
      AddsFresh personUuid rows rows') ↔
    ¬ ∃ value scope, given assertion.uniqueId = some value ∧ scopeOf r.lower value = some scope ∧
      ∃ row ∈ rows, row.idType = .uniqueId ∧ row.value = value ∧ row.scope = some scope := by
  unfold IdentityRegistry.keepUniqueId
  cases given assertion.uniqueId with
  | none => exact iff_of_true ⟨rows, rfl, addsFresh_refl⟩ (by simp)
  | some value =>
    constructor
    · rintro ⟨rows', hok, -⟩ ⟨value', scope, hvalue, hscope, row, hrow, htype, hsame, hrowScope⟩
      obtain rfl := Option.some.inj hvalue
      refine (addIdentifiers_ok hok).2 _ (List.mem_singleton_self _) row hrow ?_
      exact ⟨htype.symm, hsame.symm, hscope.trans hrowScope.symm, by simp [hscope]⟩
    · intro hfree
      refine ⟨_, if_neg ?_, addsFresh_singleton rfl (by simp)⟩
      rintro ⟨new, hnew, row, hrow, htype, hsame, hscope, hnone⟩
      obtain rfl := List.mem_singleton.mp hnew
      obtain ⟨scope, hsome⟩ := Option.ne_none_iff_exists'.mp hnone
      exact hfree ⟨value, scope, rfl, hsome, row, hrow, htype.symm, hsame.symm,
        hscope.symm.trans hsome⟩

theorem taken_append {new : List Identifier} {idType : IdType} {value : String}
    (h : ∀ row ∈ new, row.idType ≠ idType) :
    identifierTaken (rows ++ new) idType value = identifierTaken rows idType value := by
  have hnone : identifierTaken new idType value = false := by
    refine List.any_eq_false.mpr fun row hrow => ?_
    simp [h row hrow]
  rw [identifierTaken, List.any_append]
  exact (congrArg _ hnone).trans (Bool.or_false _)

theorem namesTaken_keepUniqueId {wanted : String}
    (h : r.keepUniqueId assertion personUuid now rows = .ok rows')
    (htaken : NamesTaken r.lower wanted rows') : NamesTaken r.lower wanted rows := by
  unfold IdentityRegistry.keepUniqueId at h
  split at h
  · cases h
    exact htaken
  · obtain ⟨rfl, -⟩ := addIdentifiers_ok h
    obtain ⟨hwanted, hsuffixed⟩ := htaken
    refine ⟨?_, fun suffix hsuffix => ?_⟩
    · rwa [taken_append (by simp)] at hwanted
    · have htaken := hsuffixed suffix hsuffix
      rwa [taken_append (by simp)] at htaken

/-- **Somebody new is made** unless the identifier the issuer knows them by is refused. -/
theorem create_iff : (∃ registry', r.create assertion minted now registry = .ok registry' ∧
      Creates r.lower (r.wantedEppn assertion minted) minted.personUuid registry registry' ∧
      registry'.affiliations = registry.affiliations ∧ registry'.sources = registry.sources) ↔
    ¬ ∃ value scope, given assertion.uniqueId = some value ∧ scopeOf r.lower value = some scope ∧
      ∃ row ∈ registry.identifiers,
        row.idType = .uniqueId ∧ row.value = value ∧ row.scope = some scope := by
  have hkept : (∃ rows', r.keepUniqueId assertion minted.personUuid now registry.identifiers =
      .ok rows' ∧ AddsFresh minted.personUuid registry.identifiers rows') ↔ _ := keepUniqueId_ok
  rw [← hkept]
  constructor
  · rintro ⟨registry', hcreate, -, -⟩
    obtain ⟨identifiers, hids, -⟩ := Eff.except_bind_eq_ok.mp hcreate
    obtain ⟨named, hnamed, -⟩ := Eff.except_bind_eq_ok.mp hids
    by_contra hnone
    refine hnone ⟨named, hnamed, ?_⟩
    unfold IdentityRegistry.keepUniqueId at hnamed
    split at hnamed
    · cases hnamed
      exact addsFresh_refl
    · obtain ⟨rfl, -⟩ := addIdentifiers_ok hnamed
      exact addsFresh_singleton rfl (by simp)
  · rintro ⟨named, hnamed, hfresh⟩
    obtain ⟨claimed, hclaimed, hclaim, hname⟩ : ∃ rows', r.claimEppn minted.personUuid
        (r.wantedEppn assertion minted) now named = .ok rows' ∧
        AddsFresh minted.personUuid named rows' ∧ (AddsName named rows' ∨
          NamesTaken r.lower (r.wantedEppn assertion minted) named) := claimEppn_ok _
    obtain ⟨kept, hkept, hkeep⟩ : ∃ rows', r.keepMail assertion minted.personUuid now claimed =
        .ok rows' ∧ AddsFresh minted.personUuid claimed rows' := keepMail_ok
    have hids : r.createIdentifiers assertion minted now registry.identifiers = .ok kept :=
      Eff.except_bind_eq_ok.mpr ⟨named, hnamed,
        Eff.except_bind_eq_ok.mpr ⟨claimed, hclaimed, hkept⟩⟩
    refine ⟨_, Eff.except_bind_eq_ok.mpr ⟨kept, hids, rfl⟩,
      ⟨⟨_, rfl, rfl⟩, (hfresh.trans hclaim).trans hkeep, ?_⟩, rfl, rfl⟩
    refine hname.imp (fun hadds => ?_) (namesTaken_keepUniqueId hnamed)
    obtain ⟨before, rfl, -⟩ := hfresh.append
    obtain ⟨behind, rfl, -⟩ := hkeep.append
    obtain ⟨new, rfl, row, hrow, htype⟩ := hadds
    refine ⟨before ++ new ++ behind, by simp, row, ?_, htype⟩
    exact List.mem_append_left _ (List.mem_append_right _ hrow)

/-! ## What stays -/

theorem touchAccount_of_none {basis : LinkBasis}
    (h : IdentityRegistry.accountOf assertion accounts = none) : ∃ account,
      IdentityRegistry.touchAccount personUuid assertion basis now accounts =
        .ok (accounts ++ [account]) ∧ account.personUuid = personUuid := by
  refine ⟨_, if_neg ?_, rfl⟩
  rintro ⟨account, haccount, hidp, hsubject⟩
  rw [accountOf_eq_none, List.mem_map] at h
  exact h ⟨account, haccount, Prod.ext hidp hsubject⟩

theorem othersKept_touch {account : Account} (h : account.personUuid = personUuid) :
    OthersKept (some personUuid) tables { tables with accounts := tables.accounts ++ [account] } where
  persons := ⟨[], (List.append_nil _).symm, by simp⟩
  identifiers := ⟨[], (List.append_nil _).symm, by simp⟩
  accounts other hother := by
    have hne : ¬ account.personUuid = other := by
      rintro rfl
      exact hother (congrArg some h.symm)
    rw [List.filter_append, List.filter_cons_of_neg (by simpa using hne), List.filter_nil,
      List.append_nil]
  affiliations := rfl
  sources := rfl

theorem othersKept_loggedIn (hkept : Kept tables) {account : Account}
    (h : IdentityRegistry.accountOf assertion tables.accounts = some account) :
    OthersKept (some account.personUuid) tables
      { tables with accounts := loggedIn assertion now tables.accounts } where
  persons := ⟨[], (List.append_nil _).symm, by simp⟩
  identifiers := ⟨[], (List.append_nil _).symm, by simp⟩
  accounts other hother := by
    have hkey : account.subject = assertion.key := by
      have hfound : account.idpEntityId = assertion.idpEntityId ∧
          account.subjectAtIdp = assertion.subject := by
        simpa using List.find?_some h
      exact Prod.ext hfound.1 hfound.2
    have hsame : ∀ a ∈ tables.accounts, a.personUuid = other → ¬ (a.idpEntityId =
        assertion.idpEntityId ∧ a.subjectAtIdp = assertion.subject) := by
      rintro a ha rfl ⟨hidp, hsubject⟩
      have heq : a = account := List.inj_on_of_nodup_map hkept.accounts ha
        (List.mem_of_find?_eq_some h) ((Prod.ext hidp hsubject).trans hkey.symm)
      exact hother (congrArg (some ∘ Account.personUuid) heq.symm)
    rw [loggedIn, List.filter_map]
    have hfilter : tables.accounts.filter ((fun a : Account => decide (a.personUuid = other)) ∘
        fun a => if a.idpEntityId = assertion.idpEntityId ∧ a.subjectAtIdp = assertion.subject then
          { a with lastLoginAt := some now } else a) =
        tables.accounts.filter fun a => decide (a.personUuid = other) := by
      refine List.filter_congr fun a _ => ?_
      rw [Function.comp_apply]
      split_ifs
      · rfl
      · rfl
    rw [hfilter]
    refine (List.map_congr_left fun a ha => ?_).trans (List.map_id _)
    obtain ⟨hmem, hperson⟩ := List.mem_filter.mp ha
    exact if_neg (hsame a hmem (of_decide_eq_true hperson))
  affiliations := rfl
  sources := rfl

theorem othersKept_create {registry' : Registry Doc} {account : Account}
    {lower : String → String} {wanted : String}
    (hcreates : Creates lower wanted personUuid tables.registry registry')
    (haffiliations : registry'.affiliations = tables.registry.affiliations)
    (hsources : registry'.sources = tables.registry.sources)
    (h : account.personUuid = personUuid) :
    OthersKept (some personUuid) tables ⟨registry', tables.accounts ++ [account]⟩ where
  persons := by
    obtain ⟨person, heq, huuid⟩ := hcreates.person
    refine ⟨[person], heq, fun p hp => ?_⟩
    obtain rfl := List.mem_singleton.mp hp
    exact congrArg some huuid.symm
  identifiers := by
    obtain ⟨new, heq, hnew⟩ := hcreates.fresh.append
    exact ⟨new, heq, fun row hrow => congrArg some (hnew row hrow).symm⟩
  accounts := (othersKept_touch h).accounts
  affiliations := haffiliations
  sources := hsources

/-! ## The rules decide -/

/-- **`resolve` does what the first rule that applies decides**, unless the tables refuse the
account or the identifier it writes. -/
theorem resolves_iff (hkept : Kept tables) :
    (∃ tables' resolution, r.resolve assertion minted now tables = .ok (tables', resolution) ∧
        Resolves r.lower tables assertion (r.wantedEppn assertion minted) minted.personUuid tables'
          resolution) ↔
      ¬ AccountAgain tables assertion ∧ ¬ UniqueIdTaken r.lower tables assertion := by
  have hunique : IdentityRegistry.byAssertedUniqueId tables.registry assertion.uniqueId = none ↔
      ∀ p, ¬ ByUniqueId tables assertion p := byUniqueId_none hkept.persons
  unfold IdentityRegistry.resolve
  cases hfirst : IdentityRegistry.byAssertedUniqueId tables.registry assertion.uniqueId with
  | some person =>
    have hby := byUniqueId_of_lookup hfirst
    have htaken : ¬ UniqueIdTaken r.lower tables assertion := fun h => h.1 _ hby
    simp only
    cases haccount : IdentityRegistry.accountOf assertion tables.accounts with
    | some account =>
      have hagain : AccountAgain tables assertion := ⟨⟨_, hby⟩, _, byAccount_of_lookup haccount⟩
      refine iff_of_false ?_ fun h => h.1 hagain
      rintro ⟨tables', resolution, hok, -⟩
      rw [touchAccount_of_some (by simp [haccount])] at hok
      cases hok
    | none =>
      obtain ⟨account, htouch, hperson⟩ : ∃ account, IdentityRegistry.touchAccount
          person.personUuid assertion .uniqueId now tables.accounts =
            .ok (tables.accounts ++ [account]) ∧ account.personUuid = person.personUuid :=
        touchAccount_of_none haccount
      refine iff_of_true ?_ ⟨?_, htaken⟩
      · rw [htouch]
        exact ⟨_, _, rfl, ⟨person.personUuid, rfl, hby⟩, by simp, othersKept_touch hperson⟩
      · rintro ⟨-, p, hp⟩
        exact byAccount_none.mp haccount p hp
  | none =>
    have hnobody := hunique.mp hfirst
    have hagain : ¬ AccountAgain tables assertion := by
      rintro ⟨⟨p, hp⟩, -⟩
      exact hnobody p hp
    simp only
    cases haccount : IdentityRegistry.accountOf assertion tables.accounts with
    | some account =>
      have hby := byAccount_of_lookup haccount
      refine iff_of_true ?_ ⟨hagain, fun h => h.2.1 _ hby⟩
      exact ⟨_, _, rfl, ⟨hnobody, account.personUuid, rfl, hby⟩, by simp,
        othersKept_loggedIn hkept haccount⟩
    | none =>
      have hstranger := byAccount_none.mp haccount
      simp only
      cases heppn : r.byLiveEppn tables.registry assertion.eppn with
      | some person =>
        have hby := byEppn_of_lookup heppn
        obtain ⟨account, htouch, hperson⟩ : ∃ account, IdentityRegistry.touchAccount
            person.personUuid assertion .eppn now tables.accounts =
              .ok (tables.accounts ++ [account]) ∧ account.personUuid = person.personUuid :=
          touchAccount_of_none haccount
        refine iff_of_true ?_ ⟨hagain, fun h => h.2.2.1 _ hby⟩
        simp only
        rw [htouch]
        exact ⟨_, _, rfl, ⟨hnobody, hstranger, person.personUuid, rfl, hby⟩, by simp,
          othersKept_touch hperson⟩
      | none =>
        have hnameless := byEppn_none.mp heppn
        simp only
        split
        · next hmail =>
          have hby := byMail_iff.mp hmail
          refine iff_of_true ?_ ⟨hagain, fun h => h.2.2.2.1 hby⟩
          exact ⟨_, _, rfl, ⟨hnobody, hstranger, hnameless, hby, rfl⟩, by simp,
            ⟨[], (List.append_nil _).symm, by simp⟩, ⟨[], (List.append_nil _).symm, by simp⟩,
            fun _ _ => rfl, rfl, rfl⟩
        · next hmail =>
          have hunmailed : ¬ ByMail r.lower tables assertion := fun h => hmail (byMail_iff.mpr h)
          obtain ⟨account, htouch, hperson⟩ : ∃ account, IdentityRegistry.touchAccount
              minted.personUuid assertion .created now tables.accounts =
                .ok (tables.accounts ++ [account]) ∧ account.personUuid = minted.personUuid :=
            touchAccount_of_none haccount
          have hcreate : (∃ registry', r.create assertion minted now tables.registry =
              .ok registry' ∧ Creates r.lower (r.wantedEppn assertion minted) minted.personUuid
                tables.registry registry' ∧
              registry'.affiliations = tables.registry.affiliations ∧
              registry'.sources = tables.registry.sources) ↔ _ := create_iff
          have htaken : ¬ UniqueIdTaken r.lower tables assertion ↔ ¬ ∃ value scope,
              given assertion.uniqueId = some value ∧ scopeOf r.lower value = some scope ∧
                ∃ row ∈ tables.registry.identifiers,
                  row.idType = .uniqueId ∧ row.value = value ∧ row.scope = some scope :=
            not_congr ⟨fun h => h.2.2.2.2, fun h => ⟨hnobody, hstranger, hnameless, hunmailed, h⟩⟩
          rw [htaken, ← hcreate]
          constructor
          · rintro ⟨tables', resolution, hok, hresolves⟩
            obtain ⟨registry, hmade, hok⟩ := Eff.except_bind_eq_ok.mp hok
            obtain ⟨accounts, -, hok⟩ := Eff.except_bind_eq_ok.mp hok
            cases hok
            exact ⟨hagain, registry, hmade, hresolves.creates rfl, hresolves.others.affiliations,
              hresolves.others.sources⟩
          · rintro ⟨-, registry, hmade, hcreates, haffiliations, hsources⟩
            refine ⟨⟨registry, tables.accounts ++ [account]⟩, _, Eff.except_bind_eq_ok.mpr
              ⟨registry, hmade, Eff.except_bind_eq_ok.mpr ⟨_, htouch, rfl⟩⟩, ?_⟩
            exact ⟨⟨hnobody, hstranger, hnameless, hunmailed, rfl⟩, fun _ => hcreates,
              othersKept_create hcreates haffiliations hsources hperson⟩

/-- Sam, whom an identifier row knows, and Kim, whose name Sam's issuer asserts. -/
def samAndKim : Tables Unit where
  registry := {
    persons := [{ personUuid := "p" }, { personUuid := "q" }]
    identifiers := [
      { personUuid := "p", idType := .uniqueId, value := "sam@idp.example"
        scope := some "idp.example", issuedAt := 0 },
      { personUuid := "q", idType := .eppn, value := "kim@idp.example"
        scope := some "idp.example", isPrimary := true, issuedAt := 0 }] }

/-- Sam's login, under Kim's name. -/
def otherName : Assertion := { firstLogin (some "sam@idp.example") with eppn := some "kim@idp.example" }

/-- The unique identifier decides on Sam, and the name on nobody. -/
theorem resolves_samAndKim : ByEppn Writers.plainWriters.registry.lower samAndKim otherName "q" ∧
    ∃ tables', Writers.plainWriters.registry.resolve otherName ⟨"r", "k"⟩ 0 samAndKim =
        .ok (tables', ⟨some "p", .uniqueId⟩) ∧
      Resolves Writers.plainWriters.registry.lower samAndKim otherName "kim@idp.example" "r" tables'
        ⟨some "p", .uniqueId⟩ := by
  have hkept : Kept samAndKim := by
    refine ⟨List.nodup_nil, ?_⟩
    unfold Attached
    decide
  have hdone : ∃ (tables' : Tables Unit) (resolution : Resolution),
      Writers.plainWriters.registry.resolve otherName ⟨"r", "k"⟩ 0 samAndKim =
          .ok (tables', resolution) ∧
        Resolves Writers.plainWriters.registry.lower samAndKim otherName "kim@idp.example" "r"
          tables' resolution := by
    refine (resolves_iff hkept).mpr ⟨?_, ?_⟩
    · rintro ⟨-, p, account, haccount, -⟩
      cases haccount
    · rintro ⟨hnobody, -⟩
      exact hnobody "p" ⟨_, rfl, _, List.mem_cons_self, rfl, rfl, by decide, rfl⟩
  obtain ⟨tables', resolution, hok, hresolves⟩ := hdone
  obtain rfl : resolution = ⟨some "p", .uniqueId⟩ := by
    cases hok
    rfl
  exact ⟨⟨_, _, _, rfl, rfl, rfl, rfl, rfl⟩, tables', hok, hresolves⟩

/-- The tables after the first login of Sam, whom the issuer knows by a unique identifier. -/
def samKnown : Tables Unit where
  registry := {
    persons := [{ personUuid := "p" }]
    identifiers := [{ personUuid := "p", idType := .uniqueId, value := "sam@idp.example"
                      scope := some "idp.example", issuedAt := 0 }] }
  accounts := [⟨"p", "https://idp.example", "saml", "sam", "high", 0, some 0⟩]

/-- **The strongest evidence is refused**: Sam has an account, and cannot log in by it. -/
theorem not_resolves : ¬ ∀ (r : IdentityRegistry) (assertion : Assertion) (minted : Minted)
    (now : Int) (tables : Tables Unit), Kept tables →
      ∃ tables' resolution, r.resolve assertion minted now tables = .ok (tables', resolution) ∧
        Resolves r.lower tables assertion (r.wantedEppn assertion minted) minted.personUuid tables'
          resolution := by
  intro h
  have hkept : Kept samKnown := by
    refine ⟨List.nodup_singleton _, fun row hrow => ?_⟩
    obtain rfl := List.mem_singleton.mp hrow
    exact List.mem_singleton_self _
  obtain ⟨tables', resolution, hok, -⟩ := h Writers.plainWriters.registry
    (firstLogin (some "sam@idp.example")) ⟨"q", "l"⟩ 1 samKnown hkept
  have hrefused : Writers.plainWriters.registry.resolve (firstLogin (some "sam@idp.example"))
      ⟨"q", "l"⟩ 1 samKnown = .error .integrity := by rfl
  rw [hrefused] at hok
  cases hok

end Identity
end CampusID
