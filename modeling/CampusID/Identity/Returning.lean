import CampusID.Identity.Uniqueness
import Mathlib.Data.List.Count

/-!
# Is somebody who logs in again the same person?

A login is decided by one of five rules, and what the deciding rule writes decides the next login
(`resolve_cases`).  The second, third and fifth rules leave an account, which the second rule finds
again --- but the first rule is asked before it, and it writes its account without looking for one.

`returns_iff` says which first logins can be repeated: those that leave nothing to the first rule.
-/

namespace CampusID
namespace Identity

open Lib

/-! ## Accounts and keys -/

/-- What `uq_account_idp_subject` is about. -/
def Account.subject (account : Account) : String × String :=
  (account.idpEntityId, account.subjectAtIdp)

/-- The subject of an assertion, at its issuer. -/
def Assertion.key (assertion : Assertion) : String × String :=
  (assertion.idpEntityId, assertion.subject)

/-- The account rows of an assertion's subject. -/
def accountsOf (assertion : Assertion) (accounts : List Account) : List Account :=
  accounts.filter fun account => account.subject = assertion.key

/-- Every row is some person's. -/
def Attached (persons : List Person) (rows : List Identifier) : Prop :=
  ∀ row ∈ rows, row.personUuid ∈ persons.map Person.personUuid

/-- **What the tables promise**: one account for a subject at an issuer, and a person behind
every identifier. -/
structure Kept {Doc : Type} (tables : Tables Doc) : Prop where
  accounts : (tables.accounts.map Account.subject).Nodup
  persons : Attached tables.registry.persons tables.registry.identifiers

variable {Doc δ E : Type} {r : IdentityRegistry} {assertion : Assertion} {minted minted' : Minted}
  {now now' : Int} {tables tables' : Tables Doc} {resolution : Resolution}
  {rows rows' new : List Identifier} {accounts accounts' : List Account} {personUuid : String}
  {basis : LinkBasis} {registry registry' : Registry Doc}

theorem accountOf_eq_none :
    IdentityRegistry.accountOf assertion accounts = none ↔
      assertion.key ∉ accounts.map Account.subject := by
  simp only [IdentityRegistry.accountOf, List.find?_eq_none, List.mem_map, not_exists,
    Account.subject, Assertion.key, Prod.mk.injEq, decide_eq_true_eq, not_and]

theorem touchAccount_ok (h : IdentityRegistry.touchAccount personUuid assertion basis now accounts =
      .ok accounts') :
    IdentityRegistry.accountOf assertion accounts = none ∧ ∃ account,
      accounts' = accounts ++ [account] ∧ account.subject = assertion.key ∧
        account.personUuid = personUuid := by
  unfold IdentityRegistry.touchAccount at h
  split at h
  · cases h
  · rename_i hfree
    obtain rfl := Except.ok.inj h
    refine ⟨?_, _, rfl, rfl, rfl⟩
    rw [accountOf_eq_none, List.mem_map]
    rintro ⟨account, haccount, hkey⟩
    exact hfree ⟨account, haccount, congrArg Prod.fst hkey, congrArg Prod.snd hkey⟩

theorem touchAccount_of_some (h : IdentityRegistry.accountOf assertion accounts ≠ none) :
    IdentityRegistry.touchAccount personUuid assertion basis now accounts = .error .integrity := by
  cases hok : IdentityRegistry.touchAccount personUuid assertion basis now accounts with
  | ok accounts' => exact absurd (touchAccount_ok hok).1 h
  | error e =>
    unfold IdentityRegistry.touchAccount at hok
    split at hok
    · obtain rfl := Except.error.inj hok
      rfl
    · cases hok

/-- The accounts after a login by an account: only its time changed. -/
def loggedIn (assertion : Assertion) (now : Int) (accounts : List Account) : List Account :=
  accounts.map fun other =>
    if other.idpEntityId = assertion.idpEntityId ∧ other.subjectAtIdp = assertion.subject then
      { other with lastLoginAt := some now }
    else other

@[simp] theorem subjects_loggedIn :
    (loggedIn assertion now accounts).map Account.subject = accounts.map Account.subject := by
  rw [loggedIn, List.map_map]
  refine List.map_congr_left fun account _ => ?_
  rw [Function.comp_apply]
  split_ifs
  · rfl
  · rfl

/-! ## What each rule does -/

/-- **The five rules**, each with what it needs and what it leaves. -/
theorem resolve_cases (h : r.resolve assertion minted now tables = .ok (tables', resolution)) :
    (∃ person accounts,
      IdentityRegistry.byAssertedUniqueId tables.registry assertion.uniqueId = some person ∧
      IdentityRegistry.touchAccount person.personUuid assertion .uniqueId now tables.accounts =
        .ok accounts ∧
      tables' = { tables with accounts := accounts } ∧
      resolution = ⟨some person.personUuid, .uniqueId⟩) ∨
    IdentityRegistry.byAssertedUniqueId tables.registry assertion.uniqueId = none ∧
      ((∃ account, IdentityRegistry.accountOf assertion tables.accounts = some account ∧
        tables' = { tables with accounts := loggedIn assertion now tables.accounts } ∧
        resolution = ⟨some account.personUuid, .existingAccount⟩) ∨
      (∃ person accounts, r.byLiveEppn tables.registry assertion.eppn = some person ∧
        IdentityRegistry.touchAccount person.personUuid assertion .eppn now tables.accounts =
          .ok accounts ∧
        tables' = { tables with accounts := accounts } ∧
        resolution = ⟨some person.personUuid, .eppn⟩) ∨
      (tables' = tables ∧ resolution = ⟨none, .manualReview⟩) ∨
      (∃ registry accounts, r.byLiveEppn tables.registry assertion.eppn = none ∧
        r.create assertion minted now tables.registry = .ok registry ∧
        IdentityRegistry.touchAccount minted.personUuid assertion .created now tables.accounts =
          .ok accounts ∧
        tables' = ⟨registry, accounts⟩ ∧ resolution = ⟨some minted.personUuid, .created⟩)) := by
  unfold IdentityRegistry.resolve at h
  split at h
  · rename_i person hperson
    obtain ⟨accounts, htouch, h⟩ := Eff.except_bind_eq_ok.mp h
    cases h
    exact .inl ⟨person, accounts, hperson, htouch, rfl, rfl⟩
  · rename_i hunknown
    refine .inr ⟨hunknown, ?_⟩
    split at h
    · rename_i account haccount
      cases h
      exact .inl ⟨account, haccount, rfl, rfl⟩
    · split at h
      · rename_i person hperson
        obtain ⟨accounts, htouch, h⟩ := Eff.except_bind_eq_ok.mp h
        cases h
        exact .inr (.inl ⟨person, accounts, hperson, htouch, rfl, rfl⟩)
      · rename_i hnobody
        split_ifs at h
        · cases h
          exact .inr (.inr (.inl ⟨rfl, rfl⟩))
        · obtain ⟨registry, hcreate, h⟩ := Eff.except_bind_eq_ok.mp h
          obtain ⟨accounts, htouch, h⟩ := Eff.except_bind_eq_ok.mp h
          cases h
          exact .inr (.inr (.inr ⟨registry, accounts, hnobody, hcreate, htouch, rfl, rfl⟩))

theorem create_ok (h : r.create assertion minted now registry = .ok registry') :
    (∃ person, person.personUuid = minted.personUuid ∧
      registry'.persons = registry.persons ++ [person]) ∧
      r.createIdentifiers assertion minted now registry.identifiers = .ok registry'.identifiers := by
  obtain ⟨identifiers, hids, h⟩ := Eff.except_bind_eq_ok.mp h
  cases h
  exact ⟨⟨_, rfl, rfl⟩, hids⟩

/-- The rows grew by rows of one person. -/
def AddsFor (personUuid : String) (rows rows' : List Identifier) : Prop :=
  ∃ new, rows' = rows ++ new ∧ ∀ row ∈ new, row.personUuid = personUuid

theorem AddsFor.refl : AddsFor personUuid rows rows :=
  ⟨[], (List.append_nil rows).symm, by simp⟩

theorem AddsFor.trans {rows'' : List Identifier} (h : AddsFor personUuid rows rows')
    (h' : AddsFor personUuid rows' rows'') : AddsFor personUuid rows rows'' := by
  obtain ⟨new, rfl, hnew⟩ := h
  obtain ⟨new', rfl, hnew'⟩ := h'
  refine ⟨new ++ new', List.append_assoc rows new new', fun row hrow => ?_⟩
  exact (List.mem_append.mp hrow).elim (hnew row) (hnew' row)

theorem AddsFor.mem (h : AddsFor personUuid rows rows') {row : Identifier} (hrow : row ∈ rows) :
    row ∈ rows' := by
  obtain ⟨new, rfl, -⟩ := h
  exact List.mem_append_left new hrow

theorem addsFor_addIdentifiers (h : addIdentifiers rows new = .ok rows')
    (hnew : ∀ row ∈ new, row.personUuid = personUuid) : AddsFor personUuid rows rows' :=
  ⟨new, (addIdentifiers_ok h).1, hnew⟩

theorem Attached.addsFor {persons : List Person} (hattached : Attached persons rows)
    (h : AddsFor personUuid rows rows')
    (hperson : personUuid ∈ persons.map Person.personUuid) : Attached persons rows' := by
  obtain ⟨new, rfl, hnew⟩ := h
  intro row hrow
  rcases List.mem_append.mp hrow with hold | hadded
  · exact hattached row hold
  · rwa [hnew row hadded]

theorem Attached.of_faces {persons persons' : List Person} (hattached : Attached persons rows)
    (hpersons : persons'.map Person.personUuid = persons.map Person.personUuid)
    (hfaces : rows'.map face = rows.map face) : Attached persons' rows' := by
  intro row hrow
  obtain ⟨old, hold, hface⟩ := exists_face hfaces hrow
  rw [hpersons, ← show old.personUuid = row.personUuid from congrArg Prod.fst hface]
  exact hattached old hold

theorem Attached.append {persons : List Person} (hattached : Attached persons rows)
    (person : Person) : Attached (persons ++ [person]) rows := by
  intro row hrow
  rw [List.map_append]
  exact List.mem_append_left _ (hattached row hrow)

theorem addsFor_keepUniqueId (h : r.keepUniqueId assertion personUuid now rows = .ok rows') :
    AddsFor personUuid rows rows' := by
  unfold IdentityRegistry.keepUniqueId at h
  split at h
  · obtain rfl := Except.ok.inj h
    exact .refl
  · exact addsFor_addIdentifiers h (by simp)

theorem addsFor_claimEppn {asserted : String}
    (h : r.claimEppn personUuid asserted now rows = .ok rows') : AddsFor personUuid rows rows' := by
  unfold IdentityRegistry.claimEppn at h
  dsimp only at h
  split at h
  · exact addsFor_addIdentifiers h (by simp)
  · split at h
    · exact addsFor_addIdentifiers h (by simp)
    · obtain rfl := Except.ok.inj h
      exact .refl

theorem addsFor_keepMail (h : r.keepMail assertion personUuid now rows = .ok rows') :
    AddsFor personUuid rows rows' := by
  unfold IdentityRegistry.keepMail at h
  split at h
  · obtain rfl := Except.ok.inj h
    exact .refl
  · split at h
    · obtain rfl := Except.ok.inj h
      exact .refl
    · exact addsFor_addIdentifiers h (by simp)

/-- **A creation adds rows of the new person**, and keeps the identifier the issuer knows them
by. -/
theorem addsFor_createIdentifiers
    (h : r.createIdentifiers assertion minted now rows = .ok rows') :
    AddsFor minted.personUuid rows rows' ∧ ∀ value, given assertion.uniqueId = some value →
      ∃ row ∈ rows', row.idType = .uniqueId ∧ row.value = value ∧ row.Live := by
  obtain ⟨named, hnamed, h⟩ := Eff.except_bind_eq_ok.mp h
  obtain ⟨claimed, hclaimed, h⟩ := Eff.except_bind_eq_ok.mp h
  have hrest := (addsFor_claimEppn hclaimed).trans (addsFor_keepMail h)
  refine ⟨(addsFor_keepUniqueId hnamed).trans hrest, fun value hvalue => ?_⟩
  rw [IdentityRegistry.keepUniqueId, hvalue] at hnamed
  obtain ⟨rfl, -⟩ := addIdentifiers_ok hnamed
  exact ⟨_, hrest.mem (List.mem_append_right rows (List.mem_singleton_self _)), rfl, rfl, rfl⟩

theorem byAssertedUniqueId_eq_none {uniqueId : Option String}
    (hattached : Attached registry.persons registry.identifiers) :
    IdentityRegistry.byAssertedUniqueId registry uniqueId = none ↔
      ∀ value, given uniqueId = some value → ∀ row ∈ registry.identifiers,
        ¬ (row.idType = .uniqueId ∧ row.value = value ∧ row.Live) := by
  unfold IdentityRegistry.byAssertedUniqueId
  cases given uniqueId with
  | none => simp
  | some value =>
    rw [Option.bind_eq_bind, Option.bind_some]
    cases hfound : registry.identifiers.find? fun row =>
        row.idType = .uniqueId ∧ row.value = value ∧ row.Live with
    | none =>
      rw [List.find?_eq_none] at hfound
      refine iff_of_true rfl fun value' hvalue' row hrow => ?_
      obtain rfl := Option.some.inj hvalue'
      simpa using hfound row hrow
    | some row =>
      have hrow := List.mem_of_find?_eq_some hfound
      refine iff_of_false (fun hnone => ?_) fun hnever => ?_
      · obtain ⟨person, hperson, huuid⟩ := List.mem_map.mp (hattached row hrow)
        rw [Option.bind_eq_bind, Option.bind_some, Registry.get, List.find?_eq_none] at hnone
        exact hnone person hperson (by simpa using huuid)
      · exact hnever value rfl row hrow (by simpa using List.find?_some hfound)

/-! ## The promise is kept -/

theorem Kept.empty : Kept ({} : Tables Doc) :=
  ⟨List.nodup_nil, by simp [Attached]⟩

theorem nodup_touchAccount (hnodup : (accounts.map Account.subject).Nodup)
    (h : IdentityRegistry.touchAccount personUuid assertion basis now accounts = .ok accounts') :
    (accounts'.map Account.subject).Nodup := by
  obtain ⟨hfree, account, rfl, hsubject, -⟩ := touchAccount_ok h
  rw [accountOf_eq_none] at hfree
  rw [List.map_append, List.map_singleton, hsubject]
  exact hnodup.append (List.nodup_singleton _) (List.disjoint_singleton.mpr hfree)

/-- **A login keeps the promise.** -/
theorem Kept.resolve (hkept : Kept tables)
    (h : r.resolve assertion minted now tables = .ok (tables', resolution)) : Kept tables' := by
  rcases resolve_cases h with ⟨person, accounts, -, htouch, rfl, -⟩ | ⟨-, hrest⟩
  · exact ⟨nodup_touchAccount hkept.accounts htouch, hkept.persons⟩
  · rcases hrest with ⟨account, -, rfl, -⟩ | ⟨person, accounts, -, htouch, rfl, -⟩ | ⟨rfl, -⟩ |
      ⟨registry, accounts, -, hcreate, htouch, rfl, -⟩
    · exact ⟨by rw [subjects_loggedIn]; exact hkept.accounts, hkept.persons⟩
    · exact ⟨nodup_touchAccount hkept.accounts htouch, hkept.persons⟩
    · exact hkept
    · obtain ⟨⟨person, hperson, hpersons⟩, hids⟩ := create_ok hcreate
      refine ⟨nodup_touchAccount hkept.accounts htouch, ?_⟩
      rw [hpersons]
      refine (hkept.persons.append person).addsFor (addsFor_createIdentifiers hids).1 ?_
      simp [hperson]

theorem addsFor_writeIdentifiers {lower : String → String} {parsed : ParsedUser}
    (h : writeIdentifiers lower personUuid parsed now rows = .ok rows') :
    AddsFor personUuid rows rows' := by
  refine addsFor_addIdentifiers h fun row hrow => ?_
  rcases List.mem_append.mp hrow with hfirst | hlast
  · rcases List.mem_cons.mp hfirst with rfl | hmail
    · rfl
    · obtain ⟨email, -, rfl⟩ := List.mem_map.mp hmail
      rfl
  · split at hlast
    · split_ifs at hlast
      · cases hlast
      · obtain rfl := List.mem_singleton.mp hlast
        rfl
    · cases hlast

theorem uuids_updatePerson {resourceId : String} {f : Person → Person}
    (hf : ∀ person, (f person).personUuid = person.personUuid) :
    (registry.updatePerson resourceId f).map Person.personUuid =
      registry.persons.map Person.personUuid := by
  rw [Registry.updatePerson, List.map_map]
  refine List.map_congr_left fun person _ => ?_
  rw [Function.comp_apply]
  split_ifs
  · exact hf person
  · rfl

theorem mem_of_get {person : Person} (h : registry.get personUuid = some person) :
    personUuid ∈ registry.persons.map Person.personUuid := by
  have huuid : person.personUuid = personUuid := by simpa using List.find?_some h
  exact List.mem_map.mpr ⟨person, List.mem_of_find?_eq_some h, huuid⟩

namespace Writers

variable {w : Writers Doc δ E} {c : DatedCall Doc}

/-- **Every call keeps the promise.** -/
theorem outcome_kept (hkept : Kept tables) (h : w.outcome tables c = some tables') :
    Kept tables' := by
  obtain ⟨now, today, call⟩ := c
  cases call with
  | resolve assertion minted =>
    obtain ⟨⟨written, resolution⟩, hok, rfl⟩ := Eff.toOption_map_eq_some.mp h
    exact hkept.resolve hok
  | allocateEppn personUuid localPart =>
    obtain ⟨⟨registry, name⟩, hok, rfl⟩ := Eff.toOption_map_eq_some.mp h
    refine ⟨hkept.accounts, ?_⟩
    unfold IdentityRegistry.allocateEppn at hok
    dsimp only at hok
    split_ifs at hok
    split at hok
    · cases hok
    · split at hok
      · rename_i person identifiers hget hadd
        cases hok
        exact hkept.persons.addsFor (addsFor_addIdentifiers hadd (by simp)) (mem_of_get hget)
      · cases hok
  | releaseIdentifier personUuid idType value =>
    obtain rfl := Option.some.inj h
    exact ⟨hkept.accounts, hkept.persons.of_faces rfl (faces_tombstoneFirst _)⟩
  | create parsed raw personUuid =>
    obtain ⟨⟨registry, resource, created⟩, hok, rfl⟩ := Eff.toOption_map_eq_some.mp h
    refine ⟨hkept.accounts, ?_⟩
    by_cases hnew : tables.registry.knownSource parsed = none
    · have hadds := addsFor_writeIdentifiers (createRows_identifiers hnew hok).2
      rw [show registry.persons = _ from (w.users.createRows_of_new hnew hok).2.1]
      exact (hkept.persons.append _).addsFor hadds (by simp [writePerson])
    · rw [show registry = _ from (w.users.createRows_of_known hnew hok).1]
      exact hkept.persons
  | replace resourceId parsed raw ifMatch =>
    obtain ⟨⟨registry, resource, before, after⟩, hok, rfl⟩ := Eff.toOption_map_eq_some.mp h
    obtain ⟨⟨person, hget⟩, -, -, hpersons, hids, -⟩ := w.users.replaceRows_ok hok
    have hreconciled : Attached tables.registry.persons (reconcileIdentifiers resourceId now
        tables.registry.identifiers (wantedIdentifiers parsed)).1 :=
      hkept.persons.of_faces rfl (faces_reconcileIdentifiers _)
    have hadds : AddsFor resourceId _ registry.identifiers := addsFor_addIdentifiers hids
      fun row hrow => by
        obtain ⟨entry, -, rfl⟩ := List.mem_map.mp hrow
        rfl
    refine ⟨hkept.accounts, (hreconciled.addsFor hadds (mem_of_get hget)).of_faces ?_ rfl⟩
    exact (congrArg (List.map Person.personUuid) hpersons).trans (uuids_updatePerson fun _ => rfl)
  | softDelete resourceId ifMatch =>
    obtain ⟨⟨registry, before⟩, hok, rfl⟩ := Eff.toOption_map_eq_some.mp h
    obtain ⟨-, hpersons, hids, -⟩ := UserStore.softDeleteRows_ok hok
    refine ⟨hkept.accounts, hkept.persons.of_faces ?_ ?_⟩
    · exact (congrArg (List.map Person.personUuid) hpersons).trans (uuids_updatePerson fun _ => rfl)
    · rw [hids, List.map_map]
      refine List.map_congr_left fun row _ => ?_
      rw [Function.comp_apply]
      split_ifs
      · rfl
      · rfl

/-- **Every reachable state keeps the promise.** -/
theorem kept_of_calls (w : Writers Doc δ E) (calls : List (DatedCall Doc)) :
    Kept (calls.foldl w.step {}) := by
  refine List.foldlRecOn calls w.step Kept.empty fun tables hkept c _ => ?_
  unfold step
  cases hout : w.outcome tables c with
  | none => exact hkept
  | some tables' => exact outcome_kept hkept hout

end Writers

/-! ## Logging in again -/

/-- A login finds a person, and leaves one account of its subject. -/
def Finds (r : IdentityRegistry) (assertion : Assertion) (minted : Minted) (now : Int)
    (personUuid : String) (tables : Tables Doc) : Prop :=
  ∃ tables' basis, r.resolve assertion minted now tables = .ok (tables', ⟨some personUuid, basis⟩) ∧
    (accountsOf assertion tables'.accounts).length = 1

/-- **Which logins can be repeated**: the first rule does not decide this one, and there is no
unique identifier for it to decide the next one by --- none is asserted, or none is recorded
because somebody is found who is there. -/
def LeavesFirstRule (r : IdentityRegistry) (assertion : Assertion) (tables : Tables Doc) : Prop :=
  IdentityRegistry.byAssertedUniqueId tables.registry assertion.uniqueId = none ∧
    (given assertion.uniqueId = none ∨
      IdentityRegistry.accountOf assertion tables.accounts ≠ none ∨
      r.byLiveEppn tables.registry assertion.eppn ≠ none)

theorem length_accountsOf (hnodup : (accounts.map Account.subject).Nodup)
    (hmem : assertion.key ∈ accounts.map Account.subject) :
    (accountsOf assertion accounts).length = 1 := by
  have hcount := List.count_eq_one_of_mem hnodup hmem
  rw [List.count, List.countP_map, List.countP_eq_length_filter] at hcount
  rw [← hcount, accountsOf]
  refine congrArg List.length (List.filter_congr fun account _ => ?_)
  rw [Function.comp_apply, beq_eq_decide]

/-- **An account is found again** where the first rule does not fire. -/
theorem finds_of_account (hkept : Kept tables)
    (hunknown : IdentityRegistry.byAssertedUniqueId tables.registry assertion.uniqueId = none)
    {account : Account}
    (haccount : IdentityRegistry.accountOf assertion tables.accounts = some account) :
    Finds r assertion minted now account.personUuid tables := by
  refine ⟨{ tables with accounts := loggedIn assertion now tables.accounts }, .existingAccount,
    ?_, ?_⟩
  · unfold IdentityRegistry.resolve
    rw [hunknown, haccount]
    rfl
  · refine length_accountsOf ?_ ?_
    · rw [subjects_loggedIn]
      exact hkept.accounts
    · rw [subjects_loggedIn]
      by_contra hnone
      rw [← accountOf_eq_none, haccount] at hnone
      cases hnone

/-- **The first rule writes a second account**, and the constraint refuses it. -/
theorem not_finds_of_uniqueId
    (hknown : IdentityRegistry.byAssertedUniqueId tables.registry assertion.uniqueId ≠ none)
    (haccount : IdentityRegistry.accountOf assertion tables.accounts ≠ none) :
    ¬ Finds r assertion minted now personUuid tables := by
  rintro ⟨tables', basis, h, -⟩
  rcases resolve_cases h with ⟨person, accounts, -, htouch, -⟩ | ⟨hnone, -⟩
  · exact haccount (touchAccount_ok htouch).1
  · exact hknown hnone

theorem accountOf_touchAccount
    (h : IdentityRegistry.touchAccount personUuid assertion basis now accounts = .ok accounts') :
    ∃ account, IdentityRegistry.accountOf assertion accounts' = some account ∧
      account.personUuid = personUuid := by
  obtain ⟨hfree, account, rfl, hsubject, hperson⟩ := touchAccount_ok h
  refine ⟨account, ?_, hperson⟩
  have hidp : account.idpEntityId = assertion.idpEntityId := congrArg Prod.fst hsubject
  have hsub : account.subjectAtIdp = assertion.subject := congrArg Prod.snd hsubject
  unfold IdentityRegistry.accountOf at hfree ⊢
  rw [List.find?_append, hfree]
  simp [hidp, hsub]

theorem accountOf_loggedIn {account : Account}
    (h : IdentityRegistry.accountOf assertion accounts = some account) :
    ∃ account', IdentityRegistry.accountOf assertion (loggedIn assertion now accounts) =
      some account' ∧ account'.personUuid = account.personUuid := by
  unfold IdentityRegistry.accountOf loggedIn at *
  rw [List.find?_map]
  have hsame : ((fun account : Account => decide (account.idpEntityId = assertion.idpEntityId ∧
      account.subjectAtIdp = assertion.subject)) ∘ fun other : Account =>
        if other.idpEntityId = assertion.idpEntityId ∧ other.subjectAtIdp = assertion.subject then
          { other with lastLoginAt := some now }
        else other) = fun account => decide (account.idpEntityId = assertion.idpEntityId ∧
      account.subjectAtIdp = assertion.subject) := by
    funext other
    rw [Function.comp_apply]
    split_ifs
    · rfl
    · rfl
  rw [hsame, h]
  refine ⟨_, rfl, ?_⟩
  dsimp only
  split_ifs
  · rfl
  · rfl

/-- **Logging in again finds the same person exactly where the first login leaves nothing to the
first rule.** -/
theorem returns_iff (w : Writers Doc δ E) (calls : List (DatedCall Doc)) (assertion : Assertion)
    (minted minted' : Minted) (now now' : Int) (tables' : Tables Doc) (personUuid : String)
    (basis : LinkBasis)
    (hlinked : w.registry.resolve assertion minted now (calls.foldl w.step {}) =
      .ok (tables', ⟨some personUuid, basis⟩)) :
    Finds w.registry assertion minted' now' personUuid tables' ↔
      LeavesFirstRule w.registry assertion (calls.foldl w.step {}) := by
  have hkept : Kept (calls.foldl w.step {}) := Writers.kept_of_calls w calls
  have hkept' : Kept tables' := hkept.resolve hlinked
  revert hlinked hkept
  generalize calls.foldl w.step {} = tables
  intro hlinked hkept
  rcases resolve_cases hlinked with ⟨person, accounts, hknown, htouch, rfl, -⟩ | ⟨hunknown, hrest⟩
  · -- the first rule, and again
    obtain ⟨account, haccount, -⟩ := accountOf_touchAccount htouch
    refine iff_of_false (not_finds_of_uniqueId ?_ ?_) fun hleaves => ?_
    · simp [hknown]
    · simp [haccount]
    · rw [hleaves.1] at hknown
      cases hknown
  · rcases hrest with ⟨account, haccount, rfl, heq⟩ | ⟨person, accounts, heppn, htouch, rfl, heq⟩ |
      ⟨-, heq⟩ | ⟨registry, accounts, hnobody, hcreate, htouch, rfl, heq⟩
    · have hlater : ∃ account', IdentityRegistry.accountOf assertion
          (loggedIn assertion now tables.accounts) = some account' ∧
            account'.personUuid = account.personUuid := accountOf_loggedIn haccount
      obtain ⟨account', haccount', hsame⟩ := hlater
      obtain rfl : personUuid = account'.personUuid := by
        simpa [hsame] using congrArg Resolution.personUuid heq
      refine iff_of_true (finds_of_account hkept' hunknown haccount') ⟨hunknown, ?_⟩
      exact .inr (.inl (by simp [haccount]))
    · obtain ⟨account, haccount, hsame⟩ := accountOf_touchAccount htouch
      obtain rfl : personUuid = account.personUuid := by
        simpa [hsame] using congrArg Resolution.personUuid heq
      refine iff_of_true (finds_of_account hkept' hunknown haccount) ⟨hunknown, ?_⟩
      exact .inr (.inr (by simp [heppn]))
    · cases heq
    · obtain ⟨account, haccount, hsame⟩ := accountOf_touchAccount htouch
      obtain rfl : personUuid = account.personUuid := by
        simpa [hsame] using congrArg Resolution.personUuid heq
      have hrecorded := (addsFor_createIdentifiers (create_ok hcreate).2).2
      have hfree := (touchAccount_ok htouch).1
      cases hgiven : given assertion.uniqueId with
      | none =>
        -- somebody new whom the issuer names by their subject alone
        refine iff_of_true (finds_of_account hkept' ?_ haccount) ⟨hunknown, .inl hgiven⟩
        rw [byAssertedUniqueId_eq_none hkept'.persons]
        intro value hvalue
        rw [hgiven] at hvalue
        cases hvalue
      | some value =>
        -- somebody new whose unique identifier is recorded now
        refine iff_of_false (not_finds_of_uniqueId ?_ (by simp [haccount])) fun hleaves => ?_
        · rw [ne_eq, byAssertedUniqueId_eq_none hkept'.persons]
          intro hnever
          obtain ⟨row, hrow, hlive⟩ := hrecorded value hgiven
          exact hnever value hgiven row hrow hlive
        · rcases hleaves.2 with hnone | haccounts | heppn
          · rw [hgiven] at hnone
            cases hnone
          · exact haccounts hfree
          · exact heppn hnobody

/-- Sam logs in for the first time, at an issuer that knows Sam by a unique identifier or by a
subject alone. -/
def firstLogin (uniqueId : Option String) : Assertion where
  idpEntityId := "https://idp.example"
  protocol := "saml"
  subject := "sam"
  uniqueId := uniqueId

theorem exists_firstLogin (uniqueId : Option String)
    (h : ((Writers.plainWriters.registry.resolve (firstLogin uniqueId) ⟨"p", "k"⟩ 0
      ({} : Tables Unit)).toOption.map Prod.snd) = some ⟨some "p", .created⟩) :
    ∃ tables', Writers.plainWriters.registry.resolve (firstLogin uniqueId) ⟨"p", "k"⟩ 0
      ({} : Tables Unit) = .ok (tables', ⟨some "p", .created⟩) := by
  cases hok : Writers.plainWriters.registry.resolve (firstLogin uniqueId) ⟨"p", "k"⟩ 0
      ({} : Tables Unit) with
  | error e =>
    rw [hok] at h
    cases h
  | ok written =>
    rw [hok] at h
    exact ⟨written.1, congrArg _ (Prod.ext rfl (Option.some.inj h))⟩

/-- Known by a subject alone, Sam is found again. -/
theorem finds_of_subject : ∃ tables' : Tables Unit,
    Writers.plainWriters.registry.resolve (firstLogin none) ⟨"p", "k"⟩ 0 {} =
      .ok (tables', ⟨some "p", .created⟩) ∧
    Finds Writers.plainWriters.registry (firstLogin none) ⟨"q", "l"⟩ 1 "p" tables' := by
  obtain ⟨tables', hlinked⟩ := exists_firstLogin none (by decide +kernel)
  refine ⟨tables', hlinked, ?_⟩
  exact (returns_iff Writers.plainWriters [] (firstLogin none) ⟨"p", "k"⟩ ⟨"q", "l"⟩ 0 1 tables'
    "p" .created hlinked).mpr ⟨by decide +kernel, .inl rfl⟩

/-- Known by a unique identifier, Sam is recorded with it, and cannot log in a second time. -/
theorem not_finds_again :
    ¬ ∀ (w : Writers Unit Unit Empty) (calls : List (DatedCall Unit)) (assertion : Assertion)
      (minted minted' : Minted) (now now' : Int) (tables' : Tables Unit) (personUuid : String)
      (basis : LinkBasis), w.registry.resolve assertion minted now (calls.foldl w.step {}) =
        .ok (tables', ⟨some personUuid, basis⟩) →
      Finds w.registry assertion minted' now' personUuid tables' := by
  intro h
  obtain ⟨tables', hlinked⟩ := exists_firstLogin (some "sam@idp.example") (by decide +kernel)
  obtain ⟨tables'', basis, hagain, -⟩ := h Writers.plainWriters []
    (firstLogin (some "sam@idp.example")) ⟨"p", "k"⟩ ⟨"q", "l"⟩ 0 1 tables' "p" .created hlinked
  have hrefused : ((Writers.plainWriters.registry.resolve (firstLogin (some "sam@idp.example"))
      ⟨"p", "k"⟩ 0 ({} : Tables Unit)).toOption.bind fun written =>
        (Writers.plainWriters.registry.resolve (firstLogin (some "sam@idp.example")) ⟨"q", "l"⟩ 1
          written.1).toOption.map Prod.snd) = none := by decide +kernel
  rw [hlinked] at hrefused
  dsimp only [Except.toOption, Option.bind_some] at hrefused
  rw [hagain] at hrefused
  cases hrefused

end Identity
end CampusID
