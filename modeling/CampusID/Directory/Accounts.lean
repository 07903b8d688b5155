import CampusID.Directory.Ldap
import CampusID.Lib.Runs
import CampusID.Lifecycle.Accounts
import Mathlib.Data.List.TakeWhile

/-!
# One directory account per person?

People join, move, leave and come back, and the orchestrator drives one directory.  The
entry of a person is named after the local part of their ePPN, an entry that is already
there is taken for theirs, and nothing ever enables it again.

`OneAccountEach` is what one would want of every state: no two people are served by one
entry, and whoever belongs to the campus is found under their login and enabled.
`Clear` is what it takes, step by step: nobody is provisioned whose entry would be named
like another's, nobody leaves whose login is another's local part, and nobody comes back
after their account was disabled.  `oneAccountEach_iff_clear` says that nothing less will
do.

`Orderly` is the invariant behind it: the directory holds the entries of those who were
provisioned, each under its own name, and disabled for those who left.
-/

namespace CampusID

open Lib

/-! ## Names -/

/-- The local part of a login. -/
def localPart (login : String) : String := Text.beforeFirst '@' login

theorem localPart_idem (login : String) : localPart (localPart login) = localPart login := by
  unfold localPart Text.beforeFirst
  rw [String.toList_ofList, List.takeWhile_idem]

namespace Registry

variable {Doc : Type}

/-- Every person has at most one ePPN, a live one, and no two people share one. -/
structure OneEppnEach (registry : Registry Doc) : Prop where
  live : ∀ row ∈ registry.identifiers, row.idType = .eppn → row.Live
  nonempty : ∀ row ∈ registry.identifiers, row.idType = .eppn → row.value ≠ ""
  single : ∀ row ∈ registry.identifiers, ∀ row' ∈ registry.identifiers, row.idType = .eppn →
    row'.idType = .eppn → row.personUuid = row'.personUuid → row.value = row'.value
  distinct : ∀ row ∈ registry.identifiers, ∀ row' ∈ registry.identifiers, row.idType = .eppn →
    row'.idType = .eppn → row.value = row'.value → row.personUuid = row'.personUuid

namespace OneEppnEach

variable {registry : Registry Doc} (h : registry.OneEppnEach) {personUuid login : String}
include h

theorem loginFor_eq_some : registry.loginFor personUuid = some login ↔
    ∃ row ∈ registry.identifiers, row.personUuid = personUuid ∧ row.idType = .eppn ∧
      row.value = login := by
  by_cases hsome : ∃ row ∈ registry.identifiers, row.personUuid = personUuid ∧ row.idType = .eppn
  · obtain ⟨row, hrow, hp, ht⟩ := hsome
    have hlogin : registry.loginFor personUuid = some row.value := by
      refine loginFor_of_live (fun row' hrow' hp' _ ht' => ?_)
        ⟨row, hrow, hp, h.live row hrow ht, ht⟩
      exact h.single row' hrow' row hrow ht' ht (hp'.trans hp.symm)
    rw [hlogin]
    constructor
    · intro heq
      exact ⟨row, hrow, hp, ht, Option.some.inj heq⟩
    · rintro ⟨row', hrow', hp', ht', rfl⟩
      exact congrArg some (h.single row hrow row' hrow' ht ht' (hp.trans hp'.symm))
  · have hnil : (registry.allIdentifiers personUuid).filter (·.idType = .eppn) = [] := by
      rw [List.filter_eq_nil_iff]
      intro row hrow ht
      obtain ⟨hmem, hp⟩ := mem_allIdentifiers.mp hrow
      exact hsome ⟨row, hmem, hp, by simpa using ht⟩
    have hnone : registry.loginFor personUuid = none := by
      unfold loginFor
      simp [hnil]
    rw [hnone]
    constructor
    · intro heq
      cases heq
    · rintro ⟨row, hrow, hp, ht, -⟩
      exact absurd ⟨row, hrow, hp, ht⟩ hsome

theorem provisioningLogin_eq (personUuid : String) :
    registry.provisioningLogin personUuid = registry.loginFor personUuid := by
  have hlive : ∀ row, row ∈ registry.liveIdentifiers personUuid → row.idType = .eppn →
      registry.loginFor personUuid = some row.value := by
    intro row hrow ht
    obtain ⟨hmem, hp⟩ := mem_allIdentifiers.mp (List.mem_of_mem_filter hrow)
    exact h.loginFor_eq_some.mpr ⟨row, hmem, hp, ht, rfl⟩
  unfold provisioningLogin
  simp only
  cases hprimary : (registry.liveIdentifiers personUuid).find? fun row =>
      row.idType = .eppn ∧ row.isPrimary with
  | some row =>
    have hrow : row.idType = .eppn ∧ row.isPrimary := by simpa using List.find?_some hprimary
    exact (hlive row (List.mem_of_find?_eq_some hprimary) hrow.1).symm
  | none =>
    cases hany : (registry.liveIdentifiers personUuid).find? (·.idType = .eppn) with
    | some row =>
      have hrow : row.idType = .eppn := by simpa using List.find?_some hany
      exact (hlive row (List.mem_of_find?_eq_some hany) hrow).symm
    | none =>
      symm
      rw [Option.map_none, Option.eq_none_iff_forall_ne_some]
      intro login hlogin
      obtain ⟨row, hmem, hp, ht, -⟩ := h.loginFor_eq_some.mp hlogin
      have hrow : row ∈ registry.liveIdentifiers personUuid :=
        List.mem_filter.mpr ⟨mem_allIdentifiers.mpr ⟨hmem, hp⟩, by
          simpa using h.live row hmem ht⟩
      exact List.find?_eq_none.mp hany row hrow (by simpa using ht)

theorem login_ne_empty (hlogin : registry.loginFor personUuid = some login) : login ≠ "" := by
  obtain ⟨row, hrow, -, ht, rfl⟩ := h.loginFor_eq_some.mp hlogin
  exact h.nonempty row hrow ht

theorem person_unique {personUuid' : String} (hlogin : registry.loginFor personUuid = some login)
    (hlogin' : registry.loginFor personUuid' = some login) : personUuid = personUuid' := by
  obtain ⟨row, hrow, rfl, ht, rfl⟩ := h.loginFor_eq_some.mp hlogin
  obtain ⟨row', hrow', rfl, ht', hval⟩ := h.loginFor_eq_some.mp hlogin'
  exact h.distinct row hrow row' hrow' ht ht' hval.symm

theorem specFor_of_loginFor (hlogin : registry.loginFor personUuid = some login) :
    ∃ spec, registry.specFor personUuid = some spec ∧ spec.uid = localPart login ∧
      spec.principalName = some login := by
  unfold specFor
  rw [h.provisioningLogin_eq, hlogin]
  exact ⟨_, rfl, rfl, rfl⟩

theorem specFor_eq_none (hlogin : registry.loginFor personUuid = none) :
    registry.specFor personUuid = none := by
  unfold specFor
  rw [h.provisioningLogin_eq, hlogin]
  rfl

end OneEppnEach

end Registry

/-! ## Runs -/

/-- The campus: the world with its directory, who was ever provisioned, which entries
served whom, who belongs to the campus by their latest transition, and who left after
having been provisioned. -/
structure Campus (Doc : Type) where
  world : World Doc Directory
  provisioned : List String := []
  served : List (String × String) := []
  affiliated : List String := []
  departed : List String := []

/-- One step of a run: time passes, or somebody's affiliations change. -/
inductive CampusOp where
  | tick (elapsed days : Int)
  | transitioned (personUuid : String) (before after : Finset String) (source : Source)
      (on : Option Int)

/-- The orchestrator in front of the directory. -/
def Orchestrator.withDirectory (o : Orchestrator Directory DirectoryUnavailable)
    (ldap : LdapTarget) : Orchestrator Directory DirectoryUnavailable :=
  { o with targets := [ldap.target], identity := true }

namespace Campus

variable {Doc : Type} (o : Orchestrator Directory DirectoryUnavailable) (ldap : LdapTarget)

/-- The directory. -/
def directory (s : Campus Doc) : Directory := s.world.downstream

/-- The login of a person. -/
def login (s : Campus Doc) (personUuid : String) : Option String :=
  s.world.registry.loginFor personUuid

/-- The state before anybody joined. -/
def initial (world : World Doc Directory) : Campus Doc where
  world := { world with downstream := ∅ }

/-- The state after a leaver: `find_user` gave the entry that was disabled, if any. -/
def left (s : Campus Doc) (personUuid : String) (world : World Doc Directory) : Campus Doc where
  world := world
  provisioned := s.provisioned
  served := ((s.login personUuid).bind fun login => ldap.findUser login s.directory).elim s.served
    fun user => (personUuid, user.1) :: s.served
  affiliated := s.affiliated.filter (· ≠ personUuid)
  departed := if personUuid ∈ s.provisioned then personUuid :: s.departed else s.departed

/-- The state after any other transition: `ensure_person` was called with the spec, if
there is one. -/
def arrived (s : Campus Doc) (personUuid : String) (after : Finset String)
    (world : World Doc Directory) : Campus Doc where
  world := world
  provisioned := (s.world.registry.specFor personUuid).elim s.provisioned
    fun _ => personUuid :: s.provisioned
  served := (s.world.registry.specFor personUuid).elim s.served
    fun spec => (personUuid, ldap.dnFor spec.uid) :: s.served
  affiliated :=
    if after = ∅ then s.affiliated.filter (· ≠ personUuid) else personUuid :: s.affiliated
  departed := s.departed

/-- One step. -/
def step (s : Campus Doc) : CampusOp → Campus Doc
  | .tick elapsed days =>
    { s with world := { s.world with now := s.world.now + elapsed, today := s.world.today + days } }
  | .transitioned personUuid before after source on =>
    let world := (((o.withDirectory ldap).transitioned personUuid before after source on).run
      s.world).2
    if after = ∅ ∧ before ≠ ∅ then s.left ldap personUuid world
    else s.arrived ldap personUuid after world

/-- **One account per person**, in the state the person is in. -/
structure OneAccountEach (s : Campus Doc) : Prop where
  apart : ∀ p q dn, (p, dn) ∈ s.served → (q, dn) ∈ s.served → p = q
  enabled : ∀ p ∈ s.affiliated, ∀ login, s.login p = some login → ∃ dn entry,
    ldap.findUser login s.directory = some (dn, entry) ∧ ldap.profile.disabled entry = false

/-- The condition on a leaver: their login is nobody else's local part, where local
parts are searched for. -/
def ClearToLeave (s : Campus Doc) (personUuid : String) : Prop :=
  ∀ login, s.login personUuid = some login → ∀ q ∈ s.provisioned, q ≠ personUuid →
    ∀ other, s.login q = some other →
      ¬ ("uid" ∈ ldap.profile.loginAttributes ∧ login = localPart other)

/-- The condition on anybody else: their entry is named like nobody else's, and if they
come to belong to the campus then they have not left it. -/
def ClearToArrive (s : Campus Doc) (personUuid : String) (after : Finset String) : Prop :=
  ∀ login, s.login personUuid = some login →
    (∀ q ∈ s.provisioned, q ≠ personUuid → ∀ other, s.login q = some other →
      ldap.dnFor (localPart login) ≠ ldap.dnFor (localPart other)) ∧
    (after ≠ ∅ → personUuid ∉ s.departed)

/-- The condition on a step. -/
def Clear (s : Campus Doc) : CampusOp → Prop
  | .tick _ _ => True
  | .transitioned personUuid before after _ _ =>
    if after = ∅ ∧ before ≠ ∅ then s.ClearToLeave ldap personUuid
    else s.ClearToArrive ldap personUuid after

/-! ## The invariant -/

/-- The entry of a provisioned person, as `ensure_person` made it and as `disable` left
it. -/
def entryOf (s : Campus Doc) (personUuid : String) (spec : PersonSpec) : LdapEntry :=
  if personUuid ∈ s.departed then
    (ldap.lock (ldap.newEntry spec)).getD (ldap.newEntry spec)
  else ldap.newEntry spec

/-- **The directory holds the entries of those who were provisioned**, each under a name
of its own, and nothing else. -/
structure Orderly (s : Campus Doc) : Prop where
  names : s.world.registry.OneEppnEach
  known : ∀ p ∈ s.provisioned, ∃ login, s.login p = some login
  apart : ∀ p ∈ s.provisioned, ∀ q ∈ s.provisioned, ∀ login other, s.login p = some login →
    s.login q = some other → ldap.dnFor (localPart login) = ldap.dnFor (localPart other) → p = q
  entry : ∀ p ∈ s.provisioned, ∀ spec, s.world.registry.specFor p = some spec →
    s.directory.lookup (ldap.dnFor spec.uid) = some (s.entryOf ldap p spec)
  only : ∀ dn entry, s.directory.lookup dn = some entry → ∃ p ∈ s.provisioned, ∃ login,
    s.login p = some login ∧ dn = ldap.dnFor (localPart login)
  served : ∀ p dn, (p, dn) ∈ s.served ↔ p ∈ s.provisioned ∧ ∃ login, s.login p = some login ∧
    dn = ldap.dnFor (localPart login)
  affiliated : ∀ p ∈ s.affiliated, p ∉ s.departed ∧ (s.login p ≠ none → p ∈ s.provisioned)
  departed : ∀ p ∈ s.departed, p ∈ s.provisioned

theorem orderly_initial {world : World Doc Directory} (h : world.registry.OneEppnEach) :
    Orderly ldap (initial world) where
  names := h
  known := by simp [initial]
  apart := by simp [initial]
  entry := by simp [initial]
  only := by
    intro dn entry hl
    cases hl
  served := by simp [initial]
  affiliated := by simp [initial]
  departed := by simp [initial]

section Facts

variable {o ldap} {s : Campus Doc} (h : Orderly ldap s) (hprofile : ldap.profile ∈ profiles)
include h

theorem Orderly.login_unique {p q login : String} (hp : s.login p = some login)
    (hq : s.login q = some login) : p = q :=
  h.names.person_unique hp hq

theorem Orderly.spec {p login : String} (hp : s.login p = some login) :
    ∃ spec, s.world.registry.specFor p = some spec ∧ spec.uid = localPart login ∧
      spec.principalName = some login :=
  h.names.specFor_of_loginFor hp

include hprofile

theorem Orderly.entryOf_answers {p login : String} {spec : PersonSpec}
    (hp : s.login p = some login) (hspec : s.world.registry.specFor p = some spec) (x : String) :
    (s.entryOf ldap p spec).Answers ldap.profile x ↔
      x = login ∨ ("uid" ∈ ldap.profile.loginAttributes ∧ x = localPart login) := by
  obtain ⟨spec', hspec', huid, hname⟩ := h.spec hp
  obtain rfl := Option.some.inj (hspec.symm.trans hspec')
  have hcreated := ldap.created hprofile hname (h.names.login_ne_empty hp)
  rw [← huid, ← hcreated.answers x]
  unfold entryOf
  split_ifs
  · obtain ⟨locked, hlock, -, -, hanswers⟩ := hcreated.locks
    rw [hlock]
    exact hanswers x
  · exact Iff.rfl

theorem Orderly.entryOf_disabled {p login : String} {spec : PersonSpec}
    (hp : s.login p = some login) (hspec : s.world.registry.specFor p = some spec) :
    ldap.profile.disabled (s.entryOf ldap p spec) = decide (p ∈ s.departed) := by
  obtain ⟨spec', hspec', -, hname⟩ := h.spec hp
  obtain rfl := Option.some.inj (hspec.symm.trans hspec')
  have hcreated := ldap.created hprofile hname (h.names.login_ne_empty hp)
  unfold entryOf
  by_cases hd : p ∈ s.departed
  · obtain ⟨locked, hlock, -, hdisabled, -⟩ := hcreated.locks
    rw [if_pos hd, hlock]
    simpa [hd] using hdisabled
  · rw [if_neg hd]
    simpa [hd] using hcreated.enabled

theorem Orderly.answering {dn x : String} {entry : LdapEntry}
    (hl : s.directory.lookup dn = some entry) (ha : entry.Answers ldap.profile x) :
    ∃ q ∈ s.provisioned, ∃ login, s.login q = some login ∧ dn = ldap.dnFor (localPart login) ∧
      (x = login ∨ ("uid" ∈ ldap.profile.loginAttributes ∧ x = localPart login)) := by
  obtain ⟨q, hq, login, hlogin, rfl⟩ := h.only dn entry hl
  obtain ⟨spec, hspec, huid, -⟩ := h.spec hlogin
  have hentry := h.entry q hq spec hspec
  rw [huid, hl] at hentry
  obtain rfl := Option.some.inj hentry
  exact ⟨q, hq, login, hlogin, rfl, (h.entryOf_answers hprofile hlogin hspec x).mp ha⟩

theorem Orderly.findUser_eq {q other x : String} {spec : PersonSpec} (hq : q ∈ s.provisioned)
    (hother : s.login q = some other) (hspec : s.world.registry.specFor q = some spec)
    (hx : x = other ∨ ("uid" ∈ ldap.profile.loginAttributes ∧ x = localPart other))
    (honly : ∀ r ∈ s.provisioned, s.login r = some x →
      ldap.dnFor (localPart x) = ldap.dnFor (localPart other)) :
    ldap.findUser x s.directory =
      some (ldap.dnFor (localPart other), s.entryOf ldap q spec) := by
  obtain ⟨spec', hspec', huid, -⟩ := h.spec hother
  obtain rfl := Option.some.inj (hspec.symm.trans hspec')
  have hlocal : localPart x = localPart other := by
    rcases hx with rfl | ⟨-, rfl⟩
    · rfl
    · exact localPart_idem other
  refine LdapTarget.findUser_eq_some (huid ▸ h.entry q hq spec hspec)
    ((h.entryOf_answers hprofile hother hspec x).mpr hx) fun dn' entry' hl' ha' => ?_
  obtain ⟨r, hr, login, hlogin, rfl, rfl | ⟨-, rfl⟩⟩ := h.answering hprofile hl' ha'
  · exact honly r hr hlogin
  · rw [← hlocal, localPart_idem]

theorem Orderly.findUser_of_provisioned {p login : String} {spec : PersonSpec}
    (hp : p ∈ s.provisioned) (hlogin : s.login p = some login)
    (hspec : s.world.registry.specFor p = some spec) :
    ldap.findUser login s.directory =
      some (ldap.dnFor (localPart login), s.entryOf ldap p spec) :=
  h.findUser_eq hprofile hp hlogin hspec (Or.inl rfl) fun _ _ _ => rfl

theorem Orderly.findUser_of_not_provisioned {p login : String} (hp : p ∉ s.provisioned)
    (hlogin : s.login p = some login) (hclear : s.ClearToLeave ldap p) :
    ldap.findUser login s.directory = none := by
  refine LdapTarget.findUser_eq_none fun dn entry hl ha => ?_
  obtain ⟨q, hq, other, hother, -, rfl | hlocal⟩ := h.answering hprofile hl ha
  · exact hp (h.login_unique hlogin hother ▸ hq)
  · exact hclear login hlogin q hq (fun hqp => hp (hqp ▸ hq)) other hother hlocal

/-- **An orderly campus has one account each.** -/
theorem Orderly.oneAccountEach : s.OneAccountEach ldap := by
  refine ⟨fun p q dn hp hq => ?_, fun p hp login hlogin => ?_⟩
  · obtain ⟨hp₁, login, hlogin, rfl⟩ := (h.served p dn).mp hp
    obtain ⟨hq₁, other, hother, hdn⟩ := (h.served q _).mp hq
    exact h.apart p hp₁ q hq₁ login other hlogin hother hdn
  · obtain ⟨hstays, hprov⟩ := h.affiliated p hp
    obtain ⟨spec, hspec, -, -⟩ := h.spec hlogin
    have hmem := hprov (by simp [hlogin])
    refine ⟨_, _, h.findUser_of_provisioned hprofile hmem hlogin hspec, ?_⟩
    rw [h.entryOf_disabled hprofile hlogin hspec]
    simpa using hstays

end Facts

/-! ## The steps -/

section Steps

variable {o ldap} {s : Campus Doc}

theorem directory_willing : ∀ target ∈ (o.withDirectory ldap).targets, target.Willing := by
  intro target htarget
  obtain rfl := List.mem_singleton.mp htarget
  refine ⟨fun spec d => ?_, fun login d => ?_⟩
  · show ((ldap.provision spec).run d).1 = .ok ()
    rw [LdapTarget.run_provision]
  · show ((ldap.disable login).run d).1 = .ok ()
    rw [LdapTarget.run_disable]

variable (o ldap) in
/-- **What a leaver does to the directory.** -/
theorem step_leaver (s : Campus Doc) (personUuid : String) {before after : Finset String}
    (source : Source) (on : Option Int) (hroute : after = ∅ ∧ before ≠ ∅) :
    ∃ world, step o ldap s (.transitioned personUuid before after source on) =
        s.left ldap personUuid world ∧ world.registry = s.world.registry ∧
      world.downstream = (s.login personUuid).elim s.directory fun login =>
        ldap.disabledIn login s.directory := by
  refine ⟨_, if_pos hroute, (o.withDirectory ldap).transitioned_registry _ _ _ _ _ _, ?_⟩
  obtain ⟨delta, -, hdown, -⟩ := Orchestrator.deprovision_of_willing (o := o.withDirectory ldap)
    directory_willing personUuid before source on s.world
  rw [Orchestrator.transitioned, if_pos hroute, hdown]
  show (s.login personUuid).elim _ _ = _
  cases s.login personUuid with
  | none => rfl
  | some login =>
    show ((ldap.disable login).run s.directory).2 = _
    rw [LdapTarget.run_disable]
    rfl

variable (o ldap) in
/-- **What any other transition does to the directory.** -/
theorem step_arrival (s : Campus Doc) (personUuid : String) {before after : Finset String}
    (source : Source) (on : Option Int) (hroute : ¬ (after = ∅ ∧ before ≠ ∅)) :
    ∃ world, step o ldap s (.transitioned personUuid before after source on) =
        s.arrived ldap personUuid after world ∧ world.registry = s.world.registry ∧
      world.downstream = (s.world.registry.specFor personUuid).elim s.directory fun spec =>
        ldap.provisionedIn spec s.directory := by
  refine ⟨_, if_neg hroute, (o.withDirectory ldap).transitioned_registry _ _ _ _ _ _, ?_⟩
  obtain ⟨delta, -, hdown, -⟩ := Orchestrator.transitioned_of_willing (o := o.withDirectory ldap)
    directory_willing personUuid hroute source on s.world
  rw [hdown]
  show (s.world.registry.specFor personUuid).elim _ _ = _
  cases s.world.registry.specFor personUuid with
  | none => rfl
  | some spec =>
    show ((ldap.provision spec).run s.directory).2 = _
    rw [LdapTarget.run_provision]
    rfl

variable (h : Orderly ldap s) (hprofile : ldap.profile ∈ profiles)
include h

theorem Orderly.dnFor_ne {p q login other : String} (hp : p ∈ s.provisioned)
    (hq : q ∈ s.provisioned) (hne : q ≠ p) (hlogin : s.login p = some login)
    (hother : s.login q = some other) :
    ldap.dnFor (localPart other) ≠ ldap.dnFor (localPart login) :=
  fun heq => hne (h.apart q hq p hp other login hother hlogin heq)

/-- A step that provisions nobody new keeps the campus orderly, if it leaves every entry
as it should be. -/
theorem Orderly.revised {s' : Campus Doc} (hregistry : s'.world.registry = s.world.registry)
    (hprovisioned : ∀ q, q ∈ s'.provisioned ↔ q ∈ s.provisioned)
    (hserved : ∀ x, x ∈ s'.served ↔ x ∈ s.served)
    (haffiliated : ∀ q ∈ s'.affiliated, q ∉ s'.departed ∧
      (s.login q ≠ none → q ∈ s.provisioned))
    (hdeparted : ∀ q ∈ s'.departed, q ∈ s.provisioned)
    (hentry : ∀ q ∈ s.provisioned, ∀ spec, s.world.registry.specFor q = some spec →
      s'.directory.lookup (ldap.dnFor spec.uid) = some (s'.entryOf ldap q spec))
    (honly : ∀ dn entry, s'.directory.lookup dn = some entry →
      ∃ entry', s.directory.lookup dn = some entry') : Orderly ldap s' := by
  have hlogin : ∀ q, s'.login q = s.login q := by
    intro q
    unfold login
    rw [hregistry]
  refine ⟨hregistry ▸ h.names, fun q hq => ?_, fun p hp q hq => ?_, fun q hq spec hspec => ?_,
    fun dn entry hl => ?_, fun q dn => ?_, fun q hq => ?_, fun q hq => ?_⟩
  · rw [hlogin]
    exact h.known q ((hprovisioned q).mp hq)
  · rw [hlogin, hlogin]
    exact h.apart p ((hprovisioned p).mp hp) q ((hprovisioned q).mp hq)
  · rw [hregistry] at hspec
    exact hentry q ((hprovisioned q).mp hq) spec hspec
  · obtain ⟨entry', hl'⟩ := honly dn entry hl
    obtain ⟨q, hq, login, hq', hdn⟩ := h.only dn entry' hl'
    exact ⟨q, (hprovisioned q).mpr hq, login, (hlogin q).trans hq', hdn⟩
  · rw [hserved, h.served, hprovisioned, hlogin]
  · obtain ⟨hstays, hprov⟩ := haffiliated q hq
    rw [hlogin, hprovisioned]
    exact ⟨hstays, hprov⟩
  · exact (hprovisioned q).mpr (hdeparted q hq)

theorem Orderly.affiliated_arrived {personUuid : String} {after : Finset String}
    {world : World Doc Directory} (hclear : s.ClearToArrive ldap personUuid after) {q : String}
    (hq : q ∈ (s.arrived ldap personUuid after world).affiliated) :
    q ∉ s.departed ∧ (q ≠ personUuid → s.login q ≠ none → q ∈ s.provisioned) := by
  have hstays : after ≠ ∅ → personUuid ∉ s.departed := by
    intro hafter hd
    obtain ⟨login, hlogin⟩ := h.known personUuid (h.departed personUuid hd)
    exact (hclear login hlogin).2 hafter hd
  unfold arrived at hq
  by_cases hafter : after = ∅
  · simp only [hafter, if_true] at hq
    obtain ⟨hd, hprov⟩ := h.affiliated q (List.mem_of_mem_filter hq)
    exact ⟨hd, fun _ => hprov⟩
  · simp only [hafter, if_false] at hq
    rcases List.mem_cons.mp hq with rfl | hq
    · exact ⟨hstays hafter, fun hne => absurd rfl hne⟩
    · obtain ⟨hd, hprov⟩ := h.affiliated q hq
      exact ⟨hd, fun _ => hprov⟩

theorem Orderly.arrived_new {personUuid login : String} {spec : PersonSpec}
    {after : Finset String} {world : World Doc Directory} (hnew : personUuid ∉ s.provisioned)
    (hlogin : s.login personUuid = some login)
    (hspec : s.world.registry.specFor personUuid = some spec)
    (hregistry : world.registry = s.world.registry)
    (hdown : world.downstream = ldap.provisionedIn spec s.directory)
    (hclear : s.ClearToArrive ldap personUuid after) :
    Orderly ldap (s.arrived ldap personUuid after world) := by
  obtain ⟨spec', hspec', huid, -⟩ := h.spec hlogin
  obtain rfl := Option.some.inj (hspec.symm.trans hspec')
  have hlogins : ∀ q, (s.arrived ldap personUuid after world).login q = s.login q := by
    intro q
    show world.registry.loginFor q = _
    rw [hregistry]
    rfl
  have hprovisioned : (s.arrived ldap personUuid after world).provisioned =
      personUuid :: s.provisioned := by
    show Option.elim _ _ _ = _
    rw [hspec]
    rfl
  have hserved : (s.arrived ldap personUuid after world).served =
      (personUuid, ldap.dnFor (localPart login)) :: s.served := by
    show Option.elim _ _ _ = _
    rw [hspec, ← huid]
    rfl
  have hother : ∀ q ∈ s.provisioned, q ≠ personUuid := fun q hq heq => hnew (heq ▸ hq)
  have hne : ∀ q ∈ s.provisioned, ∀ other, s.login q = some other →
      ldap.dnFor (localPart login) ≠ ldap.dnFor (localPart other) :=
    fun q hq => (hclear login hlogin).1 q hq (hother q hq)
  -- nobody's entry is at the name yet
  have hfree : s.directory.lookup (ldap.dnFor spec.uid) = none := by
    rw [Option.eq_none_iff_forall_ne_some]
    intro entry hl
    obtain ⟨q, hq, other, hq', hdn⟩ := h.only _ entry hl
    exact hne q hq other hq' (huid ▸ hdn)
  have hlookup : ∀ dn, (s.arrived ldap personUuid after world).directory.lookup dn =
      if dn = ldap.dnFor (localPart login) then some (ldap.newEntry spec)
      else s.directory.lookup dn := by
    intro dn
    show AList.lookup dn world.downstream = _
    rw [hdown, LdapTarget.provisionedIn, hfree, huid]
    simp only [Option.isSome_none, Bool.false_eq_true, if_false]
    split_ifs with hdn
    · rw [hdn, AList.lookup_insert]
    · rw [AList.lookup_insert_ne hdn]
  refine ⟨hregistry ▸ h.names, fun q hq => ?_, fun p hp q hq x y hx hy hdn => ?_,
    fun q hq spec₁ hspec₁ => ?_, fun dn entry hl => ?_, fun q dn => ?_, fun q hq => ?_,
    fun q hq => ?_⟩
  · rw [hlogins]
    rw [hprovisioned] at hq
    rcases List.mem_cons.mp hq with rfl | hq
    · exact ⟨login, hlogin⟩
    · exact h.known q hq
  · rw [hlogins] at hx hy
    rw [hprovisioned] at hp hq
    rcases List.mem_cons.mp hp with rfl | hp₁ <;> rcases List.mem_cons.mp hq with rfl | hq₁
    · rfl
    · obtain rfl := Option.some.inj (hlogin.symm.trans hx)
      exact absurd hdn (hne q hq₁ y hy)
    · obtain rfl := Option.some.inj (hlogin.symm.trans hy)
      exact absurd hdn.symm (hne p hp₁ x hx)
    · exact h.apart p hp₁ q hq₁ x y hx hy hdn
  · rw [show (s.arrived ldap personUuid after world).world.registry = _ from hregistry] at hspec₁
    rw [hprovisioned] at hq
    rw [hlookup]
    rcases List.mem_cons.mp hq with rfl | hq
    · obtain rfl := Option.some.inj (hspec.symm.trans hspec₁)
      have hstays : q ∉ (s.arrived ldap q after world).departed := fun hd => hnew (h.departed q hd)
      rw [huid, if_pos rfl, entryOf, if_neg hstays]
    · obtain ⟨other, hq'⟩ := h.known q hq
      obtain ⟨spec₂, hspec₂, huid₂, -⟩ := h.spec hq'
      obtain rfl := Option.some.inj (hspec₁.symm.trans hspec₂)
      rw [huid₂, if_neg (hne q hq other hq').symm, ← huid₂]
      exact h.entry q hq spec₁ hspec₁
  · rw [hlookup] at hl
    rw [hprovisioned]
    split_ifs at hl with hdn
    · exact ⟨personUuid, List.mem_cons_self, login, (hlogins _).trans hlogin, hdn⟩
    · obtain ⟨q, hq, other, hq', hdn'⟩ := h.only dn entry hl
      exact ⟨q, List.mem_cons_of_mem _ hq, other, (hlogins q).trans hq', hdn'⟩
  · rw [hserved, hprovisioned, hlogins, List.mem_cons, List.mem_cons, h.served]
    constructor
    · rintro (heq | ⟨hq, hrest⟩)
      · obtain ⟨rfl, rfl⟩ := Prod.mk.inj heq
        exact ⟨Or.inl rfl, login, hlogin, rfl⟩
      · exact ⟨Or.inr hq, hrest⟩
    · rintro ⟨rfl | hq, other, hq', rfl⟩
      · obtain rfl := Option.some.inj (hlogin.symm.trans hq')
        exact Or.inl rfl
      · exact Or.inr ⟨hq, other, hq', rfl⟩
  · obtain ⟨hstays, hprov⟩ := h.affiliated_arrived hclear hq
    refine ⟨hstays, fun hsome => ?_⟩
    rw [hlogins] at hsome
    rw [hprovisioned]
    by_cases hqp : q = personUuid
    · exact hqp ▸ List.mem_cons_self
    · exact List.mem_cons_of_mem _ (hprov hqp hsome)
  · rw [hprovisioned]
    exact List.mem_cons_of_mem _ (h.departed q hq)

/-- **An arrival that is clear keeps the campus orderly.** -/
theorem Orderly.arrived {personUuid : String} {after : Finset String}
    {world : World Doc Directory} (hregistry : world.registry = s.world.registry)
    (hdown : world.downstream = (s.world.registry.specFor personUuid).elim s.directory fun spec =>
      ldap.provisionedIn spec s.directory) (hclear : s.ClearToArrive ldap personUuid after) :
    Orderly ldap (s.arrived ldap personUuid after world) := by
  cases hlogin : s.login personUuid with
  | none =>
    have hspec := h.names.specFor_eq_none hlogin
    rw [hspec, Option.elim_none] at hdown
    refine h.revised hregistry (fun q => ?_) (fun x => ?_) (fun q hq => ?_) h.departed
      (fun q hq spec hspec => ?_) fun dn entry hl => ?_
    · show q ∈ Option.elim _ _ _ ↔ _
      rw [hspec]
      rfl
    · show x ∈ Option.elim _ _ _ ↔ _
      rw [hspec]
      rfl
    · obtain ⟨hstays, hprov⟩ := h.affiliated_arrived hclear hq
      refine ⟨hstays, fun hsome => hprov ?_ hsome⟩
      rintro rfl
      exact hsome hlogin
    · show AList.lookup _ world.downstream = _
      rw [hdown]
      exact h.entry q hq spec hspec
    · exact ⟨entry, hdown ▸ hl⟩
  | some login =>
    obtain ⟨spec, hspec, huid, -⟩ := h.spec hlogin
    rw [hspec, Option.elim_some] at hdown
    by_cases hp : personUuid ∈ s.provisioned
    · -- the entry is there, and taken for done
      have hsame : world.downstream = s.directory := by
        rw [hdown, LdapTarget.provisionedIn, h.entry personUuid hp spec hspec]
        rfl
      refine h.revised hregistry (fun q => ?_) (fun x => ?_) (fun q hq => ?_) h.departed
        (fun q hq spec hspec => ?_) fun dn entry hl => ?_
      · show q ∈ Option.elim _ _ _ ↔ _
        rw [hspec, Option.elim_some, List.mem_cons, or_iff_right_of_imp]
        rintro rfl
        exact hp
      · show x ∈ Option.elim _ _ _ ↔ _
        rw [hspec, Option.elim_some, List.mem_cons, or_iff_right_of_imp]
        rintro rfl
        exact (h.served _ _).mpr ⟨hp, login, hlogin, by rw [huid]⟩
      · obtain ⟨hstays, hprov⟩ := h.affiliated_arrived hclear hq
        refine ⟨hstays, fun hsome => ?_⟩
        by_cases hqp : q = personUuid
        · exact hqp ▸ hp
        · exact hprov hqp hsome
      · show AList.lookup _ world.downstream = _
        rw [hsame]
        exact h.entry q hq spec hspec
      · exact ⟨entry, hsame ▸ hl⟩
    · exact h.arrived_new hp hlogin hspec hregistry hdown hclear

include hprofile

/-- The directory after a leaver: the entry of the leaver is locked, the others are as
they were. -/
theorem Orderly.lookup_disabledIn {p login : String} {spec : PersonSpec} (hp : p ∈ s.provisioned)
    (hlogin : s.login p = some login) (hspec : s.world.registry.specFor p = some spec)
    (dn : String) :
    (ldap.disabledIn login s.directory).lookup dn =
      if dn = ldap.dnFor (localPart login) then
        some ((ldap.lock (ldap.newEntry spec)).getD (ldap.newEntry spec))
      else s.directory.lookup dn := by
  obtain ⟨spec', hspec', huid, hname⟩ := h.spec hlogin
  obtain rfl := Option.some.inj (hspec.symm.trans hspec')
  have hcreated := ldap.created hprofile hname (h.names.login_ne_empty hlogin)
  obtain ⟨locked, hlock, hagain, -, -⟩ := hcreated.locks
  have hfind := h.findUser_of_provisioned hprofile hp hlogin hspec
  have hentry := h.entry p hp spec hspec
  rw [huid] at hentry
  unfold LdapTarget.disabledIn
  rw [hfind]
  unfold entryOf at hentry ⊢
  by_cases hd : p ∈ s.departed
  · -- locked already, and left alone
    simp only [hd, if_true, hlock, Option.getD_some, hagain] at hentry ⊢
    split_ifs with hdn
    · rw [hdn, hentry]
    · rfl
  · simp only [hd, if_false, hlock, Option.getD_some]
    split_ifs with hdn
    · rw [hdn, AList.lookup_insert]
    · rw [AList.lookup_insert_ne hdn]

/-- **A leaver that is clear keeps the campus orderly.** -/
theorem Orderly.left {personUuid : String} {world : World Doc Directory}
    (hregistry : world.registry = s.world.registry)
    (hdown : world.downstream = (s.login personUuid).elim s.directory fun login =>
      ldap.disabledIn login s.directory) (hclear : s.ClearToLeave ldap personUuid) :
    Orderly ldap (s.left ldap personUuid world) := by
  have haffiliated : ∀ q ∈ (s.left ldap personUuid world).affiliated, q ≠ personUuid ∧
      q ∉ s.departed ∧ (s.login q ≠ none → q ∈ s.provisioned) := by
    intro q hq
    obtain ⟨hmem, hne⟩ := List.mem_filter.mp hq
    exact ⟨by simpa using hne, h.affiliated q hmem⟩
  have hdirectory : (s.left ldap personUuid world).directory = world.downstream := rfl
  by_cases hp : personUuid ∈ s.provisioned
  · obtain ⟨login, hlogin⟩ := h.known personUuid hp
    obtain ⟨spec, hspec, huid, -⟩ := h.spec hlogin
    have hdeparted : (s.left ldap personUuid world).departed = personUuid :: s.departed :=
      if_pos hp
    have hserved : (s.left ldap personUuid world).served =
        (personUuid, ldap.dnFor (localPart login)) :: s.served := by
      show Option.elim _ _ _ = _
      rw [hlogin, Option.bind_some, h.findUser_of_provisioned hprofile hp hlogin hspec]
      rfl
    have hlookup := h.lookup_disabledIn hprofile hp hlogin hspec
    rw [hlogin, Option.elim_some] at hdown
    refine h.revised hregistry (fun _ => Iff.rfl) (fun x => ?_) (fun q hq => ?_) (fun q hq => ?_)
      (fun q hq spec' hspec' => ?_) fun dn entry hl => ?_
    · rw [hserved, List.mem_cons, or_iff_right_of_imp]
      rintro rfl
      exact (h.served _ _).mpr ⟨hp, login, hlogin, rfl⟩
    · obtain ⟨hne, hstays, hprov⟩ := haffiliated q hq
      rw [hdeparted, List.mem_cons, not_or]
      exact ⟨⟨hne, hstays⟩, hprov⟩
    · rw [hdeparted] at hq
      rcases List.mem_cons.mp hq with rfl | hq
      · exact hp
      · exact h.departed q hq
    · rw [hdirectory, hdown, hlookup]
      by_cases hqp : q = personUuid
      · subst hqp
        obtain rfl := Option.some.inj (hspec.symm.trans hspec')
        rw [huid, if_pos rfl, entryOf, if_pos (hdeparted ▸ List.mem_cons_self)]
      · obtain ⟨other, hother⟩ := h.known q hq
        obtain ⟨spec'', hspec'', huid'', -⟩ := h.spec hother
        obtain rfl := Option.some.inj (hspec'.symm.trans hspec'')
        rw [huid'', if_neg (h.dnFor_ne hp hq hqp hlogin hother), ← huid'',
          h.entry q hq spec' hspec', entryOf, entryOf, hdeparted]
        simp [hqp]
    · rw [hdirectory, hdown, hlookup] at hl
      split_ifs at hl with hdn
      · exact ⟨_, hdn ▸ huid ▸ h.entry personUuid hp spec hspec⟩
      · exact ⟨entry, hl⟩
  · have hdeparted : (s.left ldap personUuid world).departed = s.departed := if_neg hp
    have hnone : (s.login personUuid).bind (fun login => ldap.findUser login s.directory) =
        none := by
      cases hlogin : s.login personUuid with
      | none => rfl
      | some login => exact h.findUser_of_not_provisioned hprofile hp hlogin hclear
    have hserved : (s.left ldap personUuid world).served = s.served := by
      show Option.elim _ _ _ = _
      rw [hnone]
      rfl
    have hsame : world.downstream = s.directory := by
      rw [hdown]
      cases hlogin : s.login personUuid with
      | none => rfl
      | some login =>
        rw [hlogin, Option.bind_some] at hnone
        rw [Option.elim_some, LdapTarget.disabledIn, hnone]
    refine h.revised hregistry (fun _ => Iff.rfl) (fun x => by rw [hserved]) (fun q hq => ?_)
      (fun q hq => ?_) (fun q hq spec hspec => ?_) fun dn entry hl => ?_
    · rw [hdeparted]
      exact (haffiliated q hq).2
    · exact h.departed q (hdeparted ▸ hq)
    · rw [hdirectory, hsame, h.entry q hq spec hspec, entryOf, entryOf, hdeparted]
    · rw [hdirectory, hsame] at hl
      exact ⟨entry, hl⟩

/-- **A clear step keeps the campus orderly.** -/
theorem Orderly.step {op : CampusOp} (hclear : s.Clear ldap op) :
    Orderly ldap (step o ldap s op) := by
  cases op with
  | tick elapsed days =>
    exact ⟨h.names, h.known, h.apart, h.entry, h.only, h.served, h.affiliated, h.departed⟩
  | transitioned personUuid before after source on =>
    by_cases hroute : after = ∅ ∧ before ≠ ∅
    · obtain ⟨world, hstep, hregistry, hdown⟩ := step_leaver o ldap s personUuid source on hroute
      rw [hstep]
      exact h.left hprofile hregistry hdown ((if_pos hroute).mp hclear)
    · obtain ⟨world, hstep, hregistry, hdown⟩ := step_arrival o ldap s personUuid source on hroute
      rw [hstep]
      exact h.arrived hregistry hdown ((if_neg hroute).mp hclear)

theorem Orderly.clearToLeave {personUuid : String} {world : World Doc Directory}
    (hone : (s.left ldap personUuid world).OneAccountEach ldap) :
    s.ClearToLeave ldap personUuid := by
  rintro login hlogin q hq hne other hother ⟨huid, rfl⟩
  obtain ⟨spec, hspec, -, -⟩ := h.spec hother
  -- the search for the leaver hits the entry of the other person
  have hfind : ldap.findUser (localPart other) s.directory =
      some (ldap.dnFor (localPart other), s.entryOf ldap q spec) :=
    h.findUser_eq hprofile hq hother hspec (Or.inr ⟨huid, rfl⟩) fun _ _ _ => by
      rw [localPart_idem]
  have hmem : (personUuid, ldap.dnFor (localPart other)) ∈
      (s.left ldap personUuid world).served := by
    show _ ∈ Option.elim _ _ _
    rw [hlogin, Option.bind_some, hfind]
    exact List.mem_cons_self
  have hmem' : (q, ldap.dnFor (localPart other)) ∈ (s.left ldap personUuid world).served := by
    show _ ∈ Option.elim _ _ _
    rw [hlogin, Option.bind_some, hfind]
    exact List.mem_cons_of_mem _ ((h.served _ _).mpr ⟨hq, other, hother, rfl⟩)
  exact hne (hone.apart _ _ _ hmem' hmem)

theorem Orderly.clearToArrive {personUuid : String} {after : Finset String}
    {world : World Doc Directory} (hregistry : world.registry = s.world.registry)
    (hdown : world.downstream = (s.world.registry.specFor personUuid).elim s.directory fun spec =>
      ldap.provisionedIn spec s.directory)
    (hone : (s.arrived ldap personUuid after world).OneAccountEach ldap) :
    s.ClearToArrive ldap personUuid after := by
  intro login hlogin
  obtain ⟨spec, hspec, huid, -⟩ := h.spec hlogin
  have hserved : (s.arrived ldap personUuid after world).served =
      (personUuid, ldap.dnFor (localPart login)) :: s.served := by
    show Option.elim _ _ _ = _
    rw [hspec, ← huid]
    rfl
  refine ⟨fun q hq hne other hother hdn => hne ?_, fun hafter hd => ?_⟩
  · refine (hone.apart personUuid q _ (hserved ▸ List.mem_cons_self) ?_).symm
    rw [hserved]
    exact List.mem_cons_of_mem _ ((h.served _ _).mpr ⟨hq, other, hother, hdn⟩)
  · -- the entry is there, and stays disabled
    have hp := h.departed personUuid hd
    have hsame : (s.arrived ldap personUuid after world).directory = s.directory := by
      show world.downstream = _
      rw [hdown, hspec, Option.elim_some, LdapTarget.provisionedIn, h.entry personUuid hp spec hspec]
      rfl
    have haffiliated : personUuid ∈ (s.arrived ldap personUuid after world).affiliated := by
      show personUuid ∈ ite _ _ _
      rw [if_neg hafter]
      exact List.mem_cons_self
    have hlogin' : (s.arrived ldap personUuid after world).login personUuid = some login := by
      show world.registry.loginFor personUuid = _
      rw [hregistry]
      exact hlogin
    obtain ⟨dn, entry, hfind, henabled⟩ := hone.enabled personUuid haffiliated login hlogin'
    rw [hsame, h.findUser_of_provisioned hprofile hp hlogin hspec] at hfind
    obtain ⟨-, rfl⟩ := Prod.mk.inj (Option.some.inj hfind)
    rw [h.entryOf_disabled hprofile hlogin hspec] at henabled
    exact absurd hd (by simpa using henabled)

/-- **A step after which there is one account each was clear.** -/
theorem Orderly.clear_of_oneAccountEach {op : CampusOp}
    (hone : (Campus.step o ldap s op).OneAccountEach ldap) : s.Clear ldap op := by
  cases op with
  | tick elapsed days => exact trivial
  | transitioned personUuid before after source on =>
    by_cases hroute : after = ∅ ∧ before ≠ ∅
    · obtain ⟨world, hstep, -, -⟩ := step_leaver o ldap s personUuid source on hroute
      rw [hstep] at hone
      exact (if_pos hroute).mpr (h.clearToLeave hprofile hone)
    · obtain ⟨world, hstep, hregistry, hdown⟩ :=
        step_arrival o ldap s personUuid source on hroute
      rw [hstep] at hone
      exact (if_neg hroute).mpr (h.clearToArrive hprofile hregistry hdown hone)

end Steps

/-! ### Namesakes, and somebody who comes back -/

/-- An OpenLDAP directory. -/
def sampleLdap : LdapTarget := { profile := openLdap, baseDn := "dc=campus,dc=edu" }

/-- An orchestrator for it. -/
def sampleOrchestrator : Orchestrator Directory DirectoryUnavailable where
  sessions := { sha256 := id }
  grants := { sha256 := id }
  targets := []
  retry := ⟨fun _ => true, fun _ => ""⟩

/-- Two people, with these ePPNs. -/
def twoPeople (first second : String) : World Unit Directory where
  redis := Store.empty
  now := 0
  today := 0
  rules := {}
  registry := { identifiers :=
    [{ personUuid := "p", idType := .eppn, value := first, isPrimary := true, issuedAt := 0 },
      { personUuid := "q", idType := .eppn, value := second, isPrimary := true, issuedAt := 0 }] }
  lifecycle := {}
  downstream := ∅

theorem twoPeople_names {first second : String} (hfirst : first ≠ "") (hsecond : second ≠ "")
    (hne : first ≠ second) : (twoPeople first second).registry.OneEppnEach := by
  constructor <;> simp [twoPeople, Identifier.Live, hfirst, hsecond, hne, hne.symm]

/-- A transition of somebody. -/
def becomes (personUuid : String) (before after : Finset String) : CampusOp :=
  .transitioned personUuid before after .scim none

/-- Two people join, and one of them leaves. -/
def comeAndGo : List CampusOp :=
  [becomes "p" ∅ {"student"}, becomes "q" ∅ {"staff"}, becomes "p" {"student"} ∅]

/-- Where a run leads. -/
def sampleRun (world : World Unit Directory) (ops : List CampusOp) : Campus Unit :=
  ops.foldl (Campus.step sampleOrchestrator sampleLdap) (initial world)

/-- Two people with one local part join. -/
def namesakes : List CampusOp := [becomes "p" ∅ {"student"}, becomes "q" ∅ {"staff"}]

/-- Somebody leaves and comes back. -/
def leaveAndReturn : List CampusOp :=
  [becomes "p" ∅ {"student"}, becomes "p" {"student"} ∅, becomes "p" ∅ {"student"}]

end Campus

end CampusID
