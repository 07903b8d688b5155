import CampusID.Lib.Dict
import CampusID.Lifecycle.World
import Mathlib.Data.List.AList

/-!
# The campus directory

The directory below the configured base, as a map from distinguished names to entries,
and the three calls the lifecycle makes on it: `ensure_person`, `find_user` and
`disable`.  A call is one step on the map; the branch of `ensure_person` for an entry
that appears between the check and the write is not reached.

An entry's name is built from the *local part* of a login.  A search is on the whole
login, over every attribute the profile takes for one, and answers nobody when two
entries match.  Nothing here ever clears a flag that `disable` set.
-/

namespace CampusID

open Lib

/-! ## Names -/

/-- `DN_ESCAPES`. -/
def dnEscapes : List (Char × String) :=
  [('\\', "\\\\"), (',', "\\,"), ('+', "\\+"), ('"', "\\\""), ('<', "\\<"), ('>', "\\>"),
    (';', "\\;"), ('=', "\\=")]

/-- `escape_dn`: the table first, then the rules for the ends of the value. -/
def escapeDn (value : String) : String :=
  let escaped := dnEscapes.foldl (fun text entry => Text.replaceChar entry.1 entry.2 text) value
  let escaped := if "#".toList <+: escaped.toList then "\\" ++ escaped else escaped
  let escaped := if " ".toList <+: escaped.toList then "\\" ++ escaped else escaped
  if " ".toList <:+ escaped.toList ∧ ¬ "\\ ".toList <:+ escaped.toList then
    String.ofList (escaped.toList.dropLast) ++ "\\ "
  else escaped

/-! ## Profiles -/

/-- `DirectoryProfile`, as far as users are concerned. -/
structure DirectoryProfile where
  name : String
  loginAttributes : List String
  userObjectClass : String
  createObjectClasses : List String
  mail : String := "mail"
  displayName : String := "displayName"
  givenName : String := "givenName"
  surname : String := "sn"
  disabledFlag : Option String := none
  lockAttribute : String := "pwdAccountLockedTime"
  deriving DecidableEq, Repr

/-- `ACTIVE_DIRECTORY`. -/
def activeDirectory : DirectoryProfile where
  name := "active-directory"
  loginAttributes := ["userPrincipalName", "sAMAccountName"]
  userObjectClass := "user"
  createObjectClasses := ["user", "organizationalPerson", "person", "top"]
  disabledFlag := some "userAccountControl"

/-- `OPENLDAP`. -/
def openLdap : DirectoryProfile where
  name := "openldap"
  loginAttributes := ["eduPersonPrincipalName", "uid"]
  userObjectClass := "inetOrgPerson"
  createObjectClasses := ["inetOrgPerson", "organizationalPerson", "person", "eduPerson", "top"]

/-- `PROFILES`. -/
def profiles : List DirectoryProfile := [activeDirectory, openLdap]

/-! ## Entries -/

/-- An entry: its classes, and the values of its attributes. -/
structure LdapEntry where
  objectClasses : List String
  attributes : List (String × List String)
  deriving DecidableEq, Repr

namespace LdapEntry

/-- `attributes.get(name)`. -/
def values (entry : LdapEntry) (name : String) : List String :=
  (entry.attributes.lookup name).getD []

/-- `_strings(attributes.get(name))`. -/
def strings (entry : LdapEntry) (name : String) : List String :=
  (entry.values name).filter (· ≠ "")

/-- `_one` of one attribute. -/
def one (entry : LdapEntry) (name : String) : Option String :=
  (entry.values name).head?.filter (· ≠ "")

/-- `MODIFY_REPLACE` of one attribute. -/
def replace (entry : LdapEntry) (name : String) (values : List String) : LdapEntry :=
  { entry with attributes := assign entry.attributes name values }

@[simp] theorem values_replace (entry : LdapEntry) (name name' : String) (values : List String) :
    (entry.replace name values).values name' =
      if name' = name then values else entry.values name' := by
  unfold replace LdapEntry.values
  rw [lookup_assign]
  split_ifs <;> rfl

/-- `(objectClass=...)` together with the login under any name the profile has for it. -/
def Answers (profile : DirectoryProfile) (login : String) (entry : LdapEntry) : Prop :=
  profile.userObjectClass ∈ entry.objectClasses ∧
    ∃ name ∈ profile.loginAttributes, login ∈ entry.values name

instance (profile : DirectoryProfile) (login : String) (entry : LdapEntry) :
    Decidable (entry.Answers profile login) :=
  inferInstanceAs (Decidable (_ ∧ _))

end LdapEntry

/-- The directory. -/
abbrev Directory := AList fun _ : String => LdapEntry

/-! ## The account control field -/

/-- `DEFAULT_ACCOUNT_CONTROL`. -/
def defaultAccountControl : Int := 0x200

/-- `control & ACCOUNT_DISABLED_BIT`. -/
def hasDisabledBit (control : Int) : Bool := control / 2 % 2 = 1

/-- `_disabled_account_control`: the new field, unless the bit is set already. -/
def disabledAccountControl (values : List String) : Option Int :=
  let existing := ((values.head?).bind Text.pyInt).getD defaultAccountControl
  if hasDisabledBit existing then none else some (existing + 2)

/-- `LOCKED_FOREVER`. -/
def lockedForever : String := "000001010000Z"

/-- `_disabled`: what the client takes for a disabled account. -/
def DirectoryProfile.disabled (profile : DirectoryProfile) (entry : LdapEntry) : Bool :=
  match profile.disabledFlag with
  | some flag => ((Text.pyInt ((entry.one flag).getD "0")).map hasDisabledBit).getD false
  | none => (entry.one profile.lockAttribute).isSome

/-! ## The calls -/

/-- `DirectoryUnavailable`. -/
structure DirectoryUnavailable where
  message : String
  deriving DecidableEq, Repr

/-- `WriteResult`. -/
structure WriteResult where
  dn : String
  changed : Bool
  detail : String
  deriving DecidableEq, Repr

/-- `LdapTarget`: the profile, and where people live. -/
structure LdapTarget where
  profile : DirectoryProfile
  baseDn : String
  peopleOu : String := "ou=people"

namespace LdapTarget

variable (ldap : LdapTarget)

/-- `dn_for`. -/
def dnFor (uid : String) : String :=
  "uid=" ++ escapeDn uid ++ "," ++ (ldap.peopleOu ++ "," ++ ldap.baseDn)

/-- Assign when there is something to assign. -/
def assignGiven (attributes : List (String × List String)) (name : String) :
    Option String → List (String × List String)
  | some value => if value = "" then attributes else assign attributes name [value]
  | none => attributes

/-- `_attributes`. -/
def attributes (spec : PersonSpec) : List (String × List String) :=
  let profile := ldap.profile
  let base := assign (assign (assign [] "cn" [Text.strip (spec.givenName ++ " " ++ spec.surname)])
    profile.surname [spec.surname]) profile.givenName [spec.givenName]
  let withUid :=
    if "uid" ∈ profile.loginAttributes ∨ profile.name = "openldap" then
      assign base "uid" [spec.uid]
    else base
  let withMail := assignGiven withUid profile.mail spec.mail
  let withName := assignGiven withMail profile.displayName spec.displayName
  assignGiven withName (profile.loginAttributes.headD "") spec.principalName

/-- The entry a new person gets. -/
def newEntry (spec : PersonSpec) : LdapEntry :=
  ⟨ldap.profile.createObjectClasses, ldap.attributes spec⟩

/-- `ensure_person`. -/
def ensurePerson (spec : PersonSpec) :
    Eff Directory (Exn DirectoryUnavailable) WriteResult :=
  Eff.step fun d =>
    if (d.lookup (ldap.dnFor spec.uid)).isSome then
      (⟨ldap.dnFor spec.uid, false, "already present"⟩, d)
    else
      (⟨ldap.dnFor spec.uid, true, "created"⟩,
        d.insert (ldap.dnFor spec.uid) (ldap.newEntry spec))

/-- The entries that answer to a login. -/
def matching (login : String) (d : Directory) : List (Sigma fun _ : String => LdapEntry) :=
  d.entries.filter fun entry => entry.2.Answers ldap.profile login

/-- `find_user`: the one entry that answers, and nobody when there are several. -/
def findUser (login : String) (d : Directory) : Option (String × LdapEntry) :=
  match ldap.matching login d with
  | [entry] => some (entry.1, entry.2)
  | _ => none

/-- What `disable` writes over an entry, unless it says so already. -/
def lock (entry : LdapEntry) : Option LdapEntry :=
  match ldap.profile.disabledFlag with
  | some flag =>
    (disabledAccountControl (entry.strings flag)).map fun value =>
      entry.replace flag [toString value]
  | none =>
    if entry.strings ldap.profile.lockAttribute = [] then
      some (entry.replace ldap.profile.lockAttribute [lockedForever])
    else none

/-- `DirectoryWriter.disable`. -/
def disableEntry (dn : String) : Eff Directory (Exn DirectoryUnavailable) WriteResult := do
  let current ← Eff.read fun d => d.lookup dn
  match current with
  | none => Eff.raise (.downstream ⟨dn ++ " is not in the directory"⟩)
  | some entry =>
    match ldap.lock entry with
    | none =>
      return ⟨dn, false, if ldap.profile.disabledFlag.isSome then "already disabled"
        else "already locked"⟩
    | some locked => do
      Eff.update fun d => d.insert dn locked
      return ⟨dn, true, "disabled"⟩

/-- `LdapTarget.provision`. -/
def provision (spec : PersonSpec) : Eff Directory (Exn DirectoryUnavailable) Unit := do
  let _ ← ldap.ensurePerson spec

/-- `LdapTarget.disable`. -/
def disable (login : String) : Eff Directory (Exn DirectoryUnavailable) Unit := do
  let user ← Eff.read (ldap.findUser login)
  match user with
  | none => pure ()
  | some user => do
    let _ ← ldap.disableEntry user.1

/-- The directory, as the orchestrator sees it. -/
def target : ProvisioningTarget Directory DirectoryUnavailable where
  name := "ldap"
  provision := ldap.provision
  disable := ldap.disable

/-! ## What is written -/

theorem lookup_assignGiven_of_ne {attributes : List (String × List String)} {name k : String}
    (h : k ≠ name) (value : Option String) :
    (assignGiven attributes name value).lookup k = attributes.lookup k := by
  unfold assignGiven
  split
  · split_ifs
    · rfl
    · rw [lookup_assign, if_neg h]
  · rfl

theorem lookup_assignGiven_self {attributes : List (String × List String)} {name value : String}
    (h : value ≠ "") :
    (assignGiven attributes name (some value)).lookup name = some [value] := by
  simp [assignGiven, h]

/-- What the lifecycle needs to know of an entry it created: under which logins it
answers, that it is enabled, and what disabling it gives. -/
structure Created (spec : PersonSpec) (login : String) : Prop where
  answers : ∀ x, (ldap.newEntry spec).Answers ldap.profile x ↔
    x = login ∨ ("uid" ∈ ldap.profile.loginAttributes ∧ x = spec.uid)
  enabled : ldap.profile.disabled (ldap.newEntry spec) = false
  locks : ∃ locked, ldap.lock (ldap.newEntry spec) = some locked ∧ ldap.lock locked = none ∧
    ldap.profile.disabled locked = true ∧
    ∀ x, locked.Answers ldap.profile x ↔ (ldap.newEntry spec).Answers ldap.profile x

theorem answers_replace {entry : LdapEntry} {profile : DirectoryProfile} {name : String}
    (h : name ∉ profile.loginAttributes) (values : List String) (x : String) :
    (entry.replace name values).Answers profile x ↔ entry.Answers profile x := by
  refine and_congr Iff.rfl (exists_congr fun name' => and_congr_right fun hname' => ?_)
  have hne : name' ≠ name := fun heq => h (heq ▸ hname')
  rw [LdapEntry.values_replace, if_neg hne]

theorem created_openLdap (h : ldap.profile = openLdap) {spec : PersonSpec} {login : String}
    (hspec : spec.principalName = some login) (hlogin : login ≠ "") :
    ldap.Created spec login := by
  have hname : (ldap.newEntry spec).values "eduPersonPrincipalName" = [login] := by
    simp only [newEntry, LdapEntry.values, attributes, h, openLdap, hspec, List.headD_cons]
    rw [lookup_assignGiven_self hlogin]
    rfl
  have huid : (ldap.newEntry spec).values "uid" = [spec.uid] := by
    simp [newEntry, LdapEntry.values, attributes, h, openLdap, lookup_assignGiven_of_ne]
  have hlock : (ldap.newEntry spec).values "pwdAccountLockedTime" = [] := by
    simp [newEntry, LdapEntry.values, attributes, h, openLdap, lookup_assignGiven_of_ne]
  have hclass : openLdap.userObjectClass ∈ (ldap.newEntry spec).objectClasses := by
    simp [newEntry, h, openLdap]
  refine ⟨fun x => ?_, ?_, (ldap.newEntry spec).replace "pwdAccountLockedTime" [lockedForever],
    ?_, ?_, ?_, fun x => ?_⟩
  · rw [h]
    unfold LdapEntry.Answers
    rw [and_iff_right hclass]
    simp [openLdap, hname, huid]
  · simp [DirectoryProfile.disabled, h, openLdap, LdapEntry.one, hlock]
  · simp [lock, h, openLdap, LdapEntry.strings, hlock]
  · simp [lock, h, openLdap, LdapEntry.strings, lockedForever]
  · simp [DirectoryProfile.disabled, h, openLdap, LdapEntry.one, lockedForever]
  · exact answers_replace (by simp [h, openLdap]) _ x

theorem created_activeDirectory (h : ldap.profile = activeDirectory) {spec : PersonSpec}
    {login : String} (hspec : spec.principalName = some login) (hlogin : login ≠ "") :
    ldap.Created spec login := by
  have hname : (ldap.newEntry spec).values "userPrincipalName" = [login] := by
    simp only [newEntry, LdapEntry.values, attributes, h, activeDirectory, hspec, List.headD_cons]
    rw [lookup_assignGiven_self hlogin]
    rfl
  have haccount : (ldap.newEntry spec).values "sAMAccountName" = [] := by
    simp [newEntry, LdapEntry.values, attributes, h, activeDirectory, lookup_assignGiven_of_ne]
  have hcontrol : (ldap.newEntry spec).values "userAccountControl" = [] := by
    simp [newEntry, LdapEntry.values, attributes, h, activeDirectory, lookup_assignGiven_of_ne]
  have hclass : activeDirectory.userObjectClass ∈ (ldap.newEntry spec).objectClasses := by
    simp [newEntry, h, activeDirectory]
  have hnew : disabledAccountControl [] = some 514 := by decide
  have hold : disabledAccountControl [toString (514 : Int)] = none := by decide
  have hset : ((Text.pyInt (toString (514 : Int))).map hasDisabledBit).getD false = true := by
    decide
  have htext : toString (514 : Int) ≠ "" := by decide
  refine ⟨fun x => ?_, ?_,
    (ldap.newEntry spec).replace "userAccountControl" [toString (514 : Int)],
    ?_, ?_, ?_, fun x => ?_⟩
  · rw [h]
    unfold LdapEntry.Answers
    rw [and_iff_right hclass]
    simp [activeDirectory, hname, haccount]
  · simp only [DirectoryProfile.disabled, h, activeDirectory, LdapEntry.one, hcontrol]
    decide
  · simp [lock, h, activeDirectory, LdapEntry.strings, hcontrol, hnew]
  · simp only [lock, h, activeDirectory, LdapEntry.strings, LdapEntry.values_replace, if_true]
    rw [List.filter_cons_of_pos (by simpa using htext), List.filter_nil, hold]
    rfl
  · simp only [DirectoryProfile.disabled, h, activeDirectory, LdapEntry.one,
      LdapEntry.values_replace, if_true]
    exact hset
  · exact answers_replace (by simp [h, activeDirectory]) _ x

/-- **An entry the writer created**, in either profile. -/
theorem created (h : ldap.profile ∈ profiles) {spec : PersonSpec} {login : String}
    (hspec : spec.principalName = some login) (hlogin : login ≠ "") :
    ldap.Created spec login := by
  simp only [profiles, List.mem_cons, List.not_mem_nil, or_false] at h
  rcases h with h | h
  · exact ldap.created_activeDirectory h hspec hlogin
  · exact ldap.created_openLdap h hspec hlogin

/-! ## Searches -/

variable {ldap} {d : Directory} {login dn : String} {entry : LdapEntry}

theorem mem_matching {x : Sigma fun _ : String => LdapEntry} :
    x ∈ ldap.matching login d ↔ d.lookup x.1 = some x.2 ∧ x.2.Answers ldap.profile login := by
  unfold matching
  rw [List.mem_filter, decide_eq_true_eq, ← AList.mem_lookup_iff]
  rfl

theorem findUser_eq_some (hl : d.lookup dn = some entry) (ha : entry.Answers ldap.profile login)
    (honly : ∀ dn' entry', d.lookup dn' = some entry' → entry'.Answers ldap.profile login →
      dn' = dn) : ldap.findUser login d = some (dn, entry) := by
  have hmem : (⟨dn, entry⟩ : Sigma fun _ : String => LdapEntry) ∈ ldap.matching login d :=
    mem_matching.mpr ⟨hl, ha⟩
  have hall : ∀ x ∈ ldap.matching login d, x = ⟨dn, entry⟩ := by
    rintro ⟨dn', entry'⟩ hx
    obtain ⟨hl', ha'⟩ := mem_matching.mp hx
    obtain rfl := honly dn' entry' hl' ha'
    obtain rfl := Option.some.inj (hl'.symm.trans hl)
    rfl
  have hnodup : (ldap.matching login d).Nodup := (d.nodupKeys.nodup).filter _
  have hone : ldap.matching login d = [⟨dn, entry⟩] := by
    cases hm : ldap.matching login d with
    | nil =>
      rw [hm] at hmem
      cases hmem
    | cons x xs =>
      rw [hm] at hall hnodup
      obtain rfl := hall x List.mem_cons_self
      cases xs with
      | nil => rfl
      | cons y ys =>
        obtain rfl := hall y (by simp)
        simp at hnodup
  unfold findUser
  rw [hone]

theorem findUser_eq_none (hnone : ∀ dn entry, d.lookup dn = some entry →
    ¬ entry.Answers ldap.profile login) : ldap.findUser login d = none := by
  have hnil : ldap.matching login d = [] := by
    rw [List.eq_nil_iff_forall_not_mem]
    intro x hx
    obtain ⟨hl, ha⟩ := mem_matching.mp hx
    exact hnone x.1 x.2 hl ha
  unfold findUser
  rw [hnil]

theorem lookup_of_findUser (h : ldap.findUser login d = some (dn, entry)) :
    d.lookup dn = some entry := by
  unfold findUser at h
  split at h
  · rename_i x hx
    obtain ⟨rfl, rfl⟩ := Prod.mk.inj (Option.some.inj h)
    exact (mem_matching.mp (hx ▸ List.mem_singleton_self x)).1
  · cases h

/-! ## The calls, in closed form -/

/-- The directory after a provisioning. -/
def provisionedIn (ldap : LdapTarget) (spec : PersonSpec) (d : Directory) : Directory :=
  if (d.lookup (ldap.dnFor spec.uid)).isSome then d
  else d.insert (ldap.dnFor spec.uid) (ldap.newEntry spec)

/-- The directory after a disabling. -/
def disabledIn (ldap : LdapTarget) (login : String) (d : Directory) : Directory :=
  match ldap.findUser login d with
  | none => d
  | some user =>
    match ldap.lock user.2 with
    | none => d
    | some locked => d.insert user.1 locked

/-- **Provisioning never fails.** -/
theorem run_provision (ldap : LdapTarget) (spec : PersonSpec) (d : Directory) :
    (ldap.provision spec).run d = (.ok (), ldap.provisionedIn spec d) := by
  unfold provision ensurePerson provisionedIn
  rw [Eff.run_step_bind]
  split_ifs <;> rfl

/-- **A disabling never finds its entry gone.** -/
theorem run_disable (ldap : LdapTarget) (login : String) (d : Directory) :
    (ldap.disable login).run d = (.ok (), ldap.disabledIn login d) := by
  unfold disable disabledIn
  rw [Eff.run_read_bind]
  cases hfind : ldap.findUser login d with
  | none => rfl
  | some user =>
    obtain ⟨dn, entry⟩ := user
    have hl := lookup_of_findUser hfind
    have hentry : (ldap.disableEntry dn).run d = match ldap.lock entry with
        | none => (.ok ⟨dn, false, if ldap.profile.disabledFlag.isSome then "already disabled"
            else "already locked"⟩, d)
        | some locked => (.ok ⟨dn, true, "disabled"⟩, d.insert dn locked) := by
      unfold disableEntry
      rw [Eff.run_read_bind, hl]
      show Eff.run (match ldap.lock entry with
        | none => _
        | some locked => _) d = _
      cases ldap.lock entry <;> rfl
    show (ldap.disableEntry dn >>= fun _ => pure ()).run d = _
    cases hlock : ldap.lock entry with
    | none =>
      rw [hlock] at hentry
      rw [Eff.run_bind_of_ok hentry]
      simp [hlock]
    | some locked =>
      rw [hlock] at hentry
      rw [Eff.run_bind_of_ok hentry]
      simp [hlock]

end LdapTarget

end CampusID
