import CampusID.Directory.Escaping
import CampusID.Lib.LdapFilters

/-!
# The filters of a directory

A filter is built from texts: an equality from an attribute and an escaped value, a disjunction and
a conjunction from the filters in it.  Read by the grammar, each of the three filters of a profile
is the tree it is meant to be, whatever the value, and the value in the tree is the value that was
given (`filters_keep_shape`).
-/

namespace CampusID

open Lib Ldap

/-! ## Building filters -/

/-- `equality`. -/
def equality (name value : String) : String := "(" ++ name ++ "=" ++ escapeFilter value ++ ")"

/-- `any_of`. -/
def anyOf (names : List String) (value : String) : Except String String :=
  match names with
  | [] => .error "a filter needs at least one attribute"
  | [name] => .ok (equality name value)
  | names => .ok ("(|" ++ String.join (names.map fun name => equality name value) ++ ")")

/-- `all_of`. -/
def allOf (clauses : List String) : Except String String :=
  match clauses.filter (· ≠ "") with
  | [] => .error "a conjunction needs at least one clause"
  | [clause] => .ok clause
  | present => .ok ("(&" ++ String.join present ++ ")")

/-- A `DirectoryProfile` with what it calls ids and groups.  The names are attribute descriptions,
and there is one for a login: `PROFILES` has no other profiles, and no other can be configured. -/
structure SearchProfile extends DirectoryProfile where
  immutableId : String
  memberOf : String
  member : String
  groupName : String
  groupObjectClass : String
  login_ne : loginAttributes ≠ []
  described : ∀ name ∈ immutableId :: member :: loginAttributes,
    isAttributeDescription name.toList = true

namespace SearchProfile

/-- `ACTIVE_DIRECTORY`. -/
def activeDirectory : SearchProfile where
  toDirectoryProfile := CampusID.activeDirectory
  immutableId := "objectGUID"
  memberOf := "memberOf"
  member := "member"
  groupName := "cn"
  groupObjectClass := "group"
  login_ne := by decide
  described := by decide +kernel

/-- `OPENLDAP`. -/
def openLdap : SearchProfile where
  toDirectoryProfile := CampusID.openLdap
  immutableId := "entryUUID"
  memberOf := "memberOf"
  member := "member"
  groupName := "cn"
  groupObjectClass := "groupOfNames"
  login_ne := by decide
  described := by decide +kernel

variable (profile : SearchProfile)

/-- `user_filter`. -/
def userFilter (login : String) : Except String String := do
  let person ← anyOf profile.loginAttributes login
  allOf [equality "objectClass" profile.userObjectClass, person]

/-- `user_by_id_filter`. -/
def userByIdFilter (immutableId : String) : Except String String :=
  allOf [equality "objectClass" profile.userObjectClass, equality profile.immutableId immutableId]

/-- `group_members_filter`. -/
def groupMembersFilter (memberDn : String) : Except String String :=
  allOf [equality "objectClass" profile.groupObjectClass, equality profile.member memberDn]

end SearchProfile

/-! ## What they are meant to be -/

/-- The attribute has the value. -/
def equals (name value : String) : SearchFilter := .simple name .equality (octets value)

/-- One of the attributes has the value. -/
def oneEquals : List String → String → SearchFilter
  | [name], value => equals name value
  | names, value => .any (names.map fun name => equals name value)

/-! ## What they are -/

section Building

variable {name value : String} {names : List String}

/-- **An escaped value denotes the value.** -/
theorem denotes_escapeFilter (value : String) :
    Denotes (escapeFilter value).toList (octets value) := by
  rw [escapeFilter, toList_replaceTable (by decide), octets_eq]
  refine Denotes.flatMap (fun c => ?_) value.toList
  unfold escapeChar
  split
  · rename_i text hlookup
    -- each replacement is the escape of the character's one octet
    have hentry : (c, text) ∈ filterEscapes := mem_of_lookup hlookup
    simp only [filterEscapes, List.mem_cons, Prod.mk.injEq, List.not_mem_nil, or_false] at hentry
    rcases hentry with ⟨rfl, rfl⟩ | ⟨rfl, rfl⟩ | ⟨rfl, rfl⟩ | ⟨rfl, rfl⟩ | ⟨rfl, rfl⟩ <;>
      exact Denotes.escape (by decide)
  · rename_i hlookup
    refine Denotes.normal ?_
    rw [List.lookup_eq_none_iff] at hlookup
    have hne : ∀ e ∈ filterEscapes, c ≠ e.1 := fun e he => by simpa using hlookup e he
    simp only [filterEscapes, List.forall_mem_cons, ne_eq] at hne
    obtain ⟨hbackslash, hstar, hopen, hclose, hnul, -⟩ := hne
    have hzero : c.toNat ≠ 0 := fun h => hnul (Char.toNat_inj.mp h)
    simp [isNormal, hbackslash, hstar, hopen, hclose, hzero]

theorem reads_equality (h : isAttributeDescription name.toList = true) :
    Reads (equality name value).toList (equals name value) := by
  have hreads := Reads.equality h (denotes_escapeFilter value)
  rw [String.ofList_toList] at hreads
  simpa [equality, equals, String.toList_append] using hreads

theorem toList_join (texts : List String) :
    (String.join texts).toList = (texts.map String.toList).flatten := by
  induction texts with
  | nil => rfl
  | cons text texts ih => rw [String.join_cons, String.toList_append, ih]; rfl

theorem forall₂_reads (h : ∀ name ∈ names, isAttributeDescription name.toList = true) :
    List.Forall₂ Reads ((names.map fun name => equality name value).map String.toList)
      (names.map fun name => equals name value) := by
  induction names with
  | nil => exact .nil
  | cons name names ih =>
    obtain ⟨hname, hothers⟩ := List.forall_mem_cons.mp h
    exact .cons (reads_equality hname) (ih hothers)

theorem reads_anyOf (hne : names ≠ [])
    (h : ∀ name ∈ names, isAttributeDescription name.toList = true) :
    ∃ filter, anyOf names value = .ok filter ∧ Reads filter.toList (oneEquals names value) := by
  match names, hne, h with
  | [name], _, h => exact ⟨_, rfl, reads_equality (h name (List.mem_singleton_self name))⟩
  | name :: name' :: names, _, h =>
    have hreads := Reads.any (@forall₂_reads value _ h) (by simp)
    refine ⟨_, rfl, ?_⟩
    rw [String.toList_append, String.toList_append, toList_join]
    exact hreads

/-- **A conjunction of two filters.** -/
theorem parseFilter_allOf {first second : String} {filter filter' : SearchFilter}
    (h : Reads first.toList filter) (h' : Reads second.toList filter') :
    ∃ text, allOf [first, second] = .ok text ∧
      parseFilter text = some (.all [filter, filter']) := by
  have hne : ∀ {text : String} {filter}, Reads text.toList filter → text ≠ "" := by
    rintro text filter hreads rfl
    obtain ⟨tail, htail⟩ := hreads.opens
    cases htail
  have hpresent : [first, second].filter (· ≠ "") = [first, second] := by
    simp [hne h, hne h']
  refine ⟨"(&" ++ String.join [first, second] ++ ")", by rw [allOf, hpresent], ?_⟩
  have hreads := Reads.all (.cons h (.cons h' .nil)) (by simp)
  refine Reads.parseFilter ?_
  rw [String.toList_append, String.toList_append, toList_join]
  exact hreads

end Building

/-- **A value cannot change the shape of a filter.** -/
theorem filters_keep_shape (profile : SearchProfile) (value : String) :
    (∃ text, profile.userFilter value = .ok text ∧
      parseFilter text = some (.all [equals "objectClass" profile.userObjectClass,
        oneEquals profile.loginAttributes value])) ∧
    (∃ text, profile.userByIdFilter value = .ok text ∧
      parseFilter text = some (.all [equals "objectClass" profile.userObjectClass,
        equals profile.immutableId value])) ∧
    (∃ text, profile.groupMembersFilter value = .ok text ∧
      parseFilter text = some (.all [equals "objectClass" profile.groupObjectClass,
        equals profile.member value])) := by
  obtain ⟨hid, hrest⟩ := List.forall_mem_cons.mp profile.described
  obtain ⟨hmember, hlogins⟩ := List.forall_mem_cons.mp hrest
  have hclass : ∀ objectClass, Reads (equality "objectClass" objectClass).toList
      (equals "objectClass" objectClass) := fun _ => reads_equality (by decide +kernel)
  refine ⟨?_, parseFilter_allOf (hclass _) (reads_equality hid),
    parseFilter_allOf (hclass _) (reads_equality hmember)⟩
  obtain ⟨person, hperson, hreads⟩ := @reads_anyOf value _ profile.login_ne hlogins
  rw [SearchProfile.userFilter, hperson]
  exact parseFilter_allOf (hclass _) hreads

/-- What would be a second clause is text. -/
example : (SearchProfile.openLdap.userByIdFilter "*)(uid=*").toOption =
    some "(&(objectClass=inetOrgPerson)(entryUUID=\\2a\\29\\28uid=\\2a))" := by
  decide +kernel

end CampusID
