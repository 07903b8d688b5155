import CampusID.Scim.Spelling

/-!
# What a remove removes

A place in a document is a list of steps, into an object by a key and into an array by a
position.  What a path addresses is read off the document (`addressed`): nothing is made on the
way, and where there is no object to go into, nothing is addressed.

A remove shares the way to its target with an add.  Where the extension of its URN or the parent
of its sub-attribute is no object, one is made before anything is deleted.  Where both are, it
deletes what it addresses and nothing else, and it does so once and for all unless the name is
there in two spellings (`removesOnly_iff`).
-/

namespace CampusID
namespace Scim
namespace Patch

open Lib
open Audit (Json)

/-! ## Places in a document -/

/-- One step into a document. -/
inductive Step where
  | key (k : String)
  | place (i : Nat)
  deriving DecidableEq, Repr

/-- A document without what is at a place. -/
def eraseAt : List Step → Json → Json
  | [.key k], .dict entries => .dict (Folded.erase entries k)
  | .key k :: steps, .dict entries =>
    match entries.lookup k with
    | some value => .dict (assign entries k (eraseAt steps value))
    | none => .dict entries
  | [.place i], .list items => .list (items.eraseIdx i)
  | .place i :: steps, .list items => .list (items.modify i (eraseAt steps))
  | _, document => document

/-- A document without what is at some places, the last one taken first. -/
def eraseAll (places : List (List Step)) (document : Json) : Json := places.foldr eraseAt document

variable (py : Builtins)

/-- What a remove takes of a selected member: all of it, or a sub-attribute if it has it. -/
def ofMember (sub : Option String) (member : Json) : List (List Step) :=
  match truthy sub with
  | none => [[]]
  | some sub => (key py (entriesOf member) sub).toList.map fun k => [.key k]

/-- What a remove takes of the selected members of a list. -/
def ofMembers (sub : Option String) (members : List Json) (selected : List Nat) :
    List (List Step) :=
  selected.flatMap fun i => (ofMember py sub ((members[i]?).getD .null)).map (.place i :: ·)

/-- What a path addresses under its attribute. -/
def ofValue (path : PatchPath) (value : Json) : List (List Step) :=
  match path.predicate, value with
  | none, value =>
    match truthy path.subAttribute with
    | none => [[]]
    | some sub => (key py (entriesOf value) sub).toList.map fun k => [.key k]
  | some predicate, .list members =>
    ofMembers py path.subAttribute members (selectMembers py predicate members)
  | some _, _ => []

/-- What a path addresses in the dictionary it writes into. -/
def ofContainer (path : PatchPath) (container : Object) : List (List Step) :=
  match key py container path.path.attributeName with
  | none => []
  | some k => (ofValue py path (get py container path.path.attributeName)).map (.key k :: ·)

/-- What a path addresses in a resource. -/
def addressed (resource : Object) (path : PatchPath) : List (List Step) :=
  match truthy path.path.urn with
  | none => ofContainer py path resource
  | some urn =>
    match key py resource urn, get py resource urn with
    | some k, .dict extension => (ofContainer py path extension).map (.key k :: ·)
    | _, _ => []

/-! ## The remove as it is -/

/-- A path that was read names an attribute. -/
def PatchPath.Named (path : PatchPath) : Prop := path.path.attributeName ≠ ""

/-- What a remove makes of the dictionary its URN names. -/
def removeIn (path : PatchPath) (container : Object) : Object :=
  match path.predicate, truthy path.subAttribute with
  | none, none => delete py container path.path.attributeName
  | none, some sub =>
    set py container path.path.attributeName
      (.dict (delete py (entriesOf (get py container path.path.attributeName)) sub))
  | some predicate, _ =>
    match get py container path.path.attributeName with
    | .list members =>
      if (selectMembers py predicate members).isEmpty then container
      else set py container path.path.attributeName
        (.list (removeSelected py path.subAttribute members (selectMembers py predicate members)))
    | _ => container

/-- The extension of the URN is an object, if the path has a URN. -/
def UrnFound (resource : Object) (path : PatchPath) : Prop :=
  ∀ urn, truthy path.path.urn = some urn → ∃ extension, get py resource urn = .dict extension

/-- The parent of the sub-attribute is an object, if the path has one and no filter. -/
def ParentFound (container : Object) (path : PatchPath) : Prop :=
  path.predicate = none → ∀ sub, truthy path.subAttribute = some sub →
    ∃ parent, get py container path.path.attributeName = .dict parent

/-- No two keys of the object are the name up to case. -/
def OneSpelling (object : Object) (name : String) : Prop :=
  ∀ entry ∈ object, ∀ other ∈ object, py.lower entry.1 = py.lower name →
    py.lower other.1 = py.lower name → entry.1 = other.1

/-- What is deleted is there in one spelling; of the selected members, in those that would still
be selected without it. -/
def DeletedOnce (container : Object) (path : PatchPath) : Prop :=
  match path.predicate, truthy path.subAttribute with
  | none, none => OneSpelling py container path.path.attributeName
  | none, some sub =>
    OneSpelling py (entriesOf (get py container path.path.attributeName)) sub
  | some _, none => True
  | some predicate, some sub =>
    ∀ members, get py container path.path.attributeName = .list members →
      ∀ member, .dict member ∈ members → predicate.matchesIn py member = true →
        predicate.matchesIn py (delete py member sub) = true → OneSpelling py member sub

/-- A remove deletes what its path addresses and nothing else, nothing where nothing is addressed,
and nothing more when it is applied again. -/
def RemovesOnly (resource : Object) (operation : Operation) (path : PatchPath) : Prop :=
  ∃ result, applyPatch py resource [operation] = .ok result ∧
    .dict result = eraseAll (addressed py resource path) (.dict resource) ∧
    (addressed py resource path = [] → result = resource) ∧
    applyPatch py result [operation] = .ok result

variable {py} {resource container : Object} {name : String} {operation : Operation}
  {path : PatchPath}

/-! ### What the parser gives -/

theorem splitName_named {text name : String} {urn : Option String} {position : Nat}
    {attrPath : AttrPath} (h : splitName text urn name position = .ok attrPath) :
    attrPath.attributeName ≠ "" := by
  unfold splitName at h
  dsimp only at h
  split at h
  · cases h
  · next hne =>
    split at h
    · cases h
    · cases h
      exact hne

theorem attrPathToken_named {source : String} {tokens rest : List Token} {attrPath : AttrPath}
    (h : attrPathToken source tokens = .ok (attrPath, rest)) : attrPath.attributeName ≠ "" := by
  obtain ⟨⟨token, tokens⟩, -, h⟩ := Eff.except_bind_eq_ok.mp h
  dsimp only at h
  split at h
  · obtain ⟨parsed, hparsed, h⟩ := Eff.except_bind_eq_ok.mp h
    cases h
    unfold parseAttrPath at hparsed
    split at hparsed
    · exact splitName_named hparsed
    · split at hparsed
      · cases hparsed
      · exact splitName_named hparsed
  · cases h

theorem afterName_named {source : String} {tokens : List Token} {attrPath : AttrPath}
    (hnamed : attrPath.attributeName ≠ "")
    (h : afterName py source attrPath tokens = .ok path) : PatchPath.Named path := by
  unfold afterName at h
  split at h
  · cases h
    exact hnamed
  · split at h
    · split at h
      · cases h
      · obtain ⟨⟨predicate, tokens⟩, -, h⟩ := Eff.except_bind_eq_ok.mp h
        obtain ⟨⟨closing, rest⟩, -, h⟩ := Eff.except_bind_eq_ok.mp h
        obtain ⟨sub, -, h⟩ := Eff.except_bind_eq_ok.mp h
        cases h
        exact hnamed
    · obtain ⟨-, -, h⟩ := Eff.except_bind_eq_ok.mp h
      cases h
      exact hnamed

theorem parsePatchPath_named {source : String} (h : parsePatchPath py source = .ok path) :
    PatchPath.Named path := by
  obtain ⟨tokens, -, h⟩ := Eff.except_bind_eq_ok.mp h
  split at h
  · cases h
  · obtain ⟨⟨attrPath, rest⟩, hpath, h⟩ := Eff.except_bind_eq_ok.mp h
    exact afterName_named (attrPathToken_named hpath) h

theorem parseOne_remove {entry : Json} {index : Nat} (h : parseOne py entry index = .ok operation)
    (hremove : operation.op = .remove) :
    ∃ path, operation.path = some path ∧ PatchPath.Named path := by
  unfold parseOne at h
  split at h
  · obtain ⟨op, -, h⟩ := Eff.except_bind_eq_ok.mp h
    obtain ⟨target, htarget, h⟩ := Eff.except_bind_eq_ok.mp h
    split at h
    · cases h
    · next hpath =>
      split at h
      · cases h
      · cases h
        cases target with
        | none => exact absurd ⟨hremove, rfl⟩ hpath
        | some path =>
          refine ⟨path, rfl, ?_⟩
          unfold readTarget at htarget
          split at htarget
          · cases htarget
          · cases htarget
          · split at htarget
            · cases htarget
            · next parsed hparsed =>
              split at htarget
              · cases htarget
              · cases htarget
                exact parsePatchPath_named hparsed
          · cases htarget
  · cases h

/-! ### Deleting a name -/

theorem delete_of_key {k : String} (h : key py container name = some k) :
    delete py container name = Folded.erase container k := by
  rw [delete, h]

theorem delete_eq_self : delete py container name = container ↔ key py container name = none := by
  cases h : key py container name with
  | none => simp [delete, h]
  | some k =>
    rw [delete_of_key h]
    simp only [reduceCtorEq, iff_false]
    intro heq
    obtain ⟨entry, hentry, rfl⟩ := List.mem_map.mp (key_mem h)
    rw [← heq] at hentry
    simp [Folded.erase] at hentry

theorem key_eq_none (hname : name ≠ "") :
    key py container name = none ↔ ∀ entry ∈ container, py.lower entry.1 ≠ py.lower name := by
  refine ⟨new_of_key_eq_none hname, fun h => ?_⟩
  rw [key, Folded.spelling_eq_none.mpr h]
  rfl

/-- **Deleting a name twice** is deleting it once where it has one spelling. -/
theorem delete_delete (hname : name ≠ "") :
    delete py (delete py container name) name = delete py container name ↔
      OneSpelling py container name := by
  rw [delete_eq_self, key_eq_none hname]
  cases h : key py container name with
  | none =>
    have hnew := new_of_key_eq_none hname h
    rw [delete_eq_self.mpr h]
    exact iff_of_true hnew fun entry hentry _ _ hlower => absurd hlower (hnew entry hentry)
  | some k =>
    obtain ⟨first, hfirst, hk⟩ := List.mem_map.mp (key_mem h)
    have hlower : py.lower first.1 = py.lower name := hk ▸ lower_key h
    rw [delete_of_key h]
    constructor
    · intro hnone
      have hspelled : ∀ entry ∈ container, py.lower entry.1 = py.lower name → entry.1 = k := by
        intro entry hentry heq
        by_contra hne
        exact hnone entry (List.mem_filter.mpr ⟨hentry, by simpa using hne⟩) heq
      intro entry hentry other hother heq heq'
      rw [hspelled entry hentry heq, hspelled other hother heq']
    · intro hone entry hentry heq
      obtain ⟨hmem, hne⟩ := List.mem_filter.mp hentry
      exact of_decide_eq_true hne ((hone entry hmem first hfirst heq hlower).trans hk)

/-! ### Removing from a list -/

theorem removeSelected_eq {sub : Option String} {members : List Json} {predicate : Node} :
    removeSelected py sub members (selectMembers py predicate members) =
      match truthy sub with
      | none => members.filter fun member => !selects py predicate member
      | some sub => members.map fun member =>
          if selects py predicate member then deleteIn py sub member else member := by
  unfold removeSelected selectMembers
  cases truthy sub with
  | none => exact foldl_eraseIdx_indices _ members
  | some sub => exact foldl_modify_reverse_indices _ _ members

/-- **Removing twice from a list.** -/
theorem removeSelected_removeSelected {sub : Option String} {members removed : List Json}
    {predicate : Node}
    (hremoved : removed = removeSelected py sub members (selectMembers py predicate members)) :
    removeSelected py sub removed (selectMembers py predicate removed) = removed ↔
      ∀ s, truthy sub = some s → ∀ member, .dict member ∈ members →
        predicate.matchesIn py member = true →
          predicate.matchesIn py (delete py member s) = true → OneSpelling py member s := by
  rw [removeSelected_eq, hremoved, removeSelected_eq]
  cases hsub : truthy sub with
  | none => simp [List.filter_filter]
  | some s =>
    have hs : s ≠ "" := (truthy_eq_some.mp hsub).2
    simp only [List.map_map, Option.some.injEq, forall_eq']
    rw [List.map_inj_left]
    constructor
    · intro hall member hmember hmatches hstill
      have hone := hall _ hmember
      have hselects : selects py predicate (.dict member) = true := hmatches
      have hagain : selects py predicate (deleteIn py s (.dict member)) = true := hstill
      rw [Function.comp_apply, if_pos hselects, if_pos hagain] at hone
      exact (delete_delete hs).mp (Json.dict.inj hone)
    · intro hall member hmember
      rw [Function.comp_apply]
      by_cases hselects : selects py predicate member = true
      · rw [if_pos hselects]
        split
        · next hagain =>
          cases member with
          | dict entries =>
            exact congrArg Json.dict
              ((delete_delete hs).mpr (hall entries hmember hselects hagain))
          | _ => rfl
        · rfl
      · rw [if_neg hselects, if_neg hselects]

/-! ### Removing from a dictionary -/

theorem inContainer_remove (hremove : operation.op = .remove) :
    inContainer py operation path container = .ok (removeIn py path container) := by
  unfold inContainer removeIn
  cases path.predicate with
  | none =>
    cases truthy path.subAttribute with
    | none => simp only [hremove, direct]
    | some sub => simp only [hremove, direct]
  | some predicate =>
    simp only [filtered, changeSelected, hremove, if_true]
    cases get py container path.path.attributeName with
    | list members =>
      simp only
      split
      · rfl
      · rfl
    | _ => rfl

theorem set_inj (hname : name ≠ "") {value value' : Json}
    (h : set py container name value = set py container name value') : value = value' := by
  rw [← get_set hname value, h, get_set hname]

theorem removeIn_of_list {predicate : Node} {members : List Json}
    (hpredicate : path.predicate = some predicate) (hkeys : (container.map Prod.fst).Nodup)
    (hget : get py container path.path.attributeName = .list members) :
    removeIn py path container = set py container path.path.attributeName
      (.list (removeSelected py path.subAttribute members (selectMembers py predicate members))) := by
  unfold removeIn
  simp only [hpredicate, hget]
  split
  · next hempty =>
    rw [List.isEmpty_iff.mp hempty]
    have hsame : removeSelected py path.subAttribute members [] = members := by
      unfold removeSelected
      split
      · rfl
      · rfl
    rw [hsame, set_self hkeys hget (by simp)]
  · rfl

theorem removeIn_of_not_list {predicate : Node} (hpredicate : path.predicate = some predicate)
    (hget : ∀ members, get py container path.path.attributeName ≠ .list members) :
    removeIn py path container = container := by
  unfold removeIn
  simp only [hpredicate]

theorem keys_set (hkeys : (container.map Prod.fst).Nodup) (value : Json) :
    ((set py container name value).map Prod.fst).Nodup :=
  nodup_assign _ _ hkeys

/-- **Removing twice from a dictionary.** -/
theorem removeIn_removeIn (hnamed : PatchPath.Named path)
    (hkeys : (container.map Prod.fst).Nodup) :
    removeIn py path (removeIn py path container) = removeIn py path container ↔
      DeletedOnce py container path := by
  cases hpredicate : path.predicate with
  | none =>
    cases hsub : truthy path.subAttribute with
    | none =>
      simp only [removeIn, DeletedOnce, hpredicate, hsub]
      exact delete_delete hnamed
    | some sub =>
      simp only [removeIn, DeletedOnce, hpredicate, hsub, get_set hnamed, set_set hnamed, entriesOf]
      rw [← delete_delete (truthy_eq_some.mp hsub).2]
      exact ⟨fun h => Json.dict.inj (set_inj hnamed h), fun h => by rw [h]⟩
  | some predicate =>
    by_cases hlist : ∃ members, get py container path.path.attributeName = .list members
    · obtain ⟨members, hget⟩ := hlist
      rw [removeIn_of_list hpredicate hkeys hget,
        removeIn_of_list hpredicate (keys_set hkeys _) (get_set hnamed _), set_set hnamed]
      have hdeleted : DeletedOnce py container path ↔
          ∀ s, truthy path.subAttribute = some s → ∀ member, .dict member ∈ members →
            predicate.matchesIn py member = true →
              predicate.matchesIn py (delete py member s) = true → OneSpelling py member s := by
        unfold DeletedOnce
        cases hsub : truthy path.subAttribute with
        | none => simp [hpredicate]
        | some sub => simp [hpredicate, hget]
      rw [hdeleted, ← removeSelected_removeSelected rfl]
      exact ⟨fun h => Json.list.inj (set_inj hnamed h), fun h => by rw [h]⟩
    · rw [not_exists] at hlist
      rw [removeIn_of_not_list hpredicate hlist, removeIn_of_not_list hpredicate hlist]
      refine iff_of_true rfl ?_
      unfold DeletedOnce
      cases hsub : truthy path.subAttribute with
      | none => simp [hpredicate]
      | some sub => simp [hpredicate, hlist]

/-! ### What is deleted -/

theorem get_of_key {k : String} (h : key py container name = some k) :
    get py container name = (container.lookup k).getD .null := by
  rw [get, h]
  rfl

theorem set_of_key {k : String} (h : key py container name = some k) (value : Json) :
    set py container name value = assign container k value := by
  rw [set, h]
  rfl

theorem eraseAt_key {k : String} {steps : List Step} {value : Json} (hsteps : steps ≠ [])
    (h : container.lookup k = some value) :
    eraseAt (.key k :: steps) (.dict container) =
      .dict (assign container k (eraseAt steps value)) := by
  cases steps with
  | nil => exact absurd rfl hsteps
  | cons step steps =>
    rw [eraseAt, h]
    exact hsteps

theorem eraseAll_cons (place : List Step) (places : List (List Step)) (document : Json) :
    eraseAll (place :: places) document = eraseAt place (eraseAll places document) :=
  rfl

theorem eraseAll_append (places later : List (List Step)) (document : Json) :
    eraseAll (places ++ later) document = eraseAll places (eraseAll later document) :=
  List.foldr_append

theorem eraseAll_key {k : String} {value : Json} {places : List (List Step)}
    (hkeys : (container.map Prod.fst).Nodup) (h : container.lookup k = some value)
    (hplaces : ∀ place ∈ places, place ≠ []) :
    eraseAll (places.map (.key k :: ·)) (.dict container) =
      .dict (assign container k (eraseAll places value)) := by
  induction places with
  | nil => exact congrArg Json.dict (assign_self hkeys (mem_of_lookup h)).symm
  | cons place places ih =>
    obtain ⟨hplace, hrest⟩ := List.forall_mem_cons.mp hplaces
    have hread : (assign container k (eraseAll places value)).lookup k =
        some (eraseAll places value) := by
      rw [lookup_assign, if_pos rfl]
    rw [List.map_cons, eraseAll_cons, ih hrest, eraseAt_key hplace hread, assign_assign,
      eraseAll_cons]

theorem eraseAll_member {sub : String} {members : List Json} {i : Nat} {member : Json}
    (hmember : ∀ m, members[i]? = some m → m = member) :
    eraseAll ((key py (entriesOf member) sub).toList.map fun k => [.place i, .key k])
        (.list members) =
      .list (members.modify i (deleteIn py sub)) := by
  cases hkey : key py (entriesOf member) sub with
  | none =>
    have hsame : members.modify i (deleteIn py sub) = members.modify i id := by
      refine modify_congr fun m hm => ?_
      obtain rfl := hmember m hm
      cases m with
      | dict entries => exact congrArg Json.dict (delete_eq_self.mpr hkey)
      | _ => rfl
    rw [hsame, List.modify_id]
    rfl
  | some k =>
    have hsame : members.modify i (deleteIn py sub) = members.modify i (eraseAt [.key k]) := by
      refine modify_congr fun m hm => ?_
      obtain rfl := hmember m hm
      cases m with
      | dict entries => exact congrArg Json.dict (delete_of_key hkey)
      | _ => cases hkey
    rw [hsame]
    rfl

/-- **What is deleted of a list** is what the loop over the selected places deletes. -/
theorem eraseAll_ofMembers {sub : Option String} {members : List Json} {selected : List Nat}
    (hselected : selected.Nodup) :
    eraseAll (ofMembers py sub members selected) (.list members) =
      .list (removeSelected py sub members selected) := by
  unfold ofMembers ofMember removeSelected
  cases truthy sub with
  | none =>
    simp only [List.foldl_reverse]
    clear hselected
    induction selected with
    | nil => rfl
    | cons i selected ih =>
      rw [List.flatMap_cons, eraseAll_append, ih]
      rfl
  | some sub =>
    simp only [List.foldl_reverse]
    induction selected with
    | nil => rfl
    | cons i selected ih =>
      obtain ⟨hnot, hrest⟩ := List.nodup_cons.mp hselected
      rw [List.flatMap_cons, eraseAll_append, ih hrest, List.map_map, List.foldr_cons]
      refine eraseAll_member fun m hm => ?_
      -- the places to come are other ones, so the member is still as it was
      rw [getElem?_foldr_modify hnot] at hm
      rw [hm]
      rfl

theorem ofContainer_sub {sub : String} (hpredicate : path.predicate = none)
    (hsub : truthy path.subAttribute = some sub) :
    ofContainer py path container =
      match key py container path.path.attributeName with
      | none => []
      | some k => ((key py (entriesOf (get py container path.path.attributeName)) sub).toList.map
          fun s => [Step.key s]).map (.key k :: ·) := by
  unfold ofContainer ofValue
  simp only [hpredicate, hsub]

/-- **What is deleted of a dictionary** is what its path addresses, if the parent is an object. -/
theorem eraseAll_ofContainer (hkeys : (container.map Prod.fst).Nodup)
    (hparent : ParentFound py container path) :
    eraseAll (ofContainer py path container) (.dict container) =
      .dict (removeIn py path container) := by
  cases hpredicate : path.predicate with
  | none =>
    cases hsub : truthy path.subAttribute with
    | none =>
      simp only [ofContainer, ofValue, removeIn, delete, hpredicate, hsub]
      cases key py container path.path.attributeName with
      | none => rfl
      | some k => rfl
    | some sub =>
      obtain ⟨parent, hget⟩ := hparent hpredicate sub hsub
      obtain ⟨k, hk, hlookup⟩ := mem_of_get hget (by simp)
      simp only [ofContainer_sub hpredicate hsub, removeIn, hpredicate, hsub, hget, hk, entriesOf]
      rw [eraseAll_key hkeys hlookup (by simp), set_of_key hk, delete]
      cases key py parent sub with
      | none => rfl
      | some s => rfl
  | some predicate =>
    by_cases hlist : ∃ members, get py container path.path.attributeName = .list members
    · obtain ⟨members, hget⟩ := hlist
      obtain ⟨k, hk, hlookup⟩ := mem_of_get hget (by simp)
      have hselected : (selectMembers py predicate members).Nodup := nodup_indices _ _
      rw [removeIn_of_list hpredicate hkeys hget]
      simp only [ofContainer, ofValue, hpredicate, hget, hk]
      rw [eraseAll_key hkeys hlookup ?_, set_of_key hk, eraseAll_ofMembers hselected]
      intro place hplace
      obtain ⟨i, -, hplace⟩ := List.mem_flatMap.mp hplace
      obtain ⟨rest, -, rfl⟩ := List.mem_map.mp hplace
      exact List.cons_ne_nil _ _
    · rw [not_exists] at hlist
      rw [removeIn_of_not_list hpredicate hlist]
      simp only [ofContainer, ofValue, hpredicate]
      cases key py container path.path.attributeName with
      | none => rfl
      | some k => rfl

theorem parentFound_of_eraseAll (hnamed : PatchPath.Named path)
    (h : .dict (removeIn py path container) =
      eraseAll (ofContainer py path container) (.dict container)) :
    ParentFound py container path := by
  intro hpredicate sub hsub
  by_contra hnone
  have hentries : entriesOf (get py container path.path.attributeName) = [] := by
    cases hvalue : get py container path.path.attributeName with
    | dict parent => exact absurd ⟨parent, hvalue⟩ hnone
    | _ => rfl
  have hempty : ofContainer py path container = [] := by
    rw [ofContainer_sub hpredicate hsub, hentries]
    cases key py container path.path.attributeName with
    | none => rfl
    | some k => rfl
  rw [hempty] at h
  simp only [removeIn, hpredicate, hsub, hentries] at h
  refine hnone ⟨delete py [] sub, ?_⟩
  conv_lhs => rw [← Json.dict.inj h]
  exact get_set hnamed _

/-! ### Removing from a resource -/

/-- What a remove makes of a resource. -/
def removeFrom (py : Builtins) (path : PatchPath) (resource : Object) : Object :=
  match truthy path.path.urn with
  | none => removeIn py path resource
  | some urn =>
    match get py resource urn with
    | .dict extension => set py resource urn (.dict (removeIn py path extension))
    | _ => assign resource urn (.dict (removeIn py path []))

theorem applyPatch_remove (hremove : operation.op = .remove) (hpath : operation.path = some path) :
    applyPatch py resource [operation] = .ok (removeFrom py path resource) := by
  rw [applyPatch_ok, List.foldlM_cons, applyOne_of_path hpath]
  unfold onExtension removeFrom
  simp only [inContainer_remove hremove]
  cases truthy path.path.urn with
  | none => rfl
  | some urn =>
    simp only
    cases get py resource urn with
    | dict extension => rfl
    | _ => rfl

theorem removesOnly_iff_eraseAll (hremove : operation.op = .remove)
    (hpath : operation.path = some path) :
    RemovesOnly py resource operation path ↔
      .dict (removeFrom py path resource) = eraseAll (addressed py resource path) (.dict resource) ∧
        removeFrom py path (removeFrom py path resource) = removeFrom py path resource := by
  unfold RemovesOnly
  simp only [applyPatch_remove hremove hpath]
  constructor
  · rintro ⟨result, hresult, herase, -, hagain⟩
    cases hresult
    exact ⟨herase, Except.ok.inj hagain⟩
  · rintro ⟨herase, hagain⟩
    refine ⟨_, rfl, herase, fun hempty => ?_, congrArg Except.ok hagain⟩
    rw [hempty] at herase
    exact Json.dict.inj herase

theorem ne_nil_of_mem_ofContainer {place : List Step} (h : place ∈ ofContainer py path container) :
    place ≠ [] := by
  unfold ofContainer at h
  split at h
  · cases h
  · obtain ⟨rest, -, rfl⟩ := List.mem_map.mp h
    exact List.cons_ne_nil _ _

theorem get_of_assign_self {value : Json} (hname : name ≠ "")
    (h : assign container name value = container) : get py container name = value := by
  have hmem : name ∈ container.map Prod.fst := by
    rw [← h]
    exact List.mem_map_of_mem (assign_mem container name value)
  have hkey : key py container name = some name :=
    truthy_eq_some.mpr ⟨Folded.spelling_of_mem hmem, hname⟩
  rw [get_of_key hkey, ← h, lookup_assign, if_pos rfl]
  rfl

theorem keys_of_keysOnce (h : KeysOnce id (.dict container)) :
    (container.map Prod.fst).Nodup := by
  cases h with
  | dict hsingle _ => exact hsingle.keys

theorem keysOnce_of_get (h : KeysOnce id (.dict container)) {extension : Object}
    (hget : get py container name = .dict extension) : KeysOnce id (.dict extension) := by
  obtain ⟨k, -, hlookup⟩ := mem_of_get hget (by simp)
  cases h with
  | dict _ hall => exact hall _ (mem_of_lookup hlookup)

/-- **Removing through a URN** that names an object. -/
theorem removesOnly_extension {urn : String} {extension : Object}
    (hnamed : PatchPath.Named path) (hkeys : (resource.map Prod.fst).Nodup)
    (hextension : (extension.map Prod.fst).Nodup) (hurn : truthy path.path.urn = some urn)
    (hget : get py resource urn = .dict extension) :
    (.dict (removeFrom py path resource) = eraseAll (addressed py resource path) (.dict resource) ∧
        removeFrom py path (removeFrom py path resource) = removeFrom py path resource) ↔
      ParentFound py extension path ∧ DeletedOnce py extension path := by
  have hname : urn ≠ "" := (truthy_eq_some.mp hurn).2
  obtain ⟨k, hk, hlookup⟩ := mem_of_get hget (by simp)
  have hfrom : removeFrom py path resource =
      set py resource urn (.dict (removeIn py path extension)) := by
    simp only [removeFrom, hurn, hget]
  have hagain : removeFrom py path (removeFrom py path resource) =
      set py resource urn (.dict (removeIn py path (removeIn py path extension))) := by
    rw [hfrom]
    simp only [removeFrom, hurn, get_set hname, set_set hname]
  have haddressed : addressed py resource path =
      (ofContainer py path extension).map (.key k :: ·) := by
    simp only [addressed, hurn, hget, hk]
  rw [hagain, hfrom, haddressed,
    eraseAll_key hkeys hlookup fun _ => ne_nil_of_mem_ofContainer, ← set_of_key hk]
  refine and_congr ⟨fun h => ?_, fun h => ?_⟩ ?_
  · exact parentFound_of_eraseAll hnamed (set_inj hname (Json.dict.inj h))
  · rw [eraseAll_ofContainer hextension h]
  · rw [← removeIn_removeIn hnamed hextension]
    exact ⟨fun h => Json.dict.inj (set_inj hname h), fun h => by rw [h]⟩

/-- **Removing through a URN** that names none makes one. -/
theorem urnFound_of_removeFrom
    (h : .dict (removeFrom py path resource) =
      eraseAll (addressed py resource path) (.dict resource)) : UrnFound py resource path := by
  intro urn hurn
  by_contra hnone
  rw [not_exists] at hnone
  have haddressed : addressed py resource path = [] := by
    simp only [addressed, hurn]
    split
    · next hget => exact absurd hget (hnone _)
    · rfl
  have hfrom : removeFrom py path resource = assign resource urn (.dict (removeIn py path [])) := by
    simp only [removeFrom, hurn]
  rw [haddressed, hfrom] at h
  exact hnone _ (get_of_assign_self (truthy_eq_some.mp hurn).2 (Json.dict.inj h))

/-- **A remove only removes** exactly if the containers on its way are there, and what it deletes
has one spelling. -/
theorem removesOnly_iff {entry : Json} {index : Nat}
    (hparsed : parseOne py entry index = .ok operation) (hremove : operation.op = .remove)
    (hpath : operation.path = some path) (hresource : KeysOnce id (.dict resource)) :
    RemovesOnly py resource operation path ↔
      UrnFound py resource path ∧ ParentFound py (containerOf py resource path.path) path ∧
        DeletedOnce py (containerOf py resource path.path) path := by
  have hnamed : PatchPath.Named path := by
    obtain ⟨p, hp, hnamed⟩ := parseOne_remove hparsed hremove
    obtain rfl : p = path := Option.some.inj (hp.symm.trans hpath)
    exact hnamed
  rw [removesOnly_iff_eraseAll hremove hpath]
  cases hurn : truthy path.path.urn with
  | none =>
    have hfound : UrnFound py resource path := by
      intro urn hsome
      rw [hurn] at hsome
      cases hsome
    have hkeys : (resource.map Prod.fst).Nodup := keys_of_keysOnce hresource
    have hcontainer : containerOf py resource path.path = resource := by
      rw [containerOf, hurn]
    have hfrom : ∀ r, removeFrom py path r = removeIn py path r := by
      intro r
      rw [removeFrom, hurn]
    have haddressed : addressed py resource path = ofContainer py path resource := by
      rw [addressed, hurn]
    rw [hfrom, hfrom, haddressed, hcontainer, removeIn_removeIn hnamed hkeys]
    exact ⟨fun h => ⟨hfound, parentFound_of_eraseAll hnamed h.1, h.2⟩,
      fun h => ⟨(eraseAll_ofContainer hkeys h.2.1).symm, h.2.2⟩⟩
  | some urn =>
    by_cases hfound : ∃ extension, get py resource urn = .dict extension
    · obtain ⟨extension, hget⟩ := hfound
      have hcontainer : containerOf py resource path.path = extension := by
        rw [containerOf, hurn]
        simp only [hget, entriesOf]
      have hextension := keys_of_keysOnce (keysOnce_of_get hresource hget)
      rw [hcontainer,
        removesOnly_extension hnamed (keys_of_keysOnce hresource) hextension hurn hget]
      refine ⟨fun h => ⟨fun u hu => ?_, h⟩, And.right⟩
      obtain rfl : urn = u := Option.some.inj (hurn.symm.trans hu)
      exact ⟨extension, hget⟩
    · constructor
      · exact fun h => absurd (urnFound_of_removeFrom h.1 urn hurn) hfound
      · exact fun h => absurd (h.1 urn hurn) hfound

/-! ### A name that is not there -/

/-- Remove the given name. -/
def removeGivenName : Json := .dict [("op", .str "remove"), ("path", .str "name.givenName")]

/-- The path of the given name. -/
def givenName : PatchPath := ⟨⟨"name", some "givenName", none⟩, none, some "givenName"⟩

theorem parseOne_removeGivenName :
    parseOne .ascii removeGivenName 0 = .ok ⟨.remove, some givenName, .null⟩ :=
  rfl

/-- A person with a name. -/
def named : Object :=
  [("userName", .str "sam"), ("name", .dict [("givenName", .str "Sam"), ("formatted", .str "Sam O")])]

theorem keysOnce_named : KeysOnce id (.dict named) := by
  refine .dict (by decide) ?_
  rw [named, List.forall_mem_cons, List.forall_mem_singleton]
  refine ⟨.str _, .dict (by decide) ?_⟩
  rw [List.forall_mem_cons, List.forall_mem_singleton]
  exact ⟨.str _, .str _⟩

/-- The given name of a person with a name is all that is removed. -/
theorem removesOnly_named :
    RemovesOnly .ascii named ⟨.remove, some givenName, .null⟩ givenName := by
  refine (removesOnly_iff parseOne_removeGivenName rfl rfl keysOnce_named).mpr ⟨?_, ?_, ?_⟩
  · rintro urn ⟨⟩
  · rintro - sub -
    exact ⟨_, rfl⟩
  · show OneSpelling .ascii [("givenName", .str "Sam"), ("formatted", .str "Sam O")] "givenName"
    unfold OneSpelling
    simp only [List.forall_mem_cons, List.not_mem_nil, false_imp_iff, implies_true, and_true]
    decide

/-- **A remove makes a name**: without one, the person has an empty one afterwards. -/
theorem not_removesOnly : ¬ ∀ (py : Builtins) (resource : Object) (entry : Json) (index : Nat)
    (operation : Operation) (path : PatchPath), parseOne py entry index = .ok operation →
      operation.op = .remove → operation.path = some path → KeysOnce id (.dict resource) →
        RemovesOnly py resource operation path := by
  intro h
  have hkeys : KeysOnce id (.dict [("userName", .str "sam")]) := by
    refine .dict (by decide) ?_
    rw [List.forall_mem_singleton]
    exact .str _
  obtain ⟨result, hresult, -, hsame, -⟩ := h .ascii [("userName", .str "sam")] removeGivenName 0
    _ givenName parseOne_removeGivenName rfl rfl hkeys
  have hmade : applyPatch .ascii [("userName", .str "sam")] [⟨.remove, some givenName, .null⟩] =
      .ok [("userName", .str "sam"), ("name", .dict [])] := rfl
  have hlength := congrArg (Except.map List.length) (hmade.symm.trans hresult)
  rw [hsame rfl] at hlength
  exact absurd (Except.ok.inj hlength) (by decide)

end Patch
end Scim
end CampusID
