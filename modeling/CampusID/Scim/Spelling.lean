import CampusID.Scim.Patching

/-!
# One spelling of a name

Names are read without regard to case, so an object should hold a name once.  A PATCH looks up
the spelling an object has wherever it sets or deletes an attribute, but not where it makes the
extension of a schema URN, nor where it merges an object into a selected member: there it writes
the client's spelling.

`KeepsSpelling` is the condition on these two places.  A step from a document that holds its
names once leads to such a document exactly when it meets it (`namesOnce_applyOne`).
-/

namespace CampusID
namespace Scim
namespace Patch

open Lib
open Audit (Json)

variable (py : Builtins)

/-- No object, at any depth, has two keys that fold alike. -/
inductive KeysOnce (fold : String → String) : Json → Prop where
  | null : KeysOnce fold .null
  | bool (b : Bool) : KeysOnce fold (.bool b)
  | num (n : Audit.Number) : KeysOnce fold (.num n)
  | str (s : String) : KeysOnce fold (.str s)
  | list {items : List Json} (h : ∀ item ∈ items, KeysOnce fold item) : KeysOnce fold (.list items)
  | dict {entries : Object} (hkeys : Folded.Single fold entries)
      (h : ∀ entry ∈ entries, KeysOnce fold entry.2) : KeysOnce fold (.dict entries)

/-- No object, at any depth, has two keys that are equal up to case. -/
abbrev NamesOnce : Json → Prop := KeysOnce py.lower

/-- The dictionary a path without a sub-attribute writes into, as it is before. -/
def containerOf (resource : Object) (path : AttrPath) : Object :=
  match truthy path.urn with
  | none => resource
  | some urn => entriesOf (get py resource urn)

/-- A key is spelled as the object has it, or is a new name there. -/
def Spelled (object : Object) (name : String) : Prop :=
  name ∈ object.map Prod.fst ∨ ∀ entry ∈ object, py.lower entry.1 ≠ py.lower name

/-- The extension of a URN is an object, or the URN is spelled as the resource has it. -/
def UrnSpelled (resource : Object) (path : AttrPath) : Prop :=
  ∀ urn, truthy path.urn = some urn →
    (∃ entries, get py resource urn = .dict entries) ∨ Spelled py resource urn

/-- What is merged into the selected members is spelled as they have it. -/
def MergeSpelled (resource : Object) (operation : Operation) (path : PatchPath) : Prop :=
  ∀ predicate entries members, path.predicate = some predicate → operation.op ≠ .remove →
    truthy path.subAttribute = none → operation.value = .dict entries →
    get py (containerOf py resource path.path) path.path.attributeName = .list members →
    ∀ member, .dict member ∈ members → predicate.matchesIn py member = true →
      ∀ entry ∈ entries, Spelled py member entry.1

/-- The client's spelling is the one the document has, wherever it is written. -/
def KeepsSpelling (resource : Object) (operation : Operation) : Prop :=
  ∀ path, operation.path = some path →
    UrnSpelled py resource path.path ∧ MergeSpelled py resource operation path

variable {py} {resource result container : Object} {name : String} {value : Json}
  {operation : Operation} {operations : List Operation}

/-! ## What holds its names once -/

@[simp] theorem namesOnce_list {items : List Json} :
    NamesOnce py (.list items) ↔ ∀ item ∈ items, NamesOnce py item :=
  ⟨fun h => by cases h; assumption, .list⟩

@[simp] theorem namesOnce_dict {entries : Object} : NamesOnce py (.dict entries) ↔
    Folded.Single py.lower entries ∧ ∀ entry ∈ entries, NamesOnce py entry.2 :=
  ⟨fun h => by cases h; exact ⟨‹_›, ‹_›⟩, fun h => .dict h.1 h.2⟩

theorem NamesOnce.entriesOf (h : NamesOnce py value) : NamesOnce py (.dict (entriesOf value)) := by
  cases value with
  | dict entries => exact h
  | _ => exact .dict List.nodup_nil (by simp [Patch.entriesOf])

theorem NamesOnce.get (h : NamesOnce py (.dict container)) (name : String) :
    NamesOnce py (get py container name) := by
  by_cases hnull : Patch.get py container name = .null
  · rw [hnull]
    exact .null
  · obtain ⟨k, -, hlookup⟩ := mem_of_get rfl hnull
    exact (namesOnce_dict.mp h).2 _ (mem_of_lookup hlookup)

theorem spelled_written (container : Object) (name : String) :
    Spelled py container ((key py container name).getD name) := by
  cases hk : key py container name with
  | some k => exact .inl (key_mem hk)
  | none =>
    rw [Option.getD_none]
    by_cases hmem : name ∈ container.map Prod.fst
    · exact .inl hmem
    · refine .inr fun entry hentry heq => ?_
      by_cases hname : name = ""
      · -- only the empty name folds to what the empty name folds to
        have hlower : py.lower entry.1 = "" := by
          rw [heq, hname, py.lower_ascii "" rfl]
          rfl
        refine hmem (List.mem_map.mpr ⟨entry, hentry, ?_⟩)
        rw [py.lower_eq_empty _ hlower, hname]
      · exact new_of_key_eq_none hname hk entry hentry heq

theorem namesOnce_assign (h : NamesOnce py (.dict container)) (hvalue : NamesOnce py value)
    (key : String) :
    NamesOnce py (.dict (assign container key value)) ↔ Spelled py container key := by
  obtain ⟨hkeys, hvalues⟩ := namesOnce_dict.mp h
  rw [namesOnce_dict, Folded.single_assign hkeys]
  refine ⟨And.left, fun hspelled => ⟨hspelled, fun entry hentry => ?_⟩⟩
  rcases mem_assign hentry with hentry | rfl
  · exact hvalues entry hentry
  · exact hvalue

theorem namesOnce_of_assign {key : String} (h : NamesOnce py (.dict (assign container key value))) :
    NamesOnce py value :=
  (namesOnce_dict.mp h).2 _ (assign_mem ..)

theorem namesOnce_set (h : NamesOnce py (.dict container)) :
    NamesOnce py (.dict (set py container name value)) ↔ NamesOnce py value :=
  ⟨namesOnce_of_assign, fun hvalue => (namesOnce_assign h hvalue _).mpr (spelled_written _ _)⟩

theorem NamesOnce.delete (h : NamesOnce py (.dict container)) :
    NamesOnce py (.dict (delete py container name)) := by
  obtain ⟨hkeys, hvalues⟩ := namesOnce_dict.mp h
  unfold Patch.delete
  split
  · exact .dict (hkeys.erase _) fun entry hentry => hvalues entry (List.mem_of_mem_filter hentry)
  · exact h

theorem NamesOnce.direct (h : NamesOnce py (.dict container)) (hvalue : NamesOnce py value)
    (op : PatchOp) : NamesOnce py (.dict (direct py op value container name)) := by
  unfold Patch.direct
  split
  · exact h.delete
  · split
    · next existing hget =>
      have hexisting := h.get name
      rw [hget, namesOnce_list] at hexisting
      refine (namesOnce_set h).mpr (.list fun item hitem => ?_)
      rcases List.mem_append.mp hitem with hitem | hitem
      · exact hexisting item hitem
      · cases value with
        | list items => exact namesOnce_list.mp hvalue item hitem
        | _ =>
          obtain rfl := List.mem_singleton.mp hitem
          exact hvalue
    · exact (namesOnce_set h).mpr hvalue
  · exact (namesOnce_set h).mpr hvalue

/-! ## Selected members -/

theorem namesOnce_writeMember {member : Object} {sub : Option String}
    (h : NamesOnce py (.dict member)) (hvalue : NamesOnce py value) :
    NamesOnce py (writeMember py sub value (.dict member)) ↔
      (truthy sub = none → ∀ entries, value = .dict entries →
        ∀ entry ∈ entries, Spelled py member entry.1) := by
  unfold writeMember
  simp only
  cases hsub : truthy sub with
  | some s =>
    simp only [reduceCtorEq, false_implies, iff_true]
    exact (namesOnce_set h).mpr hvalue
  | none =>
    simp only [true_implies]
    cases value with
    | dict entries =>
      obtain ⟨hkeys, hvalues⟩ := namesOnce_dict.mp h
      obtain ⟨hkeys', hvalues'⟩ := namesOnce_dict.mp hvalue
      have hall : ∀ entry ∈ update member entries, NamesOnce py entry.2 := by
        unfold update
        clear hkeys hkeys' h hvalue
        induction entries generalizing member with
        | nil => exact hvalues
        | cons e entries ih =>
          obtain ⟨he, hrest⟩ := List.forall_mem_cons.mp hvalues'
          refine ih (fun entry hentry => ?_) hrest
          rcases mem_assign hentry with hentry | rfl
          · exact hvalues entry hentry
          · exact he
      simp only [namesOnce_dict, Json.dict.injEq, forall_eq']
      exact ⟨fun hm => (Folded.single_foldl_assign hkeys hkeys').mp hm.1,
        fun hm => ⟨(Folded.single_foldl_assign hkeys hkeys').mpr hm, hall⟩⟩
    | _ => simpa using hvalue

theorem namesOnce_removeSelected {members : List Json} {sub : Option String}
    (h : NamesOnce py (.list members)) (predicate : Node) :
    NamesOnce py (.list (removeSelected py sub members (selectMembers py predicate members))) := by
  rw [namesOnce_list] at h
  unfold removeSelected selectMembers
  split
  · next s _ =>
    rw [foldl_modify_reverse_indices]
    refine .list fun item hitem => ?_
    obtain ⟨member, hmember, rfl⟩ := List.mem_map.mp hitem
    split
    · cases member with
      | dict entries => exact (h _ hmember).delete
      | _ => exact h _ hmember
    · exact h member hmember
  · rw [foldl_eraseIdx_indices]
    exact .list fun item hitem => h item (List.mem_of_mem_filter hitem)

theorem namesOnce_writeSelected {members : List Json} {sub : Option String}
    (h : NamesOnce py (.list members)) (hvalue : NamesOnce py value) (predicate : Node) :
    NamesOnce py (.list (writeSelected py sub value members (selectMembers py predicate members))) ↔
      ∀ member, .dict member ∈ members → predicate.matchesIn py member = true →
        truthy sub = none → ∀ entries, value = .dict entries →
          ∀ entry ∈ entries, Spelled py member entry.1 := by
  rw [namesOnce_list] at h
  unfold writeSelected selectMembers
  rw [foldl_modify_indices, namesOnce_list]
  constructor
  · intro hall member hmember hmatches
    refine (namesOnce_writeMember (h _ hmember) hvalue).mp ?_
    have hselects : selects py predicate (.dict member) = true := hmatches
    have hone := hall _ (List.mem_map_of_mem hmember)
    rwa [if_pos hselects] at hone
  · intro hall item hitem
    obtain ⟨member, hmember, rfl⟩ := List.mem_map.mp hitem
    split
    · next hselects =>
      cases member with
      | dict entries =>
        exact (namesOnce_writeMember (h _ hmember) hvalue).mpr (hall entries hmember hselects)
      | _ => cases hselects
    · exact h member hmember

/-! ## One operation -/

theorem namesOnce_onExtension {path : AttrPath} {change : Object → Except PatchError Object}
    (h : NamesOnce py (.dict resource))
    (hok : onExtension py resource path.urn change = .ok result) :
    ∃ changed, change (containerOf py resource path) = .ok changed ∧
      (NamesOnce py (.dict result) ↔ UrnSpelled py resource path ∧ NamesOnce py (.dict changed)) := by
  rcases onExtension_ok hok with ⟨hurn, hok⟩ | ⟨u, changed, written, hurn, hok, rfl, -, hwritten⟩
  · refine ⟨result, by rwa [containerOf, hurn], ?_⟩
    refine ⟨fun hresult => ⟨fun urn hsome => ?_, hresult⟩, And.right⟩
    rw [hurn] at hsome
    cases hsome
  · refine ⟨changed, by rwa [containerOf, hurn], ?_⟩
    have hspelled : UrnSpelled py resource path ↔ Spelled py resource written := by
      refine ⟨fun hall => ?_, fun hw urn hsome => ?_⟩
      · rcases hwritten with ⟨rfl, -⟩ | ⟨rfl, hnot⟩
        · exact spelled_written _ _
        · refine (hall _ hurn).resolve_left ?_
          rintro ⟨entries, hget⟩
          exact hnot entries hget
      · obtain rfl : u = urn := Option.some.inj (hurn.symm.trans hsome)
        rcases hwritten with ⟨-, hobject⟩ | ⟨rfl, -⟩
        · exact .inl hobject
        · exact .inr hw
    rw [hspelled]
    constructor
    · exact fun hr => ⟨(namesOnce_assign h (namesOnce_of_assign hr) _).mp hr, namesOnce_of_assign hr⟩
    · exact fun hr => (namesOnce_assign h hr.2 _).mpr hr.1

theorem NamesOnce.containerOf (h : NamesOnce py (.dict resource)) (path : AttrPath) :
    NamesOnce py (.dict (containerOf py resource path)) := by
  unfold Patch.containerOf
  split
  · exact h
  · exact (h.get _).entriesOf

theorem namesOnce_applyDirect {path : PatchPath} {op : PatchOp} (hpath : path.predicate = none)
    (h : NamesOnce py (.dict resource)) (hvalue : NamesOnce py value)
    (hok : applyDirect py resource op value path = .ok result) :
    NamesOnce py (.dict result) ↔ UrnSpelled py resource path.path := by
  unfold applyDirect onTarget at hok
  obtain ⟨changed, hchanged, hiff⟩ := namesOnce_onExtension h hok
  rw [hiff]
  refine and_iff_left ?_
  have hcontainer := h.containerOf path.path
  rw [hpath] at hchanged
  split at hchanged
  · cases hchanged
    exact (namesOnce_set hcontainer).mpr ((hcontainer.get _).entriesOf.direct hvalue op)
  · cases hchanged
    exact hcontainer.direct hvalue op

theorem namesOnce_applyFiltered {path : PatchPath} {predicate : Node}
    (hpath : path.predicate = some predicate) (h : NamesOnce py (.dict resource))
    (hvalue : NamesOnce py operation.value)
    (hok : applyFiltered py resource operation path predicate = .ok result) :
    NamesOnce py (.dict result) ↔
      UrnSpelled py resource path.path ∧ MergeSpelled py resource operation path := by
  unfold applyFiltered onTarget at hok
  obtain ⟨changed, hchanged, hiff⟩ := namesOnce_onExtension h hok
  rw [hiff]
  refine and_congr_right fun _ => ?_
  have hcontainer := h.containerOf path.path
  simp only [truthy, Option.filter_none] at hchanged
  unfold filtered at hchanged
  unfold MergeSpelled
  split at hchanged
  · next members hget =>
    have hmembers := hcontainer.get path.path.attributeName
    rw [hget] at hmembers
    simp only [hget, hpath, Option.some.injEq, Json.list.injEq]
    split at hchanged
    · next hempty =>
      -- nothing is selected, and nothing is written
      cases hchanged
      refine iff_of_true hcontainer ?_
      rintro predicate' entries members' rfl - - - rfl member hmember hmatches
      rw [List.isEmpty_iff, selectMembers, indices_eq_nil] at hempty
      have hno := hempty _ hmember
      rw [selects, hmatches] at hno
      cases hno
    · cases hchanged
      rw [namesOnce_set hcontainer]
      unfold changeSelected
      split
      · next hremove =>
        exact iff_of_true (namesOnce_removeSelected hmembers predicate)
          fun _ _ _ _ hnot => absurd hremove hnot
      · next hnot =>
        rw [namesOnce_writeSelected hmembers hvalue]
        constructor
        · rintro hall predicate' entries members' rfl - hsub hval rfl member hmember hmatches
          exact hall member hmember hmatches hsub entries hval
        · intro hall member hmember hmatches hsub entries hval
          exact hall predicate entries members rfl hnot hsub hval rfl member hmember hmatches
  · next hnolist =>
    split at hchanged
    · cases hchanged
      exact iff_of_true hcontainer fun _ _ members _ _ _ _ hget => absurd hget (hnolist members)
    · cases hchanged

/-- **One operation** keeps names held once exactly when it keeps the spelling. -/
theorem namesOnce_applyOne (h : NamesOnce py (.dict resource))
    (hvalue : NamesOnce py operation.value)
    (hok : applyOne py resource operation = .ok result) :
    NamesOnce py (.dict result) ↔ KeepsSpelling py resource operation := by
  unfold applyOne at hok
  unfold KeepsSpelling
  split at hok
  · next hpath =>
    simp only [hpath, reduceCtorEq, false_implies, implies_true, iff_true]
    unfold applyPathless at hok
    split at hok
    · next entries hentries =>
      rw [hentries, namesOnce_dict] at hvalue
      refine Eff.foldlM_ok_related (R := fun before after =>
        NamesOnce py (.dict before) → NamesOnce py (.dict after)) (fun _ => id)
        (fun _ _ _ hab hbc => hbc ∘ hab) (fun entry hentry before after hone hbefore => ?_) hok h
      unfold applyEntry at hone
      split at hone
      · cases hone
      · refine (namesOnce_applyDirect rfl hbefore (hvalue.2 entry hentry) hone).mpr ?_
        intro urn hurn
        cases (truthy_eq_some.mp hurn).1
    · cases hok
  · next path hpath =>
    simp only [hpath, Option.some.injEq, forall_eq']
    split at hok
    · next predicate hpredicate => exact namesOnce_applyFiltered hpredicate h hvalue hok
    · next hpredicate =>
      rw [namesOnce_applyDirect hpredicate h hvalue hok]
      refine (and_iff_left ?_).symm
      intro predicate _ _ hsome
      rw [hpredicate] at hsome
      cases hsome

/-- **A PATCH keeps names held once**, in every document on the way, exactly when every operation
that goes through keeps the spelling. -/
theorem namesOnce_of_applyPatch (h : NamesOnce py (.dict resource))
    (hvalues : ∀ operation ∈ operations, NamesOnce py operation.value) :
    (∀ before after, operations = before ++ after →
        ∀ result, applyPatch py resource before = .ok result → NamesOnce py (.dict result)) ↔
      Eff.Along (applyOne py) (KeepsSpelling py) resource operations := by
  rw [Eff.along_iff (P := fun document => NamesOnce py (.dict document))
    (fun operation hmem _ _ hbefore hone => namesOnce_applyOne hbefore (hvalues operation hmem) hone) h]
  simp only [applyPatch_ok]

/-! ## A second spelling -/

/-- A resource with one work address. -/
def withWorkMail (address : Object) : Object :=
  [("userName", .str "sam"), ("emails", .list [.dict address])]

/-- Replace the work address by an object. -/
def replaceWork (value : Object) : Operation where
  op := .replace
  path := some ⟨⟨"emails", none, none⟩, some (.comparison ⟨"type", none, none⟩ .eq (.str "work")), none⟩
  value := .dict value

theorem namesOnce_texts (entries : List (String × String))
    (h : Folded.Single py.lower (entries.map fun e => (e.1, Json.str e.2))) :
    NamesOnce py (.dict (entries.map fun e => (e.1, .str e.2))) := by
  refine .dict h fun entry hentry => ?_
  obtain ⟨e, -, rfl⟩ := List.mem_map.mp hentry
  exact .str e.2

theorem namesOnce_withWorkMail : NamesOnce .ascii
    (.dict (withWorkMail [("type", .str "work"), ("value", .str "sam@campus.test")])) := by
  have hmail : NamesOnce .ascii (.dict [("type", .str "work"), ("value", .str "sam@campus.test")]) :=
    namesOnce_texts [("type", "work"), ("value", "sam@campus.test")] (by decide)
  refine .dict (by decide) ?_
  simp only [withWorkMail, List.forall_mem_cons]
  exact ⟨.str _, .list (by simpa using namesOnce_dict.mp hmail), by simp⟩

/-- The address is changed under the name it has. -/
theorem namesOnce_of_value : NamesOnce .ascii
    (.dict (withWorkMail [("type", .str "work"), ("value", .str "s@campus.test")])) := by
  have hvalues : ∀ operation ∈ [replaceWork [("value", .str "s@campus.test")]],
      NamesOnce .ascii operation.value := by
    rw [List.forall_mem_singleton]
    exact namesOnce_texts [("value", "s@campus.test")] (by decide)
  refine (namesOnce_of_applyPatch namesOnce_withWorkMail hvalues).mpr ?_ _ []
    (List.append_nil _).symm _ rfl
  rintro next -
  refine ⟨?_, trivial⟩
  rintro path ⟨⟩
  refine ⟨fun urn hurn => (by cases hurn), ?_⟩
  rintro predicate entries members ⟨⟩ - - ⟨⟩ ⟨⟩ member hmember - entry hentry
  obtain rfl := Json.dict.inj (List.mem_singleton.mp hmember)
  obtain rfl := List.mem_singleton.mp hentry
  exact .inl (by decide)

/-- **A merge brings a second spelling**: the member has a `value` and a `VALUE` then. -/
theorem not_namesOnce : ¬ ∀ (py : Builtins) (resource result : Object)
    (operations : List Operation), NamesOnce py (.dict resource) →
      (∀ operation ∈ operations, NamesOnce py operation.value) →
        applyPatch py resource operations = .ok result → NamesOnce py (.dict result) := by
  intro h
  have hresult := h .ascii _ _ [replaceWork [("VALUE", .str "s@campus.test")]]
    namesOnce_withWorkMail ?_ rfl
  · have hmails := (namesOnce_dict.mp hresult).2 _ (List.mem_cons_of_mem _ List.mem_cons_self)
    have hmail := namesOnce_list.mp hmails _ List.mem_cons_self
    exact absurd (namesOnce_dict.mp hmail).1 (by decide)
  · rw [List.forall_mem_singleton]
    exact namesOnce_texts [("VALUE", "s@campus.test")] (by decide)

end Patch
end Scim
end CampusID
