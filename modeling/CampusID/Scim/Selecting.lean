import CampusID.Scim.Removing

/-!
# What a value filter touches

`apply_patch` works in place, on a copy.  An operation that raises may have changed the copy
before: an extension is made before the list under it is looked for, and the members of an
operation without a path are written one after another.  The document of the caller is another
one, and what the caller gets is what the operations make of it, or an error
(`applyInPlace_run`).

A list is reached by names, through objects.  An operation with a value filter changes the list
its path leads to and nothing else, and in it only the members the filter selects.
-/

namespace CampusID
namespace Scim
namespace Patch

open Lib
open Audit (Json)

/-! ## In place -/

/-- The document of the caller and the copy that is worked on. -/
structure Documents where
  resource : Object
  working : Object

/-- What changes the copy, and may raise. -/
abbrev InPlace : Type → Type := Eff Documents PatchError

variable (py : Builtins)

/-- Change the copy. -/
def change (f : Object → Object) : InPlace Unit :=
  Eff.update fun documents => { documents with working := f documents.working }

/-- Change the copy, or raise and leave it as it is. -/
def tryChange (f : Object → Except PatchError Object) : InPlace Unit := do
  match f (← Eff.read Documents.working) with
  | .ok working => change fun _ => working
  | .error e => Eff.raise e

/-- The part of `_target` that makes the extension of a URN. -/
def makeExtension (urn : Option String) (resource : Object) : Object :=
  match truthy urn with
  | none => resource
  | some urn =>
    match get py resource urn with
    | .dict _ => resource
    | _ => assign resource urn (.dict [])

/-- `_apply_filtered`: the extension is there before the list is looked for. -/
def filteredInPlace (operation : Operation) (path : PatchPath) (predicate : Node) :
    InPlace Unit := do
  change (makeExtension py path.path.urn)
  tryChange fun working => applyFiltered py working operation path predicate

/-- `_apply_pathless`: the members before one that is refused are written. -/
def entriesInPlace (op : PatchOp) : Object → InPlace Unit
  | [] => pure ()
  | entry :: entries => do
    tryChange fun working => applyEntry py op working entry
    entriesInPlace op entries

/-- `_apply_one`. -/
def oneInPlace (operation : Operation) : InPlace Unit :=
  match operation.path with
  | none =>
    match operation.value with
    | .dict entries => entriesInPlace py operation.op entries
    | _ => Eff.raise ⟨"an operation without a path needs an object value", "invalidValue"⟩
  | some path =>
    match path.predicate with
    | some predicate => filteredInPlace py operation path predicate
    | none => tryChange fun working =>
        applyDirect py working operation.op operation.value path

/-- The loop of `apply_patch`, from an index on. -/
def loopInPlace : Nat → List Operation → InPlace Unit
  | _, [] => pure ()
  | index, operation :: operations => do
    match ← Eff.attempt (oneInPlace py operation) with
    | .ok () => loopInPlace (index + 1) operations
    | .error e => Eff.raise ⟨aboutOperation index (": " ++ e.detail), e.scimType⟩

/-- `apply_patch`. -/
def applyInPlace (operations : List Operation) : InPlace Object := do
  Eff.update fun documents => { documents with working := documents.resource }
  loopInPlace py 0 operations
  Eff.read Documents.working

/-! ## What stays -/

/-- The same keys in the same order, and the same values under all of them but one. -/
structure SameBut (k : String) (container result : Object) : Prop where
  keys : result.map Prod.fst = container.map Prod.fst
  rest : ∀ other, other ≠ k → result.lookup other = container.lookup other

/-- The list that names lead to. -/
def listAt : List String → Object → Option (List Json)
  | [], _ => none
  | [name], container =>
    match get py container name with
    | .list members => some members
    | _ => none
  | name :: names, container =>
    match get py container name with
    | .dict entries => listAt names entries
    | _ => none

/-- The list that names lead to is changed, and nothing else is. -/
def ListChanged (members members' : List Json) : List String → Object → Object → Prop
  | [], _, _ => False
  | [name], container, result => ∃ k, key py container name = some k ∧ SameBut k container result ∧
      container.lookup k = some (.list members) ∧ result.lookup k = some (.list members')
  | name :: names, container, result => ∃ k entries entries', key py container name = some k ∧
      SameBut k container result ∧ container.lookup k = some (.dict entries) ∧
      result.lookup k = some (.dict entries') ∧ ListChanged members members' names entries entries'

/-- The names that lead to what a path is about. -/
def targetNames (path : PatchPath) : List String :=
  (truthy path.path.urn).toList ++ path.path.attributeName ::
    match path.predicate with
    | some _ => []
    | none => (truthy path.subAttribute).toList

/-- What is done to a list keeps the members a filter does not select, in their order; and if it
is not the selected members that are removed, all members keep their places. -/
def KeepsUnselected (operation : Operation) (path : PatchPath) (predicate : Node)
    (members members' : List Json) : Prop :=
  (members.filter fun member => !selects py predicate member).Sublist members' ∧
    if operation.op = .remove ∧ truthy path.subAttribute = none then
      members' = members.filter fun member => !selects py predicate member
    else members'.length = members.length ∧
      ∀ i, i ∉ selectMembers py predicate members → members'[i]? = members[i]?

/-- What an operation with a value filter makes of a document. -/
def TouchesSelected (operation : Operation) (working result : Object) : Prop :=
  ∀ path predicate, operation.path = some path → path.predicate = some predicate →
    UrnFound py working path →
    (∀ members, listAt py (targetNames path) working = some members →
      ∃ members', ListChanged py members members' (targetNames path) working result ∧
        KeepsUnselected py operation path predicate members members') ∧
    (listAt py (targetNames path) working = none → ∀ k, SameBut k working result)

/-- What an addition without a filter makes of a list that is there; one without a path adds the
members of its value one after another. -/
def AddsBehind (operation : Operation) (working result : Object) : Prop :=
  operation.op = .add →
    (∀ path members, operation.path = some path → path.predicate = none →
      listAt py (targetNames path) working = some members →
        ListChanged py members (members ++ additions operation.value) (targetNames path)
          working result) ∧
    (∀ entries name value between members, operation.path = none →
      operation.value = .dict (entries ++ [(name, value)]) →
      applyOne py working { operation with value := .dict entries } = .ok between →
      listAt py [name] between = some members →
        ListChanged py members (members ++ additions value) [name] between result)

variable {py} {resource result container : Object} {name : String} {operation : Operation}
  {path : PatchPath}

/-- The program leaves what the function makes of the copy, or raises what the function does and
leaves any copy; the document of the caller it leaves alone. -/
structure Computes (program : InPlace Unit) (f : Object → Except PatchError Object) : Prop where
  ok : ∀ {resource working result}, f working = .ok result →
    program.run ⟨resource, working⟩ = (.ok (), ⟨resource, result⟩)
  error : ∀ {resource working e}, f working = .error e →
    ∃ left, program.run ⟨resource, working⟩ = (.error e, ⟨resource, left⟩)

theorem computes_tryChange (f : Object → Except PatchError Object) : Computes (tryChange f) f where
  ok h := by
    unfold tryChange
    rw [Eff.run_read_bind, h]
    rfl
  error {resource working e} h := by
    refine ⟨working, ?_⟩
    unfold tryChange
    rw [Eff.run_read_bind, h]
    rfl

theorem Computes.bind {first next : InPlace Unit} {f g : Object → Except PatchError Object}
    (hfirst : Computes first f) (hnext : Computes next g) :
    Computes (first >>= fun _ => next) fun working => f working >>= g where
  ok h := by
    obtain ⟨between, hf, hg⟩ := Eff.except_bind_eq_ok.mp h
    rw [Eff.run_bind_of_ok (hfirst.ok hf)]
    exact hnext.ok hg
  error {resource working e} h := by
    cases hf : f working with
    | error e' =>
      rw [hf] at h
      cases h
      obtain ⟨left, hrun⟩ : ∃ left, first.run ⟨resource, working⟩ = (.error e, ⟨resource, left⟩) :=
        hfirst.error hf
      exact ⟨left, Eff.run_bind_of_error hrun⟩
    | ok between =>
      rw [hf] at h
      rw [Eff.run_bind_of_ok (hfirst.ok hf)]
      exact hnext.error h

theorem onExtension_makeExtension (urn : Option String)
    (change : Object → Except PatchError Object) :
    onExtension py (makeExtension py urn resource) urn change =
      onExtension py resource urn change := by
  cases hurn : truthy urn with
  | none => rw [makeExtension, hurn]
  | some u =>
    by_cases hobject : ∃ extension, get py resource u = .dict extension
    · obtain ⟨extension, hget⟩ := hobject
      simp only [makeExtension, hurn, hget]
    · rw [not_exists] at hobject
      have hmade : makeExtension py urn resource = assign resource u (.dict []) := by
        simp only [makeExtension, hurn]
      have hkey : key py (assign resource u (.dict [])) u = some u :=
        truthy_eq_some.mpr ⟨Folded.spelling_of_mem
          (List.mem_map_of_mem (assign_mem resource u _)), (truthy_eq_some.mp hurn).2⟩
      have hget : get py (assign resource u (.dict [])) u = .dict [] := by
        rw [get_of_key hkey, lookup_assign, if_pos rfl]
        rfl
      rw [hmade]
      simp only [onExtension, hurn, hget, set_of_key hkey, assign_assign]

theorem applyFiltered_makeExtension (predicate : Node) :
    applyFiltered py (makeExtension py path.path.urn resource) operation path predicate =
      applyFiltered py resource operation path predicate := by
  unfold applyFiltered onTarget
  exact onExtension_makeExtension _ _

theorem computes_filtered (operation : Operation) (path : PatchPath) (predicate : Node) :
    Computes (filteredInPlace py operation path predicate) fun working =>
      applyFiltered py working operation path predicate where
  ok h := by
    unfold filteredInPlace change
    rw [Eff.run_update_bind]
    exact (computes_tryChange _).ok ((applyFiltered_makeExtension predicate).trans h)
  error h := by
    unfold filteredInPlace change
    rw [Eff.run_update_bind]
    exact (computes_tryChange _).error ((applyFiltered_makeExtension predicate).trans h)

theorem computes_entries (op : PatchOp) (entries : Object) :
    Computes (entriesInPlace py op entries) fun working =>
      entries.foldlM (applyEntry py op) working := by
  induction entries with
  | nil =>
    refine ⟨fun h => ?_, fun h => ?_⟩
    · cases h
      rfl
    · cases h
  | cons entry entries ih =>
    simp only [List.foldlM_cons]
    exact (computes_tryChange fun working => applyEntry py op working entry).bind ih

theorem computes_one (operation : Operation) :
    Computes (oneInPlace py operation) fun working => applyOne py working operation := by
  unfold oneInPlace applyOne applyPathless
  cases operation.path with
  | none =>
    cases operation.value with
    | dict entries => exact computes_entries _ entries
    | _ =>
      refine ⟨fun h => ?_, fun {resource working e} h => ⟨working, ?_⟩⟩
      · cases h
      · cases h
        rfl
  | some path =>
    simp only
    cases path.predicate with
    | some predicate => exact computes_filtered operation path predicate
    | none => exact computes_tryChange _

theorem computes_loop (operations : List Operation) : ∀ index,
    Computes (loopInPlace py index operations) fun working =>
      applyFrom py index working operations := by
  induction operations with
  | nil =>
    refine fun index => ⟨fun h => ?_, fun h => ?_⟩
    · cases h
      rfl
    · cases h
  | cons operation operations ih =>
    refine fun index => ⟨fun {resource working result} h => ?_, fun {resource working e} h => ?_⟩
    · rw [applyFrom] at h
      rw [loopInPlace, Eff.run_attempt_bind]
      cases hone : applyOne py working operation with
      | error e =>
        rw [hone] at h
        cases h
      | ok next =>
        rw [hone] at h
        rw [(computes_one operation).ok hone]
        exact (ih (index + 1)).ok h
    · rw [applyFrom] at h
      rw [loopInPlace, Eff.run_attempt_bind]
      cases hone : applyOne py working operation with
      | error e =>
        rw [hone] at h
        cases h
        obtain ⟨left, hrun⟩ : ∃ left, (oneInPlace py operation).run ⟨resource, working⟩ =
            (.error e, ⟨resource, left⟩) := (computes_one operation).error hone
        rw [hrun]
        exact ⟨left, rfl⟩
      | ok next =>
        rw [hone] at h
        rw [(computes_one operation).ok hone]
        exact (ih (index + 1)).error h

/-- **Working in place, on a copy,** gives what the operations make of the document, or the error,
and leaves the document. -/
theorem applyInPlace_run (operations : List Operation) (documents : Documents) :
    ∃ working, (applyInPlace py operations).run documents =
      (applyPatch py documents.resource operations, ⟨documents.resource, working⟩) := by
  unfold applyInPlace applyPatch
  rw [Eff.run_update_bind]
  cases hfrom : applyFrom py 0 documents.resource operations with
  | error e =>
    obtain ⟨left, hrun⟩ : ∃ left, (loopInPlace py 0 operations).run
        ⟨documents.resource, documents.resource⟩ = (.error e, ⟨documents.resource, left⟩) :=
      (computes_loop operations 0).error hfrom
    exact ⟨left, Eff.run_bind_of_error hrun⟩
  | ok result =>
    refine ⟨result, ?_⟩
    rw [Eff.run_bind_of_ok ((computes_loop operations 0).ok hfrom)]
    rfl

/-! ## Lists that are changed -/

theorem SameBut.refl (k : String) (container : Object) : SameBut k container container :=
  ⟨rfl, fun _ _ => rfl⟩

theorem sameBut_set {k : String} (h : key py container name = some k) (value : Json) :
    SameBut k container (set py container name value) := by
  rw [set_of_key h]
  refine ⟨keys_assign_of_mem (key_mem h) value, fun other hother => ?_⟩
  rw [lookup_assign, if_neg hother]

theorem lookup_set {k : String} (h : key py container name = some k) (value : Json) :
    (set py container name value).lookup k = some value := by
  rw [set_of_key h, lookup_assign, if_pos rfl]

theorem listChanged_set {members : List Json} (h : get py container name = .list members)
    (members' : List Json) : ListChanged py members members' [name] container
      (set py container name (.list members')) := by
  obtain ⟨k, hk, hlookup⟩ := mem_of_get h (by simp)
  exact ⟨k, hk, sameBut_set hk _, hlookup, lookup_set hk _⟩

theorem listChanged_cons {members members' : List Json} {names : List String}
    {entries entries' : Object} (h : get py container name = .dict entries)
    (hchanged : ListChanged py members members' names entries entries') :
    ListChanged py members members' (name :: names) container
      (set py container name (.dict entries')) := by
  obtain ⟨k, hk, hlookup⟩ := mem_of_get h (by simp)
  cases names with
  | nil => exact hchanged.elim
  | cons next names =>
    exact ⟨k, entries, entries', hk, sameBut_set hk _, hlookup, lookup_set hk _, hchanged⟩

theorem listChanged_self {members : List Json} (h : get py container name = .list members) :
    ListChanged py members members [name] container container := by
  obtain ⟨k, hk, hlookup⟩ := mem_of_get h (by simp)
  exact ⟨k, hk, .refl k container, hlookup, hlookup⟩

/-! ### The selected members -/

theorem changeSelected_eq {members : List Json} {predicate : Node}
    (hop : operation.op ≠ .remove ∨ truthy path.subAttribute ≠ none) :
    ∃ f : Json → Json, changeSelected py operation path members (selectMembers py predicate members) =
      members.map fun member => if selects py predicate member then f member else member := by
  unfold changeSelected
  by_cases hremove : operation.op = .remove
  · rw [if_pos hremove, removeSelected_eq]
    cases hsub : truthy path.subAttribute with
    | none => exact absurd hsub (hop.resolve_left (not_not_intro hremove))
    | some sub => exact ⟨deleteIn py sub, rfl⟩
  · rw [if_neg hremove]
    exact ⟨_, foldl_modify_indices _ _ members⟩

/-- **The members that are not selected** are kept. -/
theorem keepsUnselected_changeSelected (operation : Operation) (path : PatchPath)
    (predicate : Node) (members : List Json) :
    KeepsUnselected py operation path predicate members
      (changeSelected py operation path members (selectMembers py predicate members)) := by
  unfold KeepsUnselected
  by_cases hgone : operation.op = .remove ∧ truthy path.subAttribute = none
  · have hfilter : changeSelected py operation path members (selectMembers py predicate members) =
        members.filter fun member => !selects py predicate member := by
      rw [changeSelected, if_pos hgone.1, removeSelected_eq, hgone.2]
    rw [if_pos hgone, hfilter]
    exact ⟨.refl _, rfl⟩
  · obtain ⟨f, hf⟩ : ∃ f : Json → Json,
        changeSelected py operation path members (selectMembers py predicate members) =
          members.map fun member => if selects py predicate member then f member else member :=
      changeSelected_eq (not_and_or.mp hgone)
    rw [if_neg hgone, hf]
    refine ⟨?_, List.length_map _, fun i hi => ?_⟩
    · -- on the members that are not selected the pass is the identity
      have hsame : (members.filter fun member => !selects py predicate member).map
          (fun member => if selects py predicate member then f member else member) =
            members.filter fun member => !selects py predicate member := by
        refine (List.map_congr_left fun member hmember => ?_).trans (List.map_id _)
        have hnot : selects py predicate member = false := by
          simpa using (List.mem_filter.mp hmember).2
        rw [hnot]
        rfl
      exact hsame ▸ List.filter_sublist.map _
    · rw [List.getElem?_map]
      cases hmember : members[i]? with
      | none => rfl
      | some member =>
        have hnot : ¬ selects py predicate member = true := by
          intro hselects
          exact hi ((mem_indices _).mpr ⟨member, hmember, hselects⟩)
        rw [Option.map_some, if_neg hnot]

theorem listChanged_filtered {predicate : Node} {members : List Json}
    (hget : get py container name = .list members)
    (h : filtered py operation path predicate container name = .ok result) :
    ListChanged py members
      (changeSelected py operation path members (selectMembers py predicate members)) [name]
      container result := by
  unfold filtered at h
  rw [hget] at h
  dsimp only at h
  split at h
  · next hempty =>
    cases h
    have hsame : changeSelected py operation path members [] = members := by
      unfold changeSelected removeSelected writeSelected
      split
      · split
        · rfl
        · rfl
      · rfl
    rw [List.isEmpty_iff.mp hempty, hsame]
    exact listChanged_self hget
  · cases h
    exact listChanged_set hget _

theorem filtered_of_not_list {predicate : Node}
    (hget : ∀ members, get py container name ≠ .list members)
    (h : filtered py operation path predicate container name = .ok result) :
    result = container := by
  unfold filtered at h
  split at h
  · next members hlist => exact absurd hlist (hget members)
  · split at h
    · cases h
      rfl
    · cases h

theorem listAt_one {members : List Json} :
    listAt py [name] container = some members ↔ get py container name = .list members := by
  unfold listAt
  cases get py container name with
  | list items => simp
  | _ => simp

theorem listAt_cons {names : List String} {members : List Json} (hnames : names ≠ []) :
    listAt py (name :: names) container = some members ↔
      ∃ entries, get py container name = .dict entries ∧ listAt py names entries = some members := by
  cases names with
  | nil => exact absurd rfl hnames
  | cons next names =>
    rw [listAt]
    · cases get py container name with
      | dict entries => simp
      | _ => simp
    · simp

theorem listChanged_onExtension {urn : Option String} {names : List String}
    {members members' : List Json} {change : Object → Except PatchError Object}
    (hnames : names ≠ [])
    (hchange : ∀ container changed, listAt py names container = some members →
      change container = .ok changed →
        ListChanged py members members' names container changed)
    (hlist : listAt py ((truthy urn).toList ++ names) resource = some members)
    (h : onExtension py resource urn change = .ok result) :
    ListChanged py members members' ((truthy urn).toList ++ names) resource result := by
  cases hurn : truthy urn with
  | none =>
    simp only [onExtension, hurn, Option.toList_none, List.nil_append] at h hlist ⊢
    exact hchange _ _ hlist h
  | some u =>
    simp only [onExtension, hurn, Option.toList_some, List.singleton_append] at h hlist ⊢
    obtain ⟨extension, hget, hinner⟩ := (listAt_cons hnames).mp hlist
    simp only [hget] at h
    obtain ⟨changed, hchanged, hresult⟩ := Eff.except_bind_eq_ok.mp h
    cases hresult
    exact listChanged_cons hget (hchange _ _ hinner hchanged)

/-! ### An operation with a value filter -/

theorem inContainer_predicate {predicate : Node} (hpredicate : path.predicate = some predicate) :
    inContainer py operation path container =
      filtered py operation path predicate container path.path.attributeName := by
  simp only [inContainer, hpredicate]

theorem targetNames_predicate {predicate : Node} (hpredicate : path.predicate = some predicate) :
    targetNames path = (truthy path.path.urn).toList ++ [path.path.attributeName] := by
  simp only [targetNames, hpredicate]

theorem sameBut_set_self {value : Json} (h : get py container name = value)
    (hvalue : value ≠ .null) (k : String) : SameBut k container (set py container name value) := by
  obtain ⟨k', hk', hlookup⟩ := mem_of_get h hvalue
  have hsame := sameBut_set hk' value
  refine ⟨hsame.keys, fun other _ => ?_⟩
  by_cases hother : other = k'
  · rw [hother, lookup_set hk', hlookup]
  · exact hsame.rest other hother

theorem sameBut_of_not_list {predicate : Node} (hpredicate : path.predicate = some predicate)
    (hfound : UrnFound py resource path)
    (hlist : listAt py (targetNames path) resource = none)
    (h : onExtension py resource path.path.urn (inContainer py operation path) = .ok result)
    (k : String) : SameBut k resource result := by
  rw [targetNames_predicate hpredicate] at hlist
  have hnone : ∀ container, listAt py [path.path.attributeName] container = none →
      ∀ changed, inContainer py operation path container = .ok changed → changed = container := by
    intro container hnot changed hchanged
    rw [inContainer_predicate hpredicate] at hchanged
    refine filtered_of_not_list (fun members hget => ?_) hchanged
    rw [listAt_one.mpr hget] at hnot
    cases hnot
  cases hurn : truthy path.path.urn with
  | none =>
    simp only [onExtension, hurn, Option.toList_none, List.nil_append] at h hlist
    rw [hnone _ hlist _ h]
    exact .refl k _
  | some u =>
    obtain ⟨extension, hget⟩ := hfound u hurn
    simp only [onExtension, hurn, hget, Option.toList_some, List.singleton_append] at h hlist
    obtain ⟨changed, hchanged, hresult⟩ := Eff.except_bind_eq_ok.mp h
    cases hresult
    have hinner : listAt py [path.path.attributeName] extension = none := by
      simpa [listAt, hget] using hlist
    rw [hnone _ hinner _ hchanged]
    exact sameBut_set_self hget (by simp) k

theorem touchesSelected_applyOne (h : applyOne py resource operation = .ok result) :
    TouchesSelected py operation resource result := by
  intro path predicate hpath hpredicate hfound
  rw [applyOne_of_path hpath] at h
  refine ⟨fun members hlist => ⟨_, ?_, keepsUnselected_changeSelected operation path predicate
    members⟩, fun hlist k => sameBut_of_not_list hpredicate hfound hlist h k⟩
  rw [targetNames_predicate hpredicate] at hlist ⊢
  refine listChanged_onExtension (List.cons_ne_nil _ _) (fun container changed hget hchanged => ?_)
    hlist h
  rw [inContainer_predicate hpredicate] at hchanged
  exact listChanged_filtered (listAt_one.mp hget) hchanged

/-! ### An addition without a filter -/

theorem direct_add {members : List Json} (h : get py container name = .list members)
    (value : Json) : direct py .add value container name =
      set py container name (.list (members ++ additions value)) := by
  simp only [direct, h]

theorem listChanged_add {members : List Json} (hadd : operation.op = .add)
    (hpredicate : path.predicate = none) {changed : Object}
    (hlist : listAt py (path.path.attributeName :: (truthy path.subAttribute).toList) container =
      some members)
    (h : inContainer py operation path container = .ok changed) :
    ListChanged py members (members ++ additions operation.value)
      (path.path.attributeName :: (truthy path.subAttribute).toList) container changed := by
  cases hsub : truthy path.subAttribute with
  | none =>
    simp only [inContainer, hpredicate, hsub, hadd, Option.toList_none] at h hlist ⊢
    have hget := listAt_one.mp hlist
    rw [direct_add hget] at h
    cases h
    exact listChanged_set hget _
  | some sub =>
    simp only [inContainer, hpredicate, hsub, hadd, Option.toList_some] at h hlist ⊢
    obtain ⟨parent, hget, hinner⟩ := (listAt_cons (by simp)).mp hlist
    have hmembers := listAt_one.mp hinner
    rw [hget, entriesOf, direct_add hmembers] at h
    cases h
    exact listChanged_cons hget (listChanged_set hmembers _)

theorem listChanged_applyEntry {members : List Json} {value : Json}
    (hget : get py resource name = .list members)
    (h : applyEntry py .add resource (name, value) = .ok result) :
    ListChanged py members (members ++ additions value) [name] resource result := by
  unfold applyEntry at h
  split at h
  · cases h
  · have hset : direct py .add value resource name = result := Except.ok.inj h
    rw [← hset, direct_add hget]
    exact listChanged_set hget _

theorem addsBehind_applyOne (h : applyOne py resource operation = .ok result) :
    AddsBehind py operation resource result := by
  intro hadd
  constructor
  · intro path members hpath hpredicate hlist
    rw [applyOne_of_path hpath] at h
    have hnames : targetNames path = (truthy path.path.urn).toList ++
        path.path.attributeName :: (truthy path.subAttribute).toList := by
      simp only [targetNames, hpredicate]
    rw [hnames] at hlist ⊢
    exact listChanged_onExtension (List.cons_ne_nil _ _)
      (fun container changed hget hchanged => listChanged_add hadd hpredicate hget hchanged) hlist h
  · intro entries name value between members hpath hvalue hbetween hlist
    have hfirst : entries.foldlM (applyEntry py .add) resource = .ok between := by
      rw [applyOne, hpath] at hbetween
      rw [← hadd]
      exact hbetween
    rw [applyOne, hpath] at h
    simp only [applyPathless, hvalue, hadd] at h
    obtain ⟨last, hrest, hlast⟩ := Eff.foldlM_concat_eq_ok.mp h
    obtain rfl : between = last := Except.ok.inj (hfirst.symm.trans hrest)
    exact listChanged_applyEntry (listAt_one.mp hlist) hlast

/-! ### Lists of operations -/

/-- **PATCH with a value filter.**  The document of the caller stays as it is, whatever the
outcome; and after any operations before it, an operation with a value filter touches the selected
members alone, and an addition without a filter adds behind what is there. -/
theorem applyPatch_touchesSelected (py : Builtins) (resource : Object) :
    (∀ operations copy, ∃ working, (applyInPlace py operations).run ⟨resource, copy⟩ =
      (applyPatch py resource operations, ⟨resource, working⟩)) ∧
    ∀ before operation working result, applyPatch py resource before = .ok working →
      applyPatch py resource (before ++ [operation]) = .ok result →
        TouchesSelected py operation working result ∧ AddsBehind py operation working result := by
  refine ⟨fun operations copy => applyInPlace_run operations ⟨resource, copy⟩,
    fun before operation working result hbefore hafter => ?_⟩
  rw [applyPatch_ok] at hbefore hafter
  obtain ⟨last, hrest, hlast⟩ := Eff.foldlM_concat_eq_ok.mp hafter
  obtain rfl : working = last := Except.ok.inj (hbefore.symm.trans hrest)
  exact ⟨touchesSelected_applyOne hlast, addsBehind_applyOne hlast⟩

/-- An address as a member of `emails`. -/
def mailAt (address type : String) : Json :=
  .dict [("value", .str address), ("type", .str type)]

/-- `emails[type eq "work"].value`. -/
def workMail : PatchPath :=
  ⟨⟨"emails", none, none⟩, some (.comparison ⟨"type", none, none⟩ .eq (.str "work")), some "value"⟩

/-- A new name is given first; the address at work is replaced then, the one at home stays where
it is, and so does the name. -/
theorem touchesSelected_workMail : ∃ working result,
    applyPatch .ascii
        [("userName", .str "sam"), ("emails", .list [mailAt "s@home" "home", mailAt "s@a" "work"])]
        [⟨.replace, some ⟨⟨"userName", none, none⟩, none, none⟩, .str "kim"⟩,
          ⟨.replace, some workMail, .str "s@b"⟩] = .ok result ∧
      result.lookup "userName" = some (.str "kim") ∧
      ∃ members', ListChanged .ascii [mailAt "s@home" "home", mailAt "s@a" "work"] members'
          ["emails"] working result ∧
        members'[0]? = some (mailAt "s@home" "home") := by
  have htouches := ((applyPatch_touchesSelected .ascii
    [("userName", .str "sam"), ("emails", .list [mailAt "s@home" "home", mailAt "s@a" "work"])]).2
      [⟨.replace, some ⟨⟨"userName", none, none⟩, none, none⟩, .str "kim"⟩]
      ⟨.replace, some workMail, .str "s@b"⟩ _ _ rfl rfl).1
  obtain ⟨members', hchanged, -, hplaces⟩ :=
    (htouches workMail _ rfl rfl (fun _ hurn => nomatch hurn)).1 _ rfl
  rw [if_neg (by decide)] at hplaces
  refine ⟨_, _, rfl, ?_, members', hchanged, hplaces.2 0 (by decide)⟩
  obtain ⟨k, hk, hsame, -⟩ := hchanged
  cases hk
  exact hsame.rest "userName" (by decide)

end Patch
end Scim
end CampusID
