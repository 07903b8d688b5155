import CampusID.Scim.Patching

/-!
# What a PATCH may not change

`id`, `schemas` and `meta` are refused as the attribute of a path and as a name in an operation
without one, in any case.  The schema URN of a path is not looked at, and a URN is a key of the
document like any other: `meta:version` reads as the attribute `version` of the extension `meta`.

The attribute is kept by every operation that does not name it as its URN
(`attributePart_applyOne`).  One that does leaves an object under the name, whatever was there
(`HoldsObject`), so an attribute that is no object is kept by no other list of operations.
-/

namespace CampusID
namespace Scim
namespace Patch

open Lib
open Audit (Json)

variable (py : Builtins)

/-- What a resource has under a name, in any case. -/
def attributePart (name : String) (resource : Object) : Object :=
  Folded.part py.lower (· = name) resource

/-- The values under `id`, `schemas` and `meta` are the same. -/
def ImmutableKept (resource result : Object) : Prop :=
  ∀ name ∈ immutableNames, attributePart py name result = attributePart py name resource

/-- The path of an operation has the name, in any case, for its schema URN. -/
def Operation.NamesExtension (name : String) (operation : Operation) : Prop :=
  ∃ path urn, operation.path = some path ∧ truthy path.path.urn = some urn ∧ py.lower urn = name

/-- The attribute of the path, if there is one, may be changed. -/
def Operation.Changeable (operation : Operation) : Prop :=
  ∀ path, operation.path = some path → isImmutable py path.path.attributeName = false

/-- There is an object under the name. -/
def HoldsObject (name : String) (resource : Object) : Prop :=
  ∃ entry ∈ attributePart py name resource, ∃ entries, entry.2 = .dict entries

variable {py} {resource result working : Object} {name : String} {operation : Operation}
  {operations : List Operation}

/-! ## What the parser lets through -/

theorem readTarget_changeable {entry : Object} {index : Nat} {path : PatchPath}
    (h : readTarget py entry index = .ok (some path)) :
    isImmutable py path.path.attributeName = false := by
  unfold readTarget at h
  split at h
  · cases h
  · cases h
  · split at h
    · cases h
    · split at h
      · cases h
      · next hmutable =>
        cases h
        exact Bool.eq_false_iff.mpr hmutable
  · cases h

theorem parseOne_changeable {entry : Json} {index : Nat}
    (h : parseOne py entry index = .ok operation) : Operation.Changeable py operation := by
  intro path hpath
  unfold parseOne at h
  split at h
  · obtain ⟨op, -, h⟩ := Eff.except_bind_eq_ok.mp h
    obtain ⟨target, htarget, h⟩ := Eff.except_bind_eq_ok.mp h
    split at h
    · cases h
    · split at h
      · cases h
      · cases h
        exact readTarget_changeable (htarget.trans (congrArg _ hpath))
  · cases h

theorem parseOperations_changeable {body : Json}
    (h : parseOperations py body = .ok operations) :
    ∀ operation ∈ operations, Operation.Changeable py operation :=
  parseOperations_forall parseOne_changeable h

/-! ## Operations that keep an attribute -/

theorem ne_of_changeable {other : String} (hname : name ∈ immutableNames)
    (h : isImmutable py other = false) : decide (py.lower other = name) = false := by
  refine decide_eq_false fun heq => ?_
  rw [isImmutable, heq, List.contains_eq_mem, decide_eq_false_iff_not] at h
  exact h hname

theorem attributePart_onExtension {urn : Option String}
    {change : Object → Except PatchError Object}
    (hurn : ∀ u, truthy urn = some u → py.lower u ≠ name)
    (hchange : ∀ container, change resource = .ok container →
      attributePart py name container = attributePart py name resource)
    (h : onExtension py resource urn change = .ok result) :
    attributePart py name result = attributePart py name resource := by
  rcases onExtension_ok h with ⟨-, h⟩ | ⟨u, extension, written, hu, -, rfl, hlower, -⟩
  · exact hchange _ h
  · refine Folded.part_assign ?_ _
    rw [hlower]
    exact decide_eq_false (hurn u hu)

theorem attributePart_onTarget {path : PatchPath}
    {change : Object → String → Except PatchError Object} (hname : name ∈ immutableNames)
    (hattribute : isImmutable py path.path.attributeName = false)
    (hurn : ∀ u, truthy path.path.urn = some u → py.lower u ≠ name)
    (hchange : ∀ container attributeName container', py.lower attributeName ≠ name →
      change container attributeName = .ok container' →
      attributePart py name container' = attributePart py name container)
    (h : onTarget py resource path change = .ok result) :
    attributePart py name result = attributePart py name resource := by
  have hother := ne_of_changeable hname hattribute
  refine attributePart_onExtension hurn (fun container hcontainer => ?_) h
  split at hcontainer
  · obtain ⟨parent, -, hparent⟩ := Eff.except_bind_eq_ok.mp hcontainer
    cases hparent
    exact part_set hother _
  · exact hchange _ _ _ (of_decide_eq_false hother) hcontainer

theorem attributePart_applyDirect {path : PatchPath} {op : PatchOp} {value : Json}
    (hname : name ∈ immutableNames)
    (hattribute : isImmutable py path.path.attributeName = false)
    (hurn : ∀ u, truthy path.path.urn = some u → py.lower u ≠ name)
    (h : applyDirect py resource op value path = .ok result) :
    attributePart py name result = attributePart py name resource := by
  refine attributePart_onTarget hname hattribute hurn (fun container other _ hother hc => ?_) h
  cases hc
  exact part_direct (decide_eq_false hother) op value

/-- **An operation keeps what it does not name as its URN.** -/
theorem attributePart_applyOne (hname : name ∈ immutableNames)
    (hchangeable : Operation.Changeable py operation)
    (hurn : ¬ Operation.NamesExtension py name operation)
    (h : applyOne py resource operation = .ok result) :
    attributePart py name result = attributePart py name resource := by
  unfold applyOne at h
  split at h
  · -- without a path: every member of the value is checked on its own
    unfold applyPathless at h
    split at h
    · refine Eff.foldlM_ok_related
        (R := fun before after => attributePart py name after = attributePart py name before)
        (fun _ => rfl) (fun _ _ _ hab hbc => hbc.trans hab) (fun entry _ before after hentry => ?_) h
      unfold applyEntry at hentry
      split at hentry
      · cases hentry
      · next hmutable =>
        refine attributePart_applyDirect hname (Bool.eq_false_iff.mpr hmutable) ?_ hentry
        intro u hu
        cases (truthy_eq_some.mp hu).1
    · cases h
  · next path hpath =>
    have hattribute := hchangeable path hpath
    have hother : ∀ u, truthy path.path.urn = some u → py.lower u ≠ name :=
      fun u hu heq => hurn ⟨path, u, hpath, hu, heq⟩
    split at h
    · refine attributePart_onTarget hname ?_ ?_ (fun container other _ hne hc => ?_) h
      · exact hattribute
      · exact hother
      · exact part_filtered (decide_eq_false hne) hc
    · exact attributePart_applyDirect hname hattribute hother h

/-! ## Operations that do not -/

/-- **An operation that names it as its URN** leaves an object there. -/
theorem holdsObject_of_names (hurn : Operation.NamesExtension py name operation)
    (h : applyOne py resource operation = .ok result) : HoldsObject py name result := by
  obtain ⟨path, u, hpath, hu, hlower⟩ := hurn
  have hwritten : ∀ {change : Object → Except PatchError Object},
      onExtension py resource path.path.urn change = .ok result → HoldsObject py name result := by
    intro change hchange
    rcases onExtension_ok hchange with ⟨hnone, -⟩ | ⟨u', extension, written, hu', -, rfl, hsame, -⟩
    · rw [hnone] at hu
      cases hu
    · obtain rfl : u = u' := Option.some.inj (hu.symm.trans hu')
      refine ⟨(written, .dict extension), List.mem_filter.mpr ⟨assign_mem .., ?_⟩, extension, rfl⟩
      simp [hsame, hlower]
  unfold applyOne at h
  rw [hpath] at h
  simp only at h
  split at h
  · unfold applyFiltered onTarget at h
    exact hwritten h
  · unfold applyDirect onTarget at h
    exact hwritten h

theorem HoldsObject.applyOne (hname : name ∈ immutableNames)
    (hchangeable : Operation.Changeable py operation) (hold : HoldsObject py name resource)
    (h : applyOne py resource operation = .ok result) : HoldsObject py name result := by
  by_cases hurn : Operation.NamesExtension py name operation
  · exact holdsObject_of_names hurn h
  · rw [HoldsObject, attributePart_applyOne hname hchangeable hurn h]
    exact hold

theorem HoldsObject.run (hname : name ∈ immutableNames)
    (hchangeable : ∀ operation ∈ operations, Operation.Changeable py operation)
    (hold : HoldsObject py name resource)
    (h : operations.foldlM (Patch.applyOne py) resource = .ok result) :
    HoldsObject py name result :=
  Eff.foldlM_ok_related (R := fun before after => HoldsObject py name before →
    HoldsObject py name after) (fun _ => id) (fun _ _ _ hab hbc => hbc ∘ hab)
    (fun operation hmem _ _ hone hbefore => hbefore.applyOne hname (hchangeable operation hmem) hone)
    h hold

theorem holdsObject_of_run (hname : name ∈ immutableNames)
    (hchangeable : ∀ operation ∈ operations, Operation.Changeable py operation)
    (hurn : ∃ operation ∈ operations, Operation.NamesExtension py name operation)
    (h : operations.foldlM (applyOne py) resource = .ok result) : HoldsObject py name result := by
  induction operations generalizing resource with
  | nil =>
    obtain ⟨operation, hmem, -⟩ := hurn
    cases hmem
  | cons first operations ih =>
    rw [List.foldlM_cons] at h
    obtain ⟨next, hfirst, hrest⟩ := Eff.except_bind_eq_ok.mp h
    obtain ⟨-, hothers⟩ := List.forall_mem_cons.mp hchangeable
    obtain ⟨operation, hmem, hnames⟩ := hurn
    rcases List.mem_cons.mp hmem with rfl | hmem
    · exact (holdsObject_of_names hnames hfirst).run hname hothers hrest
    · exact ih hothers ⟨operation, hmem, hnames⟩ hrest

/-- **The immutable attributes are kept** by the operations of a body none of which names one as
its URN, and an attribute that is no object is kept by no others. -/
theorem immutableKept_of_parsed {body : Json} (hparse : parseOperations py body = .ok operations)
    (happly : applyPatch py resource operations = .ok result) :
    ((∀ name ∈ immutableNames, ∀ operation ∈ operations,
        ¬ Operation.NamesExtension py name operation) → ImmutableKept py resource result) ∧
      ∀ name ∈ immutableNames, ¬ HoldsObject py name resource →
        (attributePart py name result = attributePart py name resource ↔
          ∀ operation ∈ operations, ¬ Operation.NamesExtension py name operation) := by
  have hchangeable := parseOperations_changeable hparse
  have hrun := applyPatch_ok.mp happly
  have hkept : ∀ name ∈ immutableNames,
      (∀ operation ∈ operations, ¬ Operation.NamesExtension py name operation) →
        attributePart py name result = attributePart py name resource := by
    intro name hname hnone
    refine Eff.foldlM_ok_related
      (R := fun before after => attributePart py name after = attributePart py name before)
      (fun _ => rfl) (fun _ _ _ hab hbc => hbc.trans hab) (fun operation hmem _ _ hone => ?_) hrun
    exact attributePart_applyOne hname (hchangeable operation hmem) (hnone operation hmem) hone
  refine ⟨fun hnone name hname => hkept name hname (hnone name hname), fun name hname hno => ?_⟩
  refine ⟨fun hsame operation hmem hnames => hno ?_, hkept name hname⟩
  have hold := holdsObject_of_run hname hchangeable ⟨operation, hmem, hnames⟩ hrun
  rwa [HoldsObject, hsame] at hold

/-! ## A version of one's own -/

/-- A body with one operation. -/
def oneOperation (operation : Object) : Json :=
  .dict [("schemas", .list [.str patchOpSchema]), ("Operations", .list [.dict operation])]

/-- A person as a resource. -/
def samira : Object :=
  [("schemas", .list [.str "urn:ietf:params:scim:schemas:core:2.0:User"]), ("id", .str "2819c223"),
    ("userName", .str "sam.obrien"), ("meta", .dict [("version", .str "W/\"1\"")])]

/-- A new user name leaves `meta` alone, for one. -/
theorem immutableKept_of_userName :
    ImmutableKept Builtins.ascii samira (set .ascii samira "userName" (.str "s.obrien")) := by
  have hparse : parseOperations .ascii (oneOperation
      [("op", .str "replace"), ("path", .str "userName"), ("value", .str "s.obrien")]) =
      .ok [⟨.replace, some ⟨⟨"userName", none, none⟩, none, none⟩, .str "s.obrien"⟩] := by rfl
  refine (immutableKept_of_parsed hparse rfl).1 ?_
  rintro name - operation hmem ⟨path, urn, hpath, hurn, -⟩
  rw [List.mem_singleton] at hmem
  subst hmem
  cases hpath
  cases hurn

/-- **`meta:version` writes the version**, as any extension. -/
theorem not_immutableKept : ¬ ∀ (py : Builtins) (body : Json) (operations : List Operation)
    (resource result : Object), parseOperations py body = .ok operations →
      (∀ name ∈ immutableNames, name ∈ resource.map Prod.fst) →
        applyPatch py resource operations = .ok result → ImmutableKept py resource result := by
  intro h
  have hparse : parseOperations .ascii (oneOperation
      [("op", .str "replace"), ("path", .str "meta:version"), ("value", .str "W/\"9\"")]) =
      .ok [⟨.replace, some ⟨⟨"version", none, some "meta"⟩, none, none⟩, .str "W/\"9\""⟩] := by rfl
  have hkept := h .ascii _ _ samira _ hparse (by decide) rfl "meta" (by decide)
  have hentry : ("meta", Json.dict [("version", .str "W/\"9\"")]) =
      ("meta", .dict [("version", .str "W/\"1\"")]) := List.head_eq_of_cons_eq hkept
  injection hentry with _ hvalue
  injection hvalue with hentries
  injection hentries with hhead _
  injection hhead with _ hversion
  injection hversion with htext
  exact absurd htext (by decide)

end Patch
end Scim
end CampusID
