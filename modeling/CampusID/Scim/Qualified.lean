import CampusID.Scim.Patching
import CampusID.Scim.Resources

/-!
# Core attributes under their URN

`urn:ietf:params:scim:schemas:core:2.0:User:userName` qualifies `userName`.  The parser splits the
URN off, and both the reader of a filter and the writer of a PATCH look for a container under it, as
for an extension.  A User document has none: its core attributes stand in the document itself.

So a filter finds nothing under a qualified name (`usesAgree_iff`), and a PATCH makes a container
that no other document has (`patchesAgree_iff`).
-/

namespace CampusID
namespace Scim

open Lib
open Audit (Json)

/-- A User document: nothing in it stands under the URN of the core schema, in any case. -/
def IsUserDocument (py : Builtins) (document : Object) : Prop :=
  ∀ entry ∈ document, py.lower entry.1 ≠ py.lower coreUser

/-- The path under the URN of the core schema. -/
def AttrPath.qualified (path : AttrPath) : AttrPath := { path with urn := some coreUser }

/-- The target of a PATCH under the URN of the core schema. -/
def PatchPath.qualified (path : PatchPath) : PatchPath := { path with path := path.path.qualified }

/-- The ways a filter uses a path. -/
inductive Use where
  | compared (operator : Operator) (value : Literal)
  | present
  | having (predicate : Node)

/-- The filter that uses a path in some way. -/
def Use.on (path : AttrPath) : Use → Node
  | .compared operator value => .comparison path operator value
  | .present => .present path
  | .having predicate => .valuePath path predicate

section Definitions

variable (py : Builtins)

/-- **Filters agree on a path**, with its URN and without. -/
def UsesAgree (document : Object) (path : AttrPath) : Prop :=
  ∀ use : Use, (use.on path.qualified).matchesIn py document = (use.on path).matchesIn py document

/-- **A PATCH operation gives the same document** under the qualified path, or is refused under
both. -/
def PatchesAgree (document : Object) (op : PatchOp) (path : PatchPath) (value : Json) : Prop :=
  (Patch.applyOne py document ⟨op, some path.qualified, value⟩).toOption =
    (Patch.applyOne py document ⟨op, some path, value⟩).toOption

end Definitions

variable {py : Builtins} {document : Object} {path : AttrPath}

/-! ## Reading -/

theorem getInsensitive_coreUser (hdoc : IsUserDocument py document) :
    getInsensitive py document coreUser = .null := by
  rw [getInsensitive, Folded.spelling_eq_none.mpr hdoc]
  rfl

theorem readPath_qualified (hdoc : IsUserDocument py document) (path : AttrPath) :
    readPath py document path.qualified = .null := by
  have hurn : truthy path.qualified.urn = some coreUser := rfl
  unfold readPath
  rw [hurn]
  dsimp only
  rw [getInsensitive_coreUser hdoc]
  cases path.qualified.subAttribute <;> rfl

theorem matchesIn_use {path path' : AttrPath} (use : Use)
    (h : readPath py document path = readPath py document path') :
    (use.on path).matchesIn py document = (use.on path').matchesIn py document := by
  cases use with
  | compared operator value => simp only [Use.on, Node.matchesIn, compare, h]
  | present => simp only [Use.on, Node.matchesIn, h]
  | having predicate => simp only [Use.on, Node.matchesIn, h]

/-- **When filters agree**: where the document has no value. -/
theorem usesAgree_iff (hdoc : IsUserDocument py document) :
    UsesAgree py document path ↔ readPath py document path = .null := by
  have hqualified := readPath_qualified hdoc path
  constructor
  · intro h
    have hequal := h (.compared .ne (.str ""))
    have hnull := h (.compared .ne .null)
    have hpresent := h .present
    simp only [Use.on, Node.matchesIn, compare, hqualified] at hequal hnull hpresent
    cases hvalue : readPath py document path with
    | null => rfl
    | list items =>
      rw [hvalue] at hequal hpresent
      cases items with
      | nil => simp [compareOne, isEqual] at hequal
      | cons item items => simp [isPresent] at hpresent
    | bool b =>
      rw [hvalue] at hnull
      simp [compareOne, isEqual] at hnull
    | num n =>
      rw [hvalue] at hnull
      simp [compareOne, isEqual] at hnull
    | str s =>
      rw [hvalue] at hnull
      simp [compareOne, isEqual] at hnull
    | dict entries =>
      rw [hvalue] at hnull
      simp [compareOne, isEqual] at hnull
  · intro h use
    exact matchesIn_use use (hqualified.trans h.symm)

/-! ## Writing -/

namespace Patch

theorem part_inContainer {P : String → Bool} {operation : Operation} {path : PatchPath}
    {container result : Object} (hname : P (py.lower path.path.attributeName) = false)
    (h : inContainer py operation path container = .ok result) :
    Folded.part py.lower P result = Folded.part py.lower P container := by
  unfold inContainer at h
  split at h
  · exact part_filtered hname h
  · cases h
    exact part_direct hname _ _
  · cases h
    exact part_set hname _

end Patch

theorem applyOne_qualified (hdoc : IsUserDocument py document) (op : PatchOp) (path : PatchPath)
    (value : Json) : Patch.applyOne py document ⟨op, some path.qualified, value⟩ =
      (do return assign document coreUser (.dict
        (← Patch.inContainer py ⟨op, some path.qualified, value⟩ path.qualified []))) := by
  have hnothing : Patch.get py document coreUser = .null := by
    refine Patch.get_of_key_eq_none ?_
    rw [Patch.key, Folded.spelling_eq_none.mpr hdoc]
    rfl
  have hurn : truthy path.qualified.path.urn = some coreUser := rfl
  rw [Patch.applyOne_of_path rfl]
  unfold Patch.onExtension
  rw [hurn]
  dsimp only
  rw [hnothing]

theorem applyOne_unqualified {path : PatchPath} (hurn : path.path.urn = none) (op : PatchOp)
    (value : Json) : Patch.applyOne py document ⟨op, some path, value⟩ =
      Patch.inContainer py ⟨op, some path, value⟩ path document := by
  rw [Patch.applyOne_of_path rfl, hurn]
  rfl

theorem inContainer_ok {path : PatchPath} (h : path.predicate = none) (operation : Operation)
    (container : Object) :
    ∃ result, Patch.inContainer py operation path container = .ok result := by
  unfold Patch.inContainer
  rw [h]
  cases truthy path.subAttribute with
  | none => exact ⟨_, rfl⟩
  | some sub => exact ⟨_, rfl⟩

theorem inContainer_filter {path : PatchPath} {predicate : Node}
    (h : path.predicate = some predicate) (operation : Operation) (container : Object) :
    Patch.inContainer py operation path container =
      Patch.filtered py operation path predicate container path.path.attributeName := by
  unfold Patch.inContainer
  rw [h]

theorem filtered_ok_iff {path : PatchPath} {operation : Operation} {predicate : Node}
    {container : Object} {name : String} :
    (∃ result, Patch.filtered py operation path predicate container name = .ok result) ↔
      operation.op = .remove ∨ ∃ items, Patch.get py container name = .list items := by
  unfold Patch.filtered
  split
  · rename_i members hmembers
    refine iff_of_true ?_ (.inr ⟨members, hmembers⟩)
    split
    · exact ⟨_, rfl⟩
    · exact ⟨_, rfl⟩
  · rename_i hother
    split
    · rename_i hremove
      exact iff_of_true ⟨_, rfl⟩ (.inl hremove)
    · rename_i hwrite
      refine iff_of_false (fun ⟨_, h⟩ => nomatch h) ?_
      rintro (hremove | ⟨items, hitems⟩)
      · exact hwrite hremove
      · exact hother items hitems

theorem inContainer_ne {path : PatchPath} {operation : Operation} {result extension : Object}
    (hdoc : IsUserDocument py document)
    (hname : py.lower path.path.attributeName ≠ py.lower coreUser)
    (h : Patch.inContainer py operation path document = .ok result) :
    assign document coreUser (.dict extension) ≠ result := by
  rintro rfl
  have hpart := Patch.part_inContainer (P := fun name => decide (name = py.lower coreUser))
    (decide_eq_false hname) h
  have hmem : (coreUser, Json.dict extension) ∈ Folded.part py.lower
      (fun name => decide (name = py.lower coreUser))
      (assign document coreUser (.dict extension)) :=
    List.mem_filter.mpr ⟨assign_mem _ _ _, decide_eq_true rfl⟩
  rw [hpart] at hmem
  obtain ⟨hmem, hlower⟩ := List.mem_filter.mp hmem
  exact hdoc _ hmem (of_decide_eq_true hlower)

/-- **When a PATCH operation agrees**: when it is refused under both paths, because it adds or
replaces through a filter and the attribute is no list. -/
theorem patchesAgree_iff {path : PatchPath} {op : PatchOp} {value : Json}
    (hdoc : IsUserDocument py document) (hurn : path.path.urn = none)
    (hname : py.lower path.path.attributeName ≠ py.lower coreUser) :
    PatchesAgree py document op path value ↔
      path.predicate.isSome ∧ op ≠ .remove ∧
        ∀ items, Patch.get py document path.path.attributeName ≠ .list items := by
  have hdiffer : ∀ {result extension : Object},
      Patch.inContainer py ⟨op, some path.qualified, value⟩ path.qualified [] = .ok extension →
      Patch.inContainer py ⟨op, some path, value⟩ path document = .ok result →
        ¬ PatchesAgree py document op path value := by
    intro result extension hqualified hplain hagree
    rw [PatchesAgree, applyOne_qualified hdoc, applyOne_unqualified hurn, hqualified, hplain] at hagree
    exact inContainer_ne hdoc hname hplain (Option.some.inj hagree)
  cases hpredicate : path.predicate with
  | none =>
    obtain ⟨extension, hqualified⟩ : ∃ extension, Patch.inContainer py
        ⟨op, some path.qualified, value⟩ path.qualified [] = .ok extension :=
      inContainer_ok (show path.qualified.predicate = none from hpredicate) _ _
    obtain ⟨result, hplain⟩ : ∃ result, Patch.inContainer py ⟨op, some path, value⟩ path
        document = .ok result := inContainer_ok hpredicate _ _
    exact iff_of_false (hdiffer hqualified hplain) (by simp)
  | some predicate =>
    have hempty : Patch.get py [] path.path.attributeName = .null := rfl
    have hqualified : (∃ extension, Patch.inContainer py ⟨op, some path.qualified, value⟩
        path.qualified [] = .ok extension) ↔ op = .remove := by
      have hfilter : path.qualified.predicate = some predicate := hpredicate
      rw [inContainer_filter hfilter, filtered_ok_iff]
      show op = .remove ∨ (∃ items, Patch.get py [] path.path.attributeName = .list items) ↔ _
      rw [hempty]
      simp
    have hplain : (∃ result, Patch.inContainer py ⟨op, some path, value⟩ path document =
        .ok result) ↔ op = .remove ∨
          ∃ items, Patch.get py document path.path.attributeName = .list items := by
      rw [inContainer_filter hpredicate, filtered_ok_iff]
    by_cases hremove : op = .remove
    · obtain ⟨extension, hextension⟩ := hqualified.mpr hremove
      obtain ⟨result, hresult⟩ := hplain.mpr (.inl hremove)
      exact iff_of_false (hdiffer hextension hresult) fun h => h.2.1 hremove
    · -- the qualified path is refused, so the other has to be refused too
      have hrefused : (Patch.applyOne py document ⟨op, some path.qualified, value⟩).toOption =
          none := by
        rw [applyOne_qualified hdoc]
        cases hcontainer : Patch.inContainer py ⟨op, some path.qualified, value⟩ path.qualified []
          with
        | ok extension => exact absurd (hqualified.mp ⟨extension, hcontainer⟩) hremove
        | error e => rfl
      rw [PatchesAgree, hrefused, applyOne_unqualified hurn]
      cases hcontainer : Patch.inContainer py ⟨op, some path, value⟩ path document with
      | ok result =>
        refine iff_of_false (fun h => nomatch h) fun h => ?_
        obtain ⟨items, hitems⟩ := (hplain.mp ⟨result, hcontainer⟩).resolve_left hremove
        exact h.2.2 items hitems
      | error e =>
        refine iff_of_true rfl ⟨rfl, hremove, fun items hitems => ?_⟩
        obtain ⟨result, hresult⟩ := hplain.mpr (.inr ⟨items, hitems⟩)
        rw [hcontainer] at hresult
        cases hresult

/-! ## Qualified names -/

/-- **When a qualified core attribute is the attribute itself**: for filters, where the document has
no value; for a PATCH operation, where it is refused under both names. -/
theorem qualified_iff {path : PatchPath} {op : PatchOp} {value : Json}
    (hdoc : IsUserDocument py document) (hurn : path.path.urn = none)
    (hname : py.lower path.path.attributeName ≠ py.lower coreUser) :
    (UsesAgree py document path.path ∧ PatchesAgree py document op path value) ↔
      (readPath py document path.path = .null ∧ path.predicate.isSome ∧ op ≠ .remove ∧
        ∀ items, Patch.get py document path.path.attributeName ≠ .list items) :=
  and_congr (usesAgree_iff hdoc) (patchesAgree_iff hdoc hurn hname)

/-! ## A name -/

/-- A user. -/
def someUser : Object := [("userName", .str "sam"), ("active", .bool true)]

theorem isUserDocument_someUser : IsUserDocument Builtins.ascii someUser := by
  unfold IsUserDocument
  decide

/-- The titles that have a value. -/
def titlesWithValue : PatchPath :=
  ⟨⟨"title", none, none⟩, some (.present ⟨"value", none, none⟩), none⟩

/-- A title that is not there is not there under its URN, and there is nothing to select from. -/
theorem qualified_title : UsesAgree Builtins.ascii someUser titlesWithValue.path ∧
    PatchesAgree Builtins.ascii someUser .replace titlesWithValue (.str "Dr.") := by
  have hname : Builtins.ascii.lower titlesWithValue.path.attributeName ≠
      Builtins.ascii.lower coreUser := by decide
  refine (qualified_iff isUserDocument_someUser rfl hname).mpr ⟨rfl, rfl, by decide, ?_⟩
  intro items hitems
  have hnone : Patch.get Builtins.ascii someUser titlesWithValue.path.attributeName = .null := rfl
  rw [hnone] at hitems
  cases hitems

/-- The user name that is there is not found under its URN. -/
theorem not_qualified : ¬ ∀ (py : Builtins) (document : Object) (path : PatchPath) (op : PatchOp)
    (value : Json), IsUserDocument py document → path.path.urn = none →
      py.lower path.path.attributeName ≠ py.lower coreUser →
        UsesAgree py document path.path ∧ PatchesAgree py document op path value := by
  intro h
  have huses := (h Builtins.ascii someUser ⟨⟨"userName", none, none⟩, none, none⟩ .replace
    (.str "sam") isUserDocument_someUser rfl (by decide)).1
  exact absurd (huses (.compared .eq (.str "sam"))) (by decide)

end Scim
end CampusID
