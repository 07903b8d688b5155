import Mathlib.Data.List.Basic

/-!
# XML elements

A parsed document without comments, processing instructions or a document type: elements
with a qualified name, attributes, the text before their first child, and their children,
each with the text that follows it.

The searches are those of an `ElementTree`: `find` and `findall` among the children,
`findDeep` among the descendants, `iter` over an element and its descendants in document
order.  Where an element *stands* is a path, the list of child indices that leads to it;
`located` lists every element with its path, so that `located` tells apart two elements that
read the same (`map_snd_located`).
-/

namespace CampusID
namespace Lib

/-- A namespace and a local name. -/
structure QName where
  uri : String
  localName : String
  deriving DecidableEq, Repr

/-- An element.  A child is followed by the text up to the next one. -/
inductive Element where
  | mk (tag : QName) (attrib : List (String × String)) (text : String)
    (children : List (Element × String))

namespace Element

/-- The qualified name. -/
def tag : Element → QName
  | .mk tag _ _ _ => tag

/-- The attributes. -/
def attrib : Element → List (String × String)
  | .mk _ attrib _ _ => attrib

/-- The text before the first child. -/
def text : Element → String
  | .mk _ _ text _ => text

/-- The children, each with the text after it. -/
def children : Element → List (Element × String)
  | .mk _ _ _ children => children

@[simp] theorem tag_mk (t a x c) : (mk t a x c).tag = t := rfl
@[simp] theorem attrib_mk (t a x c) : (mk t a x c).attrib = a := rfl
@[simp] theorem children_mk (t a x c) : (mk t a x c).children = c := rfl

/-- `element.get(name)`. -/
def get (e : Element) (name : String) : Option String := e.attrib.lookup name

/-- The child elements. -/
def elements (e : Element) : List Element := e.children.map Prod.fst

/-- `element.findall(tag)`. -/
def findall (e : Element) (tag : QName) : List Element := e.elements.filter (·.tag = tag)

/-- `element.find(tag)`. -/
def find (e : Element) (tag : QName) : Option Element := e.elements.find? (·.tag = tag)

/-- `element.findall("a/b")`. -/
def findallPath (e : Element) (first second : QName) : List Element :=
  (e.findall first).flatMap (·.findall second)

/-- `element.find("a/b")`. -/
def findPath (e : Element) (first second : QName) : Option Element :=
  (e.findallPath first second).head?

mutual

/-- `element.iter()`: the element and its descendants, in document order. -/
def iter : Element → List Element
  | .mk tag attrib text children => .mk tag attrib text children :: iterAll children

/-- The children and their descendants. -/
def iterAll : List (Element × String) → List Element
  | [] => []
  | (child, _) :: rest => child.iter ++ iterAll rest

end

/-- `element.iter(tag)`. -/
def iterTag (e : Element) (tag : QName) : List Element := e.iter.filter (·.tag = tag)

/-- `element.find(".//tag")`: the first descendant of that name. -/
def findDeep (e : Element) (tag : QName) : Option Element :=
  (iterAll e.children).find? (·.tag = tag)

mutual

/-- `"".join(element.itertext())`. -/
def itertext : Element → String
  | .mk _ _ text children => text ++ itertextAll children

/-- The texts of the children and after them. -/
def itertextAll : List (Element × String) → String
  | [] => ""
  | (child, tail) :: rest => child.itertext ++ tail ++ itertextAll rest

end

mutual

/-- The element and its descendants, each with its path. -/
def locatedFrom : List Nat → Element → List (List Nat × Element)
  | path, .mk tag attrib text children =>
    (path, .mk tag attrib text children) :: locatedAll path 0 children

/-- The children from this index on, and their descendants. -/
def locatedAll : List Nat → Nat → List (Element × String) → List (List Nat × Element)
  | _, _, [] => []
  | path, i, (child, _) :: rest => locatedFrom (path ++ [i]) child ++ locatedAll path (i + 1) rest

end

/-- Every element of a document with its path from the root. -/
def located (root : Element) : List (List Nat × Element) := locatedFrom [] root

/-- `element.getparent()`: the path of the parent. -/
def parentPath (path : List Nat) : Option (List Nat) :=
  if path = [] then none else some path.dropLast

/-- Where the children of that name stand. -/
def childPaths (e : Element) (tag : QName) : List (List Nat) :=
  (e.elements.zipIdx.filter (·.1.tag = tag)).map fun child => [child.2]

/-! ## What the searches find -/

theorem find_mem {e x : Element} {tag : QName} (h : e.find tag = some x) :
    x ∈ e.elements ∧ x.tag = tag :=
  ⟨List.mem_of_find?_eq_some h, by simpa using List.find?_some h⟩

theorem self_mem_iter (e : Element) : e ∈ e.iter := by
  cases e
  rw [iter]
  exact List.mem_cons_self

theorem iter_eq (e : Element) : e.iter = e :: iterAll e.children := by
  cases e
  rw [iter]
  rfl

theorem mem_iterAll {children : List (Element × String)} {x : Element} :
    x ∈ iterAll children ↔ ∃ child ∈ children, x ∈ child.1.iter := by
  induction children with
  | nil => simp [iterAll]
  | cons child rest ih =>
    obtain ⟨child, tail⟩ := child
    simp [iterAll, ih]

theorem mem_iter_of_child {e child x : Element} (hchild : child ∈ e.elements)
    (hx : x ∈ child.iter) : x ∈ e.iter := by
  rw [iter_eq]
  obtain ⟨entry, hentry, rfl⟩ := List.mem_map.mp hchild
  exact List.mem_cons_of_mem _ (mem_iterAll.mpr ⟨entry, hentry, hx⟩)

theorem child_mem_iter {e child : Element} (hchild : child ∈ e.elements) : child ∈ e.iter :=
  mem_iter_of_child hchild (self_mem_iter child)

mutual

theorem map_snd_locatedFrom : ∀ (path : List Nat) (e : Element),
    (locatedFrom path e).map Prod.snd = e.iter
  | path, .mk tag attrib text children => by
    rw [locatedFrom, iter, List.map_cons, map_snd_locatedAll path 0 children]

theorem map_snd_locatedAll : ∀ (path : List Nat) (i : Nat) (children : List (Element × String)),
    (locatedAll path i children).map Prod.snd = iterAll children
  | _, _, [] => rfl
  | path, i, (child, _) :: rest => by
    rw [locatedAll, iterAll, List.map_append, map_snd_locatedFrom (path ++ [i]) child,
      map_snd_locatedAll path (i + 1) rest]

end

/-- **The located elements are the elements**, in document order. -/
theorem map_snd_located (root : Element) : root.located.map Prod.snd = root.iter :=
  map_snd_locatedFrom [] root

/-! ## Where elements stand -/

@[simp] theorem parentPath_append (path : List Nat) (i : Nat) :
    parentPath (path ++ [i]) = some path := by
  simp [parentPath]

theorem self_mem_locatedFrom (path : List Nat) (e : Element) : (path, e) ∈ locatedFrom path e := by
  cases e
  rw [locatedFrom]
  exact List.mem_cons_self

theorem mem_locatedAll_of_getElem {path : List Nat} {start i : Nat}
    {children : List (Element × String)} {child : Element × String}
    (h : children[i]? = some child) {entry : List Nat × Element}
    (hentry : entry ∈ locatedFrom (path ++ [start + i]) child.1) :
    entry ∈ locatedAll path start children := by
  induction children generalizing start i with
  | nil => simp at h
  | cons first rest ih =>
    obtain ⟨first, tail⟩ := first
    rw [locatedAll]
    cases i with
    | zero =>
      obtain rfl : (first, tail) = child := by simpa using h
      exact List.mem_append_left _ hentry
    | succ i =>
      refine List.mem_append_right _ (ih (i := i) (by simpa using h) ?_)
      rwa [Nat.add_assoc, Nat.add_comm 1 i]

/-- What stands below a child stands below the element. -/
theorem mem_locatedFrom_of_child {path : List Nat} {e : Element} {i : Nat}
    {child : Element} (h : e.elements[i]? = some child) {entry : List Nat × Element}
    (hentry : entry ∈ locatedFrom (path ++ [i]) child) : entry ∈ locatedFrom path e := by
  cases e with
  | mk tag attrib text children =>
    rw [elements, List.getElem?_map, Option.map_eq_some_iff] at h
    obtain ⟨⟨x, tail⟩, hx, rfl⟩ := h
    rw [locatedFrom]
    refine List.mem_cons_of_mem _ (mem_locatedAll_of_getElem hx ?_)
    rwa [Nat.zero_add]

theorem child_mem_located {root child : Element} {i : Nat} (h : root.elements[i]? = some child) :
    ([i], child) ∈ located root :=
  mem_locatedFrom_of_child h (self_mem_locatedFrom _ _)

theorem grandchild_mem_located {root child x : Element} {i j : Nat}
    (h : root.elements[i]? = some child) (hx : child.elements[j]? = some x) :
    ([i, j], x) ∈ located root :=
  mem_locatedFrom_of_child h (mem_locatedFrom_of_child hx (self_mem_locatedFrom _ _))

theorem mem_childPaths {e : Element} {tag : QName} {path : List Nat} :
    path ∈ e.childPaths tag ↔ ∃ i child, path = [i] ∧ e.elements[i]? = some child ∧
      child.tag = tag := by
  simp only [childPaths, List.mem_map, List.mem_filter, List.mem_zipIdx_iff_getElem?,
    decide_eq_true_eq, Prod.exists]
  constructor
  · rintro ⟨child, i, ⟨hi, htag⟩, rfl⟩
    exact ⟨i, child, rfl, hi, htag⟩
  · rintro ⟨i, child, rfl, hi, htag⟩
    exact ⟨child, i, ⟨hi, htag⟩, rfl⟩

end Element

end Lib
end CampusID
