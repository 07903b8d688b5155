import CampusID.Saml.Document

/-!
# The wrapping defences

`xsw.py`.  The checks on a document compare elements by identity, so they are stated on the
paths of `located`: two elements that read the same still stand at two places.

What passes: at most one `Response`, at most one assertion of either kind, and every
signature a child of the `Response` or of the assertion (`Placed`).  A signature that binds
to its parent names the parent's own `ID` (`assertReferenceBindsToParent_ok`).
-/

namespace CampusID
namespace Saml

open Lib Element

/-- `ENVELOPED_SIGNATURE_TRANSFORM`. -/
def envelopedSignatureTransform : String := "http://www.w3.org/2000/09/xmldsig#enveloped-signature"

/-- `assert_single_response_and_assertion`. -/
def assertSingleResponseAndAssertion (root : Element) : Except SamlRejected Unit := do
  let responses := root.iterTag qResponse
  rejectIf (responses.length > 1) .signatureWrappingDetected
    ("document contains " ++ toString responses.length ++ " Response elements")
  let assertions := root.iterTag qAssertion
  let encrypted := root.iterTag qEncryptedAssertion
  let total := assertions.length + encrypted.length
  rejectIf (total > 1) .signatureWrappingDetected
    ("document contains " ++ toString total ++ " assertions (" ++ toString assertions.length ++
      " plain, " ++ toString encrypted.length ++ " encrypted)")

/-- The elements a signature may be a child of. -/
def permittedParents (root : Element) : List (List Nat) :=
  if root.tag = qResponse then [] :: root.childPaths qAssertion
  else if root.tag = qAssertion then [[]]
  else []

/-- The loop of `assert_signature_placement` over the signatures still to come. -/
def placeSignatures (permitted : List (List Nat)) :
    List (List Nat) → List (List Nat) → Except SamlRejected Unit
  | _, [] => .ok ()
  | occupied, signature :: rest =>
    match parentPath signature with
    | none =>
      reject .signatureWrappingDetected
        "ds:Signature appears outside the Response or Assertion element"
    | some parent => do
      rejectIf (parent ∉ permitted) .signatureWrappingDetected
        "ds:Signature appears outside the Response or Assertion element"
      rejectIf (parent ∈ occupied) .signatureWrappingDetected
        "element carries more than one ds:Signature"
      placeSignatures permitted (parent :: occupied) rest

/-- Where the signatures of a document stand. -/
def signaturePaths (root : Element) : List (List Nat) :=
  (root.located.filter (·.2.tag = qSignature)).map Prod.fst

/-- `assert_signature_placement`. -/
def assertSignaturePlacement (root : Element) : Except SamlRejected Unit :=
  placeSignatures (permittedParents root) [] (signaturePaths root)

/-- `assert_no_wrapping`. -/
def assertNoWrapping (root : Element) : Except SamlRejected Unit := do
  assertSingleResponseAndAssertion root
  assertSignaturePlacement root

/-- The text after the `#` of a same-document reference. -/
def fragmentOf (uri : Option String) : Option String :=
  match uri.map String.toList with
  | some ('#' :: fragment) => some (String.ofList fragment)
  | _ => none

/-- `assert_reference_binds_to_parent`, with what `getparent` returns. -/
def assertReferenceBindsToParent (signature : Element) (parent : Option Element) :
    Except SamlRejected Unit :=
  match parent with
  | none => reject .signatureWrappingDetected "ds:Signature has no parent element"
  | some parent =>
    match signature.findallPath qSignedInfo qReference with
    | [reference] =>
      match fragmentOf (reference.get "URI") with
      | none =>
        reject .signatureWrappingDetected ("reference URI " ++ reprOpt (reference.get "URI") ++
          " is not a same-document ID reference")
      | some fragment => do
        rejectIf (parent.get "ID" ≠ some fragment) .signatureWrappingDetected
          ("reference URI " ++ reprOpt (reference.get "URI") ++
            " does not match the signed element's ID " ++ reprOpt (parent.get "ID"))
        let transforms := (reference.iterTag qTransform).map (·.get "Algorithm")
        rejectIf (some envelopedSignatureTransform ∉ transforms) .signatureWrappingDetected
          "reference lacks the enveloped-signature transform"
    | references =>
      reject .signatureWrappingDetected
        ("expected exactly one ds:Reference, found " ++ toString references.length)

/-! ## What passes -/

/-- Every signature is a child of the `Response` or of the assertion, one in each place. -/
structure Placed (root : Element) : Prop where
  permitted : ∀ path ∈ signaturePaths root, ∃ parent,
    parentPath path = some parent ∧ parent ∈ permittedParents root
  once : ((signaturePaths root).filterMap parentPath).Nodup

theorem placeSignatures_ok {permitted occupied paths : List (List Nat)} {u : Unit}
    (h : placeSignatures permitted occupied paths = .ok u) :
    (∀ path ∈ paths, ∃ parent, parentPath path = some parent ∧ parent ∈ permitted) ∧
      (paths.filterMap parentPath).Nodup ∧
      ∀ parent ∈ paths.filterMap parentPath, parent ∉ occupied := by
  induction paths generalizing occupied with
  | nil => simp
  | cons path rest ih =>
    rw [placeSignatures] at h
    cases hparent : parentPath path with
    | none => simp [hparent] at h
    | some parent =>
      simp only [hparent, Eff.except_bind_eq_ok, rejectIf_eq_ok, not_not] at h
      obtain ⟨_, hpermitted, _, hfree, hrest⟩ := h
      obtain ⟨hall, hnodup, hnew⟩ := ih hrest
      rw [List.filterMap_cons_some hparent]
      refine ⟨?_, ?_, ?_⟩
      · rintro other (_ | ⟨_, hother⟩)
        · exact ⟨parent, hparent, hpermitted⟩
        · exact hall other hother
      · exact List.nodup_cons.mpr ⟨fun hmem => hnew parent hmem List.mem_cons_self, hnodup⟩
      · rintro other (_ | ⟨_, hother⟩)
        · exact hfree
        · exact fun hocc => hnew other hother (List.mem_cons_of_mem _ hocc)

/-- **What a document that passes looks like.** -/
theorem assertNoWrapping_ok {root : Element} {u : Unit} (h : assertNoWrapping root = .ok u) :
    (root.iterTag qResponse).length ≤ 1 ∧
      (root.iterTag qAssertion).length + (root.iterTag qEncryptedAssertion).length ≤ 1 ∧
      Placed root := by
  obtain ⟨_, hcount, hplace⟩ := Eff.except_bind_eq_ok.mp h
  obtain ⟨hall, hnodup, -⟩ := placeSignatures_ok hplace
  obtain ⟨_, hresponses, htotal⟩ := Eff.except_bind_eq_ok.mp hcount
  exact ⟨by simpa using hresponses, by simpa using htotal, hall, hnodup⟩

theorem mem_signaturePaths {root signature : Element} {path : List Nat}
    (h : (path, signature) ∈ root.located) (htag : signature.tag = qSignature) :
    path ∈ signaturePaths root :=
  List.mem_map.mpr ⟨(path, signature), List.mem_filter.mpr ⟨h, by simpa using htag⟩, rfl⟩

/-- A child with a signature is an assertion, and its parent the `Response`. -/
theorem Placed.child_signed {root child signature : Element} (h : Placed root)
    (hchild : child ∈ root.elements) (hsig : signature ∈ child.elements)
    (htag : signature.tag = qSignature) : root.tag = qResponse ∧ child.tag = qAssertion := by
  obtain ⟨i, hi⟩ := List.getElem?_of_mem hchild
  obtain ⟨j, hj⟩ := List.getElem?_of_mem hsig
  obtain ⟨parent, hparent, hpermitted⟩ :=
    h.permitted _ (mem_signaturePaths (grandchild_mem_located hi hj) htag)
  obtain rfl : parent = [i] := by simpa [parentPath] using hparent.symm
  unfold permittedParents at hpermitted
  split_ifs at hpermitted with hresponse hassertion
  · rcases List.mem_cons.mp hpermitted with hroot | hmem
    · simp at hroot
    · obtain ⟨i', child', heq, hi', htag'⟩ := mem_childPaths.mp hmem
      obtain rfl : i = i' := by simpa using heq
      obtain rfl : child = child' := Option.some.inj (hi.symm.trans hi')
      exact ⟨hresponse, htag'⟩
  · simp at hpermitted
  · simp at hpermitted

theorem Placed.root_signed {root signature : Element} (h : Placed root)
    (hsig : signature ∈ root.elements) (htag : signature.tag = qSignature) :
    root.tag = qResponse ∨ root.tag = qAssertion := by
  obtain ⟨i, hi⟩ := List.getElem?_of_mem hsig
  obtain ⟨parent, -, hpermitted⟩ := h.permitted _ (mem_signaturePaths (child_mem_located hi) htag)
  unfold permittedParents at hpermitted
  split_ifs at hpermitted with hresponse hassertion
  · exact Or.inl hresponse
  · exact Or.inr hassertion
  · simp at hpermitted

/-- The `ID` a signature's only reference names. -/
def referencedId (signature : Element) : Option String :=
  match signature.findallPath qSignedInfo qReference with
  | [reference] => fragmentOf (reference.get "URI")
  | _ => none

/-- **A signature that binds to its parent references its parent.** -/
theorem assertReferenceBindsToParent_ok {signature parent : Element} {u : Unit}
    (h : assertReferenceBindsToParent signature (some parent) = .ok u) :
    ∃ identifier, referencedId signature = some identifier ∧ parent.get "ID" = some identifier := by
  simp only [assertReferenceBindsToParent] at h
  unfold referencedId
  split at h
  · rename_i reference _
    cases hfragment : fragmentOf (reference.get "URI") with
    | none => simp [hfragment] at h
    | some fragment =>
      simp only [hfragment] at h
      obtain ⟨_, hid, -⟩ := Eff.except_bind_eq_ok.mp h
      exact ⟨fragment, rfl, by simpa using hid⟩
  · simp at h

end Saml
end CampusID
