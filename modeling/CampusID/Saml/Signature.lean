import CampusID.Saml.Wrapping

/-!
# Signature verification

`algorithms.py` and `signature.py`: what is checked of a signature before `signxml` sees it,
and the loop over the issuer's certificates.  `signxml` is an argument: given a document, the
pinned location and a certificate it refuses, or it returns what the signature covers.

`verifySignature_ok` is what a verification that succeeded has seen: the signature is a child
of the element, references its `ID`, and one of the certificates verified an element of the
same name and `ID`.
-/

namespace CampusID
namespace Saml

open Lib Element

/-! ## Algorithms -/

/-- `_DSIG`. -/
def dsig : String := "http://www.w3.org/2000/09/xmldsig#"

/-- `_DSIG_MORE`. -/
def dsigMore : String := "http://www.w3.org/2001/04/xmldsig-more#"

/-- `_XMLENC`. -/
def xmlenc : String := "http://www.w3.org/2001/04/xmlenc#"

/-- `_EXC_C14N`. -/
def excC14n : String := "http://www.w3.org/2001/10/xml-exc-c14n#"

/-- `PERMITTED_SIGNATURE_METHODS`. -/
def permittedSignatureMethods : List String :=
  [dsigMore ++ "rsa-sha256", dsigMore ++ "rsa-sha384", dsigMore ++ "rsa-sha512",
    dsigMore ++ "ecdsa-sha256", dsigMore ++ "ecdsa-sha384", dsigMore ++ "ecdsa-sha512"]

/-- `PERMITTED_DIGEST_METHODS`. -/
def permittedDigestMethods : List String :=
  [xmlenc ++ "sha256", dsigMore ++ "sha384", xmlenc ++ "sha512"]

/-- `PERMITTED_CANONICALIZATION_METHODS`. -/
def permittedCanonicalizationMethods : List String := [excC14n]

/-- `PERMITTED_TRANSFORMS`. -/
def permittedTransforms : List String := [dsig ++ "enveloped-signature", excC14n]

/-- `WITH_COMMENTS_SUFFIX`. -/
def withCommentsSuffix : String := "#WithComments"

/-- An `Algorithm` of this list. -/
def permits (methods : List String) : Option String → Bool
  | none => false
  | some algorithm => algorithm ∈ methods

/-- The first element of a list whose `Algorithm` is refused, by its `Algorithm`. -/
def firstRefused (refused : Option String → Bool) (elements : List Element) :
    Option (Option String) :=
  (elements.map (·.get "Algorithm")).find? refused

/-- A non-empty algorithm that preserves comments. -/
def preservesComments : Option String → Bool
  | none => false
  | some algorithm => withCommentsSuffix.toList <:+ algorithm.toList

/-- `_assert_no_with_comments`. -/
def assertNoWithComments (signature : Element) : Except SamlRejected Unit :=
  match firstRefused preservesComments signature.iter with
  | some algorithm => reject .xmlHardeningViolation
      ("comment-preserving canonicalisation " ++ reprOpt algorithm ++ " is refused")
  | none => .ok ()

/-- The loops of `assert_algorithms_permitted`: the first algorithm off the list is refused. -/
def assertAllPermitted (methods : List String) (what : String) (elements : List Element) :
    Except SamlRejected Unit :=
  match firstRefused (! permits methods ·) elements with
  | some algorithm => reject .weakAlgorithm (what ++ reprOpt algorithm ++ " is not permitted")
  | none => .ok ()

/-- `assert_algorithms_permitted`. -/
def assertAlgorithmsPermitted (signature : Element) : Except SamlRejected Unit := do
  assertNoWithComments signature
  let algorithm := (signature.findDeep qSignatureMethod).bind (·.get "Algorithm")
  rejectIf (¬ permits permittedSignatureMethods algorithm) .weakAlgorithm
    ("signature method " ++ reprOpt algorithm ++ " is not permitted")
  assertAllPermitted permittedDigestMethods "digest method " (signature.iterTag qDigestMethod)
  let c14n := (signature.findDeep qCanonicalizationMethod).bind (·.get "Algorithm")
  rejectIf (¬ permits permittedCanonicalizationMethods c14n) .weakAlgorithm
    ("canonicalisation method " ++ reprOpt c14n ++ " is not permitted")
  assertAllPermitted permittedTransforms "transform " (signature.iterTag qTransform)

/-! ## Verification -/

/-- Where the signature is looked for: `"./"`, a child of the document root, or
`"./{saml}Assertion/"`, a child of the root's assertion. -/
inductive Location where
  | responseSignature
  | assertionSignature
  deriving DecidableEq, Repr

/-- What `XMLVerifier.verify` returns: one result with its `signed_xml`, or a list of results
for a signature with several references. -/
inductive VerifyResult where
  | single (signedXml : Option Element)
  | several (count : Nat)

/-- `XMLVerifier().verify` of a document at a location with a certificate, under the
configuration of `verify_signature`; `none` where it raises a `SignXMLException`. -/
abbrev Signxml : Type := Element → Location → String → Option VerifyResult

/-- `find_signature`. -/
def findSignature (parent : Element) : Option Element := parent.find qSignature

/-- `_assert_verified_element_is_the_expected_one`. -/
def assertVerifiedElementIsTheExpectedOne (verified expected : Element) :
    Except SamlRejected Unit :=
  rejectIf (verified.tag ≠ expected.tag ∨ verified.get "ID" ≠ expected.get "ID")
    .signatureWrappingDetected
    ("verified element " ++ verified.tag.localName ++ "#" ++ reprOpt (verified.get "ID") ++
      " is not the element being consumed (" ++ expected.tag.localName ++ "#" ++
      reprOpt (expected.get "ID") ++ ")")

/-- The loop of `verify_signature` over the certificates still to try. -/
def tryCertificates (verify : String → Option VerifyResult) (signedElement : Element)
    (tried : Nat) : List String → Except SamlRejected Element
  | [] => reject .signatureInvalid
      ("no registered certificate (" ++ toString tried ++ " tried) verifies the signature")
  | certificate :: rest =>
    match verify certificate with
    | none => tryCertificates verify signedElement tried rest
    | some (.several count) => reject .signatureWrappingDetected
        ("signature covers " ++ toString count ++ " references, expected exactly one")
    | some (.single none) =>
      reject .signatureInvalid "verification returned no signed element"
    | some (.single (some verified)) => do
      assertVerifiedElementIsTheExpectedOne verified signedElement
      return verified

/-- `verify_signature`, returning the `element` of the `VerifiedSignature`. -/
def verifySignature (signxml : Signxml) (document signedElement : Element) (location : Location)
    (certificates : List String) : Except SamlRejected Element :=
  match findSignature signedElement with
  | none => reject .signatureMissing
      ("no ds:Signature is a direct child of " ++ signedElement.tag.localName)
  | some signature => do
    assertAlgorithmsPermitted signature
    assertReferenceBindsToParent signature (some signedElement)
    rejectIf (certificates = []) .signatureInvalid
      "issuer has no signing certificates registered"
    tryCertificates (signxml document location) signedElement certificates.length certificates

theorem tryCertificates_ok {verify : String → Option VerifyResult} {signedElement e : Element}
    {tried : Nat} {certificates : List String}
    (h : tryCertificates verify signedElement tried certificates = .ok e) :
    ∃ certificate ∈ certificates, verify certificate = some (.single (some e)) ∧
      e.tag = signedElement.tag ∧ e.get "ID" = signedElement.get "ID" := by
  induction certificates with
  | nil => simp [tryCertificates] at h
  | cons certificate rest ih =>
    rw [tryCertificates] at h
    rcases hv : verify certificate with _ | (_ | verified) | count
    · obtain ⟨other, hother, hrest⟩ := ih (by simpa only [hv] using h)
      exact ⟨other, List.mem_cons_of_mem _ hother, hrest⟩
    · simp [hv] at h
    · simp only [hv, assertVerifiedElementIsTheExpectedOne, Eff.except_bind_eq_ok,
        rejectIf_eq_ok, not_or, not_not] at h
      obtain ⟨_, hsame, heq⟩ := h
      obtain rfl : verified = e := Except.ok.inj heq
      exact ⟨certificate, List.mem_cons_self, hv, hsame.1, hsame.2⟩
    · simp [hv] at h

/-- **What a successful verification has seen.** -/
theorem verifySignature_ok {signxml : Signxml} {document signedElement e : Element}
    {location : Location} {certificates : List String}
    (h : verifySignature signxml document signedElement location certificates = .ok e) :
    ∃ signature identifier, findSignature signedElement = some signature ∧
      referencedId signature = some identifier ∧ signedElement.get "ID" = some identifier ∧
      ∃ certificate ∈ certificates,
        signxml document location certificate = some (.single (some e)) ∧
        e.tag = signedElement.tag ∧ e.get "ID" = signedElement.get "ID" := by
  unfold verifySignature at h
  cases hsig : findSignature signedElement with
  | none => simp [hsig] at h
  | some signature =>
    simp only [hsig] at h
    obtain ⟨_, -, h⟩ := Eff.except_bind_eq_ok.mp h
    obtain ⟨_, hbind, h⟩ := Eff.except_bind_eq_ok.mp h
    obtain ⟨identifier, href, hid⟩ := assertReferenceBindsToParent_ok hbind
    obtain ⟨_, -, h⟩ := Eff.except_bind_eq_ok.mp h
    exact ⟨signature, identifier, rfl, href, hid, tryCertificates_ok h⟩

end Saml
end CampusID
