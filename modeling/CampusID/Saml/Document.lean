import CampusID.Lib.Effects
import CampusID.Lib.Xml
import CampusID.Text
import Mathlib.Data.List.Nodup

/-!
# SAML documents

The names the gate looks for, the refusals it raises, and `parse_saml`, the one way from
bytes to a tree.  Reading XML is `lxml`'s, so the reader is an argument: it returns the root
and the text of the document type, or the message of its syntax error.

What the rest of the gate takes from here is `parseSaml_eq_ok` with `eq_of_id`: in a tree that
`parse_saml` returned, an `ID` names one element.
-/

namespace CampusID
namespace Saml

open Lib

/-- Bytes, as they arrive. -/
abbrev Bytes : Type := List UInt8

/-- The `ReasonCode`s the SAML side records. -/
inductive ReasonCode where
  | payloadTooLarge
  | malformedResponse
  | xmlHardeningViolation
  | duplicateElementId
  | signatureWrappingDetected
  | idpErrorStatus
  | unknownIssuer
  | issuerMismatch
  | signatureMissing
  | signatureInvalid
  | weakAlgorithm
  | decryptionFailed
  | unsupportedEncryptionAlgorithm
  | destinationMismatch
  | unknownInResponseTo
  | unsolicitedResponse
  | requestBindingInvalid
  | subjectConfirmationInvalid
  | audienceMismatch
  | assertionNotYetValid
  | assertionExpired
  | unsupportedCondition
  | missingAuthnStatement
  | replayDetected
  | invalidReturnUrl
  | identityReviewRequired
  | identitySuspended
  deriving DecidableEq, Repr

/-- `SamlRejected`, and every other refusal of the two routes: the reason that is audited,
and the detail for operators. -/
structure SamlRejected where
  reason : ReasonCode
  detail : String
  deriving DecidableEq, Repr

/-- `raise SamlRejected(reason, detail)`. -/
def reject {α : Type} (reason : ReasonCode) (detail : String) : Except SamlRejected α :=
  .error ⟨reason, detail⟩

/-- `if c: raise SamlRejected(reason, detail)`. -/
def rejectIf (c : Prop) [Decidable c] (reason : ReasonCode) (detail : String) :
    Except SamlRejected Unit :=
  if c then reject reason detail else .ok ()

@[simp] theorem reject_ne_ok {α : Type} {reason : ReasonCode} {detail : String} {a : α} :
    reject reason detail ≠ .ok a := by
  simp [reject]

@[simp] theorem rejectIf_eq_ok {c : Prop} [Decidable c] {reason : ReasonCode} {detail : String}
    {u : Unit} : rejectIf c reason detail = .ok u ↔ ¬ c := by
  by_cases hc : c <;> simp [rejectIf, hc]

/-- `repr` of a string or `None`. -/
def reprOpt : Option String → String
  | none => "None"
  | some s => Text.pyRepr s

/-- `repr` of a list of strings. -/
def reprList (xs : List String) : String := "[" ++ ", ".intercalate (xs.map Text.pyRepr) ++ "]"

/-! ## Names -/

/-- `SAML`. -/
def saml : String := "urn:oasis:names:tc:SAML:2.0:assertion"

/-- `SAMLP`. -/
def samlp : String := "urn:oasis:names:tc:SAML:2.0:protocol"

/-- `DS`. -/
def ds : String := "http://www.w3.org/2000/09/xmldsig#"

/-- `XENC`. -/
def xenc : String := "http://www.w3.org/2001/04/xmlenc#"

/-- `XENC11`. -/
def xenc11 : String := "http://www.w3.org/2009/xmlenc11#"

/-- `Q_RESPONSE`. -/
def qResponse : QName := ⟨samlp, "Response"⟩

/-- `Q_STATUS_CODE`. -/
def qStatusCode : QName := ⟨samlp, "StatusCode"⟩

/-- `Q_ASSERTION`. -/
def qAssertion : QName := ⟨saml, "Assertion"⟩

/-- `Q_ENCRYPTED_ASSERTION`. -/
def qEncryptedAssertion : QName := ⟨saml, "EncryptedAssertion"⟩

/-- `Q_ISSUER`. -/
def qIssuer : QName := ⟨saml, "Issuer"⟩

/-- `Q_SUBJECT`. -/
def qSubject : QName := ⟨saml, "Subject"⟩

/-- `Q_NAME_ID`. -/
def qNameId : QName := ⟨saml, "NameID"⟩

/-- `Q_SUBJECT_CONFIRMATION`. -/
def qSubjectConfirmation : QName := ⟨saml, "SubjectConfirmation"⟩

/-- `Q_SUBJECT_CONFIRMATION_DATA`. -/
def qSubjectConfirmationData : QName := ⟨saml, "SubjectConfirmationData"⟩

/-- `Q_CONDITIONS`. -/
def qConditions : QName := ⟨saml, "Conditions"⟩

/-- `Q_AUDIENCE_RESTRICTION`. -/
def qAudienceRestriction : QName := ⟨saml, "AudienceRestriction"⟩

/-- `Q_AUDIENCE`. -/
def qAudience : QName := ⟨saml, "Audience"⟩

/-- `Q_ONE_TIME_USE`. -/
def qOneTimeUse : QName := ⟨saml, "OneTimeUse"⟩

/-- `Q_PROXY_RESTRICTION`. -/
def qProxyRestriction : QName := ⟨saml, "ProxyRestriction"⟩

/-- `Q_AUTHN_STATEMENT`. -/
def qAuthnStatement : QName := ⟨saml, "AuthnStatement"⟩

/-- `Q_AUTHN_CONTEXT_CLASS_REF`. -/
def qAuthnContextClassRef : QName := ⟨saml, "AuthnContextClassRef"⟩

/-- `Q_ATTRIBUTE_STATEMENT`. -/
def qAttributeStatement : QName := ⟨saml, "AttributeStatement"⟩

/-- `Q_ATTRIBUTE`. -/
def qAttribute : QName := ⟨saml, "Attribute"⟩

/-- `Q_ATTRIBUTE_VALUE`. -/
def qAttributeValue : QName := ⟨saml, "AttributeValue"⟩

/-- `Q_SIGNATURE`. -/
def qSignature : QName := ⟨ds, "Signature"⟩

/-- `Q_SIGNED_INFO`. -/
def qSignedInfo : QName := ⟨ds, "SignedInfo"⟩

/-- `Q_SIGNATURE_METHOD`. -/
def qSignatureMethod : QName := ⟨ds, "SignatureMethod"⟩

/-- `Q_DIGEST_METHOD`. -/
def qDigestMethod : QName := ⟨ds, "DigestMethod"⟩

/-- `Q_CANONICALIZATION_METHOD`. -/
def qCanonicalizationMethod : QName := ⟨ds, "CanonicalizationMethod"⟩

/-- `Q_REFERENCE`. -/
def qReference : QName := ⟨ds, "Reference"⟩

/-- `Q_TRANSFORM`. -/
def qTransform : QName := ⟨ds, "Transform"⟩

/-- `Q_ENCRYPTED_DATA`. -/
def qEncryptedData : QName := ⟨xenc, "EncryptedData"⟩

/-- `Q_ENCRYPTED_KEY`. -/
def qEncryptedKey : QName := ⟨xenc, "EncryptedKey"⟩

/-- `Q_ENCRYPTION_METHOD`. -/
def qEncryptionMethod : QName := ⟨xenc, "EncryptionMethod"⟩

/-- `Q_CIPHER_DATA`. -/
def qCipherData : QName := ⟨xenc, "CipherData"⟩

/-- `Q_CIPHER_VALUE`. -/
def qCipherValue : QName := ⟨xenc, "CipherValue"⟩

/-- `Q_MGF`. -/
def qMgf : QName := ⟨xenc11, "MGF"⟩

/-- `BEARER_CONFIRMATION_METHOD`. -/
def bearerConfirmationMethod : String := "urn:oasis:names:tc:SAML:2.0:cm:bearer"

/-- `STATUS_SUCCESS`. -/
def statusSuccess : String := "urn:oasis:names:tc:SAML:2.0:status:Success"

/-! ## Parsing -/

/-- `MAX_DOCUMENT_BYTES`. -/
def maxDocumentBytes : Nat := 512 * 1024

/-- `etree.fromstring` with the hardened parser: the root and `docinfo.doctype`, or the
message of the syntax error. -/
abbrev XmlReader : Type := Bytes → Except String (Element × String)

/-- `_reject_doctype`. -/
def rejectDoctype (doctype : String) : Except SamlRejected Unit :=
  rejectIf (doctype ≠ "") .xmlHardeningViolation "document declares a DOCTYPE"

/-- The loop of `_reject_duplicate_ids` over the elements still to come. -/
def rejectSeenIds : List String → List Element → Except SamlRejected Unit
  | _, [] => .ok ()
  | seen, element :: rest =>
    match element.get "ID" with
    | none => rejectSeenIds seen rest
    | some identifier =>
      if identifier ∈ seen then
        reject .duplicateElementId ("ID " ++ Text.pyRepr identifier ++ " appears more than once")
      else rejectSeenIds (identifier :: seen) rest

/-- `_reject_duplicate_ids`. -/
def rejectDuplicateIds (root : Element) : Except SamlRejected Unit := rejectSeenIds [] root.iter

/-- `parse_saml`. -/
def parseSaml (fromstring : XmlReader) (data : Bytes) : Except SamlRejected Element := do
  rejectIf (data.length > maxDocumentBytes) .payloadTooLarge
    (toString data.length ++ " bytes exceeds the " ++ toString maxDocumentBytes ++
      " byte ceiling")
  match fromstring data with
  | .error message => reject .malformedResponse message
  | .ok (root, doctype) =>
    rejectDoctype doctype
    rejectDuplicateIds root
    return root

/-- `text_of`: all text within the element. -/
def textOf : Option Element → String
  | none => ""
  | some element => element.itertext

/-! ## An ID names one element -/

/-- The `ID`s of a list of elements. -/
def ids (elements : List Element) : List String := elements.filterMap (·.get "ID")

theorem rejectSeenIds_iff {seen : List String} {elements : List Element} {u : Unit} :
    rejectSeenIds seen elements = .ok u ↔
      (ids elements).Nodup ∧ ∀ identifier ∈ ids elements, identifier ∉ seen := by
  induction elements generalizing seen with
  | nil => simp [rejectSeenIds, ids]
  | cons element rest ih =>
    rw [rejectSeenIds]
    cases hid : element.get "ID" with
    | none => simpa [ids, hid] using ih
    | some identifier =>
      have hcons : ids (element :: rest) = identifier :: ids rest := by simp [ids, hid]
      rw [hcons]
      by_cases hseen : identifier ∈ seen
      · simp [hseen, reject]
      · simp only [hseen, if_false, ih, List.nodup_cons, List.mem_cons]
        constructor
        · rintro ⟨hnodup, hnew⟩
          refine ⟨⟨fun hmem => hnew _ hmem (Or.inl rfl), hnodup⟩, ?_⟩
          rintro other (rfl | hother)
          · exact hseen
          · exact fun h => hnew other hother (Or.inr h)
        · rintro ⟨⟨hnew, hnodup⟩, hall⟩
          refine ⟨hnodup, fun other hother => ?_⟩
          rintro (rfl | h)
          · exact hnew hother
          · exact hall other (Or.inr hother) h

theorem rejectDuplicateIds_iff {root : Element} {u : Unit} :
    rejectDuplicateIds root = .ok u ↔ (ids root.iter).Nodup := by
  simp [rejectDuplicateIds, rejectSeenIds_iff]

/-- What `parse_saml` returns is what the reader read, without a document type and with
unique IDs. -/
theorem parseSaml_eq_ok {fromstring : XmlReader} {data : Bytes} {root : Element} :
    parseSaml fromstring data = .ok root ↔
      data.length ≤ maxDocumentBytes ∧ fromstring data = .ok (root, "") ∧
        (ids root.iter).Nodup := by
  rw [parseSaml, Eff.except_bind_eq_ok]
  constructor
  · rintro ⟨_, hsize, h⟩
    rcases hread : fromstring data with message | ⟨tree, doctype⟩
    · simp [hread] at h
    · simp only [hread, Eff.except_bind_eq_ok] at h
      obtain ⟨_, hdoctype, _, hids, htree⟩ := h
      obtain rfl : doctype = "" := by simpa [rejectDoctype] using hdoctype
      obtain rfl : tree = root := Except.ok.inj htree
      exact ⟨by simpa using hsize, rfl, rejectDuplicateIds_iff.mp hids⟩
  · rintro ⟨hsize, hread, hids⟩
    refine ⟨(), by simpa using hsize, ?_⟩
    simp only [hread, Eff.except_bind_eq_ok]
    exact ⟨(), by simp [rejectDoctype], (), rejectDuplicateIds_iff.mpr hids, rfl⟩

theorem eq_of_id {elements : List Element} (hids : (ids elements).Nodup) {x y : Element}
    (hx : x ∈ elements) (hy : y ∈ elements) {identifier : String}
    (hxid : x.get "ID" = some identifier) (hyid : y.get "ID" = some identifier) : x = y := by
  induction elements with
  | nil => cases hx
  | cons element rest ih =>
    have hrest : (ids rest).Nodup :=
      hids.sublist (List.Sublist.filterMap _ (List.sublist_cons_self element rest))
    have hnew (z : Element) (hz : z ∈ rest) (hzid : z.get "ID" = some identifier) :
        element.get "ID" ≠ some identifier := by
      intro helement
      have hcons : ids (element :: rest) = identifier :: ids rest := by simp [ids, helement]
      rw [hcons, List.nodup_cons] at hids
      exact hids.1 (List.mem_filterMap.mpr ⟨z, hz, hzid⟩)
    rcases List.mem_cons.mp hx with hxe | hxr
    · rcases List.mem_cons.mp hy with hye | hyr
      · exact hxe.trans hye.symm
      · exact absurd (hxe ▸ hxid) (hnew y hyr hyid)
    · rcases List.mem_cons.mp hy with hye | hyr
      · exact absurd (hye ▸ hyid) (hnew x hxr hxid)
      · exact ih hrest hxr hyr

end Saml
end CampusID
