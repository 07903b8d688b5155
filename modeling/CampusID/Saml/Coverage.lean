import CampusID.Saml.Gate
import Mathlib.Data.Rat.Floor

/-!
# No signature wrapping

What is read after verification was signed by the issuer's key.

Of `signxml` nothing is used but this (`Sound`): when it accepts the signature at a location
with a certificate, it returns a copy of an element of the document that has the `ID` the
signature's only reference names, and that element was signed by the key of the certificate.
It does not say which of several elements of one `ID` that is, nor that it is the one the
gate meant.  What closes the gap is the rest of the gate: the signature must name the `ID` of
its own parent, the copy must have the same `ID`, and in a parsed document an `ID` names one
element (`verifySignature_covers`).  The counts and the placement then leave one assertion,
and one place for it.
-/

namespace CampusID
namespace Saml

open Lib Element Raising

/-- Remove the first signature of a list of children; the text after it joins the text
before. -/
def dropSignature : String → List (Element × String) → String × List (Element × String)
  | text, [] => (text, [])
  | text, (child, tail) :: rest =>
    if child.tag = qSignature then (text ++ tail, rest)
    else
      let (tail', rest') := dropSignature tail rest
      (text, (child, tail') :: rest')

/-- The element without its enveloped signature. -/
def withoutSignature : Element → Element
  | .mk tag attrib text children =>
    .mk tag attrib (dropSignature text children).1 (dropSignature text children).2

/-- `e` is a copy of `x`: as it is, or without the signature it envelops. -/
def CopyOf (e x : Element) : Prop := e = x ∨ e = withoutSignature x

theorem CopyOf.get_eq {e x : Element} (h : CopyOf e x) (name : String) : e.get name = x.get name := by
  rcases h with rfl | rfl
  · rfl
  · cases x
    rfl

/-- Where `signxml` looks for the signature. -/
def signatureAt (document : Element) : Location → Option Element
  | .responseSignature => document.find qSignature
  | .assertionSignature => document.findPath qAssertion qSignature

/-- **What is assumed of `signxml`**: it returns a copy of an element with the `ID` that the
only reference of the signature at the location names, and the key of the certificate signed
that element. -/
def Sound (signxml : Signxml) (signedBy : String → Element → Prop) : Prop :=
  ∀ document location certificate e,
    signxml document location certificate = some (.single (some e)) →
      ∃ signature identifier x, signatureAt document location = some signature ∧
        referencedId signature = some identifier ∧ x ∈ document.iter ∧
        x.get "ID" = some identifier ∧ CopyOf e x ∧ signedBy certificate x

/-- The element was signed by a key of these certificates, and the signature is its own
child and references it. -/
def SelfSigned (signedBy : String → Element → Prop) (certificates : List String)
    (x : Element) : Prop :=
  ∃ signature ∈ x.elements, signature.tag = qSignature ∧
    (∃ identifier, referencedId signature = some identifier ∧ x.get "ID" = some identifier) ∧
    ∃ certificate ∈ certificates, signedBy certificate x

/-- **A verified signature covers the element it was looked for on.** -/
theorem verifySignature_covers {signxml : Signxml} {signedBy : String → Element → Prop}
    (hsound : Sound signxml signedBy) {document signedElement e : Element} {location : Location}
    {certificates : List String} (hids : (ids document.iter).Nodup)
    (hmem : signedElement ∈ document.iter)
    (h : verifySignature signxml document signedElement location certificates = .ok e) :
    SelfSigned signedBy certificates signedElement ∧ CopyOf e signedElement := by
  obtain ⟨signature, identifier, hsig, href, hid, certificate, hcert, hverify, -, hsame⟩ :=
    verifySignature_ok h
  obtain ⟨_, other, x, -, -, hx, hxid, hcopy, hsigned⟩ := hsound _ _ _ _ hverify
  -- the copy carries the `ID` of both, and an `ID` names one element
  have hother : x.get "ID" = some identifier := by rw [← hcopy.get_eq, hsame, hid]
  obtain rfl : x = signedElement := eq_of_id hids hx hmem hother hid
  obtain ⟨hchild, htag⟩ := find_mem hsig
  exact ⟨⟨signature, hchild, htag, ⟨identifier, href, hid⟩, certificate, hcert, hsigned⟩, hcopy⟩

/-! ## The only assertion -/

theorem iterTag_eq_singleton {root x : Element} {tag : QName} {n : Nat}
    (hcount : (root.iterTag tag).length + n ≤ 1) (hx : x ∈ root.iter) (htag : x.tag = tag) :
    root.iterTag tag = [x] ∧ n = 0 := by
  have hmem : x ∈ root.iterTag tag := List.mem_filter.mpr ⟨hx, by simpa using htag⟩
  have hpos : 0 < (root.iterTag tag).length := List.length_pos_of_mem hmem
  obtain ⟨y, hy⟩ := List.length_eq_one_iff.mp (by omega : (root.iterTag tag).length = 1)
  rw [hy, List.mem_singleton] at hmem
  exact ⟨by rw [hy, hmem], by omega⟩

/-- The only assertion of a document, in clear or encrypted. -/
def OnlyAssertion (document x : Element) : Prop :=
  document.iterTag qAssertion = [x] ∧ document.iterTag qEncryptedAssertion = []

theorem onlyAssertion_of_count {document x : Element}
    (hcount : (document.iterTag qAssertion).length +
      (document.iterTag qEncryptedAssertion).length ≤ 1)
    (hx : x ∈ document.iter) (htag : x.tag = qAssertion) : OnlyAssertion document x := by
  obtain ⟨hone, hnone⟩ := iterTag_eq_singleton hcount hx htag
  exact ⟨hone, List.length_eq_zero_iff.mp hnone⟩

/-- The assertion that is read stands in clear in the response: the only one, a child of the
`Response`, and signed itself or --- where the issuer may leave it unsigned --- inside the
signed `Response`. -/
def CoveredInClear (signedBy : String → Element → Prop) (idp : TrustedIdP)
    (root read : Element) : Prop :=
  ∃ assertion ∈ root.elements, assertion.tag = qAssertion ∧ root.tag = qResponse ∧
    OnlyAssertion root assertion ∧ CopyOf read assertion ∧
    (SelfSigned signedBy idp.signingCertificates assertion ∨
      idp.wantAssertionsSigned = false ∧ SelfSigned signedBy idp.signingCertificates root)

/-- The assertion that is read is the root of what the only assertion of the response, an
encrypted one, was decrypted to: the only one there, and signed itself. -/
def CoveredEncrypted {T : Type} (g : Gate T) (signedBy : String → Element → Prop)
    (idp : TrustedIdP) (root read : Element) : Prop :=
  ∃ encrypted ∈ root.elements, root.iterTag qAssertion = [] ∧
    root.iterTag qEncryptedAssertion = [encrypted] ∧
    ∃ key ∈ g.decryptionKeys, ∃ fragment,
      decryptAssertion g.cipher g.fromstring encrypted key = .ok fragment ∧
      fragment.tag = qAssertion ∧ OnlyAssertion fragment fragment ∧ CopyOf read fragment ∧
      SelfSigned signedBy idp.signingCertificates fragment

/-- What is read is covered by the issuer's signature. -/
def Covered {T : Type} (g : Gate T) (signedBy : String → Element → Prop) (idp : TrustedIdP)
    (root read : Element) : Prop :=
  CoveredInClear signedBy idp root read ∨ CoveredEncrypted g signedBy idp root read

namespace Gate

variable {T : Type} {g : Gate T} {signedBy : String → Element → Prop}

theorem inspect_ok {document : Bytes} {root : Element} (h : g.inspect document = .ok root) :
    (ids root.iter).Nodup ∧
      (root.iterTag qAssertion).length + (root.iterTag qEncryptedAssertion).length ≤ 1 ∧
      Placed root := by
  obtain ⟨tree, hparse, h⟩ := Eff.except_bind_eq_ok.mp h
  obtain ⟨_, hwrap, h⟩ := Eff.except_bind_eq_ok.mp h
  obtain ⟨_, -, h⟩ := Eff.except_bind_eq_ok.mp h
  obtain rfl : tree = root := Except.ok.inj h
  obtain ⟨-, hcount, hplaced⟩ := assertNoWrapping_ok hwrap
  exact ⟨(parseSaml_eq_ok.mp hparse).2.2, hcount, hplaced⟩

theorem verifyResponseSignature_covers (hsound : Sound g.signxml signedBy) {root : Element}
    {idp : TrustedIdP} {u : Unit} (hids : (ids root.iter).Nodup)
    (h : g.verifyResponseSignature root idp = .ok u) (hsig : findSignature root ≠ none) :
    SelfSigned signedBy idp.signingCertificates root := by
  unfold verifyResponseSignature at h
  cases hfind : findSignature root with
  | none => exact absurd hfind hsig
  | some signature =>
    rw [hfind] at h
    cases hverify : verifySignature g.signxml root root .responseSignature
        idp.signingCertificates with
    | error e => simp [hverify, Except.map] at h
    | ok e => exact (verifySignature_covers hsound hids (self_mem_iter root) hverify).1

/-- **In clear.** -/
theorem verifyPlain_covers (hsound : Sound g.signxml signedBy) {root assertion read : Element}
    {idp : TrustedIdP} {u : Unit} (hids : (ids root.iter).Nodup)
    (hcount : (root.iterTag qAssertion).length + (root.iterTag qEncryptedAssertion).length ≤ 1)
    (hplaced : Placed root) (hresponse : g.verifyResponseSignature root idp = .ok u)
    (hfind : root.find qAssertion = some assertion)
    (h : g.verifyPlain root assertion idp = .ok read) : CoveredInClear signedBy idp root read := by
  obtain ⟨hchild, htag⟩ := find_mem hfind
  have honly : OnlyAssertion root assertion :=
    onlyAssertion_of_count hcount (child_mem_iter hchild) htag
  unfold verifyPlain at h
  split_ifs at h with hunsigned
  · -- the response signature is the one that covers
    obtain ⟨_, hsigned, hread⟩ := Eff.except_bind_eq_ok.mp h
    obtain rfl : assertion = read := Except.ok.inj hread
    have hsig : findSignature root ≠ none := by simpa using hsigned
    obtain ⟨signature, hsignature⟩ := Option.ne_none_iff_exists'.mp hsig
    obtain ⟨hsigchild, hsigtag⟩ := find_mem hsignature
    have hroot : root.tag = qResponse := by
      rcases hplaced.root_signed hsigchild hsigtag with hroot | hroot
      · exact hroot
      · -- a root that is an assertion would be a second one
        obtain ⟨hself, -⟩ := onlyAssertion_of_count hcount (self_mem_iter root) hroot
        obtain rfl : root = assertion := by
          have := hself.symm.trans honly.1
          simpa using this
        rw [hunsigned.2] at hsignature
        cases hsignature
    exact ⟨assertion, hchild, htag, hroot, honly, Or.inl rfl,
      Or.inr ⟨by simpa using hunsigned.1, verifyResponseSignature_covers hsound hids hresponse hsig⟩⟩
  · obtain ⟨hself, hcopy⟩ := verifySignature_covers hsound hids (child_mem_iter hchild) h
    obtain ⟨signature, hsigchild, hsigtag, hsigned⟩ := hself
    obtain ⟨hroot, -⟩ := hplaced.child_signed hchild hsigchild hsigtag
    exact ⟨assertion, hchild, htag, hroot, honly, hcopy,
      Or.inl ⟨signature, hsigchild, hsigtag, hsigned⟩⟩

/-- **Encrypted.** -/
theorem verifyEncrypted_covers (hsound : Sound g.signxml signedBy) {root encrypted read : Element}
    {idp : TrustedIdP}
    (hcount : (root.iterTag qAssertion).length + (root.iterTag qEncryptedAssertion).length ≤ 1)
    (hfind : root.find qEncryptedAssertion = some encrypted)
    (h : g.verifyEncrypted encrypted idp = .ok read) : CoveredEncrypted g signedBy idp root read := by
  obtain ⟨hchild, htag⟩ := find_mem hfind
  obtain ⟨honly, hnone⟩ := iterTag_eq_singleton
    (n := (root.iterTag qAssertion).length) (by omega) (child_mem_iter hchild) htag
  obtain ⟨_, -, h⟩ := Eff.except_bind_eq_ok.mp h
  obtain ⟨fragment, hdecrypt, h⟩ := Eff.except_bind_eq_ok.mp h
  obtain ⟨_, hfragment, h⟩ := Eff.except_bind_eq_ok.mp h
  obtain ⟨_, hwrap, hverify⟩ := Eff.except_bind_eq_ok.mp h
  obtain ⟨key, hkey, hplain⟩ := decryptWith_ok hdecrypt
  obtain ⟨plaintext, hparse⟩ := decryptAssertion_parsed hplain
  have hfragtag : fragment.tag = qAssertion := by simpa using hfragment
  obtain ⟨-, hfragcount, -⟩ := assertNoWrapping_ok hwrap
  obtain ⟨hself, hcopy⟩ := verifySignature_covers hsound (parseSaml_eq_ok.mp hparse).2.2
    (self_mem_iter fragment) hverify
  exact ⟨encrypted, hchild, List.length_eq_zero_iff.mp hnone, honly, key, hkey, fragment, hplain,
    hfragtag, onlyAssertion_of_count hfragcount (self_mem_iter fragment) hfragtag, hcopy, hself⟩

theorem verify_covers (hsound : Sound g.signxml signedBy) {document : Bytes} {root read : Element}
    {idp : TrustedIdP} (hinspect : g.inspect document = .ok root)
    (h : g.verify root idp = .ok read) : Covered g signedBy idp root read := by
  obtain ⟨hids, hcount, hplaced⟩ := inspect_ok hinspect
  obtain ⟨_, hresponse, h⟩ := Eff.except_bind_eq_ok.mp h
  cases hencrypted : root.find qEncryptedAssertion with
  | some encrypted =>
    rw [hencrypted] at h
    exact Or.inr (verifyEncrypted_covers hsound hcount hencrypted h)
  | none =>
    cases hassertion : root.find qAssertion with
    | none => simp [hencrypted, hassertion] at h
    | some assertion =>
      simp only [hencrypted, hassertion] at h
      exact Or.inl (verifyPlain_covers hsound hids hcount hplaced hresponse hassertion h)

/-! ## Every fact is read from what is covered -/

theorem resolveIssuer_returns {root : Element} {idp : TrustedIdP}
    {h : List (Σ c : Command T, Reply c)} (hret : (resolveIssuer root : Steps T _).Returns h idp) :
    ∃ issuer, selectIssuer root = .ok issuer ∧ h = [⟨.resolve issuer, some idp⟩] := by
  obtain ⟨issuer, hissuer, hasked⟩ := returns_check_bind.mp hret
  obtain ⟨reply, h', rfl, hanswered⟩ := returns_ask_bind.mp hasked
  cases reply with
  | none => simp at hanswered
  | some answer =>
    obtain ⟨rfl, rfl⟩ := returns_pure.mp hanswered
    exact ⟨issuer, hissuer, rfl⟩

variable [AddCommGroup T] [LinearOrder T]

theorem validate_returns {document : Bytes} {facts : AssertionFacts T}
    {h : List (Σ c : Command T, Reply c)} (hret : (g.validate document).Returns h facts) :
    ∃ root issuer idp read rest, g.inspect document = .ok root ∧
      selectIssuer root = .ok issuer ∧ h = ⟨.resolve issuer, some idp⟩ :: rest ∧
      g.verify root idp = .ok read ∧ (g.conclude root idp read).Returns rest facts := by
  obtain ⟨root, hinspect, hresolve⟩ := returns_check_bind.mp hret
  obtain ⟨idp, h₁, h₂, rfl, hidp, hrest⟩ := returns_bind.mp hresolve
  obtain ⟨issuer, hissuer, rfl⟩ := resolveIssuer_returns hidp
  obtain ⟨read, hverify, hconclude⟩ := returns_check_bind.mp hrest
  exact ⟨root, issuer, idp, read, h₂, hinspect, hissuer, rfl, hverify, hconclude⟩

/-- **Signature wrapping is impossible.**  Whenever `validate` returns, with an issuer the
registry answered for, the facts are what `conclude` reads from one element; and that element
is the only assertion of its document, stands where an assertion belongs, and lies inside
what a key of that issuer signed. -/
theorem validate_covered (hsound : Sound g.signxml signedBy) {document : Bytes}
    {facts : AssertionFacts T} {h : List (Σ c : Command T, Reply c)}
    (hret : (g.validate document).Returns h facts) :
    ∃ root issuer idp read rest, g.inspect document = .ok root ∧
      h = ⟨.resolve issuer, some idp⟩ :: rest ∧ (g.conclude root idp read).Returns rest facts ∧
      Covered g signedBy idp root read := by
  obtain ⟨root, issuer, idp, read, rest, hinspect, -, hh, hverify, hconclude⟩ :=
    validate_returns hret
  exact ⟨root, issuer, idp, read, rest, hinspect, hh, hconclude,
    verify_covers hsound hinspect hverify⟩

end Gate

/-! ## A response -/

namespace Sample

/-- An element with text. -/
def leaf (tag : QName) (attrib : List (String × String)) (text : String) : Element :=
  .mk tag attrib text []

/-- An element with children. -/
def node (tag : QName) (attrib : List (String × String)) (children : List Element) : Element :=
  .mk tag attrib "" (children.map fun child => (child, ""))

/-- A signature of the element with this `ID`, whose value names the certificate. -/
def signature (certificate identifier : String) : Element :=
  node qSignature [] [
    node qSignedInfo [] [
      leaf qCanonicalizationMethod [("Algorithm", excC14n)] "",
      leaf qSignatureMethod [("Algorithm", dsigMore ++ "rsa-sha256")] "",
      node qReference [("URI", "#" ++ identifier)] [
        node ⟨ds, "Transforms"⟩ [] [
          leaf qTransform [("Algorithm", envelopedSignatureTransform)] "",
          leaf qTransform [("Algorithm", excC14n)] ""],
        leaf qDigestMethod [("Algorithm", xmlenc ++ "sha256")] ""]],
    leaf ⟨ds, "SignatureValue"⟩ [] certificate]

/-- What an issuer writes into a response. -/
structure Login where
  issuer : Option String := some "https://idp.test/saml"
  assertionIssuer : Option String := some "https://idp.test/saml"
  inResponseTo : Option String := none
  assertionId : String := "_a1"
  responseKey : Option String := none
  assertionKey : Option String := some "certificate"
  nameId : String := "alice"

namespace Login

variable (l : Login)

/-- The `InResponseTo` attribute. -/
def correlation : List (String × String) :=
  l.inResponseTo.toList.map fun requestId => ("InResponseTo", requestId)

/-- The assertion. -/
def assertion : Element :=
  node qAssertion [("ID", l.assertionId)] <|
    l.assertionIssuer.toList.map (leaf qIssuer []) ++
    l.assertionKey.toList.map (signature · l.assertionId) ++ [
      node qSubject [] [
        leaf qNameId [] l.nameId,
        node qSubjectConfirmation [("Method", bearerConfirmationMethod)] [
          leaf qSubjectConfirmationData (l.correlation ++
            [("Recipient", "https://sp.test/saml/acs"),
              ("NotOnOrAfter", "2026-01-01T00:05:00Z")]) ""]],
      node qConditions [("NotOnOrAfter", "2026-01-01T00:05:00Z")] [
        node qAudienceRestriction [] [leaf qAudience [] "https://sp.test/saml"]],
      node qAuthnStatement [("AuthnInstant", "2026-01-01T00:00:00Z")] []]

/-- The response around an assertion, in clear or encrypted. -/
def responseAround (payload : Element) : Element :=
  node qResponse ([("ID", "_r1")] ++ l.correlation) <|
    l.issuer.toList.map (leaf qIssuer []) ++
    l.responseKey.toList.map (signature · "_r1") ++ [
      node ⟨samlp, "Status"⟩ [] [leaf qStatusCode [("Value", statusSuccess)] ""],
      payload]

/-- The response. -/
def response : Element := l.responseAround l.assertion

end Login

mutual

/-- An element as it is sent, with its namespace declared on it. -/
def bytes : Element → Bytes
  | .mk tag attrib text children =>
    utf8 "<" ++ utf8 tag.localName ++ utf8 " xmlns=\"" ++ utf8 tag.uri ++ utf8 "\"" ++
      attrib.flatMap (fun a => utf8 " " ++ utf8 a.1 ++ utf8 "=\"" ++ utf8 a.2 ++ utf8 "\"") ++
      utf8 ">" ++ utf8 text ++ bytesAll children ++ utf8 "</" ++ utf8 tag.localName ++ utf8 ">"

/-- The children as they are sent. -/
def bytesAll : List (Element × String) → Bytes
  | [] => []
  | (child, tail) :: rest => bytes child ++ utf8 tail ++ bytesAll rest

end

/-- A reader that knows these documents. -/
def readerOf (known : List Element) : XmlReader := fun data =>
  match known.find? fun e => bytes e = data with
  | some e => .ok (e, "")
  | none => .error "not well-formed"

/-- The certificate the value of a signature names. -/
def keyOf (x : Element) : Option String :=
  ((findSignature x).bind fun s => s.find ⟨ds, "SignatureValue"⟩).map Element.text

/-- `signxml`, on signatures whose value names the certificate. -/
def signxml : Signxml := fun document location certificate =>
  match (signatureAt document location).bind referencedId with
  | none => none
  | some identifier =>
    match document.iter.find? (·.get "ID" = some identifier) with
    | none => none
    | some x =>
      if keyOf x = some certificate then some (.single (some (withoutSignature x))) else none

theorem signxml_sound : Sound signxml fun certificate x => keyOf x = some certificate := by
  intro document location certificate e h
  unfold signxml at h
  cases href : (signatureAt document location).bind referencedId with
  | none => simp [href] at h
  | some identifier =>
    obtain ⟨signature, hsig, hid⟩ := Option.bind_eq_some_iff.mp href
    cases hfind : document.iter.find? (·.get "ID" = some identifier) with
    | none => simp [href, hfind] at h
    | some x =>
      simp only [href, hfind] at h
      split_ifs at h with hkey
      obtain rfl : withoutSignature x = e := by simpa using h
      exact ⟨signature, identifier, x, hsig, hid, List.mem_of_find?_eq_some hfind,
        by simpa using List.find?_some hfind, Or.inr rfl, hkey⟩

/-- The instants of the sample, in seconds since the start of 2026. -/
def calendar : Calendar ℚ where
  fromisoformat raw :=
    if raw = "2026-01-01T00:00:00Z" then some (.aware ⟨0, "2026-01-01T00:00:00+00:00"⟩)
    else if raw = "2026-01-01T00:05:00Z" then some (.aware ⟨300, "2026-01-01T00:05:00+00:00"⟩)
    else none
  durationText _ := "0:03:00"

/-- A gate that knows these documents. -/
def gate (known : List Element) : Gate ℚ where
  policy := ⟨"https://sp.test/saml", "https://sp.test/saml/acs", 180, none⟩
  fromstring := readerOf known
  signxml := signxml
  cipher := ⟨fun _ => none, fun _ _ _ => none⟩
  calendar := calendar

/-- The issuer. -/
def idp : TrustedIdP := ⟨"https://idp.test/saml", ["certificate"], true, true⟩

/-- A broker that trusts this issuer. -/
def surroundings (trusted : List TrustedIdP) : Surroundings ℚ where
  registry _ issuer := trusted.find? (·.entityId = issuer)
  descriptors _ entityId := (trusted.find? (·.entityId = entityId)).map (·.entityId)
  throttle _ _ := true
  people _ _ := .ok "person"

/-- What the gate returns for the sample. -/
def facts : AssertionFacts ℚ :=
  ⟨"https://idp.test/saml", "_a1", "alice", none, ⟨300, "2026-01-01T00:05:00+00:00"⟩,
    ⟨0, "2026-01-01T00:00:00+00:00"⟩, none, none, [], none, none, none⟩

end Sample

theorem Sample.validate_returns :
    ((Sample.gate [({} : Sample.Login).response]).validate
      (Sample.bytes ({} : Sample.Login).response)).Returns
      (Prog.trace (exec (Sample.surroundings [Sample.idp]) (1 / 2))
        ((Sample.gate [({} : Sample.Login).response]).validate
          (Sample.bytes ({} : Sample.Login).response)).run SamlRedis.empty) Sample.facts := by
  have hrun : (Prog.run (exec (Sample.surroundings [Sample.idp]) (1 / 2))
      ((Sample.gate [({} : Sample.Login).response]).validate
        (Sample.bytes ({} : Sample.Login).response)).run SamlRedis.empty).1 = .ok Sample.facts := by
    decide +kernel
  rw [Returns, ← hrun]
  exact Prog.Follows.of_run _ _ _

/-- The theorem on a response whose assertion is signed. -/
theorem Gate.validate_covered_sample :
    ∃ root issuer idp read rest,
      (Sample.gate [({} : Sample.Login).response]).inspect
        (Sample.bytes ({} : Sample.Login).response) = .ok root ∧
      Prog.trace (exec (Sample.surroundings [Sample.idp]) (1 / 2))
        ((Sample.gate [({} : Sample.Login).response]).validate
          (Sample.bytes ({} : Sample.Login).response)).run SamlRedis.empty =
        ⟨.resolve issuer, some idp⟩ :: rest ∧
      ((Sample.gate [({} : Sample.Login).response]).conclude root idp read).Returns rest
        Sample.facts ∧
      Covered (Sample.gate [({} : Sample.Login).response])
        (fun certificate x => Sample.keyOf x = some certificate) idp root read :=
  Gate.validate_covered Sample.signxml_sound Sample.validate_returns

end Saml
end CampusID
