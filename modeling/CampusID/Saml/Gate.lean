import CampusID.Lib.Dict
import CampusID.Saml.Encryption
import CampusID.Saml.Signature
import CampusID.Saml.Stores

/-!
# The assertion validation gate

`AssertionGate.validate`, check by check in the order of the source.  What needs no answer
from outside is an `Except`; the clock, the registry and the two stores are commands, so that
`validate` is a program and nothing is said here about what happens between its commands.

`validate` reads the response in two parts.  Up to `verify` it looks at the document that
arrived.  From then on, in `conclude`, it reads the assertion that `verify` returned, and of
the document only `Destination` and `InResponseTo`.
-/

namespace CampusID
namespace Saml

open Lib Element Raising

/-- `RECOGNISED_CONDITIONS`. -/
def recognisedConditions : List QName := [qAudienceRestriction, qOneTimeUse, qProxyRestriction]

/-- `GatePolicy`. -/
structure GatePolicy (T : Type) where
  audience : String
  destination : String
  clockSkew : T
  maxAuthnAge : Option T := none

/-- What `datetime.fromisoformat` returns. -/
inductive Parsed (T : Type) where
  | naive
  | aware (instant : DateTime T)

/-- How instants are read and durations are written. -/
structure Calendar (T : Type) where
  /-- `datetime.fromisoformat`; `none` is a `ValueError`. -/
  fromisoformat : String → Option (Parsed T)
  /-- `str` of a `timedelta`. -/
  durationText : T → String

/-- `AssertionGate`: its policy and keys, and the libraries it rests on. -/
structure Gate (T : Type) where
  policy : GatePolicy T
  decryptionKeys : List Bytes := []
  fromstring : XmlReader
  signxml : Signxml
  cipher : Cipher
  calendar : Calendar T

/-- `_required_attribute`. -/
def requiredAttribute (element : Element) (name : String) : Except SamlRejected String :=
  match element.get name with
  | some value => .ok value
  | none => reject .malformedResponse
      (element.tag.localName ++ " has no " ++ name ++ " attribute")

/-- `_attributes`: `setdefault(name, []).extend(values)` for every attribute. -/
def collectAttribute (collected : List (String × List String)) (element : Element) :
    List (String × List String) :=
  match element.get "Name" with
  | none => collected
  | some name =>
    let values := (element.findall qAttributeValue).map fun value => textOf (some value)
    assign collected name ((collected.lookup name).getD [] ++ values)

/-- `_attributes`. -/
def attributes (assertion : Element) : List (String × List String) :=
  (assertion.findallPath qAttributeStatement qAttribute).foldl collectAttribute []

namespace Gate

variable {T : Type} [AddCommGroup T] [LinearOrder T] (g : Gate T)

/-- `_instant` of a present attribute. -/
def parseInstant (name raw : String) : Except SamlRejected (DateTime T) :=
  match g.calendar.fromisoformat raw with
  | none => reject .malformedResponse
      (name ++ "=" ++ Text.pyRepr raw ++ " is not a valid xs:dateTime")
  | some .naive => reject .malformedResponse
      (name ++ "=" ++ Text.pyRepr raw ++
        " has no timezone; xs:dateTime in SAML must be UTC-qualified")
  | some (.aware parsed) => .ok parsed

/-- `_instant(..., required=True)`. -/
def requiredInstant (element : Element) (name : String) : Except SamlRejected (DateTime T) := do
  let raw ← requiredAttribute element name
  g.parseInstant name raw

/-- `_instant(..., required=False)`. -/
def optionalInstant (element : Element) (name : String) :
    Except SamlRejected (Option (DateTime T)) :=
  match element.get name with
  | none => .ok none
  | some raw => (g.parseInstant name raw).map some

/-! ## 3. Status -/

/-- `_check_status`. -/
def checkStatus (root : Element) : Except SamlRejected Unit :=
  let value := (root.findDeep qStatusCode).bind (·.get "Value")
  rejectIf (value ≠ some statusSuccess) .idpErrorStatus ("IdP returned status " ++ reprOpt value)

/-! ## 4. Issuer -/

/-- `text_of(element.find(Q_ISSUER)).strip()`. -/
def issuerText (element : Element) : String := Text.strip (textOf (element.find qIssuer))

/-- `_resolve_issuer`, up to the question to the registry: the name of the issuer. -/
def selectIssuer (root : Element) : Except SamlRejected String := do
  let issuer ← match root.find qAssertion with
    | none => pure (issuerText root)
    | some assertion => do
      let response := issuerText root
      let assertionIssuer := issuerText assertion
      rejectIf (assertionIssuer ≠ "" ∧ response ≠ "" ∧ assertionIssuer ≠ response) .issuerMismatch
        ("Response issuer " ++ Text.pyRepr response ++ " != Assertion issuer " ++
          Text.pyRepr assertionIssuer)
      pure (if assertionIssuer ≠ "" then assertionIssuer else response)
  rejectIf (issuer = "") .unknownIssuer "no Issuer element"
  return issuer

/-- `_resolve_issuer`. -/
def resolveIssuer (root : Element) : Steps T TrustedIdP := do
  let issuer ← check (selectIssuer root)
  let idp ← resolveIdp issuer
  match idp with
  | none => check (reject .unknownIssuer ("issuer " ++ Text.pyRepr issuer ++ " is not registered"))
  | some idp => return idp

/-! ## 5-7. Signature -/

/-- `_decrypt`. -/
def decrypt (encrypted : Element) : Except SamlRejected Element :=
  decryptWith (decryptAssertion g.cipher g.fromstring encrypted) uniformFailure g.decryptionKeys

/-- `_verify_encrypted`. -/
def verifyEncrypted (encrypted : Element) (idp : TrustedIdP) : Except SamlRejected Element := do
  rejectIf (g.decryptionKeys = []) .decryptionFailed
    "the response is encrypted but no decryption key is configured"
  let assertion ← g.decrypt encrypted
  rejectIf (assertion.tag ≠ qAssertion) .decryptionFailed
    ("decrypted to " ++ Text.pyRepr assertion.tag.localName ++ ", expected Assertion")
  assertNoWrapping assertion
  verifySignature g.signxml assertion assertion .responseSignature idp.signingCertificates

/-- The signature of the `Response`, if it has one. -/
def verifyResponseSignature (root : Element) (idp : TrustedIdP) : Except SamlRejected Unit :=
  match findSignature root with
  | none => .ok ()
  | some _ => (verifySignature g.signxml root root .responseSignature
      idp.signingCertificates).map fun _ => ()

/-- The assertion of a `Response` in clear. -/
def verifyPlain (root assertion : Element) (idp : TrustedIdP) : Except SamlRejected Element :=
  if ¬ idp.wantAssertionsSigned ∧ findSignature assertion = none then do
    rejectIf (findSignature root = none) .signatureMissing
      "neither the Response nor the Assertion is signed"
    return assertion
  else verifySignature g.signxml root assertion .assertionSignature idp.signingCertificates

/-- `_verify`. -/
def verify (root : Element) (idp : TrustedIdP) : Except SamlRejected Element := do
  g.verifyResponseSignature root idp
  match root.find qEncryptedAssertion with
  | some encrypted => g.verifyEncrypted encrypted idp
  | none =>
    match root.find qAssertion with
    | none => reject .malformedResponse "response contains no Assertion"
    | some assertion => g.verifyPlain root assertion idp

/-! ## 8-9. Destination and correlation -/

/-- `_check_destination`. -/
def checkDestination (root : Element) : Except SamlRejected Unit :=
  match root.get "Destination" with
  | none => .ok ()
  | some destination =>
    rejectIf (destination ≠ g.policy.destination) .destinationMismatch
      ("Destination " ++ Text.pyRepr destination ++ " != " ++ Text.pyRepr g.policy.destination)

/-- `_consume_request`. -/
def consumeRequest (root : Element) (idp : TrustedIdP) :
    Steps T (Option (OutstandingRequest T)) :=
  match root.get "InResponseTo" with
  | none => do
    check (rejectIf (¬ idp.allowUnsolicited) .unsolicitedResponse
      "response has no InResponseTo and unsolicited SSO is disabled")
    return none
  | some inResponseTo => do
    let request ← consume inResponseTo
    match request with
    | none => check (reject .unknownInResponseTo
        ("InResponseTo " ++ Text.pyRepr inResponseTo ++ " matches no outstanding request"))
    | some request =>
      check (rejectIf (request.idpEntityId ≠ idp.entityId) .unknownInResponseTo
        ("request was sent to " ++ Text.pyRepr request.idpEntityId ++ ", answered by " ++
          Text.pyRepr idp.entityId))
      return some request

/-! ## 10-11. Audience and conditions -/

/-- `_check_audience`. -/
def checkAudience (assertion : Element) : Except SamlRejected Unit :=
  match assertion.find qConditions with
  | none => reject .audienceMismatch "assertion has no Conditions"
  | some conditions => do
    let audiences := (conditions.findallPath qAudienceRestriction qAudience).map fun audience =>
      Text.strip (textOf (some audience))
    rejectIf (audiences = []) .audienceMismatch "no AudienceRestriction"
    rejectIf (g.policy.audience ∉ audiences) .audienceMismatch
      (Text.pyRepr g.policy.audience ++ " not in " ++ reprList audiences)

/-- Every condition is one the broker knows. -/
def checkRecognised : List Element → Except SamlRejected Unit
  | [] => .ok ()
  | child :: rest => do
    rejectIf (child.tag ∉ recognisedConditions) .unsupportedCondition
      ("unrecognised condition " ++ Text.pyRepr child.tag.localName)
    checkRecognised rest

/-- The window of the conditions at an instant. -/
def checkWindow (conditions : Element) (now : T) : Except SamlRejected (DateTime T) := do
  let skew := g.policy.clockSkew
  match ← g.optionalInstant conditions "NotBefore" with
  | none => pure ()
  | some notBefore =>
    rejectIf (now < notBefore.time - skew) .assertionNotYetValid
      ("NotBefore " ++ notBefore.isoformat ++ " is beyond the " ++ g.calendar.durationText skew ++
        " skew allowance")
  let notOnOrAfter ← g.requiredInstant conditions "NotOnOrAfter"
  rejectIf (notOnOrAfter.time + skew ≤ now) .assertionExpired
    ("NotOnOrAfter " ++ notOnOrAfter.isoformat ++ " has passed")
  return notOnOrAfter

/-- `_check_conditions`. -/
def checkConditions (assertion : Element) : Steps T (DateTime T) :=
  match assertion.find qConditions with
  | none => check (reject .assertionExpired "assertion has no Conditions")
  | some conditions => do
    check (checkRecognised conditions.elements)
    let now ← readClock
    check (g.checkWindow conditions now)

/-! ## 12. Subject confirmation -/

/-- The body of the loop of `_check_subject_confirmation` for the data of a bearer
confirmation. -/
def checkConfirmationData (data : Element) (request : Option (OutstandingRequest T)) :
    Steps T Unit := do
  let recipient := data.get "Recipient"
  check (rejectIf (recipient ≠ some g.policy.destination) .subjectConfirmationInvalid
    ("Recipient " ++ reprOpt recipient ++ " != " ++ Text.pyRepr g.policy.destination))
  let expiry ← check (g.requiredInstant data "NotOnOrAfter")
  let now ← readClock
  check (rejectIf (expiry.time + g.policy.clockSkew ≤ now) .subjectConfirmationInvalid
    "SubjectConfirmationData has expired")
  let confirmed := data.get "InResponseTo"
  let expected := request.map (·.requestId)
  check (rejectIf (confirmed ≠ expected) .subjectConfirmationInvalid
    ("signed InResponseTo " ++ reprOpt confirmed ++ " != " ++ reprOpt expected))

/-- The data of the first bearer confirmation that has any. -/
def bearerData (confirmations : List Element) : Option Element :=
  (confirmations.filter (·.get "Method" = some bearerConfirmationMethod)).findSome?
    (·.find qSubjectConfirmationData)

/-- `_check_subject_confirmation`. -/
def checkSubjectConfirmation (assertion : Element) (request : Option (OutstandingRequest T)) :
    Steps T Unit :=
  match assertion.find qSubject with
  | none => check (reject .subjectConfirmationInvalid "assertion has no Subject")
  | some subject =>
    match bearerData (subject.findall qSubjectConfirmation) with
    | some data => g.checkConfirmationData data request
    | none => check (reject .subjectConfirmationInvalid
        "no bearer SubjectConfirmation with usable SubjectConfirmationData")

/-! ## 13. Authentication statement -/

/-- The age of the authentication, where the policy bounds it. -/
def checkAge (authnInstant : DateTime T) : Steps T Unit :=
  match g.policy.maxAuthnAge with
  | none => return ()
  | some maxAge => do
    let now ← readClock
    check (rejectIf (maxAge + g.policy.clockSkew < now - authnInstant.time) .assertionExpired
      ("AuthnInstant " ++ authnInstant.isoformat ++ " is older than " ++
        g.calendar.durationText maxAge))

/-- `_check_authn_statement`: the instant, the context class and the session index. -/
def checkAuthnStatement (assertion : Element) :
    Steps T (DateTime T × Option String × Option String) :=
  match assertion.find qAuthnStatement with
  | none => check (reject .missingAuthnStatement "assertion has no AuthnStatement")
  | some statement => do
    let authnInstant ← check (g.requiredInstant statement "AuthnInstant")
    g.checkAge authnInstant
    let context := (statement.findDeep qAuthnContextClassRef).map fun classRef =>
      Text.strip (textOf (some classRef))
    return (authnInstant, context.filter (· ≠ ""), statement.get "SessionIndex")

/-! ## 14. Replay -/

/-- `_check_replay`. -/
def checkReplay (assertion : Element) (expiry : DateTime T) : Steps T Unit := do
  let assertionId ← check (requiredAttribute assertion "ID")
  let now ← readClock
  let stored ← remember assertionId (expiry.time - now + g.policy.clockSkew)
  check (rejectIf (stored = false) .replayDetected
    ("assertion " ++ Text.pyRepr assertionId ++ " has been seen"))

/-! ## Extraction -/

/-- `_name_id`. -/
def nameId (assertion : Element) : Except SamlRejected String := do
  let value := Text.strip (textOf (assertion.findPath qSubject qNameId))
  rejectIf (value = "") .subjectConfirmationInvalid "assertion has no NameID"
  return value

/-- `_name_id_format`. -/
def nameIdFormat (assertion : Element) : Option String :=
  (assertion.findPath qSubject qNameId).bind (·.get "Format")

/-- The `AssertionFacts` that `validate` returns, with what the checks before it found. -/
def extract (idp : TrustedIdP) (assertion : Element) (request : Option (OutstandingRequest T))
    (notOnOrAfter : DateTime T) (statement : DateTime T × Option String × Option String) :
    Except SamlRejected (AssertionFacts T) := do
  let assertionId ← requiredAttribute assertion "ID"
  let name ← nameId assertion
  return {
    issuer := idp.entityId
    assertionId := assertionId
    nameId := name
    nameIdFormat := nameIdFormat assertion
    notOnOrAfter := notOnOrAfter
    authnInstant := statement.1
    authnContext := statement.2.1
    sessionIndex := statement.2.2
    attributes := attributes assertion
    relayState := request.map (·.relayState)
    returnTo := request.bind (·.returnTo)
    correlationId := request.bind (·.correlationId) }

/-! ## The sequence -/

/-- What `validate` does once it has a verified assertion. -/
def conclude (root : Element) (idp : TrustedIdP) (assertion : Element) :
    Steps T (AssertionFacts T) := do
  check (g.checkDestination root)
  let request ← consumeRequest root idp
  check (g.checkAudience assertion)
  let notOnOrAfter ← g.checkConditions assertion
  g.checkSubjectConfirmation assertion request
  let statement ← g.checkAuthnStatement assertion
  g.checkReplay assertion notOnOrAfter
  check (extract idp assertion request notOnOrAfter statement)

/-- The checks on the document that need no answer. -/
def inspect (document : Bytes) : Except SamlRejected Element := do
  let root ← parseSaml g.fromstring document
  assertNoWrapping root
  checkStatus root
  return root

/-- `AssertionGate.validate`. -/
def validate (document : Bytes) : Steps T (AssertionFacts T) := do
  let root ← check (g.inspect document)
  let idp ← resolveIssuer root
  let assertion ← check (g.verify root idp)
  g.conclude root idp assertion

/-! ## What a gate that returned went through -/

theorem requiredAttribute_ok {element : Element} {name value : String}
    (h : requiredAttribute element name = .ok value) : element.get name = some value := by
  unfold requiredAttribute at h
  cases hget : element.get name with
  | none => simp [hget] at h
  | some found =>
    rw [hget] at h
    exact congrArg some (Except.ok.inj h)

omit [AddCommGroup T] [LinearOrder T] in
theorem extract_ok {idp : TrustedIdP} {assertion : Element}
    {request : Option (OutstandingRequest T)} {notOnOrAfter : DateTime T}
    {statement : DateTime T × Option String × Option String} {facts : AssertionFacts T}
    (h : extract idp assertion request notOnOrAfter statement = .ok facts) :
    assertion.get "ID" = some facts.assertionId ∧ facts.notOnOrAfter = notOnOrAfter ∧
      facts.issuer = idp.entityId := by
  obtain ⟨assertionId, hid, h⟩ := Eff.except_bind_eq_ok.mp h
  obtain ⟨name, -, h⟩ := Eff.except_bind_eq_ok.mp h
  obtain rfl := Except.ok.inj h
  exact ⟨requiredAttribute_ok hid, rfl, rfl⟩

omit [LinearOrder T] in
/-- A replay check that passed remembered the `ID`, for what was left of the window. -/
theorem checkReplay_returns {assertion : Element} {expiry : DateTime T}
    {h : List (Σ c : Command T, Reply c)} {u : Unit}
    (hret : (g.checkReplay assertion expiry).Returns h u) :
    ∃ assertionId now, assertion.get "ID" = some assertionId ∧
      h = [⟨.now, now⟩,
        ⟨.remember assertionId (expiry.time - now + g.policy.clockSkew), true⟩] := by
  obtain ⟨assertionId, hid, hnow⟩ := returns_check_bind.mp hret
  obtain ⟨now, h₁, rfl, hremember⟩ := returns_ask_bind.mp hnow
  obtain ⟨stored, h₂, rfl, hcheck⟩ := returns_ask_bind.mp hremember
  obtain ⟨rfl, hstored⟩ := returns_check.mp hcheck
  obtain rfl : stored = true := by simpa using hstored
  exact ⟨assertionId, now, requiredAttribute_ok hid, rfl⟩

/-- **The last thing an accepted assertion went through is the replay cache.** -/
theorem conclude_returns {root assertion : Element} {idp : TrustedIdP}
    {h : List (Σ c : Command T, Reply c)} {facts : AssertionFacts T}
    (hret : (g.conclude root idp assertion).Returns h facts) :
    ∃ before now, h = before ++ [⟨.now, now⟩,
      ⟨.remember facts.assertionId (facts.notOnOrAfter.time - now + g.policy.clockSkew), true⟩] := by
  obtain ⟨_, -, hret⟩ := returns_check_bind.mp hret
  obtain ⟨request, h₁, t₁, rfl, -, hret₁⟩ := returns_bind.mp hret
  obtain ⟨_, -, hret₂⟩ := returns_check_bind.mp hret₁
  obtain ⟨notOnOrAfter, h₂, t₂, rfl, -, hret₃⟩ := returns_bind.mp hret₂
  obtain ⟨_, h₃, t₃, rfl, -, hret₄⟩ := returns_bind.mp hret₃
  obtain ⟨statement, h₄, t₄, rfl, -, hret₅⟩ := returns_bind.mp hret₄
  obtain ⟨_, h₅, t₅, rfl, hreplay, hextract⟩ := returns_bind.mp hret₅
  obtain ⟨rfl, hfacts⟩ := returns_check.mp hextract
  obtain ⟨assertionId, now, hid, rfl⟩ := g.checkReplay_returns hreplay
  obtain ⟨hid', hexpiry, -⟩ := extract_ok hfacts
  obtain rfl : assertionId = facts.assertionId := Option.some.inj (hid.symm.trans hid')
  exact ⟨h₁ ++ (h₂ ++ (h₃ ++ h₄)), now, by rw [hexpiry]; simp⟩

/-! ## What the gate asks -/

/-- The commands of `conclude`: the clock, the request the document answers, and the `ID` of
the assertion. -/
def Concludes (inResponseTo assertionId : Option String) : Command T → Prop
  | .now => True
  | .consume requestId => inResponseTo = some requestId
  | .remember identifier _ => assertionId = some identifier
  | _ => False

omit [AddCommGroup T] [LinearOrder T] in
theorem consumeRequest_only (root : Element) (idp : TrustedIdP) (assertionId : Option String) :
    (consumeRequest root idp : Steps T _).run.Only
      (Concludes (root.get "InResponseTo") assertionId) := by
  unfold consumeRequest
  split
  · exact only_bind (only_check _) fun _ => only_pure _
  · rename_i inResponseTo hroot
    refine only_bind (only_ask hroot) fun request => ?_
    cases request with
    | none => exact only_check _
    | some request => exact only_bind (only_check _) fun _ => only_pure _

theorem checkConditions_only (assertion : Element) (inResponseTo assertionId : Option String) :
    (g.checkConditions assertion).run.Only (Concludes inResponseTo assertionId) := by
  unfold checkConditions
  split
  · exact only_check _
  · exact only_bind (only_check _) fun _ => only_bind (only_ask trivial) fun _ => only_check _

theorem checkConfirmationData_only (data : Element) (request : Option (OutstandingRequest T))
    (inResponseTo assertionId : Option String) :
    (g.checkConfirmationData data request).run.Only (Concludes inResponseTo assertionId) := by
  refine only_bind (only_check _) fun _ => ?_
  refine only_bind (only_check _) fun expiry => ?_
  refine only_bind (only_ask trivial) fun now => ?_
  exact only_bind (only_check _) fun _ => only_check _

theorem checkSubjectConfirmation_only (assertion : Element)
    (request : Option (OutstandingRequest T)) (inResponseTo assertionId : Option String) :
    (g.checkSubjectConfirmation assertion request).run.Only
      (Concludes inResponseTo assertionId) := by
  unfold checkSubjectConfirmation
  split
  · exact only_check _
  · split
    · exact g.checkConfirmationData_only _ request _ _
    · exact only_check _

theorem checkAuthnStatement_only (assertion : Element) (inResponseTo assertionId : Option String) :
    (g.checkAuthnStatement assertion).run.Only (Concludes inResponseTo assertionId) := by
  unfold checkAuthnStatement checkAge
  split
  · exact only_check _
  · refine only_bind (only_check _) fun _ => only_bind ?_ fun _ => only_pure _
    split
    · exact only_pure _
    · exact only_bind (only_ask trivial) fun _ => only_check _

omit [LinearOrder T] in
theorem checkReplay_only (assertion : Element) (expiry : DateTime T)
    (inResponseTo : Option String) :
    (g.checkReplay assertion expiry).run.Only (Concludes inResponseTo (assertion.get "ID")) := by
  refine only_check_bind fun assertionId hid => ?_
  exact only_bind (only_ask trivial) fun _ =>
    only_bind (only_ask (requiredAttribute_ok hid)) fun _ => only_check _

/-- **After verification the gate asks for nothing but this.** -/
theorem conclude_only (root : Element) (idp : TrustedIdP) (assertion : Element) :
    (g.conclude root idp assertion).run.Only
      (Concludes (root.get "InResponseTo") (assertion.get "ID")) := by
  refine only_bind (only_check _) fun _ => ?_
  refine only_bind (consumeRequest_only root idp _) fun request => ?_
  refine only_bind (only_check _) fun _ => ?_
  refine only_bind (g.checkConditions_only assertion _ _) fun notOnOrAfter => ?_
  refine only_bind (g.checkSubjectConfirmation_only assertion request _ _) fun _ => ?_
  refine only_bind (g.checkAuthnStatement_only assertion _ _) fun statement => ?_
  exact only_bind (g.checkReplay_only assertion notOnOrAfter _) fun _ => only_check _

/-- The commands of `validate` on a document. -/
def Asks (document : Bytes) : Command T → Prop
  | .now => True
  | .resolve issuer => ∃ root, g.inspect document = .ok root ∧ selectIssuer root = .ok issuer
  | .consume requestId => ∃ root, g.inspect document = .ok root ∧
      root.get "InResponseTo" = some requestId
  | .remember identifier _ => ∃ root idp assertion, g.inspect document = .ok root ∧
      g.verify root idp = .ok assertion ∧ assertion.get "ID" = some identifier
  | _ => False

theorem validate_only (document : Bytes) :
    (g.validate document).run.Only (g.Asks document) := by
  refine only_check_bind fun root hroot => ?_
  refine only_bind ?_ fun idp => only_check_bind fun assertion hverify => ?_
  · refine only_check_bind fun issuer hissuer => only_bind (only_ask ⟨root, hroot, hissuer⟩) ?_
    intro idp
    cases idp with
    | none => exact only_check _
    | some idp => exact only_pure _
  · refine (g.conclude_only root idp assertion).mono fun c hc => ?_
    cases c with
    | now => trivial
    | consume requestId => exact ⟨root, hroot, hc⟩
    | remember identifier ttl => exact ⟨root, idp, assertion, hroot, hverify, hc⟩
    | _ => exact hc.elim

end Gate

end Saml
end CampusID
