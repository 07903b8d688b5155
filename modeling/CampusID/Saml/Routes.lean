import CampusID.Saml.Gate

/-!
# The SAML endpoints

`start_sso` and `assertion_consumer_service`, as programs over the commands.  What a request
brings is an argument: the query or the form, the binding cookie, the peer's address; and so
is what the handler draws at random, so that a statement can say what it assumes of the
generator.

What each handler writes is bounded by `Prog.Only`: a login writes its own request under its
own `RelayState` (`startSso_only`), and the consumer writes neither (`acs_only`).
-/

namespace CampusID
namespace Saml

open Lib Raising

/-- A `GET /saml/sso`, with what the handler draws for it. -/
structure SsoCall where
  idp : Option String := none
  returnTo : Option String := none
  correlationId : Option String := none
  requestId : String
  relayState : String
  bindingNonce : String
  deriving DecidableEq, Repr

/-- What `start_sso` answers. -/
inductive SsoAnswer where
  | rejected (reason : ReasonCode)
  | discovery
  | redirected
  deriving DecidableEq, Repr

/-- A `POST /saml/acs`, with the binding cookie the browser sends and the session id the
handler draws. -/
structure AcsCall where
  samlResponse : String
  relayState : Option String
  cookie : Option String
  address : Option String := none
  sid : String
  deriving DecidableEq, Repr

/-- What `assertion_consumer_service` answers. -/
inductive AcsAnswer (T : Type) where
  | throttled
  | rejected (reason : ReasonCode)
  | established (facts : AssertionFacts T) (personUuid sid : String)
  deriving DecidableEq, Repr

/-- `local_path`. -/
def localPath (candidate : Option String) : Except SamlRejected (Option String) :=
  match candidate with
  | none => .ok none
  | some path =>
    if ¬ ("/".toList <+: path.toList) ∨ "//".toList <+: path.toList ∨
        "/\\".toList <+: path.toList ∨ '\\' ∈ path.toList ∨ "://".toList <:+: path.toList then
      reject .invalidReturnUrl (Text.pyRepr path ++ " is not a local path")
    else .ok (some path)

/-- `idp or state.settings.saml_default_idp`. -/
def idpOr (idp fallback : Option String) : Option String :=
  if idp = none ∨ idp = some "" then fallback else idp

section Handlers

variable {T : Type} [Field T] [LinearOrder T]

/-- `REQUEST_TTL`. -/
def requestTtl : T := 300

/-- The request that `start_sso` remembers. -/
def outstanding (call : SsoCall) (entityId : String) (destination : Option String)
    (createdAt : T) : OutstandingRequest T where
  requestId := call.requestId
  idpEntityId := entityId
  relayState := call.relayState
  createdAt := createdAt
  returnTo := destination
  correlationId := call.correlationId

/-- `start_sso`. -/
def startSso (defaultIdp : Option String) (call : SsoCall) : SamlProg T SsoAnswer :=
  match localPath call.returnTo with
  | .error e => .pure (.rejected e.reason)
  | .ok destination =>
    match idpOr call.idp defaultIdp with
    | none => .pure .discovery
    | some entityId =>
      .call (.describe entityId) fun descriptor =>
        match descriptor with
        | none => .pure (.rejected .unknownIssuer)
        | some described =>
          .call .now fun createdAt =>
          .call (.storeRequest (outstanding call described destination createdAt) requestTtl)
            fun _ =>
          .call (.setBinding call.relayState call.bindingNonce requestTtl) fun _ =>
          .pure .redirected

/-- `assert_request_binding`. -/
def assertRequestBinding (call : AcsCall) : Steps T Unit :=
  match call.relayState with
  | none => check (reject .requestBindingInvalid "response carries no RelayState")
  | some relayState => do
    let expected ← takeBinding relayState
    check (rejectIf (call.cookie = none ∨ expected = none ∨ call.cookie ≠ expected)
      .requestBindingInvalid "the response was not solicited by this browser")

/-- `_decode`. -/
def decode (encoded : String) : Except SamlRejected Bytes :=
  match b64decode true encoded with
  | none => reject .malformedResponse "SAMLResponse is not valid base64"
  | some document => .ok document

/-- The part of the consumer whose failures are one rejection, with what `_decode` makes of
the form field. -/
def authenticate (g : Gate T) (call : AcsCall) (decoded : Except SamlRejected Bytes) :
    Steps T (AssertionFacts T) := do
  assertRequestBinding call
  let document ← check decoded
  g.validate document

/-- What the consumer does with the facts. -/
def seat (call : AcsCall) : Except SamlRejected (AssertionFacts T) → SamlProg T (AcsAnswer T)
  | .error e => .pure (.rejected e.reason)
  | .ok facts =>
    .call (.resolvePerson facts) fun person =>
      match person with
      | .error e => .pure (.rejected e.reason)
      | .ok personUuid => .pure (.established facts personUuid call.sid)

/-- `assertion_consumer_service`, with what `_decode` makes of the form field. -/
def acsWith (g : Gate T) (call : AcsCall) (decoded : Except SamlRejected Bytes) :
    SamlProg T (AcsAnswer T) :=
  .call (.checkThrottle call.address) fun allowed =>
    if allowed = false then .pure .throttled
    else (authenticate g call decoded).run.bind (seat call)

/-- `assertion_consumer_service`. -/
def acs (g : Gate T) (call : AcsCall) : SamlProg T (AcsAnswer T) :=
  acsWith g call (decode call.samlResponse)

/-! ## What the handlers touch -/

/-- What a login writes: its own request, and its own nonce under its own `RelayState`. -/
def WritesOwn (call : SsoCall) : Command T → Prop
  | .storeRequest request _ =>
    request.requestId = call.requestId ∧ request.relayState = call.relayState
  | .setBinding relayState nonce _ => relayState = call.relayState ∧ nonce = call.bindingNonce
  | .now => True
  | .describe _ => True
  | _ => False

omit [LinearOrder T] in
theorem startSso_only (defaultIdp : Option String) (call : SsoCall) :
    (startSso defaultIdp call : SamlProg T SsoAnswer).Only (WritesOwn call) := by
  unfold startSso
  split
  · trivial
  · split
    · trivial
    · refine ⟨trivial, fun descriptor => ?_⟩
      cases descriptor with
      | none => trivial
      | some described =>
        exact ⟨trivial, fun _ => ⟨⟨rfl, rfl⟩, fun _ => ⟨⟨rfl, rfl⟩, fun _ => trivial⟩⟩⟩

/-- What the consumer leaves alone: it writes no request and no nonce, and takes the nonce of
the posted `RelayState` only. -/
def TakesOwn (call : AcsCall) : Command T → Prop
  | .storeRequest _ _ => False
  | .setBinding _ _ _ => False
  | .takeBinding relayState => call.relayState = some relayState
  | _ => True

theorem validate_takesOwn (g : Gate T) (call : AcsCall) (document : Bytes) :
    (g.validate document).run.Only (TakesOwn call) := by
  refine (g.validate_only document).mono fun c hc => ?_
  cases c with
  | takeBinding relayState => exact hc.elim
  | storeRequest request ttl => exact hc.elim
  | setBinding relayState nonce ttl => exact hc.elim
  | _ => trivial

omit [Field T] [LinearOrder T] in
theorem assertRequestBinding_takesOwn (call : AcsCall) :
    (assertRequestBinding call : Steps T Unit).run.Only (TakesOwn call) := by
  unfold assertRequestBinding
  split
  · exact only_check _
  · rename_i relayState hposted
    exact only_bind (only_ask hposted) fun _ => only_check _

theorem acs_only (g : Gate T) (call : AcsCall) : (acs g call).Only (TakesOwn call) := by
  refine ⟨trivial, fun allowed => ?_⟩
  cases allowed with
  | false => trivial
  | true =>
    refine Prog.Only.bind ?_ fun r => ?_
    · exact only_bind (assertRequestBinding_takesOwn call) fun _ =>
        only_bind (only_check _) fun _ => validate_takesOwn g call _
    · cases r with
      | error e => trivial
      | ok facts =>
        refine ⟨trivial, fun person => ?_⟩
        cases person with
        | error e => trivial
        | ok personUuid => trivial

omit [Field T] [LinearOrder T] in
/-- A binding check that passed found the nonce of the cookie under the posted
`RelayState`. -/
theorem assertRequestBinding_returns {call : AcsCall} {h : List (Σ c : Command T, Reply c)}
    {u : Unit} (hret : (assertRequestBinding call : Steps T Unit).Returns h u) :
    ∃ relayState nonce, call.relayState = some relayState ∧ call.cookie = some nonce ∧
      h = [⟨.takeBinding relayState, some nonce⟩] := by
  unfold assertRequestBinding at hret
  cases hposted : call.relayState with
  | none => simp [hposted] at hret
  | some relayState =>
    simp only [hposted] at hret
    obtain ⟨expected, h', rfl, hcheck⟩ := returns_ask_bind.mp hret
    obtain ⟨rfl, hsame⟩ := returns_check.mp hcheck
    rw [rejectIf_eq_ok, not_or, not_or, not_not] at hsame
    obtain ⟨hcookie, -, rfl⟩ := hsame
    obtain ⟨nonce, hnonce⟩ := Option.ne_none_iff_exists'.mp hcookie
    exact ⟨relayState, nonce, rfl, hnonce, by rw [hnonce]⟩

/-- **A login that was established had its binding matched**, and then its response
validated. -/
theorem acs_established {g : Gate T} {call : AcsCall} {h : List (Σ c : Command T, Reply c)}
    {facts : AssertionFacts T} {personUuid sid : String}
    (hf : Prog.Follows (acs g call) h (.pure (.established facts personUuid sid))) :
    ∃ relayState nonce document before after, call.relayState = some relayState ∧
      call.cookie = some nonce ∧ (g.validate document).Returns before facts ∧
      h = [⟨.checkThrottle call.address, true⟩, ⟨.takeBinding relayState, some nonce⟩] ++ before ++
        after := by
  rcases Prog.Follows.call_iff.mp hf with ⟨-, heq⟩ | ⟨allowed, h', rfl, hallowed⟩
  · cases heq
  · cases allowed with
    | false =>
      obtain ⟨-, heq⟩ := Prog.Follows.pure_iff.mp hallowed
      cases heq
    | true =>
      obtain ⟨r, h₁, h₂, rfl, hauth, hseat⟩ := Prog.Follows.bind_pure.mp hallowed
      cases r with
      | error e =>
        obtain ⟨-, heq⟩ := Prog.Follows.pure_iff.mp hseat
        cases heq
      | ok facts' =>
        rcases Prog.Follows.call_iff.mp hseat with ⟨-, heq⟩ | ⟨person, h₃, rfl, hperson⟩
        · cases heq
        · cases person with
          | error e =>
            obtain ⟨-, heq⟩ := Prog.Follows.pure_iff.mp hperson
            cases heq
          | ok uuid =>
            obtain ⟨-, heq⟩ := Prog.Follows.pure_iff.mp hperson
            obtain ⟨rfl, rfl, rfl⟩ : facts = facts' ∧ personUuid = uuid ∧ sid = call.sid := by
              simpa using heq
            obtain ⟨_, h₄, h₅, rfl, hbind, hrest⟩ := returns_bind.mp hauth
            obtain ⟨relayState, nonce, hposted, hcookie, rfl⟩ := assertRequestBinding_returns hbind
            obtain ⟨document, -, hvalidate⟩ := returns_check_bind.mp hrest
            exact ⟨relayState, nonce, document, h₅, ⟨.resolvePerson facts, .ok personUuid⟩ :: h₃,
              hposted, hcookie, hvalidate, by simp⟩

end Handlers

end Saml
end CampusID
