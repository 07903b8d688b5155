import CampusID.Lib.Effects
import CampusID.Lib.Taken
import CampusID.Mfa.Evidence
import CampusID.Mfa.RateLimit
import CampusID.Mfa.RecoveryCodes
import CampusID.Mfa.SignCounts

/-!
# The MFA routes, the guard of the console and the impersonation route

One request at a time, over the sessions and challenges in Redis, the tables of factors and
recovery codes, the push service and the counters of the limiter.  The routes run the programs
of the stores; what a route returns early is raised.

Every MFA route loads the session of its cookie and asks for its person (`signedIn`).  The step-up
routes then verify something and hand over to `_elevate` (`StepUp`); the others leave the
sessions alone (`Request.quiet`).

The audit records, the metrics and the decision cache are left out, as is the provisioning URI of
a new secret.  What an attestation is checked for is a parameter, like the checks of an assertion.
-/

namespace CampusID
namespace Mfa

open Lib
open Lib.ReadCommitted

/-! ## The application -/

/-- What the browser sends back when it has created a credential, and what it is checked against. -/
structure AttestationResponse where
  clientData : List Nat
  attestationObject : List Nat
  challenge : List Nat
  origin : String
  rpId : String
  deriving DecidableEq, Repr

/-- `Registration`. -/
structure Registration where
  credentialId : List Nat
  publicKey : List Nat
  signCount : Nat
  algorithm : Int
  deriving DecidableEq, Repr

/-- What `request.app.state` holds that does not change: the settings, and the stores' own. -/
structure App where
  sessions : SessionStore
  limiter : AttemptLimiter := {}
  push : Option PushClient
  mac : Mac
  ceremony : CeremonyChecks
  attestation : AttestationResponse → Except String Registration
  matching : String → String → Bool
  origin : String
  rpId : String
  production : Bool
  fixtures : List String
  personFor : String → Option String

/-- What it holds that does. -/
structure AppState where
  redis : Redis
  challenges : Table (String × String) (fun _ => List Nat) Int
  factors : List MfaFactor
  codes : List RecoveryCode
  pushes : PushState
  limits : String × Kind → LimitState
  roles : String → List String

/-- The JSON of an answer. -/
inductive Body where
  | error (error : String)
  | lockedOut (error : String) (retryAfter : Int)
  | totp (id label secret : String)
  | confirmed (id : String)
  | creation (challenge : List Nat) (excludeCredentials : List (List Nat))
  | webauthn (id label : String)
  | offer (acr : Option String) (amr factors simulated : List String)
    (webauthn : Option (List Nat × List (List Nat)))
  | raised (id : String) (expiresIn : Int)
  | pending
  | elevated (assurance : Assurance)
  | codes (codes : List String)
  | factors (rows : List MfaFactor)
  | disabled (id : String)
  | impersonating (subject personUuid impersonatedBy : String)
  deriving DecidableEq, Repr

/-- An answer, and the session cookie it sets. -/
structure Answer where
  status : Nat
  body : Body
  cookie : Option String := none
  deriving DecidableEq, Repr

/-- A route, or a part of one.  What it raises is an answer too. -/
abbrev Handler (α : Type) := Eff AppState Answer α

/-- `UNAUTHENTICATED`. -/
def unauthenticated : String := "authentication_required"

/-- `UNRESOLVED`. -/
def unresolved : String := "identity_not_resolved"

/-- `BAD_REQUEST`. -/
def badRequest : String := "invalid_request"

/-- `REJECTED`. -/
def rejected : String := "verification_failed"

/-- `NOT_FOUND`. -/
def notFound : String := "not_found"

/-- `STEP_UP_REQUIRED`. -/
def stepUpRequired : String := "step_up_required"

/-- `PUSH_UNAVAILABLE`. -/
def pushUnavailableError : String := "push_unavailable"

/-- `REASON_REQUIRED`. -/
def reasonRequired : String := "reason_required"

/-- `NOT_A_FIXTURE`. -/
def notAFixture : String := "not_a_fixture_account"

/-- `LOCKED`. -/
def lockedOutReason : String := "mfa.locked_out"

/-- `DUPLICATE_LABEL`. -/
def duplicateLabel : String := "mfa.duplicate_label"

/-- `DUPLICATE_CREDENTIAL`. -/
def duplicateCredential : String := "mfa.credential_already_registered"

/-- `ADMIN_ROLE`. -/
def adminRole : String := "iam-admin"

/-- `MAX_LABEL`. -/
def maxLabel : Nat := 128

/-- `MAX_REASON`. -/
def maxReason : Nat := 512

/-- `REGISTER`. -/
def registerCeremony : String := "register"

/-- `AUTHENTICATE`. -/
def authenticateCeremony : String := "authenticate"

/-- `TTL` of a challenge: five minutes. -/
def challengeLife : Int := 5 * 60 * second

/-- `_refuse`. -/
def refusal (error : String) (status : Nat) : Answer := { status := status, body := .error error }

/-- `_locked`. -/
def lockedAnswer (retryAfter : Int) : Answer :=
  { status := 429, body := .lockedOut lockedOutReason retryAfter }

/-- `CATEGORY`. -/
def FactorKind.category : FactorKind → String
  | .totp => otp
  | .webauthn => hwk
  | .push => Mfa.push

/-! ## The stores, from a route -/

section Stores

variable {α : Type} (now : Int)

/-- A program of the session store. -/
def ofSessions (p : RedisProg α) : Handler α :=
  Eff.step fun s => ((Redis.run now p s.redis).1, { s with redis := (Redis.run now p s.redis).2 })

/-- A transaction on the factors. -/
def onFactors (p : FactorProgram Unit α) : Handler α :=
  Eff.step fun s =>
    let out := Prog.run (Db.exec factors) p (Db.start s.factors)
    (out.1, { s with factors := out.2.rows })

/-- A transaction on the recovery codes. -/
def onCodes (p : RecoveryProgram Unit α) : Handler α :=
  Eff.step fun s =>
    let out := Prog.run (Db.exec recoveryCodes) p (Db.start s.codes)
    (out.1, { s with codes := out.2.rows })

/-- A call of the push client. -/
def onPush (p : PushProgram α) : Handler α :=
  Eff.step fun s =>
    let out := Prog.run (PushState.exec now) p s.pushes
    (out.1, { s with pushes := out.2 })

/-- A call of the limiter. -/
def onLimit (person : String) (kind : Kind) (p : LimitProgram α) : Handler α :=
  Eff.step fun s =>
    let out := Prog.run (LimitState.exec now) p (s.limits (person, kind))
    (out.1, { s with limits := Function.update s.limits (person, kind) out.2 })

/-- `ChallengeStore.issue`, with the challenge it draws. -/
def issueChallenge (person ceremony : String) (challenge : List Nat) : Handler Unit :=
  Eff.update fun s => { s with
    challenges := s.challenges.put (ceremony, person) challenge (some (now + challengeLife)) }

/-- `ChallengeStore.consume`. -/
def consumeChallenge (person ceremony : String) : Handler (Option (List Nat)) :=
  Eff.step fun s => (s.challenges.live now (ceremony, person),
    { s with challenges := s.challenges.erase (ceremony, person) })

/-- `_confirmed`, of any kind. -/
def confirmedFactors (person : String) : Handler (List MfaFactor) :=
  Eff.read fun s => s.factors.filter fun f =>
    f.personUuid = person ∧ f.disabledAt = none ∧ f.confirmedAt ≠ none

/-- `credential_ids`. -/
def credentialIds (person : String) : Handler (List (List Nat)) :=
  Eff.read fun s => (s.factors.filter (FactorQuery.confirmed person .webauthn).selects).filterMap
    MfaFactor.credentialId

end Stores

/-! ## Outstanding challenges -/

/-- A call of `ChallengeStore`. -/
inductive ChallengeCall where
  | issue (now : Int) (person ceremony : String) (challenge : List Nat)
  | consume (now : Int) (person ceremony : String)

namespace ChallengeCall

/-- What a call leaves. -/
def leave (s : AppState) : ChallengeCall → AppState
  | .issue now person ceremony challenge => ((issueChallenge now person ceremony challenge).run s).2
  | .consume now person ceremony => ((consumeChallenge now person ceremony).run s).2

/-- The access that a call makes. -/
def access : ChallengeCall → Option (Access (String × String) (List Nat) Int)
  | .issue now person ceremony challenge =>
    some (.put now (ceremony, person) challenge challengeLife)
  | .consume _ person ceremony => some (.take (ceremony, person))

/-- **Which challenge is outstanding**: the last one issued, if none was consumed since. -/
theorem consumeChallenge_eq_some_iff (s : AppState) (calls : List ChallengeCall) (now : Int)
    (person ceremony : String) (challenge : List Nat) :
    ((consumeChallenge now person ceremony).run
        (calls.foldl leave { s with challenges := Table.empty })).1 = .ok (some challenge) ↔
      ∃ issuedAt, (calls.filter (Table.about access (ceremony, person))).getLast? =
        some (.issue issuedAt person ceremony challenge) ∧ now < issuedAt + challengeLife := by
  have hfold : (calls.foldl leave { s with challenges := Table.empty }).challenges =
      calls.foldl (Table.afterCall access) Table.empty :=
    (List.foldl_hom AppState.challenges fun _ call => by cases call <;> rfl).symm
  refine Except.ok.injEq .. |>.to_iff.trans ?_
  dsimp only
  rw [hfold, Table.live_foldl_iff]
  constructor
  · rintro ⟨call, issuedAt, ex, hlast, haccess, htime⟩
    cases call with
    | issue now' person' ceremony' challenge' =>
      simp [access] at haccess
      grind
    | consume => cases haccess
  · rintro ⟨issuedAt, hlast, htime⟩
    exact ⟨_, issuedAt, challengeLife, hlast, rfl, htime⟩

end ChallengeCall

/-! ## The routes -/

/-- `_caller`, and the refusal of every route where there is none. -/
def App.caller (app : App) (now : Int) (sid : String) : Handler Session := do
  let session : Option Session ← ofSessions now (app.sessions.load sid now)
  match session with
  | none => Eff.raise (refusal unauthenticated 401)
  | some session => return session

/-- The preamble of the MFA routes: the session and its person. -/
def App.signedIn (app : App) (now : Int) (sid : String)
    (route : Session → String → Handler Answer) : Handler Answer := do
  let session ← app.caller now sid
  match session.personUuid with
  | none => Eff.raise (refusal unresolved 409)
  | some person => route session person

/-- `AttemptLimiter.check`, and the refusal where it raises. -/
def checkLimit (now : Int) (person : String) (kind : Kind) : Handler Unit := do
  let remaining : Int ← onLimit now person kind (limitCommand .ttl)
  if 0 < remaining then Eff.raise (lockedAnswer remaining)
  else return ()

/-- `_failed`. -/
def App.failed (app : App) (now : Int) (person : String) (kind : Kind) : Handler Unit := do
  let outcome ← onLimit now person kind app.limiter.recordFailure
  if outcome.locked then Eff.raise (lockedAnswer (15 * 60))
  else Eff.raise (refusal rejected 400)

/-- `_elevate`. -/
def App.elevate (app : App) (now : Int) (session : Session) (person : String) (kind : Kind)
    (fresh : String) : Handler Answer := do
  let _ : Nat ← onLimit now person kind (limitCommand .clear)
  let elevated : Option (Assurance × Session) ←
    ofSessions now (Mfa.elevate app.sessions session kind fresh now now)
  match elevated with
  | none => Eff.raise (refusal unauthenticated 401)
  | some (raised, elevated) =>
    return { status := 200, body := .elevated raised, cookie := some elevated.sid }

/-- A step-up route: the kind it names to `_elevate`, the identifier that one draws, and what
it verifies before. -/
structure StepUp where
  kind : Kind
  fresh : String
  verify : String → Handler Unit

/-- A step-up route, once it has its session and person. -/
def StepUp.route (app : App) (now : Int) (stepUp : StepUp) (session : Session) (person : String) :
    Handler Answer := do
  stepUp.verify person
  app.elevate now session person stepUp.kind stepUp.fresh

section Routes

variable (app : App) (now : Int)

/-- `begin_totp`, with the secret and the key it draws. -/
def beginTotp (label secret id : String) (_ : Session) (person : String) : Handler Answer :=
  let label := Text.strip label
  if label = "" ∨ maxLabel < label.length then Eff.raise (refusal badRequest 400)
  else do
    let taken ← Eff.read fun s => s.factors.any fun f => f.personUuid = person ∧ f.label = label
    if taken then Eff.raise (refusal duplicateLabel 409)
    else do
      onFactors do
        statement () (.insert [{ id := id, personUuid := person, kind := .totp, label := label,
                                 secret := some secret }])
        statement () .commit
      return { status := 201, body := .totp id label secret }

/-- The route of `confirm_totp`.  An id that is no UUID is not the id of a factor, and is answered
like one. -/
def confirmTotpRoute (factorId code : String) (_ : Session) (person : String) : Handler Answer := do
  let out ← onFactors (confirmTotp app.mac () person factorId code now)
  match out with
  | .ok _ => return { status := 200, body := .confirmed factorId }
  | .error reason =>
    if reason = noSuchFactor then Eff.raise (refusal notFound 404)
    else Eff.raise (refusal rejected 400)

/-- `webauthn_options`, with the challenge it draws. -/
def webauthnOptions (challenge : List Nat) (_ : Session) (person : String) : Handler Answer := do
  issueChallenge now person registerCeremony challenge
  let existing ← credentialIds person
  return { status := 200, body := .creation challenge existing }

/-- `register_webauthn` of the store, where `webauthn.register` has accepted the response. -/
def storeCredential (label id : String) (registration : Registration) (person : String) :
    Handler Answer := do
  let held ← Eff.read fun s => s.factors.any fun f =>
    f.credentialId = some registration.credentialId
  let taken ← Eff.read fun s => s.factors.any fun f => f.personUuid = person ∧ f.label = label
  if held then Eff.raise (refusal duplicateCredential 409)
  else if taken then Eff.raise (refusal duplicateLabel 409)
  else do
    onFactors do
      statement () (.insert [{ id := id, personUuid := person, kind := .webauthn, label := label,
                               credentialId := some registration.credentialId,
                               publicKey := some registration.publicKey,
                               signCount := some registration.signCount,
                               algorithm := some registration.algorithm, confirmedAt := some now }])
      statement () .commit
    return { status := 201, body := .webauthn id label }

/-- `register_webauthn`, with the key it draws. -/
def registerWebauthn (label : String) (clientData attestationObject : Option (List Nat))
    (id : String) (_ : Session) (person : String) : Handler Answer :=
  let label := Text.strip label
  if label = "" ∨ maxLabel < label.length then Eff.raise (refusal badRequest 400)
  else
    match clientData, attestationObject with
    | some clientData, some attestationObject => do
      let challenge ← consumeChallenge now person registerCeremony
      match challenge with
      | none => Eff.raise (refusal rejected 400)
      | some challenge =>
        match app.attestation { clientData, attestationObject, challenge, origin := app.origin,
                                rpId := app.rpId } with
        | .error _ => Eff.raise (refusal rejected 400)
        | .ok registration => storeCredential now label id registration person
    | _, _ => Eff.raise (refusal badRequest 400)

/-- `challenge`, with the challenge it draws. -/
def offerFactors (challenge : List Nat) (session : Session) (person : String) : Handler Answer := do
  let rows ← confirmedFactors person
  let credentials ← credentialIds person
  let categories := rows.map fun f => f.kind.category
  let available := if app.push = none then categories else push :: categories
  let simulated := if push ∈ available then [push] else []
  if credentials = [] then
    return { status := 200,
             body := .offer session.acr session.amr (sortedSet available) simulated none }
  else do
    issueChallenge now person authenticateCeremony challenge
    return { status := 200, body := .offer session.acr session.amr (sortedSet available) simulated
                                      (some (challenge, credentials)) }

/-- `step_up_totp`. -/
def stepUpTotp (code fresh : String) : StepUp where
  kind := .totp
  fresh := fresh
  verify person := do
    checkLimit now person .totp
    let out ← onFactors (verifyTotp app.mac () person code now)
    match out with
    | .error _ => app.failed now person .totp
    | .ok _ => return ()

/-- `step_up_webauthn` once its fields are decoded. -/
def verifyAssertion (credentialId clientData authenticatorData signature : List Nat)
    (person : String) : Handler Unit := do
  checkLimit now person .webauthn
  let outstanding ← consumeChallenge now person authenticateCeremony
  match outstanding with
  | none => app.failed now person .webauthn
  | some challenge => do
    let out ← onFactors (verifyWebauthn app.ceremony () person credentialId
      { clientData, authenticatorData, signature, challenge, origin := app.origin,
        rpId := app.rpId } now)
    match out with
    | .error _ => app.failed now person .webauthn
    | .ok _ => return ()

/-- `step_up_webauthn`. -/
def stepUpWebauthn (credentialId clientData authenticatorData signature : Option (List Nat))
    (fresh : String) : StepUp where
  kind := .webauthn
  fresh := fresh
  verify person :=
    match credentialId, clientData, authenticatorData, signature with
    | some credentialId, some clientData, some authenticatorData, some signature =>
      verifyAssertion app now credentialId clientData authenticatorData signature person
    | _, _, _, _ => Eff.raise (refusal badRequest 400)

/-- `start_push`, with the id the service draws and what becomes of the request to it. -/
def startPush (context requestId : String) (transport : Transport) (_ : Session)
    (person : String) : Handler Answer :=
  match app.push with
  | none => Eff.raise (refusal pushUnavailableError 503)
  | some client => do
    checkLimit now person .push
    let out ← onPush now (client.send person context requestId transport)
    match out with
    | .sent requestId => return { status := 201, body := .raised requestId 60 }
    | _ => Eff.raise (refusal pushUnavailableError 503)

/-- `poll_push`.  What the client raises leaves the route as an internal error. -/
def pollPush (requestId : String) (transport : Transport) (fresh : String) : StepUp where
  kind := .push
  fresh := fresh
  verify person :=
    match app.push with
    | none => Eff.raise (refusal pushUnavailableError 503)
    | some _ => do
      let out ← onPush now (outcome person requestId transport)
      match out with
      | .status status =>
        if status = pushPending then Eff.raise { status := 202, body := .pending }
        else if status = pushUnavailable then Eff.raise (refusal pushUnavailableError 503)
        else if status = pushApproved then return ()
        else app.failed now person .push
      | _ => Eff.raise (refusal "internal" 500)

/-- `step_up_recovery`. -/
def stepUpRecovery (code fresh : String) : StepUp where
  kind := .recovery
  fresh := fresh
  verify person := do
    checkLimit now person .recovery
    let out ← onCodes (redeemRecoveryCode app.matching () person code now)
    match out with
    | .redeemed _ => return ()
    | _ => app.failed now person .recovery

/-- `issue_recovery`, with the sheet it draws. -/
def issueRecovery (sheet : Sheet) (session : Session) (person : String) : Handler Answer :=
  if satisfiesAal2 session.amr then do
    let out ← onCodes (issueRecoveryCodes () person sheet now)
    match out with
    | .issued codes => return { status := 201, body := .codes codes }
    | _ => Eff.raise (refusal "internal" 500)
  else Eff.raise (refusal stepUpRequired 403)

/-- `factors`. -/
def listFactors (_ : Session) (person : String) : Handler Answer := do
  let rows ← Eff.read fun s => s.factors.filter fun f => f.personUuid = person
  return { status := 200, body := .factors rows }

/-- `disable_factor`. -/
def disableFactor (factorId : String) (_ : Session) (person : String) : Handler Answer := do
  let live ← Eff.read fun s => s.factors.any (FactorQuery.live person factorId).selects
  if live then do
    Eff.update fun s => { s with factors := s.factors.map fun f =>
      if (FactorQuery.live person factorId).selects f then { f with disabledAt := some now } else f }
    return { status := 200, body := .disabled factorId }
  else Eff.raise (refusal notFound 404)

end Routes

/-- A request to an MFA route. -/
inductive Request where
  | beginTotp (label secret id : String)
  | confirmTotp (factorId code : String)
  | webauthnOptions (challenge : List Nat)
  | registerWebauthn (label : String) (clientData attestationObject : Option (List Nat))
    (id : String)
  | challenge (challenge : List Nat)
  | stepUpTotp (code fresh : String)
  | stepUpWebauthn (credentialId clientData authenticatorData signature : Option (List Nat))
    (fresh : String)
  | startPush (context requestId : String) (transport : Transport)
  | pollPush (requestId : String) (transport : Transport) (fresh : String)
  | stepUpRecovery (code fresh : String)
  | issueRecovery (sheet : Sheet)
  | factors
  | disableFactor (factorId : String)

namespace Request

/-- The routes that step up. -/
def stepUp (app : App) (now : Int) : Request → Option StepUp
  | .stepUpTotp code fresh => some (Mfa.stepUpTotp app now code fresh)
  | .stepUpWebauthn credentialId clientData authenticatorData signature fresh =>
    some (Mfa.stepUpWebauthn app now credentialId clientData authenticatorData signature fresh)
  | .pollPush requestId transport fresh => some (Mfa.pollPush app now requestId transport fresh)
  | .stepUpRecovery code fresh => some (Mfa.stepUpRecovery app now code fresh)
  | _ => none

/-- The identifier a request draws for a session. -/
def fresh : Request → Option String
  | .stepUpTotp _ fresh => some fresh
  | .stepUpWebauthn _ _ _ _ fresh => some fresh
  | .pollPush _ _ fresh => some fresh
  | .stepUpRecovery _ fresh => some fresh
  | _ => none

/-- The route of a request, once it has its session and person. -/
def route (app : App) (now : Int) : Request → Session → String → Handler Answer
  | .beginTotp label secret id => Mfa.beginTotp label secret id
  | .confirmTotp factorId code => confirmTotpRoute app now factorId code
  | .webauthnOptions drawn => Mfa.webauthnOptions now drawn
  | .registerWebauthn label clientData attestationObject id =>
    Mfa.registerWebauthn app now label clientData attestationObject id
  | .challenge drawn => offerFactors app now drawn
  | .stepUpTotp code fresh => (Mfa.stepUpTotp app now code fresh).route app now
  | .stepUpWebauthn credentialId clientData authenticatorData signature fresh =>
    (Mfa.stepUpWebauthn app now credentialId clientData authenticatorData signature fresh).route
      app now
  | .startPush context requestId transport => Mfa.startPush app now context requestId transport
  | .pollPush requestId transport fresh =>
    (Mfa.pollPush app now requestId transport fresh).route app now
  | .stepUpRecovery code fresh => (Mfa.stepUpRecovery app now code fresh).route app now
  | .issueRecovery sheet => Mfa.issueRecovery now sheet
  | .factors => listFactors
  | .disableFactor factorId => Mfa.disableFactor now factorId

end Request

/-- A request with the session of a cookie. -/
def App.handle (app : App) (now : Int) (sid : String) (request : Request) : Handler Answer :=
  app.signedIn now sid (request.route app now)

/-! ## What the routes leave alone -/

/-- The sessions are these. -/
def SessionsAre (r : Redis) (s : AppState) : Prop := s.redis = r

/-- An answer that sets no cookie, over these sessions. -/
def Unset (r : Redis) (answer : Answer) (s : AppState) : Prop :=
  SessionsAre r s ∧ answer.cookie = none

/-- A part of a route that leaves the sessions alone, and sets no cookie where it ends the
route. -/
def Silent {α : Type} (r : Redis) (x : Handler α) : Prop :=
  Eff.Ensures (SessionsAre r) x (fun _ => SessionsAre r) (Unset r)

/-- A route that leaves the sessions alone and sets no cookie. -/
def SilentRoute (r : Redis) (x : Handler Answer) : Prop :=
  Eff.Ensures (SessionsAre r) x (Unset r) (Unset r)

section Silent

variable {α β : Type} {r : Redis} {now : Int}

theorem Silent.bind {x : Handler α} {f : α → Handler β} (hx : Silent r x)
    (hf : ∀ a, Silent r (f a)) : Silent r (x >>= f) := Eff.Ensures.bind hx hf

theorem Silent.route {x : Handler α} {f : α → Handler Answer} (hx : Silent r x)
    (hf : ∀ a, SilentRoute r (f a)) : SilentRoute r (x >>= f) := Eff.Ensures.bind hx hf

theorem silent_pure (a : α) : Silent r (pure a) := fun _ h => h

theorem silent_raise {answer : Answer} (h : answer.cookie = none) :
    Silent r (Eff.raise answer : Handler α) := fun _ hs => ⟨hs, h⟩

theorem silent_read (f : AppState → α) : Silent r (Eff.read f) := fun _ h => h

theorem silent_onFactors (p : FactorProgram Unit α) : Silent r (onFactors p) := fun _ h => h

theorem silent_onCodes (p : RecoveryProgram Unit α) : Silent r (onCodes p) := fun _ h => h

theorem silent_onPush (p : PushProgram α) : Silent r (onPush now p) := fun _ h => h

theorem silent_onLimit {person : String} {kind : Kind} (p : LimitProgram α) :
    Silent r (onLimit now person kind p) := fun _ h => h

theorem silent_issueChallenge {person ceremony : String} {challenge : List Nat} :
    Silent r (issueChallenge now person ceremony challenge) := fun _ h => h

theorem silent_consumeChallenge {person ceremony : String} :
    Silent r (consumeChallenge now person ceremony) := fun _ h => h

theorem silentRoute_pure {answer : Answer} (h : answer.cookie = none) :
    SilentRoute r (pure answer) := fun _ hs => ⟨hs, h⟩

theorem silentRoute_raise {answer : Answer} (h : answer.cookie = none) :
    SilentRoute r (Eff.raise answer) := fun _ hs => ⟨hs, h⟩

theorem silent_checkLimit {person : String} {kind : Kind} :
    Silent r (checkLimit now person kind) := by
  refine (silent_onLimit _).bind fun remaining => ?_
  split_ifs
  · exact silent_raise rfl
  · exact silent_pure ()

theorem silent_failed {app : App} {person : String} {kind : Kind} :
    Silent r (app.failed now person kind) := by
  refine (silent_onLimit _).bind fun outcome => ?_
  split_ifs
  · exact silent_raise rfl
  · exact silent_raise rfl

theorem silent_verify {app : App} {request : Request} {u : StepUp}
    (h : request.stepUp app now = some u) (person : String) : Silent r (u.verify person) := by
  cases request with
  | stepUpTotp code fresh =>
    cases h
    refine silent_checkLimit.bind fun _ => (silent_onFactors _).bind fun out => ?_
    cases out with
    | error reason => exact silent_failed
    | ok step => exact silent_pure ()
  | stepUpWebauthn credentialId clientData authenticatorData signature fresh =>
    cases h
    unfold stepUpWebauthn
    dsimp only
    split
    · refine silent_checkLimit.bind fun _ => silent_consumeChallenge.bind fun outstanding => ?_
      cases outstanding with
      | none => exact silent_failed
      | some challenge =>
        refine (silent_onFactors _).bind fun out => ?_
        cases out with
        | error reason => exact silent_failed
        | ok presented => exact silent_pure ()
    · exact silent_raise rfl
  | pollPush requestId transport fresh =>
    cases h
    unfold pollPush
    dsimp only
    split
    · exact silent_raise rfl
    · refine (silent_onPush _).bind fun out => ?_
      cases out with
      | status status =>
        dsimp only
        split_ifs
        · exact silent_raise rfl
        · exact silent_raise rfl
        · exact silent_pure ()
        · exact silent_failed
      | _ => exact silent_raise rfl
  | stepUpRecovery code fresh =>
    cases h
    refine silent_checkLimit.bind fun _ => (silent_onCodes _).bind fun out => ?_
    cases out with
    | redeemed remaining => exact silent_pure ()
    | _ => exact silent_failed
  | _ => cases h

theorem silent_storeCredential {label id person : String} {registration : Registration} :
    SilentRoute r (storeCredential now label id registration person) := by
  refine (silent_read _).route fun held => (silent_read _).route fun taken => ?_
  split_ifs
  · exact silentRoute_raise rfl
  · exact silentRoute_raise rfl
  · exact (silent_onFactors _).route fun _ => silentRoute_pure rfl

/-- **The routes that do not step up** leave the sessions alone. -/
theorem silent_route {app : App} {request : Request} (h : request.stepUp app now = none)
    (session : Session) (person : String) :
    SilentRoute r (request.route app now session person) := by
  cases request with
  | beginTotp label secret id =>
    change SilentRoute r (beginTotp label secret id session person)
    unfold beginTotp
    dsimp only
    split_ifs
    · exact silentRoute_raise rfl
    · refine (silent_read _).route fun taken => ?_
      split_ifs
      · exact silentRoute_raise rfl
      · exact (silent_onFactors _).route fun _ => silentRoute_pure rfl
  | confirmTotp factorId code =>
    refine (silent_onFactors _).route fun out => ?_
    cases out with
    | ok step => exact silentRoute_pure rfl
    | error reason =>
      dsimp only
      split_ifs
      · exact silentRoute_raise rfl
      · exact silentRoute_raise rfl
  | webauthnOptions drawn =>
    exact silent_issueChallenge.route fun _ => (silent_read _).route fun _ => silentRoute_pure rfl
  | registerWebauthn label clientData attestationObject id =>
    change SilentRoute r (registerWebauthn app now label clientData attestationObject id session
      person)
    unfold registerWebauthn
    dsimp only
    split_ifs
    · exact silentRoute_raise rfl
    · split
      · refine silent_consumeChallenge.route fun challenge => ?_
        cases challenge with
        | none => exact silentRoute_raise rfl
        | some challenge =>
          dsimp only
          split
          · exact silentRoute_raise rfl
          · exact silent_storeCredential
      · exact silentRoute_raise rfl
  | challenge drawn =>
    refine (silent_read _).route fun rows => (silent_read _).route fun credentials => ?_
    dsimp only
    by_cases hnone : credentials = []
    · rw [if_pos hnone]
      exact silentRoute_pure rfl
    · rw [if_neg hnone]
      exact silent_issueChallenge.route fun _ => silentRoute_pure rfl
  | startPush context requestId transport =>
    change SilentRoute r (startPush app now context requestId transport session person)
    unfold startPush
    split
    · exact silentRoute_raise rfl
    · refine silent_checkLimit.route fun _ => (silent_onPush _).route fun out => ?_
      cases out with
      | sent requestId => exact silentRoute_pure rfl
      | _ => exact silentRoute_raise rfl
  | issueRecovery sheet =>
    change SilentRoute r (issueRecovery now sheet session person)
    unfold issueRecovery
    split_ifs
    · refine (silent_onCodes _).route fun out => ?_
      cases out with
      | issued codes => exact silentRoute_pure rfl
      | _ => exact silentRoute_raise rfl
    · exact silentRoute_raise rfl
  | factors => exact (silent_read _).route fun _ => silentRoute_pure rfl
  | disableFactor factorId =>
    refine (silent_read _).route fun live => ?_
    split_ifs
    · exact Silent.route (x := Eff.update _) (fun _ hs => hs) fun _ => silentRoute_pure rfl
    · exact silentRoute_raise rfl
  | _ => cases h

theorem route_of_stepUp {app : App} {request : Request} {u : StepUp}
    (h : request.stepUp app now = some u) : request.route app now = u.route app now := by
  cases request <;> cases h <;> rfl

theorem fresh_of_stepUp {app : App} {request : Request} {u : StepUp}
    (h : request.stepUp app now = some u) : request.fresh = some u.fresh := by
  cases request <;> cases h <;> rfl

end Silent

/-! ## How the shared parts end -/

section Ends

variable {app : App} {now : Int} {s : AppState} {r : Redis}

theorem run_caller_none {sid : String}
    (hload : Redis.run now (app.sessions.load sid now) s.redis = (none, r)) :
    (app.caller now sid).run s = (.error (refusal unauthenticated 401), { s with redis := r }) := by
  unfold App.caller ofSessions
  rw [Eff.run_step_bind, hload]
  rfl

theorem run_caller_some {sid : String} {session : Session}
    (hload : Redis.run now (app.sessions.load sid now) s.redis = (some session, r)) :
    (app.caller now sid).run s = (.ok session, { s with redis := r }) := by
  unfold App.caller ofSessions
  rw [Eff.run_step_bind, hload]
  rfl

theorem run_elevate_some {session moved : Session} {raised : Assurance} {kind : Kind}
    {fresh : String}
    (h : Redis.run now (Mfa.elevate app.sessions session kind fresh now now) s.redis =
      (some (raised, moved), r)) (person : String) :
    ∃ s', (app.elevate now session person kind fresh).run s =
      (.ok { status := 200, body := .elevated raised, cookie := some moved.sid }, s') ∧
        s'.redis = r := by
  let cleared := ((onLimit now person kind (limitCommand .clear)).run s).2
  refine ⟨{ cleared with redis := r }, ?_, rfl⟩
  unfold App.elevate onLimit ofSessions
  rw [Eff.run_step_bind, Eff.run_step_bind]
  simp only [h]
  rfl

end Ends

/-! ## The console -/

/-- `Caller`. -/
structure Caller where
  personUuid : String
  sid : String
  deriving DecidableEq, Repr

/-- `_admin`. -/
def App.admin (app : App) (now : Int) (sid : String) (roles : List String := [adminRole]) :
    Handler Caller := do
  let session ← app.caller now sid
  match session.personUuid with
  | none => Eff.raise (refusal unauthenticated 401)
  | some person => do
    let held ← Eff.read fun s => s.roles person
    if ∀ role ∈ roles, role ∉ held then Eff.raise (refusal notFound 404)
    else if satisfiesAal2 session.amr = false then Eff.raise (refusal stepUpRequired 403)
    else return { personUuid := person, sid := session.sid }

/-- `_reason`. -/
def usableReason (reason : String) : Option String :=
  let reason := Text.strip reason
  if reason = "" ∨ maxReason < reason.length then none else some reason

/-- `impersonate`, with the identifier it draws. -/
def App.impersonate (app : App) (now : Int) (sid reason subject fresh : String) :
    Handler Answer :=
  if app.production then Eff.raise (refusal notFound 404)
  else do
    let caller ← app.admin now sid
    match usableReason reason with
    | none => Eff.raise (refusal reasonRequired 400)
    | some _ =>
      if Text.strip subject ∉ app.fixtures then Eff.raise (refusal notAFixture 403)
      else
        match app.personFor (Text.strip subject) with
        | none => Eff.raise (refusal notFound 404)
        | some resolved => do
          let session ← ofSessions now (app.sessions.create
            (impersonation (Text.strip subject) resolved (some caller.personUuid)) fresh now)
          return { status := 201,
                   body := .impersonating (Text.strip subject) resolved caller.personUuid,
                   cookie := some session.sid }

end Mfa
end CampusID
