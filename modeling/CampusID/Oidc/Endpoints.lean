import CampusID.Authz.Roles
import CampusID.Lib.Contracts
import CampusID.Oidc.Grants

/-!
# The token endpoint

The authorization endpoint, `/oauth2/token`, `/oauth2/introspect` and `/oauth2/revoke`, as programs
over Redis, behind the authentication of the client.  ID tokens, the audit trail and the throttle
are left out.

An access token is signed, and what is presented as one is decoded against the published keys.  Both
are fields of the endpoint: what is presented may be of any type, and a signed token decodes to what
was signed (`signed`).  The grant store reads the text of what is presented.
-/

namespace CampusID

open Lib

/-- `ClientType`. -/
inductive ClientType where
  | confidential
  | publicClient
  | native
  deriving DecidableEq, Repr

/-- `OidcClient`, as far as the token endpoint reads it. -/
structure OidcClient where
  clientId : String
  clientType : ClientType
  allowedScopes : Finset String
  deriving DecidableEq

/-- What the token endpoint refuses with: an error of the grant store, or one of its own with its
detail. -/
inductive TokenError where
  | grant (e : GrantError)
  | refused (error detail : String)
  deriving DecidableEq

/-- `MACHINE_SCOPES`. -/
def machineScopeNames : Finset String := {"scim:read", "scim:write"}

/-- `s.split()`. -/
def words (s : String) : List String :=
  ((s.toList.splitOnP Text.isSpace).filter (· ≠ [])).map String.ofList

/-- `machine_scopes`. -/
def OidcClient.machineScopes (client : OidcClient) (requested : Option String) :
    Except TokenError (Finset String) :=
  let available := client.allowedScopes ∩ machineScopeNames
  let asked := (words (requested.getD "")).toFinset
  let refused := fun detail => Except.error (TokenError.refused "invalid_scope" detail)
  if available = ∅ then
    refused (Text.pyRepr client.clientId ++ " is not registered for any machine scope")
  else if asked = ∅ then .ok available
  else if "openid" ∈ asked then
    refused "client_credentials authenticates no person, so openid is meaningless"
  else if asked \ available ≠ ∅ then
    refused (Authz.reprs (Text.sorted (asked \ available)) ++ " not permitted for " ++
      Text.pyRepr client.clientId)
  else .ok asked

/-! ## Access tokens -/

/-- The claims of an access token. -/
structure AccessClaims where
  iss : String
  sub : String
  aud : String
  clientId : String
  iat : Int
  exp : Int
  jti : String
  scope : String
  sid : String
  fid : Option String
  acr : Option String
  amr : List String
  deriving DecidableEq

/-- `TokenContext`, as far as an access token is minted from it. -/
structure TokenContext where
  issuer : String
  clientId : String
  subject : String
  sid : String
  familyId : String
  scopes : Finset String
  acr : Option String := none
  amr : List String := []

/-- `ACCESS_TOKEN_TTL`. -/
def accessTokenTtl : Int := 15 * 60 * second

/-- `int(instant.timestamp())`. -/
def timestamp (instant : Int) : Int := instant.tdiv second

/-- `access_token`, with the `jti` it draws: what is signed. -/
def accessClaims (context : TokenContext) (now : Int) (jti : String) : AccessClaims where
  iss := context.issuer
  sub := context.subject
  aud := context.issuer
  clientId := context.clientId
  iat := timestamp now
  exp := timestamp (now + accessTokenTtl)
  jti := jti
  scope := " ".intercalate (Text.sorted context.scopes)
  sid := context.sid
  fid := some context.familyId
  acr := context.acr
  amr := context.amr

/-- `_token_response`, and what `_client_credentials` answers. -/
structure TokenResponse (W : Type) where
  accessToken : W
  expiresIn : Int
  refreshToken : Option String
  scope : String
  deriving DecidableEq

/-- The endpoint: its grant store and its issuer, how a token is signed, and what decoding makes of
what is presented, up to its claims.  `challengeOf` is `compute_challenge`. -/
structure TokenEndpoint (W : Type) where
  grants : GrantStore
  issuer : String
  encode : AccessClaims → W
  decode : W → Except String AccessClaims
  text : W → String
  challengeOf : String → String
  signed : ∀ claims, decode (encode claims) = .ok claims

/-- `INVALID_TOKEN`. -/
def invalidToken : String := "invalid_token"

/-- The slack of `decode`, in seconds. -/
def leeway : Int := 60

namespace TokenEndpoint

variable {W : Type} (e : TokenEndpoint W)

/-- `_check_claims`. -/
def checkClaims (claims : AccessClaims) (now : Int) : Except String Unit :=
  if claims.iss ≠ e.issuer then .error "issuer mismatch"
  else if claims.aud ≠ e.issuer then .error "audience mismatch"
  else if (claims.exp + leeway) * second ≤ now then .error "token has expired"
  else if now + leeway * second < claims.iat * second then .error "token issued in the future"
  else .ok ()

/-- `decode`, with its claims checked. -/
def decodeAt (token : W) (now : Int) : Except String AccessClaims := do
  let claims ← e.decode token
  e.checkClaims claims now
  return claims

/-- `bearer.verify` of a token that decodes. -/
def verifyFamily (claims : AccessClaims) : RedisProg (Except OAuthError AccessClaims) :=
  match claims.fid with
  | none => return .error ⟨invalidToken, .grantInvalid, "token carries no family"⟩
  | some family => do
    let revoked : Bool ← GrantStore.isFamilyRevoked family
    if revoked then return .error ⟨invalidToken, .grantRevoked, "the token family is revoked"⟩
    else return .ok claims

/-- `bearer.verify`. -/
def verify (token : W) (now : Int) : RedisProg (Except OAuthError AccessClaims) :=
  if e.text token = "" then
    return .error ⟨invalidToken, .grantInvalid, "no bearer token presented"⟩
  else
    match e.decodeAt token now with
    | .error detail => return .error ⟨invalidToken, .grantInvalid, detail⟩
    | .ok claims => verifyFamily claims

/-! ## `/oauth2/token` -/

/-- A character of a verifier: `_VERIFIER_CHARSET`. -/
def unreserved (c : Char) : Bool :=
  c.isAlphanum || c = '.' || c = '_' || c = '~' || c = '-'

/-- `_VERIFIER_CHARSET.match`: the end of the pattern also matches before a last line feed. -/
def matchesCharset (verifier : String) : Bool :=
  let body := if verifier.toList.getLast? = some '\n' then verifier.toList.dropLast
    else verifier.toList
  body ≠ [] && body.all unreserved

/-- `pkce.verify`. -/
def verifyPkce (verifier : Option String) (challenge : String) : Except TokenError Unit :=
  let refused := fun detail => Except.error (TokenError.refused invalidGrant detail)
  match verifier with
  | none => refused "code_verifier is required"
  | some verifier =>
    if verifier.length < 43 ∨ 128 < verifier.length then
      refused "code_verifier length is out of range"
    else if ! matchesCharset verifier then refused "code_verifier has illegal characters"
    else if e.challengeOf verifier ≠ challenge then refused "code_verifier does not match"
    else .ok ()

/-- What is answered with a minted access token. -/
def respond (context : TokenContext) (now : Int) (jti : String) (refresh : Option String) :
    TokenResponse W where
  accessToken := e.encode (accessClaims context now jti)
  expiresIn := accessTokenTtl.tdiv second
  refreshToken := refresh
  scope := " ".intercalate (Text.sorted context.scopes)

/-- What the tokens of a redeemed code are minted from. -/
def codeContext (client : OidcClient) (grant : AuthorizationCode) : TokenContext where
  issuer := e.issuer
  clientId := client.clientId
  subject := grant.subject
  sid := grant.sid
  familyId := grant.familyId
  scopes := grant.scopes.toFinset
  acr := grant.acr
  amr := grant.amr

/-- The refresh token of a redeemed code. -/
def codeRefresh (client : OidcClient) (grant : AuthorizationCode) (now : Int) : RefreshToken where
  clientId := client.clientId
  scopes := grant.scopes
  subject := grant.subject
  sid := grant.sid
  familyId := grant.familyId
  generation := 0
  issuedAt := now

/-- `_exchange_code` of a redeemed code, whose verifier is checked after it was spent. -/
def exchangeGrant (client : OidcClient) (verifier : Option String) (now : Int)
    (refresh jti : String) (grant : AuthorizationCode) :
    RedisProg (Except TokenError (TokenResponse W)) :=
  match e.verifyPkce verifier grant.codeChallenge with
  | .error err => return .error err
  | .ok () => do
    let issued ← e.grants.issueRefreshToken (codeRefresh client grant now) refresh
    match issued with
    | .error err => return .error (.grant err)
    | .ok token => return .ok (e.respond (e.codeContext client grant) now jti (some token))

/-- `_exchange_code`, with the refresh token and the `jti` it draws. -/
def exchangeCode (client : OidcClient) (code redirectUri verifier : Option String) (now : Int)
    (refresh jti : String) : RedisProg (Except TokenError (TokenResponse W)) :=
  if code.getD "" = "" then return .error (.refused "invalid_request" "code is required")
  else do
    let redeemed ← e.grants.redeemCode (code.getD "") client.clientId (redirectUri.getD "")
    match redeemed with
    | .error err => return .error (.grant err)
    | .ok grant => e.exchangeGrant client verifier now refresh jti grant

/-- What the access token of a rotation is minted from. -/
def refreshContext (client : OidcClient) (record : RefreshToken) : TokenContext where
  issuer := e.issuer
  clientId := client.clientId
  subject := record.subject
  sid := record.sid
  familyId := record.familyId
  scopes := record.scopes.toFinset

/-- `_exchange_refresh_token`, with the refresh token and the `jti` it draws. -/
def exchangeRefreshToken (client : OidcClient) (presented : Option String) (now : Int)
    (fresh jti : String) : RedisProg (Except TokenError (TokenResponse W)) :=
  if presented.getD "" = "" then
    return .error (.refused "invalid_request" "refresh_token is required")
  else do
    let rotated ← e.grants.rotateRefreshToken (presented.getD "") client.clientId now fresh
    match rotated with
    | .error err => return .error (.grant err)
    | .ok (token, record) =>
      return .ok (e.respond (e.refreshContext client record) now jti (some token))

/-- What the access token of a client acting as itself is minted from: no session and no family. -/
def machineContext (client : OidcClient) (granted : Finset String) : TokenContext where
  issuer := e.issuer
  clientId := client.clientId
  subject := client.clientId
  sid := ""
  familyId := ""
  scopes := granted

/-- `_client_credentials`, with the `jti` it draws. -/
def clientCredentials (client : OidcClient) (requested : Option String) (now : Int)
    (jti : String) : Except TokenError (TokenResponse W) :=
  if client.clientType ≠ .confidential then
    .error (.refused "unauthorized_client" "client_credentials requires a confidential client")
  else do
    let granted ← client.machineScopes requested
    return e.respond (e.machineContext client granted) now jti none

/-! ## `/oauth2/introspect` and `/oauth2/revoke` -/

/-- `introspect`: the claims of an active token, which has to be the client's own. -/
def introspect (client : OidcClient) (token : W) (now : Int) : RedisProg (Option AccessClaims) := do
  let verified ← e.verify token now
  match verified with
  | .error _ => return none
  | .ok claims => return if claims.clientId ≠ client.clientId then none else some claims

/-- `describe_refresh_token`. -/
def describeRefreshToken (token : String) : RedisProg (Except GrantError (Option RefreshToken)) :=
  match e.grants.digest token with
  | .error err => return .error err
  | .ok digest => do
    let raw : Option RefreshToken ← redis (.get (.refresh digest))
    return .ok raw

/-- `_family_of`, of what does not verify. -/
def refreshFamily (client : OidcClient) (token : W) :
    RedisProg (Except GrantError (Option String)) := do
  let record ← e.describeRefreshToken (e.text token)
  match record with
  | .error err => return .error err
  | .ok none => return .ok none
  | .ok (some record) =>
    return .ok (if record.clientId ≠ client.clientId then none else some record.familyId)

/-- `_family_of`. -/
def familyOf (client : OidcClient) (token : W) (now : Int) :
    RedisProg (Except GrantError (Option String)) := do
  let verified ← e.verify token now
  match verified with
  | .ok claims => return .ok (if claims.clientId = client.clientId then claims.fid else none)
  | .error _ => e.refreshFamily client token

/-- `revoke`. -/
def revoke (client : OidcClient) (token : W) (now : Int) : RedisProg (Except GrantError Unit) := do
  let family ← e.familyOf client token now
  match family with
  | .error err => return .error err
  | .ok none => return .ok ()
  | .ok (some family) => do
    e.grants.revokeFamily family
    return .ok ()

end TokenEndpoint

/-! ## Calls -/

/-- What is called, by the client that was authenticated, with what is drawn. -/
inductive TokenCall (W : Type) where
  | authorize (grant : AuthorizationCode) (code : String)
  | exchangeCode (client : OidcClient) (code redirectUri verifier : Option String) (now : Int)
      (refresh jti : String)
  | exchangeRefreshToken (client : OidcClient) (presented : Option String) (now : Int)
      (fresh jti : String)
  | clientCredentials (client : OidcClient) (requested : Option String) (now : Int) (jti : String)
  | introspect (client : OidcClient) (token : W) (now : Int)
  | revoke (client : OidcClient) (token : W) (now : Int)
  deriving DecidableEq

/-- What a call ends with. -/
inductive TokenOutcome (W : Type) where
  | code (result : Except GrantError String)
  | tokens (result : Except TokenError (TokenResponse W))
  | introspected (active : Option AccessClaims)
  | revoked (result : Except GrantError Unit)

/-- The client of a call. -/
def TokenCall.clientId {W : Type} : TokenCall W → String
  | .authorize grant _ => grant.clientId
  | .exchangeCode client _ _ _ _ _ _ => client.clientId
  | .exchangeRefreshToken client _ _ _ _ => client.clientId
  | .clientCredentials client _ _ _ => client.clientId
  | .introspect client _ _ => client.clientId
  | .revoke client _ _ => client.clientId

/-- The refresh token that a call draws. -/
def TokenCall.draws {W : Type} : TokenCall W → Option String
  | .exchangeCode _ _ _ _ _ refresh _ => some refresh
  | .exchangeRefreshToken _ _ _ fresh _ => some fresh
  | _ => none

/-- What a call presents to be verified. -/
def TokenCall.presents {W : Type} : TokenCall W → Option W
  | .introspect _ token _ => some token
  | .revoke _ token _ => some token
  | _ => none

/-- The program of a call. -/
def TokenEndpoint.program {W : Type} (e : TokenEndpoint W) :
    TokenCall W → RedisProg (TokenOutcome W)
  | .authorize grant code => do return .code (← e.grants.issueCode grant code)
  | .exchangeCode client code redirectUri verifier now refresh jti => do
    return .tokens (← e.exchangeCode client code redirectUri verifier now refresh jti)
  | .exchangeRefreshToken client presented now fresh jti => do
    return .tokens (← e.exchangeRefreshToken client presented now fresh jti)
  | .clientCredentials client requested now jti =>
    return .tokens (e.clientCredentials client requested now jti)
  | .introspect client token now => do return .introspected (← e.introspect client token now)
  | .revoke client token now => do return .revoked (← e.revoke client token now)

/-- The calls in progress over Redis. -/
abbrev TokenPool (W : Type) := Pool RedisCmd Reply (TokenCall W) (TokenOutcome W) Int Redis

/-- No calls, and nothing stored. -/
def noTokens {W : Type} : TokenPool W := ⟨Store.empty, 0, []⟩

/-- One move. -/
def TokenEndpoint.step {W : Type} (e : TokenEndpoint W) (p : TokenPool W)
    (mv : Move (TokenCall W) Int) : TokenPool W :=
  p.step Store.exec e.program mv

end CampusID
