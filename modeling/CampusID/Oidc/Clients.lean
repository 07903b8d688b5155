import CampusID.Oidc.Endpoints

/-!
# The client registry

A registration is validated when it is made, and again whenever its row is read: what a row says
of a client has to be a client.  A row is written field by field, all of them but one: the hash of
a secret stays where the new registration has none.

The URL splitter and the hash of secrets are parameters, and so is what a call draws for a new
secret.  A method raises a `ValueError`, which is its message, or an `OAuthError`.
-/

namespace CampusID
namespace Clients

open Lib

/-- `SUPPORTED_SCOPES`. -/
def supportedScopes : Finset String :=
  {"openid", "profile", "email", "campus:affiliation", "campus:entitlement", "scim:read", "scim:write"}

/-- `LOOPBACK_HOSTS`. -/
def loopbackHosts : List String := ["127.0.0.1", "[::1]"]

/-- `MIN_SECRET_LENGTH`. -/
def minSecretLength : Nat := 32

/-- `client_type.value`. -/
def value : ClientType → String
  | .confidential => "confidential"
  | .publicClient => "public"
  | .native => "native"

/-- What `urlsplit` returns, as far as a redirect URI is read. -/
structure SplitResult where
  scheme : String
  netloc : String
  fragment : String
  hostname : Option String
  deriving DecidableEq, Repr

/-- What the registry calls. -/
structure Builtins where
  /-- `urlsplit`, or the message of its `ValueError`. -/
  urlsplit : String → Except String SplitResult
  /-- `hash_secret`. -/
  hashSecret : String → String

/-- `OidcClient`. -/
structure OidcClient where
  clientId : String
  clientType : ClientType
  redirectUris : List String
  allowedScopes : Finset String
  secretHash : Option String := none
  displayName : Option String := none
  requirePushedAuthorizationRequests : Bool := false
  backchannelLogoutUri : Option String := none
  postLogoutRedirectUris : List String := []
  deriving DecidableEq

/-- `OidcClientRecord`. -/
structure OidcClientRecord where
  clientId : String
  clientType : ClientType
  displayName : Option String
  redirectUris : List String
  allowedScopes : List String
  postLogoutRedirectUris : List String
  secretHash : Option String
  requirePushedAuthorizationRequests : Bool
  backchannelLogoutUri : Option String
  enabled : Bool := true
  deriving DecidableEq

/-- `OAuthError`, of this registry. -/
structure OAuthError where
  error : String
  reason : String
  detail : String
  deriving DecidableEq, Repr

/-- The arguments of `register`, and what `generate_secret` draws. -/
structure Registration where
  clientId : String
  clientType : ClientType
  redirectUris : List String
  allowedScopes : Finset String
  displayName : Option String := none
  requirePushedAuthorizationRequests : Bool := false
  backchannelLogoutUri : Option String := none
  postLogoutRedirectUris : List String := []
  secret : Option String := none
  generated : String
  deriving DecidableEq

/-- A text that is there and not empty. -/
def truthy (text : Option String) : Option String := text.filter (· ≠ "")

variable (py : Builtins)

/-! ## Validation -/

/-- `_bracketed`. -/
def bracketed (host : String) : String := if ':' ∈ host.toList then "[" ++ host ++ "]" else host

/-- `_assert_registrable`. -/
def assertRegistrable (clientType : ClientType) (uri : String) : Except String Unit :=
  match py.urlsplit uri with
  | .error message => .error message
  | .ok parsed =>
    let refuse (text : String) : Except String Unit :=
      .error ("redirect URI " ++ Text.pyRepr uri ++ text)
    if parsed.scheme = "" then refuse " is not absolute"
    else if (parsed.scheme = "http" ∨ parsed.scheme = "https") ∧ parsed.netloc = "" then
      refuse " has no host"
    else if parsed.fragment ≠ "" then refuse " must not contain a fragment"
    else if parsed.scheme = "https" then .ok ()
    else if parsed.scheme = "http" then
      if clientType = .native ∧ bracketed (parsed.hostname.getD "") ∈ loopbackHosts then .ok ()
      else refuse " must use https"
    else if clientType ≠ .native then refuse " uses a scheme only native clients may register"
    else .ok ()

/-- `_assert_registrable` of every URI. -/
def assertAllRegistrable (clientType : ClientType) : List String → Except String Unit
  | [] => .ok ()
  | uri :: uris => do
    assertRegistrable py clientType uri
    assertAllRegistrable clientType uris

/-- `OidcClient(...)`, with `__post_init__`. -/
def OidcClient.make (client : OidcClient) : Except String OidcClient :=
  if client.redirectUris = [] then
    .error ("client " ++ Text.pyRepr client.clientId ++ " registers no redirect URI")
  else do
    assertAllRegistrable py client.clientType client.redirectUris
    if client.clientType = .confidential ∧ truthy client.secretHash = none then
      throw ("confidential client " ++ Text.pyRepr client.clientId ++ " has no secret")
    else if client.clientType ≠ .confidential ∧ truthy client.secretHash ≠ none then
      throw ("public client " ++ Text.pyRepr client.clientId ++ " cannot hold a secret")
    else if "openid" ∉ client.allowedScopes then
      throw ("client " ++ Text.pyRepr client.clientId ++ " cannot request openid")
    else return client

/-- `authenticate`. -/
def OidcClient.authenticate (client : OidcClient) (secret : Option String) :
    Except OAuthError Unit :=
  if client.clientType ≠ .confidential then
    .error ⟨"invalid_client", "client_authentication_failed",
      Text.pyRepr client.clientId ++ " is not a confidential client"⟩
  else if secret.map py.hashSecret = some (client.secretHash.getD "") then .ok ()
  else .error ⟨"invalid_client", "client_authentication_failed",
    "bad secret for " ++ Text.pyRepr client.clientId⟩

/-! ## Rows -/

/-- `_to_record`. -/
def toRecord (client : OidcClient) : OidcClientRecord where
  clientId := client.clientId
  clientType := client.clientType
  displayName := client.displayName
  redirectUris := client.redirectUris
  allowedScopes := Text.sorted client.allowedScopes
  postLogoutRedirectUris := client.postLogoutRedirectUris
  secretHash := client.secretHash
  requirePushedAuthorizationRequests := client.requirePushedAuthorizationRequests
  backchannelLogoutUri := client.backchannelLogoutUri

/-- `_update_record`. -/
def updateRecord (record : OidcClientRecord) (client : OidcClient) : OidcClientRecord :=
  { record with
    clientType := client.clientType
    displayName := client.displayName
    redirectUris := client.redirectUris
    allowedScopes := Text.sorted client.allowedScopes
    postLogoutRedirectUris := client.postLogoutRedirectUris
    requirePushedAuthorizationRequests := client.requirePushedAuthorizationRequests
    backchannelLogoutUri := client.backchannelLogoutUri
    secretHash := match client.secretHash with
      | some hash => some hash
      | none => record.secretHash }

/-- `_from_record`. -/
def fromRecord (record : OidcClientRecord) : Except String OidcClient :=
  OidcClient.make py {
    clientId := record.clientId
    clientType := record.clientType
    redirectUris := record.redirectUris
    allowedScopes := record.allowedScopes.toFinset
    secretHash := record.secretHash
    displayName := record.displayName
    requirePushedAuthorizationRequests := record.requirePushedAuthorizationRequests
    backchannelLogoutUri := record.backchannelLogoutUri
    postLogoutRedirectUris := record.postLogoutRedirectUris }

/-! ## Registering and reading -/

/-- The secret of a registration. -/
def Registration.chosenSecret (r : Registration) : Except String (Option String) :=
  if r.clientType = .confidential then
    let secret := (truthy r.secret).getD r.generated
    if secret.length < minSecretLength then
      .error ("a client secret must be at least " ++ toString minSecretLength ++ " characters")
    else .ok (some secret)
  else if r.secret ≠ none then .error (value r.clientType ++ " clients cannot hold a secret")
  else .ok none

/-- The client that is registered, and its secret. -/
def Registration.client (r : Registration) : Except String (OidcClient × Option String) :=
  if r.allowedScopes \ supportedScopes ≠ ∅ then
    .error ("unknown scopes " ++ Authz.reprs (Text.sorted (r.allowedScopes \ supportedScopes)))
  else do
    let secret ← r.chosenSecret
    let client ← OidcClient.make py {
      clientId := r.clientId
      clientType := r.clientType
      redirectUris := r.redirectUris
      allowedScopes := r.allowedScopes
      secretHash := (truthy secret).map py.hashSecret
      displayName := r.displayName
      requirePushedAuthorizationRequests := r.requirePushedAuthorizationRequests
      backchannelLogoutUri := r.backchannelLogoutUri
      postLogoutRedirectUris := r.postLogoutRedirectUris }
    return (client, secret)

/-- The rows with a client written. -/
def writeClient (records : List OidcClientRecord) (client : OidcClient) : List OidcClientRecord :=
  if records.any (·.clientId = client.clientId) then
    records.map fun record =>
      if record.clientId = client.clientId then updateRecord record client else record
  else records ++ [toRecord client]

/-- `register`. -/
def register (records : List OidcClientRecord) (r : Registration) :
    Except String (List OidcClientRecord × OidcClient × Option String) := do
  let (client, secret) ← r.client py
  return (writeClient records client, client, secret)

/-- `get`. -/
def get (records : List OidcClientRecord) (clientId : String) :
    Except String (Option OidcClient) :=
  match records.find? fun record => record.clientId = clientId ∧ record.enabled = true with
  | none => .ok none
  | some record => (fromRecord py record).map some

/-- `_from_record` of every row. -/
def fromRecords : List OidcClientRecord → Except String (List OidcClient)
  | [] => .ok []
  | record :: records => do
    let client ← fromRecord py record
    let clients ← fromRecords records
    return client :: clients

/-- `list_clients`. -/
def listClients (records : List OidcClientRecord) : Except String (List OidcClient) :=
  fromRecords py (records.insertionSort (·.clientId ≤ ·.clientId))

/-- `set_enabled`. -/
def setEnabled (records : List OidcClientRecord) (clientId : String) (enabled : Bool) :
    Except OAuthError (List OidcClientRecord) :=
  if records.any (·.clientId = clientId) then
    .ok (records.map fun record =>
      if record.clientId = clientId then { record with enabled := enabled } else record)
  else .error ⟨"invalid_client", "unknown_client", "no such client: " ++ Text.pyRepr clientId⟩

end Clients
end CampusID
