import CampusID.Mfa.AuthenticatorData
import CampusID.Mfa.SignCounts
import CampusID.Oidc.Jwt

/-!
# Passkeys that register and passkeys that verify

`register` checks the algorithm of a key in `_algorithm` and its type in `_public_key`, each on its
own; `_check_signature` needs the two to go together.  An elliptic curve key that says `RS256` is
registered, and every signature of it is refused.

`passkey_usable_iff` says which registered keys can be used: those whose algorithm is the one of
their type (`FitsAlgorithm`).  For these every response that is in order and signed by the private
key is accepted; for the others none is (`verify_unfit`).
-/

namespace CampusID
namespace Mfa
namespace Passkeys

open Lib Lib.Readers Lib.Positional Lib.Eff
open Audit (Json)
open Oidc (Loaded b64urlDecode)
open Oidc.JwtLibrary (isText)

/-! ## What is used from outside -/

/-- A key that can verify: the three classes of the cryptography library. -/
inductive PublicKey where
  | ec (x y : Nat)
  | rsa (e n : Nat)
  | ed25519 (x : List UInt8)
  deriving DecidableEq

/-- What the ceremonies use from outside: `json.loads` of some bytes, the `repr` of what it returns,
SHA-256, whether numbers are a key, and the check of a signature in the scheme of the key. -/
structure Library where
  loads : List UInt8 → Loaded
  repr : Json → String
  sha256 : List UInt8 → List UInt8
  onCurve : (x y : Nat) → Bool
  rsaKey : (e n : Nat) → Bool
  ed25519Key : List UInt8 → Bool
  verifies : PublicKey → (signature message : List UInt8) → Bool

/-- Private keys and their signatures: what was made with the matching private key, in the scheme
of the key, verifies. -/
structure Signing (lib : Library) where
  PrivateKey : Type
  Matches : PrivateKey → PublicKey → Prop
  Made : PrivateKey → (signature message : List UInt8) → Prop
  verifies : ∀ {priv key signature message}, Matches priv key → Made priv signature message →
    lib.verifies key signature message = true

/-! ## The reasons and the numbers -/

/-- `WRONG_TYPE`. -/
def wrongType : String := "mfa.webauthn_wrong_type"

/-- `CHALLENGE_MISMATCH`. -/
def challengeMismatch : String := "mfa.webauthn_challenge_mismatch"

/-- `ORIGIN_MISMATCH`. -/
def originMismatch : String := "mfa.webauthn_origin_mismatch"

/-- `RP_MISMATCH`. -/
def rpMismatch : String := "mfa.webauthn_rp_mismatch"

/-- `USER_NOT_PRESENT`. -/
def userNotPresent : String := "mfa.webauthn_user_not_present"

/-- `UNSUPPORTED_ATTESTATION`. -/
def unsupportedAttestation : String := "mfa.webauthn_unsupported_attestation"

/-- `UNSUPPORTED_ALGORITHM`. -/
def unsupportedAlgorithm : String := "mfa.webauthn_unsupported_algorithm"

/-- `SIGNATURE_INVALID`. -/
def signatureInvalid : String := "mfa.webauthn_signature_invalid"

/-- `ES256`. -/
def es256 : Int := -7

/-- `RS256`. -/
def rs256 : Int := -257

/-- `EDDSA`. -/
def eddsa : Int := -8

/-- `SUPPORTED_ALGORITHMS`. -/
def supportedAlgorithms : List Int := [es256, rs256, eddsa]

/-- `COSE_KTY`. -/
def coseKty : Key := .int 1

/-- `COSE_ALG`. -/
def coseAlg : Key := .int 3

/-- `COSE_CRV`, and `COSE_RSA_N`. -/
def coseCrv : Key := .int (-1)

/-- `COSE_X`, and `COSE_RSA_E`. -/
def coseX : Key := .int (-2)

/-- `COSE_Y`. -/
def coseY : Key := .int (-3)

/-- `KTY_OKP`. -/
def ktyOkp : Int := 1

/-- `KTY_EC2`. -/
def ktyEc2 : Int := 2

/-- `KTY_RSA`. -/
def ktyRsa : Int := 3

/-- `CRV_P256`. -/
def crvP256 : Int := 1

/-- `CRV_ED25519`. -/
def crvEd25519 : Int := 6

/-- `Registration`. -/
structure Registration where
  credentialId : List UInt8
  publicKey : List UInt8
  signCount : Nat
  userVerified : Bool
  algorithm : Int
  deriving DecidableEq

/-- `Assertion`. -/
structure Assertion where
  credentialId : List UInt8
  signCount : Nat
  userVerified : Bool
  deriving DecidableEq

/-- What a ceremony is checked against. -/
structure Expected where
  challenge : List UInt8
  origin : String
  rpId : String

/-! ## The pieces -/

/-- The map that was encoded; `detail` is said of what is none. -/
def decodeMap (detail : String) (data : List UInt8) :
    Except WebAuthnRaised (List (Key × Cbor)) := do
  match ← orMalformed (Cbor.decode data) with
  | .map entries => return entries
  | _ => rejectWebAuthn malformed detail

/-- `_cose`. -/
def cose (coseKey : List UInt8) : Except WebAuthnRaised (List (Key × Cbor)) :=
  decodeMap "COSE key is not a map" coseKey

/-- `_algorithm`. -/
def algorithm (coseKey : List UInt8) : Except WebAuthnRaised Int := do
  let parameters ← cose coseKey
  let algorithm := Cbor.get parameters coseAlg
  match algorithm.asInt with
  | some n =>
    if n ∈ supportedAlgorithms then return n
    else rejectWebAuthn unsupportedAlgorithm algorithm.str
  | none => rejectWebAuthn unsupportedAlgorithm algorithm.str

/-- `_b64url_decode`: what is no base64 is no challenge. -/
def b64urlBytes (value : String) : List UInt8 := ((b64urlDecode value).getD []).map UInt8.ofNat

/-- `str(payload.get(name))`. -/
def text (repr : Json → String) : Option Json → String
  | some (.str s) => s
  | some json => repr json
  | none => "None"

/-- `_check_counter`. -/
def checkSignCount (stored presented : Nat) : Except WebAuthnRaised Unit :=
  match checkCounter stored presented with
  | .ok () => .ok ()
  | .error reason => rejectWebAuthn reason s!"counter went from {stored} to {presented}"

section Pieces

variable (lib : Library)

/-- The EC2 branch of `_public_key`. -/
def ecKey (parameters : List (Key × Cbor)) : Except WebAuthnRaised PublicKey :=
  let curve := Cbor.get parameters coseCrv
  if curve.asInt ≠ some crvP256 then rejectWebAuthn unsupportedAlgorithm ("curve " ++ curve.str)
  else
    match Cbor.get parameters coseX, Cbor.get parameters coseY with
    | .bytes x, .bytes y =>
      if lib.onCurve (bigEndian x) (bigEndian y) then .ok (.ec (bigEndian x) (bigEndian y))
      else rejectWebAuthn malformed "EC2 point is not on the curve"
    | _, _ => rejectWebAuthn malformed "EC2 key is missing a coordinate"

/-- The RSA branch of `_public_key`. -/
def rsaKey (parameters : List (Key × Cbor)) : Except WebAuthnRaised PublicKey :=
  match Cbor.get parameters coseCrv, Cbor.get parameters coseX with
  | .bytes modulus, .bytes exponent =>
    if lib.rsaKey (bigEndian exponent) (bigEndian modulus) then
      .ok (.rsa (bigEndian exponent) (bigEndian modulus))
    else rejectWebAuthn malformed "RSA parameters are not a key"
  | _, _ => rejectWebAuthn malformed "RSA key is missing a parameter"

/-- The OKP branch of `_public_key`. -/
def okpKey (parameters : List (Key × Cbor)) : Except WebAuthnRaised PublicKey :=
  let curve := Cbor.get parameters coseCrv
  if curve.asInt ≠ some crvEd25519 then rejectWebAuthn unsupportedAlgorithm ("curve " ++ curve.str)
  else
    match Cbor.get parameters coseX with
    | .bytes x =>
      if lib.ed25519Key x then .ok (.ed25519 x)
      else rejectWebAuthn malformed "OKP public value is not a key"
    | _ => rejectWebAuthn malformed "OKP key is missing its public value"

/-- `_public_key`. -/
def publicKey (coseKey : List UInt8) : Except WebAuthnRaised PublicKey := do
  let parameters ← cose coseKey
  let kty := Cbor.get parameters coseKty
  if kty.asInt = some ktyEc2 then ecKey lib parameters
  else if kty.asInt = some ktyRsa then rsaKey lib parameters
  else if kty.asInt = some ktyOkp then okpKey lib parameters
  else rejectWebAuthn unsupportedAlgorithm ("key type " ++ kty.str)

/-- `_check_signature`. -/
def checkSignature (key : PublicKey) (algorithm : Int) (signature message : List UInt8) :
    Except WebAuthnRaised Unit :=
  let verify := if lib.verifies key signature message then .ok ()
    else rejectWebAuthn signatureInvalid "signature does not verify"
  match key with
  | .ec _ _ =>
    if algorithm = es256 then verify else rejectWebAuthn unsupportedAlgorithm (toString algorithm)
  | .rsa _ _ =>
    if algorithm = rs256 then verify else rejectWebAuthn unsupportedAlgorithm (toString algorithm)
  | .ed25519 _ =>
    if algorithm = eddsa then verify else rejectWebAuthn unsupportedAlgorithm (toString algorithm)

/-- `_client_data`: the hash of the bytes. -/
def clientHash (raw : List UInt8) (expectedType : String) (expected : Expected) :
    Except WebAuthnRaised (List UInt8) :=
  match lib.loads raw with
  | .valueError => rejectWebAuthn malformed "client data is not JSON"
  | .recursionError => .error .recursionError
  | .value (.dict payload) =>
    let type := text lib.repr (payload.lookup "type")
    let challenge := text lib.repr (some ((payload.lookup "challenge").getD (.str "")))
    let origin := text lib.repr (payload.lookup "origin")
    if ¬isText payload "type" expectedType then rejectWebAuthn wrongType type
    else if b64urlBytes challenge ≠ expected.challenge then
      rejectWebAuthn challengeMismatch "challenge does not match the outstanding one"
    else if ¬isText payload "origin" expected.origin then rejectWebAuthn originMismatch origin
    else .ok (lib.sha256 raw)
  | .value _ => rejectWebAuthn malformed "client data is not an object"

/-- `_common`. -/
def common (a : AuthenticatorData) (rpId : String) : Except WebAuthnRaised Unit :=
  if a.rpIdHash ≠ lib.sha256 (octets rpId) then
    rejectWebAuthn rpMismatch "authenticator data is for another relying party"
  else if a.userPresent = false then
    rejectWebAuthn userNotPresent "user-presence flag is not set"
  else .ok ()

/-! ## The ceremonies -/

/-- `register`. -/
def register (clientData attestationObject : List UInt8) (expected : Expected) :
    Except WebAuthnRaised Registration := do
  let _ ← clientHash lib clientData "webauthn.create" expected
  let attestation ← decodeMap "attestation object is not a map" attestationObject
  match Cbor.get attestation (.text "fmt") with
  | .text "none" =>
    match Cbor.get attestation (.text "authData") with
    | .bytes raw =>
      let authenticator ← parseAuthenticatorData raw true
      common lib authenticator expected.rpId
      match authenticator.credentialId, authenticator.publicKey with
      | some credentialId, some key =>
        let algorithm ← algorithm key
        let _ ← publicKey lib key
        return ⟨credentialId, key, authenticator.signCount, authenticator.userVerified, algorithm⟩
      | _, _ => rejectWebAuthn malformed "registration carries no credential"
    | _ => rejectWebAuthn malformed "attestation object has no authData"
  | fmt => rejectWebAuthn unsupportedAttestation ("format " ++ fmt.repr)

/-- What the browser sends back of a use of a credential. -/
structure Response where
  clientData : List UInt8
  authenticatorData : List UInt8
  signature : List UInt8

/-- `verify`. -/
def verify (response : Response) (key credentialId : List UInt8) (storedSignCount : Nat)
    (expected : Expected) : Except WebAuthnRaised Assertion := do
  let hash ← clientHash lib response.clientData "webauthn.get" expected
  let authenticator ← parseAuthenticatorData response.authenticatorData false
  common lib authenticator expected.rpId
  checkSignature lib (← publicKey lib key) (← algorithm key) response.signature
    (response.authenticatorData ++ hash)
  checkSignCount storedSignCount authenticator.signCount
  return ⟨credentialId, authenticator.signCount, authenticator.userVerified⟩

end Pieces

/-! ## Keys that fit their algorithm -/

/-- The type of the key and its algorithm go together. -/
def FitsAlgorithm (key : List UInt8) : Prop :=
  ∃ parameters, Cbor.decode key = .ok (.map parameters) ∧
    ((Cbor.get parameters coseKty).asInt, (Cbor.get parameters coseAlg).asInt) ∈
      [(some ktyEc2, some es256), (some ktyRsa, some rs256), (some ktyOkp, some eddsa)]

/-- Verification refuses the key and its algorithm, whatever is signed. -/
def RefusesPair (lib : Library) (key : List UInt8) : Prop :=
  ∃ verifier alg, publicKey lib key = .ok verifier ∧ algorithm key = .ok alg ∧
    ∀ signature message, checkSignature lib verifier alg signature message =
      .error (.rejected unsupportedAlgorithm (toString alg))

/-- A response that is well formed, says what is expected, carries a larger count, and is signed
with the private key of a credential. -/
def InOrder (lib : Library) (signing : Signing lib) (key : List UInt8) (storedSignCount : Nat)
    (expected : Expected) (response : Response) : Prop :=
  ∃ payload challenge a verifier priv,
    lib.loads response.clientData = .value (.dict payload) ∧
    payload.lookup "type" = some (.str "webauthn.get") ∧
    payload.lookup "challenge" = some (.str challenge) ∧
    b64urlBytes challenge = expected.challenge ∧
    payload.lookup "origin" = some (.str expected.origin) ∧
    Layout response.authenticatorData false a ∧
    a.rpIdHash = lib.sha256 (octets expected.rpId) ∧ a.userPresent = true ∧
    storedSignCount < a.signCount ∧
    publicKey lib key = .ok verifier ∧ signing.Matches priv verifier ∧
    signing.Made priv response.signature
      (response.authenticatorData ++ lib.sha256 response.clientData)

/-- Every response that is in order is accepted. -/
def Usable (lib : Library) (signing : Signing lib) (key : List UInt8) : Prop :=
  ∀ credentialId storedSignCount expected response,
    InOrder lib signing key storedSignCount expected response →
      ∃ assertion, verify lib response key credentialId storedSignCount expected = .ok assertion

/-! ## What registration has checked -/

variable {lib : Library} {signing : Signing lib} {key clientData attestationObject : List UInt8}
  {expected : Expected} {registration : Registration} {parameters : List (Key × Cbor)}
  {verifier : PublicKey} {alg : Int} {storedSignCount : Nat} {response : Response}

/-- The algorithm that a class of key verifies with. -/
def scheme : PublicKey → Int
  | .ec _ _ => es256
  | .rsa _ _ => rs256
  | .ed25519 _ => eddsa

/-- The type that a class of key is read from. -/
def keyType : PublicKey → Int
  | .ec _ _ => ktyEc2
  | .rsa _ _ => ktyRsa
  | .ed25519 _ => ktyOkp

theorem checkSignature_eq (verifier : PublicKey) (alg : Int) (signature message : List UInt8) :
    checkSignature lib verifier alg signature message =
      if alg = scheme verifier then
        if lib.verifies verifier signature message then .ok ()
        else rejectWebAuthn signatureInvalid "signature does not verify"
      else rejectWebAuthn unsupportedAlgorithm (toString alg) := by
  cases verifier <;> rfl

theorem cose_eq_ok : cose key = .ok parameters ↔ Cbor.decode key = .ok (.map parameters) := by
  unfold cose decodeMap
  rw [except_bind_eq_ok]
  constructor
  · rintro ⟨v, hv, hmap⟩
    rw [orMalformed_eq_ok] at hv
    cases v <;> cases hmap
    exact hv
  · intro h
    exact ⟨_, orMalformed_eq_ok.mpr h, rfl⟩

theorem algorithm_eq_ok : algorithm key = .ok alg ↔ ∃ parameters, cose key = .ok parameters ∧
    (Cbor.get parameters coseAlg).asInt = some alg ∧ alg ∈ supportedAlgorithms := by
  unfold algorithm
  rw [except_bind_eq_ok]
  refine exists_congr fun parameters => and_congr_right fun _ => ?_
  dsimp only
  cases (Cbor.get parameters coseAlg).asInt with
  | none => exact iff_of_false nofun nofun
  | some n =>
    dsimp only
    split_ifs with hn
    · constructor
      · rintro ⟨⟩
        exact ⟨rfl, hn⟩
      · rintro ⟨⟨⟩, -⟩
        rfl
    · exact iff_of_false nofun fun ⟨hsome, hmem⟩ => hn (Option.some.inj hsome ▸ hmem)

theorem ecKey_eq_ok (h : ecKey lib parameters = .ok verifier) : ∃ x y, verifier = .ec x y := by
  unfold ecKey at h
  dsimp only at h
  split_ifs at h
  · exact nomatch h
  split at h
  · split_ifs at h
    · exact ⟨_, _, (Except.ok.inj h).symm⟩
    · exact nomatch h
  · exact nomatch h

theorem rsaKey_eq_ok (h : rsaKey lib parameters = .ok verifier) : ∃ e n, verifier = .rsa e n := by
  unfold rsaKey at h
  split at h
  · split_ifs at h
    · exact ⟨_, _, (Except.ok.inj h).symm⟩
    · exact nomatch h
  · exact nomatch h

theorem okpKey_eq_ok (h : okpKey lib parameters = .ok verifier) : ∃ x, verifier = .ed25519 x := by
  unfold okpKey at h
  dsimp only at h
  split_ifs at h
  · exact nomatch h
  split at h
  · split_ifs at h
    · exact ⟨_, (Except.ok.inj h).symm⟩
    · exact nomatch h
  · exact nomatch h

theorem kty_of_publicKey (h : publicKey lib key = .ok verifier) (hcose : cose key = .ok parameters) :
    (Cbor.get parameters coseKty).asInt = some (keyType verifier) := by
  unfold publicKey at h
  rw [hcose] at h
  change (if _ then _ else _) = _ at h
  split_ifs at h with hec hrsa hokp
  · obtain ⟨x, y, rfl⟩ := ecKey_eq_ok h
    exact hec
  · obtain ⟨e, n, rfl⟩ := rsaKey_eq_ok h
    exact hrsa
  · obtain ⟨x, rfl⟩ := okpKey_eq_ok h
    exact hokp
  · exact nomatch h

/-- **A key that is made and whose algorithm is supported** fits its algorithm when that is the one
of its class. -/
theorem fitsAlgorithm_iff (hkey : publicKey lib key = .ok verifier)
    (halg : algorithm key = .ok alg) : FitsAlgorithm key ↔ alg = scheme verifier := by
  obtain ⟨parameters, hcose, hsome, hmem⟩ := algorithm_eq_ok.mp halg
  have hkty := kty_of_publicKey hkey hcose
  have hdecode := cose_eq_ok.mp hcose
  have hpairs : FitsAlgorithm key ↔ (some (keyType verifier), some alg) ∈
      [(some ktyEc2, some es256), (some ktyRsa, some rs256), (some ktyOkp, some eddsa)] := by
    constructor
    · rintro ⟨parameters', hdecode', hfits⟩
      obtain rfl : parameters' = parameters :=
        Cbor.map.inj (Except.ok.inj (hdecode'.symm.trans hdecode))
      rwa [hkty, hsome] at hfits
    · intro hfits
      refine ⟨parameters, hdecode, ?_⟩
      rwa [hkty, hsome]
  rw [hpairs]
  cases verifier <;> simp [keyType, scheme, ktyEc2, ktyRsa, ktyOkp]

/-- **What is registered** has a key that is made, and an algorithm that is supported. -/
theorem register_eq_ok
    (h : register lib clientData attestationObject expected = .ok registration) :
    ∃ verifier, publicKey lib registration.publicKey = .ok verifier ∧
      algorithm registration.publicKey = .ok registration.algorithm := by
  unfold register at h
  obtain ⟨-, -, h⟩ := except_bind_eq_ok.mp h
  obtain ⟨attestation, -, h⟩ := except_bind_eq_ok.mp h
  split at h
  · split at h
    · obtain ⟨a, -, h⟩ := except_bind_eq_ok.mp h
      obtain ⟨-, -, h⟩ := except_bind_eq_ok.mp h
      split at h
      · obtain ⟨alg, halg, h⟩ := except_bind_eq_ok.mp h
        obtain ⟨verifier, hkey, h⟩ := except_bind_eq_ok.mp h
        cases h
        exact ⟨verifier, hkey, halg⟩
      · exact nomatch h
    · exact nomatch h
  · exact nomatch h

/-! ## A response that is in order -/

theorem clientHash_eq_ok {payload : List (String × Json)} {type challenge : String}
    {raw : List UInt8} (hloads : lib.loads raw = .value (.dict payload))
    (htype : payload.lookup "type" = some (.str type))
    (hchallenge : payload.lookup "challenge" = some (.str challenge))
    (hequal : b64urlBytes challenge = expected.challenge)
    (horigin : payload.lookup "origin" = some (.str expected.origin)) :
    clientHash lib raw type expected = .ok (lib.sha256 raw) := by
  have htype' : isText payload "type" type = true := by simp [isText, htype]
  have horigin' : isText payload "origin" expected.origin = true := by simp [isText, horigin]
  simp only [clientHash, hloads, hchallenge, htype', horigin', Option.getD_some, text, hequal,
    not_true_eq_false, if_false, ne_eq]

theorem checkSignCount_of_lt {stored presented : Nat} (h : stored < presented) :
    checkSignCount stored presented = .ok () := by
  have hcheck : checkCounter stored presented = .ok () := by
    unfold checkCounter
    rw [if_neg (by omega), if_neg (by omega)]
  rw [checkSignCount, hcheck]

theorem verify_eq (h : InOrder lib signing key storedSignCount expected response)
    (halg : algorithm key = .ok alg) (credentialId : List UInt8) :
    ∃ (verifier : PublicKey) (a : AuthenticatorData) (message : List UInt8),
      publicKey lib key = .ok verifier ∧
      lib.verifies verifier response.signature message = true ∧
      verify lib response key credentialId storedSignCount expected =
        (do checkSignature lib verifier alg response.signature message
            return ⟨credentialId, a.signCount, a.userVerified⟩) := by
  obtain ⟨payload, challenge, a, verifier, priv, hloads, htype, hchallenge, hequal, horigin,
    hlayout, hhash, hpresent, hcount, hkey, hmatches, hmade⟩ := h
  have hparse := parseAuthenticatorData_eq_ok.mpr hlayout
  have hclient := clientHash_eq_ok hloads htype hchallenge hequal horigin
  have hcommon : common lib a expected.rpId = .ok () := by
    rw [common, if_neg (not_not.mpr hhash), if_neg (by rw [hpresent]; decide)]
  have hcounter := checkSignCount_of_lt hcount
  refine ⟨verifier, a, _, hkey, signing.verifies hmatches hmade, ?_⟩
  unfold verify
  rw [hclient, hparse]
  change (do
    common lib a expected.rpId
    checkSignature lib (← publicKey lib key) (← algorithm key) response.signature
      (response.authenticatorData ++ lib.sha256 response.clientData)
    checkSignCount storedSignCount a.signCount
    return (⟨credentialId, a.signCount, a.userVerified⟩ : Assertion)) = _
  rw [hcommon, hkey, halg, hcounter]
  rfl

/-- **A key that fits** verifies every response that is in order. -/
theorem verify_fit (h : InOrder lib signing key storedSignCount expected response)
    (hfit : FitsAlgorithm key) (halg : algorithm key = .ok alg) (credentialId : List UInt8) :
    ∃ assertion, verify lib response key credentialId storedSignCount expected = .ok assertion := by
  obtain ⟨verifier, a, message, hkey, hverifies, heq⟩ := verify_eq h halg credentialId
  have hscheme := (fitsAlgorithm_iff hkey halg).mp hfit
  refine ⟨⟨credentialId, a.signCount, a.userVerified⟩, ?_⟩
  rw [heq, checkSignature_eq, if_pos hscheme, if_pos hverifies]
  rfl

/-- **A key that does not fit** verifies none of them. -/
theorem verify_unfit (h : InOrder lib signing key storedSignCount expected response)
    (hfit : ¬FitsAlgorithm key) (halg : algorithm key = .ok alg) (credentialId : List UInt8) :
    verify lib response key credentialId storedSignCount expected =
      .error (.rejected unsupportedAlgorithm (toString alg)) := by
  obtain ⟨verifier, a, message, hkey, hverifies, heq⟩ := verify_eq h halg credentialId
  have hscheme := mt (fitsAlgorithm_iff hkey halg).mpr hfit
  rw [heq, checkSignature_eq, if_neg hscheme]
  rfl

theorem refusesPair_iff (hkey : publicKey lib key = .ok verifier) (halg : algorithm key = .ok alg) :
    RefusesPair lib key ↔ ¬FitsAlgorithm key := by
  rw [fitsAlgorithm_iff hkey halg]
  constructor
  · rintro ⟨verifier', alg', hkey', halg', hrefuses⟩ hscheme
    obtain rfl : verifier' = verifier := Except.ok.inj (hkey'.symm.trans hkey)
    obtain rfl : alg' = alg := Except.ok.inj (halg'.symm.trans halg)
    have hrun := hrefuses [] []
    rw [checkSignature_eq, if_pos hscheme] at hrun
    split_ifs at hrun
    exact absurd hrun (by simp [rejectWebAuthn, signatureInvalid, unsupportedAlgorithm])
  · intro hscheme
    refine ⟨verifier, alg, hkey, halg, fun signature message => ?_⟩
    rw [checkSignature_eq, if_neg hscheme]
    rfl

/-- **A registered passkey can be used** exactly when the type of its key and its algorithm go
together.  Then every response that is in order and signed with its private key is accepted;
otherwise verification refuses the pair. -/
theorem passkey_usable_iff {lib : Library} (signing : Signing lib)
    {clientData attestationObject : List UInt8} {expected : Expected} {registration : Registration}
    (h : register lib clientData attestationObject expected = .ok registration) :
    Usable lib signing registration.publicKey ∧ ¬RefusesPair lib registration.publicKey ↔
      FitsAlgorithm registration.publicKey := by
  obtain ⟨verifier, hkey, halg⟩ := register_eq_ok h
  rw [refusesPair_iff hkey halg, not_not]
  refine and_iff_right_of_imp fun hfit => ?_
  intro credentialId storedSignCount expected' response horder
  exact verify_fit horder hfit halg credentialId

/-! ## An elliptic curve key that says `RS256` -/

/-- The prime of P-256. -/
def p256 : Nat := 0xffffffff00000001000000000000000000000000ffffffffffffffffffffffff

/-- The constant of the equation of P-256. -/
def p256b : Nat := 0x5ac635d8aa3a93e7b3ebbd55769886bc651d06b0cc53b0f63bce3c3e27d2604b

/-- The base point of P-256: the public key of the private key `1`. -/
def basePoint : Nat × Nat :=
  (0x6b17d1f2e12c4247f8bce6e563a440f277037d812deb33a0f4a13945d898c296,
    0x4fe342e2fe1a7f9b8ee7eb4a7c0f9e162bce33576b315ececbb6406837bf51f5)

/-- The client data of a ceremony, as JSON and as its text. -/
def samplePayload (type : String) : List (String × Json) :=
  [("type", .str type), ("challenge", .str "YWJjZGVm"), ("origin", .str "https://id.test")]

def sampleClientData (type : String) : List UInt8 :=
  octets ("\x7b\"type\":\"" ++ type ++
    "\",\"challenge\":\"YWJjZGVm\",\"origin\":\"https://id.test\"\x7d")

/-- The SHA-256 of `id.test`. -/
def sampleRpHash : List UInt8 := toBigEndian 32
  0xddea4b853d932d52f0894d45f37e7527358710f867fff13f152e8c2d2a5cfbcf

/-- The SHA-256 of the client data of a use. -/
def sampleHash : List UInt8 := toBigEndian 32
  0x24e71f3934e38e7b07599e5a1381c6d212cd085a5b2c14d7edb02de0bced122e

/-- The authenticator data of the first use. -/
def sampleUse : List UInt8 := sampleRpHash ++ (flagUP :: toBigEndian 4 1)

/-- Its signature with ECDSA and SHA-256, under the private key `1`. -/
def sampleSignature : List UInt8 := toBigEndian 71
  0x304502207cf27b188d034f7e8a52380304b51ac3c08969e277f21b35a60b48fc47669978022100abd9bc02623ad062705c2d45edce8f3a5f582b4c36628b0bd7ee082590b5f790

/-- The library on the inputs of the sample. -/
def sampleLibrary : Library where
  loads raw :=
    if raw = sampleClientData "webauthn.create" then .value (.dict (samplePayload "webauthn.create"))
    else if raw = sampleClientData "webauthn.get" then .value (.dict (samplePayload "webauthn.get"))
    else .valueError
  repr _ := ""
  sha256 data :=
    if data = octets "id.test" then sampleRpHash
    else if data = sampleClientData "webauthn.get" then sampleHash
    else toBigEndian 32 0xed173bbab49da2efe524aafe4688a3540a8510a34df93cfe3b7898434423165b
  onCurve x y := x < p256 ∧ y < p256 ∧ y * y % p256 = (x * x * x + (p256 - 3) * x + p256b) % p256
  rsaKey e n := 3 ≤ e ∧ e < n ∧ e % 2 = 1
  ed25519Key x := x.length = 32
  verifies key signature message := key = .ec basePoint.1 basePoint.2 ∧
    signature = sampleSignature ∧ message = sampleUse ++ sampleHash

/-- The private key `1` and its signature of the sample. -/
def sampleSigning : Signing sampleLibrary where
  PrivateKey := Unit
  Matches _ key := key = .ec basePoint.1 basePoint.2
  Made _ signature message := signature = sampleSignature ∧ message = sampleUse ++ sampleHash
  verifies := by
    rintro _ _ _ _ rfl ⟨rfl, rfl⟩
    simp [sampleLibrary]

/-- The base point as a COSE key that says this algorithm. -/
def sampleKey (alg : Int) : Cbor := .map
  [(coseKty, .int ktyEc2), (coseAlg, .int alg), (coseCrv, .int crvP256),
    (coseX, .bytes (toBigEndian 32 basePoint.1)), (coseY, .bytes (toBigEndian 32 basePoint.2))]

/-- The attestation object of its registration. -/
def sampleAttestation (alg : Int) : List UInt8 := Cbor.encode (.map
  [(.text "fmt", .text "none"), (.text "attStmt", .map []),
    (.text "authData", .bytes (sampleRpHash ++ ((flagUP ||| flagAT) :: toBigEndian 4 0) ++
      List.replicate 16 0 ++ toBigEndian 2 2 ++ [7, 8] ++ Cbor.encode (sampleKey alg)))])

def sampleExpected : Expected := ⟨octets "abcdef", "https://id.test", "id.test"⟩

/-- What is registered of the sample. -/
def sampleRegistration (alg : Int) : Registration :=
  ⟨[7, 8], Cbor.encode (sampleKey alg), 0, false, alg⟩

/-- The first use of the credential. -/
def sampleResponse : Response := ⟨sampleClientData "webauthn.get", sampleUse, sampleSignature⟩

theorem register_sample (alg : Int) (h : alg = es256 ∨ alg = rs256) :
    register sampleLibrary (sampleClientData "webauthn.create") (sampleAttestation alg)
      sampleExpected = .ok (sampleRegistration alg) := by
  rcases h with rfl | rfl <;> decide +kernel

theorem publicKey_sample (alg : Int) (h : alg = es256 ∨ alg = rs256) :
    publicKey sampleLibrary (sampleRegistration alg).publicKey =
      .ok (.ec basePoint.1 basePoint.2) := by
  rcases h with rfl | rfl <;> decide +kernel

theorem algorithm_sample (alg : Int) (h : alg = es256 ∨ alg = rs256) :
    algorithm (sampleRegistration alg).publicKey = .ok alg := by
  rcases h with rfl | rfl <;> decide +kernel

theorem inOrder_sample (alg : Int) (h : alg = es256 ∨ alg = rs256) :
    InOrder sampleLibrary sampleSigning (sampleRegistration alg).publicKey 0 sampleExpected
      sampleResponse := by
  have hparse : parseAuthenticatorData sampleUse false =
      .ok ⟨sampleRpHash, flagUP, 1, none, none⟩ := by decide +kernel
  have hloads : sampleLibrary.loads (sampleClientData "webauthn.get") =
      .value (.dict (samplePayload "webauthn.get")) := by
    have hne : sampleClientData "webauthn.get" ≠ sampleClientData "webauthn.create" := by
      decide +kernel
    simp [sampleLibrary, hne]
  have hhash : sampleLibrary.sha256 (sampleClientData "webauthn.get") = sampleHash := by
    decide +kernel
  refine ⟨samplePayload "webauthn.get", "YWJjZGVm", _, _, (), hloads, rfl, rfl, ?_, rfl,
    parseAuthenticatorData_eq_ok.mp hparse, ?_, ?_, Nat.one_pos, publicKey_sample alg h, rfl,
    rfl, ?_⟩
  · decide +kernel
  · decide +kernel
  · decide +kernel
  · exact congrArg (sampleUse ++ ·) hhash

/-- **A passkey that cannot be used.**  The base point of P-256 is registered as a key of `RS256`;
a response that is in order is refused, and so is the pair of its type and its algorithm. -/
theorem not_passkey_usable :
    register sampleLibrary (sampleClientData "webauthn.create") (sampleAttestation rs256)
      sampleExpected = .ok (sampleRegistration rs256) ∧
    ¬Usable sampleLibrary sampleSigning (sampleRegistration rs256).publicKey ∧
    RefusesPair sampleLibrary (sampleRegistration rs256).publicKey := by
  have hkey := publicKey_sample rs256 (.inr rfl)
  have halg := algorithm_sample rs256 (.inr rfl)
  have hunfit : ¬FitsAlgorithm (sampleRegistration rs256).publicKey := by
    rw [fitsAlgorithm_iff hkey halg]
    decide
  refine ⟨register_sample rs256 (.inr rfl), fun husable => ?_, (refusesPair_iff hkey halg).mpr hunfit⟩
  have horder := inOrder_sample rs256 (.inr rfl)
  obtain ⟨assertion, hverify⟩ := husable [7, 8] 0 sampleExpected sampleResponse horder
  rw [verify_unfit horder hunfit halg] at hverify
  exact nomatch hverify

/-- The same point as a key of `ES256` can be used. -/
theorem passkey_usable_es256 :
    Usable sampleLibrary sampleSigning (sampleRegistration es256).publicKey := by
  have hfit : FitsAlgorithm (sampleRegistration es256).publicKey :=
    (fitsAlgorithm_iff (publicKey_sample es256 (.inl rfl)) (algorithm_sample es256 (.inl rfl))).mpr
      rfl
  exact ((passkey_usable_iff sampleSigning (register_sample es256 (.inl rfl))).mpr hfit).1

end Passkeys

end Mfa
end CampusID
