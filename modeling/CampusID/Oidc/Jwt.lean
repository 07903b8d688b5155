import CampusID.Audit.Values
import CampusID.Oidc.Endpoints

/-!
# Decoding an access token

`jwt.decode` as the bearer check calls it, with everything it can raise.

The algorithm, the type and the key of the header are compared, the signature is checked over the
text, and only then are the claims read.  Base64 is decoded the lenient way.  What is not ASCII, is
no base64 or is no JSON is a `JwtError`; the header is parsed before anything is checked, and JSON
nested too deeply is a `RecursionError`, which is none (`decode_recursionError_iff`).
-/

namespace CampusID
namespace Oidc

open Audit (Json)

/-! ## Base64 -/

/-- The value of a character of the alphabet, the URL-safe spelling or the other. -/
def sextet (c : Char) : Option Nat :=
  if 'A' ≤ c ∧ c ≤ 'Z' then some (c.toNat - 'A'.toNat)
  else if 'a' ≤ c ∧ c ≤ 'z' then some (c.toNat - 'a'.toNat + 26)
  else if c.isDigit then some (c.toNat - '0'.toNat + 52)
  else if c = '-' ∨ c = '+' then some 62
  else if c = '_' ∨ c = '/' then some 63
  else none

/-- The loop of `binascii.a2b_base64`, not strict: where in a quad it is, the bits left over, the
padding seen and the bytes so far, the last one first.  It ends at a complete quad's padding, and
passes over what is not in the alphabet. -/
def a2bBase64 : (quad left pads : Nat) → (bytes : List Nat) → List Char → Option (List Nat)
  | quad, _, _, bytes, [] => if quad = 0 then some bytes.reverse else none
  | quad, left, pads, bytes, c :: cs =>
    if c = '=' then
      if 2 ≤ quad then
        if 4 ≤ quad + (pads + 1) then some bytes.reverse
        else a2bBase64 quad left (pads + 1) bytes cs
      else a2bBase64 quad left pads bytes cs
    else
      match sextet c, quad with
      | none, _ => a2bBase64 quad left pads bytes cs
      | some v, 0 => a2bBase64 1 v 0 bytes cs
      | some v, 1 => a2bBase64 2 (v % 16) 0 ((left * 4 + v / 16) :: bytes) cs
      | some v, 2 => a2bBase64 3 (v % 4) 0 ((left * 16 + v / 4) :: bytes) cs
      | some v, _ => a2bBase64 0 0 0 ((left * 64 + v) :: bytes) cs

/-- `b64url_decode`, with the padding restored: `none` is a `ValueError`. -/
def b64urlDecode (value : String) : Option (List Nat) :=
  if Text.isAscii value then
    a2bBase64 0 0 0 [] (value.toList ++ List.replicate ((4 - value.length % 4) % 4) '=')
  else none

/-! ## Decoding -/

/-- What `json.loads` does: a value, a `ValueError`, or a `RecursionError`. -/
inductive Loaded where
  | value (json : Json)
  | valueError
  | recursionError

/-- What `decode` can raise. -/
inductive JwtRaised where
  | jwtError (detail : String)
  | recursionError
  deriving DecidableEq, Repr

/-- What `decode` uses from outside: `json.loads` of some bytes, the `kid`s of the published keys, and
the check of a signature.  What a published key has signed as an access token carries the claims
that were signed. -/
structure JwtLibrary where
  loads : List Nat → Loaded
  published : String → Bool
  signed : (kid : String) → (signature : List Nat) → (message : String) → Option AccessClaims

/-- `RS256`. -/
def rs256 : String := "RS256"

/-- `TYPE_AT_JWT`. -/
def typeAtJwt : String := "at+jwt"

namespace JwtLibrary

variable (lib : JwtLibrary)

/-- `_json`. -/
def json (segment what : String) : Except JwtRaised (List (String × Json)) :=
  match b64urlDecode segment with
  | none => .error (.jwtError ("malformed " ++ what))
  | some bytes =>
    match lib.loads bytes with
    | .valueError => .error (.jwtError ("malformed " ++ what))
    | .recursionError => .error .recursionError
    | .value (.dict entries) => .ok entries
    | .value _ => .error (.jwtError ("malformed " ++ what))

/-- The entry is this text. -/
def isText (entries : List (String × Json)) (name text : String) : Bool :=
  match entries.lookup name with
  | some (.str value) => value = text
  | _ => false

/-- The checks on the header: the key it names. -/
def checkHeader (header : List (String × Json)) : Except JwtRaised String :=
  if isText header "alg" rs256 = false then .error (.jwtError "unsupported algorithm")
  else if isText header "typ" typeAtJwt = false then .error (.jwtError "unexpected token type")
  else
    match header.lookup "kid" with
    | some (.str kid) =>
      if lib.published kid then .ok kid else .error (.jwtError "unknown signing key")
    | _ => .error (.jwtError "unknown signing key")

/-- The check of the signature: the claims that were signed. -/
def checkSignature (kid encodedSignature message : String) : Except JwtRaised AccessClaims :=
  match b64urlDecode encodedSignature with
  | none => .error (.jwtError "signature verification failed")
  | some signature =>
    if Text.isAscii message = false then .error (.jwtError "signature verification failed")
    else
      match lib.signed kid signature message with
      | none => .error (.jwtError "signature verification failed")
      | some claims => .ok claims

/-- `decode`, up to the check of the claims. -/
def decode (token : String) : Except JwtRaised AccessClaims :=
  match Text.split '.' token with
  | [encodedHeader, encodedClaims, encodedSignature] => do
    let header ← lib.json encodedHeader "header"
    let kid ← lib.checkHeader header
    lib.checkSignature kid encodedSignature (encodedHeader ++ "." ++ encodedClaims)
  | _ => .error (.jwtError "malformed token")

end JwtLibrary

/-- The token has three parts, and the first of them is JSON that is nested too deeply. -/
def TooDeep (lib : JwtLibrary) (token : String) : Prop :=
  ∃ header claims signature bytes, Text.split '.' token = [header, claims, signature] ∧
    b64urlDecode header = some bytes ∧ lib.loads bytes = .recursionError

section Decoding

variable {lib : JwtLibrary} {segment what token message kid : String}

theorem json_recursionError_iff : lib.json segment what = .error .recursionError ↔
    ∃ bytes, b64urlDecode segment = some bytes ∧ lib.loads bytes = .recursionError := by
  unfold JwtLibrary.json
  cases hbytes : b64urlDecode segment with
  | none => simp
  | some bytes =>
    cases hloads : lib.loads bytes with
    | valueError => simp [hloads]
    | recursionError => simp [hloads]
    | value json => cases json <;> simp [hloads]

theorem checkHeader_ne_recursionError {header : List (String × Json)} :
    lib.checkHeader header ≠ .error .recursionError := by
  unfold JwtLibrary.checkHeader
  split_ifs
  · simp
  · simp
  · split
    · split_ifs <;> simp
    · simp

theorem checkSignature_ne_recursionError {signature : String} :
    lib.checkSignature kid signature message ≠ .error .recursionError := by
  unfold JwtLibrary.checkSignature
  split
  · simp
  · split_ifs
    · simp
    · split <;> simp

/-- **What is no `JwtError`**: a header that is nested too deeply. -/
theorem decode_recursionError_iff :
    lib.decode token = .error .recursionError ↔ TooDeep lib token := by
  unfold JwtLibrary.decode TooDeep
  split
  · rename_i header claims signature hsplit
    constructor
    · intro hraised
      cases hjson : lib.json header "header" with
      | error raised =>
        rw [hjson] at hraised
        obtain rfl := Except.error.inj hraised
        obtain ⟨bytes, hbytes, hloads⟩ := json_recursionError_iff.mp hjson
        exact ⟨header, claims, signature, bytes, hsplit, hbytes, hloads⟩
      | ok entries =>
        rw [hjson] at hraised
        change (lib.checkHeader entries).bind _ = _ at hraised
        cases hheader : lib.checkHeader entries with
        | error raised =>
          rw [hheader] at hraised
          obtain rfl := Except.error.inj hraised
          exact absurd hheader checkHeader_ne_recursionError
        | ok kid =>
          rw [hheader] at hraised
          exact absurd hraised checkSignature_ne_recursionError
    · rintro ⟨header', claims', signature', bytes, hsplit', hbytes, hloads⟩
      obtain ⟨rfl, rfl, rfl⟩ : header = header' ∧ claims = claims' ∧ signature = signature' := by
        simpa [hsplit] using hsplit'
      rw [json_recursionError_iff.mpr ⟨bytes, hbytes, hloads⟩]
      rfl
  · rename_i hsplit
    constructor
    · intro hraised
      cases hraised
    · rintro ⟨header, claims, signature, bytes, hparts, -⟩
      exact absurd hparts (hsplit header claims signature)

end Decoding

end Oidc
end CampusID
