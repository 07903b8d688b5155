import CampusID.Saml.Document

/-!
# Decrypting an assertion

`encryption.py`: which algorithms are permitted, where the wrapped key and the ciphertext
are looked for, and the one error most failures collapse to.  RSA-OAEP and AES-GCM are
arguments; base64 is decoded here as `base64.b64decode` does, skipping what is not in the
alphabet unless it validates.
-/

namespace CampusID
namespace Saml

open Lib Element

/-! ## Base64 -/

/-- The value of a base64 digit. -/
def b64Value (c : UInt8) : Option Nat :=
  let n := c.toNat
  if 65 ≤ n ∧ n ≤ 90 then some (n - 65)
  else if 97 ≤ n ∧ n ≤ 122 then some (n - 71)
  else if 48 ≤ n ∧ n ≤ 57 then some (n + 4)
  else if n = 43 then some 62
  else if n = 47 then some 63
  else none

/-- `=`. -/
def b64Pad : UInt8 := 61

/-- The loop of `a2b_base64`: the position in the group of four, the bits left over from the
digit before, the pads since the last digit, and whether there was one. -/
def b64Loop (strict : Bool) : (quad left pads : Nat) → (padded : Bool) → Bytes → Option Bytes
  | quad, _, _, _, [] => if quad = 0 then some [] else none
  | quad, left, pads, padded, c :: cs =>
    if c = b64Pad then
      if 2 ≤ quad then
        if 4 ≤ quad + (pads + 1) then
          if strict ∧ cs ≠ [] then none else some []
        else b64Loop strict quad left (pads + 1) true cs
      else b64Loop strict quad left pads true cs
    else
      match b64Value c with
      | none => if strict then none else b64Loop strict quad left pads padded cs
      | some v =>
        if strict ∧ padded then none
        else
          match quad with
          | 0 => b64Loop strict 1 v 0 padded cs
          | 1 => (b64Loop strict 2 (v % 16) 0 padded cs).map (UInt8.ofNat (left * 4 + v / 16) :: ·)
          | 2 => (b64Loop strict 3 (v % 4) 0 padded cs).map (UInt8.ofNat (left * 16 + v / 4) :: ·)
          | _ => (b64Loop strict 0 0 0 padded cs).map (UInt8.ofNat (left * 64 + v) :: ·)

/-- The UTF-8 bytes of a text. -/
def utf8 (text : String) : Bytes := text.toByteArray.data.toList

/-- `base64.b64decode(text, validate=strict)`, where it does not raise. -/
def b64decode (strict : Bool) (text : String) : Option Bytes :=
  let data := utf8 text
  if data.any (128 ≤ ·) ∨ (strict ∧ data.head? = some b64Pad) then none
  else b64Loop strict 0 0 0 false data

/-- The digit of a value. -/
def b64Digit (v : Nat) : UInt8 :=
  if v < 26 then UInt8.ofNat (v + 65)
  else if v < 52 then UInt8.ofNat (v + 71)
  else if v < 62 then UInt8.ofNat (v - 4)
  else if v = 62 then 43
  else 47

/-- The digits of some bytes, and the padding. -/
def b64Digits : Bytes → Bytes
  | [] => []
  | [a] => [b64Digit (a.toNat / 4), b64Digit (a.toNat % 4 * 16), b64Pad, b64Pad]
  | [a, b] => [b64Digit (a.toNat / 4), b64Digit (a.toNat % 4 * 16 + b.toNat / 16),
      b64Digit (b.toNat % 16 * 4), b64Pad]
  | a :: b :: c :: rest =>
    b64Digit (a.toNat / 4) :: b64Digit (a.toNat % 4 * 16 + b.toNat / 16) ::
      b64Digit (b.toNat % 16 * 4 + c.toNat / 64) :: b64Digit (c.toNat % 64) :: b64Digits rest

/-- `base64.b64encode(data).decode()`, which is what fills the form field. -/
def b64encode (data : Bytes) : String :=
  String.ofList ((b64Digits data).map fun b => Char.ofNat b.toNat)

theorem b64Digit_spec : ∀ v < 64,
    b64Digit v ≠ b64Pad ∧ b64Value (b64Digit v) = some v ∧ b64Digit v < 128 := by
  decide

section Digits

variable (strict : Bool) (left pads : Nat) {v : Nat} (hv : v < 64) (cs : Bytes)

include hv

theorem b64Loop_first : b64Loop strict 0 left pads false (b64Digit v :: cs) =
    b64Loop strict 1 v 0 false cs := by
  obtain ⟨hpad, hvalue, -⟩ := b64Digit_spec v hv
  simp [b64Loop, hpad, hvalue]

theorem b64Loop_second : b64Loop strict 1 left pads false (b64Digit v :: cs) =
    (b64Loop strict 2 (v % 16) 0 false cs).map (UInt8.ofNat (left * 4 + v / 16) :: ·) := by
  obtain ⟨hpad, hvalue, -⟩ := b64Digit_spec v hv
  rw [b64Loop, if_neg hpad, hvalue]
  simp

theorem b64Loop_third : b64Loop strict 2 left pads false (b64Digit v :: cs) =
    (b64Loop strict 3 (v % 4) 0 false cs).map (UInt8.ofNat (left * 16 + v / 4) :: ·) := by
  obtain ⟨hpad, hvalue, -⟩ := b64Digit_spec v hv
  rw [b64Loop, if_neg hpad, hvalue]
  simp

theorem b64Loop_fourth : b64Loop strict 3 left pads false (b64Digit v :: cs) =
    (b64Loop strict 0 0 0 false cs).map (UInt8.ofNat (left * 64 + v) :: ·) := by
  obtain ⟨hpad, hvalue, -⟩ := b64Digit_spec v hv
  rw [b64Loop, if_neg hpad, hvalue]
  simp

end Digits

theorem b64Loop_pads (strict : Bool) (left : Nat) :
    b64Loop strict 2 left 0 false [b64Pad, b64Pad] = some [] := by
  simp [b64Loop]

theorem b64Loop_pad (strict : Bool) (left : Nat) :
    b64Loop strict 3 left 0 false [b64Pad] = some [] := by
  simp [b64Loop]

theorem ofNat_eq_of_toNat {a : UInt8} {n : Nat} (h : n = a.toNat) : UInt8.ofNat n = a := by
  rw [h, UInt8.ofNat_toNat]

theorem b64Loop_digits (strict : Bool) (left pads : Nat) (data : Bytes) :
    b64Loop strict 0 left pads false (b64Digits data) = some data := by
  induction data using b64Digits.induct generalizing left pads with
  | case1 => rfl
  | case2 a =>
    have ha := a.toNat_lt
    rw [b64Digits, b64Loop_first _ _ _ (by omega), b64Loop_second _ _ _ (by omega),
      b64Loop_pads, ofNat_eq_of_toNat (a := a) (by omega)]
    rfl
  | case3 a b =>
    have ha := a.toNat_lt
    have hb := b.toNat_lt
    rw [b64Digits, b64Loop_first _ _ _ (by omega), b64Loop_second _ _ _ (by omega),
      b64Loop_third _ _ _ (by omega), b64Loop_pad, ofNat_eq_of_toNat (a := a) (by omega),
      ofNat_eq_of_toNat (a := b) (by omega)]
    rfl
  | case4 a b c rest ih =>
    have ha := a.toNat_lt
    have hb := b.toNat_lt
    have hc := c.toNat_lt
    rw [b64Digits, b64Loop_first _ _ _ (by omega), b64Loop_second _ _ _ (by omega),
      b64Loop_third _ _ _ (by omega), b64Loop_fourth _ _ _ (by omega), ih,
      ofNat_eq_of_toNat (a := a) (by omega), ofNat_eq_of_toNat (a := b) (by omega),
      ofNat_eq_of_toNat (a := c) (by omega)]
    rfl

theorem b64Digits_ascii (data : Bytes) : ∀ b ∈ b64Digits data, b < 128 := by
  induction data using b64Digits.induct with
  | case1 => simp [b64Digits]
  | case2 a =>
    have ha := a.toNat_lt
    simp [b64Digits, b64Digit_spec _ (show a.toNat / 4 < 64 by omega),
      b64Digit_spec _ (show a.toNat % 4 * 16 < 64 by omega), b64Pad]
  | case3 a b =>
    have ha := a.toNat_lt
    have hb := b.toNat_lt
    simp [b64Digits, b64Digit_spec _ (show a.toNat / 4 < 64 by omega),
      b64Digit_spec _ (show a.toNat % 4 * 16 + b.toNat / 16 < 64 by omega),
      b64Digit_spec _ (show b.toNat % 16 * 4 < 64 by omega), b64Pad]
  | case4 a b c rest ih =>
    have ha := a.toNat_lt
    have hb := b.toNat_lt
    have hc := c.toNat_lt
    simpa [b64Digits, b64Digit_spec _ (show a.toNat / 4 < 64 by omega),
      b64Digit_spec _ (show a.toNat % 4 * 16 + b.toNat / 16 < 64 by omega),
      b64Digit_spec _ (show b.toNat % 16 * 4 + c.toNat / 64 < 64 by omega),
      b64Digit_spec _ (show c.toNat % 64 < 64 by omega)] using ih

theorem utf8EncodeChar_ascii : ∀ n < 128,
    String.utf8EncodeChar (Char.ofNat n) = [UInt8.ofNat n] := by
  decide

theorem utf8_ofList {data : Bytes} (h : ∀ b ∈ data, b < 128) :
    utf8 (String.ofList (data.map fun b => Char.ofNat b.toNat)) = data := by
  rw [utf8, String.toByteArray_ofList, List.utf8Encode, List.toList_data_toByteArray]
  induction data with
  | nil => rfl
  | cons b rest ih =>
    have hb : b.toNat < 128 := UInt8.lt_iff_toNat_lt.mp (h b List.mem_cons_self)
    rw [List.map_cons, List.flatMap_cons, utf8EncodeChar_ascii _ hb, UInt8.ofNat_toNat,
      ih fun x hx => h x (List.mem_cons_of_mem _ hx)]
    rfl

/-- **What was encoded decodes**, strictly or not. -/
theorem b64decode_b64encode (strict : Bool) (data : Bytes) :
    b64decode strict (b64encode data) = some data := by
  have hascii := b64Digits_ascii data
  have hany : (b64Digits data).any (128 ≤ ·) = false := by
    simpa using hascii
  have hhead : (b64Digits data).head? ≠ some b64Pad := by
    fun_cases b64Digits data with
    | case1 => simp
    | case2 a =>
      have ha := a.toNat_lt
      simpa using (b64Digit_spec (a.toNat / 4) (by omega)).1
    | case3 a b =>
      have ha := a.toNat_lt
      simpa using (b64Digit_spec (a.toNat / 4) (by omega)).1
    | case4 a b c rest =>
      have ha := a.toNat_lt
      simpa using (b64Digit_spec (a.toNat / 4) (by omega)).1
  simp only [b64decode, b64encode, utf8_ofList hascii, hany, hhead, and_false, or_false,
    Bool.false_eq_true, if_false]
  exact b64Loop_digits strict 0 0 data

/-! ## Algorithms -/

/-- `RSA_OAEP_MGF1P`. -/
def rsaOaepMgf1p : String := xenc ++ "rsa-oaep-mgf1p"

/-- `RSA_OAEP`. -/
def rsaOaep : String := xenc11 ++ "rsa-oaep"

/-- `PERMITTED_KEY_TRANSPORT`. -/
def permittedKeyTransport : List String := [rsaOaepMgf1p, rsaOaep]

/-- `PERMITTED_CONTENT_ENCRYPTION`, with the key lengths. -/
def permittedContentEncryption : List (String × Nat) :=
  [(xenc11 ++ "aes128-gcm", 16), (xenc11 ++ "aes192-gcm", 24), (xenc11 ++ "aes256-gcm", 32)]

/-- The names of `_DIGESTS`. -/
def oaepDigests : List String :=
  [ds ++ "sha1", xenc ++ "sha256", "http://www.w3.org/2001/04/xmldsig-more#sha384",
    xenc ++ "sha512"]

/-- The names of `_MGF_HASHES`. -/
def mgfHashes : List String :=
  [xenc11 ++ "mgf1sha1", xenc11 ++ "mgf1sha224", xenc11 ++ "mgf1sha256", xenc11 ++ "mgf1sha384",
    xenc11 ++ "mgf1sha512"]

/-- `GCM_IV_BYTES`. -/
def gcmIvBytes : Nat := 12

/-- `GCM_TAG_BYTES`. -/
def gcmTagBytes : Nat := 16

/-! ## Decryption -/

/-- What `cryptography` does; `none` is an exception. -/
structure Cipher where
  /-- `load_pem_private_key` of an RSA key: its `decrypt`, by the names of the OAEP digest and
  of the MGF1 hash. -/
  loadRsaKey : Bytes → Option (String → String → Bytes → Option Bytes)
  /-- `AESGCM(key).decrypt(iv, data, None)`. -/
  gcmDecrypt : (key iv data : Bytes) → Option Bytes

/-- The one message of a failure past the algorithms. -/
def uniformFailure : SamlRejected := ⟨.decryptionFailed, "assertion decryption failed"⟩

/-- An exception, collapsed to the uniform refusal. -/
def orFail {α : Type} (x : Option α) : Except SamlRejected α :=
  match x with
  | none => .error uniformFailure
  | some a => .ok a

/-- `_algorithm`. -/
def encryptionAlgorithm (element : Element) : Except SamlRejected String :=
  match (element.find qEncryptionMethod).bind (·.get "Algorithm") with
  | some algorithm =>
    if algorithm = "" then reject .unsupportedEncryptionAlgorithm "no EncryptionMethod declared"
    else .ok algorithm
  | none => reject .unsupportedEncryptionAlgorithm "no EncryptionMethod declared"

/-- `_find_encrypted_key`. -/
def findEncryptedKey (encryptedAssertion encryptedData : Element) : Except SamlRejected Element :=
  match encryptedData.findDeep qEncryptedKey with
  | some nested => .ok nested
  | none =>
    match encryptedAssertion.findDeep qEncryptedKey with
    | some sibling => .ok sibling
    | none => reject .decryptionFailed "no EncryptedKey found"

/-- `_cipher_value`: the element's own ciphertext, without its white space. -/
def cipherValue (element : Element) : Except SamlRejected Bytes :=
  match (element.findPath qCipherData qCipherValue).map Element.text with
  | none => reject .decryptionFailed "no CipherValue"
  | some text =>
    if text = "" then reject .decryptionFailed "no CipherValue"
    else orFail (b64decode false (String.ofList (text.toList.filter (! Text.isSpace ·))))

/-- The OAEP digest and MGF1 hash of a key transport. -/
def oaepParameters (encryptedKey : Element) (algorithm : String) :
    Except SamlRejected (String × String) :=
  if algorithm = rsaOaepMgf1p then .ok (ds ++ "sha1", xenc11 ++ "mgf1sha1")
  else
    let method := encryptedKey.find qEncryptionMethod
    let digestUri := match method.bind (·.find ⟨ds, "DigestMethod"⟩) with
      | some digest => digest.get "Algorithm"
      | none => some (xenc ++ "sha256")
    let mgfUri := match method.bind (·.find qMgf) with
      | some mgf => mgf.get "Algorithm"
      | none => some (xenc11 ++ "mgf1sha1")
    match digestUri.filter (· ∈ oaepDigests), mgfUri.filter (· ∈ mgfHashes) with
    | some digest, some mgf => .ok (digest, mgf)
    | _, _ => reject .unsupportedEncryptionAlgorithm
        ("OAEP parameters " ++ reprOpt digestUri ++ "/" ++ reprOpt mgfUri ++ " are not permitted")

/-- `_unwrap_key`. -/
def unwrapKey (cipher : Cipher) (encryptedKey : Element) (algorithm : String)
    (privateKeyPem : Bytes) : Except SamlRejected Bytes := do
  let decrypt ← orFail (cipher.loadRsaKey privateKeyPem)
  let (digest, mgf) ← oaepParameters encryptedKey algorithm
  let wrapped ← cipherValue encryptedKey
  orFail (decrypt digest mgf wrapped)

/-- `_decrypt_gcm`: the IV, then the ciphertext with its tag. -/
def decryptGcm (cipher : Cipher) (ciphertext sessionKey : Bytes) : Option Bytes :=
  if ciphertext.length ≤ gcmIvBytes + gcmTagBytes then none
  else cipher.gcmDecrypt sessionKey (ciphertext.take gcmIvBytes) (ciphertext.drop gcmIvBytes)

/-- `decrypt_assertion`. -/
def decryptAssertion (cipher : Cipher) (fromstring : XmlReader) (encryptedAssertion : Element)
    (privateKeyPem : Bytes) : Except SamlRejected Element :=
  match encryptedAssertion.find qEncryptedData with
  | none => reject .decryptionFailed "EncryptedAssertion has no EncryptedData"
  | some encryptedData => do
    let contentAlgorithm ← encryptionAlgorithm encryptedData
    match permittedContentEncryption.lookup contentAlgorithm with
    | none => reject .unsupportedEncryptionAlgorithm ("content encryption " ++
        Text.pyRepr contentAlgorithm ++ " is not permitted; CampusID requires AES-GCM")
    | some expectedLength =>
      let encryptedKey ← findEncryptedKey encryptedAssertion encryptedData
      let keyAlgorithm ← encryptionAlgorithm encryptedKey
      rejectIf (keyAlgorithm ∉ permittedKeyTransport) .unsupportedEncryptionAlgorithm
        ("key transport " ++ Text.pyRepr keyAlgorithm ++ " is not permitted")
      let sessionKey ← unwrapKey cipher encryptedKey keyAlgorithm privateKeyPem
      rejectIf (sessionKey.length ≠ expectedLength) uniformFailure.reason uniformFailure.detail
      let ciphertext ← cipherValue encryptedData
      let plaintext ← orFail (decryptGcm cipher ciphertext sessionKey)
      rejectIf (plaintext.length > maxDocumentBytes) .payloadTooLarge
        "decrypted assertion exceeds the size ceiling"
      parseSaml fromstring plaintext

/-- The loop of `_decrypt` over the held keys, with the last refusal. -/
def decryptWith (decrypt : Bytes → Except SamlRejected Element) :
    SamlRejected → List Bytes → Except SamlRejected Element
  | refusal, [] => .error refusal
  | _, key :: keys =>
    match decrypt key with
    | .ok element => .ok element
    | .error refusal => decryptWith decrypt refusal keys

/-- **What is decrypted was decrypted under a held key**, and parsed. -/
theorem decryptWith_ok {decrypt : Bytes → Except SamlRejected Element} {refusal : SamlRejected}
    {keys : List Bytes} {e : Element} (h : decryptWith decrypt refusal keys = .ok e) :
    ∃ key ∈ keys, decrypt key = .ok e := by
  induction keys generalizing refusal with
  | nil => simp [decryptWith] at h
  | cons key keys ih =>
    rw [decryptWith] at h
    cases hkey : decrypt key with
    | ok element =>
      rw [hkey] at h
      exact ⟨key, List.mem_cons_self, hkey.trans h⟩
    | error refusal' =>
      rw [hkey] at h
      obtain ⟨other, hother, hdecrypt⟩ := ih h
      exact ⟨other, List.mem_cons_of_mem _ hother, hdecrypt⟩

/-- **A decrypted assertion is a document of its own**, parsed from the plaintext. -/
theorem decryptAssertion_parsed {cipher : Cipher} {fromstring : XmlReader}
    {encryptedAssertion : Element} {key : Bytes} {e : Element}
    (h : decryptAssertion cipher fromstring encryptedAssertion key = .ok e) :
    ∃ plaintext, parseSaml fromstring plaintext = .ok e := by
  unfold decryptAssertion at h
  cases hdata : encryptedAssertion.find qEncryptedData with
  | none => simp [hdata] at h
  | some encryptedData =>
    simp only [hdata] at h
    obtain ⟨contentAlgorithm, -, h⟩ := Eff.except_bind_eq_ok.mp h
    cases hlength : permittedContentEncryption.lookup contentAlgorithm with
    | none => simp [hlength] at h
    | some expectedLength =>
      simp only [hlength] at h
      obtain ⟨encryptedKey, -, h⟩ := Eff.except_bind_eq_ok.mp h
      obtain ⟨keyAlgorithm, -, h⟩ := Eff.except_bind_eq_ok.mp h
      obtain ⟨_, -, h⟩ := Eff.except_bind_eq_ok.mp h
      obtain ⟨sessionKey, -, h⟩ := Eff.except_bind_eq_ok.mp h
      obtain ⟨_, -, h⟩ := Eff.except_bind_eq_ok.mp h
      obtain ⟨ciphertext, -, h⟩ := Eff.except_bind_eq_ok.mp h
      obtain ⟨plaintext, -, h⟩ := Eff.except_bind_eq_ok.mp h
      obtain ⟨_, -, h⟩ := Eff.except_bind_eq_ok.mp h
      exact ⟨plaintext, h⟩

end Saml
end CampusID
