import CampusID.Mfa.CanonicalCbor

/-!
# The layout of authenticator data

`parse_authenticator_data` walks over its bytes by an offset that it moves on.  `Layout` is what it
is for: a hash, a byte of flags and a counter, then a credential if the flags say so, then
extensions if the flags say so, and nothing else.

The two agree (`parseAuthenticatorData_exact`).  Each piece that is read stands at the offset where
it is looked for, and the pieces that stand one after another up to the end are the whole.
-/

namespace CampusID
namespace Mfa

open Lib Lib.Readers Lib.Positional Lib.Eff
open Cbor (byteAt unpack decode decodePrefix Fits encode maxDepth)

/-- What a ceremony can raise: `WebAuthnRejected`, or what it does not catch. -/
inductive WebAuthnRaised where
  | rejected (reason detail : String)
  | indexError
  | structError
  | recursionError
  deriving DecidableEq, Repr

/-- `MALFORMED`. -/
def malformed : String := "mfa.webauthn_malformed"

/-- `raise WebAuthnRejected(reason, detail)`. -/
def rejectWebAuthn {α : Type} (reason detail : String) : Except WebAuthnRaised α :=
  .error (.rejected reason detail)

/-- `except cbor.CborError as exc: raise WebAuthnRejected(MALFORMED, str(exc))`. -/
def orMalformed {α : Type} (x : Except Cbor.Raised α) : Except WebAuthnRaised α :=
  x.mapError fun
    | .cborError text => .rejected malformed text
    | .indexError => .indexError
    | .structError => .structError

/-- `UP`. -/
def flagUP : UInt8 := 0x01

/-- `UV`. -/
def flagUV : UInt8 := 0x04

/-- `AT`. -/
def flagAT : UInt8 := 0x40

/-- `ED`. -/
def flagED : UInt8 := 0x80

/-- `AuthenticatorData`. -/
structure AuthenticatorData where
  rpIdHash : List UInt8
  flags : UInt8
  signCount : Nat
  credentialId : Option (List UInt8)
  publicKey : Option (List UInt8)
  deriving DecidableEq

/-- `user_present`. -/
def AuthenticatorData.userPresent (a : AuthenticatorData) : Bool := a.flags &&& flagUP ≠ 0

/-- `user_verified`. -/
def AuthenticatorData.userVerified (a : AuthenticatorData) : Bool := a.flags &&& flagUV ≠ 0

/-- The attested credential data at an offset: the credential id, the public key and the offset
after them. -/
def readCredential (raw : List UInt8) (offset : Nat) :
    Except WebAuthnRaised (List UInt8 × List UInt8 × Nat) := do
  if raw.length < offset + 18 then rejectWebAuthn malformed "attested credential data is truncated"
  let offset := offset + 16
  let idLength ← orMalformed (unpack 2 ((raw.drop offset).take 2))
  let offset := offset + 2
  if raw.length < offset + idLength then
    rejectWebAuthn malformed "credential id runs past the end"
  let credentialId := (raw.drop offset).take idLength
  let offset := offset + idLength
  let (_, used) ← orMalformed (decodePrefix (raw.drop offset))
  return (credentialId, (raw.drop offset).take used, offset + used)

/-- The part that `AT` announces. -/
def readAttested (raw : List UInt8) (flags : UInt8) (expectCredential : Bool) (offset : Nat) :
    Except WebAuthnRaised (Option (List UInt8) × Option (List UInt8) × Nat) :=
  if flags &&& flagAT ≠ 0 then do
    let (credentialId, publicKey, offset) ← readCredential raw offset
    return (some credentialId, some publicKey, offset)
  else if expectCredential then
    rejectWebAuthn malformed "registration carries no attested credential data"
  else .ok (none, none, offset)

/-- The part that `ED` announces: the offset after it. -/
def readExtensions (raw : List UInt8) (flags : UInt8) (offset : Nat) : Except WebAuthnRaised Nat :=
  if flags &&& flagED ≠ 0 then do
    let (_, used) ← orMalformed (decodePrefix (raw.drop offset))
    return offset + used
  else .ok offset

/-- `parse_authenticator_data`. -/
def parseAuthenticatorData (raw : List UInt8) (expectCredential : Bool) :
    Except WebAuthnRaised AuthenticatorData := do
  if raw.length < 37 then rejectWebAuthn malformed s!"authenticator data is {raw.length} bytes"
  let flags ← orMalformed (byteAt raw 32)
  let signCount ← orMalformed (unpack 4 ((raw.drop 33).take 4))
  let (credentialId, publicKey, offset) ← readAttested raw flags expectCredential 37
  let offset ← readExtensions raw flags offset
  if offset ≠ raw.length then
    rejectWebAuthn malformed s!"{(raw.length : Int) - offset} bytes after the structure"
  return ⟨raw.take 32, flags, signCount, credentialId, publicKey⟩

/-! ## The layout -/

/-- The part of the data that `AT` announces, with the credential id and the public key in it. -/
inductive Attested (flags : UInt8) (expectCredential : Bool) :
    List UInt8 → Option (List UInt8) → Option (List UInt8) → Prop
  | present {aaguid length id key : List UInt8} {v : Cbor} (hflag : flags &&& flagAT ≠ 0)
      (haaguid : aaguid.length = 16) (hlength : length.length = 2)
      (hid : id.length = bigEndian length) (hkey : decode key = .ok v) :
      Attested flags expectCredential (aaguid ++ (length ++ (id ++ key))) (some id) (some key)
  | absent (hflag : flags &&& flagAT = 0) (hexpect : expectCredential = false) :
      Attested flags expectCredential [] none none

/-- The part of the data that `ED` announces. -/
inductive Extensions (flags : UInt8) : List UInt8 → Prop
  | present {piece : List UInt8} {v : Cbor} (hflag : flags &&& flagED ≠ 0)
      (hpiece : decode piece = .ok v) : Extensions flags piece
  | absent (hflag : flags &&& flagED = 0) : Extensions flags []

/-- The bytes are a hash, the flags, a counter, a credential if it is announced and extensions if
they are announced, and these are what was parsed. -/
def Layout (raw : List UInt8) (expectCredential : Bool) (a : AuthenticatorData) : Prop :=
  ∃ counter credential extensions : List UInt8,
    a.rpIdHash.length = 32 ∧ counter.length = 4 ∧ a.signCount = bigEndian counter ∧
      Attested a.flags expectCredential credential a.credentialId a.publicKey ∧
      Extensions a.flags extensions ∧
      raw = a.rpIdHash ++ ([a.flags] ++ (counter ++ (credential ++ extensions)))

/-! ## Reading -/

variable {raw piece : List UInt8} {flags : UInt8} {expectCredential : Bool} {i j n : Nat}
  {a : AuthenticatorData} {id key : Option (List UInt8)}

theorem orMalformed_eq_ok {α : Type} {x : Except Cbor.Raised α} {b : α} :
    orMalformed x = .ok b ↔ x = .ok b := by
  cases x <;> simp [orMalformed, Except.mapError]

theorem byteAt_eq_ok {byte : UInt8} : byteAt raw i = .ok byte ↔ raw[i]? = some byte := by
  unfold byteAt
  cases raw[i]? <;> simp

theorem stands_slice (h : i + n ≤ raw.length) : Stands raw i ((raw.drop i).take n) (i + n) :=
  (stands_take h).mpr rfl

theorem length_slice (h : i + n ≤ raw.length) : ((raw.drop i).take n).length = n :=
  (Nat.add_left_cancel (stands_slice h).2).symm

theorem decodePrefix_drop {v : Cbor} : decodePrefix (raw.drop i) = .ok (v, n) ↔
    decode ((raw.drop i).take n) = .ok v ∧ Stands raw i ((raw.drop i).take n) (i + n) := by
  rw [Cbor.decodePrefix_eq_ok, Cbor.decode_eq_ok]
  constructor
  · rintro ⟨hfits, hprefix, rfl⟩
    rw [← List.prefix_iff_eq_take.mp hprefix]
    exact ⟨⟨hfits, rfl⟩, hprefix, rfl⟩
  · rintro ⟨⟨hfits, hv⟩, hprefix, hn⟩
    rw [hv] at hprefix hn
    exact ⟨hfits, hprefix, Nat.add_left_cancel hn⟩

theorem unpack_slice {value : Nat} (h : i + n ≤ raw.length) :
    unpack n ((raw.drop i).take n) = .ok value ↔ bigEndian ((raw.drop i).take n) = value := by
  rw [unpack, if_pos (length_slice h), Except.ok.injEq]

/-- **A credential is read** where its four parts stand. -/
theorem readCredential_eq_ok {id key : List UInt8} : readCredential raw i = .ok (id, key, j) ↔
    ∃ (aaguid length : List UInt8) (v : Cbor), aaguid.length = 16 ∧ length.length = 2 ∧
      id.length = bigEndian length ∧ decode key = .ok v ∧
      Stands raw i (aaguid ++ (length ++ (id ++ key))) j := by
  unfold readCredential
  constructor
  · intro hrun
    split_ifs at hrun with hshort
    · exact nomatch hrun
    obtain ⟨idLength, hunpack, hrun⟩ := except_bind_eq_ok.mp hrun
    have h18 : i + 18 ≤ raw.length := Nat.not_lt.mp hshort
    have hidLength := (unpack_slice (by omega)).mp (orMalformed_eq_ok.mp hunpack)
    dsimp only at hrun
    split_ifs at hrun with hid
    · exact nomatch hrun
    obtain ⟨⟨v, used⟩, hdecode, hdone⟩ := except_bind_eq_ok.mp hrun
    obtain ⟨rfl, hrest⟩ := Prod.mk.inj (Except.ok.inj hdone)
    obtain ⟨rfl, rfl⟩ := Prod.mk.inj hrest
    obtain ⟨hkey, hstands⟩ := decodePrefix_drop.mp (orMalformed_eq_ok.mp hdecode)
    refine ⟨(raw.drop i).take 16, (raw.drop (i + 16)).take 2, v, length_slice (by omega),
      length_slice (by omega), ?_, hkey, ?_⟩
    · rw [hidLength]
      exact length_slice (by omega)
    · exact stands_append.mpr ⟨_, stands_slice (by omega), stands_append.mpr
        ⟨_, stands_slice (by omega), stands_append.mpr ⟨_, stands_slice (by omega), hstands⟩⟩⟩
  · rintro ⟨aaguid, length, v, haaguid, hlength, hid, hkey, hstands⟩
    obtain ⟨k, ha, hstands⟩ := stands_append.mp hstands
    obtain ⟨k', hl, hstands⟩ := stands_append.mp hstands
    obtain ⟨k'', hi, hk⟩ := stands_append.mp hstands
    obtain rfl : k = i + 16 := by rw [ha.2, haaguid]
    obtain rfl : k' = i + 16 + 2 := by rw [hl.2, hlength]
    obtain rfl : k'' = i + 16 + 2 + bigEndian length := by rw [hi.2, hid]
    obtain ⟨used, rfl⟩ := Nat.exists_eq_add_of_le hk.le
    have h18 : i + 16 + 2 ≤ raw.length := hl.bound (by omega)
    have hend := hi.le_length h18
    rw [if_neg (by omega)]
    refine except_bind_eq_ok.mpr ⟨bigEndian length, ?_, ?_⟩
    · refine orMalformed_eq_ok.mpr ((unpack_slice h18).mpr ?_)
      rw [hl.slice]
    dsimp only
    rw [if_neg (by omega)]
    refine except_bind_eq_ok.mpr ⟨(v, used), orMalformed_eq_ok.mpr (decodePrefix_drop.mpr ?_), ?_⟩
    · rw [hk.slice]
      exact ⟨hkey, hk⟩
    · rw [hi.slice, hk.slice]
      rfl

/-- **The part that `AT` announces** is read where it stands. -/
theorem readAttested_eq_ok : readAttested raw flags expectCredential i = .ok (id, key, j) ↔
    ∃ piece, Attested flags expectCredential piece id key ∧ Stands raw i piece j := by
  unfold readAttested
  by_cases hflag : flags &&& flagAT ≠ 0
  · rw [if_pos hflag]
    constructor
    · intro hrun
      obtain ⟨⟨cid, key, k⟩, hread, hdone⟩ := except_bind_eq_ok.mp hrun
      obtain ⟨rfl, hrest⟩ := Prod.mk.inj (Except.ok.inj hdone)
      obtain ⟨rfl, rfl⟩ := Prod.mk.inj hrest
      obtain ⟨aaguid, length, v, haaguid, hlength, hid, hkey, hstands⟩ :=
        readCredential_eq_ok.mp hread
      exact ⟨_, .present hflag haaguid hlength hid hkey, hstands⟩
    · rintro ⟨piece, hattested, hstands⟩
      cases hattested with
      | present _ haaguid hlength hid hkey =>
        refine except_bind_eq_ok.mpr ⟨(_, _, j), readCredential_eq_ok.mpr ?_, rfl⟩
        exact ⟨_, _, _, haaguid, hlength, hid, hkey, hstands⟩
      | absent hnone _ => exact absurd hnone hflag
  · rw [if_neg hflag]
    have hnone := not_not.mp hflag
    cases expectCredential with
    | true =>
      refine iff_of_false nofun ?_
      rintro ⟨piece, hattested, -⟩
      cases hattested with
      | present hsome _ _ _ _ => exact hsome hnone
      | absent _ hexpect => exact nomatch hexpect
    | false =>
      constructor
      · rintro ⟨⟩
        exact ⟨[], .absent hnone rfl, stands_nil.mpr rfl⟩
      · rintro ⟨piece, hattested, hstands⟩
        cases hattested with
        | present hsome _ _ _ _ => exact absurd hnone hsome
        | absent _ _ =>
          rw [stands_nil.mp hstands]
          rfl

/-- **The part that `ED` announces** is read where it stands. -/
theorem readExtensions_eq_ok : readExtensions raw flags i = .ok j ↔
    ∃ piece, Extensions flags piece ∧ Stands raw i piece j := by
  unfold readExtensions
  by_cases hflag : flags &&& flagED ≠ 0
  · rw [if_pos hflag]
    constructor
    · intro hrun
      obtain ⟨⟨v, used⟩, hdecode, hdone⟩ := except_bind_eq_ok.mp hrun
      obtain rfl := Except.ok.inj hdone
      obtain ⟨hpiece, hstands⟩ := decodePrefix_drop.mp (orMalformed_eq_ok.mp hdecode)
      exact ⟨_, .present hflag hpiece, hstands⟩
    · rintro ⟨piece, hextensions, hstands⟩
      obtain ⟨used, rfl⟩ := Nat.exists_eq_add_of_le hstands.le
      cases hextensions with
      | @present _ v _ hpiece =>
        refine except_bind_eq_ok.mpr ⟨(v, used), orMalformed_eq_ok.mpr ?_, rfl⟩
        refine decodePrefix_drop.mpr ?_
        rw [hstands.slice]
        exact ⟨hpiece, hstands⟩
      | absent hnone => exact absurd hnone hflag
  · rw [if_neg hflag]
    constructor
    · rintro ⟨⟩
      exact ⟨[], .absent (not_not.mp hflag), stands_nil.mpr rfl⟩
    · rintro ⟨piece, hextensions, hstands⟩
      cases hextensions with
      | present hsome _ => exact absurd hsome hflag
      | absent _ => rw [stands_nil.mp hstands]

/-- **What is parsed is laid out so**, and what is laid out so is parsed. -/
theorem parseAuthenticatorData_eq_ok :
    parseAuthenticatorData raw expectCredential = .ok a ↔ Layout raw expectCredential a := by
  unfold parseAuthenticatorData
  constructor
  · intro hrun
    split_ifs at hrun with hshort
    · exact nomatch hrun
    obtain ⟨flags, hflags, hrun⟩ := except_bind_eq_ok.mp hrun
    obtain ⟨count, hcount, hrun⟩ := except_bind_eq_ok.mp hrun
    obtain ⟨⟨id, key, j⟩, hattested, hrun⟩ := except_bind_eq_ok.mp hrun
    obtain ⟨k, hextensions, hrun⟩ := except_bind_eq_ok.mp hrun
    dsimp only at hrun
    split_ifs at hrun with hall
    · exact nomatch hrun
    obtain rfl := Except.ok.inj hrun
    rw [not_not.mp hall] at hextensions
    have h37 : 37 ≤ raw.length := Nat.not_lt.mp hshort
    obtain ⟨credential, hcredential, hstands⟩ := readAttested_eq_ok.mp hattested
    obtain ⟨extensions, hpiece, hstands'⟩ := readExtensions_eq_ok.mp hextensions
    have hhash : Stands raw 0 (raw.take 32) 32 :=
      stands_slice (i := 0) (n := 32) (by omega)
    have hlength : (raw.take 32).length = 32 := length_slice (i := 0) (n := 32) (by omega)
    have hcounter : Stands raw 33 ((raw.drop 33).take 4) 37 := stands_slice (by omega)
    refine ⟨(raw.drop 33).take 4, credential, extensions, hlength, length_slice (by omega), ?_,
      hcredential, hpiece, stands_all.mp ?_⟩
    · exact ((unpack_slice (by omega)).mp (orMalformed_eq_ok.mp hcount)).symm
    · exact stands_append.mpr ⟨32, hhash, stands_append.mpr ⟨33,
        stands_singleton.mpr ⟨byteAt_eq_ok.mp (orMalformed_eq_ok.mp hflags), rfl⟩,
        stands_append.mpr ⟨37, hcounter, stands_append.mpr ⟨j, hstands, hstands'⟩⟩⟩⟩
  · rintro ⟨counter, credential, extensions, hhash, hcounter, hcount, hcredential, hpiece, hraw⟩
    obtain ⟨i, h32, hraw⟩ := stands_append.mp (stands_all.mpr hraw)
    obtain ⟨i', h33, hraw⟩ := stands_append.mp hraw
    obtain ⟨i'', h37, hraw⟩ := stands_append.mp hraw
    obtain ⟨j, hj, hend⟩ := stands_append.mp hraw
    obtain rfl : i = 0 + 32 := by rw [h32.2, hhash]
    obtain ⟨hflags, rfl⟩ := stands_singleton.mp h33
    obtain rfl : i'' = 0 + 32 + 1 + 4 := by rw [h37.2, hcounter]
    have hlength : 37 ≤ raw.length := h37.bound (by omega)
    rw [if_neg (by omega)]
    refine except_bind_eq_ok.mpr ⟨a.flags, orMalformed_eq_ok.mpr (byteAt_eq_ok.mpr hflags), ?_⟩
    refine except_bind_eq_ok.mpr ⟨a.signCount, orMalformed_eq_ok.mpr ?_, ?_⟩
    · rw [unpack_slice (by omega), hcount]
      exact congrArg bigEndian h37.slice
    refine except_bind_eq_ok.mpr ⟨(a.credentialId, a.publicKey, j),
      readAttested_eq_ok.mpr ⟨credential, hcredential, hj⟩, ?_⟩
    refine except_bind_eq_ok.mpr ⟨raw.length,
      readExtensions_eq_ok.mpr ⟨extensions, hpiece, hend⟩, ?_⟩
    have hslice : raw.take 32 = a.rpIdHash := h32.slice
    rw [if_neg (not_not.mpr rfl), hslice]
    rfl

/-! ## Errors -/

/-- `isinstance(exc, WebAuthnRejected)`, with the reason of what is malformed. -/
def WebAuthnRaised.IsMalformed (e : WebAuthnRaised) : Prop := ∃ detail, e = .rejected malformed detail

theorem onlyRaises_malformed {α : Type} (detail : String) : OnlyRaises WebAuthnRaised.IsMalformed
    (rejectWebAuthn malformed detail : Except WebAuthnRaised α) := .error ⟨detail, rfl⟩

theorem onlyRaises_orMalformed {α : Type} {x : Except Cbor.Raised α}
    (h : OnlyRaises Cbor.Raised.IsCborError x) :
    OnlyRaises WebAuthnRaised.IsMalformed (orMalformed x) := by
  cases x with
  | ok b => exact .ok b
  | error e =>
    obtain ⟨text, rfl⟩ := h e rfl
    exact .error ⟨text, rfl⟩

theorem onlyRaises_unpack (h : i + n ≤ raw.length) :
    OnlyRaises WebAuthnRaised.IsMalformed (orMalformed (unpack n ((raw.drop i).take n))) := by
  rw [unpack, if_pos (length_slice h)]
  exact onlyRaises_orMalformed (.ok _)

theorem onlyRaises_decodePrefix (data : List UInt8) :
    OnlyRaises WebAuthnRaised.IsMalformed (orMalformed (decodePrefix data)) :=
  onlyRaises_orMalformed (Cbor.onlyRaises_item _ _ _)

theorem onlyRaises_readCredential (raw : List UInt8) (i : Nat) :
    OnlyRaises WebAuthnRaised.IsMalformed (readCredential raw i) := by
  unfold readCredential
  split_ifs with hshort
  · exact onlyRaises_malformed _
  refine .bind (onlyRaises_unpack (by omega)) fun idLength _ => ?_
  dsimp only
  split_ifs
  · exact onlyRaises_malformed _
  · exact .bind (onlyRaises_decodePrefix _) fun _ _ => .ok _

theorem onlyRaises_readAttested (raw : List UInt8) (flags : UInt8) (expectCredential : Bool)
    (i : Nat) : OnlyRaises WebAuthnRaised.IsMalformed
      (readAttested raw flags expectCredential i) := by
  unfold readAttested
  split_ifs
  · exact .bind (onlyRaises_readCredential _ _) fun _ _ => .ok _
  · exact onlyRaises_malformed _
  · exact .ok _

theorem onlyRaises_readExtensions (raw : List UInt8) (flags : UInt8) (i : Nat) :
    OnlyRaises WebAuthnRaised.IsMalformed (readExtensions raw flags i) := by
  unfold readExtensions
  split_ifs
  · exact .bind (onlyRaises_decodePrefix _) fun _ _ => .ok _
  · exact .ok _

theorem onlyRaises_parseAuthenticatorData (raw : List UInt8) (expectCredential : Bool) :
    OnlyRaises WebAuthnRaised.IsMalformed (parseAuthenticatorData raw expectCredential) := by
  unfold parseAuthenticatorData
  split_ifs with hshort
  · exact onlyRaises_malformed _
  have hbyte : byteAt raw 32 = .ok (raw.get ⟨32, by omega⟩) :=
    byteAt_eq_ok.mpr (List.getElem?_eq_getElem (by omega))
  rw [hbyte]
  refine .bind (onlyRaises_orMalformed (.ok _)) fun flags _ => ?_
  refine .bind (onlyRaises_unpack (by omega)) fun count _ => ?_
  refine .bind (onlyRaises_readAttested _ _ _ _) fun parts _ => ?_
  refine .bind (onlyRaises_readExtensions _ _ _) fun offset _ => ?_
  dsimp only
  split_ifs
  · exact onlyRaises_malformed _
  · exact .ok _

/-- **Authenticator data parse to exactly their layout.**  What parses is laid out as `Layout`
says, and the other way round; the public key decodes on its own to the value that was read in its
place; and everything else is refused as malformed. -/
theorem parseAuthenticatorData_exact (raw : List UInt8) (expectCredential : Bool) :
    (∀ a, parseAuthenticatorData raw expectCredential = .ok a ↔ Layout raw expectCredential a) ∧
    (∀ a id key, parseAuthenticatorData raw expectCredential = .ok a →
      a.credentialId = some id → a.publicKey = some key →
      ∃ v, decodePrefix (raw.drop (37 + 18 + id.length)) = .ok (v, key.length) ∧
        decode key = .ok v) ∧
    ((∃ a, parseAuthenticatorData raw expectCredential = .ok a) ∨
      ∃ detail, parseAuthenticatorData raw expectCredential =
        .error (.rejected malformed detail)) := by
  refine ⟨fun a => parseAuthenticatorData_eq_ok, fun a id key hrun hid hkey => ?_, ?_⟩
  · obtain ⟨counter, credential, extensions, hhash, hcounter, -, hcredential, -, hraw⟩ :=
      parseAuthenticatorData_eq_ok.mp hrun
    rw [hid, hkey] at hcredential
    cases hcredential with
    | @present aaguid length _ _ v _ haaguid hlength _ hdecode =>
      refine ⟨v, ?_, hdecode⟩
      obtain ⟨hfits, rfl⟩ := Cbor.decode_eq_ok.mp hdecode
      have hsplit : raw = (a.rpIdHash ++ [a.flags] ++ counter ++ aaguid ++ length ++ id) ++
          (encode v ++ extensions) := by
        rw [hraw]
        simp only [List.append_assoc]
      have hfront : (a.rpIdHash ++ [a.flags] ++ counter ++ aaguid ++ length ++ id).length =
          37 + 18 + id.length := by
        simp only [List.length_append, List.length_singleton]
        omega
      refine Cbor.decodePrefix_eq_ok.mpr ⟨hfits, ?_, rfl⟩
      rw [hsplit, List.drop_left' hfront]
      exact List.prefix_append ..
  · rcases (onlyRaises_parseAuthenticatorData raw expectCredential).cases with
      hok | ⟨_, he, detail, rfl⟩
    · exact .inl hok
    · exact .inr ⟨detail, he⟩

end Mfa
end CampusID
