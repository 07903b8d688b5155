import CampusID.Cache
import CampusID.Text

/-!
# Authorization codes and refresh token families

`GrantStore`, as programs over the Redis commands.  Each method is the sequence
of commands the source awaits, with its checks between them and the exception it
raises at each refusal; a method returns `Except GrantError` where the source
returns or raises.

Two things the source draws from outside are arguments here.  A fresh token is
passed in by the caller, so that a statement can say what it assumes of the
generator.  The hash is a field of the store: every lookup is by digest, and
nothing below depends on which function computes it.
-/

namespace CampusID

open Lib

/-- The `ReasonCode`s the grant store records. -/
inductive ReasonCode where
  | grantInvalid
  | grantRevoked
  | grantReuseDetected
  deriving DecidableEq, Repr

/-- `OAuthError`: what the client is told, what the audit trail records, and the
detail. -/
structure OAuthError where
  error : String
  reason : ReasonCode
  detail : String
  deriving DecidableEq, Repr

/-- What a method of the store can raise.  `GrantReuse` is a subclass of
`OAuthError`; a credential that is not ASCII fails before any of the store's own
checks. -/
inductive GrantError where
  | oauth (e : OAuthError)
  | reuse (e : OAuthError)
  | unicodeEncode
  deriving DecidableEq, Repr

/-- `INVALID_GRANT`. -/
def invalidGrant : String := "invalid_grant"

/-- A refusal with the public error `invalid_grant`. -/
def refuse (reason : ReasonCode) (detail : String) : OAuthError := ⟨invalidGrant, reason, detail⟩

/-- No record under the code's digest. -/
def unknownCode : GrantError := .oauth (refuse .grantInvalid "unknown or expired code")

/-- The code was spent before. -/
def codeReplayed (grant : AuthorizationCode) : GrantError :=
  .reuse (refuse .grantReuseDetected ("code replayed for " ++ Text.pyRepr grant.clientId ++
    "; family " ++ grant.familyId ++ " revoked"))

/-- The code was presented by a client it was not issued to. -/
def codeOfAnotherClient : GrantError :=
  .oauth (refuse .grantInvalid "code was issued to another client")

/-- The redirect URI is not the one the code was issued for. -/
def redirectMismatch : GrantError :=
  .oauth (refuse .grantInvalid "redirect_uri does not match the code")

/-- No record under the token's digest. -/
def unknownToken : GrantError := .oauth (refuse .grantInvalid "unknown or expired token")

/-- The family's marker is set. -/
def familyIsRevoked : GrantError :=
  .oauth (refuse .grantRevoked "the token family is revoked")

/-- The refresh token was spent before. -/
def tokenReplayed (record : RefreshToken) : GrantError :=
  .reuse (refuse .grantReuseDetected ("refresh token replayed at generation " ++
    toString record.generation ++ "; family " ++ record.familyId ++ " revoked"))

/-- The refresh token was presented by a client it was not issued to. -/
def tokenOfAnotherClient : GrantError :=
  .oauth (refuse .grantInvalid "token was issued to another client")

/-- `CODE_TTL`. -/
def codeTtlDefault : Int := 60 * second

/-- `REFRESH_TTL`: fourteen days. -/
def refreshTtlDefault : Int := 14 * 86400 * second

/-- `GrantStore`: its two lifetimes, and the hash behind `_digest`. -/
structure GrantStore where
  codeTtl : Int := codeTtlDefault
  refreshTtl : Int := refreshTtlDefault
  sha256 : String → String

namespace GrantStore

variable (st : GrantStore)

/-- `_digest`: what is stored in place of the credential. -/
def digest (token : String) : Except GrantError String :=
  if Text.isAscii token then .ok (st.sha256 token) else .error .unicodeEncode

/-- The lifetime of a code and of its spent marker. -/
def codeLife : Int := lifetime st.codeTtl

/-- The lifetime of a refresh token, of its spent marker, of a family's
revocation and of a session's index of families. -/
def refreshLife : Int := lifetime st.refreshTtl

/-! ## Families -/

/-- `revoke_family`. -/
def revokeFamily (familyId : String) : RedisProg Unit :=
  redis (.set (.familyRevoked familyId) () st.refreshLife)

/-- `revoke_session_families`. -/
def revokeSessionFamilies (sid : String) : RedisProg (List String) := do
  let families ← setMembers (.sessionFamilies sid)
  Prog.forEach st.revokeFamily families
  redis (.delSet (.sessionFamilies sid))
  return families

/-- `is_family_revoked`. -/
def isFamilyRevoked (familyId : String) : RedisProg Bool :=
  redis (.exist (.familyRevoked familyId))

/-! ## Authorization codes -/

/-- `issue_code`, with the fresh code it draws. -/
def issueCode (grant : AuthorizationCode) (code : String) :
    RedisProg (Except GrantError String) :=
  match st.digest code with
  | .error e => return .error e
  | .ok digest => do
    redis (.set (.code digest) grant st.codeLife)
    setAdd (.sessionFamilies grant.sid) grant.familyId
    expireKey (.sessionFamilies grant.sid) (seconds st.refreshTtl)
    return .ok code

/-- `redeem_code` once the record has been read: spend it, and check whom it was
issued to. -/
def spendCode (digest : String) (grant : AuthorizationCode) (clientId redirectUri : String) :
    RedisProg (Except GrantError AuthorizationCode) := do
  let firstUse : Bool ← redis (.setNx (.codeSpent digest) () st.codeLife)
  if !firstUse then
    st.revokeFamily grant.familyId
    return .error (codeReplayed grant)
  else if grant.clientId ≠ clientId then
    st.revokeFamily grant.familyId
    return .error codeOfAnotherClient
  else if grant.redirectUri ≠ redirectUri then
    return .error redirectMismatch
  else
    return .ok grant

/-- `redeem_code`. -/
def redeemCode (code clientId redirectUri : String) :
    RedisProg (Except GrantError AuthorizationCode) :=
  match st.digest code with
  | .error e => return .error e
  | .ok digest => do
    let raw : Option AuthorizationCode ← redis (.get (.code digest))
    match raw with
    | none => return .error unknownCode
    | some grant => st.spendCode digest grant clientId redirectUri

/-! ## Refresh tokens -/

/-- `issue_refresh_token`, with the fresh token it draws. -/
def issueRefreshToken (record : RefreshToken) (token : String) :
    RedisProg (Except GrantError String) :=
  match st.digest token with
  | .error e => return .error e
  | .ok digest => do
    redis (.set (.refresh digest) record st.refreshLife)
    return .ok token

/-- The record `rotate_refresh_token` issues in a token's place. -/
def successor (record : RefreshToken) (now : Int) : RefreshToken :=
  { record with generation := record.generation + 1, issuedAt := now }

/-- `rotate_refresh_token` once the family is known not to be revoked: spend the
token, check whom it was issued to, issue its successor. -/
def spendRefresh (digest : String) (record : RefreshToken) (clientId : String) (now : Int)
    (fresh : String) : RedisProg (Except GrantError (String × RefreshToken)) := do
  let firstUse : Bool ← redis (.setNx (.refreshSpent digest) () st.refreshLife)
  if !firstUse then
    st.revokeFamily record.familyId
    return .error (tokenReplayed record)
  else if record.clientId ≠ clientId then
    st.revokeFamily record.familyId
    return .error tokenOfAnotherClient
  else do
    let issued ← st.issueRefreshToken (successor record now) fresh
    return issued.map fun token => (token, successor record now)

/-- `rotate_refresh_token`, with the fresh token it draws. -/
def rotateRefreshToken (token clientId : String) (now : Int) (fresh : String) :
    RedisProg (Except GrantError (String × RefreshToken)) :=
  match st.digest token with
  | .error e => return .error e
  | .ok digest => do
    let raw : Option RefreshToken ← redis (.get (.refresh digest))
    match raw with
    | none => return .error unknownToken
    | some record => do
      let revoked : Bool ← isFamilyRevoked record.familyId
      if revoked then
        return .error familyIsRevoked
      else
        st.spendRefresh digest record clientId now fresh

/-- The generation-zero record `_exchange_code` issues for a redeemed code.  The
client is the authenticated one, which redemption has compared with the
grant's. -/
def firstRefresh (grant : AuthorizationCode) (now : Int) : RefreshToken where
  clientId := grant.clientId
  scopes := grant.scopes
  subject := grant.subject
  sid := grant.sid
  familyId := grant.familyId
  generation := 0
  issuedAt := now

/-! ## The methods as calls

A caller sees one interface; a run of the store is a sequence, or an interleaving,
of calls on it. -/

end GrantStore

/-- A call on the store, with what it draws from outside. -/
inductive GrantCall where
  | issueCode (grant : AuthorizationCode) (code : String)
  | redeemCode (code clientId redirectUri : String)
  | issueRefreshToken (record : RefreshToken) (token : String)
  | rotateRefreshToken (token clientId : String) (now : Int) (fresh : String)
  | revokeFamily (familyId : String)
  | revokeSessionFamilies (sid : String)
  deriving DecidableEq, Repr

/-- What a call returns or raises. -/
inductive GrantOutcome where
  | issued (result : Except GrantError String)
  | redeemed (result : Except GrantError AuthorizationCode)
  | rotated (result : Except GrantError (String × RefreshToken))
  | revoked (families : List String)

namespace GrantStore

variable (st : GrantStore)

/-- The program behind a call. -/
def program : GrantCall → RedisProg GrantOutcome
  | .issueCode grant code => do return .issued (← st.issueCode grant code)
  | .redeemCode code clientId redirectUri => do
    return .redeemed (← st.redeemCode code clientId redirectUri)
  | .issueRefreshToken record token => do return .issued (← st.issueRefreshToken record token)
  | .rotateRefreshToken token clientId now fresh => do
    return .rotated (← st.rotateRefreshToken token clientId now fresh)
  | .revokeFamily familyId => do
    st.revokeFamily familyId
    return .revoked [familyId]
  | .revokeSessionFamilies sid => do return .revoked (← st.revokeSessionFamilies sid)

/-! ## What each call does

One inversion lemma a method: every way it can end, with the value it returns, the
store it leaves and the families it revoked on the way.  Nothing after this
section unfolds a method. -/

/-- The command behind `revoke_family`. -/
def revokeCmd (familyId : String) : RedisCmd := .set (.familyRevoked familyId) () st.refreshLife

/-- Running `p` at `now` from `r` returns `out`, leaves `r'` and revokes exactly the
families listed. -/
structure Ends {α : Type} (now : Int) (p : RedisProg α) (r : Redis) (out : α) (r' : Redis)
    (revoked : List String) : Prop where
  run : Redis.run now p r = (out, r')
  revokes : ∀ F, Redis.Issues now p r (st.revokeCmd F) ↔ F ∈ revoked

/-- The store with a family marked revoked at `now`. -/
def marked (now : Int) (r : Redis) (familyId : String) : Redis :=
  r.write (.familyRevoked familyId) () (some (now + st.refreshLife))

/-- The store with a code marked spent at `now`. -/
def codeSpentAt (now : Int) (r : Redis) (digest : String) : Redis :=
  r.write (.codeSpent digest) () (some (now + st.codeLife))

/-- The store with a refresh token marked spent at `now`. -/
def refreshSpentAt (now : Int) (r : Redis) (digest : String) : Redis :=
  r.write (.refreshSpent digest) () (some (now + st.refreshLife))

theorem spendCode_cases (now : Int) (r : Redis) (d : String) (g : AuthorizationCode)
    (clientId redirectUri : String) :
    (r.strings.live now (.codeSpent d) = some () ∧
      st.Ends now (st.spendCode d g clientId redirectUri) r (.error (codeReplayed g))
        (st.marked now r g.familyId) [g.familyId]) ∨
    (r.strings.live now (.codeSpent d) = none ∧
      ((g.clientId ≠ clientId ∧
          st.Ends now (st.spendCode d g clientId redirectUri) r (.error codeOfAnotherClient)
            (st.marked now (st.codeSpentAt now r d) g.familyId) [g.familyId]) ∨
        (g.clientId = clientId ∧ g.redirectUri ≠ redirectUri ∧
          st.Ends now (st.spendCode d g clientId redirectUri) r (.error redirectMismatch)
            (st.codeSpentAt now r d) []) ∨
        (g.clientId = clientId ∧ g.redirectUri = redirectUri ∧
          st.Ends now (st.spendCode d g clientId redirectUri) r (.ok g)
            (st.codeSpentAt now r d) []))) := by
  cases h : r.strings.live now (.codeSpent d) with
  | some u =>
    have hx := Store.exec_setNx_of_some h () st.codeLife
    refine Or.inl ⟨rfl, ?_, fun F => ?_⟩
    · simp [Redis.run, spendCode, hx, revokeFamily, marked]
    · simp [Redis.Issues, spendCode, hx, revokeFamily, revokeCmd]
  | none =>
    have hx := Store.exec_setNx_of_none h () st.codeLife
    refine Or.inr ⟨rfl, ?_⟩
    by_cases hc : g.clientId = clientId
    · by_cases hu : g.redirectUri = redirectUri
      · refine Or.inr (Or.inr ⟨hc, hu, ?_, fun F => ?_⟩)
        · simp [Redis.run, spendCode, hx, hc, hu, codeSpentAt]
        · simp [Redis.Issues, spendCode, hx, hc, hu, revokeCmd]
      · refine Or.inr (Or.inl ⟨hc, hu, ?_, fun F => ?_⟩)
        · simp [Redis.run, spendCode, hx, hc, hu, codeSpentAt]
        · simp [Redis.Issues, spendCode, hx, hc, hu, revokeCmd]
    · refine Or.inl ⟨hc, ?_, fun F => ?_⟩
      · simp [Redis.run, spendCode, hx, hc, revokeFamily, marked, codeSpentAt]
      · simp [Redis.Issues, spendCode, hx, hc, revokeFamily, revokeCmd]

/-- **How a redemption ends**: nothing readable under the digest, or the record
read and spent. -/
theorem redeemCode_cases (now : Int) (r : Redis) (code clientId redirectUri : String) :
    (∃ e, st.Ends now (st.redeemCode code clientId redirectUri) r (.error e) r []) ∨
    ∃ d g, st.digest code = .ok d ∧ r.strings.live now (.code d) = some g ∧
      ∀ out r' fs, st.Ends now (st.spendCode d g clientId redirectUri) r out r' fs →
        st.Ends now (st.redeemCode code clientId redirectUri) r out r' fs := by
  cases hd : st.digest code with
  | error e =>
    refine Or.inl ⟨e, ?_, fun F => ?_⟩
    · simp [Redis.run, redeemCode, hd]
    · simp [Redis.Issues, redeemCode, hd]
  | ok d =>
    cases hg : r.strings.live now (.code d) with
    | none =>
      refine Or.inl ⟨unknownCode, ?_, fun F => ?_⟩
      · simp [Redis.run, redeemCode, hd, hg]
      · simp [Redis.Issues, redeemCode, hd, hg, revokeCmd]
    | some g =>
      refine Or.inr ⟨d, g, rfl, hg, fun out r' fs h => ⟨?_, fun F => ?_⟩⟩
      · rw [← h.run]
        simp [Redis.run, redeemCode, hd, hg]
      · rw [← h.revokes F]
        simp [Redis.Issues, redeemCode, hd, hg, revokeCmd]

theorem spendRefresh_cases (now : Int) (r : Redis) (d : String) (x : RefreshToken)
    (clientId : String) (at' : Int) (fresh : String) :
    (r.strings.live now (.refreshSpent d) = some () ∧
      st.Ends now (st.spendRefresh d x clientId at' fresh) r (.error (tokenReplayed x))
        (st.marked now r x.familyId) [x.familyId]) ∨
    (r.strings.live now (.refreshSpent d) = none ∧
      ((x.clientId ≠ clientId ∧
          st.Ends now (st.spendRefresh d x clientId at' fresh) r (.error tokenOfAnotherClient)
            (st.marked now (st.refreshSpentAt now r d) x.familyId) [x.familyId]) ∨
        (x.clientId = clientId ∧ ∃ e, st.digest fresh = .error e ∧
          st.Ends now (st.spendRefresh d x clientId at' fresh) r (.error e)
            (st.refreshSpentAt now r d) []) ∨
        (x.clientId = clientId ∧ ∃ d', st.digest fresh = .ok d' ∧
          st.Ends now (st.spendRefresh d x clientId at' fresh) r
            (.ok (fresh, successor x at'))
            ((st.refreshSpentAt now r d).write (.refresh d') (successor x at')
              (some (now + st.refreshLife))) []))) := by
  cases h : r.strings.live now (.refreshSpent d) with
  | some u =>
    have hx := Store.exec_setNx_of_some h () st.refreshLife
    refine Or.inl ⟨rfl, ?_, fun F => ?_⟩
    · simp [Redis.run, spendRefresh, hx, revokeFamily, marked]
    · simp [Redis.Issues, spendRefresh, hx, revokeFamily, revokeCmd]
  | none =>
    have hx := Store.exec_setNx_of_none h () st.refreshLife
    refine Or.inr ⟨rfl, ?_⟩
    by_cases hc : x.clientId = clientId
    · cases hf : st.digest fresh with
      | error e =>
        refine Or.inr (Or.inl ⟨hc, e, rfl, ?_, fun F => ?_⟩)
        · simp [Redis.run, spendRefresh, hx, hc, hf, issueRefreshToken, refreshSpentAt,
            Except.map]
        · simp [Redis.Issues, spendRefresh, hx, hc, hf, issueRefreshToken, revokeCmd]
      | ok d' =>
        refine Or.inr (Or.inr ⟨hc, d', rfl, ?_, fun F => ?_⟩)
        · simp [Redis.run, spendRefresh, hx, hc, hf, issueRefreshToken, refreshSpentAt,
            Except.map]
        · simp [Redis.Issues, spendRefresh, hx, hc, hf, issueRefreshToken, revokeCmd]
    · refine Or.inl ⟨hc, ?_, fun F => ?_⟩
      · simp [Redis.run, spendRefresh, hx, hc, revokeFamily, marked, refreshSpentAt]
      · simp [Redis.Issues, spendRefresh, hx, hc, revokeFamily, revokeCmd]

/-- **How a rotation ends**: nothing readable under the digest, a revoked family, or
the record read and spent. -/
theorem rotateRefreshToken_cases (now : Int) (r : Redis) (token clientId : String)
    (at' : Int) (fresh : String) :
    (∃ e, st.Ends now (st.rotateRefreshToken token clientId at' fresh) r (.error e) r []) ∨
    ∃ d x, st.digest token = .ok d ∧ r.strings.live now (.refresh d) = some x ∧
      r.strings.live now (.familyRevoked x.familyId) = none ∧
      ∀ out r' fs, st.Ends now (st.spendRefresh d x clientId at' fresh) r out r' fs →
        st.Ends now (st.rotateRefreshToken token clientId at' fresh) r out r' fs := by
  cases hd : st.digest token with
  | error e =>
    refine Or.inl ⟨e, ?_, fun F => ?_⟩
    · simp [Redis.run, rotateRefreshToken, hd]
    · simp [Redis.Issues, rotateRefreshToken, hd]
  | ok d =>
    cases hg : r.strings.live now (.refresh d) with
    | none =>
      refine Or.inl ⟨unknownToken, ?_, fun F => ?_⟩
      · simp [Redis.run, rotateRefreshToken, hd, hg]
      · simp [Redis.Issues, rotateRefreshToken, hd, hg, revokeCmd]
    | some x =>
      cases hm : r.strings.live now (.familyRevoked x.familyId) with
      | some u =>
        refine Or.inl ⟨familyIsRevoked, ?_, fun F => ?_⟩
        · simp [Redis.run, rotateRefreshToken, hd, hg, isFamilyRevoked, hm]
        · simp [Redis.Issues, rotateRefreshToken, hd, hg, isFamilyRevoked, hm, revokeCmd]
      | none =>
        refine Or.inr ⟨d, x, rfl, hg, hm, fun out r' fs h => ⟨?_, fun F => ?_⟩⟩
        · rw [← h.run]
          simp [Redis.run, rotateRefreshToken, hd, hg, isFamilyRevoked, hm]
        · rw [← h.revokes F]
          simp [Redis.Issues, rotateRefreshToken, hd, hg, isFamilyRevoked, hm, revokeCmd]

/-- The store after `issue_code`: the record, and the family in the session's
index. -/
def codeIssuedAt (now : Int) (r : Redis) (g : AuthorizationCode) (d : String) : Redis :=
  ((r.write (.code d) g (some (now + st.codeLife))).sadd now (.sessionFamilies g.sid)
    g.familyId).expire now (.sessionFamilies g.sid) st.refreshLife

theorem issueCode_cases (now : Int) (r : Redis) (g : AuthorizationCode) (code : String) :
    (∃ e, st.digest code = .error e ∧
      st.Ends now (st.issueCode g code) r (.error e) r []) ∨
    ∃ d, st.digest code = .ok d ∧
      st.Ends now (st.issueCode g code) r (.ok code) (st.codeIssuedAt now r g d) [] := by
  cases hd : st.digest code with
  | error e =>
    refine Or.inl ⟨e, rfl, ?_, fun F => ?_⟩
    · simp [Redis.run, issueCode, hd]
    · simp [Redis.Issues, issueCode, hd]
  | ok d =>
    refine Or.inr ⟨d, rfl, ?_, fun F => ?_⟩
    · simp [Redis.run, issueCode, hd, setAdd, expireKey, codeIssuedAt, refreshLife, lifetime]
    · simp [Redis.Issues, issueCode, hd, setAdd, expireKey, revokeCmd]

theorem issueRefreshToken_cases (now : Int) (r : Redis) (x : RefreshToken) (token : String) :
    (∃ e, st.digest token = .error e ∧
      st.Ends now (st.issueRefreshToken x token) r (.error e) r []) ∨
    ∃ d, st.digest token = .ok d ∧
      st.Ends now (st.issueRefreshToken x token) r (.ok token)
        (r.write (.refresh d) x (some (now + st.refreshLife))) [] := by
  cases hd : st.digest token with
  | error e =>
    refine Or.inl ⟨e, rfl, ?_, fun F => ?_⟩
    · simp [Redis.run, issueRefreshToken, hd]
    · simp [Redis.Issues, issueRefreshToken, hd]
  | ok d =>
    refine Or.inr ⟨d, rfl, ?_, fun F => ?_⟩
    · simp [Redis.run, issueRefreshToken, hd]
    · simp [Redis.Issues, issueRefreshToken, hd, revokeCmd]

/-- The store with a list of families marked revoked at `now`. -/
def markedAll (now : Int) (r : Redis) (families : List String) : Redis :=
  families.foldl (st.marked now) r

theorem forEach_revokeFamily_ends (now : Int) (r : Redis) (families : List String) :
    st.Ends now (Prog.forEach st.revokeFamily families) r () (st.markedAll now r families)
      families := by
  induction families generalizing r with
  | nil =>
    refine ⟨rfl, fun F => ?_⟩
    simp [Redis.Issues, Prog.forEach]
  | cons F fs ih =>
    obtain ⟨hrun, hrev⟩ := ih (st.marked now r F)
    refine ⟨?_, fun G => ?_⟩
    · simpa [Redis.run, Prog.forEach, revokeFamily, marked, markedAll] using hrun
    · have h := hrev G
      simp only [Redis.Issues, Prog.forEach, revokeFamily, revokeCmd, Prog.issues_bind,
        Prog.issues_send, Prog.run_send, Store.exec_set, marked] at h ⊢
      rw [h, List.mem_cons]
      simp

/-- `revoke_session_families` revokes what the session's index lists, and drops the
index. -/
theorem revokeSessionFamilies_ends (now : Int) (r : Redis) (sid : String) :
    ∃ families, (∀ F, F ∈ families ↔ F ∈ r.members now (.sessionFamilies sid)) ∧
      st.Ends now (st.revokeSessionFamilies sid) r families
        { st.markedAll now r families with
          sets := (st.markedAll now r families).sets.erase (.sessionFamilies sid) }
        families := by
  refine ⟨(r.members now (.sessionFamilies sid)).insertionSort (· ≤ ·), fun F => ?_, ?_⟩
  · exact (List.perm_insertionSort _ _).mem_iff
  · obtain ⟨hrun, hrev⟩ := st.forEach_revokeFamily_ends now r
      ((r.members now (.sessionFamilies sid)).insertionSort (· ≤ ·))
    refine ⟨?_, fun F => ?_⟩
    · simp only [Redis.run] at hrun
      simp [Redis.run, revokeSessionFamilies, setMembers, hrun]
    · rw [← hrev F]
      simp [Redis.Issues, revokeSessionFamilies, setMembers, revokeCmd]

/-! ### The marked stores, key by key -/

@[simp] theorem marked_strings (now : Int) (r : Redis) (F : String) :
    (st.marked now r F).strings =
      r.strings.put (.familyRevoked F) () (some (now + st.refreshLife)) := rfl

@[simp] theorem marked_sets (now : Int) (r : Redis) (F : String) :
    (st.marked now r F).sets = r.sets := rfl

@[simp] theorem codeIssuedAt_strings (now : Int) (r : Redis) (g : AuthorizationCode)
    (d : String) :
    (st.codeIssuedAt now r g d).strings = r.strings.put (.code d) g (some (now + st.codeLife)) := by
  simp [codeIssuedAt]

@[simp] theorem markedAll_sets (now : Int) (r : Redis) (families : List String) :
    (st.markedAll now r families).sets = r.sets := by
  induction families generalizing r with
  | nil => rfl
  | cons F fs ih => exact ih _

theorem markedAll_strings_of_ne (now : Int) (r : Redis) (families : List String) {k : Key}
    (h : ∀ F, k ≠ .familyRevoked F) : (st.markedAll now r families).strings k = r.strings k := by
  induction families generalizing r with
  | nil => rfl
  | cons F fs ih =>
    have := ih (st.marked now r F)
    rw [marked_strings, Table.put_of_ne _ (h F)] at this
    exact this

theorem markedAll_familyRevoked (now : Int) (r : Redis) (families : List String) (F : String) :
    (st.markedAll now r families).strings (.familyRevoked F) =
      if F ∈ families then some ⟨(), some (now + st.refreshLife)⟩
      else r.strings (.familyRevoked F) := by
  induction families generalizing r with
  | nil => simp [markedAll]
  | cons G fs ih =>
    have := ih (st.marked now r G)
    simp only [markedAll, List.foldl_cons] at this ⊢
    rw [this]
    by_cases hF : F = G
    · subst hF
      simp
    · have hne : Key.familyRevoked F ≠ Key.familyRevoked G := by simpa using hF
      simp [hF, Table.put_of_ne _ hne]

/-! ### Every call at once -/

/-- **What a call does**: what it answers, the store it leaves and the families it
revokes.  A constructor is one way through one method. -/
inductive Effect (now : Int) (r : Redis) : GrantCall → GrantOutcome → Redis → List String → Prop
  | unissued (c : GrantCall) (e : GrantError) : Effect now r c (.issued (.error e)) r []
  | unredeemed (c : GrantCall) (e : GrantError) : Effect now r c (.redeemed (.error e)) r []
  | unrotated (c : GrantCall) (e : GrantError) : Effect now r c (.rotated (.error e)) r []
  | issuedCode (g : AuthorizationCode) {code d : String} (hd : st.digest code = .ok d) :
      Effect now r (.issueCode g code) (.issued (.ok code)) (st.codeIssuedAt now r g d) []
  | replayedCode {code d : String} {g : AuthorizationCode} (clientId redirectUri : String)
      (hd : st.digest code = .ok d) (hg : r.strings.live now (.code d) = some g)
      (hs : r.strings.live now (.codeSpent d) = some ()) :
      Effect now r (.redeemCode code clientId redirectUri) (.redeemed (.error (codeReplayed g)))
        (st.marked now r g.familyId) [g.familyId]
  | foreignCode {code d : String} {g : AuthorizationCode} (clientId redirectUri : String)
      (hd : st.digest code = .ok d) (hg : r.strings.live now (.code d) = some g)
      (hs : r.strings.live now (.codeSpent d) = none) :
      Effect now r (.redeemCode code clientId redirectUri) (.redeemed (.error codeOfAnotherClient))
        (st.marked now (st.codeSpentAt now r d) g.familyId) [g.familyId]
  | mismatchedCode {code d : String} {g : AuthorizationCode} (clientId redirectUri : String)
      (hd : st.digest code = .ok d) (hg : r.strings.live now (.code d) = some g)
      (hs : r.strings.live now (.codeSpent d) = none) :
      Effect now r (.redeemCode code clientId redirectUri) (.redeemed (.error redirectMismatch))
        (st.codeSpentAt now r d) []
  | redeemed {code d : String} {g : AuthorizationCode} (clientId redirectUri : String)
      (hd : st.digest code = .ok d) (hg : r.strings.live now (.code d) = some g)
      (hs : r.strings.live now (.codeSpent d) = none) :
      Effect now r (.redeemCode code clientId redirectUri) (.redeemed (.ok g))
        (st.codeSpentAt now r d) []
  | issuedRefresh (x : RefreshToken) {token d : String} (hd : st.digest token = .ok d) :
      Effect now r (.issueRefreshToken x token) (.issued (.ok token))
        (r.write (.refresh d) x (some (now + st.refreshLife))) []
  | replayedRefresh {token d : String} {x : RefreshToken} (clientId : String) (time : Int)
      (fresh : String) (hd : st.digest token = .ok d)
      (hx : r.strings.live now (.refresh d) = some x)
      (hs : r.strings.live now (.refreshSpent d) = some ()) :
      Effect now r (.rotateRefreshToken token clientId time fresh)
        (.rotated (.error (tokenReplayed x))) (st.marked now r x.familyId) [x.familyId]
  | foreignRefresh {token d : String} {x : RefreshToken} (clientId : String) (time : Int)
      (fresh : String) (hd : st.digest token = .ok d)
      (hx : r.strings.live now (.refresh d) = some x) :
      Effect now r (.rotateRefreshToken token clientId time fresh)
        (.rotated (.error tokenOfAnotherClient))
        (st.marked now (st.refreshSpentAt now r d) x.familyId) [x.familyId]
  | undrawn {token d : String} {x : RefreshToken} (clientId : String) (time : Int)
      (fresh : String) (e : GrantError) (hd : st.digest token = .ok d)
      (hf : st.digest fresh = .error e) (hx : r.strings.live now (.refresh d) = some x) :
      Effect now r (.rotateRefreshToken token clientId time fresh) (.rotated (.error e))
        (st.refreshSpentAt now r d) []
  | rotated {token d fresh d' : String} {x : RefreshToken} (clientId : String) (time : Int)
      (hd : st.digest token = .ok d) (hf : st.digest fresh = .ok d')
      (hx : r.strings.live now (.refresh d) = some x)
      (hm : r.strings.live now (.familyRevoked x.familyId) = none)
      (hs : r.strings.live now (.refreshSpent d) = none) :
      Effect now r (.rotateRefreshToken token clientId time fresh)
        (.rotated (.ok (fresh, successor x time)))
        ((st.refreshSpentAt now r d).write (.refresh d') (successor x time)
          (some (now + st.refreshLife))) []
  | revokedFamily (F : String) :
      Effect now r (.revokeFamily F) (.revoked [F]) (st.marked now r F) [F]
  | revokedSession (sid : String) (families : List String)
      (h : ∀ F, F ∈ families ↔ F ∈ r.members now (.sessionFamilies sid)) :
      Effect now r (.revokeSessionFamilies sid) (.revoked families)
        { st.markedAll now r families with
          sets := (st.markedAll now r families).sets.erase (.sessionFamilies sid) } families

theorem Ends.map {st : GrantStore} {α β : Type} {now : Int} {p : RedisProg α} {r r' : Redis}
    {out : α} {fs : List String} (h : st.Ends now p r out r' fs) (f : α → β) :
    st.Ends now (p.bind fun a => .pure (f a)) r (f out) r' fs := by
  have hrun := h.run
  refine ⟨?_, fun F => ?_⟩
  · simp only [Redis.run, Prog.run_bind, Prog.run_pure] at hrun ⊢
    rw [hrun]
  · rw [← h.revokes F]
    simp [Redis.Issues]

/-- **Every call ends in one of the listed ways.** -/
theorem program_effect (now : Int) (r : Redis) (c : GrantCall) :
    ∃ out r' fs, st.Ends now (st.program c) r out r' fs ∧ st.Effect now r c out r' fs := by
  cases c with
  | issueCode g code =>
    rcases st.issueCode_cases now r g code with ⟨e, -, h⟩ | ⟨d, hd, h⟩
    · exact ⟨_, _, _, h.map GrantOutcome.issued, .unissued _ e⟩
    · exact ⟨_, _, _, h.map GrantOutcome.issued, .issuedCode g hd⟩
  | redeemCode code clientId redirectUri =>
    rcases st.redeemCode_cases now r code clientId redirectUri with ⟨e, h⟩ | ⟨d, g, hd, hg, h⟩
    · exact ⟨_, _, _, h.map GrantOutcome.redeemed, .unredeemed _ e⟩
    · rcases st.spendCode_cases now r d g clientId redirectUri with
        ⟨hs, hp⟩ | ⟨hs, ⟨-, hp⟩ | ⟨-, -, hp⟩ | ⟨-, -, hp⟩⟩
      · exact ⟨_, _, _, (h _ _ _ hp).map GrantOutcome.redeemed, .replayedCode _ _ hd hg hs⟩
      · exact ⟨_, _, _, (h _ _ _ hp).map GrantOutcome.redeemed, .foreignCode _ _ hd hg hs⟩
      · exact ⟨_, _, _, (h _ _ _ hp).map GrantOutcome.redeemed, .mismatchedCode _ _ hd hg hs⟩
      · exact ⟨_, _, _, (h _ _ _ hp).map GrantOutcome.redeemed, .redeemed _ _ hd hg hs⟩
  | issueRefreshToken x token =>
    rcases st.issueRefreshToken_cases now r x token with ⟨e, -, h⟩ | ⟨d, hd, h⟩
    · exact ⟨_, _, _, h.map GrantOutcome.issued, .unissued _ e⟩
    · exact ⟨_, _, _, h.map GrantOutcome.issued, .issuedRefresh x hd⟩
  | rotateRefreshToken token clientId time fresh =>
    rcases st.rotateRefreshToken_cases now r token clientId time fresh with
      ⟨e, h⟩ | ⟨d, x, hd, hx, hm, h⟩
    · exact ⟨_, _, _, h.map GrantOutcome.rotated, .unrotated _ e⟩
    · rcases st.spendRefresh_cases now r d x clientId time fresh with
        ⟨hs, hp⟩ | ⟨hs, ⟨-, hp⟩ | ⟨-, e, hf, hp⟩ | ⟨-, d', hf, hp⟩⟩
      · exact ⟨_, _, _, (h _ _ _ hp).map GrantOutcome.rotated, .replayedRefresh _ _ _ hd hx hs⟩
      · exact ⟨_, _, _, (h _ _ _ hp).map GrantOutcome.rotated, .foreignRefresh _ _ _ hd hx⟩
      · exact ⟨_, _, _, (h _ _ _ hp).map GrantOutcome.rotated, .undrawn _ _ _ e hd hf hx⟩
      · exact ⟨_, _, _, (h _ _ _ hp).map GrantOutcome.rotated, .rotated _ _ hd hf hx hm hs⟩
  | revokeFamily F =>
    have h : st.Ends now (st.revokeFamily F) r () (st.marked now r F) [F] := by
      refine ⟨rfl, fun G => ?_⟩
      simp [Redis.Issues, revokeFamily, revokeCmd]
    exact ⟨_, _, _, h.map fun _ => GrantOutcome.revoked [F], .revokedFamily F⟩
  | revokeSessionFamilies sid =>
    obtain ⟨families, hf, h⟩ := st.revokeSessionFamilies_ends now r sid
    exact ⟨_, _, _, h.map GrantOutcome.revoked, .revokedSession sid families hf⟩

/-! ## A store and a grant -/

/-- A store with the default lifetimes, hashing a token to itself. -/
def sampleStore : GrantStore := { sha256 := id }

/-- A grant for the session `s1`, in the family `f1`. -/
def sampleGrant : AuthorizationCode where
  clientId := "app"
  redirectUri := "https://app/cb"
  codeChallenge := "x"
  scopes := ["openid"]
  subject := "alice"
  sid := "s1"
  familyId := "f1"

end GrantStore

end CampusID
