import CampusID.Oidc.Jwt

/-!
# What is presented to the token endpoints

Any text presented as a code, as a refresh token or as a token to revoke.

`redeem_code`, `rotate_refresh_token` and `_family_of` should return or raise `OAuthError`, which the
endpoints answer.  Text that is not ASCII has no digest, and the header of a token can be nested
too deeply to be parsed; neither is an `OAuthError`, and both are answered as server errors
(`oauthErrorsOnly_iff`).
-/

namespace CampusID
namespace Oidc

open Lib

/-- It is an `OAuthError`, or a `GrantReuse`, which is one. -/
def IsOAuth : GrantError → Prop
  | .oauth _ => True
  | .reuse _ => True
  | .unicodeEncode => False

/-- What a request is answered with. -/
inductive Answered where
  | ok
  | oauthError (error : String)
  | serverError
  deriving DecidableEq, Repr

/-- What `bearer.verify` can raise. -/
inductive VerifyRaised where
  | oauth (e : OAuthError)
  | recursionError
  deriving DecidableEq, Repr

/-- What `_family_of` can raise. -/
inductive FamilyRaised where
  | grant (e : GrantError)
  | recursionError
  deriving DecidableEq, Repr

/-- The token endpoint with the library it decodes tokens with. -/
structure TokenService (W : Type) where
  endpoint : TokenEndpoint W
  library : JwtLibrary

namespace TokenService

variable {W : Type} (svc : TokenService W)

/-- `bearer.verify`, with what it can raise. -/
def verify (token : String) (now : Int) : RedisProg (Except VerifyRaised AccessClaims) :=
  if token = "" then
    return .error (.oauth ⟨invalidToken, .grantInvalid, "no bearer token presented"⟩)
  else
    match svc.library.decode token with
    | .error .recursionError => return .error .recursionError
    | .error (.jwtError detail) => return .error (.oauth ⟨invalidToken, .grantInvalid, detail⟩)
    | .ok claims =>
      match svc.endpoint.checkClaims claims now with
      | .error detail => return .error (.oauth ⟨invalidToken, .grantInvalid, detail⟩)
      | .ok () => do
        let verified ← TokenEndpoint.verifyFamily claims
        return verified.mapError .oauth

/-- `_family_of`, of what does not verify. -/
def refreshFamily (client : OidcClient) (token : String) :
    RedisProg (Except FamilyRaised (Option String)) := do
  let record ← svc.endpoint.describeRefreshToken token
  match record with
  | .error err => return .error (.grant err)
  | .ok none => return .ok none
  | .ok (some record) =>
    return .ok (if record.clientId ≠ client.clientId then none else some record.familyId)

/-- `_family_of`. -/
def familyOf (client : OidcClient) (token : String) (now : Int) :
    RedisProg (Except FamilyRaised (Option String)) := do
  let verified ← svc.verify token now
  match verified with
  | .ok claims => return .ok (if claims.clientId = client.clientId then claims.fid else none)
  | .error (.oauth _) => svc.refreshFamily client token
  | .error .recursionError => return .error .recursionError

/-- `/oauth2/revoke`, once the client is authenticated. -/
def revoke (client : OidcClient) (token : String) (now : Int) : RedisProg Answered := do
  let family ← svc.familyOf client token now
  match family with
  | .error _ => return .serverError
  | .ok none => return .ok
  | .ok (some family) => do
    svc.endpoint.grants.revokeFamily family
    return .ok

/-- How `/oauth2/token` answers. -/
def answer : Except TokenError (TokenResponse W) → Answered
  | .ok _ => .ok
  | .error (.grant (.oauth e)) => .oauthError e.error
  | .error (.grant (.reuse e)) => .oauthError e.error
  | .error (.grant .unicodeEncode) => .serverError
  | .error (.refused error _) => .oauthError error

/-- `/oauth2/token` with a code, once the client is authenticated. -/
def exchangeCode (client : OidcClient) (code : String) (redirectUri verifier : Option String)
    (now : Int) (refresh jti : String) : RedisProg Answered := do
  let tokens ← svc.endpoint.exchangeCode client (some code) redirectUri verifier now refresh jti
  return answer tokens

/-- `/oauth2/token` with a refresh token, once the client is authenticated. -/
def exchangeRefreshToken (client : OidcClient) (token : String) (now : Int)
    (fresh jti : String) : RedisProg Answered := do
  let tokens ← svc.endpoint.exchangeRefreshToken client (some token) now fresh jti
  return answer tokens

/-- Nothing is stored under the digest of the text. -/
def Unknown (now : Int) (r : Redis) (text : String) : Prop :=
  ∀ digest, svc.endpoint.grants.digest text = .ok digest →
    r.strings.live now (.code digest) = none ∧ r.strings.live now (.refresh digest) = none

end TokenService

/-- **The token endpoints fail only with OAuth errors** on what is presented.  Tokens that are drawn
are ASCII. -/
structure OAuthErrorsOnly {W : Type} (svc : TokenService W) (now : Int) (r : Redis)
    (text : String) : Prop where
  redeems : ∀ clientId redirectUri err,
    (Redis.run now (svc.endpoint.grants.redeemCode text clientId redirectUri) r).1 = .error err →
      IsOAuth err
  rotates : ∀ clientId fresh err, Text.isAscii fresh = true →
    (Redis.run now (svc.endpoint.grants.rotateRefreshToken text clientId now fresh) r).1 =
      .error err → IsOAuth err
  finds : ∀ client, ∃ family, (Redis.run now (svc.familyOf client text now) r).1 = .ok family
  exchanges : ∀ client redirectUri verifier refresh jti, Text.isAscii refresh = true →
    (Redis.run now (svc.exchangeCode client text redirectUri verifier now refresh jti) r).1 ≠
      .serverError
  refreshes : ∀ client fresh jti, Text.isAscii fresh = true →
    (Redis.run now (svc.exchangeRefreshToken client text now fresh jti) r).1 ≠ .serverError
  refuses : svc.Unknown now r text → ∀ client redirectUri verifier refresh jti,
    (∃ error, (Redis.run now
      (svc.exchangeCode client text redirectUri verifier now refresh jti) r).1 =
        .oauthError error) ∧
    ∃ error, (Redis.run now (svc.exchangeRefreshToken client text now refresh jti) r).1 =
      .oauthError error
  revokes : ∀ client, (Redis.run now (svc.revoke client text now) r).1 = .ok

/-! ## The grant store -/

section Store

variable {st : GrantStore} {now : Int} {r : Redis} {text clientId redirectUri fresh : String}

theorem digest_of_isAscii (h : Text.isAscii text = true) : st.digest text = .ok (st.sha256 text) :=
  if_pos h

theorem digest_of_not_isAscii (h : Text.isAscii text = false) :
    st.digest text = .error .unicodeEncode := if_neg (by simp [h])

theorem redeemCode_isOAuth (h : Text.isAscii text = true) {err : GrantError}
    (herr : (Redis.run now (st.redeemCode text clientId redirectUri) r).1 = .error err) :
    IsOAuth err := by
  cases hlive : r.strings.live now (.code (st.sha256 text)) with
  | none =>
    have hrun : (Redis.run now (st.redeemCode text clientId redirectUri) r).1 =
        .error unknownCode := by
      simp [Redis.run, GrantStore.redeemCode, digest_of_isAscii h, hlive]
    rw [hrun] at herr
    obtain rfl := Except.error.inj herr
    trivial
  | some grant =>
    have hrun : Redis.run now (st.redeemCode text clientId redirectUri) r =
        Redis.run now (st.spendCode (st.sha256 text) grant clientId redirectUri) r := by
      simp [Redis.run, GrantStore.redeemCode, digest_of_isAscii h, hlive]
    rw [hrun] at herr
    rcases st.spendCode_cases now r (st.sha256 text) grant clientId redirectUri with
      ⟨-, hends⟩ | ⟨-, ⟨-, hends⟩ | ⟨-, -, hends⟩ | ⟨-, -, hends⟩⟩
    all_goals rw [hends.run] at herr
    · obtain rfl := Except.error.inj herr
      trivial
    · obtain rfl := Except.error.inj herr
      trivial
    · obtain rfl := Except.error.inj herr
      trivial
    · cases herr

theorem rotateRefreshToken_isOAuth (h : Text.isAscii text = true)
    (hfresh : Text.isAscii fresh = true) {err : GrantError}
    (herr : (Redis.run now (st.rotateRefreshToken text clientId now fresh) r).1 = .error err) :
    IsOAuth err := by
  cases hlive : r.strings.live now (.refresh (st.sha256 text)) with
  | none =>
    have hrun : (Redis.run now (st.rotateRefreshToken text clientId now fresh) r).1 =
        .error unknownToken := by
      simp [Redis.run, GrantStore.rotateRefreshToken, digest_of_isAscii h, hlive]
    rw [hrun] at herr
    obtain rfl := Except.error.inj herr
    trivial
  | some record =>
    cases hmarker : r.strings.live now (.familyRevoked record.familyId) with
    | some marker =>
      have hrun : (Redis.run now (st.rotateRefreshToken text clientId now fresh) r).1 =
          .error familyIsRevoked := by
        simp [Redis.run, GrantStore.rotateRefreshToken, digest_of_isAscii h, hlive,
          GrantStore.isFamilyRevoked, hmarker]
      rw [hrun] at herr
      obtain rfl := Except.error.inj herr
      trivial
    | none =>
      have hrun : Redis.run now (st.rotateRefreshToken text clientId now fresh) r =
          Redis.run now (st.spendRefresh (st.sha256 text) record clientId now fresh) r := by
        simp [Redis.run, GrantStore.rotateRefreshToken, digest_of_isAscii h, hlive,
          GrantStore.isFamilyRevoked, hmarker]
      rw [hrun] at herr
      rcases st.spendRefresh_cases now r (st.sha256 text) record clientId now fresh with
        ⟨-, hends⟩ | ⟨-, ⟨-, hends⟩ | ⟨-, e, hdigest, hends⟩ | ⟨-, d, -, hends⟩⟩
      all_goals rw [hends.run] at herr
      · obtain rfl := Except.error.inj herr
        trivial
      · obtain rfl := Except.error.inj herr
        trivial
      · rw [digest_of_isAscii hfresh] at hdigest
        cases hdigest
      · cases herr

end Store

/-! ## The endpoints -/

section Endpoints

variable {W : Type} {svc : TokenService W} {now : Int} {r : Redis} {text refresh jti : String}
  {client : OidcClient} {redirectUri verifier : Option String}

theorem run_refreshFamily (h : Text.isAscii text = true) :
    ∃ family, (Redis.run now (svc.refreshFamily client text) r).1 = .ok family := by
  cases hlive : r.strings.live now (.refresh (svc.endpoint.grants.sha256 text)) with
  | none =>
    exact ⟨none, by simp [Redis.run, TokenService.refreshFamily,
      TokenEndpoint.describeRefreshToken, digest_of_isAscii h, hlive]⟩
  | some record =>
    exact ⟨_, by simp [Redis.run, TokenService.refreshFamily,
      TokenEndpoint.describeRefreshToken, digest_of_isAscii h, hlive]; rfl⟩

theorem not_tooDeep_empty (lib : JwtLibrary) : ¬ TooDeep lib "" := by
  rintro ⟨header, claims, signature, bytes, hsplit, -⟩
  have hone : Text.split '.' "" = [""] := rfl
  rw [hone] at hsplit
  cases hsplit

/-- `bearer.verify` reads only, and raises no `OAuthError` exactly where decoding raises none. -/
theorem run_verify : (Redis.run now (svc.verify text now) r).2 = r ∧
    ((Redis.run now (svc.verify text now) r).1 = .error .recursionError ↔
      TooDeep svc.library text) := by
  unfold TokenService.verify
  by_cases hempty : text = ""
  · subst hempty
    simp [Redis.run, not_tooDeep_empty]
  rw [if_neg hempty, ← decode_recursionError_iff]
  cases hdecode : svc.library.decode text with
  | error raised =>
    cases raised with
    | jwtError detail => simp [Redis.run]
    | recursionError => simp [Redis.run]
  | ok claims =>
    dsimp only
    cases hclaims : svc.endpoint.checkClaims claims now with
    | error detail => simp [Redis.run]
    | ok u =>
      unfold TokenEndpoint.verifyFamily
      cases claims.fid with
      | none => simp [Redis.run, Except.mapError]
      | some family =>
        cases hmarker : r.strings.live now (.familyRevoked family) with
        | none => simp [Redis.run, GrantStore.isFamilyRevoked, hmarker, Except.mapError]
        | some marker => simp [Redis.run, GrantStore.isFamilyRevoked, hmarker, Except.mapError]

theorem run_familyOf : (Redis.run now (svc.familyOf client text now) r).1 =
    match (Redis.run now (svc.verify text now) r).1 with
    | .ok claims => .ok (if claims.clientId = client.clientId then claims.fid else none)
    | .error (.oauth _) => (Redis.run now (svc.refreshFamily client text) r).1
    | .error .recursionError => .error .recursionError := by
  have hreads : (Prog.run (Store.exec now) (svc.verify text now) r).2 = r := run_verify.1
  unfold TokenService.familyOf Redis.run
  rw [Prog.bind_def, Prog.run_bind, hreads]
  split <;> simp_all

/-- **Where `_family_of` returns**: on ASCII text that is not nested too deeply. -/
theorem familyOf_returns (h : Text.isAscii text = true) (hdeep : ¬ TooDeep svc.library text) :
    ∃ family, (Redis.run now (svc.familyOf client text now) r).1 = .ok family := by
  rw [run_familyOf]
  split
  · exact ⟨_, rfl⟩
  · exact run_refreshFamily h
  · rename_i hraised
    exact absurd (run_verify.2.mp hraised) hdeep

theorem run_revoke (h : ∃ family, (Redis.run now (svc.familyOf client text now) r).1 = .ok family) :
    (Redis.run now (svc.revoke client text now) r).1 = .ok := by
  obtain ⟨family, hfamily⟩ := h
  unfold TokenService.revoke Redis.run at *
  rw [Prog.bind_def, Prog.run_bind, hfamily]
  cases family <;> simp [GrantStore.revokeFamily]

theorem answer_of_isOAuth {err : GrantError} (h : IsOAuth err) :
    ∃ error, TokenService.answer (.error (.grant err) : Except TokenError (TokenResponse W)) =
      .oauthError error := by
  cases err with
  | oauth e => exact ⟨_, rfl⟩
  | reuse e => exact ⟨_, rfl⟩
  | unicodeEncode => exact h.elim

theorem answer_of_isOAuth_ne {err : GrantError} (h : IsOAuth err) :
    TokenService.answer (.error (.grant err) : Except TokenError (TokenResponse W)) ≠
      .serverError := by
  obtain ⟨error, hanswer⟩ := answer_of_isOAuth (W := W) h
  rw [hanswer]
  exact Answered.noConfusion

theorem answer_exchangeGrant {grant : AuthorizationCode} (hrefresh : Text.isAscii refresh = true) :
    TokenService.answer (Redis.run now
      (svc.endpoint.exchangeGrant client verifier now refresh jti grant) r).1 ≠ .serverError := by
  unfold TokenEndpoint.exchangeGrant
  cases hpkce : svc.endpoint.verifyPkce verifier grant.codeChallenge with
  | error err =>
    have hrefused : ∃ error detail, err = .refused error detail := by
      unfold TokenEndpoint.verifyPkce at hpkce
      dsimp only at hpkce
      split at hpkce
      · exact ⟨_, _, (Except.error.inj hpkce).symm⟩
      · split_ifs at hpkce
        · exact ⟨_, _, (Except.error.inj hpkce).symm⟩
        · exact ⟨_, _, (Except.error.inj hpkce).symm⟩
        · exact ⟨_, _, (Except.error.inj hpkce).symm⟩
    obtain ⟨error, detail, rfl⟩ := hrefused
    exact Answered.noConfusion
  | ok u =>
    simp [Redis.run, GrantStore.issueRefreshToken, digest_of_isAscii hrefresh,
      TokenService.answer]

theorem run_exchangeCode : (Redis.run now
    (svc.exchangeCode client text redirectUri verifier now refresh jti) r).1 =
      TokenService.answer (Redis.run now (svc.endpoint.exchangeCode client (some text) redirectUri
        verifier now refresh jti) r).1 := by
  unfold TokenService.exchangeCode Redis.run
  rw [Prog.bind_def, Prog.run_bind]
  rfl

theorem run_exchangeRefreshToken : (Redis.run now
    (svc.exchangeRefreshToken client text now refresh jti) r).1 =
      TokenService.answer (Redis.run now (svc.endpoint.exchangeRefreshToken client (some text) now
        refresh jti) r).1 := by
  unfold TokenService.exchangeRefreshToken Redis.run
  rw [Prog.bind_def, Prog.run_bind]
  rfl

theorem exchangeCode_ne_serverError (h : Text.isAscii text = true)
    (hrefresh : Text.isAscii refresh = true) : (Redis.run now
      (svc.exchangeCode client text redirectUri verifier now refresh jti) r).1 ≠ .serverError := by
  rw [run_exchangeCode]
  unfold TokenEndpoint.exchangeCode
  by_cases hempty : text = ""
  · subst hempty
    simp [Redis.run, TokenService.answer]
  rw [if_neg (by simpa using hempty), Redis.run, Prog.bind_def, Prog.run_bind, Option.getD_some]
  cases hredeemed : (Redis.run now (svc.endpoint.grants.redeemCode text client.clientId
      (redirectUri.getD "")) r).1 with
  | error err =>
    rw [Redis.run] at hredeemed
    rw [hredeemed]
    exact answer_of_isOAuth_ne (redeemCode_isOAuth h hredeemed)
  | ok grant =>
    rw [Redis.run] at hredeemed
    rw [hredeemed]
    exact answer_exchangeGrant hrefresh

theorem exchangeCode_unknown (h : Text.isAscii text = true) (hunknown : svc.Unknown now r text) :
    ∃ error, (Redis.run now
      (svc.exchangeCode client text redirectUri verifier now refresh jti) r).1 =
        .oauthError error := by
  rw [run_exchangeCode]
  unfold TokenEndpoint.exchangeCode
  by_cases hempty : text = ""
  · subst hempty
    exact ⟨_, rfl⟩
  obtain ⟨hcode, -⟩ := hunknown _ (digest_of_isAscii h)
  rw [if_neg (by simpa using hempty)]
  refine ⟨invalidGrant, ?_⟩
  simp [Redis.run, GrantStore.redeemCode, digest_of_isAscii h, hcode, TokenService.answer,
    unknownCode, refuse]

theorem exchangeRefreshToken_ne_serverError (h : Text.isAscii text = true)
    (hfresh : Text.isAscii refresh = true) : (Redis.run now
      (svc.exchangeRefreshToken client text now refresh jti) r).1 ≠ .serverError := by
  rw [run_exchangeRefreshToken]
  unfold TokenEndpoint.exchangeRefreshToken
  by_cases hempty : text = ""
  · subst hempty
    simp [Redis.run, TokenService.answer]
  rw [if_neg (by simpa using hempty), Redis.run, Prog.bind_def, Prog.run_bind, Option.getD_some]
  cases hrotated : (Redis.run now (svc.endpoint.grants.rotateRefreshToken text client.clientId now
      refresh) r).1 with
  | error err =>
    rw [Redis.run] at hrotated
    rw [hrotated]
    exact answer_of_isOAuth_ne (rotateRefreshToken_isOAuth h hfresh hrotated)
  | ok rotated =>
    rw [Redis.run] at hrotated
    rw [hrotated]
    exact Answered.noConfusion

theorem exchangeRefreshToken_unknown (h : Text.isAscii text = true)
    (hunknown : svc.Unknown now r text) : ∃ error, (Redis.run now
      (svc.exchangeRefreshToken client text now refresh jti) r).1 = .oauthError error := by
  rw [run_exchangeRefreshToken]
  unfold TokenEndpoint.exchangeRefreshToken
  by_cases hempty : text = ""
  · subst hempty
    exact ⟨_, rfl⟩
  obtain ⟨-, htoken⟩ := hunknown _ (digest_of_isAscii h)
  rw [if_neg (by simpa using hempty)]
  refine ⟨invalidGrant, ?_⟩
  simp [Redis.run, GrantStore.rotateRefreshToken, digest_of_isAscii h, htoken,
    TokenService.answer, unknownToken, refuse]

end Endpoints

/-- **When the token endpoints fail only with OAuth errors**: on ASCII text whose header is not
nested too deeply. -/
theorem oauthErrorsOnly_iff {W : Type} (svc : TokenService W) (now : Int) (r : Redis)
    (text : String) : OAuthErrorsOnly svc now r text ↔
      Text.isAscii text = true ∧ ¬ TooDeep svc.library text := by
  constructor
  · intro h
    constructor
    · by_contra hascii
      have hraises : (Redis.run now (svc.endpoint.grants.redeemCode text "" "") r).1 =
          .error .unicodeEncode := by
        simp [Redis.run, GrantStore.redeemCode,
          digest_of_not_isAscii (Bool.not_eq_true _ ▸ hascii)]
      exact h.redeems _ _ _ hraises
    · intro hdeep
      obtain ⟨family, hfamily⟩ := h.finds ⟨"", .publicClient, ∅⟩
      rw [run_familyOf, run_verify.2.mpr hdeep] at hfamily
      cases hfamily
  · rintro ⟨hascii, hdeep⟩
    exact {
      redeems := fun _ _ _ => redeemCode_isOAuth hascii
      rotates := fun _ _ _ hfresh => rotateRefreshToken_isOAuth hascii hfresh
      finds := fun _ => familyOf_returns hascii hdeep
      exchanges := fun _ _ _ _ _ => exchangeCode_ne_serverError hascii
      refreshes := fun _ _ _ => exchangeRefreshToken_ne_serverError hascii
      refuses := fun hunknown _ _ _ _ _ =>
        ⟨exchangeCode_unknown hascii hunknown, exchangeRefreshToken_unknown hascii hunknown⟩
      revokes := fun _ => run_revoke (familyOf_returns hascii hdeep) }

/-- **A code that is not ASCII is a server error.** -/
theorem not_oauthErrorsOnly : ¬ ∀ (svc : TokenService AccessClaims) (now : Int) (r : Redis)
    (text : String), OAuthErrorsOnly svc now r text := by
  intro h
  let library : JwtLibrary := ⟨fun _ => .valueError, fun _ => false, fun _ _ _ => none⟩
  let endpoint : TokenEndpoint AccessClaims :=
    ⟨{ sha256 := id }, "https://sso.campus.edu", id, .ok, fun _ => "", id, fun _ => rfl⟩
  have hraises : (Redis.run 0 (endpoint.grants.redeemCode "é" "library" "") Store.empty).1 =
      .error .unicodeEncode := by rfl
  exact (h ⟨endpoint, library⟩ 0 Store.empty "é").redeems _ _ _ hraises

end Oidc
end CampusID
