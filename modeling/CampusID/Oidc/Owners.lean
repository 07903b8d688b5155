import CampusID.Lib.Runs
import CampusID.Oidc.Endpoints

/-!
# Whose tokens are whose

A family belongs to the client whose code it was drawn for, and so does every token of it; but all
tokens of the client-credentials grant carry the empty family, whoever they were issued to.

Every program of the token endpoint keeps a contract on what it writes and what it ends with
(`MaySend`, `MayEnd`): grants are stored and tokens signed for the owner of their family, and a
revocation marks families of its own client, unless it is presented with a token of the empty
family.
-/

namespace CampusID

open Lib

variable {W : Type}

/-! ## What is drawn and presented -/

/-- What the calls of a run draw: family names, none of them empty and none for two clients, and
refresh tokens, no digest for two clients. -/
structure Drawn (e : TokenEndpoint W) (moves : List (Move (TokenCall W) Int)) : Prop where
  named : ∀ grant code, .spawn (.authorize grant code) ∈ moves → grant.familyId ≠ ""
  families : ∀ grant code grant' code', .spawn (.authorize grant code) ∈ moves →
    .spawn (.authorize grant' code') ∈ moves → grant.familyId = grant'.familyId →
      grant.clientId = grant'.clientId
  tokens : ∀ call call', .spawn call ∈ moves → .spawn call' ∈ moves →
    ∀ token ∈ call.draws, ∀ token' ∈ call'.draws, ∀ digest,
      e.grants.digest token = .ok digest → e.grants.digest token' = .ok digest →
        call.clientId = call'.clientId

/-- What a thread has been answered with tokens. -/
def tokensOf (th : Thread RedisCmd Reply (TokenCall W) (TokenOutcome W) Int) :
    Option (TokenResponse W) :=
  match th.rest with
  | .pure (.tokens (.ok response)) => some response
  | _ => none

/-- The tokens were issued to the client. -/
def IssuedTo (p : TokenPool W) (clientId : String) (response : TokenResponse W) : Prop :=
  ∃ i th, p.At i th ∧ tokensOf th = some response ∧ th.request.clientId = clientId

/-- Signatures are not forged: what is presented and decodes was signed for a token that has been
answered. -/
def Genuine (e : TokenEndpoint W) (p : TokenPool W) : Move (TokenCall W) Int → Prop
  | .spawn call => ∀ token ∈ call.presents, ∀ claims ∈ (e.decode token).toOption,
      ∃ th ∈ p.threads, ∃ response ∈ tokensOf th,
        (e.decode response.accessToken).toOption = some claims
  | _ => True

/-- **No client revokes a token that it got for itself**, while that token is accepted. -/
def Spares (e : TokenEndpoint W) : Move (TokenCall W) Int → Prop
  | .spawn (.revoke client token now) => ∀ claims ∈ (e.decodeAt token now).toOption,
      claims.clientId = client.clientId → claims.fid ≠ some ""
  | _ => True

/-! ## What a revocation may change -/

/-- A client has revoked the family at `/oauth2/revoke`. -/
def RevokedBy (e : TokenEndpoint W) (p : TokenPool W) (clientId family : String) : Prop :=
  ∃ i th client token now, p.At i th ∧ th.request = .revoke client token now ∧
    client.clientId = clientId ∧ th.Saw (e.grants.revokeCmd family) ()

/-- The stores are the same, but for the markers of these families. -/
def SameBut (families : String → Prop) (r r' : Redis) : Prop :=
  ∀ k, (∀ family, families family → k ≠ .familyRevoked family) → r'.strings k = r.strings k

/-- A command of `/oauth2/revoke`: it reads, or marks a family. -/
def ReadsOrMarks : RedisCmd → Prop
  | .get _ => True
  | .exist _ => True
  | .set (.familyRevoked _) _ _ => True
  | _ => False

/-- The stores treat the tokens alike: verification and introspection of the access token, and
rotation of the refresh token, at any time and by any client. -/
structure Alike (e : TokenEndpoint W) (response : TokenResponse W) (r r' : Redis) : Prop where
  verify : ∀ instant now, (Redis.run instant (e.verify response.accessToken now) r').1 =
    (Redis.run instant (e.verify response.accessToken now) r).1
  introspect : ∀ instant client now,
    (Redis.run instant (e.introspect client response.accessToken now) r').1 =
      (Redis.run instant (e.introspect client response.accessToken now) r).1
  rotate : ∀ token ∈ response.refreshToken, ∀ instant clientId now fresh,
    (Redis.run instant (e.grants.rotateRefreshToken token clientId now fresh) r').1 =
      (Redis.run instant (e.grants.rotateRefreshToken token clientId now fresh) r).1

/-- **Revocations spare the tokens of others**: they write nothing but markers, and the tokens of
another client are treated as though the markers that the client wrote were not there, or were
others. -/
structure SparesOthers (e : TokenEndpoint W) (p : TokenPool W) : Prop where
  writes : ∀ i th client token now, p.At i th → th.request = .revoke client token now →
    ∀ entry ∈ th.replies, ReadsOrMarks entry.1
  others : ∀ clientId clientId' response, clientId ≠ clientId' → IssuedTo p clientId' response →
    ∀ r, SameBut (RevokedBy e p clientId) p.store r → Alike e response p.store r

/-! ## Owners -/

section Owners

variable (e : TokenEndpoint W) (moves : List (Move (TokenCall W) Int))

/-- The family was drawn for a code of the client. -/
def Owns (family clientId : String) : Prop :=
  ∃ grant code, .spawn (.authorize grant code) ∈ moves ∧ grant.familyId = family ∧
    grant.clientId = clientId

/-- A token of this digest was drawn for the client. -/
def Holds (digest clientId : String) : Prop :=
  ∃ call token, .spawn call ∈ moves ∧ call.draws = some token ∧
    e.grants.digest token = .ok digest ∧ call.clientId = clientId

/-- What a key may hold: the grants of a family for its owner. -/
def Fits : (k : Key) → k.Value → Prop
  | .code _, grant => Owns moves grant.familyId grant.clientId
  | .refresh digest, record =>
    Owns moves record.familyId record.clientId ∧ Holds e moves digest record.clientId
  | _, _ => True

/-- The store holds only what fits. -/
def AllFit (r : Redis) : Prop := ∀ k entry, r.strings k = some entry → Fits e moves k entry.value

/-- A command writes only what fits. -/
def WritesFit : RedisCmd → Prop
  | .set k v _ => Fits e moves k v
  | .setNx k v _ => Fits e moves k v
  | _ => True

/-- A command is answered with what fits. -/
def AnswersFit : (c : RedisCmd) → Reply c → Prop
  | .get k, reply => ∀ v ∈ reply, Fits e moves k v
  | _, _ => True

/-- A command of a revocation: it reads, or marks a family of the client. -/
def MarksOwn (clientId : String) : RedisCmd → Prop
  | .get _ => True
  | .exist _ => True
  | .set (.familyRevoked family) _ _ => Owns moves family clientId
  | _ => False

/-- What a call may send. -/
def MaySend : TokenCall W → RedisCmd → Prop
  | .revoke client _ _, c => MarksOwn moves client.clientId c
  | _, c => WritesFit e moves c

/-- An access token of the client: of a family of its own, or of none. -/
def OwnClaims (clientId : String) (claims : AccessClaims) : Prop :=
  claims.clientId = clientId ∧
    ∃ family, claims.fid = some family ∧ (family = "" ∨ Owns moves family clientId)

/-- Tokens of the client. -/
def OwnTokens (clientId : String) (response : TokenResponse W) : Prop :=
  (∃ claims, response.accessToken = e.encode claims ∧ OwnClaims moves clientId claims) ∧
    ∀ token ∈ response.refreshToken, ∃ digest,
      e.grants.digest token = .ok digest ∧ Holds e moves digest clientId

/-- What a call may end with. -/
def MayEnd (call : TokenCall W) : TokenOutcome W → Prop
  | .tokens (.ok response) => OwnTokens e moves call.clientId response
  | _ => True

end Owners

variable {e : TokenEndpoint W} {moves : List (Move (TokenCall W) Int)}

theorem Drawn.owner (hd : Drawn e moves) {family a b : String} (ha : Owns moves family a)
    (hb : Owns moves family b) : a = b := by
  obtain ⟨grant, code, hmem, rfl, rfl⟩ := ha
  obtain ⟨grant', code', hmem', heq, rfl⟩ := hb
  exact hd.families grant code grant' code' hmem hmem' heq.symm

theorem Drawn.holder (hd : Drawn e moves) {digest a b : String} (ha : Holds e moves digest a)
    (hb : Holds e moves digest b) : a = b := by
  obtain ⟨call, token, hmem, hdraws, hdigest, rfl⟩ := ha
  obtain ⟨call', token', hmem', hdraws', hdigest', rfl⟩ := hb
  exact hd.tokens call call' hmem hmem' token hdraws token' hdraws' digest hdigest hdigest'

theorem Drawn.ne_empty (hd : Drawn e moves) {family a : String} (ha : Owns moves family a) :
    family ≠ "" := by
  obtain ⟨grant, code, hmem, rfl, -⟩ := ha
  exact hd.named grant code hmem

theorem MarksOwn.writesFit {clientId : String} {c : RedisCmd} (h : MarksOwn moves clientId c) :
    WritesFit e moves c := by
  cases c with
  | set k v ex =>
    cases k with
    | familyRevoked family => trivial
    | _ => exact h.elim
  | setNx k v ex => exact h.elim
  | _ => trivial

theorem MarksOwn.readsOrMarks {clientId : String} {c : RedisCmd} (h : MarksOwn moves clientId c) :
    ReadsOrMarks c := by
  cases c with
  | set k v ex =>
    cases k with
    | familyRevoked family => trivial
    | _ => exact h.elim
  | get k => trivial
  | exist k => trivial
  | _ => exact h.elim

theorem MaySend.writesFit {call : TokenCall W} {c : RedisCmd} (h : MaySend e moves call c) :
    WritesFit e moves c := by
  cases call with
  | revoke client token now => exact MarksOwn.writesFit h
  | _ => exact h

theorem AllFit.put {r : Redis} (h : AllFit e moves r) {k : Key} {v : k.Value} (hv : Fits e moves k v)
    (x : Option Int) : AllFit e moves (r.write k v x) := by
  intro k' entry hk'
  rw [Store.write_strings] at hk'
  by_cases hkk : k' = k
  · subst hkk
    rw [Table.put_self] at hk'
    obtain rfl := Option.some.inj hk'
    exact hv
  · rw [Table.put_of_ne _ hkk] at hk'
    exact h k' entry hk'

/-- **A store of what fits answers with it, and stays one.** -/
theorem AllFit.exec {r : Redis} (h : AllFit e moves r) (now : Int) {c : RedisCmd}
    (hc : WritesFit e moves c) :
    AnswersFit e moves c (Store.exec now c r).1 ∧ AllFit e moves (Store.exec now c r).2 := by
  cases c with
  | get k =>
    refine ⟨fun v hv => ?_, h⟩
    obtain ⟨x, hx, -⟩ := Table.live_eq_some.mp hv
    exact h k _ hx
  | set k v ex => exact ⟨trivial, h.put hc _⟩
  | setNx k v ex =>
    refine ⟨trivial, ?_⟩
    cases hlive : r.strings.live now k with
    | none =>
      rw [Store.exec_setNx_of_none hlive]
      exact h.put hc _
    | some w =>
      rw [Store.exec_setNx_of_some hlive]
      exact h
  | exist k => exact ⟨trivial, h⟩
  | del k =>
    refine ⟨trivial, fun k' entry hk' => ?_⟩
    change r.strings.erase k k' = some entry at hk'
    by_cases hkk : k' = k
    · subst hkk
      rw [Table.erase_self] at hk'
      cases hk'
    · rw [Table.erase_of_ne _ hkk] at hk'
      exact h k' entry hk'
  | sadd s m =>
    refine ⟨trivial, ?_⟩
    rw [Store.exec_sadd, AllFit, Store.sadd_strings]
    exact h
  | srem s m =>
    refine ⟨trivial, ?_⟩
    rw [Store.exec_srem, AllFit, Store.srem_strings]
    exact h
  | smembers s => exact ⟨trivial, h⟩
  | expire s ex =>
    refine ⟨trivial, ?_⟩
    rw [Store.exec_expire, AllFit, Store.expire_strings]
    exact h
  | delSet s => exact ⟨trivial, h⟩

/-! ## The contracts of the programs -/

section Contracts

/-- What `redeem_code` returns. -/
def RedeemedFor (moves : List (Move (TokenCall W) Int)) (clientId : String) :
    Except GrantError AuthorizationCode → Prop
  | .ok grant => Owns moves grant.familyId grant.clientId ∧ grant.clientId = clientId
  | .error _ => True

/-- What `rotate_refresh_token` returns. -/
def RotatedFor (e : TokenEndpoint W) (moves : List (Move (TokenCall W) Int)) (clientId : String) :
    Except GrantError (String × RefreshToken) → Prop
  | .ok (token, record) => Owns moves record.familyId clientId ∧
      ∃ digest, e.grants.digest token = .ok digest ∧ Holds e moves digest clientId
  | .error _ => True

/-- A program that writes only what fits. -/
abbrev Fitting (e : TokenEndpoint W) (moves : List (Move (TokenCall W) Int)) {α : Type}
    (Ends : α → Prop) (p : RedisProg α) : Prop :=
  p.Obeys (WritesFit e moves) (AnswersFit e moves) Ends

theorem fitting_issueCode {grant : AuthorizationCode} (code : String)
    (h : Owns moves grant.familyId grant.clientId) :
    Fitting e moves (fun _ => True) (e.grants.issueCode grant code) := by
  unfold GrantStore.issueCode
  cases e.grants.digest code with
  | error err => trivial
  | ok digest => exact ⟨h, fun _ _ => ⟨trivial, fun _ _ => ⟨trivial, fun _ _ => trivial⟩⟩⟩

theorem fitting_redeemCode (code clientId redirectUri : String) :
    Fitting e moves (RedeemedFor moves clientId) (e.grants.redeemCode code clientId redirectUri) := by
  unfold GrantStore.redeemCode
  cases e.grants.digest code with
  | error err => trivial
  | ok digest =>
    refine ⟨trivial, fun raw : Option AuthorizationCode => fun hraw => ?_⟩
    cases raw with
    | none => trivial
    | some grant =>
      refine ⟨trivial, fun firstUse : Bool => fun _ => ?_⟩
      change Fitting e moves _ (ite _ _ _)
      split
      · exact ⟨trivial, fun _ _ => trivial⟩
      · split
        · exact ⟨trivial, fun _ _ => trivial⟩
        · rename_i hclient
          split
          · trivial
          · exact ⟨hraw grant rfl, not_not.mp hclient⟩

theorem fitting_issueRefreshToken (record : RefreshToken) (token : String)
    (howns : Owns moves record.familyId record.clientId)
    (hholds : ∀ digest, e.grants.digest token = .ok digest → Holds e moves digest record.clientId) :
    Fitting e moves (fun result => ∀ issued, result = .ok issued → ∃ digest,
        e.grants.digest issued = .ok digest ∧ Holds e moves digest record.clientId)
      (e.grants.issueRefreshToken record token) := by
  unfold GrantStore.issueRefreshToken
  cases hd : e.grants.digest token with
  | error err => exact fun _ h => by cases h
  | ok digest =>
    refine ⟨⟨howns, hholds digest hd⟩, fun _ _ => ?_⟩
    rintro issued ⟨⟩
    exact ⟨digest, hd, hholds digest hd⟩

theorem fitting_rotateRefreshToken {token clientId fresh : String} {now : Int}
    (hholds : ∀ digest, e.grants.digest fresh = .ok digest → Holds e moves digest clientId) :
    Fitting e moves (RotatedFor e moves clientId)
      (e.grants.rotateRefreshToken token clientId now fresh) := by
  unfold GrantStore.rotateRefreshToken
  cases e.grants.digest token with
  | error err => trivial
  | ok digest =>
    refine ⟨trivial, fun raw : Option RefreshToken => fun hraw => ?_⟩
    cases raw with
    | none => trivial
    | some record =>
      obtain ⟨howns, -⟩ := hraw record rfl
      refine ⟨trivial, fun revoked : Bool => fun _ => ?_⟩
      change Fitting e moves _ (ite _ _ _)
      split
      · trivial
      · refine ⟨trivial, fun firstUse : Bool => fun _ => ?_⟩
        change Fitting e moves _ (ite _ _ _)
        split
        · exact ⟨trivial, fun _ _ => trivial⟩
        · split
          · exact ⟨trivial, fun _ _ => trivial⟩
          · rename_i hclient
            obtain rfl := not_not.mp hclient
            refine (fitting_issueRefreshToken (GrantStore.successor record now) fresh howns
              hholds).bind fun issued hissued => ?_
            cases issued with
            | error err => trivial
            | ok token => exact ⟨howns, hissued token rfl⟩

theorem obeys_verify {Sends : RedisCmd → Prop} {Answers : (c : RedisCmd) → Reply c → Prop}
    (hsends : ∀ family, Sends (.exist (.familyRevoked family))) (token : W) (now : Int) :
    (e.verify token now).Obeys Sends Answers
      fun result => ∀ claims, result = .ok claims → e.decodeAt token now = .ok claims := by
  unfold TokenEndpoint.verify
  split_ifs
  · exact fun _ h => by cases h
  · cases e.decodeAt token now with
    | error detail => exact fun _ h => by cases h
    | ok claims =>
      change Prog.Obeys Sends Answers _ (TokenEndpoint.verifyFamily claims)
      unfold TokenEndpoint.verifyFamily
      cases claims.fid with
      | none => exact fun _ h => by cases h
      | some family =>
        refine ⟨hsends family, fun revoked : Bool => fun _ => ?_⟩
        change Prog.Obeys Sends Answers _ (ite _ _ _)
        split_ifs
        · exact fun _ h => by cases h
        · exact fun _ h => congrArg Except.ok (Except.ok.inj h)

/-- A program of a revocation of the client. -/
abbrev Marking (e : TokenEndpoint W) (moves : List (Move (TokenCall W) Int)) (clientId : String)
    {α : Type} (Ends : α → Prop) (p : RedisProg α) : Prop :=
  p.Obeys (MarksOwn moves clientId) (AnswersFit e moves) Ends

theorem marking_refreshFamily (client : OidcClient) (token : W) :
    Marking e moves client.clientId
      (fun result => ∀ family, result = .ok (some family) → Owns moves family client.clientId)
      (e.refreshFamily client token) := by
  unfold TokenEndpoint.refreshFamily TokenEndpoint.describeRefreshToken
  cases e.grants.digest (e.text token) with
  | error err => exact fun _ h => by cases h
  | ok digest =>
    refine ⟨trivial, fun raw : Option RefreshToken => fun hraw => ?_⟩
    cases raw with
    | none => exact fun _ h => by cases h
    | some record =>
      intro family h
      change Except.ok (if record.clientId ≠ client.clientId then none else some record.familyId) =
        Except.ok (some family) at h
      split_ifs at h with hclient
      · cases h
      · obtain rfl := Option.some.inj (Except.ok.inj h)
        rw [← not_not.mp hclient]
        exact (hraw record rfl).1

/-- **A revocation marks families of its own client only**, as long as it is presented with no other
claims of it. -/
theorem marking_revoke {client : OidcClient} {token : W} {now : Int}
    (hclaims : ∀ claims, e.decodeAt token now = .ok claims → claims.clientId = client.clientId →
      ∀ family, claims.fid = some family → Owns moves family client.clientId) :
    Marking e moves client.clientId (fun _ => True) (e.revoke client token now) := by
  have hfamily : Marking e moves client.clientId
      (fun result => ∀ family, result = .ok (some family) → Owns moves family client.clientId)
      (e.familyOf client token now) := by
    refine (obeys_verify (fun _ => trivial) token now).bind fun verified hverified => ?_
    cases verified with
    | error err => exact marking_refreshFamily client token
    | ok claims =>
      intro family h
      change Except.ok (if claims.clientId = client.clientId then claims.fid else none) =
        Except.ok (some family) at h
      split_ifs at h with hclient
      · exact hclaims claims (hverified claims rfl) hclient family (Except.ok.inj h)
      · cases h
  refine hfamily.bind fun result hresult => ?_
  rcases result with err | (_ | family)
  · trivial
  · trivial
  · exact ⟨hresult family rfl, fun _ _ => trivial⟩

theorem fitting_exchangeCode (client : OidcClient) (code redirectUri verifier : Option String)
    (now : Int) {refresh : String} (jti : String)
    (hholds : ∀ digest, e.grants.digest refresh = .ok digest →
      Holds e moves digest client.clientId) :
    Fitting e moves (fun result => ∀ response, result = .ok response →
        OwnTokens e moves client.clientId response)
      (e.exchangeCode client code redirectUri verifier now refresh jti) := by
  unfold TokenEndpoint.exchangeCode
  split_ifs
  · exact fun _ h => by cases h
  · refine (fitting_redeemCode _ _ _).bind fun redeemed hredeemed => ?_
    cases redeemed with
    | error err => exact fun _ h => by cases h
    | ok grant =>
      obtain ⟨howns, hclient⟩ := hredeemed
      rw [hclient] at howns
      change Fitting e moves _ (e.exchangeGrant client verifier now refresh jti grant)
      unfold TokenEndpoint.exchangeGrant
      cases e.verifyPkce verifier grant.codeChallenge with
      | error err => exact fun _ h => by cases h
      | ok _ =>
        refine (fitting_issueRefreshToken (TokenEndpoint.codeRefresh client grant now) refresh
          howns hholds).bind fun issued hissued => ?_
        cases issued with
        | error err => exact fun _ h => by cases h
        | ok token =>
          rintro response ⟨⟩
          refine ⟨⟨_, rfl, rfl, grant.familyId, rfl, .inr howns⟩, ?_⟩
          rintro token ⟨⟩
          exact hissued _ rfl

theorem fitting_exchangeRefreshToken (client : OidcClient) (presented : Option String) (now : Int)
    {fresh : String} (jti : String)
    (hholds : ∀ digest, e.grants.digest fresh = .ok digest → Holds e moves digest client.clientId) :
    Fitting e moves (fun result => ∀ response, result = .ok response →
        OwnTokens e moves client.clientId response)
      (e.exchangeRefreshToken client presented now fresh jti) := by
  unfold TokenEndpoint.exchangeRefreshToken
  split_ifs
  · exact fun _ h => by cases h
  · refine (fitting_rotateRefreshToken hholds).bind fun rotated hrotated => ?_
    rcases rotated with err | ⟨token, record⟩
    · exact fun _ h => by cases h
    · obtain ⟨howns, hdigest⟩ := hrotated
      rintro response ⟨⟩
      refine ⟨⟨_, rfl, rfl, record.familyId, rfl, .inr howns⟩, ?_⟩
      rintro token ⟨⟩
      exact hdigest

theorem ownTokens_clientCredentials {client : OidcClient} {requested : Option String} {now : Int}
    {jti : String} {response : TokenResponse W}
    (h : e.clientCredentials client requested now jti = .ok response) :
    OwnTokens e moves client.clientId response := by
  unfold TokenEndpoint.clientCredentials at h
  split_ifs at h
  cases hgranted : client.machineScopes requested with
  | error err =>
    rw [hgranted] at h
    cases h
  | ok granted =>
    rw [hgranted] at h
    cases h
    refine ⟨⟨_, rfl, rfl, "", rfl, .inl rfl⟩, ?_⟩
    rintro token ⟨⟩

end Contracts

end CampusID
