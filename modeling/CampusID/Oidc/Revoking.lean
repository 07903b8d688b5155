import CampusID.Lib.Runs
import CampusID.Oidc.Owners

/-!
# Whose tokens a revocation revokes

A client that revokes a token of its own from the client-credentials grant marks the empty family,
which every such token of every client carries (`revokes_others`).

`sparesOthers_of_spares` says which runs spare the tokens of others: those in which no client presents
such a token of its own to `/oauth2/revoke`.  A family has one owner there, so the markers that a
client writes are none that the tokens of another look at.
-/

namespace CampusID

open Lib

variable {W : Type} {e : TokenEndpoint W} {moves : List (Move (TokenCall W) Int)}

/-! ## Runs -/

/-- Every call keeps its contract over a store of what fits. -/
abbrev Owned (e : TokenEndpoint W) (moves : List (Move (TokenCall W) Int)) (p : TokenPool W) : Prop :=
  p.Lawful (AllFit e moves) (MaySend e moves) (AnswersFit e moves) (MayEnd e moves)

section Runs

variable {p : TokenPool W}

theorem decode_of_decodeAt {token : W} {now : Int} {claims : AccessClaims}
    (h : e.decodeAt token now = .ok claims) : e.decode token = .ok claims := by
  unfold TokenEndpoint.decodeAt at h
  cases hdecode : e.decode token with
  | error detail =>
    rw [hdecode] at h
    cases h
  | ok claims' =>
    rw [hdecode] at h
    change (e.checkClaims claims' now >>= fun _ => Except.ok claims') = .ok claims at h
    cases hcheck : e.checkClaims claims' now with
    | error detail =>
      rw [hcheck] at h
      cases h
    | ok u =>
      rw [hcheck] at h
      exact h

theorem Owned.tokens (hp : Owned e moves p) {i : Nat}
    {th : Thread RedisCmd Reply (TokenCall W) (TokenOutcome W) Int} (hi : p.At i th)
    {response : TokenResponse W} (h : tokensOf th = some response) :
    OwnTokens e moves th.request.clientId response := by
  have hrest := hp.rest i th hi
  unfold tokensOf at h
  split at h
  · rename_i heq
    rw [heq] at hrest
    cases h
    exact hrest
  · cases h

theorem Owned.claims (hp : Owned e moves p) {call : TokenCall W}
    (hgenuine : Genuine e p (.spawn call)) {token : W} (htoken : token ∈ call.presents)
    {claims : AccessClaims} (hdecode : e.decode token = .ok claims) :
    OwnClaims moves claims.clientId claims := by
  obtain ⟨th, hth, response, hresponse, hsame⟩ :=
    hgenuine token htoken claims (by rw [hdecode]; rfl)
  obtain ⟨i, hi⟩ := List.mem_iff_getElem?.mp hth
  obtain ⟨⟨claims', haccess, hown⟩, -⟩ := hp.tokens hi hresponse
  rw [haccess, e.signed] at hsame
  obtain rfl : claims' = claims := Option.some.inj hsame
  rw [hown.1]
  exact hown

/-- **Every program keeps its contract.** -/
theorem Owned.program (hp : Owned e moves p) {call : TokenCall W} (hmem : .spawn call ∈ moves)
    (hgenuine : Genuine e p (.spawn call)) (hspares : Spares e (.spawn call)) :
    (e.program call).Obeys (MaySend e moves call) (AnswersFit e moves) (MayEnd e moves call) := by
  cases call with
  | authorize grant code =>
    exact (fitting_issueCode code ⟨grant, code, hmem, rfl, rfl⟩).bind fun _ _ => trivial
  | exchangeCode client code redirectUri verifier now refresh jti =>
    refine (fitting_exchangeCode client code redirectUri verifier now jti fun digest hdigest =>
      ⟨_, refresh, hmem, rfl, hdigest, rfl⟩).bind fun result hresult => ?_
    cases result with
    | error err => trivial
    | ok response => exact hresult response rfl
  | exchangeRefreshToken client presented now fresh jti =>
    refine (fitting_exchangeRefreshToken client presented now jti fun digest hdigest =>
      ⟨_, fresh, hmem, rfl, hdigest, rfl⟩).bind fun result hresult => ?_
    cases result with
    | error err => trivial
    | ok response => exact hresult response rfl
  | clientCredentials client requested now jti =>
    change MayEnd e moves _ (.tokens (e.clientCredentials client requested now jti))
    cases hresult : e.clientCredentials client requested now jti with
    | error err => trivial
    | ok response => exact ownTokens_clientCredentials hresult
  | introspect client token now =>
    have hverify : Fitting e moves _ (e.verify token now) :=
      obeys_verify (fun _ => trivial) token now
    refine Prog.Obeys.bind (hverify.bind fun verified _ => ?_) fun _ (_ : True) => trivial
    cases verified <;> trivial
  | revoke client token now =>
    refine (marking_revoke fun claims hdecode hclient family hfid => ?_).bind fun _ _ => trivial
    obtain ⟨-, family', hfid', hcases⟩ := hp.claims hgenuine rfl (decode_of_decodeAt hdecode)
    obtain rfl : family' = family := Option.some.inj (hfid'.symm.trans hfid)
    rcases hcases with rfl | howns
    · exact absurd hfid (hspares claims (by rw [hdecode]; rfl) hclient)
    · exact hclient ▸ howns

/-- **Every move keeps every contract.** -/
theorem Owned.step (hp : Owned e moves p) {mv : Move (TokenCall W) Int} (hmem : mv ∈ moves)
    (hgenuine : Genuine e p mv) (hspares : Spares e mv) : Owned e moves (e.step p mv) := by
  refine Pool.step_invariant (I := Owned e moves)
    (A := fun p mv => mv ∈ moves ∧ Genuine e p mv ∧ Spares e mv) Store.exec e.program ?_ ?_ ?_ p mv
    hp ⟨hmem, hgenuine, hspares⟩
  · exact fun p elapsed hp _ => hp.tick _
  · exact fun p call hp ⟨hmem, hgenuine, hspares⟩ => hp.spawn (hp.program hmem hgenuine hspares)
  · exact fun p i th c k hp _ hi hr =>
      hp.fire (fun call now c r hr hsend => hr.exec now hsend.writesFit) hi hr

/-- A command whose reply does not depend on the markers of these families. -/
def Blind (families : String → Prop) : RedisCmd → Prop
  | .get k => ∀ family, families family → k ≠ .familyRevoked family
  | .exist k => ∀ family, families family → k ≠ .familyRevoked family
  | .setNx k _ _ => ∀ family, families family → k ≠ .familyRevoked family
  | .set _ _ _ => True
  | _ => False

theorem SameBut.put {families : String → Prop} {r r' : Redis} (h : SameBut families r r') (k : Key)
    (v : k.Value) (x : Option Int) : SameBut families (r.write k v x) (r'.write k v x) := by
  intro k' hk'
  rw [Store.write_strings, Store.write_strings]
  by_cases hkk : k' = k
  · subst hkk
    rw [Table.put_self, Table.put_self]
  · rw [Table.put_of_ne _ hkk, Table.put_of_ne _ hkk]
    exact h k' hk'

/-- **A program that does not look at the markers does not notice them.** -/
theorem SameBut.run {families : String → Prop} {r r' : Redis} (h : SameBut families r r')
    {α : Type} {program : RedisProg α}
    (hp : program.Obeys (Blind families) (fun _ _ => True) fun _ => True) (now : Int) :
    (Redis.run now program r').1 = (Redis.run now program r).1 := by
  have hlive : ∀ {s s' : Redis}, SameBut families s s' → ∀ k,
      (∀ family, families family → k ≠ .familyRevoked family) →
        s'.strings.live now k = s.strings.live now k := fun h k hk => by
    unfold Table.live
    rw [h k hk]
  have hexec : ∀ (c : RedisCmd) (s s' : Redis), SameBut families s s' → Blind families c →
      (Store.exec now c s').1 = (Store.exec now c s).1 ∧ True ∧
        SameBut families (Store.exec now c s).2 (Store.exec now c s').2 := by
    intro c s s' h hc
    cases c with
    | get k => exact ⟨hlive h k hc, trivial, h⟩
    | exist k => exact ⟨congrArg Option.isSome (hlive h k hc), trivial, h⟩
    | set k v ex => exact ⟨rfl, trivial, h.put k v _⟩
    | setNx k v ex =>
      cases hs : s.strings.live now k with
      | none =>
        rw [Store.exec_setNx_of_none hs, Store.exec_setNx_of_none ((hlive h k hc).trans hs)]
        exact ⟨rfl, trivial, h.put k v _⟩
      | some w =>
        rw [Store.exec_setNx_of_some hs, Store.exec_setNx_of_some ((hlive h k hc).trans hs)]
        exact ⟨rfl, trivial, h⟩
    | _ => exact hc.elim
  exact hp.run_eq hexec h

theorem SameBut.run_get {families : String → Prop} {r r' : Redis} (h : SameBut families r r')
    {α : Type} {key : Key} {k : Option key.Value → RedisProg α} {now : Int}
    (hkey : ∀ family, families family → key ≠ .familyRevoked family)
    (hk : (k (r.strings.live now key)).Obeys (Blind families) (fun _ _ => True) fun _ => True) :
    (Redis.run now (.call (.get key) k) r').1 = (Redis.run now (.call (.get key) k) r).1 := by
  have hlive : r'.strings.live now key = r.strings.live now key := by
    unfold Table.live
    rw [h key hkey]
  change (Redis.run now (k (r'.strings.live now key)) r').1 = _
  rw [hlive]
  exact h.run hk now

theorem blind_spendRefresh {families : String → Prop} {st : GrantStore} (digest : String)
    (record : RefreshToken) (clientId : String) (now : Int) (fresh : String) :
    (st.spendRefresh digest record clientId now fresh).Obeys (Blind families) (fun _ _ => True)
      fun _ => True := by
  refine ⟨fun _ _ => by simp, fun firstUse : Bool => fun _ => ?_⟩
  change Prog.Obeys _ _ _ (ite _ _ _)
  split
  · exact ⟨trivial, fun _ _ => trivial⟩
  · split
    · exact ⟨trivial, fun _ _ => trivial⟩
    · change Prog.Obeys _ _ _ (Prog.bind (st.issueRefreshToken _ fresh) _)
      unfold GrantStore.issueRefreshToken
      cases st.digest fresh with
      | error err => trivial
      | ok digest' => exact ⟨trivial, fun _ _ => trivial⟩

theorem Owned.owns_of_revokedBy (hp : Owned e moves p) {clientId family : String}
    (h : RevokedBy e p clientId family) : Owns moves family clientId := by
  obtain ⟨i, th, client, token, now, hi, hrequest, rfl, hsaw⟩ := h
  have hsent := hp.sent i th hi _ hsaw
  rw [hrequest] at hsent
  exact hsent

/-- **No revocation is noticed by the tokens of others.** -/
theorem Owned.alike (hd : Drawn e moves) (hp : Owned e moves p) {clientId clientId' : String}
    (hne : clientId ≠ clientId') {response : TokenResponse W}
    (hissued : IssuedTo p clientId' response) {r : Redis}
    (hr : SameBut (RevokedBy e p clientId) p.store r) : Alike e response p.store r := by
  obtain ⟨i, th, hi, htokens, rfl⟩ := hissued
  obtain ⟨⟨claims, haccess, -, family, hfid, hfamily⟩, hrefresh⟩ := hp.tokens hi htokens
  -- a family that the client revoked is its own, and so it is not the one of these tokens
  have hother : ∀ family', family' = "" ∨ Owns moves family' th.request.clientId →
      ∀ revoked, RevokedBy e p clientId revoked →
        Key.familyRevoked family' ≠ .familyRevoked revoked := by
    rintro family' hcases revoked hrevoked heq
    obtain rfl : family' = revoked := Key.familyRevoked.inj heq
    have howns := hp.owns_of_revokedBy hrevoked
    rcases hcases with rfl | howns'
    · exact hd.ne_empty howns rfl
    · exact hne (hd.owner howns howns')
  have hverify : ∀ now, (e.verify response.accessToken now).Obeys (Blind (RevokedBy e p clientId))
      (fun _ _ => True) fun _ => True := by
    intro now
    unfold TokenEndpoint.verify
    split_ifs
    · trivial
    · cases hdecode : e.decodeAt response.accessToken now with
      | error detail => trivial
      | ok claims' =>
        have hsame := decode_of_decodeAt hdecode
        rw [haccess, e.signed] at hsame
        obtain rfl := Except.ok.inj hsame
        change Prog.Obeys _ _ _ (TokenEndpoint.verifyFamily claims)
        unfold TokenEndpoint.verifyFamily
        rw [hfid]
        refine ⟨hother family hfamily, fun revoked : Bool => fun _ => ?_⟩
        change Prog.Obeys _ _ _ (ite _ _ _)
        split_ifs <;> trivial
  refine ⟨fun instant now => hr.run (hverify now) instant, fun instant client now => ?_, ?_⟩
  · refine hr.run ((hverify now).bind fun verified _ => ?_) instant
    cases verified <;> trivial
  · intro token htoken instant presenter now fresh
    obtain ⟨digest, hdigest, hholds⟩ := hrefresh token htoken
    unfold GrantStore.rotateRefreshToken
    rw [hdigest]
    refine hr.run_get (fun _ _ => by simp) ?_
    cases hraw : p.store.strings.live instant (.refresh digest) with
    | none => trivial
    | some record =>
      obtain ⟨x, hx, -⟩ := Table.live_eq_some.mp hraw
      obtain ⟨howns, hholds'⟩ : Owns moves record.familyId record.clientId ∧
        Holds e moves digest record.clientId := hp.good _ _ hx
      rw [hd.holder hholds' hholds] at howns
      refine ⟨hother _ (.inr howns), fun revoked : Bool => fun _ => ?_⟩
      change Prog.Obeys _ _ _ (ite _ _ _)
      split_ifs
      · trivial
      · exact blind_spendRefresh digest record presenter now fresh

theorem Owned.sparesOthers (hd : Drawn e moves) (hp : Owned e moves p) : SparesOthers e p where
  writes := by
    intro i th client token now hi hrequest entry hentry
    have hsent := hp.sent i th hi entry hentry
    rw [hrequest] at hsent
    exact MarksOwn.readsOrMarks hsent
  others := fun _ _ _ hne hissued _ hr => hp.alike hd hne hissued hr

end Runs

theorem owned_noTokens : Owned e moves (noTokens : TokenPool W) :=
  ⟨fun _ _ h => (by cases h), fun _ _ h => (by cases h), fun _ _ h => (by cases h)⟩

/-- **Revocations spare the tokens of others**, where no client revokes a token that it got for
itself. -/
theorem sparesOthers_of_spares (e : TokenEndpoint W) (moves : List (Move (TokenCall W) Int))
    (hd : Drawn e moves) (p : TokenPool W)
    (hrun : Run (fun p mv => Genuine e p mv ∧ Spares e mv) e.step noTokens moves p) :
    SparesOthers e p := by
  have hmoves : Run (fun p mv => (Genuine e p mv ∧ Spares e mv) ∧ mv ∈ moves) e.step noTokens
      moves p := hrun.and_of_forall fun mv hmv _ => hmv
  have hp : Owned e moves p := hmoves.invariant (I := Owned e moves)
    (fun p mv hp ⟨⟨hgenuine, hspares⟩, hmem⟩ => hp.step hmem hgenuine hspares) owned_noTokens
  exact hp.sparesOthers hd

/-! ### The tokens of another client -/

section Decidable

instance (e : TokenEndpoint W) [DecidableEq W] (p : TokenPool W) :
    (mv : Move (TokenCall W) Int) → Decidable (Genuine e p mv)
  | .spawn call => inferInstanceAs (Decidable (∀ token ∈ call.presents,
      ∀ claims ∈ (e.decode token).toOption, ∃ th ∈ p.threads, ∃ response ∈ tokensOf th,
        (e.decode response.accessToken).toOption = some claims))
  | .tick _ => .isTrue trivial
  | .advance _ => .isTrue trivial

instance (e : TokenEndpoint W) : (mv : Move (TokenCall W) Int) → Decidable (Spares e mv)
  | .spawn (.revoke client token now) => inferInstanceAs (Decidable
      (∀ claims ∈ (e.decodeAt token now).toOption, claims.clientId = client.clientId →
        claims.fid ≠ some ""))
  | .spawn (.authorize _ _) => .isTrue trivial
  | .spawn (.exchangeCode _ _ _ _ _ _ _) => .isTrue trivial
  | .spawn (.exchangeRefreshToken _ _ _ _ _) => .isTrue trivial
  | .spawn (.clientCredentials _ _ _ _) => .isTrue trivial
  | .spawn (.introspect _ _ _) => .isTrue trivial
  | .tick _ => .isTrue trivial
  | .advance _ => .isTrue trivial

end Decidable

/-- An endpoint to which a signed token is presented as what was signed, and anything else as its
text. -/
def plainEndpoint : TokenEndpoint (AccessClaims ⊕ String) where
  grants := GrantStore.sampleStore
  issuer := "https://idp"
  encode := .inl
  decode
    | .inl claims => .ok claims
    | .inr _ => .error "malformed token"
  text
    | .inl claims => "jwt:" ++ claims.jti
    | .inr text => text
  challengeOf := id
  signed := fun _ => rfl

/-- Two clients that read the directory on their own. -/
def sis : OidcClient := ⟨"sis", .confidential, {"openid", "scim:read"}⟩

def lms : OidcClient := ⟨"lms", .confidential, {"openid", "scim:read"}⟩

/-- The token that `sis` gets for itself. -/
def sisToken : AccessClaims ⊕ String :=
  .inl (accessClaims (plainEndpoint.machineContext sis {"scim:read"}) 0 "j1")

/-- What is authorized at `lms`. -/
def lmsGrant : AuthorizationCode :=
  { GrantStore.sampleGrant with
    clientId := "lms"
    codeChallenge := "aaaaaaaaaaaaaaaaaaaaaaaaaaaaaaaaaaaaaaaaaaa" }

/-- Both get tokens, and `lms` revokes its refresh token. -/
def refreshRevoked : List (Move (TokenCall (AccessClaims ⊕ String)) Int) :=
  [.spawn (.authorize lmsGrant "c1"), .advance 0, .advance 0, .advance 0,
    .spawn (.exchangeCode lms (some "c1") (some lmsGrant.redirectUri)
      (some lmsGrant.codeChallenge) 0 "r1" "j1"), .advance 1, .advance 1, .advance 1,
    .spawn (.clientCredentials sis none 0 "j2"),
    .spawn (.revoke lms (.inr "r1") 0), .advance 3, .advance 3]

/-- Both get tokens for themselves, and `sis` revokes its own. -/
def machineRevoked : List (Move (TokenCall (AccessClaims ⊕ String)) Int) :=
  [.spawn (.clientCredentials sis none 0 "j1"), .spawn (.clientCredentials lms none 0 "j2"),
    .spawn (.revoke sis sisToken 0), .advance 2, .advance 2]

theorem drawn_refreshRevoked : Drawn plainEndpoint refreshRevoked where
  named := by
    intro grant code h
    obtain ⟨rfl, rfl⟩ : grant = lmsGrant ∧ code = "c1" := by simpa [refreshRevoked] using h
    decide
  families := by
    intro grant code grant' code' h h' _
    obtain ⟨rfl, -⟩ : grant = lmsGrant ∧ code = "c1" := by simpa [refreshRevoked] using h
    obtain ⟨rfl, -⟩ : grant' = lmsGrant ∧ code' = "c1" := by simpa [refreshRevoked] using h'
    rfl
  tokens := by
    have hdraws : ∀ call, .spawn call ∈ refreshRevoked → ∀ token ∈ call.draws,
        call.clientId = "lms" := by
      intro call h token htoken
      simp only [refreshRevoked, List.mem_cons, List.not_mem_nil, or_false, Move.spawn.injEq,
        reduceCtorEq, false_or] at h
      rcases h with rfl | rfl | rfl | rfl <;> first | rfl | cases htoken
    intro call call' h h' token htoken token' htoken' _ _ _
    rw [hdraws call h token htoken, hdraws call' h' token' htoken']

/-- A refresh token is revoked, and the other client is spared. -/
theorem spares_refreshRevoked :
    SparesOthers plainEndpoint (refreshRevoked.foldl plainEndpoint.step noTokens) :=
  sparesOthers_of_spares plainEndpoint refreshRevoked drawn_refreshRevoked _
    (Run.of_admits (by decide +kernel))

/-- The same where the marker is not there. -/
def unmarked : Redis :=
  { (machineRevoked.foldl plainEndpoint.step noTokens).store with
    strings := (machineRevoked.foldl plainEndpoint.step noTokens).store.strings.erase
      (.familyRevoked "") }

theorem drawn_machineRevoked : Drawn plainEndpoint machineRevoked where
  named := by simp [machineRevoked]
  families := by simp [machineRevoked]
  tokens := by
    intro call call' h h' token htoken
    simp only [machineRevoked, List.mem_cons, List.not_mem_nil, or_false, Move.spawn.injEq,
      reduceCtorEq] at h
    rcases h with rfl | rfl | rfl <;> cases htoken

/-- **A client revokes the tokens of others.** -/
theorem revokes_others : ¬ ∀ moves p, Drawn plainEndpoint moves →
    Run (Genuine plainEndpoint) plainEndpoint.step noTokens moves p →
      SparesOthers plainEndpoint p := by
  intro h
  have hspares := h machineRevoked _ drawn_machineRevoked (Run.of_admits (by decide +kernel))
  have hrevoked : RevokedBy plainEndpoint (machineRevoked.foldl plainEndpoint.step noTokens)
      "sis" "" :=
    ⟨2, _, sis, sisToken, 0, rfl, rfl, rfl, List.mem_cons_of_mem _ List.mem_cons_self⟩
  have hsame : SameBut (RevokedBy plainEndpoint (machineRevoked.foldl plainEndpoint.step noTokens)
      "sis") (machineRevoked.foldl plainEndpoint.step noTokens).store unmarked :=
    fun k hk => Table.erase_of_ne _ (hk "" hrevoked)
  have halike := hspares.others "sis" "lms" _ (by decide) ⟨1, _, rfl, rfl, rfl⟩ unmarked hsame
  exact absurd (congrArg Except.isOk (halike.verify 0 0)) (by decide +kernel)

end CampusID
