import CampusID.Oidc.Grants

/-!
# A call, command by command

`GrantStore.Effect` says what a call does when nothing runs in between.  Under
concurrency a call has to be cut at its commands: what it has read so far decides
what it issues next, and another call may have changed the store since.

For a redemption and a rotation the cuts are enumerated.  A phase pairs the replies
received so far with where the program stands, the next command or the value it
returned.  The enumeration is complete (`follows_redeemCode`,
`follows_rotateRefreshToken`), and nothing that follows unfolds the programs again.
-/

namespace CampusID
namespace GrantStore

open Lib

variable (st : GrantStore)

/-- A command that was executed, with its reply. -/
abbrev Event := Σ c : RedisCmd, Reply c

/-- The phases of `redeem_code`. -/
inductive RedeemPhase (code clientId redirectUri : String) :
    List Event → RedisCmd ⊕ GrantOutcome → Prop
  | undigested {e : GrantError} (hd : st.digest code = .error e) :
      RedeemPhase code clientId redirectUri [] (.inr (.redeemed (.error e)))
  | start {d : String} (hd : st.digest code = .ok d) :
      RedeemPhase code clientId redirectUri [] (.inl (.get (.code d)))
  | unknown {d : String} (hd : st.digest code = .ok d) :
      RedeemPhase code clientId redirectUri [⟨.get (.code d), none⟩]
        (.inr (.redeemed (.error unknownCode)))
  | read {d : String} (hd : st.digest code = .ok d) (g : AuthorizationCode) :
      RedeemPhase code clientId redirectUri [⟨.get (.code d), some g⟩]
        (.inl (.setNx (.codeSpent d) () st.codeLife))
  | replay {d : String} (hd : st.digest code = .ok d) (g : AuthorizationCode) :
      RedeemPhase code clientId redirectUri
        [⟨.get (.code d), some g⟩, ⟨.setNx (.codeSpent d) () st.codeLife, false⟩]
        (.inl (st.revokeCmd g.familyId))
  | replayed {d : String} (hd : st.digest code = .ok d) (g : AuthorizationCode) :
      RedeemPhase code clientId redirectUri
        [⟨.get (.code d), some g⟩, ⟨.setNx (.codeSpent d) () st.codeLife, false⟩,
          ⟨st.revokeCmd g.familyId, ()⟩]
        (.inr (.redeemed (.error (codeReplayed g))))
  | foreign {d : String} (hd : st.digest code = .ok d) (g : AuthorizationCode)
      (hc : g.clientId ≠ clientId) :
      RedeemPhase code clientId redirectUri
        [⟨.get (.code d), some g⟩, ⟨.setNx (.codeSpent d) () st.codeLife, true⟩]
        (.inl (st.revokeCmd g.familyId))
  | refused {d : String} (hd : st.digest code = .ok d) (g : AuthorizationCode)
      (hc : g.clientId ≠ clientId) :
      RedeemPhase code clientId redirectUri
        [⟨.get (.code d), some g⟩, ⟨.setNx (.codeSpent d) () st.codeLife, true⟩,
          ⟨st.revokeCmd g.familyId, ()⟩]
        (.inr (.redeemed (.error codeOfAnotherClient)))
  | mismatched {d : String} (hd : st.digest code = .ok d) (g : AuthorizationCode)
      (hc : g.clientId = clientId) (hu : g.redirectUri ≠ redirectUri) :
      RedeemPhase code clientId redirectUri
        [⟨.get (.code d), some g⟩, ⟨.setNx (.codeSpent d) () st.codeLife, true⟩]
        (.inr (.redeemed (.error redirectMismatch)))
  | redeemed {d : String} (hd : st.digest code = .ok d) (g : AuthorizationCode)
      (hc : g.clientId = clientId) (hu : g.redirectUri = redirectUri) :
      RedeemPhase code clientId redirectUri
        [⟨.get (.code d), some g⟩, ⟨.setNx (.codeSpent d) () st.codeLife, true⟩]
        (.inr (.redeemed (.ok g)))

/-- **The phases of a redemption are all there are.** -/
theorem follows_redeemCode {code clientId redirectUri : String} {h : List Event}
    {q : RedisProg GrantOutcome}
    (hf : Prog.Follows (st.program (.redeemCode code clientId redirectUri)) h q) :
    st.RedeemPhase code clientId redirectUri h q.head := by
  cases hd : st.digest code with
  | error e =>
    simp only [program, redeemCode, hd] at hf
    obtain ⟨rfl, rfl⟩ := Prog.Follows.pure_iff.mp hf
    exact .undigested hd
  | ok d =>
    simp only [program, redeemCode, hd] at hf
    rcases Prog.Follows.call_iff.mp hf with ⟨rfl, rfl⟩ | ⟨r, h₁, rfl, hf₁⟩
    · exact .start hd
    cases r with
    | none =>
      obtain ⟨rfl, rfl⟩ := Prog.Follows.pure_iff.mp hf₁
      exact .unknown hd
    | some g =>
      rcases Prog.Follows.call_iff.mp hf₁ with ⟨rfl, rfl⟩ | ⟨first, h₂, rfl, hf₂⟩
      · exact .read hd g
      cases first with
      | false =>
        rcases Prog.Follows.call_iff.mp hf₂ with ⟨rfl, rfl⟩ | ⟨⟨⟩, h₃, rfl, hf₃⟩
        · exact .replay hd g
        · obtain ⟨rfl, rfl⟩ := Prog.Follows.pure_iff.mp hf₃
          exact .replayed hd g
      | true =>
        by_cases hc : g.clientId = clientId
        · by_cases hu : g.redirectUri = redirectUri
          · obtain ⟨rfl, rfl⟩ : h₂ = [] ∧ q = .pure (.redeemed (.ok g)) := by
              simpa [hc, hu, Prog.Follows.pure_iff] using hf₂
            exact .redeemed hd g hc hu
          · obtain ⟨rfl, rfl⟩ : h₂ = [] ∧ q = .pure (.redeemed (.error redirectMismatch)) := by
              simpa [hc, hu, Prog.Follows.pure_iff] using hf₂
            exact .mismatched hd g hc hu
        · replace hf₂ : Prog.Follows (.call (st.revokeCmd g.familyId) fun _ =>
              .pure (.redeemed (.error codeOfAnotherClient))) h₂ q := by
            simpa [hc, revokeFamily, revokeCmd, Prog.send] using hf₂
          rcases Prog.Follows.call_iff.mp hf₂ with ⟨rfl, rfl⟩ | ⟨⟨⟩, h₃, rfl, hf₃⟩
          · exact .foreign hd g hc
          · obtain ⟨rfl, rfl⟩ := Prog.Follows.pure_iff.mp hf₃
            exact .refused hd g hc

/-- The phases of `rotate_refresh_token`. -/
inductive RotatePhase (token clientId : String) (time : Int) (fresh : String) :
    List Event → RedisCmd ⊕ GrantOutcome → Prop
  | undigested {e : GrantError} (hd : st.digest token = .error e) :
      RotatePhase token clientId time fresh [] (.inr (.rotated (.error e)))
  | start {d : String} (hd : st.digest token = .ok d) :
      RotatePhase token clientId time fresh [] (.inl (.get (.refresh d)))
  | unknown {d : String} (hd : st.digest token = .ok d) :
      RotatePhase token clientId time fresh [⟨.get (.refresh d), none⟩]
        (.inr (.rotated (.error unknownToken)))
  | read {d : String} (hd : st.digest token = .ok d) (x : RefreshToken) :
      RotatePhase token clientId time fresh [⟨.get (.refresh d), some x⟩]
        (.inl (.exist (.familyRevoked x.familyId)))
  | revoked {d : String} (hd : st.digest token = .ok d) (x : RefreshToken) :
      RotatePhase token clientId time fresh
        [⟨.get (.refresh d), some x⟩, ⟨.exist (.familyRevoked x.familyId), true⟩]
        (.inr (.rotated (.error familyIsRevoked)))
  | current {d : String} (hd : st.digest token = .ok d) (x : RefreshToken) :
      RotatePhase token clientId time fresh
        [⟨.get (.refresh d), some x⟩, ⟨.exist (.familyRevoked x.familyId), false⟩]
        (.inl (.setNx (.refreshSpent d) () st.refreshLife))
  | replay {d : String} (hd : st.digest token = .ok d) (x : RefreshToken) :
      RotatePhase token clientId time fresh
        [⟨.get (.refresh d), some x⟩, ⟨.exist (.familyRevoked x.familyId), false⟩,
          ⟨.setNx (.refreshSpent d) () st.refreshLife, false⟩]
        (.inl (st.revokeCmd x.familyId))
  | replayed {d : String} (hd : st.digest token = .ok d) (x : RefreshToken) :
      RotatePhase token clientId time fresh
        [⟨.get (.refresh d), some x⟩, ⟨.exist (.familyRevoked x.familyId), false⟩,
          ⟨.setNx (.refreshSpent d) () st.refreshLife, false⟩, ⟨st.revokeCmd x.familyId, ()⟩]
        (.inr (.rotated (.error (tokenReplayed x))))
  | foreign {d : String} (hd : st.digest token = .ok d) (x : RefreshToken)
      (hc : x.clientId ≠ clientId) :
      RotatePhase token clientId time fresh
        [⟨.get (.refresh d), some x⟩, ⟨.exist (.familyRevoked x.familyId), false⟩,
          ⟨.setNx (.refreshSpent d) () st.refreshLife, true⟩]
        (.inl (st.revokeCmd x.familyId))
  | refused {d : String} (hd : st.digest token = .ok d) (x : RefreshToken)
      (hc : x.clientId ≠ clientId) :
      RotatePhase token clientId time fresh
        [⟨.get (.refresh d), some x⟩, ⟨.exist (.familyRevoked x.familyId), false⟩,
          ⟨.setNx (.refreshSpent d) () st.refreshLife, true⟩, ⟨st.revokeCmd x.familyId, ()⟩]
        (.inr (.rotated (.error tokenOfAnotherClient)))
  | undrawn {d : String} (hd : st.digest token = .ok d) (x : RefreshToken)
      (hc : x.clientId = clientId) {e : GrantError} (hf : st.digest fresh = .error e) :
      RotatePhase token clientId time fresh
        [⟨.get (.refresh d), some x⟩, ⟨.exist (.familyRevoked x.familyId), false⟩,
          ⟨.setNx (.refreshSpent d) () st.refreshLife, true⟩]
        (.inr (.rotated (.error e)))
  | won {d d' : String} (hd : st.digest token = .ok d) (x : RefreshToken)
      (hc : x.clientId = clientId) (hf : st.digest fresh = .ok d') :
      RotatePhase token clientId time fresh
        [⟨.get (.refresh d), some x⟩, ⟨.exist (.familyRevoked x.familyId), false⟩,
          ⟨.setNx (.refreshSpent d) () st.refreshLife, true⟩]
        (.inl (.set (.refresh d') (successor x time) st.refreshLife))
  | rotated {d d' : String} (hd : st.digest token = .ok d) (x : RefreshToken)
      (hc : x.clientId = clientId) (hf : st.digest fresh = .ok d') :
      RotatePhase token clientId time fresh
        [⟨.get (.refresh d), some x⟩, ⟨.exist (.familyRevoked x.familyId), false⟩,
          ⟨.setNx (.refreshSpent d) () st.refreshLife, true⟩,
          ⟨.set (.refresh d') (successor x time) st.refreshLife, ()⟩]
        (.inr (.rotated (.ok (fresh, successor x time))))

/-- **The phases of a rotation are all there are.** -/
theorem follows_rotateRefreshToken {token clientId fresh : String} {time : Int} {h : List Event}
    {q : RedisProg GrantOutcome}
    (hf : Prog.Follows (st.program (.rotateRefreshToken token clientId time fresh)) h q) :
    st.RotatePhase token clientId time fresh h q.head := by
  cases hd : st.digest token with
  | error e =>
    simp only [program, rotateRefreshToken, hd] at hf
    obtain ⟨rfl, rfl⟩ := Prog.Follows.pure_iff.mp hf
    exact .undigested hd
  | ok d =>
    simp only [program, rotateRefreshToken, hd] at hf
    rcases Prog.Follows.call_iff.mp hf with ⟨rfl, rfl⟩ | ⟨r, h₁, rfl, hf₁⟩
    · exact .start hd
    cases r with
    | none =>
      obtain ⟨rfl, rfl⟩ := Prog.Follows.pure_iff.mp hf₁
      exact .unknown hd
    | some x =>
      rcases Prog.Follows.call_iff.mp hf₁ with ⟨rfl, rfl⟩ | ⟨revoked, h₂, rfl, hf₂⟩
      · exact .read hd x
      cases revoked with
      | true =>
        obtain ⟨rfl, rfl⟩ := Prog.Follows.pure_iff.mp hf₂
        exact .revoked hd x
      | false =>
        rcases Prog.Follows.call_iff.mp hf₂ with ⟨rfl, rfl⟩ | ⟨first, h₃, rfl, hf₃⟩
        · exact .current hd x
        cases first with
        | false =>
          rcases Prog.Follows.call_iff.mp hf₃ with ⟨rfl, rfl⟩ | ⟨⟨⟩, h₄, rfl, hf₄⟩
          · exact .replay hd x
          · obtain ⟨rfl, rfl⟩ := Prog.Follows.pure_iff.mp hf₄
            exact .replayed hd x
        | true =>
          by_cases hc : x.clientId = clientId
          · cases hx : st.digest fresh with
            | error e =>
              obtain ⟨rfl, rfl⟩ : h₃ = [] ∧ q = .pure (.rotated (.error e)) := by
                simpa [hc, hx, issueRefreshToken, Except.map, Prog.Follows.pure_iff] using hf₃
              exact .undrawn hd x hc hx
            | ok d' =>
              replace hf₃ : Prog.Follows
                  (.call (.set (.refresh d') (successor x time) st.refreshLife) fun _ =>
                    .pure (.rotated (.ok (fresh, successor x time)))) h₃ q := by
                simpa [hc, hx, issueRefreshToken, Except.map, Prog.send] using hf₃
              rcases Prog.Follows.call_iff.mp hf₃ with ⟨rfl, rfl⟩ | ⟨⟨⟩, h₄, rfl, hf₄⟩
              · exact .won hd x hc hx
              · obtain ⟨rfl, rfl⟩ := Prog.Follows.pure_iff.mp hf₄
                exact .rotated hd x hc hx
          · replace hf₃ : Prog.Follows (.call (st.revokeCmd x.familyId) fun _ =>
                .pure (.rotated (.error tokenOfAnotherClient))) h₃ q := by
              simpa [hc, revokeFamily, revokeCmd, Prog.send] using hf₃
            rcases Prog.Follows.call_iff.mp hf₃ with ⟨rfl, rfl⟩ | ⟨⟨⟩, h₄, rfl, hf₄⟩
            · exact .foreign hd x hc
            · obtain ⟨rfl, rfl⟩ := Prog.Follows.pure_iff.mp hf₄
              exact .refused hd x hc

/-! ## The commands a call may issue -/

/-- The commands of the store, with the lifetimes it gives its keys. -/
def Permitted : RedisCmd → Prop
  | .set (.code _) _ ex => ex = st.codeLife
  | .set (.refresh _) _ ex => ex = st.refreshLife
  | .set (.familyRevoked _) _ ex => ex = st.refreshLife
  | .set _ _ _ => False
  | .setNx (.codeSpent _) _ ex => ex = st.codeLife
  | .setNx (.refreshSpent _) _ ex => ex = st.refreshLife
  | .setNx _ _ _ => False
  | .del _ => False
  | _ => True

/-- The commands that neither read, nor spend, nor issue a refresh token or spend a
code: what is left to the calls that are not enumerated above. -/
def Plain : RedisCmd → Prop
  | .set (.refresh _) _ _ => False
  | .setNx _ _ _ => False
  | .get _ => False
  | _ => True

theorem issueCode_only {P : RedisCmd → Prop} {g : AuthorizationCode} {code : String}
    (hset : ∀ d, P (.set (.code d) g st.codeLife)) (hadd : ∀ s m, P (.sadd s m))
    (hexp : ∀ s x, P (.expire s x)) : Prog.Only P (st.program (.issueCode g code)) := by
  refine Prog.Only.bind ?_ fun _ => trivial
  unfold issueCode
  cases st.digest code with
  | error e => trivial
  | ok d => exact ⟨hset d, fun _ => ⟨hadd _ _, fun _ => ⟨hexp _ _, fun _ => trivial⟩⟩⟩

theorem revokeSessionFamilies_only {P : RedisCmd → Prop} {sid : String}
    (hmem : ∀ s, P (.smembers s)) (hset : ∀ F, P (st.revokeCmd F)) (hdel : ∀ s, P (.delSet s)) :
    Prog.Only P (st.program (.revokeSessionFamilies sid)) := by
  refine Prog.Only.bind ?_ fun _ => trivial
  refine Prog.Only.bind ⟨hmem _, fun _ => trivial⟩ fun families => ?_
  refine Prog.Only.bind (Prog.Only.forEach (f := st.revokeFamily)
    (fun F => ⟨hset F, fun _ => trivial⟩) families) fun _ => ?_
  exact ⟨hdel _, fun _ => trivial⟩

/-- **No call issues anything else.** -/
theorem program_permitted (c : GrantCall) : Prog.Only st.Permitted (st.program c) := by
  cases c with
  | issueCode g code =>
    exact st.issueCode_only (fun _ => rfl) (fun _ _ => trivial) (fun _ _ => trivial)
  | redeemCode code clientId redirectUri =>
    refine Prog.Only.bind ?_ fun _ => trivial
    unfold redeemCode
    cases st.digest code with
    | error e => trivial
    | ok d =>
      refine ⟨trivial, fun raw => ?_⟩
      cases raw with
      | none => trivial
      | some g =>
        refine ⟨rfl, fun first => ?_⟩
        cases first with
        | false => exact ⟨rfl, fun _ => trivial⟩
        | true =>
          by_cases hc : g.clientId = clientId
          · by_cases hu : g.redirectUri = redirectUri <;> simp [hc, hu]
          · simp [hc, revokeFamily]
            exact Prog.Only.bind ((Prog.only_send _ _).mpr rfl) fun _ => trivial
  | issueRefreshToken x token =>
    refine Prog.Only.bind ?_ fun _ => trivial
    unfold issueRefreshToken
    cases st.digest token with
    | error e => trivial
    | ok d => exact ⟨rfl, fun _ => trivial⟩
  | rotateRefreshToken token clientId time fresh =>
    refine Prog.Only.bind ?_ fun _ => trivial
    unfold rotateRefreshToken
    cases st.digest token with
    | error e => trivial
    | ok d =>
      refine ⟨trivial, fun raw => ?_⟩
      cases raw with
      | none => trivial
      | some x =>
        refine ⟨trivial, fun revoked => ?_⟩
        cases revoked with
        | true => trivial
        | false =>
          refine ⟨rfl, fun first => ?_⟩
          cases first with
          | false => exact ⟨rfl, fun _ => trivial⟩
          | true =>
            by_cases hc : x.clientId = clientId
            · cases hf : st.digest fresh with
              | error e => simp [hc, hf, issueRefreshToken]
              | ok d' =>
                simp [hc, hf, issueRefreshToken]
                exact Prog.Only.bind ((Prog.only_send _ _).mpr rfl) fun _ => trivial
            · simp [hc, revokeFamily]
              exact Prog.Only.bind ((Prog.only_send _ _).mpr rfl) fun _ => trivial
  | revokeFamily F => exact ⟨rfl, fun _ => trivial⟩
  | revokeSessionFamilies sid =>
    exact st.revokeSessionFamilies_only (fun _ => trivial) (fun _ => rfl) (fun _ => trivial)

/-- A call that is neither a redemption, nor a rotation, nor the issue of a refresh
token executes plain commands only. -/
theorem program_plain {c : GrantCall} (hredeem : ∀ a b u, c ≠ .redeemCode a b u)
    (hrotate : ∀ a b t f, c ≠ .rotateRefreshToken a b t f)
    (hissue : ∀ x t, c ≠ .issueRefreshToken x t) : Prog.Only Plain (st.program c) := by
  cases c with
  | issueCode g code =>
    exact st.issueCode_only (fun _ => trivial) (fun _ _ => trivial) (fun _ _ => trivial)
  | redeemCode a b u => exact absurd rfl (hredeem a b u)
  | issueRefreshToken x t => exact absurd rfl (hissue x t)
  | rotateRefreshToken a b t f => exact absurd rfl (hrotate a b t f)
  | revokeFamily F => exact ⟨trivial, fun _ => trivial⟩
  | revokeSessionFamilies sid =>
    exact st.revokeSessionFamilies_only (fun _ => trivial) (fun _ => trivial) (fun _ => trivial)

theorem follows_issueRefreshToken {x : RefreshToken} {token : String} {h : List Event}
    {q : RedisProg GrantOutcome}
    (hf : Prog.Follows (st.program (.issueRefreshToken x token)) h q) :
    (h = [] ∧ ∃ e, q.head = .inr (.issued (.error e))) ∨
    ∃ d, (h = [] ∧ q.head = .inl (.set (.refresh d) x st.refreshLife)) ∨
      (h = [⟨.set (.refresh d) x st.refreshLife, ()⟩] ∧ q.head = .inr (.issued (.ok token))) := by
  cases hd : st.digest token with
  | error e =>
    simp only [program, issueRefreshToken, hd] at hf
    obtain ⟨rfl, rfl⟩ := Prog.Follows.pure_iff.mp hf
    exact Or.inl ⟨rfl, e, rfl⟩
  | ok d =>
    simp only [program, issueRefreshToken, hd] at hf
    rcases Prog.Follows.call_iff.mp hf with ⟨rfl, rfl⟩ | ⟨⟨⟩, h₁, rfl, hf₁⟩
    · exact Or.inr ⟨d, Or.inl ⟨rfl, rfl⟩⟩
    · obtain ⟨rfl, rfl⟩ := Prog.Follows.pure_iff.mp hf₁
      exact Or.inr ⟨d, Or.inr ⟨rfl, rfl⟩⟩

/-! ## Reading a history -/

section Histories

variable {st} {c : GrantCall} {h : List Event} {q : RedisProg GrantOutcome}

/-- **Who issues a refresh token**: the call that was asked to, or a rotation that has
spent its predecessor. -/
theorem follows_set_refresh (hf : Prog.Follows (st.program c) h q) {d : String} {x : RefreshToken}
    {ex : Int} (hq : q.head = .inl (.set (.refresh d) x ex)) :
    h = [] ∧ (∃ token, c = .issueRefreshToken x token) ∨
      ∃ d₀ x₀ time, x = successor x₀ time ∧
        h = [⟨.get (.refresh d₀), some x₀⟩, ⟨.exist (.familyRevoked x₀.familyId), false⟩,
          ⟨.setNx (.refreshSpent d₀) () st.refreshLife, true⟩] := by
  cases c with
  | redeemCode a b u =>
    have hp := st.follows_redeemCode hf
    rw [hq] at hp
    cases hp
  | rotateRefreshToken a b t f =>
    have hp := st.follows_rotateRefreshToken hf
    rw [hq] at hp
    cases hp with
    | won hd x₀ => exact Or.inr ⟨_, x₀, _, rfl, rfl⟩
  | issueRefreshToken y t =>
    rcases st.follows_issueRefreshToken hf with ⟨-, e, he⟩ | ⟨d', ⟨rfl, hd'⟩ | ⟨-, hd'⟩⟩
    · simp [hq] at he
    · rw [hq] at hd'
      cases hd'
      exact Or.inl ⟨rfl, t, rfl⟩
    · simp [hq] at hd'
  | _ =>
    have hp := hf.only_rest (st.program_plain (by simp) (by simp) (by simp))
    cases q with
    | pure a => simp at hq
    | call c' k =>
      obtain rfl : c' = _ := Sum.inl.inj hq
      exact hp.1.elim

theorem follows_redeemed (hf : Prog.Follows (st.program c) h q) {g : AuthorizationCode}
    (hq : q.head = .inr (.redeemed (.ok g))) :
    ∃ code clientId redirectUri d, c = .redeemCode code clientId redirectUri ∧
      st.digest code = .ok d ∧
      h = [⟨.get (.code d), some g⟩, ⟨.setNx (.codeSpent d) () st.codeLife, true⟩] := by
  cases c with
  | redeemCode a b u =>
    have hp := st.follows_redeemCode hf
    rw [hq] at hp
    cases hp with
    | redeemed hd => exact ⟨a, b, u, _, rfl, hd, rfl⟩
  | _ =>
    cases q with
    | call c' k => simp at hq
    | pure out =>
      obtain ⟨a, rfl⟩ := hf.returns_map
      simp at hq

theorem follows_rotated (hf : Prog.Follows (st.program c) h q) {y : String × RefreshToken}
    (hq : q.head = .inr (.rotated (.ok y))) :
    ∃ token clientId time fresh d, c = .rotateRefreshToken token clientId time fresh ∧
      st.digest token = .ok d ∧
      ⟨.setNx (.refreshSpent d) () st.refreshLife, true⟩ ∈ h := by
  cases c with
  | rotateRefreshToken a b t f =>
    have hp := st.follows_rotateRefreshToken hf
    rw [hq] at hp
    cases hp with
    | rotated hd => exact ⟨a, b, t, f, _, rfl, hd, by simp⟩
  | _ =>
    cases q with
    | call c' k => simp at hq
    | pure out =>
      obtain ⟨a, rfl⟩ := hf.returns_map
      simp at hq

theorem follows_wrote_once (hf : Prog.Follows (st.program c) h q) {d d' : String}
    {x x' : RefreshToken} {ex ex' : Int} (hx : ⟨.set (.refresh d) x ex, ()⟩ ∈ h)
    (hx' : ⟨.set (.refresh d') x' ex', ()⟩ ∈ h) : d = d' := by
  cases c with
  | redeemCode a b u =>
    have hp := st.follows_redeemCode hf
    generalize q.head = at_ at hp
    cases hp <;> simp [revokeCmd] at hx
  | rotateRefreshToken a b t f =>
    have hp := st.follows_rotateRefreshToken hf
    generalize q.head = at_ at hp
    cases hp <;> simp [revokeCmd] at hx hx'
    exact hx.1.trans hx'.1.symm
  | issueRefreshToken y t =>
    rcases st.follows_issueRefreshToken hf with ⟨rfl, -⟩ | ⟨d₀, ⟨rfl, -⟩ | ⟨rfl, -⟩⟩
    · simp at hx
    · simp at hx
    · simp at hx hx'
      exact hx.1.trans hx'.1.symm
  | _ =>
    have hp := hf.only_history (st.program_plain (by simp) (by simp) (by simp)) _ hx
    exact hp.elim

/-- **A replay ends by revoking the family it found**: a code whose spent marker was
already set. -/
theorem follows_code_replayed (hf : Prog.Follows (st.program c) h q) {out : GrantOutcome}
    (hq : q.head = .inr out) {d : String} {g : AuthorizationCode} {ex : Int}
    (hg : ⟨.get (.code d), some g⟩ ∈ h) (hs : ⟨.setNx (.codeSpent d) () ex, false⟩ ∈ h) :
    h.getLast? = some ⟨st.revokeCmd g.familyId, ()⟩ := by
  cases c with
  | redeemCode a b u =>
    have hp := st.follows_redeemCode hf
    rw [hq] at hp
    cases hp <;> simp [revokeCmd] at hg hs ⊢
    rw [hg.2]
  | rotateRefreshToken a b t f =>
    have hp := st.follows_rotateRefreshToken hf
    generalize q.head = at_ at hp
    cases hp <;> simp [revokeCmd] at hs
  | issueRefreshToken y t =>
    rcases st.follows_issueRefreshToken hf with ⟨rfl, -⟩ | ⟨d₀, ⟨rfl, -⟩ | ⟨rfl, -⟩⟩
    · simp at hs
    · simp at hs
    · simp at hs
  | _ =>
    have hp := hf.only_history (st.program_plain (by simp) (by simp) (by simp)) _ hs
    exact hp.elim

theorem follows_refresh_replayed (hf : Prog.Follows (st.program c) h q) {out : GrantOutcome}
    (hq : q.head = .inr out) {d : String} {x : RefreshToken} {ex : Int}
    (hx : ⟨.get (.refresh d), some x⟩ ∈ h) (hs : ⟨.setNx (.refreshSpent d) () ex, false⟩ ∈ h) :
    h.getLast? = some ⟨st.revokeCmd x.familyId, ()⟩ := by
  cases c with
  | redeemCode a b u =>
    have hp := st.follows_redeemCode hf
    generalize q.head = at_ at hp
    cases hp <;> simp [revokeCmd] at hs
  | rotateRefreshToken a b t f =>
    have hp := st.follows_rotateRefreshToken hf
    rw [hq] at hp
    cases hp <;> simp [revokeCmd] at hx hs ⊢
    rw [hx.2]
  | issueRefreshToken y t =>
    rcases st.follows_issueRefreshToken hf with ⟨rfl, -⟩ | ⟨d₀, ⟨rfl, -⟩ | ⟨rfl, -⟩⟩
    · simp at hs
    · simp at hs
    · simp at hs
  | _ =>
    have hp := hf.only_history (st.program_plain (by simp) (by simp) (by simp)) _ hs
    exact hp.elim

end Histories

end GrantStore
end CampusID
