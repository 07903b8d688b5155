import CampusID.Lib.Runs
import CampusID.Oidc.Lifetimes

/-!
# How long a revoked family stays revoked

Revoking a token family writes one marker, and the marker expires.  Whether the
family is dead *for good* is therefore a question about expiry instants: every
credential of the family must die no later than the marker that guards it.

A run here is a sequence of `GrantStore` calls as the token endpoint makes them,
with the clock moving forward between any two.  A successful redemption leaves a
grant *pending*: the endpoint goes on to issue the family's first refresh token,
or gives up when the PKCE check fails.  Tokens and family names are fresh when
they are drawn.

`rotate_refresh_token` consults the marker and `redeem_code` does not, so a code
that is in flight when its family is revoked is redeemed all the same, and the
refresh token issued for it outlives the marker.  Once nothing of the family is in
flight when it is revoked, revocation is permanent: `Dead` is the invariant that
says so, instant by instant, and `revocation_permanent` reads it off.
-/

namespace CampusID

open Lib

/-! ## Runs of the store -/

/-- The store in use: Redis, the clock, the grants that have been redeemed and
whose first refresh token is still to be issued, and the family names drawn so
far. -/
structure GrantState where
  redis : Redis
  now : Int
  pending : List AuthorizationCode
  named : List String

/-- One step of a run: the clock moves, the token endpoint gives up on a redeemed
grant, or a call is made. -/
inductive GrantOp where
  | tick (elapsed : Int)
  | abandon (grant : AuthorizationCode)
  | call (c : GrantCall)

namespace GrantStore

variable (st : GrantStore)

/-- The state before anything was issued. -/
def initial (now : Int) : GrantState := ⟨Store.empty, now, [], []⟩

/-- The grants awaiting their first refresh token after a call. -/
def pendingAfter (pending : List AuthorizationCode) : GrantCall → GrantOutcome →
    List AuthorizationCode
  | .redeemCode _ _ _, .redeemed (.ok g) => g :: pending
  | .issueRefreshToken x _, .issued (.ok _) => pending.filter (·.familyId ≠ x.familyId)
  | _, _ => pending

/-- The family names drawn after a call. -/
def namedAfter (named : List String) : GrantCall → List String
  | .issueCode g _ => g.familyId :: named
  | _ => named

/-- One step. -/
def step (s : GrantState) : GrantOp → GrantState
  | .tick elapsed => { s with now := s.now + elapsed }
  | .abandon g => { s with pending := s.pending.erase g }
  | .call c =>
    let ended := Redis.run s.now (st.program c) s.redis
    { redis := ended.2
      now := s.now
      pending := pendingAfter s.pending c ended.1
      named := namedAfter s.named c }

/-- A token just drawn: it has a digest, and no record was ever stored under it. -/
def FreshToken (s : GrantState) (token : String) : Prop :=
  ∃ d, st.digest token = .ok d ∧ s.redis.strings (.code d) = none ∧
    s.redis.strings (.refresh d) = none

/-- A family name just drawn: no code carries it and it was never revoked. -/
def FreshFamily (s : GrantState) (familyId : String) : Prop :=
  familyId ∉ s.named ∧ s.redis.strings (.familyRevoked familyId) = none

/-- The steps callers take: the clock does not run backwards, what is drawn is
fresh, and a first refresh token is issued for a grant that was redeemed. -/
def Allowed (s : GrantState) : GrantOp → Prop
  | .tick elapsed => 0 ≤ elapsed
  | .call (.issueCode g code) => st.FreshToken s code ∧ FreshFamily s g.familyId
  | .call (.issueRefreshToken x token) =>
    st.FreshToken s token ∧ ∃ g ∈ s.pending, ∃ t, x = firstRefresh g t
  | .call (.rotateRefreshToken _ _ _ fresh) => st.FreshToken s fresh
  | _ => True

/-- The step executes `revoke_family` on `F`: directly, for a session, or because a
replay or a foreign client was detected. -/
def Revokes (s : GrantState) (F : String) : GrantOp → Prop
  | .call c => Redis.Issues s.now (st.program c) s.redis (st.revokeCmd F)
  | _ => False

/-- The call is a redemption or a rotation of a credential of family `F`, and it
succeeds. -/
def SucceedsFor (s : GrantState) (F : String) (c : GrantCall) : Prop :=
  match (Redis.run s.now (st.program c) s.redis).1 with
  | .redeemed (.ok g) => g.familyId = F
  | .rotated (.ok x) => x.2.familyId = F
  | _ => False

/-- The state after a run. -/
def after (now : Int) (ops : List GrantOp) : GrantState := ops.foldl st.step (initial now)

/-- **Permanence**: wherever a step of the run revoked a family, no redemption or
rotation of that family succeeds once the run is over. -/
def Permanent (now : Int) (ops : List GrantOp) : Prop :=
  ∀ pre op post, ops = pre ++ op :: post → ∀ F, st.Revokes (st.after now pre) F op →
    ∀ c, ¬ st.SucceedsFor (st.after now ops) F c

/-! ## What is in flight -/

/-- The digest of the code a call presents. -/
def presented : GrantCall → Option String
  | .redeemCode code _ _ => (st.digest code).toOption
  | _ => none

/-- Something of family `F`, other than the code `c` itself presents, is on its way
to becoming a refresh token: an unexpired and unspent code, or a redeemed grant
whose refresh token is still to be issued. -/
def InFlight (s : GrantState) (c : GrantCall) (F : String) : Prop :=
  (∃ d g, st.presented c ≠ some d ∧ s.redis.strings.live s.now (.code d) = some g ∧
    g.familyId = F ∧ s.redis.strings.live s.now (.codeSpent d) = none) ∨
  ∃ g ∈ s.pending, g.familyId = F

/-- A step revokes only families of which nothing is in flight. -/
def Settled (s : GrantState) : GrantOp → Prop
  | .call c => ∀ F, st.Revokes s F (.call c) → ¬ st.InFlight s c F
  | _ => True

/-! ## A dead family -/

/-- **Family `F` is dead**: its name is taken, none of its grants is pending, every
code of it is expired or spent until it expires, and every refresh token of it is
expired or covered by the marker until it expires. -/
structure Dead (F : String) (m : Table Key Key.Value Int) (now : Int)
    (pending : List AuthorizationCode) (named : List String) : Prop where
  known : F ∈ named ∨ m (.familyRevoked F) ≠ none
  pending : ∀ g ∈ pending, g.familyId ≠ F
  code : ∀ d g t, m (.code d) = some ⟨g, some t⟩ → g.familyId = F →
    t ≤ now ∨ ∃ u, m (.codeSpent d) = some ⟨(), some u⟩ ∧ t ≤ u
  refresh : ∀ d r t, m (.refresh d) = some ⟨r, some t⟩ → r.familyId = F →
    t ≤ now ∨ ∃ u, m (.familyRevoked F) = some ⟨(), some u⟩ ∧ t ≤ u

namespace Dead

variable {st} {F : String} {m : Table Key Key.Value Int} {now : Int}
  {pending : List AuthorizationCode} {named : List String}

theorem spent_of_live (h : Dead F m now pending named) {d : String} {g : AuthorizationCode}
    (he : st.Expiries m now) (hd : m.live now (.code d) = some g) (hF : g.familyId = F) :
    m.live now (.codeSpent d) = some () := by
  obtain ⟨x, hx, hl⟩ := Table.live_eq_some.mp hd
  obtain ⟨t, rfl, -⟩ : ∃ t, x = some t ∧ _ := he.code.dies d _ hx
  rw [Entry.live_some] at hl
  rcases h.code d g t hx hF with hle | ⟨u, hu, hle⟩
  · omega
  · exact Table.live_eq_some.mpr ⟨_, hu, Entry.live_some.mpr (by omega)⟩

theorem marker_of_live (h : Dead F m now pending named) {d : String} {r : RefreshToken}
    (he : st.Expiries m now) (hd : m.live now (.refresh d) = some r) (hF : r.familyId = F) :
    m.live now (.familyRevoked F) = some () := by
  obtain ⟨x, hx, hl⟩ := Table.live_eq_some.mp hd
  obtain ⟨t, rfl, -⟩ : ∃ t, x = some t ∧ _ := he.refresh.dies d _ hx
  rw [Entry.live_some] at hl
  rcases h.refresh d r t hx hF with hle | ⟨u, hu, hle⟩
  · omega
  · exact Table.live_eq_some.mpr ⟨_, hu, Entry.live_some.mpr (by omega)⟩

theorem tick (h : Dead F m now pending named) {d : Int} (hd : 0 ≤ d) :
    Dead F m (now + d) pending named := by
  refine ⟨h.known, h.pending, fun k g t hx hF => ?_, fun k r t hx hF => ?_⟩
  · rcases h.code k g t hx hF with hle | hu
    · exact Or.inl (by omega)
    · exact Or.inr hu
  · rcases h.refresh k r t hx hF with hle | hu
    · exact Or.inl (by omega)
    · exact Or.inr hu

theorem pending_mono (h : Dead F m now pending named) {pending' : List AuthorizationCode}
    (hp : ∀ g ∈ pending', g.familyId ≠ F) : Dead F m now pending' named :=
  ⟨h.known, hp, h.code, h.refresh⟩

theorem named_mono (h : Dead F m now pending named) {named' : List String}
    (hn : ∀ G ∈ named, G ∈ named') : Dead F m now pending named' :=
  ⟨h.known.imp_left (hn F), h.pending, h.code, h.refresh⟩

theorem congr (h : Dead F m now pending named) {m' : Table Key Key.Value Int}
    (hc : ∀ d, m' (.code d) = m (.code d)) (hcs : ∀ d, m' (.codeSpent d) = m (.codeSpent d))
    (hr : ∀ d, m' (.refresh d) = m (.refresh d))
    (hm : m' (.familyRevoked F) = m (.familyRevoked F)) : Dead F m' now pending named := by
  refine ⟨?_, h.pending, fun d g t hx hF => ?_, fun d r t hx hF => ?_⟩
  · rw [hm]
    exact h.known
  · rw [hc] at hx
    rw [hcs]
    exact h.code d g t hx hF
  · rw [hr] at hx
    rw [hm]
    exact h.refresh d r t hx hF

theorem putCode (h : Dead F m now pending named) {d : String} {g : AuthorizationCode}
    (hF : g.familyId ≠ F) (x : Option Int) : Dead F (m.put (.code d) g x) now pending named := by
  refine ⟨h.known.imp_right fun hm => ?_, h.pending, fun k g' t hx hF' => ?_, fun k r t hx hF' => ?_⟩
  · rwa [Table.put_of_ne _ (by simp)]
  · rw [Table.put_of_ne _ (by simp : Key.codeSpent k ≠ Key.code d)]
    by_cases hk : k = d
    · subst hk
      rw [Table.put_self] at hx
      obtain ⟨rfl, -⟩ : g = g' ∧ x = some t := by simpa using hx
      exact absurd hF' hF
    · rw [Table.put_of_ne _ (by simpa using hk)] at hx
      exact h.code k g' t hx hF'
  · rw [Table.put_of_ne _ (by simp)] at hx ⊢
    exact h.refresh k r t hx hF'

theorem putRefresh (h : Dead F m now pending named) {d : String} {r : RefreshToken}
    (hF : r.familyId ≠ F) (x : Option Int) : Dead F (m.put (.refresh d) r x) now pending named := by
  refine ⟨h.known.imp_right fun hm => ?_, h.pending, fun k g t hx hF' => ?_, fun k r' t hx hF' => ?_⟩
  · rwa [Table.put_of_ne _ (by simp)]
  · rw [Table.put_of_ne _ (by simp)] at hx ⊢
    exact h.code k g t hx hF'
  · rw [Table.put_of_ne _ (by simp : Key.familyRevoked F ≠ Key.refresh d)]
    by_cases hk : k = d
    · subst hk
      rw [Table.put_self] at hx
      obtain ⟨rfl, -⟩ : r = r' ∧ x = some t := by simpa using hx
      exact absurd hF' hF
    · rw [Table.put_of_ne _ (by simpa using hk)] at hx
      exact h.refresh k r' t hx hF'

theorem spendCode (h : Dead F m now pending named) {d : String} {g : AuthorizationCode}
    {x : Option Int} (hd : m (.code d) = some ⟨g, x⟩) (hF : g.familyId ≠ F) (y : Option Int) :
    Dead F (m.put (.codeSpent d) () y) now pending named := by
  refine ⟨h.known.imp_right fun hm => ?_, h.pending, fun k g' t hx hF' => ?_, fun k r t hx hF' => ?_⟩
  · rwa [Table.put_of_ne _ (by simp)]
  · rw [Table.put_of_ne _ (by simp)] at hx
    by_cases hk : k = d
    · subst hk
      obtain ⟨rfl, -⟩ : g = g' ∧ x = some t := by simpa using hd.symm.trans hx
      exact absurd hF' hF
    · rw [Table.put_of_ne _ (by simpa using hk)]
      exact h.code k g' t hx hF'
  · rw [Table.put_of_ne _ (by simp)] at hx ⊢
    exact h.refresh k r t hx hF'

theorem spendRefresh (h : Dead F m now pending named) (d : String) (y : Option Int) :
    Dead F (m.put (.refreshSpent d) () y) now pending named := by
  refine ⟨h.known.imp_right fun hm => ?_, h.pending, fun k g t hx hF' => ?_, fun k r t hx hF' => ?_⟩
  · rwa [Table.put_of_ne _ (by simp)]
  · rw [Table.put_of_ne _ (by simp)] at hx ⊢
    exact h.code k g t hx hF'
  · rw [Table.put_of_ne _ (by simp)] at hx ⊢
    exact h.refresh k r t hx hF'

/-- Revoking any family keeps a dead one dead: a marker is only ever pushed into
the future. -/
theorem mark (h : Dead F m now pending named) (he : st.Expiries m now) (G : String) :
    Dead F (m.put (.familyRevoked G) () (some (now + st.refreshLife))) now pending named := by
  refine ⟨h.known.imp_right fun hm => ?_, h.pending, fun k g t hx hF' => ?_, fun k r t hx hF' => ?_⟩
  · by_cases hG : F = G
    · subst hG
      simp
    · rwa [Table.put_of_ne _ (by simpa using hG)]
  · rw [Table.put_of_ne _ (by simp)] at hx ⊢
    exact h.code k g t hx hF'
  · rw [Table.put_of_ne _ (by simp)] at hx
    by_cases hG : F = G
    · subst hG
      obtain ⟨u, hu, hle⟩ := he.refresh.dies k _ hx
      obtain rfl : t = u := Option.some.inj hu
      exact Or.inr ⟨_, Table.put_self _ _ _ _, hle⟩
    · rw [Table.put_of_ne _ (by simpa using hG)]
      exact h.refresh k r t hx hF'

/-- A family whose marker was written just now is dead, if none of its grants is
pending and each of its codes has expired or was spent at some time. -/
theorem of_marker (he : st.Expiries m now)
    (hm : m (.familyRevoked F) = some ⟨(), some (now + st.refreshLife)⟩)
    (hp : ∀ g ∈ pending, g.familyId ≠ F)
    (hc : ∀ d g t, m (.code d) = some ⟨g, some t⟩ → g.familyId = F →
      t ≤ now ∨ m (.codeSpent d) ≠ none) : Dead F m now pending named := by
  refine ⟨Or.inr (by simp [hm]), hp, fun d g t hx hF => ?_, fun d r t hx _ => ?_⟩
  · rcases hc d g t hx hF with hle | hs
    · exact Or.inl hle
    · obtain ⟨⟨_, y⟩, hy⟩ := Option.ne_none_iff_exists'.mp hs
      obtain ⟨e, t', u, he', ht', hu, hle⟩ := he.code.outlives d _ hy
      obtain rfl : e = ⟨g, some t⟩ := Option.some.inj (he'.symm.trans hx)
      obtain rfl : t = t' := Option.some.inj ht'
      obtain rfl : y = some u := hu
      exact Or.inr ⟨u, hy, hle⟩
  · obtain ⟨u, hu, hle⟩ := he.refresh.dies d _ hx
    obtain rfl : t = u := Option.some.inj hu
    exact Or.inr ⟨_, hm, hle⟩

end Dead

/-! ## Steps and runs -/

section Steps

variable {st}

theorem codeSpentAt_strings (now : Int) (r : Redis) (d : String) :
    (st.codeSpentAt now r d).strings = r.strings.put (.codeSpent d) () (some (now + st.codeLife)) :=
  rfl

theorem refreshSpentAt_strings (now : Int) (r : Redis) (d : String) :
    (st.refreshSpentAt now r d).strings =
      r.strings.put (.refreshSpent d) () (some (now + st.refreshLife)) :=
  rfl

theorem stored_of_live {m : Table Key Key.Value Int} {now : Int} {k : Key} {v : k.Value}
    (h : m.live now k = some v) : m k ≠ none := by
  obtain ⟨x, hx, -⟩ := Table.live_eq_some.mp h
  simp [hx]

theorem expiries_markedAll {now : Int} {r : Redis} (h : st.Expiries r.strings now)
    (families : List String) : st.Expiries (st.markedAll now r families).strings now := by
  induction families generalizing r with
  | nil => exact h
  | cons F fs ih => exact ih (h.mark F _)

theorem dead_markedAll {F : String} {now : Int} {r : Redis} {pending : List AuthorizationCode}
    {named : List String} (h : Dead F r.strings now pending named)
    (he : st.Expiries r.strings now) (families : List String) :
    Dead F (st.markedAll now r families).strings now pending named := by
  induction families generalizing r with
  | nil => exact h
  | cons G fs ih => exact ih (h.mark he G) (he.mark G _)

theorem effect_expiries {s : GrantState} {c : GrantCall} {out : GrantOutcome} {r' : Redis}
    {fs : List String} (ha : st.Allowed s (.call c)) (h : st.Effect s.now s.redis c out r' fs)
    (he : st.Expiries s.redis.strings s.now) : st.Expiries r'.strings s.now := by
  cases h with
  | unissued => exact he
  | unredeemed => exact he
  | unrotated => exact he
  | @issuedCode g code d hd =>
    obtain ⟨⟨d', hd', hfresh, -⟩, -⟩ := ha
    obtain rfl : d = d' := Except.ok.inj (hd.symm.trans hd')
    rw [codeIssuedAt_strings]
    exact he.putCode hfresh g
  | replayedCode => exact he.mark _ _
  | foreignCode _ _ _ hg _ => exact (he.spendCode (stored_of_live hg)).mark _ _
  | mismatchedCode _ _ _ hg _ => exact he.spendCode (stored_of_live hg)
  | redeemed _ _ _ hg _ => exact he.spendCode (stored_of_live hg)
  | @issuedRefresh x token d hd =>
    obtain ⟨⟨d', hd', -, hfresh⟩, -⟩ := ha
    obtain rfl : d = d' := Except.ok.inj (hd.symm.trans hd')
    exact he.putRefresh hfresh x
  | replayedRefresh => exact he.mark _ _
  | foreignRefresh _ _ _ _ hx => exact (he.spendRefresh (stored_of_live hx)).mark _ _
  | undrawn _ _ _ _ _ _ hx => exact he.spendRefresh (stored_of_live hx)
  | @rotated token d fresh d' x _ _ _ hf hx _ _ =>
    obtain ⟨d'', hd'', -, hfresh⟩ := ha
    obtain rfl : d' = d'' := Except.ok.inj (hf.symm.trans hd'')
    refine (he.spendRefresh (stored_of_live hx)).putRefresh ?_ _
    rw [Table.put_of_ne _ (by simp)]
    exact hfresh
  | revokedFamily F => exact he.mark F _
  | revokedSession => exact expiries_markedAll he fs

theorem mem_namedAfter {named : List String} {G : String} (h : G ∈ named) (c : GrantCall) :
    G ∈ namedAfter named c := by
  cases c with
  | issueCode g code => exact List.mem_cons_of_mem _ h
  | _ => exact h

theorem effect_dead {F : String} {s : GrantState} {c : GrantCall} {out : GrantOutcome}
    {r' : Redis} {fs : List String} (ha : st.Allowed s (.call c))
    (h : st.Effect s.now s.redis c out r' fs) (he : st.Expiries s.redis.strings s.now)
    (hF : Dead F s.redis.strings s.now s.pending s.named) :
    Dead F r'.strings s.now (pendingAfter s.pending c out) (namedAfter s.named c) := by
  cases h with
  | unissued c =>
    exact (hF.pending_mono (by cases c <;> exact hF.pending)).named_mono
      fun _ hG => mem_namedAfter hG c
  | unredeemed c =>
    exact (hF.pending_mono (by cases c <;> exact hF.pending)).named_mono
      fun _ hG => mem_namedAfter hG c
  | unrotated c =>
    exact (hF.pending_mono (by cases c <;> exact hF.pending)).named_mono
      fun _ hG => mem_namedAfter hG c
  | @issuedCode g code d hd =>
    -- the name of a new family was never drawn or revoked, so it is not the dead one
    obtain ⟨-, hnamed, hmark⟩ := ha
    have hne : g.familyId ≠ F := by
      rintro rfl
      exact hF.known.elim hnamed fun hm => hm hmark
    rw [codeIssuedAt_strings]
    exact (hF.putCode hne _).named_mono fun _ hG => List.mem_cons_of_mem _ hG
  | replayedCode => exact hF.mark he _
  | @foreignCode code d g _ _ _ hg hs =>
    have hne : g.familyId ≠ F := by
      intro hgF
      simp [hF.spent_of_live he hg hgF] at hs
    obtain ⟨x, hx, -⟩ := Table.live_eq_some.mp hg
    exact (hF.spendCode hx hne _).mark (he.spendCode (stored_of_live hg)) _
  | @mismatchedCode code d g _ _ _ hg hs =>
    have hne : g.familyId ≠ F := by
      intro hgF
      simp [hF.spent_of_live he hg hgF] at hs
    obtain ⟨x, hx, -⟩ := Table.live_eq_some.mp hg
    exact hF.spendCode hx hne _
  | @redeemed code d g _ _ _ hg hs =>
    have hne : g.familyId ≠ F := by
      intro hgF
      simp [hF.spent_of_live he hg hgF] at hs
    obtain ⟨x, hx, -⟩ := Table.live_eq_some.mp hg
    refine (hF.spendCode hx hne _).pending_mono fun g' hg' => ?_
    rcases List.mem_cons.mp hg' with rfl | hmem
    · exact hne
    · exact hF.pending g' hmem
  | issuedRefresh x hd =>
    obtain ⟨-, g, hg, t, rfl⟩ := ha
    refine (hF.putRefresh (hF.pending g hg) _).pending_mono fun g' hg' => ?_
    exact hF.pending g' (List.mem_of_mem_filter hg')
  | replayedRefresh => exact hF.mark he _
  | foreignRefresh _ _ _ _ hx =>
    exact (hF.spendRefresh _ _).mark (he.spendRefresh (stored_of_live hx)) _
  | undrawn => exact hF.spendRefresh _ _
  | @rotated token d fresh d' x _ _ _ _ hx hm _ =>
    have hne : x.familyId ≠ F := by
      rintro rfl
      simp [hF.marker_of_live he hx rfl] at hm
    exact (hF.spendRefresh _ _).putRefresh (r := successor x _) hne _
  | revokedFamily G => exact hF.mark he G
  | revokedSession => exact dead_markedAll hF he fs

/-- **Revoking a settled family kills it.** -/
theorem effect_kills {F : String} {s : GrantState} {c : GrantCall} {out : GrantOutcome}
    {r' : Redis} {fs : List String} (ha : st.Allowed s (.call c))
    (h : st.Effect s.now s.redis c out r' fs) (he : st.Expiries s.redis.strings s.now)
    (hF : F ∈ fs) (hin : ¬ st.InFlight s c F) :
    Dead F r'.strings s.now (pendingAfter s.pending c out) (namedAfter s.named c) := by
  have he' := effect_expiries ha h he
  have hpend : ∀ g ∈ s.pending, g.familyId ≠ F := fun g hg hgF => hin (Or.inr ⟨g, hg, hgF⟩)
  -- a code other than the presented one that was not spent had expired
  have hcode : ∀ d g t, st.presented c ≠ some d → s.redis.strings (.code d) = some ⟨g, some t⟩ →
      g.familyId = F → t ≤ s.now ∨ s.redis.strings (.codeSpent d) ≠ none := by
    intro d g t hd hg hgF
    by_contra hcon
    obtain ⟨ht, hs⟩ := not_or.mp hcon
    refine hin (Or.inl ⟨d, g, hd, ?_, hgF, ?_⟩)
    · exact Table.live_eq_some.mpr ⟨_, hg, Entry.live_some.mpr (not_le.mp ht)⟩
    · exact Table.live_eq_none.mpr fun e hse => absurd (by simp [hse]) hs
  cases h with
  | unissued => simp at hF
  | unredeemed => simp at hF
  | unrotated => simp at hF
  | issuedCode => simp at hF
  | @replayedCode code d g _ _ hd hg hs =>
    obtain rfl : F = g.familyId := by simpa using hF
    refine Dead.of_marker he' (by simp) hpend fun k g' t hk hgF => ?_
    rw [marked_strings, Table.put_of_ne _ (by simp)] at hk
    rw [marked_strings, Table.put_of_ne _ (by simp)]
    by_cases hkd : k = d
    · subst hkd
      exact Or.inr (stored_of_live hs)
    · exact hcode k g' t (by simpa [presented, hd, Except.toOption] using Ne.symm hkd) hk hgF
  | @foreignCode code d g _ _ hd hg hs =>
    obtain rfl : F = g.familyId := by simpa using hF
    refine Dead.of_marker he' (by simp) hpend fun k g' t hk hgF => ?_
    rw [marked_strings, codeSpentAt_strings, Table.put_of_ne _ (by simp),
      Table.put_of_ne _ (by simp)] at hk
    rw [marked_strings, codeSpentAt_strings, Table.put_of_ne _ (by simp)]
    by_cases hkd : k = d
    · subst hkd
      exact Or.inr (by simp)
    · rw [Table.put_of_ne _ (by simpa using hkd)]
      exact hcode k g' t (by simpa [presented, hd, Except.toOption] using Ne.symm hkd) hk hgF
  | mismatchedCode => simp at hF
  | redeemed => simp at hF
  | issuedRefresh => simp at hF
  | @replayedRefresh token d x _ _ _ hd hx hs =>
    obtain rfl : F = x.familyId := by simpa using hF
    refine Dead.of_marker he' (by simp) hpend fun k g' t hk hgF => ?_
    rw [marked_strings, Table.put_of_ne _ (by simp)] at hk
    rw [marked_strings, Table.put_of_ne _ (by simp)]
    exact hcode k g' t (by simp [presented]) hk hgF
  | @foreignRefresh token d x _ _ _ hd hx =>
    obtain rfl : F = x.familyId := by simpa using hF
    refine Dead.of_marker he' (by simp) hpend fun k g' t hk hgF => ?_
    rw [marked_strings, refreshSpentAt_strings, Table.put_of_ne _ (by simp),
      Table.put_of_ne _ (by simp)] at hk
    rw [marked_strings, refreshSpentAt_strings, Table.put_of_ne _ (by simp),
      Table.put_of_ne _ (by simp)]
    exact hcode k g' t (by simp [presented]) hk hgF
  | undrawn => simp at hF
  | rotated => simp at hF
  | revokedFamily G =>
    obtain rfl : F = G := by simpa using hF
    refine Dead.of_marker he' (by simp) hpend fun k g' t hk hgF => ?_
    rw [marked_strings, Table.put_of_ne _ (by simp)] at hk
    rw [marked_strings, Table.put_of_ne _ (by simp)]
    exact hcode k g' t (by simp [presented]) hk hgF
  | revokedSession =>
    refine Dead.of_marker he' ?_ hpend fun k g' t hk hgF => ?_
    · show (st.markedAll s.now s.redis fs).strings _ = _
      rw [markedAll_familyRevoked, if_pos hF]
    · replace hk : (st.markedAll s.now s.redis fs).strings (.code k) = _ := hk
      rw [markedAll_strings_of_ne _ _ _ _ (by simp)] at hk
      show _ ∨ (st.markedAll s.now s.redis fs).strings (.codeSpent k) ≠ none
      rw [markedAll_strings_of_ne _ _ _ _ (by simp)]
      exact hcode k g' t (by simp [presented]) hk hgF

theorem step_expiries {s : GrantState} {op : GrantOp} (ha : st.Allowed s op)
    (he : st.Expiries s.redis.strings s.now) :
    st.Expiries (st.step s op).redis.strings (st.step s op).now := by
  cases op with
  | tick elapsed => exact he.later (le_add_of_nonneg_right ha)
  | abandon g => exact he
  | call c =>
    obtain ⟨out, r', fs, hends, heff⟩ := st.program_effect s.now s.redis c
    have he' := effect_expiries ha heff he
    simpa [step, hends.run] using he'

theorem step_dead {F : String} {s : GrantState} {op : GrantOp} (ha : st.Allowed s op)
    (he : st.Expiries s.redis.strings s.now) (hF : Dead F s.redis.strings s.now s.pending s.named) :
    Dead F (st.step s op).redis.strings (st.step s op).now (st.step s op).pending
      (st.step s op).named := by
  cases op with
  | tick elapsed => exact hF.tick ha
  | abandon g => exact hF.pending_mono fun g' hg' => hF.pending g' (List.mem_of_mem_erase hg')
  | call c =>
    obtain ⟨out, r', fs, hends, heff⟩ := st.program_effect s.now s.redis c
    have hd := effect_dead ha heff he hF
    simpa [step, hends.run] using hd

theorem step_kills_of_not_inFlight {F : String} {s : GrantState} {c : GrantCall}
    (ha : st.Allowed s (.call c)) (he : st.Expiries s.redis.strings s.now)
    (hrev : st.Revokes s F (.call c)) (hin : ¬ st.InFlight s c F) :
    Dead F (st.step s (.call c)).redis.strings (st.step s (.call c)).now
      (st.step s (.call c)).pending (st.step s (.call c)).named := by
  obtain ⟨out, r', fs, hends, heff⟩ := st.program_effect s.now s.redis c
  have hd := effect_kills ha heff he ((hends.revokes F).mp hrev) hin
  simpa [step, hends.run] using hd

theorem step_kills {F : String} {s : GrantState} {op : GrantOp} (ha : st.Allowed s op)
    (hset : st.Settled s op) (he : st.Expiries s.redis.strings s.now)
    (hrev : st.Revokes s F op) :
    Dead F (st.step s op).redis.strings (st.step s op).now (st.step s op).pending
      (st.step s op).named := by
  cases op with
  | tick elapsed => exact hrev.elim
  | abandon g => exact hrev.elim
  | call c => exact step_kills_of_not_inFlight ha he hrev (hset F hrev)

/-- **Nothing of a dead family succeeds.** -/
theorem not_succeedsFor_of_dead {F : String} {s : GrantState}
    (he : st.Expiries s.redis.strings s.now) (hF : Dead F s.redis.strings s.now s.pending s.named)
    (c : GrantCall) : ¬ st.SucceedsFor s F c := by
  obtain ⟨out, r', fs, hends, heff⟩ := st.program_effect s.now s.redis c
  unfold SucceedsFor
  rw [hends.run]
  cases heff with
  | @redeemed code d g _ _ _ hg hs =>
    intro hgF
    simp [hF.spent_of_live he hg hgF] at hs
  | @rotated token d fresh d' x _ _ _ _ hx hm _ =>
    intro hxF
    obtain rfl : x.familyId = F := hxF
    simp [hF.marker_of_live he hx rfl] at hm
  | _ => exact not_false

end Steps

/-- **Revocation is permanent when nothing of the family is in flight.**  In every run
of the store whose revoking steps find no unexpired, unspent code of the family and
no redeemed grant still to get its refresh token, a revoked family stays revoked:
no later redemption or rotation of one of its credentials succeeds, at any time. -/
theorem revocation_permanent {now : Int} {ops : List GrantOp} {s : GrantState}
    (h : Run (fun s op => st.Allowed s op ∧ st.Settled s op) st.step (initial now) ops s) :
    st.Permanent now ops := by
  rintro pre op post rfl F hrev c
  have hafter : s = st.after now (pre ++ op :: post) := h.eq_foldl
  -- the ordering of expiries holds throughout; death from the revoking step on
  obtain ⟨he, hF⟩ := h.after (I := fun s => st.Expiries s.redis.strings s.now)
    (Q := fun s => Dead F s.redis.strings s.now s.pending s.named)
    (fun s o hi ha => step_expiries ha.1 hi)
    (fun s o hi hq ha => step_dead ha.1 hi hq)
    (fun m hi hpre ha => by
      obtain rfl : m = st.after now pre := hpre.eq_foldl
      exact step_kills ha.1 ha.2 hi hrev)
    (Expiries.empty now)
  rw [← hafter]
  exact not_succeedsFor_of_dead he hF c

theorem not_revokes_of_ok {s : GrantState} {c : GrantCall}
    (h : match (Redis.run s.now (st.program c) s.redis).1 with
      | .issued (.ok _) | .redeemed (.ok _) | .rotated (.ok _) => True
      | _ => False) (F : String) : ¬ st.Revokes s F (.call c) := by
  obtain ⟨out, r', fs, hends, heff⟩ := st.program_effect s.now s.redis c
  rw [hends.run] at h
  intro hrev
  have hF := (hends.revokes F).mp hrev
  cases heff <;> simp_all

/-! ## A code in flight -/

/-- The user logs out between the authorization and the token endpoint. -/
def logoutInFlight : List GrantOp :=
  [.call (.issueCode sampleGrant "c1"), .call (.revokeSessionFamilies "s1")]

/-- **A code redeemed after its family was revoked.**  `redeem_code` does not look at
the family's marker. -/
theorem revocation_not_permanent :
    ¬ ∀ (st : GrantStore) (now : Int) (ops : List GrantOp) (s : GrantState),
      Run st.Allowed st.step (initial now) ops s → st.Permanent now ops := by
  intro h
  have hfresh : sampleStore.Allowed (initial 0) (.call (.issueCode sampleGrant "c1")) :=
    ⟨⟨"c1", rfl, rfl, rfl⟩, by simp [initial], rfl⟩
  have hrun : Run sampleStore.Allowed sampleStore.step (initial 0) logoutInFlight
      (sampleStore.after 0 logoutInFlight) := .cons hfresh (.cons trivial (.nil _))
  have hrev : sampleStore.Revokes (sampleStore.after 0 [.call (.issueCode sampleGrant "c1")]) "f1"
      (.call (.revokeSessionFamilies "s1")) := by
    obtain ⟨fs, hmem, hends⟩ := sampleStore.revokeSessionFamilies_ends 0
      (sampleStore.after 0 [.call (.issueCode sampleGrant "c1")]).redis "s1"
    refine ((hends.map GrantOutcome.revoked).revokes "f1").mpr ((hmem "f1").mpr ?_)
    decide
  refine h sampleStore 0 logoutInFlight _ hrun [_] _ [] rfl "f1" hrev
    (.redeemCode "c1" "app" "https://app/cb") ?_
  rfl

/-- A code redeemed, its refresh token issued, and the family revoked a day later. -/
def revokedAtRest : List GrantOp :=
  [.call (.issueCode sampleGrant "c1"), .call (.redeemCode "c1" "app" "https://app/cb"),
    .call (.issueRefreshToken (firstRefresh sampleGrant 0) "r1"), .tick (86400 * second),
    .call (.revokeFamily "f1")]

theorem revocation_permanent_at_rest :
    sampleStore.Revokes (sampleStore.after 0 (revokedAtRest.take 4)) "f1"
      (.call (.revokeFamily "f1")) ∧ sampleStore.Permanent 0 revokedAtRest := by
  refine ⟨by simp [Revokes, Redis.Issues, program, GrantStore.revokeFamily, revokeCmd], ?_⟩
  refine sampleStore.revocation_permanent (s := sampleStore.after 0 revokedAtRest) ?_
  have htick : (0 : Int) ≤ 86400 * second := by decide
  refine .cons ⟨⟨⟨"c1", rfl, rfl, rfl⟩, by simp [initial], rfl⟩, fun F hF => ?_⟩
    (.cons ⟨trivial, fun F hF => ?_⟩ (.cons ⟨⟨⟨"r1", rfl, rfl, rfl⟩, sampleGrant, .head _, 0, rfl⟩,
      fun F hF => ?_⟩ (.cons ⟨htick, trivial⟩ (.cons ⟨trivial, fun F _ => ?_⟩ (.nil _)))))
  · exact absurd hF (sampleStore.not_revokes_of_ok trivial F)
  · exact absurd hF (sampleStore.not_revokes_of_ok trivial F)
  · exact absurd hF (sampleStore.not_revokes_of_ok trivial F)
  · rintro (⟨d, g, -, hd, -, hs⟩ | ⟨g, hg, -⟩)
    · -- the only code expired after a minute
      have hstrings : (sampleStore.after 0 (revokedAtRest.take 4)).redis.strings =
          ((Table.empty.put (.code "c1") sampleGrant (some (60 * second))).put (.codeSpent "c1") ()
            (some (60 * second))).put (.refresh "r1") (firstRefresh sampleGrant 0)
            (some (14 * 86400 * second)) := rfl
      have hnone : (sampleStore.after 0 (revokedAtRest.take 4)).redis.strings.live
          (86400 * second) (.code d) = none := by
        rw [hstrings, Table.live_put_of_ne _ (by simp), Table.live_put_of_ne _ (by simp)]
        by_cases h : d = "c1"
        · subst h
          rfl
        · rw [Table.live_put_of_ne _ (by simpa using h)]
          rfl
      exact absurd (hnone.symm.trans hd) (by simp)
    · cases hg

end GrantStore

end CampusID
