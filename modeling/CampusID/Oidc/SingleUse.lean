import CampusID.Lib.Interleaving
import CampusID.Oidc.CallPhases
import CampusID.Oidc.Lifetimes

/-!
# Single use under concurrency

Any number of calls on the grant store run at once, one Redis command at a time.
A code is redeemed by reading its record and then winning a `SET NX` on its spent
marker; a refresh token is rotated the same way, with a look at the family's marker
in between.

The spent marker is written with the lifetime of the record, and later, so it
outlives the record.  That is enough as long as the `SET NX` itself is executed
while the record is still there (`Prompt`).  A call that is held up between the two
commands until the record *and* the marker have expired wins a second time: see
`single_use_fails`.

The argument for prompt runs is in two parts.  `Concurrent` collects what every move
keeps: histories are possible ones, expiries are in order, what a thread read is
still stored, what a thread wrote is still there, a marker has one winner, and every
refresh token was written by a thread that had the right to.  From these alone,
with no further induction over the run, a family has one token per generation
(`token_of_generation_unique`), all but the last are spent, and so at most one is
usable.
-/

namespace CampusID

open Lib

/-- A request to the token endpoint's store.  The issue of a first refresh token
names the redemption it follows. -/
structure TokenRequest where
  call : GrantCall
  origin : Option Nat := none

/-- A call in progress. -/
abbrev GrantThread := Thread RedisCmd Reply TokenRequest GrantOutcome Int

/-- The calls in progress over one Redis. -/
abbrev GrantPool := Pool RedisCmd Reply TokenRequest GrantOutcome Int Redis

namespace GrantStore

variable (st : GrantStore)

/-- The program that serves a request. -/
def serve (q : TokenRequest) : RedisProg GrantOutcome := st.program q.call

/-- No calls, and nothing stored. -/
def idle (now : Int) : GrantPool := ⟨Store.empty, now, []⟩

/-- One move of the pool. -/
def poolStep (p : GrantPool) (mv : Move TokenRequest Int) : GrantPool :=
  p.step Store.exec st.serve mv

/-- What is drawn is new when it is first written: no record under the digest, and
no code of that family. -/
def FreshWrite (r : Redis) : RedisCmd → Prop
  | .set (.code d) g _ => r.strings (.code d) = none ∧
      ∀ d' g' x, r.strings (.code d') = some ⟨g', x⟩ → g'.familyId ≠ g.familyId
  | .set (.refresh d) _ _ => r.strings (.refresh d) = none
  | _ => True

/-- The redemption a first refresh token follows: a thread that redeemed the grant
the token is for, and for which no other token was issued. -/
def FollowsRedemption (p : GrantPool) (x : RefreshToken) (i : Nat) : Prop :=
  (∃ th g time, p.At i th ∧ th.rest = .pure (.redeemed (.ok g)) ∧
      x = firstRefresh g time) ∧
    ∀ j th, p.At j th → th.request.origin ≠ some i

/-- A request the token endpoint makes. -/
def Requested (p : GrantPool) (q : TokenRequest) : Prop :=
  match q.call with
  | .issueRefreshToken x _ => ∃ i, q.origin = some i ∧ FollowsRedemption p x i
  | _ => q.origin = none

/-- The moves that can happen: the clock does not run backwards, and what is drawn
is fresh. -/
def Possible (p : GrantPool) : Move TokenRequest Int → Prop
  | .tick elapsed => 0 ≤ elapsed
  | .spawn q => Requested p q
  | .advance i => ∀ c, p.next i = some c → FreshWrite p.store c

/-- A marker is only written while the record it guards is unexpired. -/
def PromptWrite (r : Redis) (now : Int) : RedisCmd → Prop
  | .setNx (.codeSpent d) _ _ => ∃ g, r.strings.live now (.code d) = some g
  | .setNx (.refreshSpent d) _ _ => ∃ x, r.strings.live now (.refresh d) = some x
  | _ => True

/-- **No call is held up past the expiry of the record it read** before it has
executed its `SET NX`. -/
def Prompt (p : GrantPool) : Move TokenRequest Int → Prop
  | .advance i => ∀ c, p.next i = some c → PromptWrite p.store p.now c
  | _ => True

/-! ## Single use -/

/-- The thread redeemed the code with this digest. -/
def RedeemedCode (th : GrantThread) (d : String) : Prop :=
  ∃ code clientId redirectUri g, th.request.call = .redeemCode code clientId redirectUri ∧
    st.digest code = .ok d ∧ th.rest = .pure (.redeemed (.ok g))

/-- The thread rotated the refresh token with this digest. -/
def RotatedToken (th : GrantThread) (d : String) : Prop :=
  ∃ token clientId time fresh x,
    th.request.call = .rotateRefreshToken token clientId time fresh ∧
      st.digest token = .ok d ∧ th.rest = .pure (.rotated (.ok x))

/-- A refresh token of family `F` that is neither expired nor spent. -/
def Usable (p : GrantPool) (F d : String) : Prop :=
  (∃ x, p.store.strings.live p.now (.refresh d) = some x ∧ x.familyId = F) ∧
    p.store.strings.live p.now (.refreshSpent d) = none

/-- The thread presented a credential of family `F` and found it spent. -/
def FoundSpent (th : GrantThread) (F : String) : Prop :=
  (∃ d g, th.Saw (.get (.code d)) (some g) ∧ g.familyId = F ∧
      th.Saw (.setNx (.codeSpent d) () st.codeLife) false) ∨
    ∃ d x, th.Saw (.get (.refresh d)) (some x) ∧ x.familyId = F ∧
      th.Saw (.setNx (.refreshSpent d) () st.refreshLife) false

/-- **Single use**: a code is redeemed once, a refresh token is rotated once, a family
has one usable refresh token at most, and a replay leaves the family marked revoked
for a refresh token's lifetime from its last command on. -/
structure SingleUse (p : GrantPool) : Prop where
  codes : ∀ d i j th th', p.At i th → p.At j th' →
    st.RedeemedCode th d → st.RedeemedCode th' d → i = j
  tokens : ∀ d i j th th', p.At i th → p.At j th' →
    st.RotatedToken th d → st.RotatedToken th' d → i = j
  usable : ∀ F d d', Usable p F d → Usable p F d' → d = d'
  replays : ∀ F i th out, p.At i th → th.rest = .pure out → st.FoundSpent th F →
    ∃ t u, th.history.getLast? = some (t, ⟨st.revokeCmd F, ()⟩) ∧
      p.store.strings (.familyRevoked F) = some ⟨(), some u⟩ ∧ t + st.refreshLife ≤ u

/-! ## One command -/

/-- An event that wrote no string key. -/
def Quiet : Event → Prop
  | ⟨.set _ _ _, _⟩ => False
  | ⟨.setNx _ _ _, won⟩ => won = false
  | ⟨.del _, _⟩ => False
  | _ => True

/-- What a command of the store does to the string keys. -/
inductive Wrote (now : Int) (m : Table Key Key.Value Int) : Event → Table Key Key.Value Int → Prop
  | nothing {e : Event} (h : Quiet e)
      (read : ∀ k v, e = ⟨.get k, some v⟩ → ∃ x, m k = some ⟨v, x⟩) : Wrote now m e m
  | code (d : String) (g : AuthorizationCode) :
      Wrote now m ⟨.set (.code d) g st.codeLife, ()⟩ (m.put (.code d) g (some (now + st.codeLife)))
  | codeSpent {d : String} (h : m.live now (.codeSpent d) = none) :
      Wrote now m ⟨.setNx (.codeSpent d) () st.codeLife, true⟩
        (m.put (.codeSpent d) () (some (now + st.codeLife)))
  | refresh (d : String) (x : RefreshToken) :
      Wrote now m ⟨.set (.refresh d) x st.refreshLife, ()⟩
        (m.put (.refresh d) x (some (now + st.refreshLife)))
  | refreshSpent {d : String} (h : m.live now (.refreshSpent d) = none) :
      Wrote now m ⟨.setNx (.refreshSpent d) () st.refreshLife, true⟩
        (m.put (.refreshSpent d) () (some (now + st.refreshLife)))
  | revoked (F : String) :
      Wrote now m ⟨st.revokeCmd F, ()⟩
        (m.put (.familyRevoked F) () (some (now + st.refreshLife)))

/-- **Every permitted command does one of these.** -/
theorem exec_wrote {now : Int} {r : Redis} {c : RedisCmd} (hc : st.Permitted c) :
    st.Wrote now r.strings ⟨c, (Store.exec now c r).1⟩ (Store.exec now c r).2.strings := by
  cases c with
  | set k v ex =>
    cases k with
    | code d =>
      obtain rfl : ex = st.codeLife := hc
      exact .code d v
    | refresh d =>
      obtain rfl : ex = st.refreshLife := hc
      exact .refresh d v
    | familyRevoked F =>
      obtain rfl : ex = st.refreshLife := hc
      exact .revoked F
    | _ => exact hc.elim
  | setNx k v ex =>
    cases h : r.strings.live now k with
    | some w =>
      rw [Store.exec_setNx_of_some h]
      exact .nothing rfl (by simp)
    | none =>
      rw [Store.exec_setNx_of_none h]
      cases k with
      | codeSpent d =>
        obtain rfl : ex = st.codeLife := hc
        exact .codeSpent h
      | refreshSpent d =>
        obtain rfl : ex = st.refreshLife := hc
        exact .refreshSpent h
      | _ => exact hc.elim
  | del k => exact hc.elim
  | sadd s m =>
    rw [Store.exec_sadd, Store.sadd_strings]
    exact .nothing trivial (by simp)
  | srem s m =>
    rw [Store.exec_srem, Store.srem_strings]
    exact .nothing trivial (by simp)
  | expire s ex =>
    rw [Store.exec_expire, Store.expire_strings]
    exact .nothing trivial (by simp)
  | get k =>
    refine .nothing trivial fun k' v he => ?_
    obtain rfl : k = k' := by simpa using congrArg Sigma.fst he
    have hlive : r.strings.live now k = some v := by simpa using he
    obtain ⟨x, hx, -⟩ := Table.live_eq_some.mp hlive
    exact ⟨x, hx⟩
  | exist k => exact .nothing trivial (by simp)
  | smembers s => exact .nothing trivial (by simp)
  | delSet s => exact .nothing trivial (by simp)

/-- A table that has grown by one write of the store at `now`: records stay as they
are, markers stay, and a family's revocation only moves into the future. -/
structure Grows (now : Int) (m m' : Table Key Key.Value Int) : Prop where
  code : ∀ d e, m (.code d) = some e → m' (.code d) = some e
  refresh : ∀ d e, m (.refresh d) = some e → m' (.refresh d) = some e
  codeSpent : ∀ d, m (.codeSpent d) ≠ none → m' (.codeSpent d) ≠ none
  refreshSpent : ∀ d, m (.refreshSpent d) ≠ none → m' (.refreshSpent d) ≠ none
  marked : ∀ F t u, t ≤ now → m (.familyRevoked F) = some ⟨(), some u⟩ →
    t + st.refreshLife ≤ u →
      ∃ u', m' (.familyRevoked F) = some ⟨(), some u'⟩ ∧ t + st.refreshLife ≤ u'

theorem put_ne_none {m : Table Key Key.Value Int} {k k' : Key} (h : m k' ≠ none) (v : k.Value)
    (x : Option Int) : m.put k v x k' ≠ none := by
  by_cases hk : k' = k
  · subst hk
    simp
  · rwa [Table.put_of_ne _ hk]

theorem put_of_stored {m : Table Key Key.Value Int} {k k' : Key} {e : Entry Int k'.Value}
    (h : m k' = some e) (hk : k' = k → m k = none) (v : k.Value) (x : Option Int) :
    m.put k v x k' = some e := by
  have hne : k' ≠ k := by
    rintro rfl
    simp [hk rfl] at h
  rwa [Table.put_of_ne _ hne]

theorem Wrote.grows {st : GrantStore} {now : Int} {r : Redis} {e : Event}
    {m' : Table Key Key.Value Int} (h : st.Wrote now r.strings e m')
    (hfresh : FreshWrite r e.1) : st.Grows now r.strings m' := by
  cases h with
  | nothing =>
    exact ⟨fun _ _ => id, fun _ _ => id, fun _ => id, fun _ => id,
      fun F t u _ hu hle => ⟨u, hu, hle⟩⟩
  | code d g =>
    refine ⟨fun d' e' h' => ?_, fun d' e' h' => ?_, fun d' h' => put_ne_none h' _ _,
      fun d' h' => put_ne_none h' _ _, fun F t u _ hu hle => ⟨u, ?_, hle⟩⟩
    · exact put_of_stored h' (fun _ => hfresh.1) _ _
    · exact put_of_stored h' (by simp) _ _
    · exact put_of_stored hu (by simp) _ _
  | codeSpent =>
    refine ⟨fun d' e' h' => ?_, fun d' e' h' => ?_, fun d' h' => put_ne_none h' _ _,
      fun d' h' => put_ne_none h' _ _, fun F t u _ hu hle => ⟨u, ?_, hle⟩⟩
    · exact put_of_stored h' (by simp) _ _
    · exact put_of_stored h' (by simp) _ _
    · exact put_of_stored hu (by simp) _ _
  | refresh d x =>
    refine ⟨fun d' e' h' => ?_, fun d' e' h' => ?_, fun d' h' => put_ne_none h' _ _,
      fun d' h' => put_ne_none h' _ _, fun F t u _ hu hle => ⟨u, ?_, hle⟩⟩
    · exact put_of_stored h' (by simp) _ _
    · exact put_of_stored h' (fun _ => hfresh) _ _
    · exact put_of_stored hu (by simp) _ _
  | refreshSpent =>
    refine ⟨fun d' e' h' => ?_, fun d' e' h' => ?_, fun d' h' => put_ne_none h' _ _,
      fun d' h' => put_ne_none h' _ _, fun F t u _ hu hle => ⟨u, ?_, hle⟩⟩
    · exact put_of_stored h' (by simp) _ _
    · exact put_of_stored h' (by simp) _ _
    · exact put_of_stored hu (by simp) _ _
  | revoked G =>
    refine ⟨fun d' e' h' => ?_, fun d' e' h' => ?_, fun d' h' => put_ne_none h' _ _,
      fun d' h' => put_ne_none h' _ _, fun F t u ht hu hle => ?_⟩
    · exact put_of_stored h' (by simp) _ _
    · exact put_of_stored h' (by simp) _ _
    · by_cases hF : F = G
      · subst hF
        exact ⟨_, Table.put_self _ _ _ _, by omega⟩
      · exact ⟨u, by rwa [Table.put_of_ne _ (by simpa using hF)], hle⟩

/-- What an event in a history says about the store now: what was read is still
stored, what was won is still marked, what was revoked at `t` is marked for a full
lifetime from `t` on. -/
structure Recorded (m : Table Key Key.Value Int) (now t : Int) (e : Event) : Prop where
  past : t ≤ now
  code : ∀ d g, e = ⟨.get (.code d), some g⟩ → ∃ x, m (.code d) = some ⟨g, x⟩
  refresh : ∀ d x, e = ⟨.get (.refresh d), some x⟩ → ∃ y, m (.refresh d) = some ⟨x, y⟩
  codeSpent : ∀ d, e = ⟨.setNx (.codeSpent d) () st.codeLife, true⟩ → m (.codeSpent d) ≠ none
  refreshSpent : ∀ d, e = ⟨.setNx (.refreshSpent d) () st.refreshLife, true⟩ →
    m (.refreshSpent d) ≠ none
  marked : ∀ F, e = ⟨st.revokeCmd F, ()⟩ →
    ∃ u, m (.familyRevoked F) = some ⟨(), some u⟩ ∧ t + st.refreshLife ≤ u

theorem Recorded.mono {st : GrantStore} {m m' : Table Key Key.Value Int} {now t : Int}
    {e : Event} (h : st.Recorded m now t e) (hg : st.Grows now m m') :
    st.Recorded m' now t e := by
  refine ⟨h.past, fun d g he => ?_, fun d x he => ?_, fun d he => ?_, fun d he => ?_,
    fun F he => ?_⟩
  · obtain ⟨x, hx⟩ := h.code d g he
    exact ⟨x, hg.code d _ hx⟩
  · obtain ⟨y, hy⟩ := h.refresh d x he
    exact ⟨y, hg.refresh d _ hy⟩
  · exact hg.codeSpent d (h.codeSpent d he)
  · exact hg.refreshSpent d (h.refreshSpent d he)
  · obtain ⟨u, hu, hle⟩ := h.marked F he
    exact hg.marked F t u h.past hu hle

theorem Wrote.recorded {st : GrantStore} {now : Int} {m m' : Table Key Key.Value Int} {e : Event}
    (h : st.Wrote now m e m') : st.Recorded m' now now e := by
  cases h with
  | nothing hq read =>
    refine ⟨le_refl _, fun d g he => read _ _ he, fun d x he => read _ _ he, ?_, ?_, ?_⟩
    · rintro d rfl
      cases hq
    · rintro d rfl
      cases hq
    · rintro F rfl
      exact hq.elim
  | code d g => constructor <;> simp [revokeCmd]
  | codeSpent =>
    refine ⟨le_refl _, by simp, by simp, fun d he => ?_, by simp, by simp [revokeCmd]⟩
    obtain rfl : _ = d := by simpa using he
    simp
  | refresh d x => constructor <;> simp [revokeCmd]
  | refreshSpent =>
    refine ⟨le_refl _, by simp, by simp, by simp, fun d he => ?_, by simp [revokeCmd]⟩
    obtain rfl : _ = d := by simpa using he
    simp
  | revoked F =>
    refine ⟨le_refl _, by simp [revokeCmd], by simp [revokeCmd], by simp [revokeCmd],
      by simp [revokeCmd], fun G he => ?_⟩
    obtain rfl : F = G := by simpa [revokeCmd] using he
    exact ⟨_, Table.put_self _ _ _ _, le_refl _⟩

theorem Wrote.expiries {st : GrantStore} {now : Int} {r : Redis} {e : Event}
    {m' : Table Key Key.Value Int} (h : st.Wrote now r.strings e m')
    (hfresh : FreshWrite r e.1) (hprompt : PromptWrite r now e.1)
    (he : st.Expiries r.strings now) : st.Expiries m' now := by
  cases h with
  | nothing => exact he
  | code d g => exact he.putCode hfresh.1 g
  | codeSpent =>
    obtain ⟨g, hg⟩ := hprompt
    obtain ⟨x, hx, -⟩ := Table.live_eq_some.mp hg
    exact he.spendCode (by simp [hx])
  | refresh d x => exact he.putRefresh hfresh x
  | refreshSpent =>
    obtain ⟨x, hx⟩ := hprompt
    obtain ⟨y, hy, -⟩ := Table.live_eq_some.mp hx
    exact he.spendRefresh (by simp [hy])
  | revoked F => exact he.mark F _

/-! ## The invariant of the pool -/

/-- Thread `th` won the spent marker of the code with digest `d`. -/
def WonCode (th : GrantThread) (d : String) : Prop :=
  th.Saw (.setNx (.codeSpent d) () st.codeLife) true

/-- Thread `th` won the spent marker of the refresh token with digest `d`. -/
def WonRefresh (th : GrantThread) (d : String) : Prop :=
  th.Saw (.setNx (.refreshSpent d) () st.refreshLife) true

/-- The thread that wrote a refresh token: it was asked to issue it, or it rotated
the predecessor. -/
def IssuedBy (p : GrantPool) (d : String) (x : RefreshToken) (i : Nat) (th : GrantThread) : Prop :=
  p.At i th ∧ th.Saw (.set (.refresh d) x st.refreshLife) () ∧
    ((∃ token, th.request.call = .issueRefreshToken x token) ∨
      ∃ d₀ x₀ time, x = successor x₀ time ∧ th.Saw (.get (.refresh d₀)) (some x₀) ∧
        st.WonRefresh th d₀)

/-- **What every move keeps.** -/
structure Concurrent (p : GrantPool) : Prop where
  coherent : p.Coherent st.serve
  expiries : st.Expiries p.store.strings p.now
  families : ∀ d d' g g' x x', p.store.strings (.code d) = some ⟨g, x⟩ →
    p.store.strings (.code d') = some ⟨g', x'⟩ → g.familyId = g'.familyId → d = d'
  recorded : ∀ i th t e, p.At i th → (t, e) ∈ th.history →
    st.Recorded p.store.strings p.now t e
  codeWinner : ∀ d i j th th', p.At i th → p.At j th' → st.WonCode th d → st.WonCode th' d → i = j
  refreshWinner : ∀ d i j th th', p.At i th → p.At j th' → st.WonRefresh th d →
    st.WonRefresh th' d → i = j
  issued : ∀ d x e, p.store.strings (.refresh d) = some ⟨x, e⟩ → ∃ i th, st.IssuedBy p d x i th
  linked : ∀ i th x token, p.At i th → th.request.call = .issueRefreshToken x token →
    ∃ k th' g time, th.request.origin = some k ∧ p.At k th' ∧
      th'.rest = .pure (.redeemed (.ok g)) ∧ x = firstRefresh g time
  origins : ∀ i j th th' k, p.At i th → p.At j th' → th.request.origin = some k →
    th'.request.origin = some k → i = j

namespace Concurrent

variable {st} {p : GrantPool}

theorem recorded_saw (h : st.Concurrent p) {i : Nat} {th : GrantThread} (hi : p.At i th)
    {c : RedisCmd} {r : Reply c} (hs : th.Saw c r) :
    ∃ t, st.Recorded p.store.strings p.now t ⟨c, r⟩ := by
  obtain ⟨⟨t, e⟩, hmem, rfl⟩ := List.mem_map.mp hs
  exact ⟨t, h.recorded i th t _ hi hmem⟩

theorem idle (now : Int) : st.Concurrent (idle now) := by
  constructor <;> simp [GrantStore.idle, Pool.Coherent, Store.empty, Expiries.empty]

theorem tick (h : st.Concurrent p) {elapsed : Int} (he : 0 ≤ elapsed) :
    st.Concurrent { p with now := p.now + elapsed } := by
  have hle : p.now ≤ p.now + elapsed := le_add_of_nonneg_right he
  refine ⟨h.coherent, h.expiries.later hle, h.families, fun i th t e hi hmem => ?_,
    h.codeWinner, h.refreshWinner, h.issued, h.linked, h.origins⟩
  have hr := h.recorded i th t e hi hmem
  exact ⟨hr.past.trans hle, hr.code, hr.refresh, hr.codeSpent, hr.refreshSpent, hr.marked⟩

/-- A new thread has seen nothing, and a first refresh token is linked to its
redemption as it is requested. -/
theorem spawn (h : st.Concurrent p) {q : TokenRequest} (hq : Requested p q) :
    st.Concurrent { p with threads := p.threads ++ [⟨q, [], st.serve q⟩] } := by
  have horigin : ∀ i th k, p.At i th → th.request.origin = some k → q.origin ≠ some k := by
    intro i th k hi hk hqk
    unfold Requested at hq
    split at hq
    · obtain ⟨k', hk', -, hnone⟩ := hq
      obtain rfl : k = k' := Option.some.inj (hqk.symm.trans hk')
      exact hnone i th hi hk
    · simp [hq] at hqk
  have hold : ∀ {j : Nat} {th : GrantThread},
      ({ p with threads := p.threads ++ [⟨q, [], st.serve q⟩] } : GrantPool).At j th →
        p.At j th ∨ (j = p.threads.length ∧ th = ⟨q, [], st.serve q⟩) :=
    fun hj => Pool.spawn_threads hj
  refine ⟨Pool.coherent_spawn h.coherent q, h.expiries, h.families, fun i th t e hi hmem => ?_,
    fun d i j th th' hi hj hw hw' => ?_, fun d i j th th' hi hj hw hw' => ?_,
    fun d x e hx => ?_, fun i th x token hi hc => ?_, fun i j th th' k hi hj hk hk' => ?_⟩
  · rcases hold hi with hi | ⟨-, rfl⟩
    · exact h.recorded i th t e hi hmem
    · simp at hmem
  · rcases hold hi with hi | ⟨-, rfl⟩
    · rcases hold hj with hj | ⟨-, rfl⟩
      · exact h.codeWinner d i j th th' hi hj hw hw'
      · simp [WonCode, Thread.Saw, Thread.replies] at hw'
    · simp [WonCode, Thread.Saw, Thread.replies] at hw
  · rcases hold hi with hi | ⟨-, rfl⟩
    · rcases hold hj with hj | ⟨-, rfl⟩
      · exact h.refreshWinner d i j th th' hi hj hw hw'
      · simp [WonRefresh, Thread.Saw, Thread.replies] at hw'
    · simp [WonRefresh, Thread.Saw, Thread.replies] at hw
  · obtain ⟨i, th, hi, hrest⟩ := h.issued d x e hx
    exact ⟨i, th, Pool.spawn_keeps hi _, hrest⟩
  · rcases hold hi with hi | ⟨-, rfl⟩
    · obtain ⟨k, th', g, time, hk, hth', hrest⟩ := h.linked i th x token hi hc
      exact ⟨k, th', g, time, hk, Pool.spawn_keeps hth' _, hrest⟩
    · replace hc : q.call = .issueRefreshToken x token := hc
      simp only [Requested, hc] at hq
      obtain ⟨k, hk, ⟨th', g, time, hth', hrest⟩, -⟩ := hq
      exact ⟨k, th', g, time, hk, Pool.spawn_keeps hth' _, hrest⟩
  · rcases hold hi with hi | ⟨hlast, rfl⟩
    · rcases hold hj with hj | ⟨-, rfl⟩
      · exact h.origins i j th th' k hi hj hk hk'
      · exact absurd hk' (horigin i th k hi hk)
    · rcases hold hj with hj | ⟨hlast', rfl⟩
      · exact absurd hk (horigin j th' k hj hk')
      · rw [hlast, hlast']

section Command

variable {i : Nat} {th : GrantThread} {c : RedisCmd} {k : Reply c → RedisProg GrantOutcome}

theorem wrote (h : st.Concurrent p) (hi : p.At i th) (hr : th.rest = .call c k) :
    st.Wrote p.now p.store.strings ⟨c, (Store.exec p.now c p.store).1⟩
      (p.fire Store.exec i th c k).store.strings := by
  have honly := (h.coherent i th hi).only_rest (st.program_permitted th.request.call)
  rw [hr] at honly
  exact st.exec_wrote honly.1

/-- **A code has one winner.**  Another thread that had won it would have left a marker
that is live as long as the code is. -/
theorem codeWinner_command (h : st.Concurrent p)
    (hprompt : PromptWrite p.store p.now c) {d : String}
    (he : (⟨.setNx (.codeSpent d) () st.codeLife, true⟩ : Event) =
      ⟨c, (Store.exec p.now c p.store).1⟩)
    {j : Nat} {th' : GrantThread} (hj : p.At j th') : ¬ st.WonCode th' d := by
  intro hw
  obtain rfl : .setNx (.codeSpent d) () st.codeLife = c := congrArg Sigma.fst he
  obtain ⟨g, hg⟩ := hprompt
  obtain ⟨t, ht⟩ := h.recorded_saw hj hw
  obtain ⟨u, hu⟩ := h.expiries.code.marker_live hg (ht.codeSpent d rfl)
  rw [Store.exec_setNx_of_some hu] at he
  simp at he

theorem refreshWinner_command (h : st.Concurrent p)
    (hprompt : PromptWrite p.store p.now c) {d : String}
    (he : (⟨.setNx (.refreshSpent d) () st.refreshLife, true⟩ : Event) =
      ⟨c, (Store.exec p.now c p.store).1⟩)
    {j : Nat} {th' : GrantThread} (hj : p.At j th') : ¬ st.WonRefresh th' d := by
  intro hw
  obtain rfl : .setNx (.refreshSpent d) () st.refreshLife = c := congrArg Sigma.fst he
  obtain ⟨x, hx⟩ := hprompt
  obtain ⟨t, ht⟩ := h.recorded_saw hj hw
  obtain ⟨u, hu⟩ := h.expiries.refresh.marker_live hx (ht.refreshSpent d rfl)
  rw [Store.exec_setNx_of_some hu] at he
  simp at he

theorem families_command (h : st.Concurrent p) (hi : p.At i th) (hr : th.rest = .call c k)
    (hfresh : FreshWrite p.store c) (d d' : String) (g g' : AuthorizationCode) (x x' : Option Int)
    (hd : (p.fire Store.exec i th c k).store.strings (.code d) = some ⟨g, x⟩)
    (hd' : (p.fire Store.exec i th c k).store.strings (.code d') = some ⟨g', x'⟩)
    (hF : g.familyId = g'.familyId) : d = d' := by
  have hw := h.wrote hi hr
  generalize (p.fire Store.exec i th c k).store.strings = m' at hw hd hd'
  generalize he : (⟨c, (Store.exec p.now c p.store).1⟩ : Event) = e at hw
  obtain rfl : c = e.1 := congrArg Sigma.fst he
  cases hw with
  | code d₀ g₀ =>
    by_cases h1 : d = d₀
    · by_cases h2 : d' = d₀
      · rw [h1, h2]
      · subst h1
        rw [Table.put_self] at hd
        rw [Table.put_of_ne _ (by simpa using h2)] at hd'
        obtain ⟨rfl, -⟩ : g₀ = g ∧ _ := by simpa using hd
        exact absurd hF.symm (hfresh.2 d' g' x' hd')
    · rw [Table.put_of_ne _ (by simpa using h1)] at hd
      by_cases h2 : d' = d₀
      · subst h2
        rw [Table.put_self] at hd'
        obtain ⟨rfl, -⟩ : g₀ = g' ∧ _ := by simpa using hd'
        exact absurd hF (hfresh.2 d g x hd)
      · rw [Table.put_of_ne _ (by simpa using h2)] at hd'
        exact h.families d d' g g' x x' hd hd' hF
  | nothing => exact h.families d d' g g' x x' hd hd' hF
  | _ =>
    rw [Table.put_of_ne _ (by simp)] at hd hd'
    exact h.families d d' g g' x x' hd hd' hF

theorem issued_command (h : st.Concurrent p) (hi : p.At i th) (hr : th.rest = .call c k)
    (d : String) (x : RefreshToken) (y : Option Int)
    (hd : (p.fire Store.exec i th c k).store.strings (.refresh d) = some ⟨x, y⟩) :
    ∃ j th', st.IssuedBy (p.fire Store.exec i th c k) d x j th' := by
  -- what was issued before is still known to be
  have hold : p.store.strings (.refresh d) = some ⟨x, y⟩ →
      ∃ j th', st.IssuedBy (p.fire Store.exec i th c k) d x j th' := by
    intro hx
    obtain ⟨j, th₀, hj, hsaw, hright⟩ := h.issued d x y hx
    obtain ⟨th', hj', hreq, hkeep⟩ := Pool.fire_keeps Store.exec (c := c) (k := k) hi hj
    refine ⟨j, th', hj', hkeep _ _ hsaw, ?_⟩
    rcases hright with ⟨token, htok⟩ | ⟨d₀, x₀, time, hx₀, hread, hwon⟩
    · exact Or.inl ⟨token, by rw [hreq, htok]⟩
    · exact Or.inr ⟨d₀, x₀, time, hx₀, hkeep _ _ hread, hkeep _ _ hwon⟩
  have hw := h.wrote hi hr
  have hcoh := h.coherent i th hi
  rw [hr] at hcoh
  generalize hm : (p.fire Store.exec i th c k).store.strings = m' at hw hd
  generalize he : (⟨c, (Store.exec p.now c p.store).1⟩ : Event) = e at hw
  cases hw with
  | refresh d₀ x₀ =>
    by_cases hdd : d = d₀
    · -- the thread that just wrote it
      subst hdd
      rw [Table.put_self] at hd
      obtain ⟨rfl, -⟩ : x₀ = x ∧ _ := by simpa using hd
      obtain rfl : c = .set (.refresh d) x₀ st.refreshLife := congrArg Sigma.fst he
      refine ⟨i, _, (Pool.fire_threads hi).mpr (Or.inl ⟨rfl, rfl⟩), ?_, ?_⟩
      · exact Thread.saw_advance.mpr (Or.inr rfl)
      · rcases follows_set_refresh hcoh (Prog.head_call _ _) with
          ⟨-, htok⟩ | ⟨d₁, x₁, time, hx₁, hhist⟩
        · exact Or.inl htok
        · refine Or.inr ⟨d₁, x₁, time, hx₁, ?_, ?_⟩ <;>
            exact Thread.saw_advance.mpr (Or.inl (by simp [Thread.Saw, hhist]))
    · rw [Table.put_of_ne _ (by simpa using hdd)] at hd
      exact hold hd
  | nothing => exact hold hd
  | _ =>
    rw [Table.put_of_ne _ (by simp)] at hd
    exact hold hd

/-- **One command of one thread keeps the invariant.** -/
theorem command (h : st.Concurrent p) (hi : p.At i th) (hr : th.rest = .call c k)
    (hfresh : FreshWrite p.store c) (hprompt : PromptWrite p.store p.now c) :
    st.Concurrent (p.fire Store.exec i th c k) := by
  have hw := h.wrote hi hr
  have hgrow := hw.grows hfresh
  -- a thread that has returned did not execute the command
  have hdone : ∀ {j : Nat} {th' : GrantThread} {out : GrantOutcome}, p.At j th' →
      th'.rest = .pure out → (p.fire Store.exec i th c k).At j th' := by
    intro j th' out hj hout
    refine (Pool.fire_threads hi).mpr (Or.inr ⟨?_, hj⟩)
    rintro rfl
    obtain rfl : th' = th := Option.some.inj (hj.symm.trans hi)
    simp [hr] at hout
  -- requests do not change
  have hback : ∀ {j : Nat} {th' : GrantThread}, (p.fire Store.exec i th c k).At j th' →
      ∃ th₀, p.At j th₀ ∧ th₀.request = th'.request := by
    intro j th' hj
    rcases (Pool.fire_threads hi).mp hj with ⟨rfl, rfl⟩ | ⟨-, hj⟩
    · exact ⟨th, hi, rfl⟩
    · exact ⟨th', hj, rfl⟩
  refine ⟨Pool.coherent_fire h.coherent hi hr, hw.expiries hfresh hprompt h.expiries,
    h.families_command hi hr hfresh, fun j th' t e hj hmem => ?_,
    fun d => Pool.fire_saw_unique hi (h.codeWinner d) fun he _ _ hj =>
      h.codeWinner_command hprompt he hj,
    fun d => Pool.fire_saw_unique hi (h.refreshWinner d) fun he _ _ hj =>
      h.refreshWinner_command hprompt he hj,
    h.issued_command hi hr, fun j th' x token hj hc => ?_, fun j j' th₁ th₂ o hj hj' ho ho' => ?_⟩
  · rcases (Pool.fire_threads hi).mp hj with ⟨rfl, rfl⟩ | ⟨-, hj⟩
    · rcases List.mem_append.mp hmem with hmem | hmem
      · exact (h.recorded _ th t e hi hmem).mono hgrow
      · obtain ⟨rfl, rfl⟩ : t = p.now ∧ e = _ := by simpa using hmem
        exact hw.recorded
    · exact (h.recorded j th' t e hj hmem).mono hgrow
  · obtain ⟨th₀, hj₀, hreq⟩ := hback hj
    obtain ⟨o, th₁, g, time, ho, hth₁, hout, hx⟩ := h.linked j th₀ x token hj₀ (hreq ▸ hc)
    exact ⟨o, th₁, g, time, hreq ▸ ho, hdone hth₁ hout, hout, hx⟩
  · obtain ⟨th₃, hj₃, hreq₃⟩ := hback hj
    obtain ⟨th₄, hj₄, hreq₄⟩ := hback hj'
    exact h.origins j j' th₃ th₄ o hj₃ hj₄ (hreq₃ ▸ ho) (hreq₄ ▸ ho')

end Command

/-! ## What follows from the invariant -/

theorem redeemed_behind (h : st.Concurrent p) {i : Nat} {th : GrantThread} (hi : p.At i th)
    {g : AuthorizationCode} (hout : th.rest = .pure (.redeemed (.ok g))) :
    ∃ d x, p.store.strings (.code d) = some ⟨g, x⟩ ∧ st.WonCode th d := by
  have hcoh := h.coherent i th hi
  obtain ⟨code, clientId, uri, d, -, -, hhist⟩ := follows_redeemed hcoh (by rw [hout]; rfl)
  have hread : th.Saw (.get (.code d)) (some g) := by simp [Thread.Saw, hhist]
  obtain ⟨t, ht⟩ := h.recorded_saw hi hread
  obtain ⟨x, hx⟩ := ht.code d g rfl
  exact ⟨d, x, hx, by simp [WonCode, Thread.Saw, hhist]⟩

/-- A refresh token written on request is of generation zero, and leads back to a
code of its family. -/
theorem first_behind (h : st.Concurrent p) {i : Nat} {th : GrantThread} (hi : p.At i th)
    {x : RefreshToken} {token : String} (hc : th.request.call = .issueRefreshToken x token) :
    x.generation = 0 ∧ ∃ k th' d g y, th.request.origin = some k ∧ p.At k th' ∧
      p.store.strings (.code d) = some ⟨g, y⟩ ∧ g.familyId = x.familyId ∧ st.WonCode th' d := by
  obtain ⟨k, th', g, time, hk, hth', hout, rfl⟩ := h.linked i th x token hi hc
  obtain ⟨d, y, hd, hwon⟩ := h.redeemed_behind hth' hout
  exact ⟨rfl, k, th', d, g, y, hk, hth', hd, rfl, hwon⟩

/-- A refresh token of a later generation was written by the thread that won its
predecessor. -/
theorem rotated_behind (h : st.Concurrent p) {i : Nat} {th : GrantThread} (hi : p.At i th)
    {d₀ : String} {x₀ : RefreshToken} (hread : th.Saw (.get (.refresh d₀)) (some x₀))
    (hwon : st.WonRefresh th d₀) :
    (∃ y, p.store.strings (.refresh d₀) = some ⟨x₀, y⟩) ∧
      p.store.strings (.refreshSpent d₀) ≠ none := by
  obtain ⟨t, ht⟩ := h.recorded_saw hi hread
  obtain ⟨t', ht'⟩ := h.recorded_saw hi hwon
  exact ⟨ht.refresh d₀ x₀ rfl, ht'.refreshSpent d₀ rfl⟩

/-- **A family has one refresh token of each generation.** -/
theorem token_of_generation_unique (h : st.Concurrent p) (n : Nat) :
    ∀ {d d' : String} {x x' : RefreshToken} {y y' : Option Int},
      p.store.strings (.refresh d) = some ⟨x, y⟩ → p.store.strings (.refresh d') = some ⟨x', y'⟩ →
      x.familyId = x'.familyId → x.generation = n → x'.generation = n → d = d' := by
  induction n with
  | zero =>
    intro d d' x x' y y' hx hx' hF hn hn'
    obtain ⟨i, th, hi, hsaw, hright⟩ := h.issued d x y hx
    obtain ⟨j, th', hj, hsaw', hright'⟩ := h.issued d' x' y' hx'
    rcases hright with ⟨token, htok⟩ | ⟨d₀, x₀, time, rfl, -, -⟩
    swap
    · simp [successor] at hn
    rcases hright' with ⟨token', htok'⟩ | ⟨d₀, x₀, time, rfl, -, -⟩
    swap
    · simp [successor] at hn'
    -- both lead back to the one code of the family, and so to one redemption
    obtain ⟨-, k, thk, c, g, z, hk, hthk, hc, hg, hwon⟩ := h.first_behind hi htok
    obtain ⟨-, k', thk', c', g', z', hk', hthk', hc', hg', hwon'⟩ := h.first_behind hj htok'
    obtain rfl : c = c' := h.families c c' g g' z z' hc hc' (by rw [hg, hg', hF])
    obtain rfl : k = k' := h.codeWinner c k k' thk thk' hthk hthk' hwon hwon'
    obtain rfl : i = j := h.origins i j th th' k hi hj hk hk'
    obtain rfl : th = th' := Option.some.inj (hi.symm.trans hj)
    exact follows_wrote_once (h.coherent i th hi) hsaw hsaw'
  | succ n ih =>
    intro d d' x x' y y' hx hx' hF hn hn'
    obtain ⟨i, th, hi, hsaw, hright⟩ := h.issued d x y hx
    obtain ⟨j, th', hj, hsaw', hright'⟩ := h.issued d' x' y' hx'
    rcases hright with ⟨token, htok⟩ | ⟨d₀, x₀, time, rfl, hread, hwon⟩
    · have := (h.first_behind hi htok).1
      omega
    rcases hright' with ⟨token', htok'⟩ | ⟨d₁, x₁, time', rfl, hread', hwon'⟩
    · have := (h.first_behind hj htok').1
      omega
    -- both rotated the one predecessor
    obtain ⟨⟨z, hz⟩, -⟩ := h.rotated_behind hi hread hwon
    obtain ⟨⟨z', hz'⟩, -⟩ := h.rotated_behind hj hread' hwon'
    obtain rfl : d₀ = d₁ := ih hz hz' hF (by simpa [successor] using hn)
      (by simpa [successor] using hn')
    obtain rfl : i = j := h.refreshWinner d₀ i j th th' hi hj hwon hwon'
    obtain rfl : th = th' := Option.some.inj (hi.symm.trans hj)
    exact follows_wrote_once (h.coherent i th hi) hsaw hsaw'

/-- **Every earlier generation is spent.** -/
theorem spent_below (h : st.Concurrent p) (n : Nat) :
    ∀ {d : String} {x : RefreshToken} {y : Option Int},
      p.store.strings (.refresh d) = some ⟨x, y⟩ → x.generation = n → ∀ m < n,
      ∃ d₀ x₀ y₀, p.store.strings (.refresh d₀) = some ⟨x₀, y₀⟩ ∧ x₀.familyId = x.familyId ∧
        x₀.generation = m ∧ p.store.strings (.refreshSpent d₀) ≠ none := by
  induction n with
  | zero =>
    intro d x y _ _ m hm
    omega
  | succ n ih =>
    intro d x y hx hn m hm
    obtain ⟨i, th, hi, -, hright⟩ := h.issued d x y hx
    rcases hright with ⟨token, htok⟩ | ⟨d₀, x₀, time, rfl, hread, hwon⟩
    · have := (h.first_behind hi htok).1
      omega
    have hgen : x₀.generation = n := by simpa [successor] using hn
    obtain ⟨⟨z, hz⟩, hspent⟩ := h.rotated_behind hi hread hwon
    by_cases hmn : m = n
    · exact ⟨d₀, x₀, z, hz, rfl, hgen.trans hmn.symm, hspent⟩
    · exact ih hz hgen m (by omega)

theorem generation_le_of_usable (h : st.Concurrent p) {F d d' : String} {x x' : RefreshToken}
    {y : Option Int} (hx : p.store.strings.live p.now (.refresh d) = some x)
    (hF : x.familyId = F) (hs : p.store.strings.live p.now (.refreshSpent d) = none)
    (hx' : p.store.strings (.refresh d') = some ⟨x', y⟩) (hF' : x'.familyId = F) :
    x'.generation ≤ x.generation := by
  by_contra hlt
  obtain ⟨d₀, x₀, y₀, hx₀, hF₀, hgen, hspent⟩ :=
    h.spent_below _ hx' rfl x.generation (not_le.mp hlt)
  obtain ⟨z, hz, -⟩ := Table.live_eq_some.mp hx
  obtain rfl : d₀ = d :=
    h.token_of_generation_unique _ hx₀ hz (by rw [hF₀, hF', hF]) hgen rfl
  obtain ⟨w, hw⟩ := h.expiries.refresh.marker_live hx hspent
  simp [hs] at hw

/-- **The invariant is single use.** -/
theorem singleUse (h : st.Concurrent p) : st.SingleUse p := by
  refine ⟨fun d i j th th' hi hj hr hr' => ?_, fun d i j th th' hi hj hr hr' => ?_,
    fun F d d' hu hu' => ?_, fun F i th out hi hout hs => ?_⟩
  · obtain ⟨code, a, b, g, hc, hd, hout⟩ := hr
    obtain ⟨code', a', b', g', hc', hd', hout'⟩ := hr'
    obtain ⟨_, _, _, e, he, hde, hh⟩ := follows_redeemed (h.coherent i th hi) (by rw [hout]; rfl)
    obtain ⟨_, _, _, e', he', hde', hh'⟩ :=
      follows_redeemed (h.coherent j th' hj) (by rw [hout']; rfl)
    cases hc.symm.trans he
    cases hc'.symm.trans he'
    obtain rfl : d = e := Except.ok.inj (hd.symm.trans hde)
    obtain rfl : d = e' := Except.ok.inj (hd'.symm.trans hde')
    exact h.codeWinner d i j th th' hi hj (by simp [WonCode, Thread.Saw, hh])
      (by simp [WonCode, Thread.Saw, hh'])
  · obtain ⟨token, a, t, f, x, hc, hd, hout⟩ := hr
    obtain ⟨token', a', t', f', x', hc', hd', hout'⟩ := hr'
    obtain ⟨_, _, _, _, e, he, hde, hh⟩ :=
      follows_rotated (h.coherent i th hi) (by rw [hout]; rfl)
    obtain ⟨_, _, _, _, e', he', hde', hh'⟩ :=
      follows_rotated (h.coherent j th' hj) (by rw [hout']; rfl)
    cases hc.symm.trans he
    cases hc'.symm.trans he'
    obtain rfl : d = e := Except.ok.inj (hd.symm.trans hde)
    obtain rfl : d = e' := Except.ok.inj (hd'.symm.trans hde')
    exact h.refreshWinner d i j th th' hi hj hh hh'
  · obtain ⟨⟨x, hx, hF⟩, hs⟩ := hu
    obtain ⟨⟨x', hx', hF'⟩, hs'⟩ := hu'
    obtain ⟨y, hy, -⟩ := Table.live_eq_some.mp hx
    obtain ⟨y', hy', -⟩ := Table.live_eq_some.mp hx'
    have hle := h.generation_le_of_usable hx hF hs hy' hF'
    have hge := h.generation_le_of_usable hx' hF' hs' hy hF
    exact h.token_of_generation_unique _ hy hy' (by rw [hF, hF']) rfl (le_antisymm hle hge)
  · have hlast : th.replies.getLast? = some ⟨st.revokeCmd F, ()⟩ := by
      rcases hs with ⟨d, g, hg, rfl, hs⟩ | ⟨d, x, hx, rfl, hs⟩
      · exact follows_code_replayed (h.coherent i th hi) (by rw [hout]; rfl) hg hs
      · exact follows_refresh_replayed (h.coherent i th hi) (by rw [hout]; rfl) hx hs
    rw [Thread.replies, List.getLast?_map, Option.map_eq_some_iff] at hlast
    obtain ⟨⟨t, e⟩, hlast, rfl⟩ := hlast
    have hmem : (t, _) ∈ th.history := List.mem_of_getLast? hlast
    obtain ⟨u, hu, hle⟩ := (h.recorded i th t _ hi hmem).marked F rfl
    exact ⟨t, u, hlast, hu, hle⟩

end Concurrent

/-! ## Runs -/

theorem concurrent_of_run {now : Int} {mvs : List (Move TokenRequest Int)} {p : GrantPool}
    (h : Run (fun p mv => Possible p mv ∧ Prompt p mv) st.poolStep (idle now) mvs p) :
    st.Concurrent p := by
  refine h.invariant (I := st.Concurrent) (fun p mv hp ha => ?_) (Concurrent.idle now)
  refine Pool.step_invariant Store.exec st.serve (A := fun p mv => Possible p mv ∧ Prompt p mv)
    ?_ ?_ ?_ p mv hp ha
  · intro p elapsed hp ha
    exact hp.tick ha.1
  · intro p q hp ha
    exact hp.spawn ha.1
  · intro p i th c k hp ha hi hr
    have hnext := Pool.next_eq hi hr
    exact hp.command hi hr (ha.1 c hnext) (ha.2 c hnext)

/-- **Single use, whatever the interleaving, when every `SET NX` is prompt.**  Any
number of calls, any order of their commands, any expiry: as long as every spent
marker is written while the record it guards is unexpired, a code is redeemed at
most once, a refresh token is rotated at most once, a family has at most one usable
refresh token, and a replay leaves its family marked revoked. -/
theorem single_use_of_prompt {now : Int} {mvs : List (Move TokenRequest Int)} {p : GrantPool}
    (h : Run (fun p mv => Possible p mv ∧ Prompt p mv) st.poolStep (idle now) mvs p) :
    st.SingleUse p :=
  (st.concurrent_of_run h).singleUse

/-! ## A call held up -/

/-- A redemption of the code `c1` by its own client. -/
def redeemC1 : TokenRequest := { call := .redeemCode "c1" "app" "https://app/cb" }

/-- The code `c1` issued; a redemption after a second; another one that reads the
record just before it expires and is held up until the first one's marker has. -/
def heldUp : List (Move TokenRequest Int) :=
  [.spawn { call := .issueCode sampleGrant "c1" }, .advance 0, .advance 0, .advance 0,
    .tick second, .spawn redeemC1, .advance 1, .advance 1,
    .tick (58 * second), .spawn redeemC1, .advance 2, .tick (3 * second), .advance 2]

/-- **A code redeemed twice.** -/
theorem single_use_fails :
    ¬ ∀ (st : GrantStore) (now : Int) (mvs : List (Move TokenRequest Int)) (p : GrantPool),
      Run Possible st.poolStep (idle now) mvs p → st.SingleUse p := by
  intro h
  have hrun : Run Possible sampleStore.poolStep (idle 0) heldUp
      (heldUp.foldl sampleStore.poolStep (idle 0)) := by
    refine .cons rfl (.cons ?_ (.cons ?_ (.cons ?_ (.cons ?_ (.cons rfl (.cons ?_ (.cons ?_
      (.cons ?_ (.cons rfl (.cons ?_ (.cons ?_ (.cons ?_ (.nil _)))))))))))))
    · rintro c ⟨⟩
      exact ⟨rfl, by simp [idle, poolStep, Pool.step, Store.empty]⟩
    · rintro c ⟨⟩
      trivial
    · rintro c ⟨⟩
      trivial
    · show (0 : Int) ≤ second
      decide
    · rintro c ⟨⟩
      trivial
    · rintro c ⟨⟩
      trivial
    · show (0 : Int) ≤ 58 * second
      decide
    · rintro c ⟨⟩
      trivial
    · show (0 : Int) ≤ 3 * second
      decide
    · rintro c ⟨⟩
      trivial
  have hsingle := h sampleStore 0 heldUp _ hrun
  have hcontra := hsingle.codes "c1" 1 2 _ _ rfl rfl
    ⟨"c1", "app", "https://app/cb", sampleGrant, rfl, rfl, rfl⟩
    ⟨"c1", "app", "https://app/cb", sampleGrant, rfl, rfl, rfl⟩
  omega

/-- Two redemptions of one code at once: both read it, one wins. -/
def race : List (Move TokenRequest Int) :=
  [.spawn { call := .issueCode sampleGrant "c1" }, .advance 0, .spawn redeemC1, .spawn redeemC1,
    .advance 1, .advance 2, .tick second, .advance 2, .advance 1, .advance 1]

theorem single_use_of_race : sampleStore.SingleUse (race.foldl sampleStore.poolStep (idle 0)) := by
  have hrun : Run (fun p mv => Possible p mv ∧ Prompt p mv) sampleStore.poolStep (idle 0) race
      (race.foldl sampleStore.poolStep (idle 0)) := ?_
  · exact sampleStore.single_use_of_prompt hrun
  refine .cons ⟨rfl, trivial⟩ (.cons ⟨?_, ?_⟩ (.cons ⟨rfl, trivial⟩ (.cons ⟨rfl, trivial⟩
    (.cons ⟨?_, ?_⟩ (.cons ⟨?_, ?_⟩ (.cons ⟨?_, trivial⟩ (.cons ⟨?_, ?_⟩ (.cons ⟨?_, ?_⟩
      (.cons ⟨?_, ?_⟩ (.nil _))))))))))
  · rintro c ⟨⟩
    exact ⟨rfl, by simp [idle, poolStep, Pool.step, Store.empty]⟩
  · rintro c ⟨⟩
    trivial
  · rintro c ⟨⟩
    trivial
  · rintro c ⟨⟩
    trivial
  · rintro c ⟨⟩
    trivial
  · rintro c ⟨⟩
    trivial
  · show (0 : Int) ≤ second
    decide
  · rintro c ⟨⟩
    trivial
  · rintro c ⟨⟩
    exact ⟨sampleGrant, rfl⟩
  · rintro c ⟨⟩
    trivial
  · rintro c ⟨⟩
    exact ⟨sampleGrant, rfl⟩
  · rintro c ⟨⟩
    trivial
  · rintro c ⟨⟩
    trivial

end GrantStore

end CampusID
