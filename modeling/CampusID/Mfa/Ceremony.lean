import CampusID.Lib.Runs
import CampusID.Mfa.Assurance
import CampusID.Saml.Stores
import CampusID.Session.Effects

/-!
# The step-ups of one session

A session keeps one instant, `auth_time`, for a growing list of methods.  A login sets it to
the instant the IdP asserts; a step-up reads it as that of the first factor, and overwrites it
with the present.  So the second step-up measures its distance from the first one, whatever
the first one presented, and a method that was counted once is counted from then on as if it
had been presented at the last step-up.

`Ceremony` is a session together with what was presented for it and when, and the instant of the
login or of the last step-up, which the program does not keep.  `stepUps_recent_iff` says in which
runs every AAL2 is two recent categories: those in which no factor is presented within the span of
the last one while every factor of another category has fallen out of it.

`Ceremony.run_program` is the refinement: a step is what the program of the store does to the
record in Redis.
-/

namespace CampusID
namespace Mfa

open Lib

/-- The kinds of factor a step-up route names to `_elevate`. -/
inductive Kind where
  | totp
  | webauthn
  | push
  | recovery
  deriving DecidableEq, Repr

/-- `CATEGORY`, and the categories the last two routes give instead. -/
def Kind.category : Kind → String
  | .totp => otp
  | .webauthn => hwk
  | .push => Mfa.push
  | .recovery => Mfa.recovery

theorem Kind.category_mem (kind : Kind) : kind.category ∈ factorCategories := by
  cases kind <;> decide

theorem Kind.category_ne_pwd (kind : Kind) : kind.category ≠ pwd := by
  cases kind <;> decide

/-- `_elevate`: what the session the route loaded is raised to, and that session moved. -/
def elevate (store : SessionStore) (session : Session) (kind : Kind) (fresh : String)
    (checkedAt storedAt : Int) : RedisProg (Option (Assurance × Session)) := do
  let raised := elevated session.amr kind.category session.authTime checkedAt
  let moved ← store.elevate session.sid raised.acr raised.amr fresh storedAt
  return moved.map fun session => (raised, session)

/-- What the ACS gives `create`: of what the gate extracted the context and the instant, and
the one method `pwd`. -/
def acsLogin (facts : Saml.AssertionFacts Int) (attributes : List (String × List String))
    (personUuid : String) : Login where
  idpEntityId := facts.issuer
  nameId := facts.nameId
  nameIdFormat := facts.nameIdFormat
  authTime := some facts.authnInstant.time
  acr := facts.authnContext
  amr := [pwd]
  sessionIndex := facts.sessionIndex
  attributes := attributes
  personUuid := some personUuid

/-! ## One session -/

/-- A session, what was presented for it and when, the instant of its login or of the last step-up,
how far the clock is, and what the last step-up said and when it was checked. -/
structure Ceremony where
  session : Session
  presented : List (String × Int)
  since : Int
  now : Int
  last : Option (Assurance × Int)

/-- What happens to a session that is in use. -/
inductive Move where
  | load (now : Int)
  | rotate (fresh : String) (now : Int)
  | stepUp (kind : Kind) (fresh : String) (checkedAt storedAt : Int)
  deriving DecidableEq, Repr

/-- The instant a move reaches the store. -/
def Move.storedAt : Move → Int
  | .load now => now
  | .rotate _ now => now
  | .stepUp _ _ _ storedAt => storedAt

/-- A login, as the broker seats it at `now`: the password was presented when the IdP says. -/
def Ceremony.start (store : SessionStore) (facts : Saml.AssertionFacts Int)
    (attributes : List (String × List String)) (personUuid sid : String) (now : Int) : Ceremony :=
  ⟨store.newSession (acsLogin facts attributes personUuid) sid now,
    [(pwd, facts.authnInstant.time)], facts.authnInstant.time, now, none⟩

namespace Ceremony

/-- One move. -/
def step (c : Ceremony) : Move → Ceremony
  | .load now => { c with session := { c.session with lastSeenAt := now }, now := now }
  | .rotate fresh now =>
    { c with session := { c.session with sid := fresh, lastSeenAt := now }, now := now }
  | .stepUp kind fresh checkedAt storedAt =>
    let raised := elevated c.session.amr kind.category c.session.authTime checkedAt
    { session := { c.session with
        sid := fresh, acr := some raised.acr, amr := raised.amr, authTime := storedAt,
        lastSeenAt := storedAt }
      presented := c.presented ++ [(kind.category, checkedAt)]
      since := storedAt
      now := storedAt
      last := some (raised, checkedAt) }

/-- The clock does not go back, and the session has not timed out. -/
def Allowed (store : SessionStore) (c : Ceremony) (move : Move) : Prop :=
  c.now ≤ move.storedAt ∧ ¬ store.TimedOut c.session move.storedAt ∧
    ∀ kind fresh checkedAt storedAt, move = .stepUp kind fresh checkedAt storedAt →
      c.now ≤ checkedAt ∧ checkedAt ≤ storedAt

/-- The program of a move, and the session it hands back. -/
def program (store : SessionStore) (c : Ceremony) : Move → RedisProg (Option Session)
  | .load now => store.load c.session.sid now
  | .rotate fresh now => store.rotate c.session.sid fresh now
  | .stepUp kind fresh checkedAt storedAt =>
    (elevate store c.session kind fresh checkedAt storedAt).bind fun raised =>
      .pure (raised.map Prod.snd)

/-- The identifier a move draws, if it draws one, is another than the session's. -/
def Draws (c : Ceremony) : Move → Prop
  | .load _ => True
  | .rotate fresh _ => fresh ≠ c.session.sid
  | .stepUp _ fresh _ _ => fresh ≠ c.session.sid

/-! ### What a step is in Redis -/

section Redis

variable {store : SessionStore} {c : Ceremony} {r : Redis}

theorem run_reissue {now : Int} {session : Session} (f : Session → Session)
    (hlive : r.strings.live now (.session session.sid) = some session)
    (hintime : ¬ store.TimedOut session now)
    (hsid : (f { session with lastSeenAt := now }).sid ≠ session.sid) :
    ∃ r', Redis.run now (store.reissue session.sid f now) r =
        (some (f { session with lastSeenAt := now }), r') ∧
      r'.strings.live now (.session (f { session with lastSeenAt := now }).sid) =
        some (f { session with lastSeenAt := now }) := by
  refine ⟨_, store.reissue_of_load (store.load_of_intime hlive hintime) f, ?_⟩
  have hne : Key.session (f { session with lastSeenAt := now }).sid ≠ .session session.sid := by
    simpa using hsid
  rw [SessionStore.destroyedAt_strings, Table.live, Table.erase_of_ne _ hne]
  exact store.live_writtenAt now _ (f { session with lastSeenAt := now })

/-- **A step is what the program does.**  Where Redis holds the session and it is in time, the
program of a move hands back the session the step says, and Redis holds that one. -/
theorem run_program {move : Move}
    (hlive : r.strings.live move.storedAt (.session c.session.sid) = some c.session)
    (hallowed : c.Allowed store move) (hdraws : c.Draws move) :
    ∃ r', Redis.run move.storedAt (c.program store move) r = (some (c.step move).session, r') ∧
      r'.strings.live move.storedAt (.session (c.step move).session.sid) =
        some (c.step move).session := by
  have hintime := hallowed.2.1
  cases move with
  | load now =>
    exact ⟨_, store.load_of_intime hlive hintime,
      store.live_writtenAt now r { c.session with lastSeenAt := now }⟩
  | rotate fresh now =>
    exact run_reissue (fun session => { session with sid := fresh, lastSeenAt := now })
      hlive hintime hdraws
  | stepUp kind fresh checkedAt storedAt =>
    let raised := elevated c.session.amr kind.category c.session.authTime checkedAt
    obtain ⟨r', hrun, hheld⟩ := run_reissue (fun session => { session with
      sid := fresh, acr := some raised.acr, amr := raised.amr, authTime := storedAt,
      lastSeenAt := storedAt }) hlive hintime hdraws
    refine ⟨r', ?_, hheld⟩
    have helevate : Redis.run storedAt
        (store.elevate c.session.sid raised.acr raised.amr fresh storedAt) r =
          (some (c.step (.stepUp kind fresh checkedAt storedAt)).session, r') := hrun
    simp only [Redis.run] at helevate
    simp [Redis.run, program, elevate, Move.storedAt, raised, helevate]

end Redis

/-! ### Which step-ups are recent -/

/-- In the span before `now`. -/
def Within (t now : Int) : Prop := t ≤ now ∧ now - t ≤ maxSpan

/-- What the last step-up called AAL2 is two categories, both presented within the span
before it. -/
def Recent (c : Ceremony) : Prop :=
  ∀ raised now, c.last = some (raised, now) → raised.acr = aal2 →
    ∃ p ∈ c.presented, ∃ q ∈ c.presented, p.1 ∈ factorCategories ∧ q.1 ∈ factorCategories ∧
      p.1 ≠ q.1 ∧ Within p.2 now ∧ Within q.2 now

/-- If the login or the last step-up is no longer ago than the span, then neither is the last factor
of some other category. -/
def Close (c : Ceremony) : Move → Prop
  | .load _ => True
  | .rotate _ _ => True
  | .stepUp kind _ checkedAt _ => checkedAt - c.since ≤ maxSpan →
    ∃ p ∈ c.presented, p.1 ≠ kind.category ∧ checkedAt - p.2 ≤ maxSpan

/-- The session's categories are those presented, the password among them, and none of them
in the future; and its `auth_time` is the instant of the login or of the last step-up. -/
structure Kept (c : Ceremony) : Prop where
  categories : ∀ p ∈ c.presented, p.1 ∈ factorCategories
  methods : ∀ m ∈ factorCategories, m ∈ c.session.amr ↔ ∃ p ∈ c.presented, p.1 = m
  login : pwd ∈ c.session.amr
  instants : ∀ p ∈ c.presented, p.2 ≤ c.now
  authTime : c.session.authTime = c.since

variable {store : SessionStore} {c : Ceremony}

theorem kept_start {facts : Saml.AssertionFacts Int} {attributes : List (String × List String)}
    {personUuid sid : String} {now : Int} (h : facts.authnInstant.time ≤ now) :
    (start store facts attributes personUuid sid now).Kept := by
  refine ⟨?_, ?_, ?_, ?_, rfl⟩
  · simp [start, factorCategories]
  · simp [start, SessionStore.newSession, acsLogin, eq_comm]
  · simp [start, SessionStore.newSession, acsLogin]
  · simpa [start] using h

theorem Kept.step (h : c.Kept) {move : Move} (hallowed : c.Allowed store move) :
    (c.step move).Kept := by
  obtain ⟨hforward, -, hchecked⟩ := hallowed
  cases move with
  | load now =>
    exact ⟨h.categories, h.methods, h.login, fun p hp => (h.instants p hp).trans hforward,
      h.authTime⟩
  | rotate fresh now =>
    exact ⟨h.categories, h.methods, h.login, fun p hp => (h.instants p hp).trans hforward,
      h.authTime⟩
  | stepUp kind fresh checkedAt storedAt =>
    obtain ⟨-, hstored⟩ := hchecked kind fresh checkedAt storedAt rfl
    refine ⟨fun p hp => ?_, fun m hm => ?_, ?_, fun p hp => ?_, rfl⟩
    · rcases List.mem_append.mp hp with hp | hp
      · exact h.categories p hp
      · rw [List.mem_singleton.mp hp]
        exact kind.category_mem
    · change m ∈ (elevated _ _ _ _ _).amr ↔ ∃ p ∈ c.presented ++ [(kind.category, checkedAt)], _
      rw [mem_elevated hm, h.methods m hm]
      simp [or_and_right, exists_or, eq_comm]
    · exact (mem_elevated (by decide)).mpr (.inl h.login)
    · rcases List.mem_append.mp hp with hp | hp
      · exact (h.instants p hp).trans hforward
      · rw [List.mem_singleton.mp hp]
        exact hstored

/-- **Close step-ups are recent.** -/
theorem Kept.recent_step (h : c.Kept) (hrecent : c.Recent) {move : Move}
    (hallowed : c.Allowed store move) (hclose : c.Close move) : (c.step move).Recent := by
  cases move with
  | load now => exact hrecent
  | rotate fresh now => exact hrecent
  | stepUp kind fresh checkedAt storedAt =>
    obtain ⟨hchecked, -⟩ := hallowed.2.2 kind fresh checkedAt storedAt rfl
    rintro raised now hlast hacr
    obtain ⟨rfl, rfl⟩ := Prod.mk.inj (Option.some.inj hlast)
    obtain ⟨hspan, -⟩ := (elevated_acr kind.category_mem).mp hacr
    rw [h.authTime] at hspan
    obtain ⟨p, hp, hne, hwithin⟩ := hclose hspan
    have hpast : p.2 ≤ checkedAt := (h.instants p hp).trans hchecked
    refine ⟨p, List.mem_append_left _ hp, (kind.category, checkedAt),
      List.mem_append_right _ List.mem_cons_self, h.categories p hp, kind.category_mem, hne,
      ⟨hpast, hwithin⟩, le_rfl, ?_⟩
    rw [sub_self]
    decide

/-- **Recent step-ups are close.**  Of two categories one is not that of the step-up, so it was
presented before. -/
theorem Kept.close_of_recent (h : c.Kept) {move : Move} (hrecent : (c.step move).Recent) :
    c.Close move := by
  cases move with
  | load now => trivial
  | rotate fresh now => trivial
  | stepUp kind fresh checkedAt storedAt =>
    intro hspan
    rw [← h.authTime] at hspan
    have hacr : (elevated c.session.amr kind.category c.session.authTime checkedAt).acr = aal2 :=
      (elevated_acr kind.category_mem).mpr
        ⟨hspan, pwd, h.login, by decide, kind.category_ne_pwd.symm⟩
    have hbefore : ∀ p ∈ (c.step (.stepUp kind fresh checkedAt storedAt)).presented,
        p.1 ≠ kind.category → p ∈ c.presented := by
      intro p hp hne
      refine (List.mem_append.mp hp).resolve_right fun hp => hne ?_
      rw [List.mem_singleton.mp hp]
    obtain ⟨p, hp, q, hq, -, -, hne, ⟨-, hwithin⟩, -, hwithin'⟩ := hrecent _ _ rfl hacr
    by_cases hpk : p.1 = kind.category
    · have hqk : q.1 ≠ kind.category := fun hqk => hne (hpk.trans hqk.symm)
      exact ⟨q, hbefore q hq hqk, hqk, hwithin'⟩
    · exact ⟨p, hbefore p hp hpk, hpk, hwithin⟩

/-- **When AAL2 means two factors close together.**  In every run of step-ups on a session
with loads and rotations between them, every step-up is close exactly when whatever is called
AAL2 is two categories presented within the span before it. -/
theorem stepUps_recent_iff (store : SessionStore) (facts : Saml.AssertionFacts Int)
    (attributes : List (String × List String)) (personUuid sid : String) {now : Int}
    (hinstant : facts.authnInstant.time ≤ now) {moves : List Move} {c : Ceremony}
    (h : Run (Allowed store) step (start store facts attributes personUuid sid now) moves c) :
    Run (fun c move => c.Allowed store move ∧ c.Close move) step
        (start store facts attributes personUuid sid now) moves c ↔
      ∀ pre post, moves = pre ++ post →
        (pre.foldl step (start store facts attributes personUuid sid now)).Recent := by
  refine Run.and_iff_forall_reached (I := fun c => c.Kept ∧ c.Recent) ?_ ?_ ?_ h
    ⟨kept_start hinstant, ?_⟩
  · rintro c move ⟨hkept, hrecent⟩ hallowed hclose
    exact ⟨hkept.step hallowed, hkept.recent_step hrecent hallowed hclose⟩
  · exact fun c hc => hc.2
  · exact fun c move hc _ hrecent => hc.1.close_of_recent hrecent
  · rintro raised now ⟨⟩

/-! ### A login the IdP had witnessed long before -/

/-- A store with the default timeouts. -/
def sampleStore : SessionStore := { sha256 := id }

/-- An assertion about an authentication at the instant zero. -/
def sampleFacts : Saml.AssertionFacts Int where
  issuer := "https://idp.example.edu"
  assertionId := "_a1"
  nameId := "n1"
  nameIdFormat := none
  notOnOrAfter := ⟨60000 * second, ""⟩
  authnInstant := ⟨0, ""⟩
  authnContext := none
  sessionIndex := none
  attributes := []
  relayState := none
  returnTo := none
  correlationId := none

/-- Seated eleven hours and fifty minutes later, with a one-time code after five minutes more
and another ten minutes after that. -/
theorem run_lateSession : Run (Allowed sampleStore) step
    (start sampleStore sampleFacts [] "p1" "s1" (42600 * second))
    [.stepUp .totp "s2" (42900 * second) (42900 * second),
      .stepUp .totp "s3" (43500 * second) (43500 * second)]
    ((start sampleStore sampleFacts [] "p1" "s1" (42600 * second)).step
      (.stepUp .totp "s2" (42900 * second) (42900 * second)) |>.step
        (.stepUp .totp "s3" (43500 * second) (43500 * second))) := by
  refine .cons ⟨by decide, ?_, ?_⟩ (.cons ⟨by decide, ?_, ?_⟩ (.nil _))
  · unfold SessionStore.TimedOut
    decide
  · rintro _ _ _ _ ⟨⟩
    decide
  · unfold SessionStore.TimedOut
    decide
  · rintro _ _ _ _ ⟨⟩
    decide

/-- The login, and the first of the two. -/
def lateLogin : Ceremony := start sampleStore sampleFacts [] "p1" "s1" (42600 * second)

@[inherit_doc lateLogin]
def lateStepUp : Move := .stepUp .totp "s2" (42900 * second) (42900 * second)

theorem run_program_late : ∃ r', Redis.run lateStepUp.storedAt
    (lateLogin.program sampleStore lateStepUp)
      (sampleStore.writtenAt lateStepUp.storedAt Store.empty lateLogin.session) =
        (some (lateLogin.step lateStepUp).session, r') ∧
    r'.strings.live lateStepUp.storedAt (.session (lateLogin.step lateStepUp).session.sid) =
      some (lateLogin.step lateStepUp).session :=
  run_program (sampleStore.live_writtenAt _ _ _) (Run.cons_iff.mp run_lateSession).1
    (by decide : "s2" ≠ "s1")

/-- The first of the two is close to the login. -/
theorem stepUps_recent_iff_first :
    (step (start sampleStore sampleFacts [] "p1" "s1" (42600 * second))
      (.stepUp .totp "s2" (42900 * second) (42900 * second))).Recent := by
  have hrun := (Run.cons_iff.mp run_lateSession).1
  refine (stepUps_recent_iff sampleStore sampleFacts [] "p1" "s1" (by decide)
    (Run.cons hrun (.nil _))).mp (.cons ⟨hrun, fun _ => ?_⟩ (.nil _)) [_] [] rfl
  exact ⟨(pwd, 0), List.mem_cons_self, by decide, by decide⟩

/-- **The second is AAL2 on a password twelve hours and five minutes old.**  Its span is
measured from the first. -/
theorem not_recent : ¬ ∀ (store : SessionStore) (facts : Saml.AssertionFacts Int)
    (attributes : List (String × List String)) (personUuid sid : String) (now : Int)
    (moves : List Move) (c : Ceremony), facts.authnInstant.time ≤ now →
    Run (Allowed store) step (start store facts attributes personUuid sid now) moves c →
      c.Recent := by
  intro h
  have hrecent := h _ _ _ _ _ _ _ _ (by decide) run_lateSession
  obtain ⟨p, hp, q, hq, -, -, hne, ⟨-, hwithin⟩, -, hwithin'⟩ := hrecent _ _ rfl
    ((elevated_acr (by decide)).mpr ⟨by decide, pwd, by decide, by decide, by decide⟩)
  have hcode : ∀ p ∈ [(pwd, (0 : Int)), (otp, 42900 * second), (otp, 43500 * second)],
      43500 * second - p.2 ≤ maxSpan → p.1 = otp := by decide
  exact hne ((hcode p hp hwithin).trans (hcode q hq hwithin').symm)

end Ceremony

end Mfa
end CampusID
