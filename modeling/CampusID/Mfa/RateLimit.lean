import CampusID.Mfa.Push

/-!
# The limit on second-factor attempts

The attempts on one kind of factor of one person: any number of requests, interleaved one Redis
command at a time.

A step-up looks at the lock, verifies, and counts a failure or forgets the failures.  What looks
at the lock is refused while it has time left (`RefusedWhileLocked`), whatever else runs.  The
poll of a push and the confirmation of an enrolment do not look at it, and looking, verifying and
counting are separate steps, so the count is only a bound on the failures where they happen one
at a time (`Serial`), and only where no success forgets them (`limit_holds`).

What a verification finds is an input of the request.
-/

namespace CampusID
namespace Mfa

open Lib

/-- `AttemptLimiter`, with its defaults. -/
structure AttemptLimiter where
  threshold : Nat := 5
  window : Int := 15 * 60 * second
  lockout : Int := 15 * 60 * second

/-- `int(window.total_seconds())`, as a duration. -/
def AttemptLimiter.windowEx (limiter : AttemptLimiter) : Int := limiter.window.tdiv second * second

/-- `int(lockout.total_seconds())`, as a duration. -/
def AttemptLimiter.lockoutEx (limiter : AttemptLimiter) : Int := limiter.lockout.tdiv second * second

/-- The counter and the lock of the person and the kind. -/
structure LimitState where
  attempts : Option (Entry Int Nat) := none
  lock : Option (Entry Int Unit) := none

/-- What a verification finds.  The answer of the push service may still be outstanding. -/
inductive Verdict where
  | accepted
  | rejected
  | undecided
  deriving DecidableEq, Repr

/-- The steps: the commands on the two keys, and a verification.  The counter is deleted when a
lock is set and when an attempt succeeds. -/
inductive LimitCmd where
  | ttl
  | incr
  | expire (ex : Int)
  | setLock (ex : Int)
  | reset
  | clear
  | verify (verdict : Verdict)
  | verifyConfirm (valid : Bool)
  deriving DecidableEq, Repr

/-- What a step answers. -/
abbrev LimitCmd.Reply : LimitCmd → Type
  | .ttl => Int
  | .incr => Nat
  | .expire _ => Unit
  | .setLock _ => Unit
  | .reset => Nat
  | .clear => Nat
  | .verify _ => Unit
  | .verifyConfirm _ => Unit

namespace LimitState

variable (st : LimitState) (now : Int)

/-- The counter, if it is there. -/
def counter : Option (Entry Int Nat) := st.attempts.filter fun e => e.Live now

/-- `TTL` of the lock: seconds, rounded to the nearest. -/
def ttl : Int :=
  match st.lock.filter fun e => e.Live now with
  | none => -2
  | some ⟨_, none⟩ => -1
  | some ⟨_, some t⟩ => (t - now + second / 2) / second

/-- The lock is set, and `locked` says so. -/
def Locked : Prop := 0 < st.ttl now

/-- The lock is there. -/
def HasLock : Prop := ∃ e ∈ st.lock, e.Live now

instance : Decidable (st.Locked now) := inferInstanceAs (Decidable (_ < _))

instance : Decidable (st.HasLock now) := inferInstanceAs (Decidable (∃ e ∈ st.lock, e.Live now))

/-- One step at the instant `now`. -/
def exec (now : Int) : (c : LimitCmd) → LimitState → c.Reply × LimitState
  | .ttl, st => (st.ttl now, st)
  | .incr, st =>
    match st.counter now with
    | none => ((1 : Nat), { st with attempts := some ⟨1, none⟩ })
    | some e => (e.value + 1, { st with attempts := some ⟨e.value + 1, e.expiry⟩ })
  | .expire ex, st =>
    ((), { st with attempts := (st.counter now).map fun e => ⟨e.value, some (now + ex)⟩ })
  | .setLock ex, st => ((), { st with lock := some ⟨(), some (now + ex)⟩ })
  | .reset, st => (if (st.counter now).isSome then 1 else 0, { st with attempts := none })
  | .clear, st => (if (st.counter now).isSome then 1 else 0, { st with attempts := none })
  | .verify _, st => ((), st)
  | .verifyConfirm _, st => ((), st)

end LimitState

/-- `Failure`. -/
structure Failure where
  attempts : Nat
  locked : Bool
  deriving DecidableEq, Repr

/-- How a request ends. -/
inductive LimitOutcome where
  | locked (retryAfter : Int)
  | accepted
  | failed (failure : Failure)
  | undecided
  | raised
  | unavailable
  | confirmed
  | refused
  deriving DecidableEq, Repr

/-- A program of these steps. -/
abbrev LimitProgram := Prog LimitCmd LimitCmd.Reply

/-- One step. -/
def limitCommand (c : LimitCmd) : LimitProgram c.Reply := Prog.send c

namespace AttemptLimiter

variable (limiter : AttemptLimiter)

/-- `record_failure` once the lock is set. -/
def lockSet (attempts : Nat) : LimitProgram Failure := do
  let _ : Nat ← limitCommand .reset
  return { attempts := attempts, locked := true }

/-- `record_failure` once the window is set. -/
def counted (attempts : Nat) : LimitProgram Failure :=
  if attempts < limiter.threshold then return { attempts := attempts, locked := false }
  else do
    limitCommand (.setLock limiter.lockoutEx)
    lockSet attempts

/-- `record_failure`. -/
def recordFailure : LimitProgram Failure := do
  let attempts : Nat ← limitCommand .incr
  if attempts = 1 then do
    limitCommand (.expire limiter.windowEx)
    limiter.counted attempts
  else limiter.counted attempts

/-- `check`, and what follows if it does not raise. -/
def check (attempt : LimitProgram LimitOutcome) : LimitProgram LimitOutcome := do
  let remaining : Int ← limitCommand .ttl
  if remaining > 0 then return .locked remaining
  else attempt

/-- `_failed`. -/
def failed : LimitProgram LimitOutcome := do
  let failure ← limiter.recordFailure
  return .failed failure

/-- `_elevate`: `record_success`, and the elevation. -/
def elevate : LimitProgram LimitOutcome := do
  let _ : Nat ← limitCommand .clear
  return .accepted

/-- A verification, and what its verdict leads to. -/
def attempt (verdict : Verdict) : LimitProgram LimitOutcome := do
  limitCommand (.verify verdict)
  match verdict with
  | .accepted => elevate
  | .rejected => limiter.failed
  | .undecided => return .undecided

/-- The verdict on a code, an assertion or a recovery code. -/
def verdictOf (valid : Bool) : Verdict := if valid then .accepted else .rejected

/-- The verdict on what the push service answered. -/
def verdictOfPush (outcome : String) : Verdict :=
  if outcome = pushPending then .undecided
  else if outcome = pushUnavailable then .undecided
  else if outcome = pushApproved then .accepted
  else .rejected

/-- `step_up_totp`. -/
def stepUpTotp (valid : Bool) : LimitProgram LimitOutcome :=
  check (limiter.attempt (verdictOf valid))

/-- `step_up_webauthn`, once its body is read.  A missing challenge is a failure like another. -/
def stepUpWebauthn (valid : Bool) : LimitProgram LimitOutcome :=
  check (limiter.attempt (verdictOf valid))

/-- `step_up_recovery`. -/
def stepUpRecovery (valid : Bool) : LimitProgram LimitOutcome :=
  check (limiter.attempt (verdictOf valid))

/-- `start_push`. -/
def startPush (sent : Bool) : LimitProgram LimitOutcome :=
  check (return if sent then .raised else .unavailable)

/-- `poll_push`. -/
def pollPush (outcome : String) : LimitProgram LimitOutcome :=
  limiter.attempt (verdictOfPush outcome)

/-- The route of `confirm_totp`. -/
def confirm (valid : Bool) : LimitProgram LimitOutcome := do
  limitCommand (.verifyConfirm valid)
  return if valid then .confirmed else .refused

end AttemptLimiter

/-- The requests on the person and the kind, with what their verifications find. -/
inductive LimitCall where
  | stepUpTotp (valid : Bool)
  | stepUpWebauthn (valid : Bool)
  | stepUpRecovery (valid : Bool)
  | startPush (sent : Bool)
  | pollPush (outcome : String)
  | confirmTotp (valid : Bool)
  deriving DecidableEq, Repr

/-- The program of a request. -/
def AttemptLimiter.program (limiter : AttemptLimiter) : LimitCall → LimitProgram LimitOutcome
  | .stepUpTotp valid => limiter.stepUpTotp valid
  | .stepUpWebauthn valid => limiter.stepUpWebauthn valid
  | .stepUpRecovery valid => limiter.stepUpRecovery valid
  | .startPush sent => AttemptLimiter.startPush sent
  | .pollPush outcome => limiter.pollPush outcome
  | .confirmTotp valid => AttemptLimiter.confirm valid

/-- A request in progress. -/
abbrev LimitThread := Thread LimitCmd LimitCmd.Reply LimitCall LimitOutcome Int

/-- The requests in progress over one Redis. -/
abbrev LimitPool := Pool LimitCmd LimitCmd.Reply LimitCall LimitOutcome Int LimitState

/-- No requests, no count and no lock. -/
def noAttempts (now : Int) : LimitPool := ⟨{}, now, []⟩

/-- One move. -/
def AttemptLimiter.poolStep (limiter : AttemptLimiter) (p : LimitPool) (mv : Move LimitCall Int) :
    LimitPool :=
  p.step LimitState.exec limiter.program mv

/-- The clock does not run backwards. -/
def ClockForward (_ : LimitPool) : Move LimitCall Int → Prop
  | .tick elapsed => 0 ≤ elapsed
  | _ => True

/-! ## Refused while locked, and failures bounded -/

/-- The step verifies. -/
def LimitCmd.Verifies : LimitCmd → Bool
  | .verify _ => true
  | .verifyConfirm _ => true
  | _ => false

/-- The step sets the lock. -/
def LimitCmd.Locks : LimitCmd → Bool
  | .setLock _ => true
  | _ => false

/-- The request has verified. -/
def Verified (th : LimitThread) : Bool := th.history.any fun e => e.2.1.Verifies

/-- The request has set the lock. -/
def HasLocked (th : LimitThread) : Bool := th.history.any fun e => e.2.1.Locks

/-- The request set the lock at the instant. -/
def LockedAt (th : LimitThread) (s : Int) : Prop := ∃ e ∈ th.history, e.1 = s ∧ e.2.1.Locks

instance (th : LimitThread) (s : Int) : Decidable (LockedAt th s) :=
  inferInstanceAs (Decidable (∃ e ∈ th.history, e.1 = s ∧ e.2.1.Locks))

/-- The step-up has failed to verify in the interval from `a` to `b`, not including `b`. -/
def FailedWithin (a b : Int) (th : LimitThread) : Bool :=
  th.history.any fun e => e.2.1 = .verify .rejected ∧ a ≤ e.1 ∧ e.1 < b

/-- How many step-ups have failed in the interval. -/
def failures (p : LimitPool) (a b : Int) : Nat := p.threads.countP (FailedWithin a b)

/-- A success has forgotten failures in the interval. -/
def ForgottenWithin (p : LimitPool) (a b : Int) : Prop :=
  ∃ th ∈ p.threads, ∃ e ∈ th.history, e.2 = ⟨.clear, (1 : Nat)⟩ ∧ a ≤ e.1 ∧ e.1 < b

/-- The lock keeps out what looks at it: a request that looks while the lock is set has not
verified, and is refused, whatever happens then; and the lock stays set as long as it was set
for. -/
structure RefusedWhileLocked (limiter : AttemptLimiter) (p : LimitPool) : Prop where
  refused : p.store.Locked p.now → ∀ i, p.next i = some .ttl → ∀ moves' p' th,
    Run ClockForward limiter.poolStep (limiter.poolStep p (.advance i)) moves' p' → p'.At i th →
      Verified th = false ∧ ∃ remaining, th.rest = .pure (.locked remaining)
  stays : ∀ i th s, p.At i th → LockedAt th s →
    p.now + second / 2 ≤ s + limiter.lockoutEx → p.store.Locked p.now

/-- In an interval of the length of the window in which no success has forgotten failures, fewer
than twice the threshold have failed. -/
def FailuresBounded (limiter : AttemptLimiter) (p : LimitPool) : Prop :=
  ∀ a, ¬ ForgottenWithin p a (a + limiter.windowEx) →
    failures p a (a + limiter.windowEx) ≤ 2 * limiter.threshold - 1

/-- A lock is reported by the request that set it, and no two requests set the lock in one
lockout. -/
structure LocksReported (limiter : AttemptLimiter) (p : LimitPool) : Prop where
  told : ∀ i th out, p.At i th → th.rest = .pure out →
    ((∃ attempts, out = .failed ⟨attempts, true⟩) ↔ HasLocked th = true)
  apart : ∀ i j th th' s s', p.At i th → p.At j th' → LockedAt th s → LockedAt th' s' → i ≠ j →
    s + limiter.lockoutEx ≤ s' ∨ s' + limiter.lockoutEx ≤ s

/-- The step records a failure. -/
def LimitCmd.Records : LimitCmd → Bool
  | .incr => true
  | .expire _ => true
  | .setLock _ => true
  | .reset => true
  | _ => false

/-- **A step-up fails only while the lock is not there and no other failure is being recorded.** -/
def Serial (p : LimitPool) : Move LimitCall Int → Prop
  | .advance i => p.next i = some (.verify .rejected) →
    ¬ p.store.HasLock p.now ∧ ∀ j < p.threads.length, ∀ c ∈ p.next j, c.Records = false
  | _ => True

instance (p : LimitPool) : (mv : Move LimitCall Int) → Decidable (ClockForward p mv)
  | .tick elapsed => inferInstanceAs (Decidable (0 ≤ elapsed))
  | .spawn _ => .isTrue trivial
  | .advance _ => .isTrue trivial

instance (p : LimitPool) : (mv : Move LimitCall Int) → Decidable (Serial p mv)
  | .advance i => inferInstanceAs (Decidable (p.next i = some (.verify .rejected) →
      ¬ p.store.HasLock p.now ∧ ∀ j < p.threads.length, ∀ c ∈ p.next j, c.Records = false))
  | .tick _ => .isTrue trivial
  | .spawn _ => .isTrue trivial

/-! ## The programs -/

section Programs

variable (limiter : AttemptLimiter)

/-- What is left of a failed step-up once the window is set. -/
def closing (attempts : Nat) : LimitProgram LimitOutcome :=
  if attempts < limiter.threshold then .pure (.failed ⟨attempts, false⟩)
  else .call (.setLock limiter.lockoutEx) fun _ => .call .reset fun _ =>
    .pure (.failed ⟨attempts, true⟩)

/-- What is left of a failed step-up once it is counted. -/
def counting (attempts : Nat) : LimitProgram LimitOutcome :=
  if attempts = 1 then .call (.expire limiter.windowEx) fun _ => closing limiter attempts
  else closing limiter attempts

theorem counted_bind (attempts : Nat) :
    (limiter.counted attempts).bind (fun failure => .pure (.failed failure)) =
      closing limiter attempts := by
  unfold AttemptLimiter.counted closing
  split_ifs <;> rfl

theorem failed_eq : limiter.failed = .call .incr (counting limiter) := by
  refine congrArg (Prog.call LimitCmd.incr) (funext fun attempts => ?_)
  change Prog.bind (ite (attempts = 1) _ _) _ = counting limiter attempts
  unfold counting
  split_ifs
  · exact congrArg (Prog.call _) (funext fun _ => counted_bind limiter attempts)
  · exact counted_bind limiter attempts

/-- What is left of a verification. -/
def settling : Verdict → LimitProgram LimitOutcome
  | .accepted => .call .clear fun _ => .pure .accepted
  | .rejected => .call .incr (counting limiter)
  | .undecided => .pure .undecided

theorem attempt_eq (verdict : Verdict) :
    limiter.attempt verdict = .call (.verify verdict) fun _ => settling limiter verdict := by
  refine congrArg (Prog.call (LimitCmd.verify verdict)) (funext fun _ => ?_)
  cases verdict with
  | accepted => rfl
  | rejected => exact failed_eq limiter
  | undecided => rfl

/-- Where a request can be, having verified or not, and having set the lock or not. -/
inductive Point : Bool → Bool → LimitProgram LimitOutcome → Prop
  | check {k : Int → LimitProgram LimitOutcome}
      (locked : ∀ remaining, 0 < remaining → k remaining = .pure (.locked remaining))
      (passed : ∀ remaining, ¬ 0 < remaining → Point false false (k remaining)) :
      Point false false (.call .ttl k)
  | locked (remaining : Int) : Point false false (.pure (.locked remaining))
  | raised (sent : Bool) : Point false false (.pure (if sent then .raised else .unavailable))
  | verify (verdict : Verdict) :
      Point false false (.call (.verify verdict) fun _ => settling limiter verdict)
  | clear : Point true false (.call .clear fun _ => .pure .accepted)
  | accepted : Point true false (.pure .accepted)
  | undecided : Point true false (.pure .undecided)
  | incr : Point true false (.call .incr (counting limiter))
  | expire : Point true false (.call (.expire limiter.windowEx) fun _ => closing limiter 1)
  | counted {attempts : Nat} (h : attempts < limiter.threshold) :
      Point true false (.pure (.failed ⟨attempts, false⟩))
  | cross {attempts : Nat} (h : ¬ attempts < limiter.threshold) :
      Point true false (.call (.setLock limiter.lockoutEx) fun _ => .call .reset fun _ =>
        .pure (.failed ⟨attempts, true⟩))
  | reset (attempts : Nat) :
      Point true true (.call .reset fun _ => .pure (.failed ⟨attempts, true⟩))
  | crossed (attempts : Nat) : Point true true (.pure (.failed ⟨attempts, true⟩))
  | verifyConfirm (valid : Bool) : Point false false (.call (.verifyConfirm valid) fun _ =>
      .pure (if valid then .confirmed else .refused))
  | confirmed (valid : Bool) : Point true false (.pure (if valid then .confirmed else .refused))

variable {limiter}

theorem Point.closing (attempts : Nat) : Point limiter true false (closing limiter attempts) := by
  unfold Mfa.closing
  split_ifs with h
  · exact .counted h
  · exact .cross h

theorem Point.counting (attempts : Nat) :
    Point limiter true false (counting limiter attempts) := by
  unfold Mfa.counting
  split_ifs with h
  · subst h
    exact .expire
  · exact .closing attempts

theorem Point.settling (verdict : Verdict) :
    Point limiter true false (settling limiter verdict) := by
  cases verdict with
  | accepted => exact .clear
  | rejected => exact .incr
  | undecided => exact .undecided

theorem Point.attempt (verdict : Verdict) :
    Point limiter false false (limiter.attempt verdict) := by
  rw [attempt_eq]
  exact .verify verdict

theorem Point.checked {attempt : LimitProgram LimitOutcome} (h : Point limiter false false attempt) :
    Point limiter false false (AttemptLimiter.check attempt) := by
  refine .check (fun remaining hlocked => if_pos hlocked) fun remaining hopen => ?_
  change Point limiter false false (ite (remaining > 0) _ _)
  rwa [if_neg hopen]

theorem Point.program (q : LimitCall) : Point limiter false false (limiter.program q) := by
  cases q with
  | stepUpTotp valid => exact .checked (.attempt _)
  | stepUpWebauthn valid => exact .checked (.attempt _)
  | stepUpRecovery valid => exact .checked (.attempt _)
  | startPush sent => exact .checked (.raised sent)
  | pollPush outcome => exact .attempt _
  | confirmTotp valid => exact .verifyConfirm valid

theorem Point.step {verified locked : Bool} {c : LimitCmd} {k : c.Reply → LimitProgram LimitOutcome}
    (h : Point limiter verified locked (.call c k)) (r : c.Reply) :
    Point limiter (verified || c.Verifies) (locked || c.Locks) (k r) := by
  cases h with
  | check hlocked hpassed =>
    by_cases hr : 0 < r
    · rw [hlocked r hr]
      exact .locked r
    · exact hpassed r hr
  | verify verdict => exact .settling verdict
  | clear => exact .accepted
  | incr => exact .counting r
  | expire => exact .closing 1
  | cross => exact .reset _
  | reset attempts => exact .crossed attempts
  | verifyConfirm valid => exact .confirmed valid

end Programs

/-- Every request is where a request can be. -/
def Placed (limiter : AttemptLimiter) (p : LimitPool) : Prop :=
  ∀ i th, p.At i th → Point limiter (Verified th) (HasLocked th) th.rest

section Steps

variable {limiter : AttemptLimiter} {p : LimitPool} {i : Nat} {th : LimitThread} {c : LimitCmd}
  {k : c.Reply → LimitProgram LimitOutcome}

theorem any_advance (f : Int × (Σ c : LimitCmd, c.Reply) → Bool) (th : LimitThread) (now : Int)
    (r : c.Reply) (rest : LimitProgram LimitOutcome) :
    (th.advance now c r rest).history.any f = (th.history.any f || f (now, ⟨c, r⟩)) := by
  simp

theorem Placed.fire (h : Placed limiter p) (hi : p.At i th) (hr : th.rest = .call c k) :
    Placed limiter (p.fire LimitState.exec i th c k) := by
  intro j th' hj
  rcases (Pool.fire_threads hi).mp hj with ⟨rfl, rfl⟩ | ⟨-, hj⟩
  · have hpoint := h j th hi
    rw [hr] at hpoint
    unfold Verified HasLocked
    rw [any_advance, any_advance]
    exact hpoint.step _
  · exact h j th' hj

theorem Placed.spawn (h : Placed limiter p) (q : LimitCall) :
    Placed limiter { p with threads := p.threads ++ [⟨q, [], limiter.program q⟩] } := by
  intro j th' hj
  rcases Pool.spawn_threads hj with hj | ⟨-, rfl⟩
  · exact h j th' hj
  · exact .program q

theorem Placed.point (h : Placed limiter p) (hi : p.At i th) (hr : th.rest = .call c k) :
    ∃ verified locked, Verified th = verified ∧ HasLocked th = locked ∧
      Point limiter verified locked (.call c k) :=
  ⟨_, _, rfl, rfl, hr ▸ h i th hi⟩

/-! ## The lock -/

theorem locked_of_lock {st : LimitState} {now y : Int} (h : st.lock = some ⟨(), some y⟩)
    (hleft : now + second / 2 ≤ y) : st.Locked now := by
  have hlive : now < y := by
    unfold second at hleft
    omega
  unfold LimitState.Locked LimitState.ttl
  rw [h, Option.filter_some, if_pos (decide_eq_true (Entry.live_some.mpr hlive))]
  change 0 < (y - now + second / 2) / second
  unfold second at *
  omega

theorem lockedAt_advance {now s : Int} {r : c.Reply} {rest : LimitProgram LimitOutcome}
    (h : LockedAt (th.advance now c r rest) s) : LockedAt th s ∨ (s = now ∧ c.Locks = true) := by
  obtain ⟨e, he, hs, hlocks⟩ := h
  rw [Thread.advance_history, List.mem_append, List.mem_singleton] at he
  rcases he with he | rfl
  · exact .inl ⟨e, he, hs, hlocks⟩
  · exact .inr ⟨hs.symm, hlocks⟩

theorem Placed.lock (h : Placed limiter p) (hi : p.At i th) (hr : th.rest = .call c k) :
    (c.Locks = false ∧ (LimitState.exec p.now c p.store).2.lock = p.store.lock) ∨
      (c.Locks = true ∧ (LimitState.exec p.now c p.store).2.lock =
        some ⟨(), some (p.now + limiter.lockoutEx)⟩) := by
  obtain ⟨_, _, -, -, hpoint⟩ := h.point hi hr
  cases hpoint with
  | cross => exact .inr ⟨rfl, rfl⟩
  | incr =>
    refine .inl ⟨rfl, ?_⟩
    simp only [LimitState.exec]
    split <;> rfl
  | check => exact .inl ⟨rfl, rfl⟩
  | verify => exact .inl ⟨rfl, rfl⟩
  | clear => exact .inl ⟨rfl, rfl⟩
  | expire => exact .inl ⟨rfl, rfl⟩
  | reset => exact .inl ⟨rfl, rfl⟩
  | verifyConfirm => exact .inl ⟨rfl, rfl⟩

/-- The lock is there for as long as any request has set it for. -/
structure Kept (limiter : AttemptLimiter) (p : LimitPool) : Prop where
  placed : Placed limiter p
  lock : ∀ i th s, p.At i th → LockedAt th s →
    s ≤ p.now ∧ ∃ y, p.store.lock = some ⟨(), some y⟩ ∧ s + limiter.lockoutEx ≤ y

theorem Kept.fire (h : Kept limiter p) (hi : p.At i th) (hr : th.rest = .call c k) :
    Kept limiter (p.fire LimitState.exec i th c k) := by
  refine ⟨h.placed.fire hi hr, fun j th' s hj hs => ?_⟩
  have hold : ∀ th₀ : LimitThread, p.At j th₀ → LockedAt th₀ s → s ≤ p.now ∧
      ∃ y, (LimitState.exec p.now c p.store).2.lock = some ⟨(), some y⟩ ∧
        s + limiter.lockoutEx ≤ y := by
    intro th₀ hj₀ hs₀
    obtain ⟨hle, y, hy, hsy⟩ := h.lock j th₀ s hj₀ hs₀
    rcases h.placed.lock hi hr with ⟨-, hlock⟩ | ⟨-, hlock⟩
    · exact ⟨hle, y, hlock.trans hy, hsy⟩
    · exact ⟨hle, _, hlock, Int.add_le_add_right hle _⟩
  rcases (Pool.fire_threads hi).mp hj with ⟨rfl, rfl⟩ | ⟨-, hj⟩
  · rcases lockedAt_advance hs with hs | ⟨rfl, hlocks⟩
    · exact hold th hi hs
    · rcases h.placed.lock hi hr with ⟨hno, -⟩ | ⟨-, hlock⟩
      · rw [hno] at hlocks
        cases hlocks
      · exact ⟨le_rfl, _, hlock, le_rfl⟩
  · exact hold th' hj hs

theorem Kept.step (h : Kept limiter p) {m : Move LimitCall Int} (hgo : ClockForward p m) :
    Kept limiter (limiter.poolStep p m) := by
  refine Pool.step_invariant LimitState.exec limiter.program (A := ClockForward) ?_ ?_ ?_ p m h hgo
  · intro p d h hd
    refine ⟨h.placed, fun j th s hj hs => ?_⟩
    obtain ⟨hle, hy⟩ := h.lock j th s hj hs
    exact ⟨hle.trans (Int.le_add_of_nonneg_right hd), hy⟩
  · intro p q h _
    refine ⟨h.placed.spawn q, fun j th s hj hs => ?_⟩
    rcases Pool.spawn_threads hj with hj | ⟨-, rfl⟩
    · exact h.lock j th s hj hs
    · obtain ⟨e, ⟨⟩, -⟩ := hs
  · intro p i th c k h _ hi hr
    exact h.fire hi hr

theorem at_of_run {out : LimitOutcome} (hi : p.At i th) (hend : th.rest = .pure out)
    {moves : List (Move LimitCall Int)} {p' : LimitPool}
    (hrun : Run ClockForward limiter.poolStep p moves p') : p'.At i th := by
  refine hrun.invariant (I := fun p => Pool.At p i th) (fun p mv h hgo => ?_) hi
  refine Pool.step_invariant LimitState.exec limiter.program (I := fun p => Pool.At p i th)
    (A := ClockForward) ?_ ?_ ?_ p mv h hgo
  · exact fun p d h _ => h
  · exact fun p q h _ => Pool.spawn_keeps h _
  · intro p j th' c k h _ hj hr
    refine (Pool.fire_threads hj).mpr (.inr ⟨fun hij => ?_, h⟩)
    subst hij
    obtain rfl : th = th' := Option.some.inj (h.symm.trans hj)
    rw [hend] at hr
    cases hr

/-- **What looks at the lock while it is set is refused.** -/
theorem Kept.refusedWhileLocked (h : Kept limiter p) : RefusedWhileLocked limiter p := by
  refine ⟨fun hlocked i hnext moves' p' th hrun hi' => ?_, fun i th s hi hs hleft => ?_⟩
  · obtain ⟨th₀, k, hi, hr⟩ := Pool.next_eq_some.mp hnext
    obtain ⟨_, _, hverified, -, hpoint⟩ := h.placed.point hi hr
    cases hpoint with
    | check hstop _ =>
      have hfired : limiter.poolStep p (.advance i) = p.fire LimitState.exec i th₀ .ttl k := by
        obtain ⟨q, hist, rest⟩ := th₀
        obtain rfl : rest = .call .ttl k := hr
        simp only [AttemptLimiter.poolStep, Pool.step, hi]
      rw [hfired] at hrun
      have hstopped : k (p.store.ttl p.now) = .pure (.locked (p.store.ttl p.now)) :=
        hstop _ hlocked
      have hi₀ : (p.fire LimitState.exec i th₀ .ttl k).At i
          (th₀.advance p.now .ttl (p.store.ttl p.now) (k (p.store.ttl p.now))) :=
        (Pool.fire_threads hi).mpr (.inl ⟨rfl, rfl⟩)
      have hat := at_of_run hi₀ hstopped hrun
      obtain rfl := Option.some.inj (hi'.symm.trans hat)
      refine ⟨?_, _, hstopped⟩
      unfold Verified at *
      rw [any_advance, hverified]
      rfl
  · obtain ⟨-, y, hy, hsy⟩ := h.lock i th s hi hs
    exact locked_of_lock hy (hleft.trans hsy)

theorem Placed.told (h : Placed limiter p) {out : LimitOutcome} (hi : p.At i th)
    (hend : th.rest = .pure out) :
    (∃ attempts, out = .failed ⟨attempts, true⟩) ↔ HasLocked th = true := by
  have hpoint := h i th hi
  rw [hend] at hpoint
  generalize Verified th = verified at hpoint
  generalize HasLocked th = locked at hpoint
  cases hpoint with
  | crossed attempts => exact ⟨fun _ => rfl, fun _ => ⟨attempts, rfl⟩⟩
  | locked remaining => simp
  | raised sent => cases sent <;> simp
  | accepted => simp
  | undecided => simp
  | counted hlt => simp
  | confirmed valid => cases valid <;> simp

/-! ## One failure at a time -/

variable (limiter) in
/-- How the recording of a failure goes on: after which step and which reply comes which. -/
inductive RecordStep : (c : LimitCmd) → c.Reply → LimitCmd → Prop
  | rejected : RecordStep (.verify .rejected) () .incr
  | first : RecordStep .incr (1 : Nat) (.expire limiter.windowEx)
  | crossed {attempts : Nat} (h : attempts ≠ 1) (h' : ¬ attempts < limiter.threshold) :
      RecordStep .incr attempts (.setLock limiter.lockoutEx)
  | only (h : ¬ 1 < limiter.threshold) :
      RecordStep (.expire limiter.windowEx) () (.setLock limiter.lockoutEx)
  | set : RecordStep (.setLock limiter.lockoutEx) () .reset

theorem verified_of_records {verified locked : Bool} {c : LimitCmd}
    {k : c.Reply → LimitProgram LimitOutcome} (h : Point limiter verified locked (.call c k))
    (hrec : c.Records = true) : verified = true := by
  cases h <;> first | rfl | cases hrec

/-- **How a recording comes about.** -/
theorem recordStep_of_point {verified locked : Bool} {c c' : LimitCmd}
    {k : c.Reply → LimitProgram LimitOutcome} {k' : c'.Reply → LimitProgram LimitOutcome}
    (h : Point limiter verified locked (.call c k)) {r : c.Reply} (hk : k r = .call c' k')
    (hrec : c'.Records = true) : RecordStep limiter c r c' := by
  have hclosing : ∀ {attempts : Nat}, closing limiter attempts = .call c' k' →
      ¬ attempts < limiter.threshold ∧ c' = .setLock limiter.lockoutEx := by
    intro attempts hk
    unfold closing at hk
    split_ifs at hk with hlt
    cases hk
    exact ⟨hlt, rfl⟩
  cases h with
  | check hlocked hpassed =>
    -- what looks at the lock has not verified
    by_cases hr : 0 < r
    · rw [hlocked r hr] at hk
      cases hk
    · have hpoint := hpassed r hr
      rw [hk] at hpoint
      cases verified_of_records hpoint hrec
  | verify verdict =>
    cases verdict with
    | accepted =>
      cases hk
      cases hrec
    | rejected =>
      cases hk
      exact .rejected
    | undecided => cases hk
  | clear => cases hk
  | incr =>
    change counting limiter r = _ at hk
    unfold counting at hk
    split_ifs at hk with hone
    · subst hone
      cases hk
      exact .first
    · obtain ⟨hge, rfl⟩ := hclosing hk
      exact .crossed hone hge
  | expire =>
    obtain ⟨hge, rfl⟩ := hclosing hk
    exact .only hge
  | cross =>
    cases hk
    exact .set
  | reset => cases hk
  | verifyConfirm => cases hk

/-- What is recorded next after a step: by another request as before, or as the recording goes
on. -/
theorem Placed.next_records (h : Placed limiter p) (hi : p.At i th) (hr : th.rest = .call c k)
    {j : Nat} {c' : LimitCmd} (hnext : (p.fire LimitState.exec i th c k).next j = some c')
    (hrec : c'.Records = true) :
    (j = i ∧ RecordStep limiter c (LimitState.exec p.now c p.store).1 c') ∨
      (j ≠ i ∧ p.next j = some c') := by
  rcases (Pool.next_fire hi).mp hnext with ⟨hji, k', hk⟩ | hold
  · obtain ⟨_, _, -, -, hpoint⟩ := h.point hi hr
    exact .inl ⟨hji, recordStep_of_point hpoint hk hrec⟩
  · exact .inr hold

theorem next_spawn_records {q : LimitCall} {j : Nat} {c : LimitCmd}
    (hnext : Pool.next { p with threads := p.threads ++ [⟨q, [], limiter.program q⟩] } j = some c)
    (hrec : c.Records = true) : p.next j = some c := by
  rcases Pool.next_spawn hnext with hnext | ⟨k, hk⟩
  · exact hnext
  · have hpoint : Point limiter false false (limiter.program q) := .program q
    change limiter.program q = _ at hk
    rw [hk] at hpoint
    cases verified_of_records hpoint hrec

/-- What a run of failures one at a time keeps: one request records at a time, the lock is not
there while it has not set it, and the locks are a lockout apart. -/
structure OneByOne (limiter : AttemptLimiter) (p : LimitPool) : Prop where
  kept : Kept limiter p
  recorder : ∀ i j c c', p.next i = some c → p.next j = some c' → c.Records = true →
    c'.Records = true → i = j
  unlocked : ∀ i c, p.next i = some c → c.Records = true → c ≠ .reset → ¬ p.store.HasLock p.now
  apart : ∀ i j th th' s s', p.At i th → p.At j th' → LockedAt th s → LockedAt th' s' → i ≠ j →
    s + limiter.lockoutEx ≤ s' ∨ s' + limiter.lockoutEx ≤ s

theorem hasLock_antitone {st : LimitState} {now later : Int} (hle : now ≤ later)
    (h : st.HasLock later) : st.HasLock now := by
  obtain ⟨e, he, hlive⟩ := h
  exact ⟨e, he, hlive.antitone hle⟩

theorem OneByOne.alone (h : OneByOne limiter p) (hi : p.At i th) (hr : th.rest = .call c k)
    (hserial : Serial p (.advance i)) {j : Nat} {c' c'' : LimitCmd} (hne : j ≠ i)
    (hj : p.next j = some c'') (hrec : c''.Records = true)
    (hstep : RecordStep limiter c (LimitState.exec p.now c p.store).1 c') : False := by
  have hnext := Pool.next_eq hi hr
  have hother : c.Records = true → False :=
    fun hc => hne (h.recorder j i c'' c hj hnext hrec hc)
  generalize (LimitState.exec p.now c p.store).1 = r at hstep
  cases hstep with
  | rejected =>
    have hidle := (hserial hnext).2 j (by
      obtain ⟨th₀, -, hj₀, -⟩ := Pool.next_eq_some.mp hj
      exact (List.getElem?_eq_some_iff.mp hj₀).1) c'' hj
    rw [hidle] at hrec
    cases hrec
  | first => exact hother rfl
  | crossed => exact hother rfl
  | only => exact hother rfl
  | set => exact hother rfl

theorem OneByOne.fire (h : OneByOne limiter p) (hi : p.At i th) (hr : th.rest = .call c k)
    (hserial : Serial p (.advance i)) : OneByOne limiter (p.fire LimitState.exec i th c k) := by
  have hnext := Pool.next_eq hi hr
  refine ⟨h.kept.fire hi hr, ?_, ?_, ?_⟩
  · intro j j' c₁ c₂ hj hj' hrec hrec'
    rcases h.kept.placed.next_records hi hr hj hrec with ⟨rfl, hstep⟩ | ⟨hne, hold⟩
    · rcases h.kept.placed.next_records hi hr hj' hrec' with ⟨rfl, -⟩ | ⟨hne', hold'⟩
      · rfl
      · exact (h.alone hi hr hserial hne' hold' hrec' hstep).elim
    · rcases h.kept.placed.next_records hi hr hj' hrec' with ⟨rfl, hstep⟩ | ⟨-, hold'⟩
      · exact (h.alone hi hr hserial hne hold hrec hstep).elim
      · exact h.recorder j j' c₁ c₂ hold hold' hrec hrec'
  · intro j c' hj hrec hopen hlock
    have hsame : c.Locks = false → p.store.HasLock p.now := by
      intro hno
      rcases h.kept.placed.lock hi hr with ⟨-, hsame⟩ | ⟨hlocks, -⟩
      · unfold LimitState.HasLock at *
        rwa [← hsame]
      · rw [hno] at hlocks
        cases hlocks
    rcases h.kept.placed.next_records hi hr hj hrec with ⟨rfl, hstep⟩ | ⟨hne, hold⟩
    · generalize (LimitState.exec p.now c p.store).1 = r at hstep
      cases hstep with
      | rejected => exact (hserial hnext).1 (hsame rfl)
      | first => exact h.unlocked j .incr hnext rfl nofun (hsame rfl)
      | crossed => exact h.unlocked j .incr hnext rfl nofun (hsame rfl)
      | only => exact h.unlocked j (.expire _) hnext rfl nofun (hsame rfl)
      | set => exact hopen rfl
    · -- nobody else sets the lock
      refine h.unlocked j c' hold hrec hopen (hsame ?_)
      by_contra hlocks
      refine hne (h.recorder j i c' c hold hnext hrec ?_)
      cases c with
      | setLock => rfl
      | _ => exact absurd rfl hlocks
  · -- a lock that is set now is not there, so all others are over
    have hnew : ∀ {j : Nat} {th' : LimitThread} {s : Int}, j ≠ i → p.At j th' → LockedAt th' s →
        c.Locks = true → s + limiter.lockoutEx ≤ p.now := by
      intro j th' s hne hj hs hlocks
      obtain ⟨-, y, hy, hsy⟩ := h.kept.lock j th' s hj hs
      refine hsy.trans (not_lt.mp fun hlt => ?_)
      have hlock : p.store.HasLock p.now := ⟨_, hy, Entry.live_some.mpr hlt⟩
      cases c with
      | setLock ex => exact h.unlocked i (.setLock ex) hnext rfl nofun hlock
      | _ => cases hlocks
    intro j j' th₁ th₂ s s' hj hj' hs hs' hne
    rcases (Pool.fire_threads hi).mp hj with ⟨rfl, rfl⟩ | ⟨hji, hold⟩
    · rcases (Pool.fire_threads hi).mp hj' with ⟨rfl, rfl⟩ | ⟨hji', hold'⟩
      · exact absurd rfl hne
      · rcases lockedAt_advance hs with hs | ⟨rfl, hlocks⟩
        · exact h.apart _ _ th th₂ s s' hi hold' hs hs' hne
        · exact .inr (hnew hji' hold' hs' hlocks)
    · rcases (Pool.fire_threads hi).mp hj' with ⟨rfl, rfl⟩ | ⟨-, hold'⟩
      · rcases lockedAt_advance hs' with hs' | ⟨rfl, hlocks⟩
        · exact h.apart _ _ th₁ th s s' hold hi hs hs' hne
        · exact .inl (hnew hji hold hs hlocks)
      · exact h.apart _ _ th₁ th₂ s s' hold hold' hs hs' hne

theorem OneByOne.step (h : OneByOne limiter p) {m : Move LimitCall Int} (hgo : ClockForward p m)
    (hserial : Serial p m) : OneByOne limiter (limiter.poolStep p m) := by
  refine Pool.step_invariant LimitState.exec limiter.program
    (A := fun p mv => ClockForward p mv ∧ Serial p mv) ?_ ?_ ?_ p m h ⟨hgo, hserial⟩
  · rintro p d h ⟨hd, -⟩
    refine ⟨h.kept.step (m := .tick d) hd, h.recorder, fun i c hi hrec hopen hlock => ?_, h.apart⟩
    exact h.unlocked i c hi hrec hopen (hasLock_antitone (Int.le_add_of_nonneg_right hd) hlock)
  · rintro p q h -
    have hold : ∀ {j : Nat} {th' : LimitThread} {s : Int},
        (p.threads ++ [⟨q, [], limiter.program q⟩])[j]? = some th' → LockedAt th' s → p.At j th' := by
      intro j th' s hj hs
      rcases Pool.spawn_threads hj with hj | ⟨-, rfl⟩
      · exact hj
      · obtain ⟨e, ⟨⟩, -⟩ := hs
    refine ⟨h.kept.step (m := .spawn q) trivial, ?_, ?_, ?_⟩
    · intro i j c c' hi hj hrec hrec'
      exact h.recorder i j c c' (next_spawn_records hi hrec) (next_spawn_records hj hrec') hrec hrec'
    · intro i c hi hrec hopen
      exact h.unlocked i c (next_spawn_records hi hrec) hrec hopen
    · intro i j th th' s s' hi hj hs hs' hne
      exact h.apart i j th th' s s' (hold hi hs) (hold hj hs') hs hs' hne
  · rintro p i th c k h ⟨-, hserial⟩ hi hr
    exact h.fire hi hr hserial

/-! ## The count -/

/-- The step closes the recording of a failure that may have reached the threshold. -/
def LimitCmd.Closes : LimitCmd → Bool
  | .expire _ => true
  | .setLock _ => true
  | .reset => true
  | _ => false

theorem records_of_closes {c : LimitCmd} (h : c.Closes = true) : c.Records = true := by
  cases c <;> first | rfl | cases h

/-- The count is below the threshold, unless the lock is on its way; and the first failure has
its window still to be set. -/
structure Tallied (limiter : AttemptLimiter) (p : LimitPool) : Prop where
  one : OneByOne limiter p
  fresh : ∀ i ex, p.next i = some (.expire ex) → ∀ e, p.store.attempts = some e → e = ⟨1, none⟩
  small : ∀ e, p.store.attempts = some e → 1 ≤ e.value ∧
    (e.value < limiter.threshold ∨ ∃ i c, p.next i = some c ∧ c.Closes = true)

theorem attempts_of_counter {st : LimitState} {now : Int} {e : Entry Int Nat}
    (h : st.counter now = some e) : st.attempts = some e ∧ e.Live now := by
  obtain ⟨hst, hlive⟩ := Option.filter_eq_some_iff.mp h
  exact ⟨hst, of_decide_eq_true hlive⟩

theorem attempts_of_exec (now : Int) (st : LimitState) (hrec : c.Records = false) :
    (LimitState.exec now c st).2.attempts = st.attempts ∨
      (LimitState.exec now c st).2.attempts = none := by
  cases c with
  | clear => exact .inr rfl
  | ttl => exact .inl rfl
  | verify => exact .inl rfl
  | verifyConfirm => exact .inl rfl
  | incr => cases hrec
  | expire => cases hrec
  | setLock => cases hrec
  | reset => cases hrec

theorem exec_incr_of_none {st : LimitState} {now : Int} (h : st.counter now = none) :
    LimitState.exec now .incr st = ((1 : Nat), { st with attempts := some ⟨1, none⟩ }) := by
  simp only [LimitState.exec, h]

theorem exec_incr_of_some {st : LimitState} {now : Int} {e : Entry Int Nat}
    (h : st.counter now = some e) : LimitState.exec now .incr st =
      (e.value + 1, { st with attempts := some ⟨e.value + 1, e.expiry⟩ }) := by
  simp only [LimitState.exec, h]

theorem closes_fire (hi : p.At i th) {j : Nat} {c' : LimitCmd} (hj : p.next j = some c')
    (hne : j ≠ i) : (p.fire LimitState.exec i th c k).next j = some c' :=
  (Pool.next_fire hi).mpr (.inr ⟨hne, hj⟩)

theorem Tallied.fire (h : Tallied limiter p) (hi : p.At i th) (hr : th.rest = .call c k)
    (hserial : Serial p (.advance i)) : Tallied limiter (p.fire LimitState.exec i th c k) := by
  have hnext := Pool.next_eq hi hr
  obtain ⟨_, _, -, -, hpoint⟩ := h.one.kept.placed.point hi hr
  refine ⟨h.one.fire hi hr hserial, ?_, ?_⟩
  · intro j ex hj e he
    rcases h.one.kept.placed.next_records hi hr hj rfl with ⟨rfl, hstep⟩ | ⟨hne, hold⟩
    · generalize hreply : (LimitState.exec p.now c p.store).1 = r at hstep
      cases hstep with
      | first =>
        -- the counter was not there
        cases hcounter : p.store.counter p.now with
        | none =>
          change (LimitState.exec p.now .incr p.store).2.attempts = some e at he
          rw [exec_incr_of_none hcounter] at he
          exact (Option.some.inj he).symm
        | some e' =>
          rw [exec_incr_of_some hcounter] at hreply
          have hone : e'.value + 1 = 1 := hreply
          have hpos := (h.small e' (attempts_of_counter hcounter).1).1
          omega
    · -- nobody else records
      have hidle : c.Records = false := by
        by_contra hrec
        exact hne (h.one.recorder j i _ c hold hnext rfl (Bool.eq_true_of_not_eq_false hrec))
      rcases attempts_of_exec p.now p.store hidle with hsame | hnone
      · exact h.fresh j ex hold e (hsame ▸ he)
      · exact absurd (hnone.symm.trans he) nofun
  · intro e he
    have hother : c.Closes = false → p.store.attempts = some e → 1 ≤ e.value ∧
        (e.value < limiter.threshold ∨
          ∃ i' c', (p.fire LimitState.exec i th c k).next i' = some c' ∧ c'.Closes = true) := by
      intro hno hold
      obtain ⟨hpos, hlt | ⟨j, c', hj, hcloses⟩⟩ := h.small e hold
      · exact ⟨hpos, .inl hlt⟩
      · refine ⟨hpos, .inr ⟨j, c', closes_fire hi hj fun hji => ?_, hcloses⟩⟩
        subst hji
        rw [hnext] at hj
        rw [← Option.some.inj hj, hno] at hcloses
        cases hcloses
    cases hpoint with
    | check => exact hother rfl he
    | verify => exact hother rfl he
    | verifyConfirm => exact hother rfl he
    | clear => cases he
    | reset => cases he
    | cross =>
      exact ⟨(h.small e he).1, .inr ⟨i, .reset, (Pool.next_fire hi).mpr (.inl ⟨rfl, _, rfl⟩), rfl⟩⟩
    | expire =>
      obtain ⟨e', hcounter, rfl⟩ := Option.map_eq_some_iff.mp he
      obtain rfl := h.fresh i _ hnext e' (attempts_of_counter hcounter).1
      refine ⟨le_rfl, ?_⟩
      by_cases hlt : 1 < limiter.threshold
      · exact .inl hlt
      · exact .inr ⟨i, .setLock limiter.lockoutEx,
          (Pool.next_fire hi).mpr (.inl ⟨rfl, _, if_neg hlt⟩), rfl⟩
    | incr =>
      change (LimitState.exec p.now .incr p.store).2.attempts = some e at he
      cases hcounter : p.store.counter p.now with
      | none =>
        rw [exec_incr_of_none hcounter] at he
        obtain rfl := Option.some.inj he
        refine ⟨le_rfl, .inr ⟨i, .expire limiter.windowEx,
          (Pool.next_fire hi).mpr (.inl ⟨rfl, fun _ => closing limiter 1, ?_⟩), rfl⟩⟩
        rw [exec_incr_of_none hcounter]
        rfl
      | some e' =>
        rw [exec_incr_of_some hcounter] at he
        obtain rfl := Option.some.inj he
        have hpos := (h.small e' (attempts_of_counter hcounter).1).1
        refine ⟨Nat.le_add_left 1 e'.value, ?_⟩
        by_cases hlt : e'.value + 1 < limiter.threshold
        · exact .inl hlt
        · refine .inr ⟨i, .setLock limiter.lockoutEx, (Pool.next_fire hi).mpr (.inl ⟨rfl,
            fun _ => .call .reset fun _ => .pure (.failed ⟨e'.value + 1, true⟩), ?_⟩), rfl⟩
          rw [exec_incr_of_some hcounter]
          have hne : ¬ e'.value + 1 = 1 := by omega
          exact (if_neg hne).trans (if_neg hlt)

theorem next_spawn_keeps {q : LimitCall} {j : Nat} {c : LimitCmd} (hj : p.next j = some c) :
    Pool.next { p with threads := p.threads ++ [⟨q, [], limiter.program q⟩] } j = some c := by
  obtain ⟨th₀, k, hj₀, hr⟩ := Pool.next_eq_some.mp hj
  exact Pool.next_eq_some.mpr ⟨th₀, k, Pool.spawn_keeps hj₀ _, hr⟩

theorem Tallied.step (h : Tallied limiter p) {m : Move LimitCall Int} (hgo : ClockForward p m)
    (hserial : Serial p m) : Tallied limiter (limiter.poolStep p m) := by
  refine Pool.step_invariant LimitState.exec limiter.program
    (A := fun p mv => ClockForward p mv ∧ Serial p mv) ?_ ?_ ?_ p m h ⟨hgo, hserial⟩
  · rintro p d h ⟨hd, hs⟩
    exact ⟨h.one.step (m := .tick d) hd hs, h.fresh, h.small⟩
  · rintro p q h ⟨hgo, hs⟩
    refine ⟨h.one.step (m := .spawn q) hgo hs, ?_, fun e he => ?_⟩
    · exact fun i ex hi => h.fresh i ex (next_spawn_records hi rfl)
    · obtain ⟨hpos, hlt⟩ := h.small e he
      refine ⟨hpos, hlt.imp_right ?_⟩
      rintro ⟨i, c, hi, hcloses⟩
      exact ⟨i, c, next_spawn_keeps hi, hcloses⟩
  · rintro p i th c k h ⟨-, hserial⟩ hi hr
    exact h.fire hi hr hserial

/-! ## The failures of an interval -/

/-- How many failures of the interval from `a` the counter stands for.  A counter that expires in
the interval was started before it, so its first failure is not one of them.  One that does not
expire in it may have followed one that did. -/
def credit (limiter : AttemptLimiter) (st : LimitState) (now a : Int) : Nat :=
  match st.counter now with
  | none => limiter.threshold - 2
  | some ⟨attempts, none⟩ => limiter.threshold - 2 + attempts
  | some ⟨attempts, some t⟩ =>
    if t < a + limiter.windowEx then attempts - 1 else limiter.threshold - 2 + attempts

/-- The lock is set beyond the interval. -/
def Covered (limiter : AttemptLimiter) (st : LimitState) (a : Int) : Prop :=
  ∃ y, st.lock = some ⟨(), some y⟩ ∧ a + limiter.windowEx ≤ y

/-- What the failures of an interval in which nothing is forgotten are bounded by: the lock is
set beyond it, or about to be, or the counter stands for the failures, but for one that is not
counted yet. -/
structure Bounded (limiter : AttemptLimiter) (a : Int) (p : LimitPool) : Prop where
  before : p.now < a → failures p a (a + limiter.windowEx) = 0
  twice : failures p a (a + limiter.windowEx) + 1 ≤ 2 * limiter.threshold
  inside : p.now < a + limiter.windowEx → Covered limiter p.store a ∨
    (∃ i ex, p.next i = some (.setLock ex)) ∨
    failures p a (a + limiter.windowEx) ≤ credit limiter p.store p.now a ∨
    ((∃ i, p.next i = some .incr) ∧
      failures p a (a + limiter.windowEx) ≤ credit limiter p.store p.now a + 1)
  resetting : p.now < a + limiter.windowEx → ∀ i, p.next i = some .reset →
    Covered limiter p.store a ∨ failures p a (a + limiter.windowEx) = 0

theorem failures_fire (h : Placed limiter p) (hi : p.At i th) (hr : th.rest = .call c k)
    (a b : Int) : failures (p.fire LimitState.exec i th c k) a b =
      failures p a b + if c = .verify .rejected ∧ a ≤ p.now ∧ p.now < b then 1 else 0 := by
  have hcount : (p.fire LimitState.exec i th c k).threads.countP (FailedWithin a b) +
      (if FailedWithin a b th then 1 else 0) = _ := Pool.countP_fire hi (FailedWithin a b)
  unfold failures
  have hafter : ∀ (r : c.Reply) (rest : LimitProgram LimitOutcome),
      FailedWithin a b (th.advance p.now c r rest) =
        (FailedWithin a b th || decide (c = .verify .rejected ∧ a ≤ p.now ∧ p.now < b)) :=
    fun r rest => any_advance _ _ _ _ _
  rw [hafter] at hcount
  by_cases hnew : c = .verify .rejected ∧ a ≤ p.now ∧ p.now < b
  · -- it has not failed before
    obtain ⟨_, _, hverified, -, hpoint⟩ := h.point hi hr
    have hno : FailedWithin a b th = false := by
      obtain ⟨rfl, -⟩ := hnew
      cases hpoint
      refine Bool.eq_false_iff.mpr fun hfailed => ?_
      obtain ⟨e, he, hcmd⟩ := List.any_eq_true.mp hfailed
      have hv : Verified th = true := List.any_eq_true.mpr ⟨e, he, by
        rw [(of_decide_eq_true hcmd).1]
        rfl⟩
      rw [hv] at hverified
      cases hverified
    simp only [hno, hnew, decide_true, Bool.or_true, Bool.false_eq_true, if_true, if_false,
      and_self] at hcount ⊢
    exact hcount
  · simp only [hnew, decide_false, Bool.or_false, if_false, Nat.add_zero] at hcount ⊢
    exact Nat.add_right_cancel hcount

section Interval

variable {a : Int}

theorem credit_of_none {st : LimitState} {now : Int} (h : st.counter now = none) :
    credit limiter st now a = limiter.threshold - 2 := by
  unfold credit
  rw [h]

theorem credit_of_unset {st : LimitState} {now : Int} {attempts : Nat}
    (h : st.counter now = some ⟨attempts, none⟩) :
    credit limiter st now a = limiter.threshold - 2 + attempts := by
  unfold credit
  rw [h]

theorem credit_of_set {st : LimitState} {now t : Int} {attempts : Nat}
    (h : st.counter now = some ⟨attempts, some t⟩) : credit limiter st now a =
      if t < a + limiter.windowEx then attempts - 1 else limiter.threshold - 2 + attempts := by
  unfold credit
  rw [h]

theorem counter_of_attempts {st : LimitState} {now : Int} {e : Entry Int Nat}
    (h : st.attempts = some e) (hlive : e.Live now) : st.counter now = some e := by
  unfold LimitState.counter
  rw [h, Option.filter_some, if_pos (decide_eq_true hlive)]

theorem credit_le {st : LimitState} {now : Int} (hT : 0 < limiter.threshold)
    (hsmall : ∀ e, st.counter now = some e → e.value < limiter.threshold) :
    credit limiter st now a + 2 ≤ 2 * limiter.threshold := by
  match hcounter : st.counter now with
  | none =>
    rw [credit_of_none hcounter]
    omega
  | some ⟨attempts, none⟩ =>
    have hlt : attempts < limiter.threshold := hsmall _ hcounter
    rw [credit_of_unset hcounter]
    omega
  | some ⟨attempts, some t⟩ =>
    have hlt : attempts < limiter.threshold := hsmall _ hcounter
    rw [credit_of_set hcounter]
    split_ifs <;> omega

theorem credit_incr {st : LimitState} {now : Int}
    (hpos : ∀ e, st.counter now = some e → 1 ≤ e.value) :
    credit limiter st now a + 1 ≤
      credit limiter (LimitState.exec now .incr st).2 now a := by
  match hcounter : st.counter now with
  | none =>
    have hnew : (LimitState.exec now .incr st).2.counter now = some ⟨1, none⟩ :=
      counter_of_attempts (by rw [exec_incr_of_none hcounter]) (by simp)
    rw [credit_of_none hcounter, credit_of_unset hnew]
  | some ⟨attempts, none⟩ =>
    have hnew : (LimitState.exec now .incr st).2.counter now = some ⟨attempts + 1, none⟩ :=
      counter_of_attempts (by rw [exec_incr_of_some hcounter]) (by simp)
    rw [credit_of_unset hcounter, credit_of_unset hnew]
    omega
  | some ⟨attempts, some t⟩ =>
    have hlive := (attempts_of_counter hcounter).2
    have hone : 1 ≤ attempts := hpos _ hcounter
    have hnew : (LimitState.exec now .incr st).2.counter now = some ⟨attempts + 1, some t⟩ :=
      counter_of_attempts (by rw [exec_incr_of_some hcounter]) hlive
    rw [credit_of_set hcounter, credit_of_set hnew]
    split_ifs <;> omega

theorem Bounded.quiet (h : Bounded limiter a p) (ht : Tallied limiter p) (hi : p.At i th)
    (hr : th.rest = .call c k) (hno : ∀ r c', ¬ RecordStep limiter c r c')
    (hidle : c.Records = false) (hrejected : c ≠ .verify .rejected)
    (hcredit : a ≤ p.now → p.now < a + limiter.windowEx → credit limiter p.store p.now a ≤
      credit limiter (LimitState.exec p.now c p.store).2 p.now a) :
    Bounded limiter a (p.fire LimitState.exec i th c k) := by
  have hplaced := ht.one.kept.placed
  have hsame : failures (p.fire LimitState.exec i th c k) a (a + limiter.windowEx) =
      failures p a (a + limiter.windowEx) := by
    rw [failures_fire hplaced hi hr, if_neg fun hc => hrejected hc.1, Nat.add_zero]
  have hlock : (LimitState.exec p.now c p.store).2.lock = p.store.lock := by
    rcases hplaced.lock hi hr with ⟨-, hlock⟩ | ⟨hlocks, -⟩
    · exact hlock
    · cases c with
      | setLock => cases hidle
      | _ => cases hlocks
  have hcovered : Covered limiter p.store a →
      Covered limiter (p.fire LimitState.exec i th c k).store a := by
    rintro ⟨y, hy, hle⟩
    exact ⟨y, hlock.trans hy, hle⟩
  have hkeep : ∀ {j c'}, p.next j = some c' → c'.Records = true →
      (p.fire LimitState.exec i th c k).next j = some c' := by
    intro j c' hj hrec
    refine (Pool.next_fire hi).mpr (.inr ⟨fun hji => ?_, hj⟩)
    subst hji
    rw [← Option.some.inj ((Pool.next_eq hi hr).symm.trans hj), hidle] at hrec
    cases hrec
  refine ⟨?_, ?_, ?_, ?_⟩
  · rw [hsame]
    exact h.before
  · rw [hsame]
    exact h.twice
  · intro hlt
    rw [hsame]
    by_cases hbefore : p.now < a
    · exact .inr (.inr (.inl (by rw [h.before hbefore]; exact Nat.zero_le _)))
    have hle := hcredit (not_lt.mp hbefore) hlt
    rcases h.inside hlt with hc | ⟨j, ex, hj⟩ | hc | ⟨⟨j, hj⟩, hc⟩
    · exact .inl (hcovered hc)
    · exact .inr (.inl ⟨j, ex, hkeep hj rfl⟩)
    · exact .inr (.inr (.inl (hc.trans hle)))
    · exact .inr (.inr (.inr ⟨⟨j, hkeep hj rfl⟩, hc.trans (Nat.add_le_add_right hle 1)⟩))
  · intro hlt j hj
    rw [hsame]
    rcases hplaced.next_records hi hr hj rfl with ⟨-, hstep⟩ | ⟨-, hold⟩
    · exact absurd hstep (hno _ _)
    · exact (h.resetting hlt j hold).imp_left hcovered

theorem Bounded.rejected {k : Unit → LimitProgram LimitOutcome} (h : Bounded limiter a p)
    (ht : Tallied limiter p) (hT : 0 < limiter.threshold) (hi : p.At i th)
    (hr : th.rest = .call (.verify .rejected) k) (hk : k () = .call .incr (counting limiter))
    (hserial : Serial p (.advance i)) :
    Bounded limiter a (p.fire LimitState.exec i th (.verify .rejected) k) := by
  obtain ⟨hlock, hidle⟩ := hserial (Pool.next_eq hi hr)
  have hnone : ∀ {j c}, p.next j = some c → c.Records = true → False := by
    intro j c hj hrec
    obtain ⟨th₀, -, hj₀, -⟩ := Pool.next_eq_some.mp hj
    rw [hidle j (List.getElem?_eq_some_iff.mp hj₀).1 c hj] at hrec
    cases hrec
  have hcredit : credit limiter p.store p.now a + 2 ≤ 2 * limiter.threshold := by
    refine credit_le hT fun e he => ?_
    obtain ⟨-, hlt | ⟨j, c, hj, hcloses⟩⟩ := ht.small e (attempts_of_counter he).1
    · exact hlt
    · exact (hnone hj (records_of_closes hcloses)).elim
  -- the lock is not there, so the counter stands for what has failed
  have hstands : p.now < a + limiter.windowEx →
      failures p a (a + limiter.windowEx) ≤ credit limiter p.store p.now a := by
    intro hlt
    rcases h.inside hlt with ⟨y, hy, hle⟩ | ⟨j, ex, hj⟩ | hc | ⟨⟨j, hj⟩, -⟩
    · exact absurd ⟨_, hy, Entry.live_some.mpr (lt_of_lt_of_le hlt hle)⟩ hlock
    · exact (hnone hj rfl).elim
    · exact hc
    · exact (hnone hj rfl).elim
  have hcount := failures_fire ht.one.kept.placed hi hr a (a + limiter.windowEx)
  have htwice := h.twice
  refine ⟨fun hbefore => ?_, ?_, fun hlt => ?_, fun _ j hj => ?_⟩
  · rw [hcount, if_neg fun hc => absurd hc.2.1 (not_le.mpr hbefore), h.before hbefore]
  · rw [hcount]
    split_ifs with hc
    · have hle := hstands hc.2.2
      omega
    · exact htwice
  · refine .inr (.inr (.inr ⟨⟨i, (Pool.next_fire hi).mpr (.inl ⟨rfl, _, hk⟩)⟩, ?_⟩))
    rw [hcount]
    refine Nat.add_le_add (hstands hlt) ?_
    split_ifs <;> omega
  · rcases ht.one.kept.placed.next_records hi hr hj rfl with ⟨-, hstep⟩ | ⟨-, hold⟩
    · cases hstep
    · exact (hnone hold rfl).elim

theorem Bounded.recording (h : Bounded limiter a p) (ht : Tallied limiter p) (hi : p.At i th)
    (hr : th.rest = .call c k) (hrec : c.Records = true)
    (hinside : a ≤ p.now → p.now < a + limiter.windowEx →
      Covered limiter (LimitState.exec p.now c p.store).2 a ∨
        failures p a (a + limiter.windowEx) ≤
          credit limiter (LimitState.exec p.now c p.store).2 p.now a ∨
        ∃ ex, (p.fire LimitState.exec i th c k).next i = some (.setLock ex))
    (hreset : c.Locks = true → a ≤ p.now → p.now < a + limiter.windowEx →
      Covered limiter (LimitState.exec p.now c p.store).2 a) :
    Bounded limiter a (p.fire LimitState.exec i th c k) := by
  have hplaced := ht.one.kept.placed
  have hsame : failures (p.fire LimitState.exec i th c k) a (a + limiter.windowEx) =
      failures p a (a + limiter.windowEx) := by
    rw [failures_fire hplaced hi hr, if_neg, Nat.add_zero]
    rintro ⟨rfl, -⟩
    cases hrec
  refine ⟨?_, ?_, fun hlt => ?_, fun hlt j hj => ?_⟩
  · rw [hsame]
    exact h.before
  · rw [hsame]
    exact h.twice
  · rw [hsame]
    by_cases hbefore : p.now < a
    · exact .inr (.inr (.inl (by rw [h.before hbefore]; exact Nat.zero_le _)))
    rcases hinside (not_lt.mp hbefore) hlt with hc | hc | ⟨ex, hi'⟩
    · exact .inl hc
    · exact .inr (.inr (.inl hc))
    · exact .inr (.inl ⟨i, ex, hi'⟩)
  · rw [hsame]
    by_cases hbefore : p.now < a
    · exact .inr (h.before hbefore)
    rcases hplaced.next_records hi hr hj rfl with ⟨-, hstep⟩ | ⟨hne, hold⟩
    · generalize (LimitState.exec p.now c p.store).1 = r at hstep
      cases hstep with
      | set => exact .inl (hreset rfl (not_lt.mp hbefore) hlt)
    · exact absurd (ht.one.recorder j i _ c hold (Pool.next_eq hi hr) rfl hrec) hne

/-- While a request records, no other does, so what bounds the failures is the lock or the
counter. -/
theorem Bounded.inside_of_records (h : Bounded limiter a p) (ht : Tallied limiter p) {c : LimitCmd}
    (hnext : p.next i = some c) (hrec : c.Records = true) (hlocks : c.Locks = false)
    (hlt : p.now < a + limiter.windowEx) : Covered limiter p.store a ∨
      failures p a (a + limiter.windowEx) ≤ credit limiter p.store p.now a ∨
      (c = .incr ∧ failures p a (a + limiter.windowEx) ≤ credit limiter p.store p.now a + 1) := by
  rcases h.inside hlt with hc | ⟨j, ex, hj⟩ | hc | ⟨⟨j, hj⟩, hc⟩
  · exact .inl hc
  · obtain rfl := ht.one.recorder j i _ c hj hnext rfl hrec
    rw [← Option.some.inj (hj.symm.trans hnext)] at hlocks
    cases hlocks
  · exact .inr (.inl hc)
  · obtain rfl := ht.one.recorder j i _ c hj hnext rfl hrec
    exact .inr (.inr ⟨(Option.some.inj (hj.symm.trans hnext)).symm, hc⟩)

theorem forgotten_fire {b : Int} (hi : p.At i th) (h : ForgottenWithin p a b) :
    ForgottenWithin (p.fire LimitState.exec i th c k) a b := by
  obtain ⟨th₀, hmem, e, he, hcmd⟩ := h
  obtain ⟨j, hj⟩ := List.mem_iff_getElem?.mp hmem
  obtain ⟨th', hj', -, hkeep⟩ := Pool.fire_recalls LimitState.exec (c := c) (k := k) hi hj
  exact ⟨th', List.mem_of_getElem? hj', e, hkeep e he, hcmd⟩

/-- **What a step keeps**, where nothing is forgotten in the interval. -/
theorem Bounded.fire (h : Bounded limiter a p) (ht : Tallied limiter p)
    (hT : 0 < limiter.threshold) (hw : limiter.windowEx ≤ limiter.lockoutEx) (hi : p.At i th)
    (hr : th.rest = .call c k) (hserial : Serial p (.advance i))
    (hforget : ¬ ForgottenWithin (p.fire LimitState.exec i th c k) a (a + limiter.windowEx)) :
    Bounded limiter a (p.fire LimitState.exec i th c k) := by
  have hnext := Pool.next_eq hi hr
  obtain ⟨_, _, -, -, hpoint⟩ := ht.one.kept.placed.point hi hr
  cases hpoint with
  | check => exact h.quiet ht hi hr nofun rfl nofun fun _ _ => le_rfl
  | verifyConfirm => exact h.quiet ht hi hr nofun rfl nofun fun _ _ => le_rfl
  | verify verdict =>
    cases verdict with
    | accepted => exact h.quiet ht hi hr nofun rfl nofun fun _ _ => le_rfl
    | undecided => exact h.quiet ht hi hr nofun rfl nofun fun _ _ => le_rfl
    | rejected => exact h.rejected ht hT hi hr rfl hserial
  | clear =>
    refine h.quiet ht hi hr nofun rfl nofun fun hle hlt => ?_
    -- there was nothing to forget
    cases hcounter : p.store.counter p.now with
    | none => rw [credit_of_none hcounter, credit_of_none rfl]
    | some e =>
      refine absurd ⟨_, List.mem_of_getElem? ((Pool.fire_threads hi).mpr (.inl ⟨rfl, rfl⟩)),
        (p.now, ⟨.clear, (1 : Nat)⟩), ?_, rfl, hle, hlt⟩ hforget
      have hone : (LimitState.exec p.now .clear p.store).1 = (1 : Nat) := by
        simp only [LimitState.exec, hcounter]
        rfl
      rw [Thread.advance_history, hone]
      exact List.mem_append_right _ (.head _)
  | incr =>
    have hpos : ∀ e, p.store.counter p.now = some e → 1 ≤ e.value :=
      fun e he => (ht.small e (attempts_of_counter he).1).1
    have hlock : (LimitState.exec p.now .incr p.store).2.lock = p.store.lock := by
      rcases ht.one.kept.placed.lock hi hr with ⟨-, hlock⟩ | ⟨hlocks, -⟩
      · exact hlock
      · cases hlocks
    refine h.recording ht hi hr rfl (fun _ hlt => ?_) nofun
    have hcredit : credit limiter p.store p.now a + 1 ≤
        credit limiter (LimitState.exec p.now .incr p.store).2 p.now a := credit_incr hpos
    rcases h.inside_of_records ht hnext rfl rfl hlt with ⟨y, hy, hle⟩ | hc | ⟨-, hc⟩
    · exact .inl ⟨y, hlock.trans hy, hle⟩
    · exact .inr (.inl (hc.trans (Nat.le_of_succ_le hcredit)))
    · exact .inr (.inl (hc.trans hcredit))
  | expire =>
    refine h.recording ht hi hr rfl (fun hle hlt => ?_) nofun
    rcases h.inside_of_records ht hnext rfl rfl hlt with hc | hc | ⟨⟨⟩, -⟩
    · exact .inl hc
    · refine .inr (.inl (hc.trans ?_))
      -- the window of a failure in the interval ends after it
      cases hcounter : p.store.counter p.now with
      | none =>
        have hnew : (LimitState.exec p.now (.expire limiter.windowEx) p.store).2.attempts = none := by
          simp only [LimitState.exec, hcounter, Option.map_none]
        rw [credit_of_none hcounter, credit_of_none (by rw [LimitState.counter, hnew]; rfl)]
      | some e =>
        obtain rfl := ht.fresh i _ hnext e (attempts_of_counter hcounter).1
        have hnew : (LimitState.exec p.now (.expire limiter.windowEx) p.store).2.counter p.now =
            some ⟨1, some (p.now + limiter.windowEx)⟩ :=
          counter_of_attempts (by simp [LimitState.exec, hcounter])
            (Entry.live_some.mpr (by omega))
        rw [credit_of_unset hcounter, credit_of_set hnew, if_neg (by omega)]
  | cross =>
    have hcovered : a ≤ p.now →
        Covered limiter (LimitState.exec p.now (.setLock limiter.lockoutEx) p.store).2 a :=
      fun hle => ⟨_, rfl, Int.add_le_add hle hw⟩
    exact h.recording ht hi hr rfl (fun hle _ => .inl (hcovered hle)) fun _ hle _ => hcovered hle
  | reset =>
    refine h.recording ht hi hr rfl (fun _ hlt => ?_) nofun
    rcases h.resetting hlt i hnext with hc | hzero
    · exact .inl hc
    · exact .inr (.inl (by rw [hzero]; exact Nat.zero_le _))

/-- A counter that expires in the interval stands for no more failures than may have come before
another. -/
theorem credit_tick {st : LimitState} {now later : Int} (hle : now ≤ later)
    (hlt : later < a + limiter.windowEx)
    (hsmall : ∀ attempts t, st.counter now = some ⟨attempts, some t⟩ →
      attempts < limiter.threshold) :
    credit limiter st now a ≤ credit limiter st later a := by
  match hcounter : st.counter now with
  | none =>
    have hlater : st.counter later = none := by
      by_contra hne
      obtain ⟨e, he⟩ := Option.ne_none_iff_exists'.mp hne
      obtain ⟨hst, hlive⟩ := attempts_of_counter he
      rw [counter_of_attempts hst (hlive.antitone hle)] at hcounter
      cases hcounter
    rw [credit_of_none hcounter, credit_of_none hlater]
  | some ⟨attempts, none⟩ =>
    have hlater : st.counter later = some ⟨attempts, none⟩ :=
      counter_of_attempts (attempts_of_counter hcounter).1 (by simp)
    rw [credit_of_unset hcounter, credit_of_unset hlater]
  | some ⟨attempts, some t⟩ =>
    have hst := (attempts_of_counter hcounter).1
    rw [credit_of_set hcounter]
    by_cases hlive : later < t
    · rw [credit_of_set (counter_of_attempts hst (Entry.live_some.mpr hlive))]
    · have hlater : st.counter later = none := by
        unfold LimitState.counter
        rw [hst, Option.filter_some, if_neg]
        rw [decide_eq_true_eq, Entry.live_some]
        exact hlive
      have hmany := hsmall attempts t hcounter
      rw [credit_of_none hlater, if_pos (lt_of_le_of_lt (not_lt.mp hlive) hlt)]
      omega

theorem Bounded.tick (h : Bounded limiter a p) (ht : Tallied limiter p) {d : Int} (hd : 0 ≤ d) :
    Bounded limiter a { p with now := p.now + d } := by
  have hle : p.now ≤ p.now + d := Int.le_add_of_nonneg_right hd
  refine ⟨fun hbefore => h.before (lt_of_le_of_lt hle hbefore), h.twice, fun hlt => ?_,
    fun hlt => h.resetting (lt_of_le_of_lt hle hlt)⟩
  have hlt' := lt_of_le_of_lt hle hlt
  by_cases hsmall : ∀ attempts t, p.store.counter p.now = some ⟨attempts, some t⟩ →
      attempts < limiter.threshold
  · have hcredit := credit_tick hle hlt hsmall
    rcases h.inside hlt' with hc | hc | hc | ⟨hj, hc⟩
    · exact .inl hc
    · exact .inr (.inl hc)
    · exact .inr (.inr (.inl (hc.trans hcredit)))
    · exact .inr (.inr (.inr ⟨hj, hc.trans (Nat.add_le_add_right hcredit 1)⟩))
  · -- the threshold is reached, and the lock is on its way or set
    push Not at hsmall
    obtain ⟨attempts, t, hcounter, hmany⟩ := hsmall
    have hst := (attempts_of_counter hcounter).1
    obtain ⟨j, c, hj, hcloses⟩ := (ht.small _ hst).2.resolve_left (not_lt.mpr hmany)
    cases c with
    | expire ex => cases ht.fresh j ex hj _ hst
    | setLock ex => exact .inr (.inl ⟨j, ex, hj⟩)
    | reset =>
      rcases h.resetting hlt' j hj with hc | hzero
      · exact .inl hc
      · refine .inr (.inr (.inl ?_))
        change failures p a (a + limiter.windowEx) ≤ _
        rw [hzero]
        exact Nat.zero_le _
    | _ => cases hcloses

theorem Bounded.spawn (h : Bounded limiter a p) (q : LimitCall) :
    Bounded limiter a { p with threads := p.threads ++ [⟨q, [], limiter.program q⟩] } := by
  have hsame : failures { p with threads := p.threads ++ [⟨q, [], limiter.program q⟩] } a
      (a + limiter.windowEx) = failures p a (a + limiter.windowEx) := by
    unfold failures
    rw [List.countP_append]
    rfl
  refine ⟨?_, ?_, fun hlt => ?_, fun hlt j hj => ?_⟩
  · rw [hsame]
    exact h.before
  · rw [hsame]
    exact h.twice
  · rw [hsame]
    rcases h.inside hlt with hc | ⟨j, ex, hj⟩ | hc | ⟨⟨j, hj⟩, hc⟩
    · exact .inl hc
    · exact .inr (.inl ⟨j, ex, next_spawn_keeps hj⟩)
    · exact .inr (.inr (.inl hc))
    · exact .inr (.inr (.inr ⟨⟨j, next_spawn_keeps hj⟩, hc⟩))
  · rw [hsame]
    exact h.resetting hlt j (next_spawn_records hj rfl)

/-- **Every move of a run of failures one at a time keeps it**, in every interval. -/
theorem bounded_step (hT : 0 < limiter.threshold) (hw : limiter.windowEx ≤ limiter.lockoutEx)
    {mv : Move LimitCall Int} (hgo : ClockForward p mv) (hserial : Serial p mv)
    (h : Tallied limiter p ∧
      ∀ a, ¬ ForgottenWithin p a (a + limiter.windowEx) → Bounded limiter a p) :
    Tallied limiter (limiter.poolStep p mv) ∧
      ∀ a, ¬ ForgottenWithin (limiter.poolStep p mv) a (a + limiter.windowEx) →
        Bounded limiter a (limiter.poolStep p mv) := by
  refine ⟨h.1.step hgo hserial, fun a => ?_⟩
  refine (Pool.step_invariant LimitState.exec limiter.program
    (I := fun p => Tallied limiter p ∧
      (¬ ForgottenWithin p a (a + limiter.windowEx) → Bounded limiter a p))
    (A := fun p mv => ClockForward p mv ∧ Serial p mv) ?_ ?_ ?_ p mv ⟨h.1, h.2 a⟩
    ⟨hgo, hserial⟩).2
  · rintro p d ⟨ht, h⟩ ⟨hd, hs⟩
    exact ⟨ht.step (m := .tick d) hd hs, fun hforget => (h hforget).tick ht hd⟩
  · rintro p q ⟨ht, h⟩ ⟨hgo, hs⟩
    refine ⟨ht.step (m := .spawn q) hgo hs, fun hforget => (h ?_).spawn q⟩
    rintro ⟨th₀, hmem, hforgot⟩
    exact hforget ⟨th₀, List.mem_append_left _ hmem, hforgot⟩
  · rintro p i th c k ⟨ht, h⟩ ⟨-, hserial⟩ hi hr
    refine ⟨ht.fire hi hr hserial, fun hforget => ?_⟩
    exact (h fun hforgot => hforget (forgotten_fire hi hforgot)).fire ht hT hw hi hr hserial hforget

end Interval

end Steps

/-! ## Runs -/

theorem kept_start (limiter : AttemptLimiter) (now : Int) : Kept limiter (noAttempts now) := by
  refine ⟨?_, ?_⟩
  · rintro i th ⟨⟩
  · rintro i th s ⟨⟩

theorem tallied_start (limiter : AttemptLimiter) (now : Int) :
    Tallied limiter (noAttempts now) := by
  refine ⟨⟨kept_start limiter now, ?_, ?_, ?_⟩, ?_, ?_⟩
  · rintro i j c c' ⟨⟩
  · rintro i c ⟨⟩
  · rintro i j th th' s s' ⟨⟩
  · rintro i ex ⟨⟩
  · rintro e ⟨⟩

theorem bounded_start {limiter : AttemptLimiter} (hT : 0 < limiter.threshold) (a now : Int) :
    Bounded limiter a (noAttempts now) := by
  have hzero : failures (noAttempts now) a (a + limiter.windowEx) = 0 := rfl
  refine ⟨fun _ => hzero, ?_, fun _ => .inr (.inr (.inl ?_)), ?_⟩
  · rw [hzero]
    omega
  · rw [hzero]
    exact Nat.zero_le _
  · rintro - i ⟨⟩

/-- **The limit.**  In every run, what looks at the lock while it is set is refused.  Where the
step-ups fail one at a time, fewer than twice the threshold fail in an interval of the length of
the window in which no success forgets them, and every lock is reported once. -/
theorem limit_holds (limiter : AttemptLimiter) (hT : 0 < limiter.threshold)
    (hw : limiter.windowEx ≤ limiter.lockoutEx) {now : Int} {moves : List (Move LimitCall Int)}
    {p : LimitPool} (hrun : Run ClockForward limiter.poolStep (noAttempts now) moves p) :
    RefusedWhileLocked limiter p ∧
      (Run (fun p mv => ClockForward p mv ∧ Serial p mv) limiter.poolStep (noAttempts now) moves p →
        FailuresBounded limiter p ∧ LocksReported limiter p) := by
  have hkept : Kept limiter p :=
    hrun.invariant (fun p mv h hgo => h.step hgo) (kept_start limiter now)
  refine ⟨hkept.refusedWhileLocked, fun hserial => ?_⟩
  obtain ⟨ht, hbounded⟩ := hserial.invariant
    (I := fun p => Tallied limiter p ∧
      ∀ a, ¬ ForgottenWithin p a (a + limiter.windowEx) → Bounded limiter a p)
    (fun p mv h hgo => bounded_step hT hw hgo.1 hgo.2 h)
    ⟨tallied_start limiter now, fun a _ => bounded_start hT a now⟩
  refine ⟨fun a hforget => ?_, fun i th out hi hend => hkept.placed.told hi hend, ht.one.apart⟩
  have htwice := (hbounded a hforget).twice
  omega

/-! ### Failures that are forgotten -/

/-- The request of thread `i`, from its start to its last step. -/
def oneRequest (q : LimitCall) (i steps : Nat) : List (Move LimitCall Int) :=
  .spawn q :: List.replicate steps (.advance i)

/-- Four failures in a row, on a counter that is not there, by the threads from `i` on. -/
def fourFailures (i : Nat) : List (Move LimitCall Int) :=
  oneRequest (.stepUpTotp false) i 4 ++ oneRequest (.stepUpTotp false) (i + 1) 3 ++
    oneRequest (.stepUpTotp false) (i + 2) 3 ++ oneRequest (.stepUpTotp false) (i + 3) 3

/-- The state some moves lead to. -/
def limitAfter (moves : List (Move LimitCall Int)) : LimitPool :=
  moves.foldl (AttemptLimiter.poolStep {}) (noAttempts 0)

/-- Five failures, one after the other, and an attempt behind the lock. -/
def lockedOut : List (Move LimitCall Int) :=
  fourFailures 0 ++ oneRequest (.stepUpTotp false) 4 5 ++ oneRequest (.stepUpTotp true) 5 1

theorem limit_holds_lockedOut : RefusedWhileLocked {} (limitAfter lockedOut) ∧
    FailuresBounded {} (limitAfter lockedOut) ∧ LocksReported {} (limitAfter lockedOut) :=
  (limit_holds {} (by decide) (by decide) (Run.of_admits (by decide +kernel))).imp_right
    fun h => h (Run.of_admits (by decide +kernel))

/-- Four failures and a success, twice, and then five failures, the last one of which comes
fifteen minutes after the first one of all. -/
def forgetful : List (Move LimitCall Int) :=
  fourFailures 0 ++ oneRequest (.stepUpTotp true) 4 3 ++
    fourFailures 5 ++ oneRequest (.stepUpTotp true) 9 3 ++
      .tick (600 * second) :: fourFailures 10 ++
        .tick (300 * second) :: oneRequest (.stepUpTotp false) 14 5

/-- **Successes forget failures**: twelve step-ups fail in the window before a lock. -/
theorem successes_forget : ¬ ∀ (limiter : AttemptLimiter), 0 < limiter.threshold →
    limiter.windowEx ≤ limiter.lockoutEx → ∀ (now : Int) (moves : List (Move LimitCall Int))
      (p : LimitPool), Run ClockForward limiter.poolStep (noAttempts now) moves p →
        RefusedWhileLocked limiter p ∧
          (∀ a s, (∃ th ∈ p.threads, LockedAt th s) → a + limiter.windowEx ≤ s →
            failures p a (a + limiter.windowEx) ≤ 2 * limiter.threshold - 1) ∧
          LocksReported limiter p := by
  intro h
  obtain ⟨-, hbounded, -⟩ := h {} (by decide) (by decide) 0 forgetful (limitAfter forgetful)
    (Run.of_admits (by decide +kernel))
  have htwelve : ¬ failures (limitAfter forgetful) 0 (0 + AttemptLimiter.windowEx {}) ≤
      2 * AttemptLimiter.threshold {} - 1 := by
    decide +kernel
  exact htwelve (hbounded 0 (900 * second) (by decide +kernel) (by decide))

end Mfa
end CampusID
