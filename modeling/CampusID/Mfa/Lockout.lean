import CampusID.Mfa.RateLimit
import CampusID.Lib.Interrupted
import CampusID.Lib.Runs

/-!
# What adds up to a lockout

Calls of `record_failure` and `record_success` for one person and one kind, one after another,
each of which may stop after any of its commands.

A lock should stand for `threshold` failures of one window (`RecentLocks`).  The window is an
expiry, and the expiry is a command of its own after the first `INCR`: a failure that stops
between the two leaves a counter that never expires, and failures of any age add up
(`not_recentLocks`).  Where no failure does, a lock is deserved (`recentLocks_of_windowed`).
-/

namespace CampusID
namespace Mfa

open Lib

namespace AttemptLimiter

/-- `record_success`. -/
def recordSuccess : LimitProgram Unit := do
  let _ : Nat ← limitCommand .clear
  return ()

end AttemptLimiter

/-- The two calls. -/
inductive Recording where
  | failure
  | success
  deriving DecidableEq, Repr

/-- A call at an instant, and how many of its commands go through before one fails or the process
stops. -/
structure RecordCall where
  moment : Int
  recording : Recording
  through : Nat
  deriving DecidableEq, Repr

/-- A call that was made, and the commands that went through. -/
structure RecordEntry where
  moment : Int
  recording : Recording
  commands : List LimitCmd
  deriving DecidableEq, Repr

/-- The counter and the lock, and the calls that were made, the last one first. -/
structure RecordState where
  store : LimitState := {}
  log : List RecordEntry := []

/-- What a call does to the two keys. -/
def AttemptLimiter.runCall (limiter : AttemptLimiter) (call : RecordCall) (st : LimitState) :
    List LimitCmd × LimitState :=
  match call.recording with
  | .failure => Prog.upTo (LimitState.exec call.moment) call.through limiter.recordFailure st
  | .success =>
    Prog.upTo (LimitState.exec call.moment) call.through AttemptLimiter.recordSuccess st

/-- One call. -/
def AttemptLimiter.record (limiter : AttemptLimiter) (s : RecordState) (call : RecordCall) :
    RecordState where
  store := (limiter.runCall call s.store).2
  log := ⟨call.moment, call.recording, (limiter.runCall call s.store).1⟩ :: s.log

/-- The instants do not run backwards. -/
def Successive (s : RecordState) (call : RecordCall) : Prop :=
  ∀ last ∈ s.log.head?, last.moment ≤ call.moment

/-- The call has forgotten the failures. -/
def RecordEntry.resets (e : RecordEntry) : Bool :=
  e.commands.any fun c => c = .reset ∨ c = .clear

/-- The call has set the lock. -/
def RecordEntry.locks (e : RecordEntry) : Bool := e.commands.any LimitCmd.Locks

/-- Failures from `start` on, back to the last that were forgotten. -/
def failuresSince (start : Int) (log : List RecordEntry) : Nat :=
  (log.takeWhile fun e => !e.resets).countP fun e => e.recording = .failure ∧ start ≤ e.moment

/-- **Only recent failures add up to a lockout**: with a failure that sets the lock there are
`threshold` in the window, none of them forgotten. -/
def RecentLocks (limiter : AttemptLimiter) (log : List RecordEntry) : Prop :=
  ∀ e earlier, (e :: earlier) <:+ log → e.recording = .failure → e.locks = true →
    limiter.threshold ≤ failuresSince (e.moment - max limiter.windowEx 0) earlier + 1

/-- The call does not stop between the first `INCR` of a window and its expiry.  Where one failure
is enough for a lock it may. -/
def Windowed (limiter : AttemptLimiter) (s : RecordState) (call : RecordCall) : Prop :=
  call.recording = .failure → call.through = 1 →
    limiter.threshold ≤ 1 ∨ (s.store.counter call.moment).isSome = true

instance (s : RecordState) (call : RecordCall) : Decidable (Successive s call) :=
  inferInstanceAs (Decidable (∀ last ∈ s.log.head?, last.moment ≤ call.moment))

instance (limiter : AttemptLimiter) (s : RecordState) (call : RecordCall) :
    Decidable (Windowed limiter s call) :=
  inferInstanceAs (Decidable (call.recording = .failure → call.through = 1 →
    limiter.threshold ≤ 1 ∨ (s.store.counter call.moment).isSome = true))

/-! ## One call -/

section Calls

variable {limiter : AttemptLimiter} {call : RecordCall} {st : LimitState}

/-- What `record_failure` does once it has counted. -/
def afterCount (limiter : AttemptLimiter) (attempts : Nat) : LimitProgram Failure :=
  if attempts < limiter.threshold then .pure ⟨attempts, false⟩
  else .call (.setLock limiter.lockoutEx) fun _ => .call .reset fun _ => .pure ⟨attempts, true⟩

theorem counted_eq (attempts : Nat) : limiter.counted attempts = afterCount limiter attempts := by
  unfold AttemptLimiter.counted afterCount
  split_ifs <;> rfl

theorem recordFailure_eq : limiter.recordFailure = .call .incr fun attempts =>
    if attempts = 1 then .call (.expire limiter.windowEx) fun _ => afterCount limiter attempts
    else afterCount limiter attempts := by
  refine congrArg (Prog.call LimitCmd.incr) (funext fun attempts => ?_)
  change ite (attempts = 1) _ _ = _
  split_ifs
  · exact congrArg (Prog.call _) (funext fun _ => counted_eq attempts)
  · exact counted_eq attempts

/-- A lock is set only from the threshold on, and what follows the count leaves the counter alone
or forgets it. -/
theorem upTo_afterCount (limiter : AttemptLimiter) (n attempts : Nat) (now : Int)
    (st : LimitState) :
    let done := Prog.upTo (LimitState.exec now) n (afterCount limiter attempts) st
    (done.1.any LimitCmd.Locks = true → limiter.threshold ≤ attempts) ∧
      (done.2.attempts = none ∨ done.2.attempts = st.attempts ∧
        (done.1.any fun c => c = .reset ∨ c = .clear) = false) := by
  intro done
  by_cases hbelow : attempts < limiter.threshold
  · have hdone : done = ([], st) := by
      show Prog.upTo _ n (ite _ _ _) st = _
      rw [if_pos hbelow, Prog.upTo_pure]
    rw [hdone]
    exact ⟨fun h => absurd h (by simp), .inr ⟨rfl, rfl⟩⟩
  · refine ⟨fun _ => not_lt.mp hbelow, ?_⟩
    have hdone : done = Prog.upTo (LimitState.exec now) n (.call (.setLock limiter.lockoutEx)
        fun _ => .call .reset fun _ => .pure (⟨attempts, true⟩ : Failure)) st := by
      show Prog.upTo _ n (ite _ _ _) st = _
      rw [if_neg hbelow]
    rw [hdone]
    match n with
    | 0 => exact .inr ⟨rfl, rfl⟩
    | 1 => exact .inr ⟨rfl, rfl⟩
    | n + 2 =>
      rw [Prog.upTo_call, Prog.upTo_call, Prog.upTo_pure]
      exact .inl rfl

theorem runCall_counted {v n : Nat} {x : Option Int} (hkind : call.recording = .failure)
    (hthrough : call.through = n + 1) (hcounter : st.counter call.moment = some ⟨v, x⟩)
    (hpos : 0 < v) :
    let rest := Prog.upTo (LimitState.exec call.moment) n (afterCount limiter (v + 1))
      { st with attempts := some ⟨v + 1, x⟩ }
    limiter.runCall call st = (.incr :: rest.1, rest.2) := by
  have hexec : LimitState.exec call.moment .incr st =
      (v + 1, { st with attempts := some ⟨v + 1, x⟩ }) := by
    simp only [LimitState.exec, hcounter]
  have hne : v + 1 ≠ 1 := by omega
  unfold AttemptLimiter.runCall
  rw [hkind, hthrough, recordFailure_eq]
  dsimp only
  rw [Prog.upTo_call, hexec]
  dsimp only
  rw [if_neg hne]

theorem runCall_first {n : Nat} (hkind : call.recording = .failure)
    (hthrough : call.through = n + 2) (hcounter : st.counter call.moment = none) :
    let rest := Prog.upTo (LimitState.exec call.moment) n (afterCount limiter 1)
      { st with attempts := some ⟨1, some (call.moment + limiter.windowEx)⟩ }
    limiter.runCall call st = (.incr :: .expire limiter.windowEx :: rest.1, rest.2) := by
  have hexec : LimitState.exec call.moment .incr st =
      ((1 : Nat), { st with attempts := some ⟨1, none⟩ }) := by
    simp only [LimitState.exec, hcounter]
  unfold AttemptLimiter.runCall
  rw [hkind, hthrough, recordFailure_eq]
  dsimp only
  rw [Prog.upTo_call, hexec]
  dsimp only
  rw [if_pos rfl, Prog.upTo_call]
  rfl

theorem runCall_zero (h : call.through = 0) : limiter.runCall call st = ([], st) := by
  unfold AttemptLimiter.runCall
  rw [h]
  cases call.recording <;> rfl

theorem runCall_success {n : Nat} (hkind : call.recording = .success)
    (hthrough : call.through = n + 1) :
    limiter.runCall call st = ([.clear], { st with attempts := none }) := by
  unfold AttemptLimiter.runCall
  rw [hkind, hthrough]
  cases n <;> rfl

end Calls

/-! ## Counting -/

section Counting

variable {limiter : AttemptLimiter} {log : List RecordEntry} {e : RecordEntry} {start : Int}

theorem failuresSince_antitone {start' : Int} (h : start' ≤ start) :
    failuresSince start log ≤ failuresSince start' log := by
  refine List.countP_mono_left fun e _ he => ?_
  rw [decide_eq_true_eq] at he ⊢
  exact ⟨he.1, h.trans he.2⟩

theorem failuresSince_le_cons (h : e.resets = false) :
    failuresSince start log ≤ failuresSince start (e :: log) := by
  unfold failuresSince
  rw [List.takeWhile_cons_of_pos (by simp [h]), List.countP_cons]
  omega

theorem failuresSince_cons (h : e.resets = false) (hfailure : e.recording = .failure)
    (hstart : start ≤ e.moment) :
    failuresSince start (e :: log) = failuresSince start log + 1 := by
  unfold failuresSince
  rw [List.takeWhile_cons_of_pos (by simp [h]), List.countP_cons, if_pos (by simp [*])]

/-- **The counter counts failures of one window**: it is at most the failures since an instant that
is a window before it expires. -/
def WindowCounted (limiter : AttemptLimiter) (s : RecordState) : Prop :=
  ∀ v x, s.store.attempts = some ⟨v, x⟩ → 0 < v ∧ ∃ first, x = some (first + limiter.windowEx) ∧
    (∃ last ∈ s.log.head?, first ≤ last.moment) ∧ v ≤ failuresSince first s.log

theorem RecentLocks.cons (h : RecentLocks limiter log)
    (hnew : e.recording = .failure → e.locks = true →
      limiter.threshold ≤ failuresSince (e.moment - max limiter.windowEx 0) log + 1) :
    RecentLocks limiter (e :: log) := by
  intro e' earlier hsuffix
  rcases List.suffix_cons_iff.mp hsuffix with heq | hold
  · obtain ⟨rfl, rfl⟩ := List.cons.inj heq
    exact hnew
  · exact h e' earlier hold

end Counting

/-! ## Runs of calls -/

section Runs

variable {limiter : AttemptLimiter} {s : RecordState} {call : RecordCall}

theorem WindowCounted.stopped (h : WindowCounted limiter s) (horder : Successive s call)
    (hdone : limiter.runCall call s.store = ([], s.store)) :
    WindowCounted limiter (limiter.record s call) := by
  intro v x hattempts
  unfold AttemptLimiter.record at hattempts ⊢
  rw [hdone] at hattempts ⊢
  obtain ⟨hpos, first, hx, ⟨last, hlast, hfirst⟩, hcount⟩ := h v x hattempts
  refine ⟨hpos, first, hx, ⟨_, rfl, hfirst.trans (horder last hlast)⟩, ?_⟩
  exact hcount.trans (failuresSince_le_cons rfl)

/-- **One call keeps the count, and a lock it sets is deserved.** -/
theorem record_keeps (hmany : 1 < limiter.threshold) (horder : Successive s call)
    (hwindowed : Windowed limiter s call) (hcounted : WindowCounted limiter s)
    (hrecent : RecentLocks limiter s.log) :
    WindowCounted limiter (limiter.record s call) ∧
      RecentLocks limiter (limiter.record s call).log := by
  obtain ⟨moment, recording, through⟩ := call
  have hnone : limiter.runCall ⟨moment, recording, through⟩ s.store = ([], s.store) →
      WindowCounted limiter (limiter.record s ⟨moment, recording, through⟩) ∧
        RecentLocks limiter (limiter.record s ⟨moment, recording, through⟩).log := by
    intro hdone
    refine ⟨hcounted.stopped horder hdone, hrecent.cons fun _ hlocks => ?_⟩
    rw [hdone] at hlocks
    cases hlocks
  cases through with
  | zero => exact hnone (runCall_zero rfl)
  | succ n =>
    cases recording with
    | success =>
      have hdone : limiter.runCall ⟨moment, .success, n + 1⟩ s.store =
          ([.clear], { s.store with attempts := none }) := runCall_success rfl rfl
      refine ⟨fun v x hattempts => ?_, hrecent.cons fun hkind => by cases hkind⟩
      unfold AttemptLimiter.record at hattempts
      rw [hdone] at hattempts
      cases hattempts
    | failure =>
      cases hcounter : s.store.counter moment with
      | some e =>
        obtain ⟨v, x⟩ := e
        obtain ⟨hattempts, hlive⟩ := Option.filter_eq_some_iff.mp hcounter
        obtain ⟨hpos, first, rfl, ⟨last, hlast, hfirst⟩, hcount⟩ := hcounted v x hattempts
        have hdone := @runCall_counted limiter ⟨moment, .failure, n + 1⟩ s.store v n _ rfl rfl
          hcounter hpos
        obtain ⟨hlock, hafter⟩ := upTo_afterCount limiter n (v + 1) moment
          { s.store with attempts := some ⟨v + 1, some (first + limiter.windowEx)⟩ }
        have hstart : first ≤ moment := hfirst.trans (horder last hlast)
        constructor
        · intro w y hthere
          unfold AttemptLimiter.record at hthere ⊢
          rw [hdone] at hthere ⊢
          rcases hafter with hforgot | ⟨hsame, hresets⟩
          · rw [hforgot] at hthere
            cases hthere
          · obtain ⟨rfl, rfl⟩ := Entry.mk.inj (Option.some.inj (hsame.symm.trans hthere))
            refine ⟨Nat.succ_pos v, first, rfl, ⟨_, rfl, hstart⟩, ?_⟩
            have hkept : (RecordEntry.mk moment .failure (.incr :: _)).resets = false := hresets
            rw [failuresSince_cons hkept rfl hstart]
            omega
        · refine hrecent.cons fun _ hlocks => ?_
          rw [hdone] at hlocks
          have hthreshold := hlock hlocks
          have hwithin : moment - max limiter.windowEx 0 ≤ first := by
            have hbefore : moment < first + limiter.windowEx := by simpa using hlive
            have := le_max_left limiter.windowEx 0
            omega
          have hmore : failuresSince first s.log ≤
              failuresSince (moment - max limiter.windowEx 0) s.log :=
            failuresSince_antitone hwithin
          show limiter.threshold ≤ failuresSince (moment - max limiter.windowEx 0) s.log + 1
          omega
      | none =>
        cases n with
        | zero =>
          rcases hwindowed rfl rfl with hone | hsome
          · omega
          · rw [hcounter] at hsome
            cases hsome
        | succ n =>
          have hdone := @runCall_first limiter ⟨moment, .failure, n + 2⟩ s.store n rfl rfl hcounter
          have hafter : Prog.upTo (LimitState.exec moment) n (afterCount limiter 1)
              { s.store with attempts := some ⟨1, some (moment + limiter.windowEx)⟩ } =
                ([], { s.store with attempts := some ⟨1, some (moment + limiter.windowEx)⟩ }) := by
            unfold afterCount
            rw [if_pos hmany, Prog.upTo_pure]
          dsimp only at hdone
          rw [hafter] at hdone
          constructor
          · intro w y hthere
            unfold AttemptLimiter.record at hthere ⊢
            rw [hdone] at hthere ⊢
            obtain ⟨rfl, rfl⟩ := Entry.mk.inj (Option.some.inj hthere)
            refine ⟨Nat.one_pos, moment, rfl, ⟨_, rfl, le_rfl⟩, ?_⟩
            have hkept : (RecordEntry.mk moment .failure
                [.incr, .expire limiter.windowEx]).resets = false := rfl
            show 1 ≤ failuresSince moment (_ :: s.log)
            rw [failuresSince_cons hkept rfl le_rfl]
            omega
          · refine hrecent.cons fun _ hlocks => ?_
            rw [hdone] at hlocks
            cases hlocks

/-- **Where every window is set, only recent failures add up to a lockout.** -/
theorem recentLocks_of_windowed (limiter : AttemptLimiter) (calls : List RecordCall)
    (s : RecordState)
    (h : Run (fun s call => Successive s call ∧ Windowed limiter s call) limiter.record {} calls s) :
    RecentLocks limiter s.log := by
  by_cases hone : limiter.threshold ≤ 1
  · intro e earlier _ _ _
    omega
  · have hstart : WindowCounted limiter {} ∧ RecentLocks limiter ({} : RecordState).log := by
      refine ⟨fun v x hattempts => ?_, fun e earlier hsuffix => ?_⟩
      · cases hattempts
      · exact absurd (List.suffix_nil.mp hsuffix) (List.cons_ne_nil _ _)
    refine (h.invariant (I := fun s => WindowCounted limiter s ∧ RecentLocks limiter s.log) ?_ hstart).2
    rintro s call ⟨hcounted, hrecent⟩ ⟨horder, hwindowed⟩
    exact record_keeps (not_le.mp hone) horder hwindowed hcounted hrecent

/-- Five failures of one minute. -/
def burst : List RecordCall :=
  [⟨0, .failure, 4⟩, ⟨second, .failure, 4⟩, ⟨2 * second, .failure, 4⟩, ⟨3 * second, .failure, 4⟩,
    ⟨4 * second, .failure, 4⟩]

theorem recentLocks_burst : RecentLocks {} (burst.foldl (AttemptLimiter.record {}) {}).log :=
  recentLocks_of_windowed {} burst _ (Run.of_admits (by decide))

/-- A day. -/
def day : Int := 24 * 60 * 60 * second

/-- A failure that stops after its `INCR`, and four more a day apart. -/
def scattered : List RecordCall :=
  [⟨0, .failure, 1⟩, ⟨day, .failure, 4⟩, ⟨2 * day, .failure, 4⟩, ⟨3 * day, .failure, 4⟩,
    ⟨4 * day, .failure, 4⟩]

/-- **Old failures add up to a lockout.** -/
theorem not_recentLocks : ¬ ∀ (limiter : AttemptLimiter) (calls : List RecordCall)
    (s : RecordState), Run Successive limiter.record {} calls s → RecentLocks limiter s.log := by
  intro h
  have hlock := h {} scattered _ (Run.of_admits (by decide)) _ _ List.suffix_rfl rfl (by decide)
  exact absurd hlock (by decide)

end Runs

end Mfa
end CampusID
