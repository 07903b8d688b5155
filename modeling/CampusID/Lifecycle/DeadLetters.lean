import CampusID.Lib.Interleaving
import CampusID.Lifecycle.World

/-!
# The dead-letter queue

`DeadLetterQueue`: any number of calls of `record` and `replay`, interleaved.  Each statement on
the database is a step, and a write is the last one of its transaction, so that nothing comes
between it and its commit.  A dispatch is a step of its own, and how it ends is an argument of the
call.

A letter is known by its place in the table.  The queue logs what was recorded and which dispatches
succeeded, and a write of `record` bears the letter it found; no program reads the log.
-/

namespace CampusID

open Lib

/-- What a letter is looked up by. -/
@[ext]
structure LetterKey where
  personUuid : String
  target : String
  operation : Operation
  deriving DecidableEq, Repr

/-- The key of a letter. -/
def DeadLetter.key (letter : DeadLetter) : LetterKey :=
  ⟨letter.personUuid, letter.target, letter.operation⟩

/-- How a dispatch ends: it succeeds, gives up after its attempts, or raises something else. -/
inductive DispatchOutcome where
  | succeeded
  | exhausted (attempts : List Attempt)
  | failed (error : String)
  deriving DecidableEq, Repr

/-- What happened: a failed write was recorded, or the dispatch of a letter succeeded. -/
inductive LetterEvent where
  | recorded (key : LetterKey) (login : String) (attempts : List Attempt)
  | dispatched (id : Nat) (key : LetterKey) (login : String)
  deriving DecidableEq, Repr

/-- The table, and what happened. -/
structure LetterQueue where
  letters : List DeadLetter := []
  log : List LetterEvent := []
  deriving DecidableEq, Repr

/-- The steps: `record` looks for an outstanding letter, and files a new one or amends the one it
found; `replay` reads a letter, dispatches it and marks it. -/
inductive LetterCmd where
  | look (key : LetterKey)
  | file (key : LetterKey) (login : String) (attempts : List Attempt)
  | amend (id : Nat) (found : DeadLetter) (login : String) (attempts : List Attempt)
  | read (id : Nat)
  | dispatch (id : Nat) (item : DeadLetter) (outcome : DispatchOutcome)
  | mark (id : Nat)
  deriving DecidableEq, Repr

/-- What a step answers. -/
abbrev LetterCmd.Reply : LetterCmd → Type
  | .look _ => Option (DeadLetter × Nat)
  | .file _ _ _ => Nat
  | .amend _ _ _ _ => Unit
  | .read _ => Option DeadLetter
  | .dispatch _ _ _ => Unit
  | .mark _ => Unit

namespace LetterQueue

variable (q : LetterQueue)

/-- The outstanding letter of a key, and its place. -/
def look (key : LetterKey) : Option (DeadLetter × Nat) :=
  q.letters.zipIdx.find? fun entry => entry.1.key = key ∧ entry.1.replayedAt = none

/-- One step at the instant `now`. -/
def exec (now : Int) : (c : LetterCmd) → LetterQueue → c.Reply × LetterQueue
  | .look key, q => (q.look key, q)
  | .file key login attempts, q =>
    (q.letters.length, {
      letters := q.letters ++ [⟨key.personUuid, key.target, key.operation, login, attempts, none⟩]
      log := q.log ++ [.recorded key login attempts] })
  | .amend id found login attempts, q =>
    ((), {
      -- the attempts that were read, and the new ones
      letters := q.letters.modify id fun letter =>
        { letter with attempts := found.attempts ++ attempts, login := login }
      log := q.log ++ [.recorded found.key login attempts] })
  | .read id, q => (q.letters[id]?, q)
  | .dispatch id item .succeeded, q =>
    ((), { q with log := q.log ++ [.dispatched id item.key item.login] })
  | .dispatch _ _ (.exhausted _), q => ((), q)
  | .dispatch _ _ (.failed _), q => ((), q)
  | .mark id, q =>
    ((), { q with letters := q.letters.modify id fun letter =>
      { letter with replayedAt := some now } })

end LetterQueue

/-- How a call ends: with the letter a failure was recorded in, or with whether a replay
succeeded. -/
inductive LetterOutcome where
  | recorded (id : Nat)
  | replayed (succeeded : Bool)
  deriving DecidableEq, Repr

/-- A program of these steps. -/
abbrev LetterProgram := Prog LetterCmd LetterCmd.Reply

/-- One step. -/
def letterCommand (c : LetterCmd) : LetterProgram c.Reply := Prog.send c

/-- `record`. -/
def record (key : LetterKey) (login : String) (attempts : List Attempt) : LetterProgram Nat := do
  let existing : Option (DeadLetter × Nat) ← letterCommand (.look key)
  match existing with
  | some (found, id) => do
    letterCommand (.amend id found login attempts)
    return id
  | none => letterCommand (.file key login attempts)

/-- `replay` behind a dispatch. -/
def afterDispatch (id : Nat) (item : DeadLetter) : DispatchOutcome → LetterProgram LetterOutcome
  | .succeeded => do
    letterCommand (.mark id)
    return .replayed true
  | .exhausted attempts => do
    let _ ← record item.key item.login attempts
    return .replayed false
  | .failed error => do
    let _ ← record item.key item.login [⟨1, error⟩]
    return .replayed false

/-- `replay`. -/
def replay (id : Nat) (outcome : DispatchOutcome) : LetterProgram LetterOutcome := do
  let row : Option DeadLetter ← letterCommand (.read id)
  match row with
  | none => return .replayed false
  | some item =>
    if item.replayedAt ≠ none then return .replayed false
    else do
      letterCommand (.dispatch id item outcome)
      afterDispatch id item outcome

/-- What is called. -/
inductive LetterCall where
  | record (key : LetterKey) (login : String) (attempts : List Attempt)
  | replay (id : Nat) (outcome : DispatchOutcome)
  deriving DecidableEq, Repr

/-- The program of a call. -/
def LetterCall.program : LetterCall → LetterProgram LetterOutcome
  | .record key login attempts => do
    let id ← CampusID.record key login attempts
    return .recorded id
  | .replay id outcome => CampusID.replay id outcome

/-- The calls in progress over the queue. -/
abbrev LetterPool := Pool LetterCmd LetterCmd.Reply LetterCall LetterOutcome Int LetterQueue

/-- No calls, and no letters. -/
def noLetters : LetterPool := ⟨{}, 0, []⟩

/-- One move. -/
def letterStep (p : LetterPool) (mv : Move LetterCall Int) : LetterPool :=
  p.step LetterQueue.exec LetterCall.program mv

/-! ## On its own -/

theorem fileLetter_eq (key : LetterKey) (login : String) (attempts : List Attempt)
    (letters : List DeadLetter) :
    fileLetter key.personUuid key.target key.operation login attempts letters =
      match (letters.zipIdx.find? fun entry => entry.1.key = key ∧ entry.1.replayedAt = none) with
      | some (found, id) => letters.modify id fun letter =>
          { letter with attempts := found.attempts ++ attempts, login := login }
      | none => letters ++ [⟨key.personUuid, key.target, key.operation, login, attempts, none⟩] := by
  induction letters with
  | nil => rfl
  | cons letter letters ih =>
    have hkey : letter.Outstanding key.personUuid key.target key.operation ↔
        letter.key = key ∧ letter.replayedAt = none := by
      simp only [DeadLetter.Outstanding, DeadLetter.key, LetterKey.ext_iff, and_assoc]
    rw [List.zipIdx_cons, fileLetter]
    by_cases hout : letter.key = key ∧ letter.replayedAt = none
    · rw [if_pos (hkey.mpr hout), List.find?_cons_of_pos (by simpa using hout)]
      rfl
    · rw [if_neg (hkey.not.mpr hout), List.find?_cons_of_neg (by simpa using hout), ih,
        List.zipIdx_succ, List.find?_map]
      simp only [Function.comp_def]
      cases List.find? (fun entry => decide (entry.1.key = key ∧ entry.1.replayedAt = none))
          letters.zipIdx with
      | none => rfl
      | some entry => rfl

/-- **A call of `record` that nothing interrupts files the letter.** -/
theorem run_record (now : Int) (key : LetterKey) (login : String) (attempts : List Attempt)
    (q : LetterQueue) :
    ((record key login attempts).run (LetterQueue.exec now) q).2.letters =
      fileLetter key.personUuid key.target key.operation login attempts q.letters := by
  rw [fileLetter_eq]
  change (Prog.run (LetterQueue.exec now) (match q.look key with
    | some (found, id) => _
    | none => _) q).2.letters = _
  unfold LetterQueue.look
  split <;> rfl

/-! ## What the queue promises -/

/-- Whether a login is waiting, after one more thing happened. -/
def LetterEvent.leaves (key : LetterKey) (login : String) (waiting : Bool) : LetterEvent → Bool
  | .recorded key' login' _ => if key' = key ∧ login' = login then true else waiting
  | .dispatched _ key' login' => if key' = key ∧ login' = login then false else waiting

/-- A login is waiting: its write was recorded as failed, and no dispatch of it has succeeded
since. -/
def waiting (log : List LetterEvent) (key : LetterKey) (login : String) : Bool :=
  log.foldl (LetterEvent.leaves key login) false

/-- The event is a dispatch of the letter. -/
def LetterEvent.dispatches (id : Nat) : LetterEvent → Bool
  | .dispatched id' _ _ => id' = id
  | .recorded _ _ _ => false

/-- **The queue loses nothing**: a key has one outstanding letter, what was attempted is in the
history of a letter, a login that is waiting is in an outstanding letter, and no letter is
dispatched with success twice. -/
structure LosesNothing (q : LetterQueue) : Prop where
  one : ∀ (id id' : Nat) (letter other : DeadLetter), q.letters[id]? = some letter →
    q.letters[id']? = some other → letter.key = other.key →
    letter.replayedAt = none → other.replayedAt = none → id = id'
  attempts : ∀ key login attempts, .recorded key login attempts ∈ q.log →
    ∃ (id : Nat) (letter : DeadLetter), q.letters[id]? = some letter ∧ letter.key = key ∧
      attempts <:+: letter.attempts
  logins : ∀ key login, waiting q.log key login = true →
    ∃ (id : Nat) (letter : DeadLetter), q.letters[id]? = some letter ∧ letter.key = key ∧
      letter.login = login ∧ letter.replayedAt = none
  once : ∀ id, q.log.countP (LetterEvent.dispatches id) ≤ 1

end CampusID
