import CampusID.Authz.Engine
import CampusID.Authz.Roles
import CampusID.Lib.Interleaving
import CampusID.Lifecycle.Rules

/-!
# Policy files that reload themselves

`RulesStore`, `RoleStore` and `PolicyEngineStore` hold what was loaded last from a file and load it
again when its modification time is another than the one they have noted.  They are one definition
here, over what a file contains, what loading makes of it, and its times.

Each system call is a step: the file is written, its time is taken, it is read.  What the code does
in memory right after a call is part of its step.  The code holds the event loop during a reload, so
that only a write can come in between; here any call can.
-/

namespace CampusID
namespace Policy

open Authz (RoleCatalogue PolicySet)
open Lib

/-- What loading makes of what a file contains: something, the error that `reload` catches, or an
exception that it does not catch. -/
inductive Loaded (V : Type) where
  | accepted (value : V)
  | rejected
  | raised
  deriving DecidableEq

/-- A file, and what it has contained before. -/
structure WatchedFile (C T : Type) where
  content : C
  mtime : T
  earlier : List (C × T) := []

/-- A store over its file. -/
structure FileStore (V C T : Type) where
  file : WatchedFile C T
  current : V
  fingerprint : Option T := none

/-- The store of the lifecycle rules. -/
abbrev RulesStore := FileStore LifecycleRules

/-- The store of the roles. -/
abbrev RoleStore := FileStore RoleCatalogue

/-- The store of the authorization policies. -/
abbrev PolicyEngineStore := FileStore PolicySet

/-- The steps: the file is written; `_changed` compares its time with the fingerprint; `load` reads
it and takes over what it accepts; `mark` takes the fingerprint; `answer` is what the store
holds. -/
inductive FileCmd (C T : Type) where
  | write (content : C) (mtime : T)
  | changed
  | load
  | mark
  | answer
  deriving DecidableEq

/-- What a step answers. -/
abbrev FileCmd.Reply (V : Type) {C T : Type} : FileCmd C T → Type
  | .write _ _ => Unit
  | .changed => Bool
  | .load => Loaded V
  | .mark => Unit
  | .answer => V

/-- How a call ends. -/
inductive FileOutcome (V : Type) where
  | done
  | answered (value : V)
  | raised
  deriving DecidableEq

variable {V C T : Type}

/-- The file after it was written. -/
def WatchedFile.write (file : WatchedFile C T) (content : C) (mtime : T) : WatchedFile C T where
  content := content
  mtime := mtime
  earlier := (file.content, file.mtime) :: file.earlier

/-- What is held once something was loaded. -/
def FileStore.take (s : FileStore V C T) : Loaded V → FileStore V C T
  | .accepted value => { s with current := value }
  | .rejected => s
  | .raised => s

/-- One step.  The instant does not matter: a write brings the time of the file with it. -/
def FileStore.exec [DecidableEq T] (parse : C → Loaded V) (_now : Int) :
    (c : FileCmd C T) → FileStore V C T → c.Reply V × FileStore V C T
  | .write content mtime, s => ((), { s with file := s.file.write content mtime })
  | .changed, s => (decide (some s.file.mtime ≠ s.fingerprint), s)
  | .load, s => (parse s.file.content, s.take (parse s.file.content))
  | .mark, s => ((), { s with fingerprint := some s.file.mtime })
  | .answer, s => (s.current, s)

/-! ## The programs -/

/-- A program of these steps. -/
abbrev FileProgram (V C T : Type) := Prog (FileCmd C T) (FileCmd.Reply V)

/-- One step. -/
def fileCommand (c : FileCmd C T) : FileProgram V C T (c.Reply V) := Prog.send c

/-- `reload` behind the load: the fingerprint is taken of what the file is by then. -/
def afterLoad (rest : FileProgram V C T (FileOutcome V)) :
    Loaded V → FileProgram V C T (FileOutcome V)
  | .accepted _ => do
    fileCommand .mark
    rest
  | .rejected => rest
  | .raised => return .raised

/-- `reload`, and what follows it. -/
def reload (rest : FileProgram V C T (FileOutcome V)) : FileProgram V C T (FileOutcome V) := do
  let loaded : Loaded V ← fileCommand .load
  afterLoad rest loaded

/-- The end of `current`. -/
def answer : FileProgram V C T (FileOutcome V) := do
  let value : V ← fileCommand .answer
  return .answered value

/-- `current`. -/
def current : FileProgram V C T (FileOutcome V) := do
  let changed : Bool ← fileCommand .changed
  if changed then reload answer else answer

/-- What is called: somebody writes the file, or the store is asked. -/
inductive FileCall (C T : Type) where
  | write (content : C) (mtime : T)
  | reload
  | current
  deriving DecidableEq

/-- The program of a call. -/
def FileCall.program : FileCall C T → FileProgram V C T (FileOutcome V)
  | .write content mtime => do
    fileCommand (.write content mtime)
    return .done
  | .reload => Policy.reload (return .done)
  | .current => Policy.current

/-- The calls in progress over a store. -/
abbrev FilePool (V C T : Type) :=
  Pool (FileCmd C T) (FileCmd.Reply V) (FileCall C T) (FileOutcome V) Int (FileStore V C T)

/-- One move. -/
def fileStep [DecidableEq T] (parse : C → Loaded V) (p : FilePool V C T)
    (mv : Move (FileCall C T) Int) : FilePool V C T :=
  p.step (FileStore.exec parse) FileCall.program mv

/-- A store that is being made: it holds its default, and has loaded nothing. -/
def FileStore.made (file : WatchedFile C T) (default : V) : FilePool V C T :=
  ⟨{ file := file, current := default }, 0, []⟩

/-! ## What the file promises -/

/-- A write gives the file a time that it never had. -/
def FileCmd.Dated (file : WatchedFile C T) : FileCmd C T → Prop
  | .write _ mtime => mtime ≠ file.mtime ∧ ∀ entry ∈ file.earlier, mtime ≠ entry.2
  | _ => True

/-- The step does not write the file. -/
def FileCmd.Quiet : FileCmd C T → Prop
  | .write _ _ => False
  | _ => True

/-- The move gives the file no time that it had. -/
def Dated (p : FilePool V C T) : Move (FileCall C T) Int → Prop
  | .advance i => ∀ c ∈ p.next i, c.Dated p.store.file
  | _ => True

/-- The move does not write the file. -/
def Quiet (p : FilePool V C T) : Move (FileCall C T) Int → Prop
  | .advance i => ∀ c ∈ p.next i, c.Quiet
  | _ => True

section Decidable

variable [DecidableEq T]

instance (file : WatchedFile C T) : (c : FileCmd C T) → Decidable (c.Dated file)
  | .write _ mtime =>
    inferInstanceAs (Decidable (mtime ≠ file.mtime ∧ ∀ entry ∈ file.earlier, mtime ≠ entry.2))
  | .changed => .isTrue trivial
  | .load => .isTrue trivial
  | .mark => .isTrue trivial
  | .answer => .isTrue trivial

instance : (c : FileCmd C T) → Decidable c.Quiet
  | .write _ _ => .isFalse id
  | .changed => .isTrue trivial
  | .load => .isTrue trivial
  | .mark => .isTrue trivial
  | .answer => .isTrue trivial

instance (p : FilePool V C T) : (mv : Move (FileCall C T) Int) → Decidable (Dated p mv)
  | .advance i => inferInstanceAs (Decidable (∀ c ∈ p.next i, c.Dated p.store.file))
  | .tick _ => .isTrue trivial
  | .spawn _ => .isTrue trivial

instance (p : FilePool V C T) : (mv : Move (FileCall C T) Int) → Decidable (Quiet p mv)
  | .advance i => inferInstanceAs (Decidable (∀ c ∈ p.next i, c.Quiet))
  | .tick _ => .isTrue trivial
  | .spawn _ => .isTrue trivial

end Decidable

/-! ## What the store promises -/

/-- The outcome of a call of `current`: what the file contains, if that is valid, and what it
contained some time before, if not. -/
def FileStore.Latest (parse : C → Loaded V) (s : FileStore V C T) (outcome : FileOutcome V) : Prop :=
  match parse s.file.content with
  | .accepted value => outcome = .answered value
  | _ => ∃ entry ∈ s.file.earlier, ∃ value, parse entry.1 = .accepted value ∧
      outcome = .answered value

/-- **The store follows its file**: whenever `current` is called, and the file is not written before
the call ends, it ends after four steps of its own at most, and with the latest. -/
def Follows [DecidableEq T] (parse : C → Loaded V) (p : FilePool V C T)
    (admits : FilePool V C T → Move (FileCall C T) Int → Prop) : Prop :=
  ∀ moves q th,
    Run (fun p mv => admits p mv ∧ Quiet p mv) (fileStep parse) p (.spawn .current :: moves) q →
    q.At p.threads.length th →
      (4 ≤ th.history.length → ∃ outcome, th.rest = .pure outcome) ∧
        ∀ outcome, th.rest = .pure outcome → q.store.Latest parse outcome

end Policy
end CampusID
