import CampusID.Lib.Dict

/-!
# Files, and scripts that change them one step at a time

A file system as a map from paths to contents, with the three steps a script takes on it:
`touch`, `write` and `unlink`.  Each is atomic, and nothing groups two of them, so a script
that stops half way leaves the files as its steps so far made them.

`Script` is the meaning of code that reads files, takes steps and may raise: from the
files it finds, the steps it takes in order and how it ends.  `Script.cut` is the files
after a crash at a given step, and `Script.after` the files when none happened.

A path that no step of a script names keeps its content wherever the script is cut
(`read_applyAll_of_forall`).
-/

namespace CampusID
namespace Lib

/-- Files by path.  No path is there twice. -/
structure Files (P C : Type) where
  entries : List (P × C)
  nodup : (entries.map Prod.fst).Nodup

/-- One step on the files. -/
inductive FileStep (P C : Type) where
  | touch (path : P)
  | write (path : P) (content : C)
  | unlink (path : P)
  deriving DecidableEq

/-- The path a step is on. -/
def FileStep.path {P C : Type} : FileStep P C → P
  | .touch path => path
  | .write path _ => path
  | .unlink path => path

namespace Files

variable {P C : Type} [DecidableEq P]

/-- No files. -/
def empty : Files P C := ⟨[], List.nodup_nil⟩

/-- `path.read_text()`, where the file is there. -/
def read (files : Files P C) (path : P) : Option C := files.entries.lookup path

/-- `path.is_file()`. -/
def isFile (files : Files P C) (path : P) : Bool := (files.read path).isSome

/-- The paths there are. -/
def paths (files : Files P C) : List P := files.entries.map Prod.fst

/-- `path.write_text(content)`. -/
def write (files : Files P C) (path : P) (content : C) : Files P C :=
  ⟨assign files.entries path content, nodup_assign _ _ files.nodup⟩

/-- `path.unlink(missing_ok=True)`. -/
def unlink (files : Files P C) (path : P) : Files P C :=
  ⟨files.entries.filter (·.1 ≠ path), files.nodup.sublist (List.filter_sublist.map _)⟩

/-- `path.touch(exist_ok=True)`: an empty file, unless there is one. -/
def touch [Inhabited C] (files : Files P C) (path : P) : Files P C :=
  if files.isFile path then files else files.write path default

/-- Take one step. -/
def apply [Inhabited C] (files : Files P C) : FileStep P C → Files P C
  | .touch path => files.touch path
  | .write path content => files.write path content
  | .unlink path => files.unlink path

/-- Take one step after another. -/
def applyAll [Inhabited C] (files : Files P C) (steps : List (FileStep P C)) : Files P C :=
  steps.foldl apply files

@[simp] theorem read_empty (path : P) : (empty : Files P C).read path = none := rfl

@[simp] theorem read_write (files : Files P C) (path path' : P) (content : C) :
    (files.write path content).read path' =
      if path' = path then some content else files.read path' := lookup_assign _ _ _ _

@[simp] theorem read_unlink (files : Files P C) (path path' : P) :
    (files.unlink path).read path' = if path' = path then none else files.read path' :=
  lookup_filter_ne _ _ _

@[simp] theorem read_touch [Inhabited C] (files : Files P C) (path path' : P) :
    (files.touch path).read path' =
      if path' = path then some ((files.read path').getD default) else files.read path' := by
  unfold touch isFile
  by_cases hpath : path' = path
  · subst hpath
    cases hread : files.read path' with
    | none => simp
    | some content => simp [hread]
  · by_cases hfile : (files.read path).isSome
    · simp [hfile, hpath]
    · simp [hfile, hpath]

theorem mem_paths {files : Files P C} {path : P} :
    path ∈ files.paths ↔ ∃ content, files.read path = some content := by
  constructor
  · intro hmem
    cases hread : files.read path with
    | none => exact absurd hmem (notMem_keys_of_lookup hread)
    | some content => exact ⟨content, rfl⟩
  · rintro ⟨content, hread⟩
    exact mem_keys_of_lookup hread

section Steps

variable [Inhabited C]

@[simp] theorem applyAll_nil (files : Files P C) : files.applyAll [] = files := rfl

@[simp] theorem applyAll_cons (files : Files P C) (step : FileStep P C)
    (steps : List (FileStep P C)) :
    files.applyAll (step :: steps) = (files.apply step).applyAll steps := rfl

theorem applyAll_append (files : Files P C) (steps steps' : List (FileStep P C)) :
    files.applyAll (steps ++ steps') = (files.applyAll steps).applyAll steps' :=
  List.foldl_append

theorem read_apply_of_ne (files : Files P C) {step : FileStep P C} {path : P}
    (h : path ≠ step.path) : (files.apply step).read path = files.read path := by
  cases step with
  | touch p => simp [apply, show path ≠ p from h]
  | write p content => simp [apply, show path ≠ p from h]
  | unlink p => simp [apply, show path ≠ p from h]

/-- **What no step names stays.** -/
theorem read_applyAll_of_forall {files : Files P C} {steps : List (FileStep P C)} {path : P}
    (h : ∀ step ∈ steps, path ≠ step.path) : (files.applyAll steps).read path = files.read path := by
  induction steps generalizing files with
  | nil => rfl
  | cons step steps ih =>
    rw [applyAll_cons, ih fun s hs => h s (List.mem_cons_of_mem _ hs)]
    exact read_apply_of_ne files (h step List.mem_cons_self)

end Steps

end Files

/-! ## Scripts -/

/-- Code over files: from the files it finds, the steps it takes and how it ends. -/
def Script (P C ε α : Type) : Type := Files P C → List (FileStep P C) × Except ε α

namespace Script

variable {P C ε α β : Type}

/-- The steps a script takes. -/
def steps (x : Script P C ε α) (files : Files P C) : List (FileStep P C) := (x files).1

/-- How a script ends. -/
def result (x : Script P C ε α) (files : Files P C) : Except ε α := (x files).2

/-- Take one step. -/
def step (s : FileStep P C) : Script P C ε Unit := fun _ => ([s], .ok ())

/-- Read something off the files. -/
def look (f : Files P C → α) : Script P C ε α := fun files => ([], .ok (f files))

/-- `raise`. -/
def raise (e : ε) : Script P C ε α := fun _ => ([], .error e)

@[simp] theorem look_apply (f : Files P C → α) (files : Files P C) :
    (look f : Script P C ε α) files = ([], .ok (f files)) := rfl

@[simp] theorem raise_apply (e : ε) (files : Files P C) :
    (raise e : Script P C ε α) files = ([], .error e) := rfl

@[simp] theorem step_apply (s : FileStep P C) (files : Files P C) :
    (step s : Script P C ε Unit) files = ([s], .ok ()) := rfl

variable [DecidableEq P] [Inhabited C]

/-- The files after a script. -/
def after (x : Script P C ε α) (files : Files P C) : Files P C := files.applyAll (x.steps files)

/-- The files after a crash, when the script had taken `k` of its steps. -/
def cut (x : Script P C ε α) (files : Files P C) (k : Nat) : Files P C :=
  files.applyAll ((x.steps files).take k)

instance : Monad (Script P C ε) where
  pure a := fun _ => ([], .ok a)
  bind x f := fun files =>
    match x files with
    | (steps, .error e) => (steps, .error e)
    | (steps, .ok a) =>
      (steps ++ (f a (files.applyAll steps)).1, (f a (files.applyAll steps)).2)

@[simp] theorem pure_apply (a : α) (files : Files P C) :
    (Pure.pure a : Script P C ε α) files = ([], .ok a) := rfl

/-- A script goes on where the one before it returned, with the files as that left them. -/
theorem bind_of_ok {x : Script P C ε α} {f : α → Script P C ε β} {files : Files P C}
    {ss : List (FileStep P C)} {a : α} (h : x files = (ss, .ok a)) :
    (x >>= f) files = (ss ++ (f a (files.applyAll ss)).1, (f a (files.applyAll ss)).2) := by
  simp only [Bind.bind]
  rw [h]

theorem bind_of_error {x : Script P C ε α} {f : α → Script P C ε β} {files : Files P C}
    {ss : List (FileStep P C)} {e : ε} (h : x files = (ss, .error e)) :
    (x >>= f) files = (ss, .error e) := by
  simp only [Bind.bind]
  rw [h]

@[simp] theorem look_bind (g : Files P C → α) (f : α → Script P C ε β) (files : Files P C) :
    (look g >>= f) files = f (g files) files := by
  rw [bind_of_ok (look_apply g files)]
  simp

@[simp] theorem pure_bind (a : α) (f : α → Script P C ε β) (files : Files P C) :
    ((Pure.pure a : Script P C ε α) >>= f) files = f a files := by
  rw [bind_of_ok (pure_apply a files)]
  simp

@[simp] theorem raise_bind (e : ε) (f : α → Script P C ε β) (files : Files P C) :
    ((raise e : Script P C ε α) >>= f) files = ([], .error e) :=
  bind_of_error (raise_apply e files)

@[simp] theorem step_bind (s : FileStep P C) (f : Unit → Script P C ε β) (files : Files P C) :
    (step s >>= f) files = (s :: (f () (files.apply s)).1, (f () (files.apply s)).2) :=
  bind_of_ok (step_apply s files)

end Script

end Lib
end CampusID
