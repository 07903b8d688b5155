import CampusID.Lib.AtomicPrograms

/-!
# Programs that may raise

A program over atomic commands whose result is a value or an exception.  A check without a
command is an `Except` and lifts into such a program; `ask` is one command and its reply.

`Returns x h a` says that after the replies in the history `h` the program `x` has returned
`a`.  It is computed along the structure of the program: a sequence returns through what its
parts return (`returns_bind`), a check returns without a reply (`returns_check`), and `ask`
returns the one reply it got (`returns_ask`).
-/

namespace CampusID
namespace Lib

/-- A program over the commands `C` that returns an `α` or raises an `ε`. -/
abbrev Raising (C : Type) (R : C → Type) (ε α : Type) : Type := ExceptT ε (Prog C R) α

namespace Raising

variable {C : Type} {R : C → Type} {ε α β : Type}

/-- One command. -/
def ask (c : C) : Raising C R ε (R c) := ExceptT.lift (Prog.send c)

/-- A check that needs no command. -/
def check (x : Except ε α) : Raising C R ε α := liftM x

/-- After these replies the program has returned `a`. -/
def Returns (x : Raising C R ε α) (h : List (Σ c, R c)) (a : α) : Prop :=
  Prog.Follows x.run h (.pure (.ok a))

@[simp] theorem run_ask (c : C) :
    (ask c : Raising C R ε (R c)).run = .call c fun r => .pure (.ok r) := rfl

@[simp] theorem run_check (x : Except ε α) :
    (check x : Raising C R ε α).run = .pure x := by
  cases x <;> rfl

@[simp] theorem run_pure (a : α) : (pure a : Raising C R ε α).run = .pure (.ok a) := rfl

theorem run_bind (x : Raising C R ε α) (f : α → Raising C R ε β) :
    (x >>= f).run = x.run.bind fun
      | .ok a => (f a).run
      | .error e => .pure (.error e) := by
  show x.run.bind _ = _
  congr

end Raising

namespace Prog

variable {C : Type} {R : C → Type} {α β : Type}

/-- **A sequence that returned**: its parts share the replies. -/
theorem Follows.bind_pure {p : Prog C R α} {f : α → Prog C R β} {h : List (Σ c, R c)} {b : β} :
    Follows (p.bind f) h (.pure b) ↔
      ∃ a h₁ h₂, h = h₁ ++ h₂ ∧ Follows p h₁ (.pure a) ∧ Follows (f a) h₂ (.pure b) := by
  induction p generalizing h with
  | pure a =>
    constructor
    · intro hf
      exact ⟨a, [], h, rfl, .nil _, hf⟩
    · rintro ⟨a', h₁, h₂, rfl, hp, hf⟩
      obtain ⟨rfl, heq⟩ := Follows.pure_iff.mp hp
      obtain rfl : a' = a := Prog.pure.inj heq
      exact hf
  | call c k ih =>
    constructor
    · intro hf
      rcases Follows.call_iff.mp hf with ⟨-, heq⟩ | ⟨r, h', rfl, hrest⟩
      · cases heq
      · obtain ⟨a, h₁, h₂, rfl, hp, hf⟩ := (ih r).mp hrest
        exact ⟨a, ⟨c, r⟩ :: h₁, h₂, rfl, .cons hp, hf⟩
    · rintro ⟨a, h₁, h₂, rfl, hp, hf⟩
      rcases Follows.call_iff.mp hp with ⟨-, heq⟩ | ⟨r, h', rfl, hrest⟩
      · cases heq
      · exact .cons ((ih r).mpr ⟨a, h', h₂, rfl, hrest, hf⟩)

end Prog

namespace Raising

variable {C : Type} {R : C → Type} {ε α β : Type} {h : List (Σ c, R c)}

@[simp] theorem returns_pure {a b : α} :
    Returns (pure a : Raising C R ε α) h b ↔ h = [] ∧ b = a := by
  rw [Returns, run_pure, Prog.Follows.pure_iff]
  constructor
  · rintro ⟨rfl, heq⟩
    exact ⟨rfl, Except.ok.inj (Prog.pure.inj heq)⟩
  · rintro ⟨rfl, rfl⟩
    exact ⟨rfl, rfl⟩

@[simp] theorem returns_check {x : Except ε α} {a : α} :
    Returns (check x : Raising C R ε α) h a ↔ h = [] ∧ x = .ok a := by
  rw [Returns, run_check, Prog.Follows.pure_iff]
  constructor
  · rintro ⟨rfl, heq⟩
    exact ⟨rfl, (Prog.pure.inj heq).symm⟩
  · rintro ⟨rfl, rfl⟩
    exact ⟨rfl, rfl⟩

@[simp] theorem returns_ask {c : C} {r : R c} :
    Returns (ask c : Raising C R ε (R c)) h r ↔ h = [⟨c, r⟩] := by
  rw [Returns, run_ask, Prog.Follows.call_iff]
  constructor
  · rintro (⟨-, heq⟩ | ⟨r', h', rfl, hrest⟩)
    · cases heq
    · obtain ⟨rfl, heq⟩ := Prog.Follows.pure_iff.mp hrest
      obtain rfl : r = r' := Except.ok.inj (Prog.pure.inj heq)
      rfl
  · rintro rfl
    exact Or.inr ⟨r, [], rfl, .nil _⟩

/-- **A sequence returns through what its parts return.** -/
theorem returns_bind {x : Raising C R ε α} {f : α → Raising C R ε β} {b : β} :
    Returns (x >>= f) h b ↔ ∃ a h₁ h₂, h = h₁ ++ h₂ ∧ Returns x h₁ a ∧ Returns (f a) h₂ b := by
  rw [Returns, run_bind, Prog.Follows.bind_pure]
  constructor
  · rintro ⟨r, h₁, h₂, rfl, hx, hf⟩
    cases r with
    | ok a => exact ⟨a, h₁, h₂, rfl, hx, hf⟩
    | error e =>
      obtain ⟨-, heq⟩ := Prog.Follows.pure_iff.mp hf
      cases heq
  · rintro ⟨a, h₁, h₂, rfl, hx, hf⟩
    exact ⟨.ok a, h₁, h₂, rfl, hx, hf⟩

theorem returns_check_bind {x : Except ε α} {f : α → Raising C R ε β} {b : β} :
    Returns (check x >>= f) h b ↔ ∃ a, x = .ok a ∧ Returns (f a) h b := by
  rw [returns_bind]
  constructor
  · rintro ⟨a, h₁, h₂, rfl, hx, hf⟩
    obtain ⟨rfl, hok⟩ := returns_check.mp hx
    exact ⟨a, hok, hf⟩
  · rintro ⟨a, hx, hf⟩
    exact ⟨a, [], h, rfl, returns_check.mpr ⟨rfl, hx⟩, hf⟩

theorem returns_ask_bind {c : C} {f : R c → Raising C R ε β} {b : β} :
    Returns (ask c >>= f) h b ↔ ∃ r h', h = ⟨c, r⟩ :: h' ∧ Returns (f r) h' b := by
  rw [returns_bind]
  constructor
  · rintro ⟨r, h₁, h₂, rfl, hx, hf⟩
    obtain rfl := returns_ask.mp hx
    exact ⟨r, h₂, rfl, hf⟩
  · rintro ⟨r, h', rfl, hf⟩
    exact ⟨r, [⟨c, r⟩], h', rfl, returns_ask.mpr rfl, hf⟩

/-! ## What it may touch -/

variable {P : C → Prop}

theorem only_pure (a : α) : (pure a : Raising C R ε α).run.Only P := trivial

theorem only_check (x : Except ε α) : (check x : Raising C R ε α).run.Only P := by
  rw [run_check]
  trivial

theorem only_ask {c : C} (h : P c) : (ask c : Raising C R ε (R c)).run.Only P :=
  ⟨h, fun _ => trivial⟩

theorem only_bind {x : Raising C R ε α} {f : α → Raising C R ε β} (hx : x.run.Only P)
    (hf : ∀ a, (f a).run.Only P) : (x >>= f).run.Only P := by
  rw [run_bind]
  refine hx.bind fun r => ?_
  cases r with
  | ok a => exact hf a
  | error e => trivial

theorem only_check_bind {x : Except ε α} {f : α → Raising C R ε β}
    (hf : ∀ a, x = .ok a → (f a).run.Only P) : (check x >>= f).run.Only P := by
  rw [run_bind, run_check]
  cases x with
  | ok a => exact hf a rfl
  | error e => trivial

end Raising

end Lib
end CampusID
