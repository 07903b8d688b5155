import Mathlib.Logic.Function.Basic
import Mathlib.Data.List.Basic

/-!
# Programs over atomic commands

A program that talks to a shared store is a tree: it either returns a value, or
issues one command and continues with the reply.  Nothing in the tree says when
the next command runs, so the same program has two readings.

* Sequentially: `run` executes the commands one after another, and `trace` lists
  them with their replies.
* Interleaved: other programs may run between any two commands.  That reading is
  `Lib.Interleaving`; what it needs from here is `Follows`, which says which
  program is left after a given history of replies.

The commands and their replies are parameters: a command type `C`, a reply type
`R c` for each command, and an execution function on the store.  `Only` restricts
the commands a program may ever issue, and `run_preserves` is the frame rule that
goes with it: what no permitted command disturbs, the program does not disturb.
-/

namespace CampusID
namespace Lib

/-- A program over the commands `C`, whose command `c` is answered by an `R c`. -/
inductive Prog (C : Type) (R : C → Type) (α : Type) : Type where
  | pure (a : α) : Prog C R α
  | call (c : C) (k : R c → Prog C R α) : Prog C R α

namespace Prog

variable {C : Type} {R : C → Type} {α β σ : Type}

/-- Run one program, then the program its result selects. -/
def bind : Prog C R α → (α → Prog C R β) → Prog C R β
  | .pure a, f => f a
  | .call c k, f => .call c fun r => (k r).bind f

instance : Monad (Prog C R) where
  pure := .pure
  bind := bind

@[simp] theorem pure_def (a : α) : (Pure.pure a : Prog C R α) = .pure a := rfl

@[simp] theorem bind_def (p : Prog C R α) (f : α → Prog C R β) : p >>= f = p.bind f := rfl

@[simp] theorem pure_bind (a : α) (f : α → Prog C R β) : (Prog.pure a).bind f = f a := rfl

@[simp] theorem call_bind (c : C) (k : R c → Prog C R α) (f : α → Prog C R β) :
    (Prog.call c k).bind f = .call c fun r => (k r).bind f := rfl

/-- One command on its own. -/
def send (c : C) : Prog C R (R c) := .call c .pure

/-- Run `f` on every element of a list, in order. -/
def forEach (f : β → Prog C R Unit) : List β → Prog C R Unit
  | [] => .pure ()
  | b :: bs => (f b).bind fun _ => forEach f bs

/-! ## The sequential reading -/

section Sequential

variable (exec : (c : C) → σ → R c × σ)

/-- Execute a program to its end. -/
def run : Prog C R α → σ → α × σ
  | .pure a, s => (a, s)
  | .call c k, s => run (k (exec c s).1) (exec c s).2

/-- The commands a program executes, in order, each with its reply. -/
def trace : Prog C R α → σ → List (Σ c, R c)
  | .pure _, _ => []
  | .call c k, s => ⟨c, (exec c s).1⟩ :: trace (k (exec c s).1) (exec c s).2

/-- The program executes the command `c` when run from `s`. -/
def Issues (p : Prog C R α) (s : σ) (c : C) : Prop := c ∈ (trace exec p s).map Sigma.fst

@[simp] theorem run_pure (a : α) (s : σ) : run exec (.pure a : Prog C R α) s = (a, s) := rfl

@[simp] theorem run_call (c : C) (k : R c → Prog C R α) (s : σ) :
    run exec (.call c k) s = run exec (k (exec c s).1) (exec c s).2 := rfl

@[simp] theorem run_send (c : C) (s : σ) : run exec (send c : Prog C R (R c)) s = exec c s := rfl

@[simp] theorem run_bind (p : Prog C R α) (f : α → Prog C R β) (s : σ) :
    run exec (p.bind f) s = run exec (f (run exec p s).1) (run exec p s).2 := by
  induction p generalizing s with
  | pure a => rfl
  | call c k ih => exact ih _ _

@[simp] theorem issues_pure (a : α) (s : σ) (c : C) :
    ¬ Issues exec (.pure a : Prog C R α) s c := by
  simp [Issues, trace]

@[simp] theorem issues_call (c : C) (k : R c → Prog C R α) (s : σ) (c' : C) :
    Issues exec (.call c k) s c' ↔
      c' = c ∨ Issues exec (k (exec c s).1) (exec c s).2 c' := by
  simp [Issues, trace]

@[simp] theorem issues_send (c : C) (s : σ) (c' : C) :
    Issues exec (send c : Prog C R (R c)) s c' ↔ c' = c := by
  simp [send]

@[simp] theorem issues_bind (p : Prog C R α) (f : α → Prog C R β) (s : σ) (c : C) :
    Issues exec (p.bind f) s c ↔
      Issues exec p s c ∨ Issues exec (f (run exec p s).1) (run exec p s).2 c := by
  induction p generalizing s with
  | pure a => simp
  | call c' k ih => simp [ih, or_assoc]

end Sequential

/-! ## What a program may touch -/

/-- Every command the program can ever issue, whatever the replies, satisfies
`P`. -/
def Only (P : C → Prop) : Prog C R α → Prop
  | .pure _ => True
  | .call c k => P c ∧ ∀ r, Only P (k r)

@[simp] theorem only_pure (P : C → Prop) (a : α) : Only P (.pure a : Prog C R α) := trivial

@[simp] theorem only_call (P : C → Prop) (c : C) (k : R c → Prog C R α) :
    Only P (.call c k) ↔ P c ∧ ∀ r, Only P (k r) := Iff.rfl

@[simp] theorem only_send (P : C → Prop) (c : C) : Only P (send c : Prog C R (R c)) ↔ P c := by
  simp [send]

theorem Only.bind {P : C → Prop} {p : Prog C R α} {f : α → Prog C R β} (hp : Only P p)
    (hf : ∀ a, Only P (f a)) : Only P (p.bind f) := by
  induction p with
  | pure a => exact hf a
  | call c k ih => exact ⟨hp.1, fun r => ih r (hp.2 r)⟩

/-- What may be touched may be bounded more generously. -/
theorem Only.mono {P Q : C → Prop} {p : Prog C R α} (hp : Only P p) (h : ∀ c, P c → Q c) :
    Only Q p := by
  induction p with
  | pure a => trivial
  | call c k ih => exact ⟨h c hp.1, fun r => ih r (hp.2 r)⟩

theorem Only.forEach {P : C → Prop} {f : β → Prog C R Unit} (hf : ∀ b, Only P (f b)) :
    ∀ bs : List β, Only P (Prog.forEach f bs)
  | [] => trivial
  | b :: bs => (hf b).bind fun _ => Only.forEach hf bs

/-- **The frame rule.**  A property of the store that no permitted command
disturbs survives the whole program. -/
theorem run_preserves {exec : (c : C) → σ → R c × σ} {P : C → Prop} {I : σ → Prop}
    (keep : ∀ c s, P c → I s → I (exec c s).2) {p : Prog C R α} (hp : Only P p) {s : σ}
    (hs : I s) : I (run exec p s).2 := by
  induction p generalizing s with
  | pure a => exact hs
  | call c k ih => exact ih _ (hp.2 _) (keep c s hp.1 hs)

/-! ## What a program is bound to do -/

/-- The program issues a command of `P` before it returns, whatever the replies. -/
def Surely (P : C → Prop) : Prog C R α → Prop
  | .pure _ => False
  | .call c k => P c ∨ ∀ r, Surely P (k r)

theorem Surely.bind_left {P : C → Prop} {p : Prog C R α} (hp : Surely P p)
    (f : α → Prog C R β) : Surely P (p.bind f) := by
  induction p with
  | pure a => exact hp.elim
  | call c k ih => exact hp.imp_right fun h r => ih r (h r)

theorem Surely.bind_right {P : C → Prop} (p : Prog C R α) {f : α → Prog C R β}
    (hf : ∀ a, Surely P (f a)) : Surely P (p.bind f) := by
  induction p with
  | pure a => exact hf a
  | call c k ih => exact Or.inr ih

theorem Surely.forEach {P : C → Prop} {f : β → Prog C R Unit} {b : β} (hf : Surely P (f b)) :
    ∀ {bs : List β}, b ∈ bs → Surely P (Prog.forEach f bs)
  | [], h => by cases h
  | b' :: bs, h => by
    rcases List.mem_cons.mp h with rfl | h
    · exact hf.bind_left _
    · exact .bind_right _ fun _ => Surely.forEach hf h

/-! ## Histories -/

/-- `Follows p h q`: after the replies in the history `h`, the program `p` has
become `q`. -/
inductive Follows : Prog C R α → List (Σ c, R c) → Prog C R α → Prop
  | nil (p : Prog C R α) : Follows p [] p
  | cons {c : C} {k : R c → Prog C R α} {r : R c} {h : List (Σ c, R c)} {q : Prog C R α}
      (rest : Follows (k r) h q) : Follows (.call c k) (⟨c, r⟩ :: h) q

namespace Follows

variable {p q : Prog C R α} {h : List (Σ c, R c)}

/-- One more reply lengthens the history at its end. -/
theorem snoc {c : C} {k : R c → Prog C R α} (hf : Follows p h (.call c k)) (r : R c) :
    Follows p (h ++ [⟨c, r⟩]) (k r) := by
  generalize hq : Prog.call c k = q at hf
  induction hf with
  | nil p =>
    subst hq
    exact .cons (.nil _)
  | cons _ ih => exact .cons (ih hq)

theorem pure_iff {a : α} : Follows (.pure a) h q ↔ h = [] ∧ q = .pure a := by
  constructor
  · intro hf
    cases hf
    exact ⟨rfl, rfl⟩
  · rintro ⟨rfl, rfl⟩
    exact .nil _

theorem call_iff {c : C} {k : R c → Prog C R α} :
    Follows (.call c k) h q ↔
      (h = [] ∧ q = .call c k) ∨ ∃ r h', h = ⟨c, r⟩ :: h' ∧ Follows (k r) h' q := by
  constructor
  · intro hf
    cases hf with
    | nil => exact Or.inl ⟨rfl, rfl⟩
    | cons rest => exact Or.inr ⟨_, _, rfl, rest⟩
  · rintro (⟨rfl, rfl⟩ | ⟨r, h', rfl, rest⟩)
    · exact .nil _
    · exact .cons rest

theorem of_run (exec : (c : C) → σ → R c × σ) (p : Prog C R α) (s : σ) :
    Follows p (p.trace exec s) (.pure (p.run exec s).1) := by
  induction p generalizing s with
  | pure a => exact .nil _
  | call c k ih => exact .cons (ih _ _)

/-- What a program may issue bounds what it has issued. -/
theorem only_history {P : C → Prop} (hf : Follows p h q) (hp : Only P p) :
    ∀ e ∈ h, P e.1 := by
  induction hf with
  | nil => simp
  | cons _ ih =>
    intro e he
    rcases List.mem_cons.mp he with rfl | he
    · exact hp.1
    · exact ih (hp.2 _) e he

/-- What a program may issue bounds what it will issue. -/
theorem only_rest {P : C → Prop} (hf : Follows p h q) (hp : Only P p) : Only P q := by
  induction hf with
  | nil => exact hp
  | cons _ ih => exact ih (hp.2 _)

/-- A program that wraps a result returns wrapped results only. -/
theorem returns_map {f : α → β} {b : β}
    (hf : Follows (p.bind fun a => .pure (f a)) h (.pure b)) : ∃ a, b = f a := by
  induction p generalizing h with
  | pure a =>
    obtain ⟨-, hb⟩ := pure_iff.mp hf
    exact ⟨a, Prog.pure.inj hb⟩
  | call c k ih =>
    rcases call_iff.mp hf with ⟨-, hb⟩ | ⟨r, h', -, hf'⟩
    · cases hb
    · exact ih r hf'

end Follows

/-- Whatever the replies, the program returns a value of `P` only. -/
def Returns (P : α → Prop) : Prog C R α → Prop
  | .pure a => P a
  | .call _ k => ∀ r, Returns P (k r)

/-- What a program may return bounds what it has returned. -/
theorem Follows.returns {P : α → Prop} {p : Prog C R α} {h : List (Σ c, R c)} {a : α}
    (hf : Follows p h (.pure a)) (hp : Returns P p) : P a := by
  generalize hq : Prog.pure a = q at hf
  induction hf with
  | nil p =>
    subst hq
    exact hp
  | cons _ ih => exact ih (hp _) hq

/-- Whatever the replies, the program issues `n` commands at most. -/
def EndsIn : Nat → Prog C R α → Prop
  | _, .pure _ => True
  | 0, .call _ _ => False
  | n + 1, .call _ k => ∀ r, EndsIn n (k r)

/-- A program that has issued as many commands as it can has returned. -/
theorem Follows.returned {p q : Prog C R α} {h : List (Σ c, R c)} {n : Nat} (hf : Follows p h q)
    (hp : EndsIn n p) (hn : n ≤ h.length) : ∃ a, q = .pure a := by
  induction hf generalizing n with
  | nil p =>
    obtain rfl : n = 0 := Nat.le_zero.mp hn
    cases p with
    | pure a => exact ⟨a, rfl⟩
    | call c k => exact hp.elim
  | cons _ ih =>
    cases n with
    | zero => exact hp.elim
    | succ n => exact ih (hp _) (Nat.le_of_succ_le_succ hn)

/-- Where a program stands: the command it issues next, or the value it returned. -/
def head : Prog C R α → C ⊕ α
  | .pure a => .inr a
  | .call c _ => .inl c

@[simp] theorem head_pure (a : α) : (Prog.pure a : Prog C R α).head = .inr a := rfl

@[simp] theorem head_call (c : C) (k : R c → Prog C R α) : (Prog.call c k).head = .inl c := rfl

end Prog

end Lib
end CampusID
