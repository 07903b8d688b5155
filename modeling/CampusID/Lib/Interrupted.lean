import CampusID.Lib.AtomicPrograms

/-!
# Programs that stop half way

A command may fail, and a process may stop between two commands.  To the store the two are the
same: some of the commands went through and the rest never came.  `upTo` runs a program for at
most a number of commands, and lists those that went through.
-/

namespace CampusID
namespace Lib
namespace Prog

variable {C : Type} {R : C → Type} {α σ : Type}

section Stopping

variable (exec : (c : C) → σ → R c × σ)

/-- The first `n` commands: those that went through, in order, and the store they leave. -/
def upTo : Nat → Prog C R α → σ → List C × σ
  | 0, _, s => ([], s)
  | _ + 1, .pure _, s => ([], s)
  | n + 1, .call c k, s =>
    let rest := upTo n (k (exec c s).1) (exec c s).2
    (c :: rest.1, rest.2)

@[simp] theorem upTo_zero (p : Prog C R α) (s : σ) : upTo exec 0 p s = ([], s) := rfl

@[simp] theorem upTo_pure (n : Nat) (a : α) (s : σ) :
    upTo exec n (.pure a : Prog C R α) s = ([], s) := by
  cases n <;> rfl

@[simp] theorem upTo_call (n : Nat) (c : C) (k : R c → Prog C R α) (s : σ) :
    upTo exec (n + 1) (.call c k) s = (c :: (upTo exec n (k (exec c s).1) (exec c s).2).1,
      (upTo exec n (k (exec c s).1) (exec c s).2).2) := rfl

end Stopping

end Prog
end Lib
end CampusID
