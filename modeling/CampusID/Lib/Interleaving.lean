import CampusID.Lib.AtomicPrograms
import CampusID.Lib.Runs

/-!
# Interleaved programs over one store

A pool holds any number of threads over one shared store and one clock.  A thread
is a request, the program it has still to run, and the commands it has executed so
far, each with the instant and the reply.  Three moves change a pool: the clock
advances, a thread is started, and one thread executes its next command.  Commands
are atomic; nothing else is.

What the commands did is read off the histories, so statements about concurrency
are statements about which replies stand in which histories.  Two facts make that
work.

* `Coherent` --- every history is one its request's program can have.  It holds of
  every reachable pool, and it turns "this thread is about to issue that command"
  into "it has seen exactly these replies".
* `step_invariant` --- an invariant of pools has three cases, and the interesting
  one is a single command executed by a single thread.
-/

namespace CampusID
namespace Lib

/-- A thread: what it was asked, what it did and when, and what is left to do. -/
structure Thread (C : Type) (R : C → Type) (Q α T : Type) where
  request : Q
  history : List (T × Σ c, R c)
  rest : Prog C R α

namespace Thread

variable {C : Type} {R : C → Type} {Q α T : Type}

/-- The commands executed and their replies, without the instants. -/
def replies (th : Thread C R Q α T) : List (Σ c, R c) := th.history.map Prod.snd

/-- The thread executed this command and was answered so. -/
def Saw (th : Thread C R Q α T) (c : C) (r : R c) : Prop := ⟨c, r⟩ ∈ th.replies

/-- The thread after one more command. -/
def advance (th : Thread C R Q α T) (now : T) (c : C) (r : R c) (rest : Prog C R α) :
    Thread C R Q α T :=
  ⟨th.request, th.history ++ [(now, ⟨c, r⟩)], rest⟩

@[simp] theorem advance_request (th : Thread C R Q α T) (now : T) (c : C) (r : R c)
    (rest : Prog C R α) : (th.advance now c r rest).request = th.request := rfl

@[simp] theorem advance_rest (th : Thread C R Q α T) (now : T) (c : C) (r : R c)
    (rest : Prog C R α) : (th.advance now c r rest).rest = rest := rfl

@[simp] theorem advance_history (th : Thread C R Q α T) (now : T) (c : C) (r : R c)
    (rest : Prog C R α) :
    (th.advance now c r rest).history = th.history ++ [(now, ⟨c, r⟩)] := rfl

@[simp] theorem advance_replies (th : Thread C R Q α T) (now : T) (c : C) (r : R c)
    (rest : Prog C R α) :
    (th.advance now c r rest).replies = th.replies ++ [⟨c, r⟩] := by
  simp [replies]

theorem saw_advance {th : Thread C R Q α T} {now : T} {c c' : C} {r : R c} {r' : R c'}
    {rest : Prog C R α} :
    (th.advance now c r rest).Saw c' r' ↔ th.Saw c' r' ∨ (⟨c', r'⟩ : Σ c, R c) = ⟨c, r⟩ := by
  simp [Saw]

end Thread

/-- A pool of threads over one store and one clock. -/
structure Pool (C : Type) (R : C → Type) (Q α T σ : Type) where
  store : σ
  now : T
  threads : List (Thread C R Q α T)

/-- What can happen to a pool next. -/
inductive Move (Q T : Type) where
  | tick (elapsed : T)
  | spawn (request : Q)
  | advance (i : Nat)

namespace Pool

variable {C : Type} {R : C → Type} {Q α T σ : Type}

/-- Thread `i` of the pool is `th`. -/
abbrev At (p : Pool C R Q α T σ) (i : Nat) (th : Thread C R Q α T) : Prop :=
  p.threads[i]? = some th

/-- The command thread `i` executes next. -/
def next (p : Pool C R Q α T σ) (i : Nat) : Option C :=
  match p.threads[i]? with
  | some ⟨_, _, .call c _⟩ => some c
  | _ => none

section Steps

variable (exec : T → (c : C) → σ → R c × σ) (program : Q → Prog C R α)

/-- Thread `i` executes the command `c` and continues with `k`. -/
def fire (p : Pool C R Q α T σ) (i : Nat) (th : Thread C R Q α T) (c : C)
    (k : R c → Prog C R α) : Pool C R Q α T σ where
  store := (exec p.now c p.store).2
  now := p.now
  threads := p.threads.set i
    (th.advance p.now c (exec p.now c p.store).1 (k (exec p.now c p.store).1))

variable [Add T]

/-- One move. -/
def step (p : Pool C R Q α T σ) : Move Q T → Pool C R Q α T σ
  | .tick elapsed => { p with now := p.now + elapsed }
  | .spawn q => { p with threads := p.threads ++ [⟨q, [], program q⟩] }
  | .advance i =>
    match p.threads[i]? with
    | some ⟨q, h, .call c k⟩ => p.fire exec i ⟨q, h, .call c k⟩ c k
    | _ => p

/-- **An invariant of pools is kept in three cases**: the clock, a new thread, and one
command of one thread. -/
theorem step_invariant {I : Pool C R Q α T σ → Prop}
    {A : Pool C R Q α T σ → Move Q T → Prop}
    (tick : ∀ p d, I p → A p (.tick d) → I { p with now := p.now + d })
    (spawn : ∀ p q, I p → A p (.spawn q) →
      I { p with threads := p.threads ++ [⟨q, [], program q⟩] })
    (command : ∀ p i th c k, I p → A p (.advance i) → p.At i th →
      th.rest = .call c k → I (p.fire exec i th c k))
    (p : Pool C R Q α T σ) (mv : Move Q T) (hp : I p) (ha : A p mv) :
    I (p.step exec program mv) := by
  cases mv with
  | tick d => exact tick p d hp ha
  | spawn q => exact spawn p q hp ha
  | advance i =>
    simp only [step]
    split
    · rename_i q h c k heq
      exact command p i ⟨q, h, .call c k⟩ c k hp ha heq rfl
    · exact hp

end Steps

/-! ## The threads after a move -/

variable {exec : T → (c : C) → σ → R c × σ} {program : Q → Prog C R α}

/-- A thread after a command is the one that executed it, or one that was there. -/
theorem fire_threads {p : Pool C R Q α T σ} {i : Nat} {th : Thread C R Q α T} {c : C}
    {k : R c → Prog C R α} (hi : p.At i th) {j : Nat} {th' : Thread C R Q α T} :
    (p.fire exec i th c k).At j th' ↔
      (j = i ∧ th' = th.advance p.now c (exec p.now c p.store).1 (k (exec p.now c p.store).1)) ∨
        (j ≠ i ∧ p.At j th') := by
  obtain ⟨hlt, -⟩ := List.getElem?_eq_some_iff.mp hi
  unfold At fire
  rw [List.getElem?_set]
  by_cases hj : i = j
  · subst hj
    simp [hlt, eq_comm]
  · simp [hj, Ne.symm hj]

/-- A thread after a start is the new one, or one that was there. -/
theorem spawn_threads {ts : List (Thread C R Q α T)} {th th' : Thread C R Q α T} {j : Nat}
    (h : (ts ++ [th])[j]? = some th') :
    ts[j]? = some th' ∨ (j = ts.length ∧ th' = th) := by
  rcases Nat.lt_or_ge j ts.length with hj | hj
  · rw [List.getElem?_append_left hj] at h
    exact Or.inl h
  · rw [List.getElem?_append_right hj] at h
    obtain ⟨hlt, hth⟩ := List.getElem?_eq_some_iff.mp h
    simp only [List.length_cons, List.length_nil] at hlt
    refine Or.inr ⟨by omega, ?_⟩
    have h0 : j - ts.length = 0 := by omega
    simpa [h0] using hth.symm

theorem next_eq {p : Pool C R Q α T σ} {i : Nat} {th : Thread C R Q α T} {c : C}
    {k : R c → Prog C R α} (hi : p.At i th) (hr : th.rest = .call c k) : p.next i = some c := by
  obtain ⟨q, h, rest⟩ := th
  obtain rfl : rest = .call c k := hr
  simp [next, hi]

theorem next_eq_some {p : Pool C R Q α T σ} {i : Nat} {c : C} :
    p.next i = some c ↔ ∃ th k, p.At i th ∧ th.rest = .call c k := by
  constructor
  · intro h
    unfold next at h
    split at h
    · rename_i q hist c' k heq
      obtain rfl := Option.some.inj h
      exact ⟨_, k, heq, rfl⟩
    · cases h
  · rintro ⟨th, k, hi, hr⟩
    exact next_eq hi hr

theorem next_fire {p : Pool C R Q α T σ} {i : Nat} {th : Thread C R Q α T} {c : C}
    {k : R c → Prog C R α} (hi : p.At i th) {j : Nat} {c' : C} :
    (p.fire exec i th c k).next j = some c' ↔
      (j = i ∧ ∃ k', k (exec p.now c p.store).1 = .call c' k') ∨ (j ≠ i ∧ p.next j = some c') := by
  simp only [next_eq_some, fire_threads hi]
  constructor
  · rintro ⟨th', k', ⟨rfl, rfl⟩ | ⟨hne, hj⟩, hr⟩
    · exact .inl ⟨rfl, k', hr⟩
    · exact .inr ⟨hne, th', k', hj, hr⟩
  · rintro (⟨rfl, k', hr⟩ | ⟨hne, th', k', hj, hr⟩)
    · exact ⟨_, k', .inl ⟨rfl, rfl⟩, hr⟩
    · exact ⟨th', k', .inr ⟨hne, hj⟩, hr⟩

theorem next_spawn {p : Pool C R Q α T σ} {th : Thread C R Q α T} {j : Nat} {c : C}
    (h : next { p with threads := p.threads ++ [th] } j = some c) :
    p.next j = some c ∨ ∃ k, th.rest = .call c k := by
  obtain ⟨th', k, hj, hr⟩ := next_eq_some.mp h
  rcases spawn_threads hj with hj | ⟨-, rfl⟩
  · exact .inl (next_eq_some.mpr ⟨th', k, hj, hr⟩)
  · exact .inr ⟨k, hr⟩

theorem spawn_keeps {p : Pool C R Q α T σ} {i : Nat} {th : Thread C R Q α T} (hi : p.At i th)
    (th' : Thread C R Q α T) : At { p with threads := p.threads ++ [th'] } i th := by
  obtain ⟨hlt, -⟩ := List.getElem?_eq_some_iff.mp hi
  exact (List.getElem?_append_left hlt).trans hi

variable (exec) in
/-- **Threads only learn**: after a command every thread still has its request and
everything it saw. -/
theorem fire_keeps {p : Pool C R Q α T σ} {i : Nat} {th : Thread C R Q α T} {c : C}
    {k : R c → Prog C R α} (hi : p.At i th) {j : Nat} {th₀ : Thread C R Q α T}
    (hj : p.At j th₀) :
    ∃ th', (p.fire exec i th c k).At j th' ∧ th'.request = th₀.request ∧
      ∀ c' r, th₀.Saw c' r → th'.Saw c' r := by
  by_cases hij : j = i
  · subst hij
    obtain rfl : th₀ = th := Option.some.inj (hj.symm.trans hi)
    refine ⟨_, (fire_threads hi).mpr (Or.inl ⟨rfl, rfl⟩), rfl, fun c' r hs => ?_⟩
    exact Thread.saw_advance.mpr (Or.inl hs)
  · exact ⟨th₀, (fire_threads hi).mpr (Or.inr ⟨hij, hj⟩), rfl, fun _ _ hs => hs⟩

/-- How many threads satisfy a predicate after a command: the thread that executed it counts
anew. -/
theorem countP_fire {p : Pool C R Q α T σ} {i : Nat} {th : Thread C R Q α T} {c : C}
    {k : R c → Prog C R α} (hi : p.At i th) (q : Thread C R Q α T → Bool) :
    (p.fire exec i th c k).threads.countP q + (if q th then 1 else 0) =
      p.threads.countP q +
        if q (th.advance p.now c (exec p.now c p.store).1 (k (exec p.now c p.store).1)) then 1
        else 0 := by
  obtain ⟨hlt, hget⟩ := List.getElem?_eq_some_iff.mp hi
  unfold fire
  rw [List.countP_set hlt, hget]
  have hle : (if q th then 1 else 0) ≤ p.threads.countP q := by
    split_ifs with hq
    · exact List.countP_pos_iff.mpr ⟨th, List.mem_of_getElem? hi, hq⟩
    · exact Nat.zero_le _
  omega

variable (exec) in
theorem fire_recalls {p : Pool C R Q α T σ} {i : Nat} {th : Thread C R Q α T} {c : C}
    {k : R c → Prog C R α} (hi : p.At i th) {j : Nat} {th₀ : Thread C R Q α T}
    (hj : p.At j th₀) :
    ∃ th', (p.fire exec i th c k).At j th' ∧ th'.request = th₀.request ∧
      ∀ e ∈ th₀.history, e ∈ th'.history := by
  by_cases hij : j = i
  · subst hij
    obtain rfl : th₀ = th := Option.some.inj (hj.symm.trans hi)
    exact ⟨_, (fire_threads hi).mpr (Or.inl ⟨rfl, rfl⟩), rfl, fun e => List.mem_append_left _⟩
  · exact ⟨th₀, (fire_threads hi).mpr (Or.inr ⟨hij, hj⟩), rfl, fun _ => id⟩

/-- **An event seen once is seen once.**  If at most one thread has seen an event, and
none has when a command produces it, then at most one has seen it afterwards. -/
theorem fire_saw_unique {p : Pool C R Q α T σ} {i : Nat} {th : Thread C R Q α T} {c : C}
    {k : R c → Prog C R α} (hi : p.At i th) {c' : C} {r' : R c'}
    (old : ∀ j j' th₁ th₂, p.At j th₁ → p.At j' th₂ → th₁.Saw c' r' → th₂.Saw c' r' → j = j')
    (new : (⟨c', r'⟩ : Σ c, R c) = ⟨c, (exec p.now c p.store).1⟩ →
      ∀ j th₁, p.At j th₁ → ¬ th₁.Saw c' r')
    (j j' : Nat) (th₁ th₂ : Thread C R Q α T) (hj : (p.fire exec i th c k).At j th₁)
    (hj' : (p.fire exec i th c k).At j' th₂) (h₁ : th₁.Saw c' r') (h₂ : th₂.Saw c' r') :
    j = j' := by
  rcases (fire_threads hi).mp hj with ⟨rfl, rfl⟩ | ⟨-, hold⟩
  · rcases (fire_threads hi).mp hj' with ⟨rfl, rfl⟩ | ⟨-, hold'⟩
    · rfl
    · rcases Thread.saw_advance.mp h₁ with h₁ | he
      · exact old _ _ _ _ hi hold' h₁ h₂
      · exact absurd h₂ (new he _ _ hold')
  · rcases (fire_threads hi).mp hj' with ⟨rfl, rfl⟩ | ⟨-, hold'⟩
    · rcases Thread.saw_advance.mp h₂ with h₂ | he
      · exact old _ _ _ _ hold hi h₁ h₂
      · exact absurd h₁ (new he _ _ hold)
    · exact old _ _ _ _ hold hold' h₁ h₂

/-! ## Coherence -/

variable (program) in
/-- Every thread is where its own replies put it. -/
def Coherent (p : Pool C R Q α T σ) : Prop :=
  ∀ i th, p.At i th → Prog.Follows (program th.request) th.replies th.rest

theorem coherent_tick {p : Pool C R Q α T σ} (h : p.Coherent program) (now : T) :
    Coherent program { p with now := now } := h

theorem coherent_spawn {p : Pool C R Q α T σ} (h : p.Coherent program) (q : Q) :
    Coherent program { p with threads := p.threads ++ [⟨q, [], program q⟩] } := by
  intro i th hi
  rcases spawn_threads hi with hi | ⟨-, rfl⟩
  · exact h i th hi
  · exact .nil _

theorem coherent_fire {p : Pool C R Q α T σ} (h : p.Coherent program) {i : Nat}
    {th : Thread C R Q α T} {c : C} {k : R c → Prog C R α} (hi : p.At i th)
    (hr : th.rest = .call c k) : (p.fire exec i th c k).Coherent program := by
  intro j th' hj
  rcases (fire_threads hi).mp hj with ⟨rfl, rfl⟩ | ⟨-, hj⟩
  · rw [Thread.advance_request, Thread.advance_replies, Thread.advance_rest]
    exact Prog.Follows.snoc (hr ▸ h _ th hi) _
  · exact h j th' hj

/-- Every move keeps every thread where its replies put it. -/
theorem coherent_step [Add T] {p : Pool C R Q α T σ} (h : p.Coherent program) (mv : Move Q T) :
    (p.step exec program mv).Coherent program :=
  step_invariant (I := Coherent program) (A := fun _ _ => True) exec program
    (fun _ _ hp _ => coherent_tick hp _) (fun _ q hp _ => coherent_spawn hp q)
    (fun _ _ _ _ _ hp _ hi hr => coherent_fire hp hi hr) p mv h trivial

end Pool

end Lib
end CampusID
