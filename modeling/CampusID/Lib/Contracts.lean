import CampusID.Lib.Interleaving

/-!
# Contracts of programs

A program keeps a contract when it sends only the commands it may send, as long as it is answered
as it may be answered, and ends only with what it may end with.  A store keeps its side when it
answers like this and stays good.  Programs that keep their contracts can be interleaved over such a
store, and nothing goes wrong (`Lawful.fire`).

One program under one contract cannot tell two stores apart that answer it alike
(`Obeys.run_eq`).
-/

namespace CampusID
namespace Lib

namespace Prog

variable {C : Type} {R : C → Type} {α β σ : Type} {Sends Sends' : C → Prop}
  {Answers Answers' : (c : C) → R c → Prop} {Ends Ends' : α → Prop}

/-- The program sends only what `Sends` permits, while it is answered as `Answers` says, and then
ends with what `Ends` permits. -/
def Obeys (Sends : C → Prop) (Answers : (c : C) → R c → Prop) (Ends : α → Prop) :
    Prog C R α → Prop
  | .pure a => Ends a
  | .call c k => Sends c ∧ ∀ r, Answers c r → Obeys Sends Answers Ends (k r)

@[simp] theorem obeys_pure (a : α) :
    Obeys Sends Answers Ends (.pure a : Prog C R α) ↔ Ends a := Iff.rfl

@[simp] theorem obeys_call (c : C) (k : R c → Prog C R α) : Obeys Sends Answers Ends (.call c k) ↔
    Sends c ∧ ∀ r, Answers c r → Obeys Sends Answers Ends (k r) := Iff.rfl

theorem Obeys.bind {p : Prog C R α} {f : α → Prog C R β} {Ends' : β → Prop}
    (hp : Obeys Sends Answers Ends p) (hf : ∀ a, Ends a → Obeys Sends Answers Ends' (f a)) :
    Obeys Sends Answers Ends' (p.bind f) := by
  induction p with
  | pure a => exact hf a hp
  | call c k ih => exact ⟨hp.1, fun r hr => ih r (hp.2 r hr)⟩

/-- **Two stores that answer alike are not told apart.** -/
theorem Obeys.run_eq {exec : (c : C) → σ → R c × σ} {Alike : σ → σ → Prop} {p : Prog C R α}
    (hp : Obeys Sends Answers Ends p)
    (halike : ∀ c s s', Alike s s' → Sends c → (exec c s').1 = (exec c s).1 ∧
      Answers c (exec c s).1 ∧ Alike (exec c s).2 (exec c s').2)
    {s s' : σ} (h : Alike s s') : (p.run exec s').1 = (p.run exec s).1 := by
  induction p generalizing s s' with
  | pure a => rfl
  | call c k ih =>
    obtain ⟨hreply, hanswer, hafter⟩ := halike c s s' h hp.1
    rw [run_call, run_call, hreply]
    exact ih _ (hp.2 _ hanswer) hafter

end Prog

namespace Pool

variable {C : Type} {R : C → Type} {Q α T σ : Type}

/-- The store is good, and every thread has kept its contract and goes on to keep it. -/
structure Lawful (Good : σ → Prop) (Sends : Q → C → Prop) (Answers : (c : C) → R c → Prop)
    (Ends : Q → α → Prop) (p : Pool C R Q α T σ) : Prop where
  good : Good p.store
  sent : ∀ i th, p.At i th → ∀ e ∈ th.replies, Sends th.request e.1
  rest : ∀ i th, p.At i th → th.rest.Obeys (Sends th.request) Answers (Ends th.request)

variable {Good : σ → Prop} {Sends : Q → C → Prop} {Answers : (c : C) → R c → Prop}
  {Ends : Q → α → Prop} {p : Pool C R Q α T σ}

theorem Lawful.tick (hp : p.Lawful Good Sends Answers Ends) (now : T) :
    Lawful Good Sends Answers Ends { p with now := now } := ⟨hp.good, hp.sent, hp.rest⟩

theorem Lawful.spawn {program : Q → Prog C R α} (hp : p.Lawful Good Sends Answers Ends) {q : Q}
    (hq : (program q).Obeys (Sends q) Answers (Ends q)) :
    Lawful Good Sends Answers Ends { p with threads := p.threads ++ [⟨q, [], program q⟩] } := by
  refine ⟨hp.good, fun i th hi => ?_, fun i th hi => ?_⟩
  · rcases spawn_threads hi with hold | ⟨-, rfl⟩
    · exact hp.sent i th hold
    · intro e he
      cases he
  · rcases spawn_threads hi with hold | ⟨-, rfl⟩
    · exact hp.rest i th hold
    · exact hq

/-- **A command of one thread keeps every contract.** -/
theorem Lawful.fire {exec : T → (c : C) → σ → R c × σ} (hp : p.Lawful Good Sends Answers Ends)
    (hexec : ∀ q now c s, Good s → Sends q c →
      Answers c (exec now c s).1 ∧ Good (exec now c s).2)
    {i : Nat} {th : Thread C R Q α T} {c : C} {k : R c → Prog C R α} (hi : p.At i th)
    (hr : th.rest = .call c k) : (p.fire exec i th c k).Lawful Good Sends Answers Ends := by
  have hrest := hp.rest i th hi
  rw [hr] at hrest
  obtain ⟨hsends, hgo⟩ := hrest
  obtain ⟨hanswer, hgood⟩ := hexec th.request p.now c p.store hp.good hsends
  refine ⟨hgood, fun j th' hj => ?_, fun j th' hj => ?_⟩
  · rcases (fire_threads hi).mp hj with ⟨rfl, rfl⟩ | ⟨-, hold⟩
    · intro e he
      rw [Thread.advance_replies, List.mem_append, List.mem_singleton] at he
      rcases he with hold | rfl
      · exact hp.sent j th hi e hold
      · exact hsends
    · exact hp.sent j th' hold
  · rcases (fire_threads hi).mp hj with ⟨rfl, rfl⟩ | ⟨-, hold⟩
    · exact hgo _ hanswer
    · exact hp.rest j th' hold

end Pool

end Lib
end CampusID
