import CampusID.Authz.Remembered

/-!
# When does an invalidation take effect?

A call that begins after `invalidate` has returned reads the new epoch, and what it finds was
remembered under that epoch.  It need not have been evaluated in that epoch (`stale_decision`):
the epoch is read again when a decision is remembered, and an increment may have come in between.
-/

namespace CampusID
namespace Authz

open Lib

/-- The pool some moves lead to. -/
def Decider.after (d : Decider) (moves : List (Move CacheCall Int)) : CachePool :=
  moves.foldl d.step noCalls

/-- The evaluation was made before the invalidation of its person that found the epoch `epoch`. -/
def Evaluation.Before (epoch : Nat) (evaluation : Evaluation) : Prop :=
  evaluation.invalidations ≤ epoch

instance (epoch : Nat) (evaluation : Evaluation) : Decidable (evaluation.Before epoch) :=
  inferInstanceAs (Decidable (_ ≤ _))

/-- **The invalidation takes effect at once.**  It is the step between the moves `before` and the
moves `later`: no call about the person that starts later returns a decision of the cache that was
evaluated before. -/
def TakesEffect (d : Decider) (before later : List (Move CacheCall Int)) (i : Nat)
    (person : String) : Prop :=
  ∀ j th request evaluation, (d.after before).threads.length ≤ j →
    (d.after (before ++ .advance i :: later)).At j th → th.request = .decide request →
      request.subject.personUuid = some person →
        th.rest.head = .inr (.decided evaluation true) →
          ¬ evaluation.Before ((d.after before).store.epochs person)

section Run

variable {d : Decider} {asked : Request → Prop} {inTime : Prop} {who : String} {p : CachePool}
  {least i : Nat}

theorem Remembers.rebase (hp : Remembers d asked inTime who 0 0 p)
    (hfloor : least ≤ p.store.epochs who) :
    Remembers d asked inTime who p.threads.length least p := by
  refine ⟨hfloor, hp.asks, hp.entries, fun j th hj => ?_⟩
  obtain ⟨hlt, -⟩ := List.getElem?_eq_some_iff.mp hj
  have hpoint := hp.threads j th hj
  rw [if_pos (Nat.zero_le j)] at hpoint
  rwa [if_neg (Nat.not_le.mpr hlt)]

theorem step_increment (hnext : p.next i = some (.increment who)) :
    (d.step p (.advance i)).store.epochs who = p.store.epochs who + 1 ∧
      (d.step p (.advance i)).threads.length = p.threads.length := by
  obtain ⟨⟨call, history, rest⟩, k, hi, hr⟩ := Pool.next_eq_some.mp hnext
  obtain rfl : rest = .call (.increment who) k := hr
  have hstep : d.step p (.advance i) = p.fire (Memory.exec d.rules) i
      ⟨call, history, .call (.increment who) k⟩ (.increment who) k := by
    unfold Decider.step Pool.step
    dsimp only
    rw [hi]
  rw [hstep]
  refine ⟨?_, List.length_set⟩
  exact Function.update_self who (p.store.epochs who + 1) p.store.epochs

/-- **An invalidation takes effect at once** where no person is invalidated in the gap between an
evaluation and the epoch it is remembered under. -/
theorem effective_at_once (d : Decider) (before later : List (Move CacheCall Int)) (i : Nat)
    (person : String)
    (hrun : Run (fun p mv => Distinct d p mv ∧ Clear p mv) d.step noCalls
      (before ++ .advance i :: later) (d.after (before ++ .advance i :: later)))
    (hnext : (d.after before).next i = some (.increment person)) :
    TakesEffect d before later i person := by
  have hallowed : Run (Allowed d (fun _ => True) True) d.step noCalls (before ++ .advance i :: later)
      (d.after (before ++ .advance i :: later)) :=
    hrun.mono fun _ mv h => ⟨h.1, fun _ => h.2, asks_all mv⟩
  obtain ⟨p, hbefore, hlater⟩ := Run.append_iff.mp hallowed
  obtain rfl : p = d.after before := hbefore.eq_foldl
  obtain ⟨ha, hrest⟩ := Run.cons_iff.mp hlater
  obtain ⟨hepoch, hlength⟩ := step_increment (d := d) hnext
  have hkept := ((Remembers.noCalls d _ True person).run hbefore).step ha
  have hrebased := (hkept.rebase hepoch.ge).run hrest
  intro j th request evaluation hj hth hcall hperson hhead hold
  rw [hlength] at hrebased
  obtain ⟨request', person', epoch, hcall', hperson', -, hleast⟩ :=
    (hrebased.threads j th hth).of_cached hhead
  rw [hcall] at hcall'
  cases hcall'
  obtain rfl : person = person' := Option.some.inj (hperson.symm.trans hperson')
  have hnew := hleast trivial rfl
  rw [if_pos hj] at hnew
  exact absurd hold (Nat.not_le.mpr hnew)

end Run

/-! ### An increment in the gap -/

/-- Sam, with what a session of theirs says. -/
def sam (entitlements : Finset String) : Request where
  subject := { personUuid := some "sam", entitlements := entitlements }
  resource := { id := "lms:grades" }
  action := "read"

/-- The first 32 characters of a text. -/
def sampleDigest (text : String) : String :=
  String.ofList ((text.toList ++ List.replicate 32 ' ').take 32)

/-- Instructors may do anything. -/
def instructors : Decider where
  rules := [{ id := "instructors", effect := .permit, entitlements := {"instructor"} }]
  digest := sampleDigest
  digest_length material := by simp [sampleDigest]

/-- Sam is an instructor and asks. -/
def asked : List (Move CacheCall Int) :=
  [.spawn (.decide (sam {"instructor"})), .advance 0, .advance 0, .advance 0,
    .spawn (.invalidate "sam")]

/-- Sam is none any more and asks. -/
def askedAgain (j : Nat) : List (Move CacheCall Int) :=
  [.spawn (.decide (sam ∅)), .advance j, .advance j]

/-- Sam's first question is settled, Sam is invalidated, and asks twice. -/
theorem effective_at_once_settled :
    TakesEffect instructors (asked ++ [.advance 0, .advance 0])
      (askedAgain 2 ++ [.advance 2, .advance 2, .advance 2] ++ askedAgain 3) 1 "sam" :=
  effective_at_once instructors _ _ 1 "sam" (Run.of_admits (by decide +kernel))
    (by decide +kernel)

/-- **A permit survives its invalidation**: Sam is invalidated while the first question is in the
gap. -/
theorem stale_decision : ¬ ∀ (d : Decider) (before later : List (Move CacheCall Int)) (i : Nat)
    (person : String), Run (Distinct d) d.step noCalls (before ++ .advance i :: later)
      (d.after (before ++ .advance i :: later)) →
    (d.after before).next i = some (.increment person) → TakesEffect d before later i person := by
  intro h
  have heffect := h instructors asked ([.advance 0, .advance 0] ++ askedAgain 2) 1 "sam"
    (Run.of_admits (by decide +kernel)) (by decide +kernel)
  refine heffect 2 _ (sam ∅) ⟨instructors.rules.decide (sam {"instructor"}), sam {"instructor"}, 0⟩
    (by decide +kernel) rfl rfl rfl rfl (by decide +kernel)

end Authz
end CampusID
