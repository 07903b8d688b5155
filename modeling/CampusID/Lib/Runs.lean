import Mathlib.Data.List.Induction

/-!
# Runs of a guarded step function

A system here is a step function on states together with a guard saying which
operations may be taken in which state.  A run is a list of operations, each
allowed in the state it is taken in.

What a development needs of runs is always the same few facts, and they are
stated once:

* `Run.invariant` --- what every allowed step keeps, every run keeps;
* `Run.append_iff` and `Run.cons_iff` --- a run can be cut at any operation;
* `Run.after` --- a property established by one operation and kept by every
  later one still holds wherever the run has got to;
* `Run.and_iff_forall_reached` --- when a side condition on the steps is exactly what a
  property of the states needs.

The guard is a parameter rather than a field of the operations because the same
step function is used under several guards: the operations a caller may issue,
and those operations restricted further by a side condition.
-/

namespace CampusID
namespace Lib

variable {S O : Type}

/-- `Run allowed step s os t`: the operations `os`, each allowed where it is
taken, lead from `s` to `t`. -/
inductive Run (allowed : S → O → Prop) (step : S → O → S) : S → List O → S → Prop
  | nil (s : S) : Run allowed step s [] s
  | cons {s t : S} {o : O} {os : List O} (h : allowed s o)
      (rest : Run allowed step (step s o) os t) : Run allowed step s (o :: os) t

namespace Run

variable {allowed : S → O → Prop} {step : S → O → S}

@[simp] theorem nil_iff {s t : S} : Run allowed step s [] t ↔ t = s := by
  constructor
  · intro h
    cases h
    rfl
  · rintro rfl
    exact .nil _

@[simp] theorem cons_iff {s t : S} {o : O} {os : List O} :
    Run allowed step s (o :: os) t ↔
      allowed s o ∧ Run allowed step (step s o) os t := by
  constructor
  · intro h
    cases h with
    | cons h rest => exact ⟨h, rest⟩
  · rintro ⟨h, rest⟩
    exact .cons h rest

theorem append_iff {s t : S} {os os' : List O} :
    Run allowed step s (os ++ os') t ↔
      ∃ m, Run allowed step s os m ∧ Run allowed step m os' t := by
  induction os generalizing s with
  | nil => simp
  | cons o os ih => simp [ih, and_assoc]

/-- **What every allowed step keeps, every run keeps.** -/
theorem invariant {I : S → Prop} (keep : ∀ s o, I s → allowed s o → I (step s o))
    {s t : S} {os : List O} (h : Run allowed step s os t) (hs : I s) : I t := by
  induction h with
  | nil => exact hs
  | cons ha _ ih => exact ih (keep _ _ hs ha)

/-- What every allowed step keeps holds before each step of a run. -/
theorem and_invariant {I : S → Prop} (keep : ∀ s o, I s → allowed s o → I (step s o))
    {s t : S} {os : List O} (h : Run allowed step s os t) (hs : I s) :
    Run (fun s o => allowed s o ∧ I s) step s os t := by
  induction h with
  | nil => exact .nil _
  | cons ha _ ih => exact .cons ⟨ha, hs⟩ (ih (keep _ _ hs ha))

/-- A run under a stronger guard is a run under a weaker one. -/
theorem mono {allowed' : S → O → Prop} (imp : ∀ s o, allowed s o → allowed' s o)
    {s t : S} {os : List O} (h : Run allowed step s os t) : Run allowed' step s os t := by
  induction h with
  | nil => exact .nil _
  | cons ha _ ih => exact .cons (imp _ _ ha) ih

/-- A run of operations that meet a further condition wherever they are taken. -/
theorem and_of_forall {allowed' : S → O → Prop} {s t : S} {os : List O}
    (h : Run allowed step s os t) (hall : ∀ o ∈ os, ∀ s, allowed' s o) :
    Run (fun s o => allowed s o ∧ allowed' s o) step s os t := by
  induction h with
  | nil => exact .nil _
  | cons ha _ ih =>
    exact .cons ⟨ha, hall _ List.mem_cons_self _⟩
      (ih fun o ho => hall o (List.mem_cons_of_mem _ ho))

/-- A run of another step function that does the same with these operations. -/
theorem congr_step {step' : S → O → S} {s t : S} {os : List O} (h : Run allowed step' s os t)
    (heq : ∀ o ∈ os, ∀ s, step s o = step' s o) : Run allowed step s os t := by
  induction h with
  | nil => exact .nil _
  | @cons s t o os ha _ ih =>
    refine .cons ha ?_
    rw [heq o List.mem_cons_self s]
    exact ih fun o ho => heq o (List.mem_cons_of_mem _ ho)

theorem eq_foldl {s t : S} {os : List O} (h : Run allowed step s os t) :
    t = os.foldl step s := by
  induction h with
  | nil => rfl
  | cons _ _ ih => exact ih

/-- Where a run has got to before one of its operations, and that the operation is
allowed there. -/
theorem at_op {s t : S} {os os' : List O} {o : O} (h : Run allowed step s (os ++ o :: os') t) :
    Run allowed step s os (os.foldl step s) ∧ allowed (os.foldl step s) o := by
  obtain ⟨m, hpre, hpost⟩ := append_iff.mp h
  obtain rfl : m = os.foldl step s := hpre.eq_foldl
  exact ⟨hpre, (cons_iff.mp hpost).1⟩

/-- **Once established, kept.**  If the operation `o` establishes `Q` from any
state satisfying the invariant `I`, and every allowed step keeps both, then `Q`
holds at the end of any run that went through `o`. -/
theorem after {I Q : S → Prop} {o : O} {os os' : List O} {s t : S}
    (keepI : ∀ s o, I s → allowed s o → I (step s o))
    (keepQ : ∀ s o, I s → Q s → allowed s o → Q (step s o))
    (establish : ∀ m, I m → Run allowed step s os m → allowed m o → Q (step m o))
    (h : Run allowed step s (os ++ o :: os') t) (hs : I s) : I t ∧ Q t := by
  obtain ⟨m, hpre, hpost⟩ := append_iff.mp h
  obtain ⟨ho, hrest⟩ := cons_iff.mp hpost
  have hm : I m := hpre.invariant keepI hs
  refine hrest.invariant (I := fun s => I s ∧ Q s) ?_ ⟨keepI m o hm ho, establish m hm hpre ho⟩
  rintro s o ⟨hi, hq⟩ ha
  exact ⟨keepI s o hi ha, keepQ s o hi hq ha⟩

/-- **When a condition is exact.**  If under the invariant `I` an allowed step that meets the
condition keeps the invariant, the invariant gives the property, and the property after a
step gives the condition before it, then a run meets the condition at every step exactly
when the property holds wherever the run gets to. -/
theorem and_iff_forall_reached {cond : S → O → Prop} {I P : S → Prop}
    (keep : ∀ s o, I s → allowed s o → cond s o → I (step s o)) (give : ∀ s, I s → P s)
    (need : ∀ s o, I s → allowed s o → P (step s o) → cond s o)
    {s t : S} {os : List O} (h : Run allowed step s os t) (hs : I s) :
    Run (fun s o => allowed s o ∧ cond s o) step s os t ↔
      ∀ pre post, os = pre ++ post → P (pre.foldl step s) := by
  constructor
  · rintro h pre post rfl
    obtain ⟨m, hpre, -⟩ := append_iff.mp h
    have hm := hpre.invariant (fun s o hi ha => keep s o hi ha.1 ha.2) hs
    rw [hpre.eq_foldl] at hm
    exact give _ hm
  · intro hall
    induction h with
    | nil => exact .nil _
    | @cons s t o os ha _ ih =>
      have hc : cond s o := need s o hs ha (hall [o] os rfl)
      refine .cons ⟨ha, hc⟩ (ih (keep s o hs ha hc) fun pre post hos => ?_)
      exact hall (o :: pre) post (by rw [hos]; rfl)

/-- A list of operations is a run to where they lead when nothing guards them. -/
theorem unguarded (s : S) (os : List O) :
    Run (fun _ _ => True) step s os (os.foldl step s) := by
  induction os generalizing s with
  | nil => exact .nil _
  | cons o os ih => exact .cons trivial (ih _)

/-- **The last write counts.**  What every operation either overwrites or leaves alone is in the
end what the last operation that overwrote it left there. -/
theorem read_foldl {X : Type} (read : S → X) (writes : O → Bool) (left : O → X)
    (hstep : ∀ s o, read (step s o) = if writes o then left o else read s) (s : S) (os : List O) :
    read (os.foldl step s) = ((os.filter writes).getLast?.map left).getD (read s) := by
  induction os using List.reverseRecOn with
  | nil => rfl
  | append_singleton os o ih =>
    rw [List.foldl_append, List.foldl_cons, List.foldl_nil, hstep, List.filter_append]
    by_cases ho : writes o
    · rw [if_pos ho, List.filter_cons_of_pos ho, List.getLast?_append]
      rfl
    · rw [if_neg ho, List.filter_cons_of_neg ho, List.filter_nil, List.append_nil, ih]

/-- The operations are allowed, each where it is taken. -/
def admits (allowed : S → O → Prop) [∀ s o, Decidable (allowed s o)] (step : S → O → S) :
    S → List O → Bool
  | _, [] => true
  | s, o :: os => decide (allowed s o) && admits allowed step (step s o) os

theorem of_admits [∀ s o, Decidable (allowed s o)] {s : S} {os : List O}
    (h : admits allowed step s os = true) : Run allowed step s os (os.foldl step s) := by
  induction os generalizing s with
  | nil => exact .nil _
  | cons o os ih =>
    rw [admits, Bool.and_eq_true, decide_eq_true_eq] at h
    exact .cons h.1 (ih h.2)

/-- The operations are allowed, each where it is taken, and lead to a state that passes. -/
def leads (allowed : S → O → Prop) [∀ s o, Decidable (allowed s o)] (step : S → O → S)
    (passes : S → Bool) : S → List O → Bool
  | s, [] => passes s
  | s, o :: os => decide (allowed s o) && leads allowed step passes (step s o) os

/-- A run and what it leads to can be checked at once. -/
theorem of_leads [∀ s o, Decidable (allowed s o)] {passes : S → Bool} {s : S} {os : List O}
    (h : leads allowed step passes s os = true) :
    Run allowed step s os (os.foldl step s) ∧ passes (os.foldl step s) = true := by
  induction os generalizing s with
  | nil => exact ⟨.nil _, h⟩
  | cons o os ih =>
    rw [leads, Bool.and_eq_true, decide_eq_true_eq] at h
    obtain ⟨hrest, hpasses⟩ := ih h.2
    exact ⟨.cons h.1 hrest, hpasses⟩

/-- The same where nothing but the condition guards the operations. -/
theorem iff_forall_reached {I P : S → Prop} (keep : ∀ s o, I s → allowed s o → I (step s o))
    (give : ∀ s, I s → P s) (need : ∀ s o, I s → P (step s o) → allowed s o)
    {s : S} {os : List O} (hs : I s) :
    Run allowed step s os (os.foldl step s) ↔
      ∀ pre post, os = pre ++ post → P (pre.foldl step s) := by
  rw [← and_iff_forall_reached (fun s o hi _ ha => keep s o hi ha) give
    (fun s o hi _ hp => need s o hi hp) (unguarded s os) hs]
  constructor
  · exact mono fun _ _ ha => ⟨trivial, ha⟩
  · exact mono fun _ _ ha => ha.2

end Run

end Lib
end CampusID
