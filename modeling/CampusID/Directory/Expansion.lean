import CampusID.Lib.AtomicPrograms
import CampusID.Lib.Layers
import Mathlib.Data.Finset.Card
import Mathlib.Data.Finset.Union

/-!
# Expanding groups

`expand` asks for the parents of one group after the other, level by level, and stops at the last
level, at an empty one, or when it has seen too many groups.  A question is a command, and the
directory answers it.

At the head of the loop the walk has seen what is nearer than its depth, its frontier is the level
at its depth, and it has asked about nothing but what it has seen (`Level`).  What `expand` returns
is read off the three ways the loop ends (`expand_complete`).
-/

namespace CampusID

open Lib

/-! ## The walk -/

/-- A program that asks for the parents of groups. -/
abbrev GroupProgram (α : Type) : Type := Prog String (fun _ => List String) α

/-- `Expansion`. -/
structure Expansion where
  groups : Finset String
  direct : Finset String := ∅
  truncated : Bool := false
  depthReached : Nat := 0

/-- The variables of the loop of `expand`. -/
structure GroupWalk where
  seen : Finset String
  frontier : List String
  truncated : Bool
  depth : Nat

/-- `MAX_DEPTH`. -/
def maxGroupDepth : Nat := 5

/-- `MAX_GROUPS`. -/
def maxGroups : Nat := 1000

/-- The loop over some parents: the next frontier grows by the new ones. -/
def addNew (seen : Finset String) (next : List String) : List String → List String
  | [] => next
  | parent :: parents =>
    addNew seen (if parent ∉ seen ∧ parent ∉ next then next ++ [parent] else next) parents

/-- `_unique`. -/
def unique (values : List String) : List String := addNew ∅ [] values

/-- The loop over the frontier. -/
def gather (seen : Finset String) : List String → List String → GroupProgram (List String)
  | [], next => return next
  | group :: rest, next => do
    let parents ← Prog.send group
    gather seen rest (addNew seen next parents)

/-- The loop of `expand`.  As long as there is a frontier, `levels` is `max_depth - depth`. -/
def GroupWalk.go (limit : Nat) : (levels : Nat) → GroupWalk → GroupProgram GroupWalk
  | 0, walk => return walk
  | levels + 1, walk =>
    if walk.frontier = [] then return walk
    else
      let seen := walk.seen ∪ walk.frontier.toFinset
      if limit ≤ seen.card then return { walk with seen := seen, truncated := true }
      else do
        let next ← gather seen walk.frontier []
        GroupWalk.go limit levels
          { walk with
            seen := seen
            frontier := next
            depth := if next = [] then walk.depth else walk.depth + 1 }

/-- What `expand` returns after the loop. -/
def GroupWalk.finish (maxDepth : Nat) (direct : List String) (walk : GroupWalk) : Expansion :=
  if walk.frontier ≠ [] ∧ maxDepth ≤ walk.depth then
    { groups := walk.seen ∪ walk.frontier.toFinset
      direct := direct.toFinset
      truncated := true
      depthReached := walk.depth }
  else
    { groups := walk.seen
      direct := direct.toFinset
      truncated := walk.truncated
      depthReached := walk.depth }

/-- `expand`. -/
def expand (direct : List String) (maxDepth : Nat := maxGroupDepth) (limit : Nat := maxGroups) :
    GroupProgram Expansion := do
  let walk ← GroupWalk.go limit maxDepth
    { seen := ∅, frontier := unique direct, truncated := false, depth := 0 }
  return walk.finish maxDepth direct

/-! ## What a directory answers -/

section Answers

variable (parents : String → List String)

/-- The directory answers a question. -/
def answerParents (group : String) (_ : Unit) : List String × Unit := (parents group, ())

/-- A group is a member of another. -/
def MemberOf (group parent : String) : Prop := parent ∈ parents group

/-- What a program returns. -/
def answered {α : Type} (program : GroupProgram α) : α :=
  (program.run (answerParents parents) ()).1

/-- The groups a program asks about, in order. -/
def asked {α : Type} (program : GroupProgram α) : List String :=
  (program.trace (answerParents parents) ()).map Sigma.fst

/-- What `expand` returns. -/
def expansion (direct : List String) (maxDepth limit : Nat) : Expansion :=
  answered parents (expand direct maxDepth limit)

end Answers

section Programs

variable {parents : String → List String} {α β : Type}

@[simp] theorem answered_pure (a : α) : answered parents (.pure a) = a := rfl

@[simp] theorem answered_bind (p : GroupProgram α) (f : α → GroupProgram β) :
    answered parents (p.bind f) = answered parents (f (answered parents p)) := by
  rw [answered, Prog.run_bind]
  rfl

@[simp] theorem asked_pure (a : α) : asked parents (.pure a : GroupProgram α) = [] := rfl

@[simp] theorem asked_bind (p : GroupProgram α) (f : α → GroupProgram β) :
    asked parents (p.bind f) = asked parents p ++ asked parents (f (answered parents p)) := by
  induction p with
  | pure a => rfl
  | call group k ih => exact congrArg (group :: ·) (ih (parents group))

end Programs

/-! ## The next frontier -/

section Frontier

variable {seen : Finset String} {next values : List String} {g : String}

theorem mem_addNew : g ∈ addNew seen next values ↔ g ∈ next ∨ g ∈ values ∧ g ∉ seen := by
  induction values generalizing next with
  | nil => simp [addNew]
  | cons value values ih =>
    rw [addNew, ih]
    split_ifs with hnew
    · rw [List.mem_append, List.mem_singleton, List.mem_cons]
      constructor
      · rintro ((hnext | rfl) | hlater)
        · exact .inl hnext
        · exact .inr ⟨.inl rfl, hnew.1⟩
        · exact .inr ⟨.inr hlater.1, hlater.2⟩
      · rintro (hnext | ⟨rfl | hlater, hg⟩)
        · exact .inl (.inl hnext)
        · exact .inl (.inr rfl)
        · exact .inr ⟨hlater, hg⟩
    · rw [List.mem_cons]
      constructor
      · rintro (hnext | hlater)
        · exact .inl hnext
        · exact .inr ⟨.inr hlater.1, hlater.2⟩
      · rintro (hnext | ⟨rfl | hlater, hg⟩)
        · exact .inl hnext
        · -- a value that is not added has been seen or is there
          by_contra hnot
          exact hnew ⟨hg, fun hin => hnot (.inl hin)⟩
        · exact .inr ⟨hlater, hg⟩

theorem nodup_addNew (h : next.Nodup) : (addNew seen next values).Nodup := by
  induction values generalizing next with
  | nil => exact h
  | cons value values ih =>
    rw [addNew]
    refine ih ?_
    split_ifs with hnew
    · exact List.nodup_append'.mpr ⟨h, List.nodup_singleton _, by simpa using hnew.2⟩
    · exact h

theorem mem_unique : g ∈ unique values ↔ g ∈ values := by
  simp [unique, mem_addNew]

theorem nodup_unique (values : List String) : (unique values).Nodup := nodup_addNew List.nodup_nil

variable {parents : String → List String} {frontier : List String}

theorem mem_gather : g ∈ answered parents (gather seen frontier next) ↔
    g ∈ next ∨ (∃ group ∈ frontier, MemberOf parents group g) ∧ g ∉ seen := by
  induction frontier generalizing next with
  | nil => simp [gather]
  | cons group rest ih =>
    have hsend : answered parents (gather seen (group :: rest) next) =
        answered parents (gather seen rest (addNew seen next (parents group))) := rfl
    rw [hsend, ih, mem_addNew, List.exists_mem_cons_iff]
    show (_ ∨ MemberOf parents group g ∧ _) ∨ _ ↔ _
    tauto

theorem nodup_gather (h : next.Nodup) : (answered parents (gather seen frontier next)).Nodup := by
  induction frontier generalizing next with
  | nil => exact h
  | cons group rest ih => exact ih (nodup_addNew h)

theorem asked_gather : asked parents (gather seen frontier next) = frontier := by
  induction frontier generalizing next with
  | nil => rfl
  | cons group rest ih => exact congrArg (group :: ·) ih

end Frontier

/-! ## The loop -/

section Loop

variable (parents : String → List String) (direct : List String)

/-- **The head of the loop**: what is nearer than the depth has been seen, and the frontier is the
level at the depth. -/
structure GroupWalk.Level (walk : GroupWalk) : Prop where
  seen : ∀ g, g ∈ walk.seen ↔ Nearer (MemberOf parents) (· ∈ direct) walk.depth g
  frontier : ∀ g, g ∈ walk.frontier ↔ Layer (MemberOf parents) (· ∈ direct) walk.depth g
  nodup : walk.frontier.Nodup
  running : walk.truncated = false

/-- What `expand` promises. -/
structure Expansion.Complete (maxDepth : Nat) (result : Expansion) : Prop where
  /-- The groups are those at a distance of `depth_reached` at most. -/
  groups : ∀ g, g ∈ result.groups ↔
    WithinSteps (MemberOf parents) (· ∈ direct) result.depthReached g
  /-- Unless it is truncated, the walk has been everywhere. -/
  closed : result.truncated = false → ∀ g, g ∈ result.groups ↔
    ∃ d ∈ direct, Relation.ReflTransGen (MemberOf parents) d g
  depth : result.depthReached ≤ maxDepth

variable {parents direct} {walk : GroupWalk} {maxDepth limit : Nat}

theorem GroupWalk.Level.start : GroupWalk.Level parents direct ⟨∅, unique direct, false, 0⟩ where
  seen g := by simp [not_nearer_zero]
  frontier g := by rw [mem_unique, layer_zero]
  nodup := nodup_unique direct
  running := rfl

namespace GroupWalk.Level

variable (h : walk.Level parents direct)

include h

theorem mem_seen (g : String) : g ∈ walk.seen ∪ walk.frontier.toFinset ↔
    Nearer (MemberOf parents) (· ∈ direct) (walk.depth + 1) g := by
  rw [Finset.mem_union, List.mem_toFinset, h.seen, h.frontier, nearer_succ_iff]

theorem mem_next (g : String) :
    g ∈ answered parents (gather (walk.seen ∪ walk.frontier.toFinset) walk.frontier []) ↔
      Layer (MemberOf parents) (· ∈ direct) (walk.depth + 1) g := by
  rw [mem_gather, h.mem_seen, layer_succ]
  simp only [List.not_mem_nil, false_or, h.frontier]

theorem not_mem_seen {g : String} (hg : g ∈ walk.frontier) : g ∉ walk.seen := by
  rw [h.seen]
  exact ((h.frontier g).mp hg).2

theorem complete_of_nil (hnil : walk.frontier = []) (hdepth : walk.depth ≤ maxDepth) :
    (walk.finish maxDepth direct).Complete parents direct maxDepth := by
  have hempty : ∀ g, ¬ Layer (MemberOf parents) (· ∈ direct) walk.depth g := by
    intro g hg
    rw [← h.frontier, hnil] at hg
    cases hg
  rw [GroupWalk.finish, if_neg (fun hcut => hcut.1 hnil)]
  refine ⟨fun g => ?_, fun _ g => ?_, hdepth⟩
  · show g ∈ walk.seen ↔ _
    rw [h.seen, within_iff, nearer_succ_iff, or_iff_left (hempty g)]
  · exact (h.seen g).trans (nearer_iff_reached hempty)

theorem complete_of_last (hne : walk.frontier ≠ []) (hdepth : walk.depth = maxDepth) :
    (walk.finish maxDepth direct).Complete parents direct maxDepth := by
  rw [GroupWalk.finish, if_pos ⟨hne, hdepth.ge⟩]
  refine ⟨fun g => ?_, fun htruncated => ?_, hdepth.le⟩
  · rw [within_iff]
    exact h.mem_seen g
  · cases htruncated

theorem complete_of_limit (hdepth : walk.depth < maxDepth) :
    (GroupWalk.finish maxDepth direct
      { walk with seen := walk.seen ∪ walk.frontier.toFinset, truncated := true }).Complete
        parents direct maxDepth := by
  rw [GroupWalk.finish, if_neg (fun hcut => absurd hcut.2 (Nat.not_le.mpr hdepth))]
  refine ⟨fun g => ?_, fun htruncated => ?_, hdepth.le⟩
  · rw [within_iff]
    exact h.mem_seen g
  · cases htruncated

theorem complete_of_top (hdepth : walk.depth < maxDepth)
    (htop : answered parents (gather (walk.seen ∪ walk.frontier.toFinset) walk.frontier []) = []) :
    (GroupWalk.finish maxDepth direct
      { walk with seen := walk.seen ∪ walk.frontier.toFinset, frontier := [] }).Complete
        parents direct maxDepth := by
  have hempty : ∀ g, ¬ Layer (MemberOf parents) (· ∈ direct) (walk.depth + 1) g := by
    intro g hg
    rw [← h.mem_next, htop] at hg
    cases hg
  rw [GroupWalk.finish, if_neg (fun hcut => hcut.1 rfl)]
  refine ⟨fun g => ?_, fun _ g => ?_, hdepth.le⟩
  · rw [within_iff]
    exact h.mem_seen g
  · exact (h.mem_seen g).trans (nearer_iff_reached hempty)

theorem next :
    GroupWalk.Level parents direct
      { walk with
        seen := walk.seen ∪ walk.frontier.toFinset
        frontier := answered parents
          (gather (walk.seen ∪ walk.frontier.toFinset) walk.frontier [])
        depth := walk.depth + 1 } where
  seen := h.mem_seen
  frontier := h.mem_next
  nodup := nodup_gather List.nodup_nil
  running := h.running

end GroupWalk.Level

theorem GroupWalk.go_of_nil (hnil : walk.frontier = []) (levels : Nat) :
    GroupWalk.go limit levels walk = .pure walk := by
  cases levels with
  | zero => rfl
  | succ levels => exact if_pos hnil

/-- **From the head of the loop on**, the walk ends as it should. -/
theorem GroupWalk.Level.complete {levels : Nat} (h : walk.Level parents direct)
    (hlevels : walk.depth + levels = maxDepth) :
    ((answered parents (GroupWalk.go limit levels walk)).finish maxDepth direct).Complete parents
      direct maxDepth := by
  induction levels generalizing walk with
  | zero =>
    by_cases hnil : walk.frontier = []
    · exact h.complete_of_nil hnil hlevels.le
    · exact h.complete_of_last hnil hlevels
  | succ levels ih =>
    have hdepth : walk.depth < maxDepth := by omega
    rw [GroupWalk.go]
    by_cases hnil : walk.frontier = []
    · rw [if_pos hnil]
      exact h.complete_of_nil hnil hdepth.le
    rw [if_neg hnil]
    dsimp only
    split_ifs
    · exact h.complete_of_limit hdepth
    · rw [Prog.bind_def, answered_bind]
      by_cases htop : answered parents
          (gather (walk.seen ∪ walk.frontier.toFinset) walk.frontier []) = []
      · rw [htop, if_pos rfl, GroupWalk.go_of_nil rfl]
        exact h.complete_of_top hdepth htop
      · rw [if_neg htop]
        refine ih h.next ?_
        show walk.depth + 1 + levels = maxDepth
        omega

/-- **No group is asked about twice**, and none that has been seen before. -/
theorem GroupWalk.Level.asked {levels : Nat} (h : walk.Level parents direct) :
    (asked parents (GroupWalk.go limit levels walk)).Nodup ∧
      ∀ g ∈ asked parents (GroupWalk.go limit levels walk), g ∉ walk.seen := by
  induction levels generalizing walk with
  | zero => exact ⟨List.nodup_nil, by simp [GroupWalk.go]⟩
  | succ levels ih =>
    rw [GroupWalk.go]
    by_cases hnil : walk.frontier = []
    · rw [if_pos hnil]
      exact ⟨List.nodup_nil, by simp⟩
    rw [if_neg hnil]
    dsimp only
    split_ifs
    · exact ⟨List.nodup_nil, by simp⟩
    · rw [Prog.bind_def, asked_bind, asked_gather]
      by_cases htop : answered parents
          (gather (walk.seen ∪ walk.frontier.toFinset) walk.frontier []) = []
      · rw [htop, if_pos rfl, GroupWalk.go_of_nil rfl, asked_pure, List.append_nil]
        exact ⟨h.nodup, fun g hg => h.not_mem_seen hg⟩
      · rw [if_neg htop]
        obtain ⟨hnodup, hnew⟩ := ih h.next
        constructor
        · refine List.nodup_append'.mpr ⟨h.nodup, hnodup, fun g hg hlater => ?_⟩
          exact hnew g hlater (Finset.mem_union_right _ (List.mem_toFinset.mpr hg))
        · intro g hg
          rcases List.mem_append.mp hg with hfrontier | hlater
          · exact h.not_mem_seen hfrontier
          · exact fun hseen => hnew g hlater (Finset.mem_union_left _ hseen)

end Loop

/-- **Group expansion is a bounded closure**, and asks about no group twice. -/
theorem expand_complete (parents : String → List String) (direct : List String)
    (maxDepth limit : Nat) :
    (expansion parents direct maxDepth limit).Complete parents direct maxDepth ∧
      (asked parents (expand direct maxDepth limit)).Nodup := by
  constructor
  · rw [expansion, expand, Prog.bind_def, answered_bind]
    exact GroupWalk.Level.start.complete (Nat.zero_add maxDepth)
  · rw [expand, Prog.bind_def, asked_bind, Prog.pure_def, asked_pure, List.append_nil]
    exact GroupWalk.Level.start.asked.1

/-- A ring of three groups, and a group of groups above it: the ring is walked once. -/
example :
    let parents : String → List String := fun group =>
      if group = "a" then ["b"] else if group = "b" then ["c"]
      else if group = "c" then ["a", "campus"] else []
    (expansion parents ["a", "a"] 5 1000).groups = {"a", "b", "c", "campus"} ∧
      (expansion parents ["a"] 2 1000).truncated = true ∧
      asked parents (expand ["a", "a"]) = ["a", "b", "c", "campus"] := by
  decide +kernel

end CampusID
