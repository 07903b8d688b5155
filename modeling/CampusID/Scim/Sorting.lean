import CampusID.Lib.Rounds
import CampusID.Scim.Runner

/-!
# The order of a bulk request

`_ordered` sorts the operations of a bulk request by the `bulkId`s they refer to.  It sorts in
rounds, so `Lib.Rounds` says what comes out: every operation after those it refers to, or a `409`
exactly when some refer to each other in a circle (`ordered_sorts`).

Among the operations that are ready the one that was sent first does not always go first.  An
operation that becomes ready during a round waits for the next one, and the rest of the round goes
before it (`ordered_inTurn_iff`).
-/

namespace CampusID
namespace Scim
namespace Bulk

open Lib

/-- The `bulkId` an operation declares: one that is there and not empty. -/
def declares (operation : BulkOperation) : Option String := truthy operation.bulkId

/-- An operation refers to the `bulkId` of another one. -/
def RefersTo (operation other : BulkOperation) : Prop :=
  ∃ id ∈ operation.dependsOn, declares other = some id

/-- No two operations share a `bulkId`. -/
def UniqueIds (operations : List BulkOperation) : Prop :=
  (operations.filterMap BulkOperation.bulkId).Nodup

/-- Every `bulkId` that is referred to is declared. -/
def AllDeclared (operations : List BulkOperation) : Prop :=
  referenced operations ⊆ produced operations

/-- Some operations refer to each other in a circle. -/
def Circular (operations : List BulkOperation) : Prop :=
  Rounds.Cyclic BulkOperation.dependsOn declares operations

/-- **The operation that was sent first goes first**: each one is, of those that are not yet placed
and refer to placed ones only, the first. -/
def InTurn (operations result : List BulkOperation) : Prop :=
  Rounds.Greedy BulkOperation.dependsOn declares ∅ operations result

/-- An operation was sent after another one that refers to more in a row, by one, and to nothing as
deep as itself that was sent later. -/
def Overtakes (operations : List BulkOperation) : Prop :=
  Rounds.Overtakes BulkOperation.dependsOn declares operations

instance (operations : List BulkOperation) : Decidable (UniqueIds operations) :=
  inferInstanceAs (Decidable (List.Nodup _))

instance (operations : List BulkOperation) : Decidable (AllDeclared operations) :=
  inferInstanceAs (Decidable (referenced operations ⊆ produced operations))

variable {py : Readers} {operations : List BulkOperation} {operation : BulkOperation}

/-! ## References -/

theorem mem_referenced {id : String} :
    id ∈ referenced operations ↔ ∃ operation ∈ operations, id ∈ operation.dependsOn := by
  unfold referenced
  induction operations with
  | nil => simp
  | cons operation operations ih => simp [ih]

theorem dependsOn_subset_produced (h : AllDeclared operations) :
    ∀ operation ∈ operations,
      operation.dependsOn ⊆ Rounds.given declares operations := by
  intro operation hmem id hid
  exact h (mem_referenced.mpr ⟨operation, hmem, hid⟩)

theorem UniqueIds.eq (h : UniqueIds operations) : ∀ a ∈ operations, ∀ b ∈ operations, ∀ id,
    declares a = some id → declares b = some id → a = b := by
  induction operations with
  | nil =>
    rintro a ⟨⟩
  | cons operation operations ih =>
    have hrest : UniqueIds operations := by
      unfold UniqueIds at h ⊢
      rw [List.filterMap_cons] at h
      split at h
      · exact h
      · exact (List.nodup_cons.mp h).2
    -- the first operation shares its `bulkId` with no later one
    have hfirst : ∀ other ∈ operations, ∀ id, declares operation = some id →
        declares other ≠ some id := by
      intro other hother id hid hsame
      have hid := (Patch.truthy_eq_some.mp hid).1
      have hsame := (Patch.truthy_eq_some.mp hsame).1
      unfold UniqueIds at h
      rw [List.filterMap_cons, hid] at h
      exact (List.nodup_cons.mp h).1 (List.mem_filterMap.mpr ⟨other, hother, hsame⟩)
    intro a ha b hb id hida hidb
    rcases List.mem_cons.mp ha with rfl | ha'
    · rcases List.mem_cons.mp hb with rfl | hb'
      · rfl
      · exact absurd hidb (hfirst b hb' id hida)
    · rcases List.mem_cons.mp hb with rfl | hb'
      · exact absurd hida (hfirst a ha' id hidb)
      · exact ih hrest a ha' b hb' id hida hidb

/-! ## The rounds -/

/-- The rounds of `_ordered` are those of a sort in rounds; what is stuck makes the `409`. -/
theorem rounds_eq {bound : Nat} {done : Finset String} {remaining : List BulkOperation}
    (hbound : remaining.length ≤ bound) :
    rounds py bound done remaining =
      if (Rounds.run BulkOperation.dependsOn declares bound done remaining).2 = [] then
        .ok (Rounds.run BulkOperation.dependsOn declares bound done remaining).1
      else .error
        (cycle py (Rounds.run BulkOperation.dependsOn declares bound done remaining).2) := by
  induction bound generalizing done remaining with
  | zero =>
    obtain rfl := List.length_eq_zero_iff.mp (Nat.le_zero.mp hbound)
    rfl
  | succ bound ih =>
    unfold rounds
    by_cases hready : (remaining.filter (isReady done)).isEmpty
    · have hstuck : Rounds.run BulkOperation.dependsOn declares (bound + 1) done remaining =
          ([], remaining) := Rounds.run_of_isEmpty hready _
      rw [hstuck]
      by_cases hempty : remaining.isEmpty
      · rw [if_pos hempty, if_pos (List.isEmpty_iff.mp hempty)]
      · rw [if_neg hempty, if_pos hready, if_neg fun h => hempty (List.isEmpty_iff.mpr h)]
    · have hempty : ¬ remaining.isEmpty := by
        intro h
        rw [List.isEmpty_iff.mp h] at hready
        exact hready rfl
      have hlength := (remaining.filter_append_perm (isReady done)).length_eq
      rw [List.length_append] at hlength
      have hpos := List.length_pos_iff.mpr fun hnil => hready (List.isEmpty_iff.mpr hnil)
      have hround : Rounds.run BulkOperation.dependsOn declares (bound + 1) done remaining =
          (remaining.filter (isReady done) ++
            (Rounds.run BulkOperation.dependsOn declares bound
              (done ∪ produced (remaining.filter (isReady done)))
              (remaining.filter (!isReady done ·))).1,
            (Rounds.run BulkOperation.dependsOn declares bound
              (done ∪ produced (remaining.filter (isReady done)))
              (remaining.filter (!isReady done ·))).2) := Rounds.run_succ hready
      rw [if_neg hempty, if_neg hready, hround, ih (by omega)]
      dsimp only
      split_ifs <;> rfl

theorem ordered_eq (h : AllDeclared operations) :
    ordered py operations =
      if (Rounds.run BulkOperation.dependsOn declares operations.length ∅ operations).2 = [] then
        .ok (Rounds.run BulkOperation.dependsOn declares operations.length ∅ operations).1
      else .error
        (cycle py
          (Rounds.run BulkOperation.dependsOn declares operations.length ∅ operations).2) := by
  have hknown : ¬ (referenced operations \ produced operations).Nonempty := by
    rw [Finset.sdiff_eq_empty_iff_subset.mpr h]
    exact Finset.not_nonempty_empty
  rw [ordered, if_neg hknown, rounds_eq le_rfl]

theorem run_eq_nil (hdeclared : AllDeclared operations) (h : ¬ Circular operations) :
    (Rounds.run BulkOperation.dependsOn declares operations.length ∅ operations).2 = [] := by
  by_contra hleft
  exact h (Rounds.cyclic_of_left le_rfl (dependsOn_subset_produced hdeclared) hleft)

/-- **Every operation comes after those it refers to.** -/
theorem refersTo_before {result before after : List BulkOperation} (hunique : UniqueIds operations)
    (hperm : result.Perm operations)
    (horder : Rounds.InOrder BulkOperation.dependsOn declares ∅ result)
    (hsplit : result = before ++ operation :: after) {other : BulkOperation}
    (hother : other ∈ operations) (hrefers : RefersTo operation other) : other ∈ before := by
  subst hsplit
  obtain ⟨id, hid, hdeclares⟩ := hrefers
  have hready := (Rounds.inOrder_append.mp horder).2.1
  rw [Finset.empty_union] at hready
  obtain ⟨giver, hgiver, hgives⟩ := Rounds.mem_given.mp (hready hid)
  have hmem := hperm.mem_iff.mp (List.mem_append_left _ hgiver)
  rwa [hunique.eq giver hmem other hother id hgives hdeclares] at hgiver

/-- **The operations are sorted, or refer to each other in a circle.** -/
theorem ordered_sorts (py : Readers) (hunique : UniqueIds operations)
    (hdeclared : AllDeclared operations) :
    (¬ Circular operations → ∃ result, ordered py operations = .ok result ∧
      result.Perm operations ∧ ∀ before operation after, result = before ++ operation :: after →
        ∀ other ∈ operations, RefersTo operation other → other ∈ before) ∧
      (Circular operations → ∃ e, ordered py operations = .error e ∧ e.status = 409) := by
  constructor
  · intro hacyclic
    have hnil := run_eq_nil hdeclared hacyclic
    have hperm : ((Rounds.run BulkOperation.dependsOn declares operations.length ∅ operations).1 ++
        (Rounds.run BulkOperation.dependsOn declares operations.length ∅ operations).2).Perm
          operations := Rounds.run_perm
    rw [hnil, List.append_nil] at hperm
    refine ⟨_, by rw [ordered_eq hdeclared, if_pos hnil], hperm, ?_⟩
    intro before operation after hsplit other hother
    exact refersTo_before hunique hperm Rounds.inOrder_run hsplit hother
  · intro hcircular
    have hleft := (Rounds.run_stuck_iff le_rfl (dependsOn_subset_produced hdeclared)
      hunique.eq).mpr hcircular
    exact ⟨_, by rw [ordered_eq hdeclared, if_neg hleft], rfl⟩

/-- **Operations go in turn exactly when none overtakes another.** -/
theorem ordered_inTurn_iff (py : Readers) (hdeclared : AllDeclared operations)
    (hacyclic : ¬ Circular operations) :
    ∃ result, ordered py operations = .ok result ∧
      (InTurn operations result ↔ ¬ Overtakes operations) := by
  have hnil := run_eq_nil hdeclared hacyclic
  exact ⟨_, by rw [ordered_eq hdeclared, if_pos hnil], Rounds.greedy_run_iff hnil⟩

/-! ## Three operations -/

/-- Put a user that is still to be made into a group. -/
def joining : BulkOperation where
  method := .patch
  resource := .groups
  resourceId := some "g1"
  data := .dict [("members", .list [.dict [("value", .str "bulkId:sam")]])]
  dependsOn := {"sam"}

/-- Make the user. -/
def making : BulkOperation where
  method := .post
  resource := .users
  bulkId := some "sam"
  data := .dict [("userName", .str "sam")]

/-- Delete another group. -/
def deleting : BulkOperation where
  method := .delete
  resource := .groups
  resourceId := some "g2"

theorem ordered_three :
    ordered asciiReaders [joining, making, deleting] = .ok [making, deleting, joining] := by
  have hrun : Rounds.run BulkOperation.dependsOn declares 3 ∅ [joining, making, deleting] =
      ([making, deleting, joining], []) := rfl
  rw [ordered_eq (by decide)]
  show (if (Rounds.run BulkOperation.dependsOn declares 3 ∅ [joining, making, deleting]).2 = [] then
    _ else _) = _
  rw [hrun]
  rfl

theorem not_circular_of_inOrder {result : List BulkOperation} (hunique : UniqueIds operations)
    (hperm : result.Perm operations)
    (horder : Rounds.InOrder BulkOperation.dependsOn declares ∅ result) :
    ¬ Circular operations :=
  Rounds.not_cyclic_of_inOrder hperm hunique.eq horder

theorem not_circular_three : ¬ Circular [joining, making, deleting] := by
  have hperm : [making, deleting, joining].Perm [joining, making, deleting] :=
    (List.perm_cons_append_cons joining (List.Perm.refl [making, deleting]) :
      [joining, making, deleting].Perm ([making, deleting] ++ [joining])).symm
  refine not_circular_of_inOrder (by decide) hperm ?_
  refine ⟨?_, ?_, ?_, trivial⟩ <;> decide

/-- The user is made before the group they join is changed. -/
theorem sorts_three : ∃ result, ordered asciiReaders [joining, making, deleting] = .ok result ∧
    result.Perm [joining, making, deleting] ∧
      ∀ before operation after, result = before ++ operation :: after →
        ∀ other ∈ [joining, making, deleting], RefersTo operation other → other ∈ before :=
  (ordered_sorts asciiReaders (by decide) (by decide)).1 not_circular_three

/-- Making the user and joining them go in turn: the first operation has to wait. -/
theorem inTurn_two : ∃ result, ordered asciiReaders [joining, making] = .ok result ∧
    InTurn [joining, making] result := by
  have hacyclic : ¬ Circular [joining, making] := by
    refine not_circular_of_inOrder (by decide) (List.Perm.swap joining making []) ?_
    exact ⟨by decide, by decide, trivial⟩
  obtain ⟨result, hordered, hiff⟩ := ordered_inTurn_iff asciiReaders (by decide) hacyclic
  refine ⟨result, hordered, hiff.mpr ?_⟩
  rintro ⟨n, before, item, after, other, hsplit, ⟨-, hfirst⟩, hother, -, hneeds⟩
  obtain ⟨rfl, rfl⟩ : before = [joining] ∧ item = making := by
    rcases before with _ | ⟨a, _ | ⟨b, before⟩⟩
    · cases hother
    · simp at hsplit
      exact ⟨by rw [hsplit.1], hsplit.2.1.symm⟩
    · simp at hsplit
  obtain rfl := List.mem_singleton.mp hother
  -- the user refers to nothing, and is made in the first round
  obtain rfl : n = 0 := by
    by_contra hlater
    exact absurd (hfirst 0 (Nat.pos_of_ne_zero hlater)) (by decide)
  exact absurd hneeds (by decide)

/-- The deletion goes before the group that was sent first and could go. -/
theorem not_inTurn : ¬ ∀ (py : Readers) (operations : List BulkOperation),
    AllDeclared operations → ¬ Circular operations →
      ∃ result, ordered py operations = .ok result ∧ InTurn operations result := by
  intro h
  obtain ⟨result, hordered, hturn⟩ :=
    h asciiReaders [joining, making, deleting] (by decide) not_circular_three
  rw [ordered_three] at hordered
  cases hordered
  have hjoining : ∀ other ∈ [joining], Rounds.ready BulkOperation.dependsOn ∅ other = false := by
    intro other hother
    rw [List.mem_singleton.mp hother]
    decide
  obtain ⟨-, hsecond⟩ := (Rounds.greedy_split (Finset.Subset.refl ∅) hjoining rfl).mp hturn
  -- the user is made, so the group could go
  have hready : Rounds.ready BulkOperation.dependsOn (∅ ∪ Rounds.given declares [making])
      joining = true := by decide
  obtain ⟨before, after, hsplit, hwaiting, -⟩ := Rounds.greedy_cons_iff.mp hsecond
  cases before with
  | nil =>
    have hsame := congrArg BulkOperation.method (List.cons.inj hsplit).1
    exact absurd hsame (by decide)
  | cons first before =>
    obtain ⟨rfl, -⟩ := List.cons.inj hsplit
    rw [hwaiting _ List.mem_cons_self] at hready
    cases hready

end Bulk
end Scim
end CampusID
