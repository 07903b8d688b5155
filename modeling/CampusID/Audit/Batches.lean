import CampusID.Lib.Keyset
import CampusID.Audit.Trail

/-!
# The walk in batches

`verify_chain` reads the trail a batch at a time, carries the hash and the sequence number of
the last row across, and starts the order check anew in every batch.  `verify_from` over the
same rows in one piece does none of that, and `verifyPages_eq` says that it makes no
difference: from a cursor on, the batches report what one piece reports.

The walk starts at the cursor 0, though, and a sequence number is any integer the table
holds.  Rows at 0 and below are never read, whatever is in them, and `verifyChain_eq_iff`
says when that goes unnoticed.
-/

namespace CampusID
namespace Audit

open Lib

section Hash

variable {sha256 : String → String} {reorder : List (Key × Value) → List (Key × Value)}

/-- The sequence number a walk has got to. -/
def lastOf (lastSeq : Option Int) (rows : List Row) : Option Int :=
  match rows.getLast? with
  | none => lastSeq
  | some row => some row.seq

/-- **A walk over two stretches** is a walk over the first and, if that finds no break, one
over the second from where the first ended. -/
theorem verifyRows_append (expected : String) (lastSeq : Option Int) (xs ys : List Row) :
    verifyRows sha256 expected lastSeq (xs ++ ys) =
      match verifyRows sha256 expected lastSeq xs with
      | .error e => .error e
      | .ok (some broken) => .ok (some broken)
      | .ok none => verifyRows sha256 (headFrom expected xs) (lastOf lastSeq xs) ys := by
  induction xs generalizing expected lastSeq with
  | nil => rfl
  | cons row xs ih =>
    simp only [List.cons_append, verifyRows]
    by_cases horder : (lastSeq.any fun last => row.seq ≤ last) = true
    · rw [if_pos horder, if_pos horder]
    · rw [if_neg horder, if_neg horder]
      by_cases hprev : row.prevHash ≠ expected
      · rw [if_pos hprev, if_pos hprev]
      · rw [if_neg hprev, if_neg hprev]
        cases hlink : link sha256 expected row.columns with
        | error e => rfl
        | ok computed =>
          simp only [ok_bind]
          by_cases hhash : computed ≠ row.hash
          · rw [if_pos hhash, if_pos hhash]
            rfl
          · obtain rfl : computed = row.hash := not_not.mp hhash
            rw [if_neg hhash, if_neg hhash, ih, headFrom_cons]
            have hlast : lastOf lastSeq (row :: xs) = lastOf (some row.seq) xs := by
              unfold lastOf
              rw [List.getLast?_cons]
              cases xs.getLast? <;> rfl
            rw [hlast]

theorem verifyRows_last {lastSeq : Option Int} {rows : List Row} (expected : String)
    (h : ∀ last ∈ lastSeq, ∀ row ∈ rows, last < row.seq) :
    verifyRows sha256 expected lastSeq rows = verifyFrom sha256 expected rows := by
  cases rows with
  | nil => rfl
  | cons row rows =>
    have horder : (lastSeq.any fun last => row.seq ≤ last) = false := by
      cases lastSeq with
      | none => rfl
      | some last =>
        have := h last rfl row List.mem_cons_self
        simp only [Option.any_some, decide_eq_false_iff_not]
        omega
    unfold verifyFrom
    simp only [verifyRows, horder, Option.any_none]

theorem seq_of_broken {expected : String} {lastSeq : Option Int} {rows : List Row}
    {broken : Broken} (h : verifyRows sha256 expected lastSeq rows = .ok (some broken)) :
    ∃ row ∈ rows, row.seq = broken.seq := by
  induction rows generalizing expected lastSeq with
  | nil => cases h
  | cons row rows ih =>
    simp only [verifyRows] at h
    split_ifs at h with horder hprev
    · obtain rfl := Option.some.inj (Except.ok.inj h)
      exact ⟨row, List.mem_cons_self, rfl⟩
    · obtain rfl := Option.some.inj (Except.ok.inj h)
      exact ⟨row, List.mem_cons_self, rfl⟩
    · cases hlink : link sha256 expected row.columns with
      | error e =>
        rw [hlink] at h
        cases h
      | ok computed =>
        simp only [hlink, ok_bind] at h
        split_ifs at h with hhash
        · obtain rfl := Option.some.inj (Except.ok.inj h)
          exact ⟨row, List.mem_cons_self, rfl⟩
        · obtain ⟨found, hfound, hseq⟩ := ih h
          exact ⟨found, List.mem_cons_of_mem _ hfound, hseq⟩

theorem headFrom_read (expected : String) (rows : List Row) :
    headFrom expected (rows.map (Row.read reorder)) = headFrom expected rows := by
  unfold headFrom
  rw [List.getLast?_map]
  cases rows.getLast? <;> rfl

/-! ## Batches and one piece -/

theorem verifyPages_of_none {batch : Nat} {rows : List Row} {lastSeq : Int}
    (h : (page batch rows lastSeq).getLast? = none) (expected : String) :
    verifyPages sha256 reorder batch rows expected lastSeq = .ok none := by
  rw [verifyPages]
  split
  · rfl
  · rename_i last hlast
    rw [h] at hlast
    cases hlast

theorem verifyPages_of_some {batch : Nat} {rows : List Row} {lastSeq : Int} {last : Row}
    (h : (page batch rows lastSeq).getLast? = some last) (expected : String) :
    verifyPages sha256 reorder batch rows expected lastSeq =
      match verifyFrom sha256 expected ((page batch rows lastSeq).map (Row.read reorder)) with
      | .error e => .error e
      | .ok (some broken) => .ok (some broken)
      | .ok none => verifyPages sha256 reorder batch rows last.hash last.seq := by
  rw [verifyPages]
  split
  · rename_i hnone
    rw [h] at hnone
    cases hnone
  · rename_i last' hlast
    obtain rfl : last' = last := Option.some.inj (hlast.symm.trans h)
    rfl

/-- **From a cursor on, the batches report what one piece reports.** -/
theorem verifyPages_eq {rows : List Row} (hnodup : (rows.map Row.seq).Nodup) {batch : Nat}
    (hbatch : batch ≠ 0) (expected : String) (lastSeq : Int) :
    verifyPages sha256 reorder batch rows expected lastSeq =
      verifyFrom sha256 expected
        ((Keyset.remaining Row.seq (some lastSeq) rows).map (Row.read reorder)) := by
  refine @Keyset.induct Row Int _ Row.seq batch hbatch rows (fun cursor =>
    ∀ expected lastSeq, cursor = some lastSeq →
      verifyPages sha256 reorder batch rows expected lastSeq =
        verifyFrom sha256 expected ((Keyset.remaining Row.seq cursor rows).map
          (Row.read reorder))) ?_ ?_ (some lastSeq) expected lastSeq rfl
  · rintro cursor hnone expected lastSeq rfl
    rw [verifyPages_of_none ((Keyset.page_getLast?_eq_none hbatch).mpr hnone), hnone]
    rfl
  · rintro cursor last hlast ih expected lastSeq rfl
    have hafter := Keyset.remaining_after hnodup hlast
    -- the page is the front of what is left, and the walk goes on with the rest
    have hsplit : (Keyset.remaining Row.seq (some lastSeq) rows).map (Row.read reorder) =
        (page batch rows lastSeq).map (Row.read reorder) ++
          (Keyset.remaining Row.seq (some last.seq) rows).map (Row.read reorder) := by
      rw [hafter, ← List.map_append]
      exact congrArg _ (List.take_append_drop batch _).symm
    have hhead : headFrom expected ((page batch rows lastSeq).map (Row.read reorder)) =
        last.hash := by
      rw [headFrom_read]
      unfold headFrom
      rw [page_eq, hlast]
    have hlastOf : lastOf none ((page batch rows lastSeq).map (Row.read reorder)) =
        some last.seq := by
      unfold lastOf
      rw [List.getLast?_map, page_eq, hlast]
      rfl
    have hrest : verifyRows sha256 last.hash (some last.seq)
        ((Keyset.remaining Row.seq (some last.seq) rows).map (Row.read reorder)) =
          verifyPages sha256 reorder batch rows last.hash last.seq := by
      rw [ih last.hash last.seq rfl]
      refine verifyRows_last _ ?_
      rintro last ⟨⟩ row hrow
      obtain ⟨stored, hstored, rfl⟩ := List.mem_map.mp hrow
      have hpast := (Keyset.mem_remaining.mp hstored).2
      rw [Keyset.past_some, decide_eq_true_eq] at hpast
      exact hpast
    rw [verifyPages_of_some hlast, hsplit, verifyFrom, verifyFrom, verifyRows_append, hhead,
      hlastOf, hrest]

/-! ## The rows that are never read -/

/-- The rows at 0 and below, in order. -/
def unseen (trail : Trail) : List Row := bySeq (trail.rows.filter fun row => row.seq ≤ 0)

/-- The rows the walk reads, in order. -/
def seen (trail : Trail) : List Row := bySeq (trail.rows.filter fun row => 0 < row.seq)

theorem seen_eq (trail : Trail) : seen trail = Keyset.remaining Row.seq (some 0) trail.rows := rfl

theorem nonpos_of_unseen {trail : Trail} {row : Row} (h : row ∈ unseen trail) : row.seq ≤ 0 := by
  have := (List.perm_insertionSort _ _).mem_iff.mp h
  simpa using (List.mem_filter.mp this).2

theorem pos_of_seen {trail : Trail} {row : Row} (h : row ∈ seen trail) : 0 < row.seq := by
  rw [seen_eq] at h
  simpa using (Keyset.mem_remaining.mp h).2

theorem unseen_strict {trail : Trail} (hnodup : (trail.rows.map Row.seq).Nodup) :
    (unseen trail).Pairwise fun a b => a.seq < b.seq := by
  have hlow := hnodup.sublist
    ((List.filter_sublist (p := fun row : Row => row.seq ≤ 0)).map Row.seq)
  unfold unseen
  rw [bySeq_eq]
  exact Keyset.remaining_strict hlow none

theorem bySeq_eq_append {trail : Trail} (hnodup : (trail.rows.map Row.seq).Nodup) :
    bySeq trail.rows = unseen trail ++ seen trail := by
  have hperm : (unseen trail ++ seen trail).Perm trail.rows := by
    have hsplit := List.filter_append_perm (fun row => decide (row.seq ≤ 0)) trail.rows
    refine List.Perm.trans ?_ hsplit
    refine (List.perm_insertionSort _ _).append ?_
    refine (List.perm_insertionSort _ _).trans (List.Perm.of_eq ?_)
    refine List.filter_congr fun row _ => ?_
    by_cases h : row.seq ≤ 0
    · simp [h, not_lt.mpr h]
    · simp [h, not_le.mp h]
  rw [bySeq_eq]
  refine Keyset.eq_of_perm (Keyset.nodup_remaining hnodup none) (Keyset.remaining_sorted _ _) ?_ ?_
  · refine List.pairwise_append.mpr ⟨?_, Keyset.remaining_sorted (some 0) trail.rows, ?_⟩
    · have htotal : Std.Total fun a b : Row => a.seq ≤ b.seq :=
        ⟨fun a b => le_total a.seq b.seq⟩
      have htrans : IsTrans Row fun a b => a.seq ≤ b.seq := ⟨fun _ _ _ => le_trans⟩
      exact List.pairwise_insertionSort _ _
    · intro a ha b hb
      exact le_trans (nonpos_of_unseen ha) (le_of_lt (pos_of_seen hb))
  · refine (Keyset.remaining_perm none trail.rows).trans ?_
    rw [Keyset.filter_past_none]
    exact hperm.symm

/-! ### Rows that verify on their own -/

/-- The rows continue the chain from this hash, one after another. -/
def Continues (sha256 : String → String) : String → List Row → Prop
  | _, [] => True
  | expected, row :: rows => row.prevHash = expected ∧
      link sha256 expected row.columns = .ok row.hash ∧ Continues sha256 row.hash rows

/-- The rows continue the chain as far as one that cannot be hashed. -/
def Stops (sha256 : String → String) (e : WriteError) : String → List Row → Prop
  | _, [] => False
  | expected, row :: rows => row.prevHash = expected ∧
      (link sha256 expected row.columns = .error e ∨
        link sha256 expected row.columns = .ok row.hash ∧ Stops sha256 e row.hash rows)

theorem verifyFrom_cons {row : Row} {rows : List Row}
    (hsorted : (row :: rows).Pairwise fun a b => a.seq < b.seq) (expected : String) :
    verifyFrom sha256 expected (row :: rows) =
      if row.prevHash ≠ expected then .ok (some ⟨row.seq, row.columns.eventId, unlinked⟩)
      else link sha256 expected row.columns >>= fun computed =>
        if computed ≠ row.hash then .ok (some ⟨row.seq, row.columns.eventId, altered⟩)
        else verifyFrom sha256 computed rows := by
  have hrest : ∀ computed, verifyRows sha256 computed (some row.seq) rows =
      verifyFrom sha256 computed rows := by
    intro computed
    refine verifyRows_last computed ?_
    rintro last ⟨⟩ other hother
    exact (List.pairwise_cons.mp hsorted).1 other hother
  conv_lhs => unfold verifyFrom
  simp only [verifyRows, Option.any_none, Bool.false_eq_true, if_false, hrest]
  rfl

/-- **No break is reported exactly of rows that continue the chain.** -/
theorem verifyFrom_eq_none_iff {expected : String} {rows : List Row}
    (hsorted : rows.Pairwise fun a b => a.seq < b.seq) :
    verifyFrom sha256 expected rows = .ok none ↔ Continues sha256 expected rows := by
  induction rows generalizing expected with
  | nil => simp [verifyFrom, verifyRows, Continues]
  | cons row rows ih =>
    rw [verifyFrom_cons hsorted, Continues]
    by_cases hprev : row.prevHash = expected
    · cases hlink : link sha256 expected row.columns with
      | error e => simp [hprev, bind, Except.bind]
      | ok computed =>
        by_cases hhash : computed = row.hash
        · simp [hprev, hhash, ih (List.pairwise_cons.mp hsorted).2]
        · simp [hprev, hhash]
    · simp [hprev]

theorem verifyFrom_eq_error_iff {e : WriteError} {expected : String} {rows : List Row}
    (hsorted : rows.Pairwise fun a b => a.seq < b.seq) :
    verifyFrom sha256 expected rows = .error e ↔ Stops sha256 e expected rows := by
  induction rows generalizing expected with
  | nil => simp [verifyFrom, verifyRows, Stops]
  | cons row rows ih =>
    rw [verifyFrom_cons hsorted, Stops]
    by_cases hprev : row.prevHash = expected
    · cases hlink : link sha256 expected row.columns with
      | error e' => simp [hprev, bind, Except.bind]
      | ok computed =>
        by_cases hhash : computed = row.hash
        · simp [hprev, hhash, ih (List.pairwise_cons.mp hsorted).2]
        · simp [hprev, hhash]
    · simp [hprev]

/-- **What goes unnoticed.**  There are no rows at 0 or below; or they continue the chain
where it begins, and behind them comes nothing, or a row that is linked to neither of the
two hashes, or the two hashes are one; or hashing raises alike in both parts. -/
def Unnoticed (sha256 : String → String) (reorder : List (Key × Value) → List (Key × Value))
    (trail : Trail) : Prop :=
  unseen trail = [] ∨
    (Continues sha256 (startingHash trail.anchors) ((unseen trail).map (Row.read reorder)) ∧
      ∀ first ∈ (seen trail).head?,
        headFrom (startingHash trail.anchors) (unseen trail) = startingHash trail.anchors ∨
          (first.prevHash ≠ startingHash trail.anchors ∧
            first.prevHash ≠ headFrom (startingHash trail.anchors) (unseen trail))) ∨
    ∃ e, Stops sha256 e (startingHash trail.anchors) ((unseen trail).map (Row.read reorder)) ∧
      Stops sha256 e (startingHash trail.anchors) ((seen trail).map (Row.read reorder))

/-! ### Two hashes to start from -/

theorem not_unlinked_of_linked {row : Row} {rows : List Row}
    (hsorted : (row :: rows).Pairwise fun a b => a.seq < b.seq) :
    verifyFrom sha256 row.prevHash (row :: rows) ≠
      .ok (some ⟨row.seq, row.columns.eventId, unlinked⟩) := by
  intro h
  simp only [verifyFrom, verifyRows, Option.any_none, Bool.false_eq_true, if_false, ne_eq,
    not_true_eq_false] at h
  cases hlink : link sha256 row.prevHash row.columns with
  | error e =>
    rw [hlink] at h
    cases h
  | ok computed =>
    simp only [hlink, ok_bind] at h
    split_ifs at h with hhash
    · obtain ⟨found, hfound, hseq⟩ := seq_of_broken h
      have := (List.pairwise_cons.mp hsorted).1 found hfound
      simp only at hseq
      omega
    · have htext : altered = unlinked :=
        congrArg Broken.problem (Option.some.inj (Except.ok.inj h))
      exact absurd htext (by decide)

theorem verifyFrom_unlinked {row : Row} {rows : List Row} {expected : String}
    (h : row.prevHash ≠ expected) : verifyFrom sha256 expected (row :: rows) =
      .ok (some ⟨row.seq, row.columns.eventId, unlinked⟩) := by
  simp [verifyFrom, verifyRows, h]

/-- **When it does not matter where a walk starts.** -/
theorem verifyFrom_eq_iff {start start' : String} {rows : List Row}
    (hsorted : rows.Pairwise fun a b => a.seq < b.seq) :
    verifyFrom sha256 start rows = verifyFrom sha256 start' rows ↔
      ∀ first ∈ rows.head?, start' = start ∨
        (first.prevHash ≠ start ∧ first.prevHash ≠ start') := by
  cases rows with
  | nil => simp [verifyFrom, verifyRows]
  | cons row rows =>
    simp only [List.head?_cons, Option.mem_some_iff, forall_eq']
    by_cases hsame : start' = start
    · simp [hsame]
    by_cases hstart : row.prevHash = start
    · have hstart' : row.prevHash ≠ start' := fun h => hsame (h.symm.trans hstart)
      have hne := @not_unlinked_of_linked sha256 _ _ hsorted
      rw [verifyFrom_unlinked hstart', ← hstart]
      simp [hne, hstart ▸ hsame]
    · rw [verifyFrom_unlinked hstart]
      by_cases hstart' : row.prevHash = start'
      · have hne := @not_unlinked_of_linked sha256 _ _ hsorted
        rw [← hstart']
        simp [hne.symm, hstart' ▸ hsame]
      · rw [verifyFrom_unlinked hstart']
        simp [hstart, hstart']

theorem pairwise_read {rows : List Row} (h : rows.Pairwise fun a b => a.seq < b.seq) :
    (rows.map (Row.read reorder)).Pairwise fun a b => a.seq < b.seq :=
  List.pairwise_map.mpr h

theorem verifyChain_eq_seen {trail : Trail} (hnodup : (trail.rows.map Row.seq).Nodup)
    {batch : Nat} (hbatch : 1 ≤ batch) :
    verifyChain sha256 reorder batch trail =
      verifyFrom sha256 (startingHash trail.anchors) ((seen trail).map (Row.read reorder)) := by
  have hne : batch ≠ 0 := by omega
  exact verifyPages_eq hnodup hne _ 0

theorem verifyFrom_whole {trail : Trail} (hnodup : (trail.rows.map Row.seq).Nodup) :
    verifyFrom sha256 (startingHash trail.anchors) ((bySeq trail.rows).map (Row.read reorder)) =
      match verifyFrom sha256 (startingHash trail.anchors)
          ((unseen trail).map (Row.read reorder)) with
      | .error e => .error e
      | .ok (some broken) => .ok (some broken)
      | .ok none => verifyFrom sha256 (headFrom (startingHash trail.anchors) (unseen trail))
          ((seen trail).map (Row.read reorder)) := by
  have hlast : ∀ last ∈ lastOf none ((unseen trail).map (Row.read reorder)), last ≤ 0 := by
    intro last hlast
    unfold lastOf at hlast
    rw [List.getLast?_map] at hlast
    cases hget : (unseen trail).getLast? with
    | none => simp [hget] at hlast
    | some low =>
      obtain rfl : low.seq = last := by simpa [hget, Row.read] using hlast
      exact nonpos_of_unseen (List.mem_of_getLast? hget)
  have hrest := @verifyRows_last sha256 (lastOf none ((unseen trail).map (Row.read reorder)))
    ((seen trail).map (Row.read reorder))
    (headFrom (startingHash trail.anchors) (unseen trail)) (by
      intro last hmem row hrow
      obtain ⟨stored, hstored, rfl⟩ := List.mem_map.mp hrow
      have hpos : 0 < stored.seq := pos_of_seen hstored
      exact lt_of_le_of_lt (hlast last hmem) hpos)
  rw [bySeq_eq_append hnodup, List.map_append, verifyFrom, verifyRows_append, headFrom_read,
    hrest, ← verifyFrom]

/-- **The batched verifier against one piece.**  On any tables, whatever is in them, with
unique sequence numbers, for every batch size: the two report the same exactly when what
the batches never read goes unnoticed. -/
theorem verifyChain_eq_iff {trail : Trail} (hnodup : (trail.rows.map Row.seq).Nodup)
    {batch : Nat} (hbatch : 1 ≤ batch) :
    verifyChain sha256 reorder batch trail =
        verifyFrom sha256 (startingHash trail.anchors)
          ((bySeq trail.rows).map (Row.read reorder)) ↔
      Unnoticed sha256 reorder trail := by
  have hsorted : ((seen trail).map (Row.read reorder)).Pairwise fun a b => a.seq < b.seq :=
    pairwise_read (Keyset.remaining_strict hnodup (some 0))
  have hunseen : ((unseen trail).map (Row.read reorder)).Pairwise fun a b => a.seq < b.seq :=
    pairwise_read (unseen_strict hnodup)
  have hhead : ∀ first, first ∈ ((seen trail).map (Row.read reorder)).head? ↔
      ∃ stored ∈ (seen trail).head?, stored.read reorder = first := by
    intro first
    rw [List.head?_map]
    simp [Option.mem_def]
  rw [verifyChain_eq_seen hnodup hbatch, verifyFrom_whole hnodup]
  simp only [Unnoticed, ← verifyFrom_eq_none_iff hunseen, ← verifyFrom_eq_error_iff hunseen,
    ← verifyFrom_eq_error_iff hsorted]
  by_cases hnone : unseen trail = []
  · simp [hnone, verifyFrom, verifyRows]
  cases hlow : verifyFrom sha256 (startingHash trail.anchors)
      ((unseen trail).map (Row.read reorder)) with
  | error e => simp [hnone]
  | ok result =>
    cases result with
    | some broken =>
      -- a break at 0 or below is none that the walk above 0 can report
      simp only [hnone, reduceCtorEq, false_and, exists_false, or_false, Except.ok.injEq, iff_false]
      intro h
      obtain ⟨_, hlowMem, hseq⟩ := seq_of_broken hlow
      obtain ⟨_, hhighMem, hseq'⟩ := seq_of_broken h
      obtain ⟨low, hlowStored, rfl⟩ := List.mem_map.mp hlowMem
      obtain ⟨high, hhighStored, rfl⟩ := List.mem_map.mp hhighMem
      have hle := nonpos_of_unseen hlowStored
      have hpos := pos_of_seen hhighStored
      have heq : low.seq = high.seq := hseq.trans hseq'.symm
      omega
    | none =>
      simp only [hnone, true_and, reduceCtorEq, false_and, exists_false, or_false, false_or]
      rw [verifyFrom_eq_iff hsorted]
      constructor
      · intro h first hfirst
        exact h (first.read reorder) ((hhead _).mpr ⟨first, hfirst, rfl⟩)
      · intro h first hfirst
        obtain ⟨stored, hstored, rfl⟩ := (hhead first).mp hfirst
        exact h stored hstored

end Hash

/-! ### A row at 0 -/

/-- A trail with one event in it, at this sequence number and linked to nothing. -/
def strayTrail (seq : Int) : Trail := ⟨[⟨seq, "", "", row issuedCall.event⟩], []⟩

theorem nodup_strayTrail (seq : Int) : ((strayTrail seq).rows.map Row.seq).Nodup := by
  simp [strayTrail]

theorem unseen_strayTrail : unseen (strayTrail 1) = [] := by
  simp [unseen, strayTrail, bySeq]

/-- Above 0 the row is read, and both report it. -/
theorem verifyChain_eq_strayTrail :
    verifyChain issuedSha256 List.reverse 1 (strayTrail 1) =
      verifyFrom issuedSha256 genesis ((bySeq (strayTrail 1).rows).map (Row.read List.reverse)) :=
  (verifyChain_eq_iff (nodup_strayTrail 1) (le_refl 1)).mpr (.inl unseen_strayTrail)

/-- **At 0 it is not.**  One piece reports the row as linked to nothing, and the batches end
before they have read anything. -/
theorem verifyChain_ne_strayTrail :
    ¬ ∀ (trail : Trail) (batch : Nat), (trail.rows.map Row.seq).Nodup → 1 ≤ batch →
      verifyChain issuedSha256 List.reverse batch trail =
        verifyFrom issuedSha256 (startingHash trail.anchors)
          ((bySeq trail.rows).map (Row.read List.reverse)) := by
  intro h
  have hsame := h (strayTrail 0) 1 (nodup_strayTrail 0) (le_refl 1)
  have hseen : seen (strayTrail 0) = [] := by simp [seen, strayTrail, bySeq]
  have hprev : (Row.read List.reverse ⟨0, "", "", row issuedCall.event⟩).prevHash ≠
      startingHash (strayTrail 0).anchors := by
    intro heq
    have : ("" : String) = genesis := heq
    exact absurd this (by decide)
  have hstray : ((bySeq (strayTrail 0).rows).map (Row.read List.reverse)) =
      [Row.read List.reverse ⟨0, "", "", row issuedCall.event⟩] := rfl
  rw [verifyChain_eq_seen (nodup_strayTrail 0) (le_refl 1), hseen, hstray,
    verifyFrom_unlinked hprev] at hsame
  cases hsame

end Audit
end CampusID
