import CampusID.Audit.Retention

/-!
# Recording and pruning keep one chain

Writers link to the last event in the table and, when there is none, to the newest anchor.
A pass picks its boundary by a timestamp and deletes up to a sequence number.  Between them
the events there have ever been stay one chain from genesis, of which a front part has gone
to the sinks and the rest is in the table.

* `Kept` is that invariant: of the events recorded, in order and linked, those above every
  anchor are the rows, and every anchor is at one of them and has its hash.
* `Kept.record` and `Kept.cut` are its two steps.
* `one_chain` is what follows for whole histories.

It takes events that read back as they were hashed, which is what `RecordCall.keeps` is for,
or are refused; and passes with batches of some size, for with size 0 the export is over
before it has begun and the delete still happens.
-/

namespace CampusID
namespace Audit

open Lib

section Hash

variable {sha256 : String → String}

/-! ## The invariant -/

/-- No pass has removed the event. -/
def survives (anchors : List Anchor) (row : Row) : Bool :=
  anchors.all fun anchor => anchor.removedThroughSeq < row.seq

/-- What the passes have removed. -/
def removed (anchors : List Anchor) (recorded : List Row) : List Row :=
  recorded.filter fun row => !survives anchors row

/-- **One chain.**  The events recorded are linked from genesis, the rows are those of them
that no anchor covers, and every anchor is at one of them. -/
structure Kept (sha256 : String → String) (trail : Trail) (recorded : List Row) : Prop where
  sorted : recorded.Pairwise fun a b => a.seq < b.seq
  positive : ∀ row ∈ recorded, 0 < row.seq
  linked : Linked sha256 genesis recorded
  hashes : ∀ row ∈ recorded, fits 64 row.hash = true ∧ row.hash ≠ ""
  rows : trail.rows = recorded.filter (survives trail.anchors)
  anchored : ∀ anchor ∈ trail.anchors, ∃ row ∈ recorded,
    row.seq = anchor.removedThroughSeq ∧ row.hash = anchor.removedThroughHash

theorem newest_spec {anchors : List Anchor} {anchor : Anchor} (h : newest anchors = some anchor) :
    anchor ∈ anchors ∧ ∀ other ∈ anchors, other.removedThroughSeq ≤ anchor.removedThroughSeq := by
  have hperm := List.perm_insertionSort
    (fun a b : Anchor => a.removedThroughSeq ≤ b.removedThroughSeq) anchors
  refine ⟨hperm.mem_iff.mp (List.mem_of_getLast? h), fun other hother => ?_⟩
  have hin := hperm.mem_iff.mpr hother
  have htotal : Std.Total fun a b : Anchor => a.removedThroughSeq ≤ b.removedThroughSeq :=
    ⟨fun a b => le_total a.removedThroughSeq b.removedThroughSeq⟩
  have htrans : IsTrans Anchor fun a b => a.removedThroughSeq ≤ b.removedThroughSeq :=
    ⟨fun _ _ _ => le_trans⟩
  have hsorted := List.pairwise_insertionSort
    (fun a b : Anchor => a.removedThroughSeq ≤ b.removedThroughSeq) anchors
  obtain ⟨init, hinit⟩ := List.getLast?_eq_some_iff.mp h
  rw [hinit] at hin hsorted
  rcases List.mem_append.mp hin with hin | hin
  · exact (List.pairwise_append.mp hsorted).2.2 other hin anchor (by simp)
  · rw [List.mem_singleton.mp hin]

theorem newest_eq_none {anchors : List Anchor} : newest anchors = none ↔ anchors = [] := by
  unfold newest
  rw [List.getLast?_eq_none_iff, ← List.length_eq_zero_iff,
    (List.perm_insertionSort _ _).length_eq, List.length_eq_zero_iff]

theorem removed_of_newest {anchors : List Anchor} {anchor : Anchor}
    (h : newest anchors = some anchor) (recorded : List Row) :
    removed anchors recorded = Keyset.upTo Row.seq anchor.removedThroughSeq recorded := by
  obtain ⟨hmem, hmax⟩ := newest_spec h
  refine List.filter_congr fun row _ => ?_
  unfold survives
  by_cases hle : row.seq ≤ anchor.removedThroughSeq
  · have hnot : (anchors.all fun a => a.removedThroughSeq < row.seq) = false := by
      rw [List.all_eq_false]
      exact ⟨anchor, hmem, by simpa using hle⟩
    simp [hnot, hle]
  · have hall : (anchors.all fun a => a.removedThroughSeq < row.seq) = true := by
      rw [List.all_eq_true]
      intro other hother
      have := hmax other hother
      simp only [decide_eq_true_eq]
      omega
    simp [hall, hle]

namespace Kept

variable {trail : Trail} {recorded : List Row}

theorem split (h : Kept sha256 trail recorded) :
    removed trail.anchors recorded ++ trail.rows = recorded := by
  rw [h.rows]
  refine Keyset.filter_append_filter (h.sorted.imp fun hlt hsurvives => ?_)
  unfold survives at *
  rw [List.all_eq_true] at *
  intro anchor hanchor
  have := hsurvives anchor hanchor
  simp only [decide_eq_true_eq] at *
  omega

theorem mem_recorded (h : Kept sha256 trail recorded) {row : Row} (hrow : row ∈ trail.rows) :
    row ∈ recorded := by
  rw [h.rows] at hrow
  exact (List.mem_filter.mp hrow).1

/-- **The surviving chain begins where the removed part ended.** -/
theorem startingHash_eq (h : Kept sha256 trail recorded) :
    startingHash trail.anchors = headFrom genesis (removed trail.anchors recorded) := by
  cases hnewest : newest trail.anchors with
  | none =>
    have hnone : trail.anchors = [] := newest_eq_none.mp hnewest
    simp [hnone, removed, survives, startingHash]
  | some anchor =>
    obtain ⟨hmem, -⟩ := newest_spec hnewest
    obtain ⟨row, hrow, hseq, hhash⟩ := h.anchored anchor hmem
    have hlast : (removed trail.anchors recorded).getLast? = some row := by
      rw [removed_of_newest hnewest, ← hseq]
      exact Keyset.getLast?_upTo h.sorted hrow
    have hstart : startingHash trail.anchors =
        if anchor.removedThroughHash = "" then genesis else anchor.removedThroughHash := by
      unfold newest at hnewest
      unfold startingHash
      rw [hnewest]
    have hne : anchor.removedThroughHash ≠ "" := hhash ▸ (h.hashes row hrow).2
    rw [hstart, if_neg hne, ← hhash]
    unfold headFrom
    rw [hlast]

theorem headFrom_eq (h : Kept sha256 trail recorded) :
    headFrom (startingHash trail.anchors) trail.rows = headFrom genesis recorded := by
  have hsplit := h.split
  rw [h.startingHash_eq]
  conv_rhs => rw [← hsplit]
  unfold headFrom
  rw [List.getLast?_append]
  cases trail.rows.getLast? <;> rfl

theorem chained (h : Kept sha256 trail recorded) : Chained sha256 trail := by
  have hlinked := h.linked
  rw [← h.split] at hlinked
  obtain ⟨-, hrows⟩ := linked_append.mp hlinked
  refine ⟨?_, fun row hrow => h.positive row (h.mem_recorded hrow), ?_, ?_⟩
  · rw [h.rows]
    exact h.sorted.sublist List.filter_sublist
  · rw [h.startingHash_eq]
    exact hrows
  · rw [h.headFrom_eq]
    unfold headFrom
    cases hlast : recorded.getLast? with
    | none => decide +kernel
    | some row => exact (h.hashes row (List.mem_of_getLast? hlast)).1

/-! ## A pass -/

theorem survives_cutAt (trail : Trail) (throughSeq : Int) (throughHash : String) (row : Row) :
    survives (cutAt trail throughSeq throughHash).anchors row =
      (survives trail.anchors row && decide (throughSeq < row.seq)) := by
  simp [survives, cutAt]

/-- **A cut at an event there has been** keeps the chain. -/
theorem cut (h : Kept sha256 trail recorded) {row : Row} (hrow : row ∈ recorded) :
    Kept sha256 (cutAt trail row.seq row.hash) recorded := by
  refine ⟨h.sorted, h.positive, h.linked, h.hashes, ?_, ?_⟩
  · have hcut : (cutAt trail row.seq row.hash).rows =
        (recorded.filter (survives trail.anchors)).filter fun other => row.seq < other.seq := by
      rw [← h.rows]
      rfl
    rw [hcut, List.filter_filter]
    refine List.filter_congr fun other _ => ?_
    rw [survives_cutAt, Bool.and_comm]
  · intro anchor hanchor
    rcases List.mem_append.mp hanchor with hanchor | hanchor
    · exact h.anchored anchor hanchor
    · rw [List.mem_singleton.mp hanchor]
      exact ⟨row, hrow, rfl, rfl⟩

theorem removed_cut (h : Kept sha256 trail recorded) (throughSeq : Int) (throughHash : String) :
    removed (cutAt trail throughSeq throughHash).anchors recorded =
      removed trail.anchors recorded ++ trail.rows.filter fun row => row.seq ≤ throughSeq := by
  have hfront : removed (cutAt trail throughSeq throughHash).anchors
      (removed trail.anchors recorded) = removed trail.anchors recorded := by
    refine List.filter_eq_self.mpr fun row hrow => ?_
    have hgone := (List.mem_filter.mp hrow).2
    rw [survives_cutAt]
    simp only [Bool.not_eq_true'] at hgone
    simp [hgone]
  have hback : removed (cutAt trail throughSeq throughHash).anchors trail.rows =
      trail.rows.filter fun row => row.seq ≤ throughSeq := by
    refine List.filter_congr fun row hrow => ?_
    rw [h.rows] at hrow
    have hhere := (List.mem_filter.mp hrow).2
    rw [survives_cutAt, hhere, Bool.true_and, ← decide_not]
    exact decide_eq_decide.mpr not_lt
  have hsplit := h.split
  conv_lhs => rw [← hsplit]
  unfold removed at *
  rw [List.filter_append, hfront, hback]

end Kept

/-! ## A record -/

/-- The event of the call reads back as it was hashed, or is refused. -/
def Sound (sha256 : String → String) (trail : Trail) (call : RecordCall) : Prop :=
  call.keeps = true ∨ record sha256 trail call = trail

theorem AddedBy.hash_eq {trail : Trail} {call : RecordCall} {added : Row}
    (h : AddedBy sha256 trail call added) : ∃ text, added.hash = sha256 text := by
  obtain ⟨text, -, htext⟩ := Eff.except_bind_eq_ok.mp h.hash
  exact ⟨previousHash trail ++ text, (Except.ok.inj htext).symm⟩

/-- **A record** adds an event to the chain, or nothing. -/
theorem Kept.record {trail : Trail} {recorded : List Row} (h : Kept sha256 trail recorded)
    (hsha : ∀ s, fits 64 (sha256 s) = true ∧ sha256 s ≠ "") {call : RecordCall}
    (hsound : Sound sha256 trail call) (hpos : 0 < call.seq)
    (hseq : ∀ row ∈ recorded, row.seq < call.seq)
    (hnew : ∀ row ∈ trail.rows, row.columns.eventId ≠ call.eventId)
    (hid : fits 64 call.eventId = true) :
    ∃ new, (∀ row ∈ new, row.seq = call.seq) ∧
      Audit.record sha256 trail call = { trail with rows := trail.rows ++ new } ∧
      Kept sha256 { trail with rows := trail.rows ++ new } (recorded ++ new) := by
  rcases hsound with hkeeps | hrefused
  · have hdraws : Draws trail call :=
      ⟨hpos, fun row hrow => hseq row (h.mem_recorded hrow), hnew, hid⟩
    obtain ⟨row, hadded, hrecord, hchained⟩ :=
      h.chained.record (fun s => (hsha s).1) hdraws hkeeps
    have habove : ∀ other ∈ recorded, other.seq < row.seq := fun other hother =>
      hadded.seq.symm ▸ hseq other hother
    refine ⟨[row], by simp [hadded.seq], hrecord, ?_, ?_, ?_, ?_, ?_, ?_⟩
    · rw [List.pairwise_append]
      refine ⟨h.sorted, List.pairwise_singleton _ _, fun other hother added ha => ?_⟩
      rw [List.mem_singleton.mp ha]
      exact habove other hother
    · intro other hother
      rcases List.mem_append.mp hother with hother | hother
      · exact h.positive other hother
      · rw [List.mem_singleton.mp hother, hadded.seq]
        exact hpos
    · have hlast := (linked_append.mp hchained.linked).2
      rw [h.headFrom_eq] at hlast
      exact linked_append.mpr ⟨h.linked, hlast⟩
    · intro other hother
      rcases List.mem_append.mp hother with hother | hother
      · exact h.hashes other hother
      · obtain ⟨text, htext⟩ := hadded.hash_eq
        rw [List.mem_singleton.mp hother, htext]
        exact hsha text
    · -- the new event is above every anchor, for those are at events there have been
      have hsurvives : survives trail.anchors row = true := by
        unfold survives
        rw [List.all_eq_true]
        intro anchor hanchor
        obtain ⟨other, hother, hat, -⟩ := h.anchored anchor hanchor
        simpa [← hat] using habove other hother
      rw [List.filter_append, ← h.rows, List.filter_cons_of_pos hsurvives, List.filter_nil]
    · intro anchor hanchor
      obtain ⟨other, hother, hat⟩ := h.anchored anchor hanchor
      exact ⟨other, List.mem_append_left _ hother, hat⟩
  · refine ⟨[], by simp, by simpa using hrefused, ?_⟩
    simpa using h

theorem removed_record {trail : Trail} {recorded new : List Row}
    (h : Kept sha256 { trail with rows := trail.rows ++ new } (recorded ++ new))
    (hrows : trail.rows = recorded.filter (survives trail.anchors)) :
    removed trail.anchors (recorded ++ new) = removed trail.anchors recorded := by
  have hnew : new.filter (survives trail.anchors) = new := by
    have hall := h.rows
    rw [List.filter_append, ← hrows] at hall
    exact (List.append_cancel_left hall).symm
  have hnone : removed trail.anchors new = [] := by
    refine List.filter_eq_nil_iff.mpr fun row hrow => ?_
    have := List.filter_eq_self.mp hnew row hrow
    simp [this]
  unfold removed at *
  rw [List.filter_append, hnone, List.append_nil]

/-! ## Histories -/

/-- What the amended history takes: events that read back as they were hashed or are refused,
those of the passes included, and passes with batches of some size. -/
def Move.Sound (sha256 : String → String) (trail : Trail) : Move → Prop
  | .record call => Audit.Sound sha256 trail call
  | .prune call => call.batch ≠ 0 ∧ ∀ throughSeq throughHash,
      boundary trail.rows call.cutoff = some (throughSeq, throughHash) →
        Audit.Sound sha256 (cutAt trail throughSeq throughHash)
          (call.noted (trail.rows.filter fun row => row.seq ≤ throughSeq).length throughSeq)

/-- What holds of a ledger after every call: one chain, of which what was removed has gone to
the sinks. -/
structure Ledger.Whole (sha256 : String → String) (ledger : Ledger) : Prop where
  kept : Kept sha256 ledger.trail ledger.recorded
  drawn : ∀ row ∈ ledger.recorded, row.seq ≤ ledger.lastSeq
  counted : 0 ≤ ledger.lastSeq
  received : ledger.received = removed ledger.trail.anchors ledger.recorded

theorem new_of_step {lastSeq seq : Int} {old new : List Row} (hlt : lastSeq < seq)
    (hold : ∀ row ∈ old, row.seq ≤ lastSeq) (hnew : ∀ row ∈ new, row.seq = seq) :
    (old ++ new).filter (fun row => lastSeq < row.seq) = new := by
  rw [List.filter_append]
  have hnone : old.filter (fun row => lastSeq < row.seq) = [] := by
    refine List.filter_eq_nil_iff.mpr fun row hrow => ?_
    simpa using hold row hrow
  have hall : new.filter (fun row => lastSeq < row.seq) = new := by
    refine List.filter_eq_self.mpr fun row hrow => ?_
    simpa [hnew row hrow] using hlt
  rw [hnone, hall, List.nil_append]

/-- The ledger behind a call, from what the call does to the tables: it leaves `mid`, and
adds `new`. -/
theorem Ledger.Whole.of_kept {ledger : Ledger} (h : ledger.Whole sha256) {move : Move}
    (hlt : ledger.lastSeq < move.seq) {mid : Trail} {new : List Row}
    (htrail : move.trail sha256 ledger.trail = { mid with rows := mid.rows ++ new })
    (hmid : mid.rows.Sublist ledger.trail.rows) (hnew : ∀ row ∈ new, row.seq = move.seq)
    (hkept : Kept sha256 { mid with rows := mid.rows ++ new } (ledger.recorded ++ new))
    (hrows : mid.rows = ledger.recorded.filter (survives mid.anchors))
    (hreceived : (ledger.step sha256 move).received = removed mid.anchors ledger.recorded) :
    (ledger.step sha256 move).Whole sha256 := by
  have hrecorded : (ledger.step sha256 move).recorded = ledger.recorded ++ new := by
    unfold Ledger.step
    simp only [htrail]
    rw [new_of_step hlt (fun row hrow => ?_) hnew]
    exact h.drawn row (h.kept.mem_recorded (hmid.subset hrow))
  have hstep : (ledger.step sha256 move).trail = { mid with rows := mid.rows ++ new } := htrail
  have hcounted := h.counted
  refine ⟨?_, ?_, ?_, ?_⟩
  · rw [hstep, hrecorded]
    exact hkept
  · intro row hrow
    have hlast : (ledger.step sha256 move).lastSeq = move.seq := rfl
    rw [hlast]
    rw [hrecorded] at hrow
    rcases List.mem_append.mp hrow with hrow | hrow
    · exact le_of_lt (lt_of_le_of_lt (h.drawn row hrow) hlt)
    · exact le_of_eq (hnew row hrow)
  · exact le_of_lt (lt_of_le_of_lt hcounted hlt)
  · rw [hreceived, hstep, hrecorded, removed_record hkept hrows]

theorem Ledger.Whole.of_unchanged {ledger : Ledger} (h : ledger.Whole sha256) {move : Move}
    (hlt : ledger.lastSeq < move.seq) (htrail : move.trail sha256 ledger.trail = ledger.trail)
    (hreceived : (ledger.step sha256 move).received = ledger.received) :
    (ledger.step sha256 move).Whole sha256 := by
  have hkept : Kept sha256 { ledger.trail with rows := ledger.trail.rows ++ [] }
      (ledger.recorded ++ []) := by simpa using h.kept
  exact h.of_kept hlt (by simpa using htrail) (List.Sublist.refl _) (by simp) hkept h.kept.rows
    (hreceived.trans h.received)

/-- **Every call keeps the chain whole.** -/
theorem Ledger.Whole.step {ledger : Ledger} (h : ledger.Whole sha256)
    (hsha : ∀ s, fits 64 (sha256 s) = true ∧ sha256 s ≠ "") {move : Move}
    (hdraws : ledger.Draws move) (hsound : move.Sound sha256 ledger.trail) :
    (ledger.step sha256 move).Whole sha256 := by
  obtain ⟨hlt, hids, hid⟩ := hdraws
  have hcounted := h.counted
  have hpos : 0 < move.seq := by omega
  have hbelow : ∀ row ∈ ledger.recorded, row.seq < move.seq := fun row hrow =>
    lt_of_le_of_lt (h.drawn row hrow) hlt
  cases move with
  | record call =>
    obtain ⟨new, hnew, hrecord, hkept⟩ := h.kept.record hsha hsound hpos hbelow hids hid
    refine h.of_kept hlt hrecord (List.Sublist.refl _) hnew hkept h.kept.rows ?_
    exact (List.append_nil _).trans h.received
  | prune call =>
    rcases prune_cases sha256 ledger.trail call with
      ⟨-, hprune⟩ | ⟨exported, e, hprune⟩ |
        ⟨throughSeq, throughHash, exported, hboundary, hexport, hprune⟩
    · refine h.of_unchanged hlt (congrArg Pass.trail hprune) ?_
      have hnone : (prune sha256 ledger.trail call).received = [] := congrArg Pass.received hprune
      simp only [Ledger.step, hnone, List.append_nil]
    · refine h.of_unchanged hlt (congrArg Pass.trail hprune) ?_
      have hnone : (prune sha256 ledger.trail call).received = [] := congrArg Pass.received hprune
      simp only [Ledger.step, hnone, List.append_nil]
    · obtain ⟨hbatch, hnoted⟩ := hsound
      obtain ⟨row, hrow, rfl, rfl, -, -⟩ := boundary_eq_some hboundary
      have hchained := h.kept.chained
      have hnodup : (ledger.trail.rows.map Row.seq).Nodup :=
        List.pairwise_map.mpr (hchained.sorted.imp fun hlt => ne_of_lt hlt)
      have htook : exported = ledger.trail.rows.filter fun other => other.seq ≤ row.seq := by
        rw [exportRows_eq hnodup hchained.positive hexport, if_neg hbatch]
        exact bySeq_of_sorted (hchained.sorted.sublist List.filter_sublist)
      have hcut := h.kept.cut (h.kept.mem_recorded hrow)
      have hsub : (cutAt ledger.trail row.seq row.hash).rows.Sublist ledger.trail.rows :=
        List.filter_sublist
      have hsound : Audit.Sound sha256 (cutAt ledger.trail row.seq row.hash)
          (call.noted exported.length row.seq) := by
        rw [htook]
        exact hnoted _ _ hboundary
      obtain ⟨new, hnew, hrecord, hkept⟩ := hcut.record hsha hsound hpos hbelow
        (fun other hother => hids other (hsub.subset hother)) hid
      refine h.of_kept hlt ((congrArg Pass.trail hprune).trans hrecord) hsub hnew hkept hcut.rows ?_
      have hreceived : (prune sha256 ledger.trail call).received = exported :=
        congrArg Pass.received hprune
      rw [h.kept.removed_cut, ← htook, ← h.received]
      simp only [Ledger.step, hreceived]

/-- **One chain.**  After any history of records and passes, with any timestamps, cutoffs,
sinks and batch sizes: the rows verify from the newest anchor, or from genesis if there is
none; what the sinks of the passes that came to an end received, and then the rows, is every
event there has been, in order and once each; and a pass that raises leaves rows and anchors
as they were. -/
theorem one_chain (hsha : ∀ s, fits 64 (sha256 s) = true ∧ sha256 s ≠ "") {moves : List Move}
    {ledger : Ledger}
    (hrun : Run (fun ledger move => ledger.Draws move ∧ move.Sound sha256 ledger.trail)
      (Ledger.step sha256) Ledger.empty moves ledger) :
    (∀ reorder : List (Key × Value) → List (Key × Value), (∀ l, (reorder l).Perm l) →
        verifyFrom sha256 (startingHash ledger.trail.anchors)
          ((bySeq ledger.trail.rows).map (Row.read reorder)) = .ok none) ∧
      ledger.received ++ bySeq ledger.trail.rows = ledger.recorded ∧
      (ledger.recorded.Pairwise fun a b => a.seq < b.seq) ∧
      ∀ (call : PruneCall) (e : PruneError), (prune sha256 ledger.trail call).result = .error e →
        (prune sha256 ledger.trail call).trail = ledger.trail := by
  have hempty : Ledger.empty.Whole sha256 := by
    refine ⟨⟨List.Pairwise.nil, ?_, trivial, ?_, rfl, ?_⟩, ?_, le_refl 0, rfl⟩ <;>
      simp [Ledger.empty]
  have hwhole : ledger.Whole sha256 :=
    hrun.invariant (fun _ _ h ha => h.step hsha ha.1 ha.2) hempty
  have hchained := hwhole.kept.chained
  rw [bySeq_of_sorted hchained.sorted]
  refine ⟨fun reorder hreorder => ?_, ?_, hwhole.kept.sorted, fun call e => trail_of_error⟩
  · exact verifyRows_of_linked hreorder hchained.linked hchained.sorted (by simp)
  · rw [hwhole.received]
    exact hwhole.kept.split

end Hash

/-! ### A pass, and one that fails half way -/

theorem keeps_noted : (marchPass.noted 1 1).keeps = true := by decide +kernel

/-- The pass of the example hands the January event over, and one chain is left. -/
theorem one_chain_marchPass :
    ∃ ledger, Run (fun ledger move => ledger.Draws move ∧ move.Sound sampleSha256 ledger.trail)
        (Ledger.step sampleSha256) Ledger.empty
        [.record (januaryCall 1), .record (mayCall 2), .prune marchPass] ledger ∧
      (∀ reorder : List (Key × Value) → List (Key × Value), (∀ l, (reorder l).Perm l) →
        verifyFrom sampleSha256 (startingHash ledger.trail.anchors)
          ((bySeq ledger.trail.rows).map (Row.read reorder)) = .ok none) ∧
      ledger.received ++ bySeq ledger.trail.rows = ledger.recorded := by
  obtain ⟨first, second, hfirst, hsecond, hrun⟩ :=
    two_records (fun s => (fits_sampleSha256 s).1) january_may
  have hdraws := draws_marchPass hfirst hsecond (by decide) (by decide)
  have hseq : first.seq = 1 := hfirst.seq
  have hseq' : second.seq = 2 := hsecond.seq
  have hat : first.columns.occurredAt = 1767225600000000 := hfirst.occurredAt
  have hat' : second.columns.occurredAt = 1780185600000000 := hsecond.occurredAt
  have hcutoff : marchPass.cutoff = 1771545600000000 := by decide
  have hboundary : boundary [first, second] marchPass.cutoff = some (1, first.hash) := by
    simp [boundary, bySeq, hat, hat', hcutoff, hseq]
  have hsound : (Move.prune marchPass).Sound sampleSha256 ⟨[first, second], []⟩ := by
    refine ⟨by decide, fun throughSeq throughHash h => .inl ?_⟩
    obtain ⟨rfl, rfl⟩ := Prod.mk.inj (Option.some.inj (hboundary.symm.trans h))
    have hone : ([first, second].filter fun row => row.seq ≤ 1).length = 1 := by
      simp [hseq, hseq']
    rw [hone]
    exact keeps_noted
  have hsounds : ∀ move ∈ [Move.record (januaryCall 1), .record (mayCall 2)], ∀ ledger : Ledger,
      move.Sound sampleSha256 ledger.trail := by
    simp only [List.mem_cons, List.not_mem_nil, or_false, forall_eq_or_imp, forall_eq]
    exact ⟨fun _ => .inl january_may.keeps.1, fun _ => .inl january_may.keeps.2⟩
  have hall := Run.append_iff.mpr
    ⟨_, hrun.and_of_forall hsounds, Run.cons_iff.mpr ⟨⟨hdraws, hsound⟩, .nil _⟩⟩
  obtain ⟨hverify, hwhole, -, -⟩ := one_chain fits_sampleSha256 hall
  exact ⟨_, hall, hverify, hwhole⟩

/-- The pass, with everything past retention, one event a batch and a sink that raises when it
is handed the second. -/
def failingPass : PruneCall :=
  { marchPass with
    olderThan := 299 * 86400000000
    sink := fun taken _ => taken = 0
    batch := 1 }

/-- **A sink that raises has taken what it took before**, and is handed it again by the next
pass: what the sinks received and what is left is not every event once. -/
theorem not_taken_once :
    ¬ ∀ (moves : List Move) (ledger : Ledger),
      Run Ledger.Draws (Ledger.step sampleSha256) Ledger.empty moves ledger →
      verifyFrom sampleSha256 (startingHash ledger.trail.anchors)
          ((bySeq ledger.trail.rows).map (Row.read id)) = .ok none ∧
        ledger.taken ++ bySeq ledger.trail.rows = ledger.recorded := by
  intro h
  obtain ⟨first, second, hfirst, hsecond, hrun⟩ :=
    two_records (fun s => (fits_sampleSha256 s).1) january_may
  have hdraws : Ledger.Draws ⟨⟨[first, second], []⟩, 2, [first, second], [], []⟩
      (.prune failingPass) := draws_marchPass hfirst hsecond (by decide) (by decide)
  have hseq : first.seq = 1 := hfirst.seq
  have hseq' : second.seq = 2 := hsecond.seq
  have hat : first.columns.occurredAt = 1767225600000000 := hfirst.occurredAt
  have hat' : second.columns.occurredAt = 1780185600000000 := hsecond.occurredAt
  have hcutoff : failingPass.cutoff = 1780272000000000 := by decide
  have hboundary : boundary [first, second] failingPass.cutoff = some (2, second.hash) := by
    simp [boundary, bySeq, hat, hat', hcutoff, hseq, hseq']
  have hloop : exportLoop failingPass.sink 1 [first, second] 0 0 = ([first], false) := by
    have hpage : page 1 [first, second] 0 = [first] := by simp [page, bySeq, hseq, hseq']
    have hpage' : page 1 [first, second] 1 = [second] := by simp [page, bySeq, hseq, hseq']
    have hlast : (page 1 [first, second] 0).getLast? = some first := by rw [hpage]; rfl
    have hlast' : (page 1 [first, second] 1).getLast? = some second := by rw [hpage']; rfl
    rw [exportLoop_of_some hlast, hseq, exportLoop_of_some hlast', hpage]
    rfl
  have hprune : prune sampleSha256 ⟨[first, second], []⟩ failingPass =
      ⟨⟨[first, second], []⟩, [first], .error .sink⟩ := by
    have hold : [first, second].filter (fun row => row.seq ≤ 2) = [first, second] := by
      simp [hseq, hseq']
    have hexport : exportRows failingPass.sink failingPass.batch [first, second] 2 =
        ([first], .error .sink) := by
      unfold exportRows
      rw [hold]
      change (if (1 : Int) < 0 then _ else _) = _
      rw [if_neg (by decide)]
      change (let done := exportLoop failingPass.sink 1 [first, second] 0 0
        (done.1, if done.2 then Except.ok () else Except.error PruneError.sink)) = _
      rw [hloop]
      rfl
    unfold prune
    rw [hboundary]
    simp only [hexport]
  have hall := Run.append_iff.mpr ⟨_, hrun, Run.cons_iff.mpr ⟨hdraws, .nil _⟩⟩
  have hwhole := congrArg List.length (h _ _ hall).2
  have htrail : (Move.prune failingPass).trail sampleSha256 ⟨[first, second], []⟩ =
      ⟨[first, second], []⟩ := congrArg Pass.trail hprune
  have hlast : (mayCall 2).seq = 2 := rfl
  simp [Ledger.step, htrail, hprune, bySeq, hseq, hseq', hlast] at hwhole

end Audit
end CampusID
