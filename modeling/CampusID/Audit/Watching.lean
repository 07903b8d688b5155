import CampusID.Audit.Batches
import CampusID.Audit.Pruning

/-!
# Verifying while others write

A walk of `verify_chain` reads the newest anchor in one session of the database and every
batch in another, and events are recorded and passes made between them.  A pass reads its
boundary, and later deletes up to it and leaves its anchor in one transaction.

`Watched.position` is the sequence number that the hash the walk carries belongs to: that of
the anchor it has read, and then that of the last row of the last batch.  The next row it is
given links to that hash as long as no pass has cut beyond that position in the meantime;
`never_cries_wolf` is the walk under that condition, and `cries_wolf` what happens without
it.
-/

namespace CampusID
namespace Audit

open Lib

/-! ## The system -/

/-- How far the walk has got. -/
inductive Walk where
  | idle
  | reading (expected : String) (lastSeq : Int)
  | done (result : Except WriteError (Option Broken))

/-- The tables, and one walk.  Besides: the last sequence number given out, every event there
has been, the boundaries that passes have read, and where the walk is. -/
structure Watched where
  trail : Trail
  lastSeq : Int
  recorded : List Row
  boundaries : List (Int × String)
  walk : Walk
  position : Int

/-- One transaction: a record, a pass reading its boundary, its delete and anchor, the walk
reading the newest anchor, and the walk reading a batch. -/
inductive Transaction where
  | record (call : RecordCall)
  | choose (cutoff : Int)
  | cut (throughSeq : Int) (throughHash : String)
  | begin
  | read

/-- Nothing has happened yet. -/
def Watched.start : Watched := ⟨⟨[], []⟩, 0, [], [], .idle, 0⟩

/-- A record draws a number and an identifier, a pass deletes up to a boundary it has read,
and the walk reads the anchor first and then batches until it is done. -/
def Watched.Allowed (w : Watched) : Transaction → Prop
  | .record call => w.lastSeq < call.seq ∧
      (∀ row ∈ w.trail.rows, row.columns.eventId ≠ call.eventId) ∧ fits 64 call.eventId = true
  | .choose _ => True
  | .cut throughSeq throughHash => (throughSeq, throughHash) ∈ w.boundaries
  | .begin => w.walk = .idle
  | .read => ∃ expected lastSeq, w.walk = .reading expected lastSeq

section Hash

variable (sha256 : String → String) (reorder : List (Key × Value) → List (Key × Value))
  (batch : Nat)

/-- One turn of the loop of `verify_chain`. -/
def Walk.next (rows : List Row) (expected : String) (lastSeq : Int) : Walk :=
  match (page batch rows lastSeq).getLast? with
  | none => .done (.ok none)
  | some last =>
    match verifyFrom sha256 expected ((page batch rows lastSeq).map (Row.read reorder)) with
    | .error e => .done (.error e)
    | .ok (some broken) => .done (.ok (some broken))
    | .ok none => .reading last.hash last.seq

theorem verifyPages_eq_next (rows : List Row) (expected : String) (lastSeq : Int) :
    verifyPages sha256 reorder batch rows expected lastSeq =
      match Walk.next sha256 reorder batch rows expected lastSeq with
      | .idle => .ok none
      | .reading expected' lastSeq' =>
        verifyPages sha256 reorder batch rows expected' lastSeq'
      | .done result => result := by
  unfold Walk.next
  cases hlast : (page batch rows lastSeq).getLast? with
  | none => exact verifyPages_of_none hlast expected
  | some last =>
    rw [verifyPages_of_some hlast expected]
    rcases verifyFrom sha256 expected ((page batch rows lastSeq).map (Row.read reorder)) with
      e | (- | broken)
    · rfl
    · rfl
    · rfl

/-- One transaction. -/
def Watched.step (w : Watched) : Transaction → Watched
  | .record call =>
    let trail := Audit.record sha256 w.trail call
    { w with
      trail := trail
      lastSeq := call.seq
      recorded := w.recorded ++ trail.rows.filter fun row => w.lastSeq < row.seq }
  | .choose cutoff =>
    { w with boundaries := w.boundaries ++ (boundary w.trail.rows cutoff).toList }
  | .cut throughSeq throughHash => { w with trail := cutAt w.trail throughSeq throughHash }
  | .begin =>
    { w with
      walk := .reading (startingHash w.trail.anchors) 0
      position := ((newest w.trail.anchors).map Anchor.removedThroughSeq).getD 0 }
  | .read =>
    match w.walk with
    | .reading expected lastSeq =>
      { w with
        walk := Walk.next sha256 reorder batch w.trail.rows expected lastSeq
        position := ((page batch w.trail.rows lastSeq).getLast?.map Row.seq).getD w.position }
    | _ => w

/-- **The condition.**  What is recorded reads back as it was hashed, or is refused; and when
the walk reads a batch with something in it, no pass has cut beyond where the walk is. -/
def Watched.Calm (w : Watched) : Transaction → Prop
  | .record call => Sound sha256 w.trail call
  | .read => ∀ expected lastSeq, w.walk = .reading expected lastSeq →
      page batch w.trail.rows lastSeq = [] ∨
        ∀ anchor ∈ w.trail.anchors, anchor.removedThroughSeq ≤ w.position
  | _ => True

variable {sha256 reorder batch}

/-! ## The invariant -/

/-- What holds of the walk.  While it reads, the hash it carries is the one the events up to
its position end on, and its cursor is that position, or still 0. -/
def Watched.Walks (w : Watched) : Prop :=
  match w.walk with
  | .idle => True
  | .reading expected lastSeq =>
    expected = headFrom genesis (Keyset.upTo Row.seq w.position w.recorded) ∧
      0 ≤ w.position ∧ w.position ≤ w.lastSeq ∧
      (lastSeq = w.position ∨ lastSeq = 0 ∧ (w.position = 0 ∨
        ∃ anchor ∈ w.trail.anchors, anchor.removedThroughSeq = w.position))
  | .done result => result = .ok none

/-- What holds of the system. -/
structure Watched.Steady (sha256 : String → String) (w : Watched) : Prop where
  kept : Kept sha256 w.trail w.recorded
  drawn : ∀ row ∈ w.recorded, row.seq ≤ w.lastSeq
  counted : 0 ≤ w.lastSeq
  chosen : ∀ through ∈ w.boundaries, ∃ row ∈ w.recorded,
    row.seq = through.1 ∧ row.hash = through.2
  walks : w.Walks

theorem upTo_append_new {position : Int} {recorded new : List Row}
    (h : ∀ row ∈ new, position < row.seq) :
    Keyset.upTo Row.seq position (recorded ++ new) = Keyset.upTo Row.seq position recorded := by
  have hnone : Keyset.upTo Row.seq position new = [] := by
    refine List.filter_eq_nil_iff.mpr fun row hrow => ?_
    simpa using h row hrow
  unfold Keyset.upTo at *
  rw [List.filter_append, hnone, List.append_nil]

namespace Watched.Steady

variable {w : Watched}

theorem record (h : w.Steady sha256) (hsha : ∀ s, fits 64 (sha256 s) = true ∧ sha256 s ≠ "")
    {call : RecordCall} (hallowed : w.Allowed (.record call))
    (hsound : Sound sha256 w.trail call) :
    (w.step sha256 reorder batch (.record call)).Steady sha256 := by
  obtain ⟨hlt, hids, hid⟩ := hallowed
  have hcounted := h.counted
  obtain ⟨new, hnew, hrecord, hkept⟩ := h.kept.record hsha hsound (by omega)
    (fun row hrow => lt_of_le_of_lt (h.drawn row hrow) hlt) hids hid
  have hrecorded : (w.step sha256 reorder batch (.record call)).recorded = w.recorded ++ new := by
    simp only [Watched.step, hrecord]
    rw [new_of_step hlt (fun row hrow => h.drawn row (h.kept.mem_recorded hrow)) hnew]
  have htrail : (w.step sha256 reorder batch (.record call)).trail =
      { w.trail with rows := w.trail.rows ++ new } := hrecord
  refine ⟨?_, ?_, ?_, ?_, ?_⟩
  · rw [htrail, hrecorded]
    exact hkept
  · intro row hrow
    rw [hrecorded] at hrow
    rcases List.mem_append.mp hrow with hrow | hrow
    · exact le_of_lt (lt_of_le_of_lt (h.drawn row hrow) hlt)
    · exact le_of_eq (hnew row hrow)
  · exact le_of_lt (lt_of_le_of_lt hcounted hlt)
  · intro through hthrough
    obtain ⟨row, hrow, hat⟩ := h.chosen through hthrough
    exact ⟨row, hrecorded ▸ List.mem_append_left _ hrow, hat⟩
  · have hwalks := h.walks
    unfold Watched.Walks at hwalks ⊢
    have hwalk : (w.step sha256 reorder batch (.record call)).walk = w.walk := rfl
    have hposition : (w.step sha256 reorder batch (.record call)).position = w.position := rfl
    rw [hwalk, hposition, hrecorded, htrail]
    cases hw : w.walk with
    | idle => trivial
    | done result => simpa [hw] using hwalks
    | reading expected lastSeq =>
      rw [hw] at hwalks
      obtain ⟨hexpected, hpos, hle, hcursor⟩ := hwalks
      refine ⟨?_, hpos, le_of_lt (lt_of_le_of_lt hle hlt), hcursor⟩
      rw [upTo_append_new fun row hrow => ?_]
      · exact hexpected
      · rw [hnew row hrow]
        exact lt_of_le_of_lt hle hlt

theorem choose (h : w.Steady sha256) (cutoff : Int) :
    (w.step sha256 reorder batch (.choose cutoff)).Steady sha256 := by
  refine ⟨h.kept, h.drawn, h.counted, fun through hthrough => ?_, h.walks⟩
  rcases List.mem_append.mp hthrough with hthrough | hthrough
  · exact h.chosen through hthrough
  · obtain ⟨row, hrow, hseq, hhash, -, -⟩ := boundary_eq_some (Option.mem_toList.mp hthrough)
    exact ⟨row, h.kept.mem_recorded hrow, hseq, hhash⟩

theorem cut (h : w.Steady sha256) {throughSeq : Int} {throughHash : String}
    (hallowed : w.Allowed (.cut throughSeq throughHash)) :
    (w.step sha256 reorder batch (.cut throughSeq throughHash)).Steady sha256 := by
  obtain ⟨row, hrow, rfl, rfl⟩ := h.chosen _ hallowed
  refine ⟨h.kept.cut hrow, h.drawn, h.counted, h.chosen, ?_⟩
  have hwalks := h.walks
  unfold Watched.Walks at hwalks ⊢
  change match w.walk with
    | .idle => True
    | .reading expected lastSeq => _
    | .done result => _
  cases hw : w.walk with
  | idle => trivial
  | done result => simpa [hw] using hwalks
  | reading expected lastSeq =>
    rw [hw] at hwalks
    obtain ⟨hexpected, hpos, hle, hcursor⟩ := hwalks
    refine ⟨hexpected, hpos, hle, hcursor.imp_right fun hzero => ⟨hzero.1, hzero.2.imp_right ?_⟩⟩
    rintro ⟨anchor, hanchor, hat⟩
    exact ⟨anchor, List.mem_append_left _ hanchor, hat⟩

theorem begin (h : w.Steady sha256) :
    (w.step sha256 reorder batch .begin).Steady sha256 := by
  refine ⟨h.kept, h.drawn, h.counted, h.chosen, ?_⟩
  change startingHash w.trail.anchors = _ ∧ _
  have hcounted := h.counted
  rw [h.kept.startingHash_eq]
  cases hnewest : newest w.trail.anchors with
  | none =>
    have hnone : Keyset.upTo Row.seq 0 w.recorded = [] := by
      refine List.filter_eq_nil_iff.mpr fun row hrow => ?_
      simpa using h.kept.positive row hrow
    have hposition : (w.step sha256 reorder batch .begin).position = 0 := by
      simp [Watched.step, hnewest]
    have hremoved : removed w.trail.anchors w.recorded = [] := by
      simp [removed, survives, newest_eq_none.mp hnewest]
    rw [hposition, hremoved]
    refine ⟨?_, le_refl 0, hcounted, .inl rfl⟩
    change _ = headFrom genesis (Keyset.upTo Row.seq 0 w.recorded)
    rw [hnone]
  | some anchor =>
    obtain ⟨hmem, -⟩ := newest_spec hnewest
    obtain ⟨row, hrow, hseq, -⟩ := h.kept.anchored anchor hmem
    have hposition : (w.step sha256 reorder batch .begin).position =
        anchor.removedThroughSeq := by
      simp [Watched.step, hnewest]
    rw [hposition, removed_of_newest hnewest]
    have hpos := h.kept.positive row hrow
    have hle := h.drawn row hrow
    refine ⟨rfl, by omega, ?_, .inr ⟨rfl, .inr ⟨anchor, hmem, rfl⟩⟩⟩
    exact hseq ▸ hle

/-- **A batch read in calm** is the events behind the position, in order. -/
theorem page_of_calm (h : w.Steady sha256) {expected : String} {lastSeq : Int}
    (hwalk : w.walk = .reading expected lastSeq)
    (hcalm : ∀ anchor ∈ w.trail.anchors, anchor.removedThroughSeq ≤ w.position) :
    page batch w.trail.rows lastSeq =
      (w.recorded.filter (Keyset.past Row.seq (some w.position))).take batch := by
  have hwalks := h.walks
  unfold Watched.Walks at hwalks
  rw [hwalk] at hwalks
  obtain ⟨-, hpos, -, hcursor⟩ := hwalks
  have hrows : (w.trail.rows.filter fun row => lastSeq < row.seq) =
      w.recorded.filter (Keyset.past Row.seq (some w.position)) := by
    rw [h.kept.rows, List.filter_filter]
    refine List.filter_congr fun row hrow => ?_
    rw [Keyset.past_some, Bool.eq_iff_iff, Bool.and_eq_true, decide_eq_true_eq, decide_eq_true_eq,
      survives, List.all_eq_true]
    constructor
    · rintro ⟨hlast, hsurvives⟩
      rcases hcursor with rfl | ⟨rfl, hzero | ⟨anchor, hanchor, hat⟩⟩
      · exact hlast
      · exact hzero ▸ hlast
      · exact hat ▸ of_decide_eq_true (hsurvives anchor hanchor)
    · intro hbehind
      refine ⟨?_, fun anchor hanchor => ?_⟩
      · rcases hcursor with rfl | ⟨rfl, -⟩
        · exact hbehind
        · exact lt_of_le_of_lt hpos hbehind
      · exact decide_eq_true (lt_of_le_of_lt (hcalm anchor hanchor) hbehind)
  unfold page
  rw [hrows, bySeq_of_sorted (h.kept.sorted.sublist List.filter_sublist)]

theorem read (h : w.Steady sha256) (hreorder : ∀ l, (reorder l).Perm l)
    (hcalm : w.Calm sha256 batch .read) :
    (w.step sha256 reorder batch .read).Steady sha256 := by
  cases hwalk : w.walk with
  | idle => simpa [Watched.step, hwalk] using h
  | done result => simpa [Watched.step, hwalk] using h
  | reading expected lastSeq =>
    have hstep : w.step sha256 reorder batch .read =
        { w with
          walk := Walk.next sha256 reorder batch w.trail.rows expected lastSeq
          position := ((page batch w.trail.rows lastSeq).getLast?.map Row.seq).getD w.position } := by
      simp only [Watched.step, hwalk]
    rw [hstep]
    refine ⟨h.kept, h.drawn, h.counted, h.chosen, ?_⟩
    cases hlast : (page batch w.trail.rows lastSeq).getLast? with
    | none =>
      have hnext : Walk.next sha256 reorder batch w.trail.rows expected lastSeq =
          .done (.ok none) := by
        simp only [Walk.next, hlast]
      simp only [hnext, Watched.Walks]
    | some last =>
      have hne : page batch w.trail.rows lastSeq ≠ [] := by
        intro hnil
        rw [hnil] at hlast
        cases hlast
      have hanchors := (hcalm expected lastSeq hwalk).resolve_left hne
      have hpage : page batch w.trail.rows lastSeq = _ := h.page_of_calm hwalk hanchors
      have hwalks := h.walks
      unfold Watched.Walks at hwalks
      rw [hwalk] at hwalks
      -- the events behind the position are linked from the hash that is carried
      have hlinked := h.kept.linked
      rw [← Keyset.upTo_append (c := w.position) (h.kept.sorted.imp fun hlt => le_of_lt hlt)]
        at hlinked
      have hbehind := (linked_append.mp hlinked).2
      rw [← hwalks.1, ← List.take_append_drop batch (w.recorded.filter _)] at hbehind
      have hsorted := h.kept.sorted.sublist
        ((List.take_sublist batch _).trans
          (List.filter_sublist (p := Keyset.past Row.seq (some w.position)) (l := w.recorded)))
      have hverify : verifyFrom sha256 expected
          ((page batch w.trail.rows lastSeq).map (Row.read reorder)) = .ok none := by
        rw [hpage]
        exact verifyRows_of_linked hreorder (linked_append.mp hbehind).1 hsorted (by simp)
      have hnext : Walk.next sha256 reorder batch w.trail.rows expected lastSeq =
          .reading last.hash last.seq := by
        simp only [Walk.next, hlast, hverify]
      have hmem : last ∈ w.recorded := by
        have := List.mem_of_getLast? hlast
        rw [hpage] at this
        exact (List.mem_filter.mp (List.mem_of_mem_take this)).1
      simp only [hnext, Watched.Walks, Option.map_some, Option.getD_some]
      refine ⟨?_, le_of_lt (h.kept.positive last hmem), h.drawn last hmem, .inl trivial⟩
      unfold headFrom
      rw [Keyset.getLast?_upTo h.kept.sorted hmem]

end Watched.Steady

/-- **Every calm transaction keeps the system steady.** -/
theorem Watched.Steady.step {w : Watched} (h : w.Steady sha256)
    (hsha : ∀ s, fits 64 (sha256 s) = true ∧ sha256 s ≠ "")
    (hreorder : ∀ l, (reorder l).Perm l) {transaction : Transaction}
    (hallowed : w.Allowed transaction) (hcalm : w.Calm sha256 batch transaction) :
    (w.step sha256 reorder batch transaction).Steady sha256 := by
  cases transaction with
  | record call => exact h.record hsha hallowed hcalm
  | choose cutoff => exact h.choose cutoff
  | cut throughSeq throughHash => exact h.cut hallowed
  | begin => exact h.begin
  | read => exact h.read hreorder hcalm

theorem steady_start : Watched.start.Steady sha256 := by
  refine ⟨⟨List.Pairwise.nil, ?_, trivial, ?_, rfl, ?_⟩, ?_, le_refl 0, ?_, trivial⟩ <;>
    simp [Watched.start]

/-- **Verification never cries wolf in calm.**  However records, passes and the transactions of
one walk come between each other, whatever the batch size: if every event recorded reads back
as it was hashed, or is refused, and no batch with something in it is read after a pass has
cut beyond where the walk is, then the walk reports no break. -/
theorem never_cries_wolf (hsha : ∀ s, fits 64 (sha256 s) = true ∧ sha256 s ≠ "")
    (hreorder : ∀ l, (reorder l).Perm l) {transactions : List Transaction} {w : Watched}
    (hrun : Run (fun w transaction => w.Allowed transaction ∧ w.Calm sha256 batch transaction)
      (Watched.step sha256 reorder batch) Watched.start transactions w)
    (result : Except WriteError (Option Broken)) (hdone : w.walk = .done result) :
    result = .ok none := by
  have hsteady : w.Steady sha256 :=
    hrun.invariant (fun _ _ h ha => h.step hsha hreorder ha.1 ha.2) steady_start
  have hwalks := hsteady.walks
  unfold Watched.Walks at hwalks
  rw [hdone] at hwalks
  exact hwalks

end Hash

/-! ### A pass between the anchor and the first batch -/

theorem hash_january {first : Row} (h : AddedBy sampleSha256 (emptied []) (januaryCall 1) first) :
    first.hash = januaryHash := by
  obtain ⟨text, htext, hhash⟩ := Eff.except_bind_eq_ok.mp h.hash
  rw [← Except.ok.inj hhash]
  have hprev : previousHash (emptied []) = genesis := rfl
  simp [sampleSha256, tabulated, htext, hprev]

theorem run_two {first second : Row}
    (hfirst : AddedBy sampleSha256 (emptied []) (januaryCall 1) first)
    (hsecond : AddedBy sampleSha256 ⟨[first], []⟩ (mayCall 2) second)
    (hrecord : record sampleSha256 (emptied []) (januaryCall 1) = ⟨[first], []⟩)
    (hrecord' : record sampleSha256 ⟨[first], []⟩ (mayCall 2) = ⟨[first, second], []⟩)
    (batch : Nat) :
    Run (fun w transaction => w.Allowed transaction ∧ w.Calm sampleSha256 batch transaction)
      (Watched.step sampleSha256 id batch) Watched.start
      [.record (januaryCall 1), .record (mayCall 2)]
      ⟨⟨[first, second], []⟩, 2, [first, second], [], .idle, 0⟩ := by
  have hseq : first.seq = 1 := hfirst.seq
  have hseq' : second.seq = 2 := hsecond.seq
  have hstep : Watched.step sampleSha256 id batch Watched.start (.record (januaryCall 1)) =
      ⟨⟨[first], []⟩, 1, [first], [], .idle, 0⟩ := by
    have htrail : record sampleSha256 Watched.start.trail (januaryCall 1) = ⟨[first], []⟩ := hrecord
    simp only [Watched.step, htrail]
    simp [Watched.start, hseq, januaryCall]
  have hstep' : Watched.step sampleSha256 id batch ⟨⟨[first], []⟩, 1, [first], [], .idle, 0⟩
      (.record (mayCall 2)) = ⟨⟨[first, second], []⟩, 2, [first, second], [], .idle, 0⟩ := by
    simp only [Watched.step, hrecord']
    simp [hseq, hseq', mayCall]
  refine .cons ⟨⟨january_may.positive, by simp [Watched.start], january_may.fits.1⟩,
    .inl january_may.keeps.1⟩ (hstep ▸ .cons ⟨⟨january_may.lt, ?_, january_may.fits.2⟩,
      .inl january_may.keeps.2⟩ ?_)
  · simpa [hfirst.eventId] using january_may.ids
  · rw [hstep']
    exact .nil _

/-- A pass that removes the first of two rows, and a walk behind it. -/
theorem run_cut {first second : Row}
    (hfirst : AddedBy sampleSha256 (emptied []) (januaryCall 1) first)
    (hsecond : AddedBy sampleSha256 ⟨[first], []⟩ (mayCall 2) second)
    (hlinked : Linked sampleSha256 first.hash [second]) :
    Run (fun w transaction => w.Allowed transaction ∧ w.Calm sampleSha256 5000 transaction)
      (Watched.step sampleSha256 id 5000)
      ⟨⟨[first, second], []⟩, 2, [first, second], [], .idle, 0⟩
      [.choose 1771545600000000, .cut 1 first.hash, .begin, .read, .read]
      ⟨⟨[second], [⟨1, first.hash⟩]⟩, 2, [first, second], [(1, first.hash)],
        .done (.ok none), 2⟩ := by
  have hseq : first.seq = 1 := hfirst.seq
  have hseq' : second.seq = 2 := hsecond.seq
  have hat : first.columns.occurredAt = 1767225600000000 := hfirst.occurredAt
  have hat' : second.columns.occurredAt = 1780185600000000 := hsecond.occurredAt
  have hboundary : boundary [first, second] 1771545600000000 = some (1, first.hash) := by
    simp [boundary, bySeq, hat, hat', hseq]
  have hchoose : Watched.step sampleSha256 id 5000
      ⟨⟨[first, second], []⟩, 2, [first, second], [], .idle, 0⟩ (.choose 1771545600000000) =
        ⟨⟨[first, second], []⟩, 2, [first, second], [(1, first.hash)], .idle, 0⟩ := by
    simp [Watched.step, hboundary]
  have hcut : Watched.step sampleSha256 id 5000
      ⟨⟨[first, second], []⟩, 2, [first, second], [(1, first.hash)], .idle, 0⟩
        (.cut 1 first.hash) = ⟨⟨[second], [⟨1, first.hash⟩]⟩, 2, [first, second],
          [(1, first.hash)], .idle, 0⟩ := by
    simp [Watched.step, cutAt, hseq, hseq']
  have hbegin : Watched.step sampleSha256 id 5000
      ⟨⟨[second], [⟨1, first.hash⟩]⟩, 2, [first, second], [(1, first.hash)], .idle, 0⟩ .begin =
        ⟨⟨[second], [⟨1, first.hash⟩]⟩, 2, [first, second], [(1, first.hash)],
          .reading first.hash 0, 1⟩ := by
    have hhash : first.hash ≠ "" := by
      rw [hash_january hfirst]
      decide
    simp [Watched.step, startingHash, newest, hhash]
  -- the second row links to the one that is gone
  have hpage : page 5000 [second] 0 = [second] := by simp [page, bySeq, hseq']
  have hrows : verifyRows sampleSha256 first.hash none ([second].map (Row.read id)) = .ok none :=
    verifyRows_of_linked (fun l => .refl l) hlinked (List.pairwise_singleton _ _) (by simp)
  have hverify : verifyFrom sampleSha256 first.hash [second.read id] = .ok none := hrows
  have hread : Watched.step sampleSha256 id 5000
      ⟨⟨[second], [⟨1, first.hash⟩]⟩, 2, [first, second], [(1, first.hash)],
        .reading first.hash 0, 1⟩ .read =
      ⟨⟨[second], [⟨1, first.hash⟩]⟩, 2, [first, second], [(1, first.hash)],
        .reading second.hash 2, 2⟩ := by
    simp [Watched.step, Walk.next, hpage, hverify, hseq']
  have hnone : page 5000 [second] 2 = [] := by simp [page, bySeq, hseq']
  have hend : Watched.step sampleSha256 id 5000
      ⟨⟨[second], [⟨1, first.hash⟩]⟩, 2, [first, second], [(1, first.hash)],
        .reading second.hash 2, 2⟩ .read =
      ⟨⟨[second], [⟨1, first.hash⟩]⟩, 2, [first, second], [(1, first.hash)],
        .done (.ok none), 2⟩ := by
    simp [Watched.step, Walk.next, hnone]
  refine .cons ⟨trivial, trivial⟩ ?_
  rw [hchoose]
  refine .cons ⟨List.mem_singleton.mpr rfl, trivial⟩ ?_
  rw [hcut]
  refine .cons ⟨rfl, trivial⟩ ?_
  rw [hbegin]
  refine .cons ⟨⟨_, _, rfl⟩, fun _ _ _ => .inr (by simp)⟩ ?_
  rw [hread]
  refine .cons ⟨⟨_, _, rfl⟩, fun _ _ _ => .inr (by simp)⟩ ?_
  rw [hend]
  exact .nil _

/-- A pass removes the first row before the walk begins, which reads the second. -/
theorem never_cries_wolf_cut :
    ∃ transactions w,
      Run (fun w transaction => w.Allowed transaction ∧ w.Calm sampleSha256 5000 transaction)
        (Watched.step sampleSha256 id 5000) Watched.start transactions w ∧
      w.trail.rows.map Row.seq = [2] ∧ w.position = 2 ∧
      ∃ result, w.walk = .done result ∧ result = .ok none := by
  obtain ⟨first, second, hfirst, hsecond, hrecord, hrecord'⟩ :=
    two_calls (fun s => (fits_sampleSha256 s).1) january_may
  have hrun := run_two hfirst hsecond hrecord hrecord' 5000
  have hsteady : Watched.Steady sampleSha256
      ⟨⟨[first, second], []⟩, 2, [first, second], [], .idle, 0⟩ :=
    hrun.invariant (fun _ _ h ha => h.step fits_sampleSha256 (fun l => .refl l) ha.1 ha.2)
      steady_start
  have hseq : second.seq = 2 := hsecond.seq
  have hall := Run.append_iff.mpr ⟨_, hrun, run_cut hfirst hsecond hsteady.kept.linked.2.2⟩
  exact ⟨_, _, hall, by simp [hseq], rfl, _, rfl,
    never_cries_wolf fits_sampleSha256 (fun l => .refl l) hall _ rfl⟩

/-- **A pass between the anchor read and the first batch.**  The walk starts at genesis, and
the first row it is given links to the one the pass has removed. -/
theorem cries_wolf :
    ¬ ∀ (transactions : List Transaction) (w : Watched),
      Run Watched.Allowed (Watched.step sampleSha256 id 5000) Watched.start transactions w →
      ∀ result, w.walk = .done result → result = .ok none := by
  intro h
  obtain ⟨first, second, hfirst, hsecond, hrecord, hrecord'⟩ :=
    two_calls (fun s => (fits_sampleSha256 s).1) january_may
  have hrun := (run_two hfirst hsecond hrecord hrecord' 5000).mono fun _ _ ha => ha.1
  have hseq : first.seq = 1 := hfirst.seq
  have hseq' : second.seq = 2 := hsecond.seq
  have hat : first.columns.occurredAt = 1767225600000000 := hfirst.occurredAt
  have hat' : second.columns.occurredAt = 1780185600000000 := hsecond.occurredAt
  have hboundary : boundary [first, second] 1771545600000000 = some (1, first.hash) := by
    simp [boundary, bySeq, hat, hat', hseq]
  have hchoose : Watched.step sampleSha256 id 5000
      ⟨⟨[first, second], []⟩, 2, [first, second], [], .reading genesis 0, 0⟩
        (.choose 1771545600000000) =
          ⟨⟨[first, second], []⟩, 2, [first, second], [(1, first.hash)], .reading genesis 0, 0⟩ := by
    simp [Watched.step, hboundary]
  have hcut : Watched.step sampleSha256 id 5000
      ⟨⟨[first, second], []⟩, 2, [first, second], [(1, first.hash)], .reading genesis 0, 0⟩
        (.cut 1 first.hash) =
          ⟨⟨[second], [⟨1, first.hash⟩]⟩, 2, [first, second], [(1, first.hash)],
            .reading genesis 0, 0⟩ := by
    simp [Watched.step, cutAt, hseq, hseq']
  have hrest : Run Watched.Allowed (Watched.step sampleSha256 id 5000)
      ⟨⟨[first, second], []⟩, 2, [first, second], [], .idle, 0⟩
      [.begin, .choose 1771545600000000, .cut 1 first.hash, .read]
      (Watched.step sampleSha256 id 5000
        ⟨⟨[second], [⟨1, first.hash⟩]⟩, 2, [first, second], [(1, first.hash)],
          .reading genesis 0, 0⟩ .read) := by
    refine .cons rfl (.cons trivial ?_)
    change Run _ _ (Watched.step sampleSha256 id 5000
      ⟨⟨[first, second], []⟩, 2, [first, second], [], .reading genesis 0, 0⟩ _) _ _
    rw [hchoose]
    refine .cons (List.mem_singleton.mpr rfl) ?_
    rw [hcut]
    exact .cons ⟨_, _, rfl⟩ (.nil _)
  have hprev : (second.read id).prevHash ≠ genesis := by
    have hlink : second.prevHash = first.hash := hsecond.prevHash
    change second.prevHash ≠ genesis
    rw [hlink, hash_january hfirst]
    decide
  have hpage : page 5000 [second] 0 = [second] := by simp [page, bySeq, hseq']
  have hdone : Walk.next sampleSha256 id 5000 [second] genesis 0 =
      .done (.ok (some ⟨second.seq, second.columns.eventId, unlinked⟩)) := by
    have hunlinked : verifyFrom sampleSha256 genesis [second.read id] =
        .ok (some ⟨second.seq, second.columns.eventId, unlinked⟩) := verifyFrom_unlinked hprev
    simp [Walk.next, hpage, hunlinked]
  cases h _ _ (Run.append_iff.mpr ⟨_, hrun, hrest⟩) _ hdone

end Audit
end CampusID
