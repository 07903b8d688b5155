import CampusID.Audit.Recorded

/-!
# Retention

`RetentionStore.prune` looks for the newest event older than a cutoff, hands everything up
to it to a sink, deletes it, leaves an anchor with the hash the deleted part ended on, and
records itself.

The boundary is chosen by a timestamp and is a sequence number, and the delete goes by that
number.  `due` counts by the timestamp.  Timestamps are taken before the chain lock, or given
by the caller, and need not grow with the sequence numbers, and `prunes_due_iff` says when
the two agree.

* `prune_cases` is what a pass can do: leave everything, or cut the trail at a boundary and
  record that.
* `Ledger` is the two tables over a whole history of records and passes, with what a later
  look at them no longer shows: every event there has been, and what the sinks were handed.
-/

namespace CampusID
namespace Audit

open Lib

/-! ## The store -/

/-- `DEFAULT_RETENTION`, in microseconds. -/
def defaultRetention : Int := 400 * 86400000000

/-- A sink: whether it takes the batch it is handed, the first, the second and so on.  If not,
it raises. -/
abbrev Sink : Type := Nat → List Row → Bool

/-- A call of `RetentionStore.prune`.  `moment` is `now`, or the clock; the last five are what
the event of the pass is recorded with. -/
structure PruneCall where
  olderThan : Int := defaultRetention
  sink : Sink
  performedBy : String
  reason : String
  moment : Int
  batch : Int := 1000
  now : Int
  correlationId : String
  impersonator : Option String
  eventId : String
  seq : Int

/-- Why a pass does not come to an end. -/
inductive PruneError where
  | sink
  | database (error : WriteError)
  deriving DecidableEq

/-- `Pruned`. -/
structure Pruned where
  removed : Nat
  throughSeq : Option Int
  throughHash : String
  deriving DecidableEq

/-- The cutoff of a pass. -/
def PruneCall.cutoff (call : PruneCall) : Int := call.moment - call.olderThan

/-- The newest anchor. -/
def newest (anchors : List Anchor) : Option Anchor :=
  (anchors.insertionSort fun a b => a.removedThroughSeq ≤ b.removedThroughSeq).getLast?

/-- `RetentionStore.starting_hash`. -/
def anchoredHash (anchors : List Anchor) : String :=
  match newest anchors with
  | none => genesis
  | some anchor => anchor.removedThroughHash

/-- `_boundary`. -/
def boundary (rows : List Row) (cutoff : Int) : Option (Int × String) :=
  (bySeq (rows.filter fun row => row.columns.occurredAt < cutoff)).getLast?.map fun row =>
    (row.seq, row.hash)

/-- `due`, at this cutoff. -/
def due (rows : List Row) (cutoff : Int) : Nat :=
  (rows.filter fun row => row.columns.occurredAt < cutoff).length

/-- The loop of `_export`, over the rows up to the boundary: what the sink took, and whether
it took everything. -/
def exportLoop (sink : Sink) (batch : Nat) (rows : List Row) (last : Int) (taken : Nat) :
    List Row × Bool :=
  match h : (page batch rows last).getLast? with
  | none => ([], true)
  | some row =>
    if sink taken (page batch rows last) then
      have := length_filter_of_page h
      let rest := exportLoop sink batch rows row.seq (taken + 1)
      (page batch rows last ++ rest.1, rest.2)
    else ([], false)
termination_by (rows.filter fun row => last < row.seq).length

/-- `_export`.  A negative limit is refused by the database. -/
def exportRows (sink : Sink) (batch : Int) (rows : List Row) (throughSeq : Int) :
    List Row × Except PruneError Unit :=
  if batch < 0 then ([], .error (.database (.dataError "LIMIT must not be negative")))
  else
    let done := exportLoop sink batch.toNat (rows.filter fun row => row.seq ≤ throughSeq) 0 0
    (done.1, if done.2 then .ok () else .error .sink)

/-- The delete and the anchor. -/
def cutAt (trail : Trail) (throughSeq : Int) (throughHash : String) : Trail where
  rows := trail.rows.filter fun row => throughSeq < row.seq
  anchors := trail.anchors ++ [⟨throughSeq, throughHash⟩]

/-- What the anchor says of the pass fits its columns. -/
def PruneCall.anchorFits (call : PruneCall) : Except WriteError Unit := do
  let _ ← varchar 256 call.performedBy
  let _ ← varchar 512 call.reason
  return ()

/-- The event of the pass. -/
def PruneCall.noted (call : PruneCall) (removed : Nat) (throughSeq : Int) : RecordCall where
  eventType := .auditPruned
  outcome := .success
  actor := some call.performedBy
  subject := none
  target := none
  reason := some call.reason
  sourceIp := none
  userAgent := none
  sessionId := none
  detail := some [("removed", .num (.int removed)), ("through_seq", .num (.int throughSeq)),
    ("cutoff", .str (isoText call.cutoff))]
  now := call.now
  correlationId := call.correlationId
  impersonator := call.impersonator
  eventId := call.eventId
  seq := call.seq

/-- What a pass leaves, what its sink took, and what it returns or raises. -/
structure Pass where
  trail : Trail
  exported : List Row
  result : Except PruneError Pruned

section Hash

variable (sha256 : String → String)

/-- `RetentionStore.prune`. -/
def prune (trail : Trail) (call : PruneCall) : Pass :=
  match boundary trail.rows call.cutoff with
  | none => ⟨trail, [], .ok ⟨0, none, anchoredHash trail.anchors⟩⟩
  | some (throughSeq, throughHash) =>
    let (exported, done) := exportRows call.sink call.batch trail.rows throughSeq
    match done with
    | .error e => ⟨trail, exported, .error e⟩
    | .ok () =>
      match call.anchorFits with
      | .error e => ⟨trail, exported, .error (.database e)⟩
      | .ok () =>
        ⟨record sha256 (cutAt trail throughSeq throughHash)
            (call.noted exported.length throughSeq),
          exported, .ok ⟨exported.length, some throughSeq, throughHash⟩⟩

/-! ## What a pass does -/

variable {sha256}

variable (sha256) in
/-- **What a pass does.**  It leaves everything as it was, because nothing is old enough or
because it raises; or it has handed everything up to the boundary to the sink, has cut the
trail there, and records itself. -/
theorem prune_cases (trail : Trail) (call : PruneCall) :
    (boundary trail.rows call.cutoff = none ∧
        prune sha256 trail call = ⟨trail, [], .ok ⟨0, none, anchoredHash trail.anchors⟩⟩) ∨
      (∃ exported e, prune sha256 trail call = ⟨trail, exported, .error e⟩) ∨
      ∃ throughSeq throughHash exported,
        boundary trail.rows call.cutoff = some (throughSeq, throughHash) ∧
          exportRows call.sink call.batch trail.rows throughSeq = (exported, .ok ()) ∧
          prune sha256 trail call =
            ⟨record sha256 (cutAt trail throughSeq throughHash)
                (call.noted exported.length throughSeq),
              exported, .ok ⟨exported.length, some throughSeq, throughHash⟩⟩ := by
  unfold prune
  cases hboundary : boundary trail.rows call.cutoff with
  | none => exact .inl ⟨rfl, rfl⟩
  | some through =>
    obtain ⟨throughSeq, throughHash⟩ := through
    right
    cases hexport : exportRows call.sink call.batch trail.rows throughSeq with
    | mk exported done =>
    cases done with
    | error e => exact .inl ⟨exported, e, by simp only [hexport]⟩
    | ok u =>
      cases hfits : call.anchorFits with
      | error e => exact .inl ⟨exported, .database e, by simp only [hexport]⟩
      | ok u' =>
        exact .inr ⟨throughSeq, throughHash, exported, rfl, hexport, by simp only [hexport]⟩

theorem trail_of_error {trail : Trail} {call : PruneCall} {e : PruneError}
    (h : (prune sha256 trail call).result = .error e) :
    (prune sha256 trail call).trail = trail := by
  rcases prune_cases sha256 trail call with
    ⟨-, hprune⟩ | ⟨exported, e', hprune⟩ | ⟨throughSeq, throughHash, exported, -, -, hprune⟩
  · rw [hprune]
  · rw [hprune]
  · rw [hprune] at h
    cases h

/-! ### The boundary -/

theorem boundary_eq_none {rows : List Row} {cutoff : Int} :
    boundary rows cutoff = none ↔ ∀ row ∈ rows, cutoff ≤ row.columns.occurredAt := by
  unfold boundary bySeq
  rw [Option.map_eq_none_iff, List.getLast?_eq_none_iff,
    ← List.length_eq_zero_iff, (List.perm_insertionSort _ _).length_eq, List.length_eq_zero_iff,
    List.filter_eq_nil_iff]
  simp

theorem boundary_eq_some {rows : List Row} {cutoff throughSeq : Int} {throughHash : String}
    (h : boundary rows cutoff = some (throughSeq, throughHash)) :
    ∃ row ∈ rows, row.seq = throughSeq ∧ row.hash = throughHash ∧
      row.columns.occurredAt < cutoff ∧
      ∀ other ∈ rows, other.columns.occurredAt < cutoff → other.seq ≤ throughSeq := by
  obtain ⟨row, hlast, hrow⟩ := Option.map_eq_some_iff.mp h
  obtain ⟨rfl, rfl⟩ := Prod.mk.inj hrow
  rw [bySeq_eq] at hlast
  obtain ⟨init, hinit⟩ := List.getLast?_eq_some_iff.mp hlast
  have hmem : row ∈ Keyset.remaining Row.seq none
      (rows.filter fun row => row.columns.occurredAt < cutoff) := by
    rw [hinit]
    simp
  have hold := List.mem_filter.mp (Keyset.mem_remaining.mp hmem).1
  refine ⟨row, hold.1, rfl, rfl, by simpa using hold.2, fun other hother hlt => ?_⟩
  have hin : other ∈ Keyset.remaining Row.seq none
      (rows.filter fun row => row.columns.occurredAt < cutoff) :=
    Keyset.mem_remaining.mpr ⟨List.mem_filter.mpr ⟨hother, by simpa using hlt⟩, rfl⟩
  have hsorted : (Keyset.remaining Row.seq none
      (rows.filter fun row => row.columns.occurredAt < cutoff)).Pairwise
        fun a b => a.seq ≤ b.seq := Keyset.remaining_sorted none _
  rw [hinit] at hin hsorted
  rcases List.mem_append.mp hin with hin | hin
  · exact (List.pairwise_append.mp hsorted).2.2 other hin row (by simp)
  · rw [List.mem_singleton.mp hin]

/-! ### The export -/

theorem exportLoop_of_none {sink : Sink} {batch : Nat} {rows : List Row} {last : Int}
    (h : (page batch rows last).getLast? = none) (taken : Nat) :
    exportLoop sink batch rows last taken = ([], true) := by
  rw [exportLoop]
  split
  · rfl
  · rename_i row hrow
    rw [h] at hrow
    cases hrow

theorem exportLoop_of_some {sink : Sink} {batch : Nat} {rows : List Row} {last : Int} {row : Row}
    (h : (page batch rows last).getLast? = some row) (taken : Nat) :
    exportLoop sink batch rows last taken =
      if sink taken (page batch rows last) then
        (page batch rows last ++ (exportLoop sink batch rows row.seq (taken + 1)).1,
          (exportLoop sink batch rows row.seq (taken + 1)).2)
      else ([], false) := by
  rw [exportLoop]
  split
  · rename_i hnone
    rw [h] at hnone
    cases hnone
  · rename_i row' hrow
    obtain rfl : row' = row := Option.some.inj (hrow.symm.trans h)
    rfl

/-- **What the sink took**, when it took everything: the rows past the cursor, in order. -/
theorem exportLoop_eq {sink : Sink} {batch : Nat} (hbatch : batch ≠ 0) {rows : List Row}
    (hnodup : (rows.map Row.seq).Nodup) {last : Int} {taken : Nat}
    (h : (exportLoop sink batch rows last taken).2 = true) :
    (exportLoop sink batch rows last taken).1 = Keyset.remaining Row.seq (some last) rows := by
  refine @Keyset.induct Row Int _ Row.seq batch hbatch rows (fun cursor =>
    ∀ last taken, cursor = some last → (exportLoop sink batch rows last taken).2 = true →
      (exportLoop sink batch rows last taken).1 = Keyset.remaining Row.seq cursor rows)
    ?_ ?_ (some last) last taken rfl h
  · rintro cursor hnone last taken rfl -
    rw [exportLoop_of_none ((Keyset.page_getLast?_eq_none hbatch).mpr hnone), hnone]
  · rintro cursor row hrow ih last taken rfl hall
    have hpage := @exportLoop_of_some sink _ _ _ _ hrow taken
    by_cases htake : sink taken (page batch rows last) = true
    · rw [if_pos htake] at hpage
      rw [hpage] at hall ⊢
      have hrest := ih row.seq (taken + 1) rfl hall
      simp only [hrest, Keyset.remaining_after hnodup hrow]
      exact List.take_append_drop batch _
    · rw [if_neg htake] at hpage
      rw [hpage] at hall
      cases hall

/-- What the sink of a pass took that did not raise.  With batches of nothing that is
nothing. -/
theorem exportRows_eq {sink : Sink} {batch : Int} {rows exported : List Row}
    (hnodup : (rows.map Row.seq).Nodup) (hpos : ∀ row ∈ rows, 0 < row.seq) {throughSeq : Int}
    (h : exportRows sink batch rows throughSeq = (exported, .ok ())) :
    exported = if batch = 0 then [] else bySeq (rows.filter fun row => row.seq ≤ throughSeq) := by
  unfold exportRows at h
  split_ifs at h with hneg
  · cases h
  have hdone : (exportLoop sink batch.toNat (rows.filter fun row => row.seq ≤ throughSeq) 0 0).2 =
      true := by
    by_contra hfalse
    simp [hfalse] at h
  obtain rfl : (exportLoop sink batch.toNat
      (rows.filter fun row => row.seq ≤ throughSeq) 0 0).1 = exported := congrArg Prod.fst h
  by_cases hzero : batch = 0
  · subst hzero
    rw [if_pos rfl, exportLoop_of_none (by simp [page])]
  · rw [if_neg hzero, exportLoop_eq (by omega)
      (hnodup.sublist (List.filter_sublist.map Row.seq)) hdone]
    unfold Keyset.remaining bySeq
    rw [List.filter_eq_self.mpr fun row hrow => ?_]
    simpa using hpos row (List.mem_filter.mp hrow).1

theorem exportLoop_of_accepts {sink : Sink} (hsink : ∀ taken rows, sink taken rows = true)
    {batch : Nat} (hbatch : batch ≠ 0) (rows : List Row) (last : Int) (taken : Nat) :
    (exportLoop sink batch rows last taken).2 = true := by
  refine @Keyset.induct Row Int _ Row.seq batch hbatch rows (fun cursor =>
    ∀ last taken, cursor = some last → (exportLoop sink batch rows last taken).2 = true)
    ?_ ?_ (some last) last taken rfl
  · rintro cursor hnone last taken rfl
    rw [exportLoop_of_none ((Keyset.page_getLast?_eq_none hbatch).mpr hnone)]
  · rintro cursor row hrow ih last taken rfl
    rw [exportLoop_of_some hrow, if_pos (hsink _ _)]
    exact ih row.seq (taken + 1) rfl

theorem prune_of_accepts {trail : Trail} {call : PruneCall}
    (hsink : ∀ taken rows, call.sink taken rows = true) (hbatch : 0 < call.batch)
    (hnodup : (trail.rows.map Row.seq).Nodup) (hpos : ∀ row ∈ trail.rows, 0 < row.seq)
    {throughSeq : Int} {throughHash : String}
    (hboundary : boundary trail.rows call.cutoff = some (throughSeq, throughHash))
    (hfits : call.anchorFits = .ok ()) :
    prune sha256 trail call =
      ⟨record sha256 (cutAt trail throughSeq throughHash)
          (call.noted (bySeq (trail.rows.filter fun row => row.seq ≤ throughSeq)).length
            throughSeq),
        bySeq (trail.rows.filter fun row => row.seq ≤ throughSeq),
        .ok ⟨(bySeq (trail.rows.filter fun row => row.seq ≤ throughSeq)).length, some throughSeq,
          throughHash⟩⟩ := by
  have hdone : (exportRows call.sink call.batch trail.rows throughSeq).2 = .ok () := by
    unfold exportRows
    rw [if_neg (by omega)]
    exact if_pos (exportLoop_of_accepts hsink (by omega) _ _ _)
  have hpair : exportRows call.sink call.batch trail.rows throughSeq =
      ((exportRows call.sink call.batch trail.rows throughSeq).1, .ok ()) :=
    Prod.ext rfl hdone
  have htook := exportRows_eq hnodup hpos hpair
  rw [if_neg (by omega)] at htook
  rw [htook] at hpair
  unfold prune
  rw [hboundary]
  simp only [hpair, hfits]

/-! ### What is removed -/

/-- No event inside the window comes before one that is past it. -/
def Aligned (rows : List Row) (cutoff : Int) : Prop :=
  ∀ old ∈ rows, ∀ recent ∈ rows, old.columns.occurredAt < cutoff →
    cutoff ≤ recent.columns.occurredAt → old.seq < recent.seq

/-- Rows that were there before a pass are there behind it when they are above the
boundary. -/
theorem mem_pruned {trail : Trail} {call : RecordCall} {throughSeq : Int} {throughHash : String}
    {row : Row} (hseq : row.seq < call.seq) :
    row ∈ (record sha256 (cutAt trail throughSeq throughHash) call).rows ↔
      row ∈ trail.rows ∧ throughSeq < row.seq := by
  rcases record_cases sha256 (cutAt trail throughSeq throughHash) call with
    hsame | ⟨added, hadded, -, hrecord⟩
  · rw [hsame]
    simp [cutAt]
  · have hne : row ≠ added := by
      rintro rfl
      omega
    rw [hrecord]
    simp [cutAt, hne]

/-- **What a pass removes against what is due**, on tables with unique, positive sequence
numbers. -/
theorem removes_due_iff {trail : Trail} (hnodup : (trail.rows.map Row.seq).Nodup)
    (hpos : ∀ row ∈ trail.rows, 0 < row.seq) {call : PruneCall}
    (hseq : ∀ row ∈ trail.rows, row.seq < call.seq) {pruned : Pruned}
    (hok : (prune sha256 trail call).result = .ok pruned) :
    ((∀ row ∈ trail.rows, row ∈ (prune sha256 trail call).trail.rows ↔
          call.cutoff ≤ row.columns.occurredAt) ∧
        pruned.removed = due trail.rows call.cutoff) ↔
      Aligned trail.rows call.cutoff ∧ (call.batch ≠ 0 ∨ due trail.rows call.cutoff = 0) := by
  rcases prune_cases sha256 trail call with
    ⟨hnone, hprune⟩ | ⟨exported, e, hprune⟩ |
      ⟨throughSeq, throughHash, exported, hsome, hexport, hprune⟩
  · rw [boundary_eq_none] at hnone
    rw [hprune] at hok ⊢
    obtain rfl := Except.ok.inj hok
    have hdue : due trail.rows call.cutoff = 0 := by
      unfold due
      rw [List.length_eq_zero_iff, List.filter_eq_nil_iff]
      intro row hrow
      simpa using hnone row hrow
    refine ⟨fun _ => ⟨fun old hold _ _ hlt => ?_, .inr hdue⟩, fun _ => ⟨fun row hrow => ?_, ?_⟩⟩
    · have := hnone old hold
      omega
    · exact ⟨fun _ => hnone row hrow, fun _ => hrow⟩
    · exact hdue.symm
  · rw [hprune] at hok
    cases hok
  · obtain ⟨last, hlast, rfl, rfl, hold, hnewest⟩ := boundary_eq_some hsome
    rw [hprune] at hok ⊢
    obtain rfl := Except.ok.inj hok
    have hrows : (∀ row ∈ trail.rows, row ∈ (record sha256 (cutAt trail last.seq last.hash)
        (call.noted exported.length last.seq)).rows ↔ call.cutoff ≤ row.columns.occurredAt) ↔
          Aligned trail.rows call.cutoff := by
      constructor
      · intro h old hold recent hrecent hlt hle
        have habove := ((mem_pruned (hseq recent hrecent)).mp ((h recent hrecent).mpr hle)).2
        have := hnewest old hold hlt
        omega
      · intro haligned row hrow
        rw [mem_pruned (hseq row hrow)]
        constructor
        · rintro ⟨-, habove⟩
          by_contra hlt
          have := hnewest row hrow (by omega)
          omega
        · exact fun hle => ⟨hrow, haligned last hlast row hrow hold hle⟩
    have hdue : due trail.rows call.cutoff ≠ 0 := by
      unfold due
      rw [Ne, List.length_eq_zero_iff, List.filter_eq_nil_iff]
      intro h
      exact h last hlast (by simpa using hold)
    rw [hrows]
    simp only [hdue, or_false]
    refine and_congr_right fun haligned => ?_
    rw [exportRows_eq hnodup hpos hexport]
    by_cases hzero : call.batch = 0
    · simp [hzero, hdue.symm]
    · -- up to the boundary lies exactly what is old enough
      have hsame : (trail.rows.filter fun row => row.seq ≤ last.seq) =
          trail.rows.filter fun row => row.columns.occurredAt < call.cutoff := by
        refine List.filter_congr fun row hrow => decide_eq_decide.mpr ⟨fun hle => ?_, fun hlt => ?_⟩
        · by_contra hge
          have := haligned last hlast row hrow hold (by omega)
          omega
        · exact hnewest row hrow hlt
      have hlen : (bySeq (trail.rows.filter fun row => row.seq ≤ last.seq)).length =
          due trail.rows call.cutoff := by
        unfold bySeq due
        rw [(List.perm_insertionSort _ _).length_eq, hsame]
      simp [hzero, hlen]

end Hash

/-! ## Histories -/

/-- One call. -/
inductive Move where
  | record (call : RecordCall)
  | prune (call : PruneCall)

/-- The sequence number a call draws. -/
def Move.seq : Move → Int
  | .record call => call.seq
  | .prune call => call.seq

/-- The identifier of the event a call records. -/
def Move.eventId : Move → String
  | .record call => call.eventId
  | .prune call => call.eventId

/-- The two tables over a history of calls: the last sequence number the database gave out,
every event there has been, what the sinks have taken, and what of it in passes that came to
an end. -/
structure Ledger where
  trail : Trail
  lastSeq : Int
  recorded : List Row
  taken : List Row
  received : List Row

/-- Nothing has happened yet. -/
def Ledger.empty : Ledger := ⟨⟨[], []⟩, 0, [], [], []⟩

/-- A call is given the next sequence number and an event identifier of its own. -/
def Ledger.Draws (ledger : Ledger) (move : Move) : Prop :=
  ledger.lastSeq < move.seq ∧
    (∀ row ∈ ledger.trail.rows, row.columns.eventId ≠ move.eventId) ∧ fits 64 move.eventId = true

section Hash

variable (sha256 : String → String)

/-- The tables behind a call. -/
def Move.trail (trail : Trail) : Move → Trail
  | .record call => Audit.record sha256 trail call
  | .prune call => (Audit.prune sha256 trail call).trail

/-- What a pass that came to an end has handed to its sink. -/
def Pass.received (pass : Pass) : List Row :=
  match pass.result with
  | .ok _ => pass.exported
  | .error _ => []

/-- One call. -/
def Ledger.step (ledger : Ledger) (move : Move) : Ledger where
  trail := move.trail sha256 ledger.trail
  lastSeq := move.seq
  recorded := ledger.recorded ++
    (move.trail sha256 ledger.trail).rows.filter fun row => ledger.lastSeq < row.seq
  taken := ledger.taken ++
    match move with
    | .record _ => []
    | .prune call => (prune sha256 ledger.trail call).exported
  received := ledger.received ++
    match move with
    | .record _ => []
    | .prune call => (prune sha256 ledger.trail call).received

variable {sha256}

/-- The rows are in order, and under numbers that were given out. -/
structure Ledger.Ordered (ledger : Ledger) : Prop where
  sorted : ledger.trail.rows.Pairwise fun a b => a.seq < b.seq
  positive : ∀ row ∈ ledger.trail.rows, 0 < row.seq
  drawn : ∀ row ∈ ledger.trail.rows, row.seq ≤ ledger.lastSeq
  counted : 0 ≤ ledger.lastSeq

variable (sha256) in
theorem rows_step (ledger : Ledger) (move : Move) :
    ∃ kept, kept.Sublist ledger.trail.rows ∧
      ((ledger.step sha256 move).trail.rows = kept ∨ ∃ row, row.seq = move.seq ∧
        (ledger.step sha256 move).trail.rows = kept ++ [row]) := by
  cases move with
  | record call =>
    refine ⟨ledger.trail.rows, List.Sublist.refl _, ?_⟩
    rcases record_cases sha256 ledger.trail call with hsame | ⟨row, hseq, -, hrecord⟩
    · exact .inl (congrArg Trail.rows hsame)
    · exact .inr ⟨row, hseq, congrArg Trail.rows hrecord⟩
  | prune call =>
    rcases prune_cases sha256 ledger.trail call with
      ⟨-, hprune⟩ | ⟨exported, e, hprune⟩ | ⟨throughSeq, throughHash, exported, -, -, hprune⟩
    · exact ⟨_, List.Sublist.refl _, .inl (congrArg (fun p => p.trail.rows) hprune)⟩
    · exact ⟨_, List.Sublist.refl _, .inl (congrArg (fun p => p.trail.rows) hprune)⟩
    · refine ⟨(cutAt ledger.trail throughSeq throughHash).rows, List.filter_sublist, ?_⟩
      have htrail : ((ledger.step sha256 (.prune call)).trail) =
          record sha256 (cutAt ledger.trail throughSeq throughHash)
            (call.noted exported.length throughSeq) := congrArg Pass.trail hprune
      rw [htrail]
      rcases record_cases sha256 (cutAt ledger.trail throughSeq throughHash)
        (call.noted exported.length throughSeq) with hsame | ⟨row, hseq, -, hrecord⟩
      · exact .inl (congrArg Trail.rows hsame)
      · exact .inr ⟨row, hseq, congrArg Trail.rows hrecord⟩

theorem Ledger.Ordered.step {ledger : Ledger} (h : ledger.Ordered) {move : Move}
    (hdraws : ledger.Draws move) : (ledger.step sha256 move).Ordered := by
  obtain ⟨kept, hsub, hrows⟩ := rows_step sha256 ledger move
  have hseq : ledger.lastSeq < move.seq := hdraws.1
  have hcounted := h.counted
  have hlast : (ledger.step sha256 move).lastSeq = move.seq := rfl
  rcases hrows with hrows | ⟨row, hrow, hrows⟩
  · refine ⟨?_, ?_, ?_, by omega⟩
    · exact hrows ▸ h.sorted.sublist hsub
    · exact hrows ▸ fun other hother => h.positive other (hsub.subset hother)
    · rw [hrows, hlast]
      intro other hother
      have := h.drawn other (hsub.subset hother)
      omega
  · have hkept : ∀ other ∈ kept, other.seq < row.seq := by
      intro other hother
      have := h.drawn other (hsub.subset hother)
      omega
    refine ⟨?_, ?_, ?_, by omega⟩
    · rw [hrows, List.pairwise_append]
      refine ⟨h.sorted.sublist hsub, List.pairwise_singleton _ _, fun other hother added ha => ?_⟩
      rw [List.mem_singleton.mp ha]
      exact hkept other hother
    · rw [hrows]
      intro other hother
      rcases List.mem_append.mp hother with hother | hother
      · exact h.positive other (hsub.subset hother)
      · rw [List.mem_singleton.mp hother]
        omega
    · rw [hrows, hlast]
      intro other hother
      rcases List.mem_append.mp hother with hother | hother
      · have := hkept other hother
        omega
      · rw [List.mem_singleton.mp hother]
        omega

theorem ordered_of_run {moves : List Move} {ledger : Ledger}
    (hrun : Run Ledger.Draws (Ledger.step sha256) Ledger.empty moves ledger) : ledger.Ordered := by
  refine hrun.invariant (I := Ledger.Ordered) (fun _ _ h hdraws => h.step hdraws) ?_
  exact ⟨List.Pairwise.nil, by simp [Ledger.empty], by simp [Ledger.empty], le_refl 0⟩

/-- **When pruning removes exactly what is due.**  After any history of records, with any
timestamps, and passes, whatever the cutoff, the sink and the batch size: a pass that comes
to an end removes exactly the events older than the cutoff, as many as `due` counts, if and
only if no event inside the window comes before one past it, and the batches are not of size
0 while something is due. -/
theorem prunes_due_iff {moves : List Move} {ledger : Ledger}
    (hrun : Run Ledger.Draws (Ledger.step sha256) Ledger.empty moves ledger) {call : PruneCall}
    (hdraws : ledger.Draws (.prune call)) {pruned : Pruned}
    (hok : (prune sha256 ledger.trail call).result = .ok pruned) :
    ((∀ row ∈ ledger.trail.rows, row ∈ (prune sha256 ledger.trail call).trail.rows ↔
          call.cutoff ≤ row.columns.occurredAt) ∧
        pruned.removed = due ledger.trail.rows call.cutoff) ↔
      Aligned ledger.trail.rows call.cutoff ∧
        (call.batch ≠ 0 ∨ due ledger.trail.rows call.cutoff = 0) := by
  have hordered := ordered_of_run hrun
  have hnodup : (ledger.trail.rows.map Row.seq).Nodup :=
    List.pairwise_map.mpr (hordered.sorted.imp fun hlt => ne_of_lt hlt)
  refine removes_due_iff hnodup hordered.positive (fun row hrow => ?_) hok
  exact lt_of_le_of_lt (hordered.drawn row hrow) hdraws.1

end Hash

/-! ### Two events, in either order -/

section Two

variable {sha256 : String → String}

/-- Two calls, one after the other, that meet the condition and draw what they have to. -/
structure Consecutive (a b : RecordCall) : Prop where
  keeps : a.keeps = true ∧ b.keeps = true
  fits : fits 64 a.eventId = true ∧ fits 64 b.eventId = true
  ids : a.eventId ≠ b.eventId
  positive : 0 < a.seq
  lt : a.seq < b.seq

theorem two_calls (hsha : ∀ s, fits 64 (sha256 s) = true) {a b : RecordCall}
    (h : Consecutive a b) :
    ∃ first second, AddedBy sha256 (emptied []) a first ∧
      AddedBy sha256 ⟨[first], []⟩ b second ∧
      record sha256 (emptied []) a = ⟨[first], []⟩ ∧
      record sha256 ⟨[first], []⟩ b = ⟨[first, second], []⟩ := by
  obtain ⟨first, hfirst, hrecord, hone⟩ := one_call hsha h.positive h.fits.1 h.keeps.1
  have hold : first.seq < b.seq := hfirst.seq.symm ▸ h.lt
  have hpos : 0 < b.seq := h.positive.trans h.lt
  have hdraws : Draws ⟨[first], []⟩ b :=
    ⟨hpos, by simpa using hold, by simpa [hfirst.eventId] using h.ids, h.fits.2⟩
  obtain ⟨second, hsecond, hrecord', -⟩ := hone.record hsha hdraws h.keeps.2
  exact ⟨first, second, hfirst, hsecond, hrecord, hrecord'⟩

theorem two_records (hsha : ∀ s, fits 64 (sha256 s) = true) {a b : RecordCall}
    (h : Consecutive a b) :
    ∃ first second, AddedBy sha256 (emptied []) a first ∧
      AddedBy sha256 ⟨[first], []⟩ b second ∧
      Run Ledger.Draws (Ledger.step sha256) Ledger.empty [.record a, .record b]
        ⟨⟨[first, second], []⟩, b.seq, [first, second], [], []⟩ := by
  obtain ⟨first, second, hfirst, hsecond, hrecord, hrecord'⟩ := two_calls hsha h
  refine ⟨first, second, hfirst, hsecond, ?_⟩
  have hstep : Ledger.step sha256 Ledger.empty (.record a) =
      ⟨⟨[first], []⟩, a.seq, [first], [], []⟩ := by
    have htrail : (Move.record a).trail sha256 Ledger.empty.trail = ⟨[first], []⟩ := hrecord
    have hnew : (0 : Int) < first.seq := hfirst.seq.symm ▸ h.positive
    simp only [Ledger.step, htrail]
    simp [Ledger.empty, Move.seq, hnew]
  have hstep' : Ledger.step sha256 ⟨⟨[first], []⟩, a.seq, [first], [], []⟩ (.record b) =
      ⟨⟨[first, second], []⟩, b.seq, [first, second], [], []⟩ := by
    have htrail : (Move.record b).trail sha256 ⟨[first], []⟩ = ⟨[first, second], []⟩ := hrecord'
    have hnew : a.seq < second.seq := hsecond.seq.symm ▸ h.lt
    have hnot : ¬ a.seq < first.seq := by
      have := hfirst.seq
      omega
    simp only [Ledger.step, htrail]
    simp [Move.seq, hnew, hnot]
  refine .cons ⟨h.positive, by simp [Ledger.empty], h.fits.1⟩
    (hstep ▸ .cons ⟨h.lt, ?_, h.fits.2⟩ ?_)
  · simpa [hfirst.eventId, Move.eventId] using h.ids
  · rw [hstep']
    exact .nil _

end Two

/-- A token is issued on the first of January. -/
def januaryCall (seq : Int) : RecordCall := { issuedCall with seq := seq }

/-- Another one on the last of May. -/
def mayCall (seq : Int) : RecordCall :=
  { issuedCall with
    seq := seq
    now := 1780185600000000
    eventId := "c2a9d1f7-88b3-4e60-a5c4-17e0b94d6f3a" }

theorem january_may : Consecutive (januaryCall 1) (mayCall 2) where
  keeps := by decide +kernel
  fits := by decide +kernel
  ids := by decide
  positive := by decide
  lt := by decide

theorem may_january : Consecutive (mayCall 1) (januaryCall 2) where
  keeps := january_may.keeps.symm
  fits := january_may.fits.symm
  ids := january_may.ids.symm
  positive := by decide
  lt := by decide

/-- A pass in March of the year after: the first of January is past retention, and the last
of May is not. -/
def marchPass : PruneCall where
  sink := fun _ _ => true
  performedBy := "registrar"
  reason := "annual retention"
  moment := 1806105600000000
  now := 1806105600500000
  correlationId := "e83b5a1c0d7f4296"
  impersonator := none
  eventId := "5d3e8f10-2b47-4c9a-b6d8-90f1a7c2e4b5"
  seq := 3

/-- The digest of the January event behind genesis. -/
def januaryHash : String := "6d5f1423776cd4e1a316a73666f86281c8dcdacd35c7b78046fbc67e8f3e8251"

/-- The digest of the May event behind that. -/
def mayHash : String := "8a0969a651c4d0f6015447a438758ddbecf450143e2324c7868ba48560db1cce"

/-- The digest of the May event behind genesis. -/
def mayFirstHash : String := "91481a3e3fa8502b4b8a774cfb8a7a4624e946564c00e8e41db90d270afda671"

/-- The digest of the January event behind that. -/
def januaryLastHash : String := "b4a85a28778fe3dce1e4e56d9f681479edf7e043337b6d01ffc3dff209a6b1f3"

/-- The digests of the two events, in either order, and of the passes behind them. -/
def sampleSha256 : String → String :=
  tabulated
    [(genesis, januaryCall 1, januaryHash),
      (januaryHash, mayCall 2, mayHash),
      (mayHash, marchPass.noted 1 1,
        "07431cdbb9342104069cda22e1ed921dbf3d4b6b2a03cd9a15382e20a5198662"),
      (genesis, mayCall 1, mayFirstHash),
      (mayFirstHash, januaryCall 2, januaryLastHash),
      (januaryLastHash, marchPass.noted 2 2,
        "70282d2d9d2bf8debea9fc2d43d6c9ca0497e954dce3b171d382ee5dbb057649")]

theorem fits_sampleSha256 (s : String) :
    fits 64 (sampleSha256 s) = true ∧ sampleSha256 s ≠ "" := by
  have hdigests : ∀ digest ∈ [januaryHash, mayHash,
      "07431cdbb9342104069cda22e1ed921dbf3d4b6b2a03cd9a15382e20a5198662", mayFirstHash,
      januaryLastHash, "70282d2d9d2bf8debea9fc2d43d6c9ca0497e954dce3b171d382ee5dbb057649"],
      fits 64 digest = true ∧ digest ≠ "" := by decide +kernel
  refine tabulated_of (P := fun digest => fits 64 digest = true ∧ digest ≠ "")
    (fun entry hentry => hdigests _ ?_) (by decide +kernel) s
  exact List.mem_map_of_mem (f := fun entry => entry.2.2) hentry

theorem draws_marchPass {trail trail' : Trail} {a b : RecordCall} {first second : Row}
    (hfirst : AddedBy sampleSha256 trail a first) (hsecond : AddedBy sampleSha256 trail' b second)
    (ha : a.eventId ≠ marchPass.eventId) (hb : b.eventId ≠ marchPass.eventId) :
    Ledger.Draws ⟨⟨[first, second], []⟩, 2, [first, second], [], []⟩ (.prune marchPass) := by
  have hnext : (2 : Int) < 3 := by decide
  refine ⟨hnext, ?_, by decide +kernel⟩
  simpa [Move.eventId, hfirst.eventId, hsecond.eventId] using ⟨ha, hb⟩

/-- **In the order of their times** the pass removes the January event, which is the one
that is due. -/
theorem prunes_due_marchPass :
    ∃ ledger : Ledger, (ledger.trail.rows.map fun row => row.columns.occurredAt) =
        [1767225600000000, 1780185600000000] ∧
      ∃ pruned, (prune sampleSha256 ledger.trail marchPass).result = .ok pruned ∧
        (∀ row ∈ ledger.trail.rows, row ∈ (prune sampleSha256 ledger.trail marchPass).trail.rows ↔
          marchPass.cutoff ≤ row.columns.occurredAt) ∧
        pruned.removed = due ledger.trail.rows marchPass.cutoff := by
  obtain ⟨first, second, hfirst, hsecond, hrun⟩ :=
    two_records (fun s => (fits_sampleSha256 s).1) january_may
  have hdraws := draws_marchPass hfirst hsecond (by decide) (by decide)
  have hat : first.columns.occurredAt = 1767225600000000 := hfirst.occurredAt
  have hat' : second.columns.occurredAt = 1780185600000000 := hsecond.occurredAt
  have hseq : first.seq = 1 := hfirst.seq
  have hseq' : second.seq = 2 := hsecond.seq
  have hcutoff : marchPass.cutoff = 1771545600000000 := by decide
  have hboundary : boundary [first, second] marchPass.cutoff = some (1, first.hash) := by
    simp [boundary, bySeq, hat, hat', hcutoff, hseq]
  have hresult := @prune_of_accepts sampleSha256 ⟨[first, second], []⟩ marchPass (fun _ _ => rfl)
    (by decide) (by simp [hseq, hseq']) (by simp [hseq, hseq']) 1 first.hash hboundary
    (by decide +kernel)
  have haligned : Aligned [first, second] marchPass.cutoff := by
    simp [Aligned, hat, hat', hcutoff, hseq, hseq']
  exact ⟨_, by simp [hat, hat'], _, congrArg Pass.result hresult,
    (prunes_due_iff hrun hdraws (congrArg Pass.result hresult)).mpr ⟨haligned, .inl (by decide)⟩⟩

/-- **In the other order** it removes the May event too, which is inside the window, and
`due` has counted one event. -/
theorem not_prunes_due :
    ¬ ∀ (moves : List Move) (ledger : Ledger) (call : PruneCall) (pruned : Pruned),
      Run Ledger.Draws (Ledger.step sampleSha256) Ledger.empty moves ledger →
      ledger.Draws (.prune call) → (prune sampleSha256 ledger.trail call).result = .ok pruned →
      (∀ row ∈ ledger.trail.rows, row ∈ (prune sampleSha256 ledger.trail call).trail.rows ↔
          call.cutoff ≤ row.columns.occurredAt) ∧
        pruned.removed = due ledger.trail.rows call.cutoff := by
  intro h
  obtain ⟨first, second, hfirst, hsecond, hrun⟩ :=
    two_records (fun s => (fits_sampleSha256 s).1) may_january
  have hdraws := draws_marchPass hfirst hsecond (by decide) (by decide)
  have hat : first.columns.occurredAt = 1780185600000000 := hfirst.occurredAt
  have hat' : second.columns.occurredAt = 1767225600000000 := hsecond.occurredAt
  have hseq : first.seq = 1 := hfirst.seq
  have hseq' : second.seq = 2 := hsecond.seq
  have hcutoff : marchPass.cutoff = 1771545600000000 := by decide
  have hboundary : boundary [first, second] marchPass.cutoff = some (2, second.hash) := by
    simp [boundary, bySeq, hat, hat', hcutoff, hseq']
  have hresult := @prune_of_accepts sampleSha256 ⟨[first, second], []⟩ marchPass (fun _ _ => rfl)
    (by decide) (by simp [hseq, hseq']) (by simp [hseq, hseq']) 2 second.hash hboundary
    (by decide +kernel)
  have hcount := (h _ _ marchPass _ hrun hdraws (congrArg Pass.result hresult)).2
  simp [due, bySeq, hat, hat', hcutoff, hseq, hseq'] at hcount

end Audit
end CampusID
