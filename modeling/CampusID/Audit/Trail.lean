import CampusID.Lib.Runs
import CampusID.Audit.RoundTrip
import CampusID.Audit.Log

/-!
# The trail verifies after the round trip

Calls of `AuditLog.record`, one after another under the chain lock, on an empty event table
that may have retention anchors.  Each call draws a sequence number above those in the table
and an event identifier that is not in it.

A call adds its row and keeps the trail verifiable when its texts fit their columns and its
detail, redacted, is `storable`: no tuple, no float that is whole, not a number or too long an
integer, and no dictionary with keys that are neither all strings nor all numbers.  A tuple is
hashed as its text and given back as a list; a `True` or `None` key is hashed as `True` or
`None` and given back as `true` or `null`; a whole float is given back as an integer; and keys
of several types do not sort, so that the write raises and the event is lost.

* `Chained` says that every row links to the one before it and hashes to what it records,
  as it is read back, in whatever order keys come.
* `Chained.record` is the step and `verifyChain_of_chained` what the verifier makes of it.
-/

namespace CampusID
namespace Audit

open Lib

/-! ## What fits -/

/-- The text fits a column of this length. -/
def fits (length : Nat) (s : String) : Bool := isStorable s && s.length ≤ length

/-- The text fits a nullable column of this length. -/
def fits? (length : Nat) : Option String → Bool
  | some s => fits length s
  | none => true

theorem varchar_of_fits {length : Nat} {s : String} (h : fits length s = true) :
    varchar length s = .ok s := by
  unfold fits at h
  rw [Bool.and_eq_true, decide_eq_true_eq] at h
  simp [varchar, h.1, h.2]

theorem varchar?_of_fits {length : Nat} {s : Option String} (h : fits? length s = true) :
    varchar? length s = .ok s := by
  cases s with
  | none => rfl
  | some s => simp [varchar?, varchar_of_fits (show fits length s = true from h)]

/-- Every text of the columns fits. -/
structure Fits (columns : Columns) : Prop where
  eventId : fits 64 columns.eventId = true
  eventType : fits 64 columns.eventType = true
  outcome : fits 16 columns.outcome = true
  correlationId : fits 64 columns.correlationId = true
  actor : fits? 512 columns.actor = true
  subject : fits? 512 columns.subject = true
  target : fits? 1024 columns.target = true
  reason : fits? 512 columns.reason = true
  sourceIp : fits? 45 columns.sourceIp = true
  userAgent : fits? 512 columns.userAgent = true
  sessionId : fits? 128 columns.sessionId = true

theorem storedColumns_of_fits {columns : Columns} (h : Fits columns) {w : Value}
    (hw : stored columns.detail = .ok w) :
    storedColumns columns = .ok { columns with detail := w } := by
  simp only [storedColumns, varchar_of_fits h.eventId, varchar_of_fits h.eventType,
    varchar_of_fits h.outcome, varchar_of_fits h.correlationId, varchar?_of_fits h.actor,
    varchar?_of_fits h.subject, varchar?_of_fits h.target, varchar?_of_fits h.reason,
    varchar?_of_fits h.sourceIp, varchar?_of_fits h.userAgent, varchar?_of_fits h.sessionId, hw,
    ok_bind]
  rfl

theorem fits_eventType (eventType : EventType) : fits 64 eventType.value = true := by
  cases eventType <;> decide

theorem fits_outcome (outcome : Outcome) : fits 16 outcome.value = true := by
  cases outcome <;> decide

/-! ## The covered text -/

/-- The JSON text of a text column. -/
def textOf : Option String → String
  | some s => jsonString s
  | none => "null"

theorem dumps_renderText (s : Option String) : dumps (renderText s) = .ok (textOf s) := by
  cases s <;> rfl

/-- The covered text, from the text of the detail. -/
def canonicalText (columns : Columns) (detail : String) : String :=
  "\x7b" ++ membersText
    [("event_id", jsonString columns.eventId),
      ("event_type", jsonString columns.eventType),
      ("outcome", jsonString columns.outcome),
      ("occurred_at", jsonString (utcText columns.occurredAt)),
      ("correlation_id", jsonString columns.correlationId),
      ("actor", textOf columns.actor),
      ("subject", textOf columns.subject),
      ("target", textOf columns.target),
      ("reason", textOf columns.reason),
      ("source_ip", textOf columns.sourceIp),
      ("user_agent", textOf columns.userAgent),
      ("session_id", textOf columns.sessionId),
      ("detail", detail)] ++ "\x7d"

theorem canonical_eq {columns : Columns} {t : String} (h : valueText columns.detail = .ok t) :
    canonical columns = .ok (canonicalText columns t) := by
  obtain ⟨j, hj, ht⟩ := valueText_eq_ok.mp h
  simp only [canonical, hj, ok_bind, dumps, dumpsEntries, dumps_renderText, ht]
  rfl

/-! ## The chain -/

section Hash

variable {sha256 : String → String}

/-- Every row links to the one before it and hashes to what it records, as it is read. -/
def Linked (sha256 : String → String) : String → List Row → Prop
  | _, [] => True
  | expected, row :: rows => row.prevHash = expected ∧
      (∀ reorder : List (Key × Value) → List (Key × Value), (∀ l, (reorder l).Perm l) →
        link sha256 expected (row.read reorder).columns = .ok row.hash) ∧
      Linked sha256 row.hash rows

/-- The hash a chain of rows ends on. -/
def headFrom (expected : String) (rows : List Row) : String :=
  match rows.getLast? with
  | none => expected
  | some row => row.hash

@[simp] theorem headFrom_nil (expected : String) : headFrom expected [] = expected := rfl

@[simp] theorem headFrom_cons (expected : String) (row : Row) (rows : List Row) :
    headFrom expected (row :: rows) = headFrom row.hash rows := by
  unfold headFrom
  cases hrows : rows.getLast? with
  | none =>
    rw [List.getLast?_eq_none_iff] at hrows
    subst hrows
    rfl
  | some last => simp [List.getLast?_cons, hrows]

theorem linked_append {expected : String} {rows rows' : List Row} :
    Linked sha256 expected (rows ++ rows') ↔
      Linked sha256 expected rows ∧ Linked sha256 (headFrom expected rows) rows' := by
  induction rows generalizing expected with
  | nil => simp [Linked]
  | cons row rows ih => simp [Linked, ih, and_assoc]

theorem verifyRows_of_linked {reorder : List (Key × Value) → List (Key × Value)}
    (hreorder : ∀ l, (reorder l).Perm l) {expected : String} {lastSeq : Option Int}
    {rows : List Row} (hlinked : Linked sha256 expected rows)
    (hsorted : rows.Pairwise fun a b => a.seq < b.seq)
    (hlast : ∀ last ∈ lastSeq, ∀ row ∈ rows, last < row.seq) :
    verifyRows sha256 expected lastSeq (rows.map (Row.read reorder)) = .ok none := by
  induction rows generalizing expected lastSeq with
  | nil => rfl
  | cons row rows ih =>
    obtain ⟨hprev, hhash, hrest⟩ := hlinked
    rw [List.pairwise_cons] at hsorted
    have horder : (lastSeq.any fun last => row.seq ≤ last) = false := by
      cases lastSeq with
      | none => rfl
      | some last =>
        have := hlast last rfl row List.mem_cons_self
        simp only [Option.any_some, decide_eq_false_iff_not]
        omega
    have hhash' := hhash reorder hreorder
    simp only [List.map_cons, verifyRows]
    rw [show (row.read reorder).seq = row.seq from rfl,
      show (row.read reorder).prevHash = row.prevHash from rfl,
      show (row.read reorder).hash = row.hash from rfl, horder, hprev, hhash']
    simp only [Bool.false_eq_true, if_false, ne_eq, not_true_eq_false, ok_bind]
    refine ih hrest hsorted.2 ?_
    rintro last ⟨⟩ other hother
    exact hsorted.1 other hother

/-- What holds of the trail after every call: the rows are in order and linked from where
the surviving chain begins, and that hash and theirs fit their columns. -/
structure Chained (sha256 : String → String) (trail : Trail) : Prop where
  sorted : trail.rows.Pairwise fun a b => a.seq < b.seq
  positive : ∀ row ∈ trail.rows, 0 < row.seq
  linked : Linked sha256 (startingHash trail.anchors) trail.rows
  fits : fits 64 (headFrom (startingHash trail.anchors) trail.rows) = true

theorem bySeq_of_sorted {rows : List Row} (h : rows.Pairwise fun a b => a.seq < b.seq) :
    bySeq rows = rows :=
  (h.imp fun hab => le_of_lt hab).insertionSort_eq

theorem Chained.previousHash {trail : Trail} (h : Chained sha256 trail) :
    previousHash trail = headFrom (startingHash trail.anchors) trail.rows := by
  have hlast : Audit.previousHash trail =
      headFrom (startingHash trail.anchors) (bySeq trail.rows) := rfl
  rw [hlast, bySeq_of_sorted h.sorted]

/-! ## The verifier -/

theorem filter_of_sorted {done rest : List Row} {lastSeq : Int}
    (hdone : ∀ row ∈ done, row.seq ≤ lastSeq) (hrest : ∀ row ∈ rest, lastSeq < row.seq) :
    ((done ++ rest).filter fun row => lastSeq < row.seq) = rest := by
  rw [List.filter_append]
  have h1 : (done.filter fun row => lastSeq < row.seq) = [] := by
    rw [List.filter_eq_nil_iff]
    intro row hrow
    have := hdone row hrow
    simp only [decide_eq_true_eq]
    omega
  have h2 : (rest.filter fun row => lastSeq < row.seq) = rest := by
    rw [List.filter_eq_self]
    exact fun row hrow => by simpa using hrest row hrow
  rw [h1, h2, List.nil_append]

/-- **The walk over the batches finds no break.**  By induction on how many rows are left;
the hash carried across a batch is the one its last row ends on. -/
theorem verifyPages_of_linked {reorder : List (Key × Value) → List (Key × Value)}
    (hreorder : ∀ l, (reorder l).Perm l) (batch : Nat) {done rest : List Row} {expected : String}
    {lastSeq : Int} (hsorted : (done ++ rest).Pairwise fun a b => a.seq < b.seq)
    (hdone : ∀ row ∈ done, row.seq ≤ lastSeq) (hrest : ∀ row ∈ rest, lastSeq < row.seq)
    (hlinked : Linked sha256 expected rest) :
    verifyPages sha256 reorder batch (done ++ rest) expected lastSeq = .ok none := by
  induction hn : rest.length using Nat.strong_induction_on generalizing done rest expected lastSeq
    with
  | _ n ih =>
    have hsortedRest : rest.Pairwise fun a b => a.seq < b.seq :=
      (List.pairwise_append.mp hsorted).2.1
    have hpage : page batch (done ++ rest) lastSeq = rest.take batch := by
      unfold page
      rw [filter_of_sorted hdone hrest, bySeq_of_sorted hsortedRest]
    obtain ⟨hlinkedTake, hlinkedDrop⟩ :=
      linked_append.mp (by rwa [List.take_append_drop] : Linked sha256 expected
        (rest.take batch ++ rest.drop batch))
    have hverify : verifyFrom sha256 expected
        ((page batch (done ++ rest) lastSeq).map (Row.read reorder)) = .ok none := by
      rw [hpage]
      exact verifyRows_of_linked hreorder hlinkedTake
        (hsortedRest.sublist (List.take_sublist batch rest)) (by simp)
    rw [verifyPages]
    split
    · rfl
    · rename_i last hlast
      rw [hverify]
      simp only
      rw [hpage] at hlast
      have hmemLast : last ∈ rest.take batch := List.mem_of_getLast? hlast
      have hhead : headFrom expected (rest.take batch) = last.hash := by
        unfold headFrom
        rw [hlast]
      have hcut : done ++ rest = (done ++ rest.take batch) ++ rest.drop batch := by
        rw [List.append_assoc, List.take_append_drop]
      have hlen : (rest.drop batch).length < n := by
        have : 0 < (rest.take batch).length := List.length_pos_of_mem hmemLast
        rw [List.length_drop]
        rw [List.length_take] at this
        omega
      rw [hcut]
      rw [hhead] at hlinkedDrop
      refine ih _ hlen (hcut ▸ hsorted) (fun row hrow => ?_) (fun row hrow => ?_) hlinkedDrop rfl
      · -- everything walked so far is at or below the last row of the page
        rcases List.mem_append.mp hrow with hrow | hrow
        · have h1 := hdone row hrow
          have h2 := hrest last (List.mem_of_mem_take hmemLast)
          omega
        · obtain ⟨init, hinit⟩ := List.getLast?_eq_some_iff.mp hlast
          have hpw := hsortedRest.sublist (List.take_sublist batch rest)
          rw [hinit] at hrow hpw
          rcases List.mem_append.mp hrow with hrow | hrow
          · exact le_of_lt ((List.pairwise_append.mp hpw).2.2 row hrow last (by simp))
          · rw [List.mem_singleton.mp hrow]
      · -- and everything left is above it
        have hpw : (rest.take batch ++ rest.drop batch).Pairwise fun a b => a.seq < b.seq := by
          rwa [List.take_append_drop]
        exact (List.pairwise_append.mp hpw).2.2 last hmemLast row hrow

theorem verifyChain_of_chained {reorder : List (Key × Value) → List (Key × Value)}
    (hreorder : ∀ l, (reorder l).Perm l) (batch : Nat) {trail : Trail}
    (h : Chained sha256 trail) : verifyChain sha256 reorder batch trail = .ok none := by
  have hsorted : (([] : List Row) ++ trail.rows).Pairwise fun a b => a.seq < b.seq := h.sorted
  exact verifyPages_of_linked hreorder batch hsorted (by simp) h.positive h.linked

/-! ## Calls -/

/-- What a call draws is new: the sequence number is above those in the table, and the event
identifier is not in it and fits its column. -/
def Draws (trail : Trail) (call : RecordCall) : Prop :=
  0 < call.seq ∧ (∀ row ∈ trail.rows, row.seq < call.seq) ∧
    (∀ row ∈ trail.rows, row.columns.eventId ≠ call.eventId) ∧ fits 64 call.eventId = true

/-- **The condition.**  The texts of the call fit their columns, and its detail, with the
impersonation and redacted, is a value that survives the JSONB column. -/
def RecordCall.keeps (call : RecordCall) : Bool :=
  fits 64 call.correlationId && fits? 512 call.actor && fits? 512 call.subject &&
    fits? 1024 call.target && fits? 512 call.reason && fits? 45 call.sourceIp &&
    fits? 512 call.userAgent && fits? 128 call.sessionId &&
    storable (row call.event).detail

theorem RecordCall.fits_of_keeps {call : RecordCall} (h : call.keeps = true)
    (hid : fits 64 call.eventId = true) :
    Fits (row call.event) ∧ storable (row call.event).detail = true := by
  simp only [RecordCall.keeps, Bool.and_eq_true] at h
  obtain ⟨⟨⟨⟨⟨⟨⟨⟨hcorrelation, hactor⟩, hsubject⟩, htarget⟩, hreason⟩, hip⟩, hagent⟩, hsession⟩,
    hdetail⟩ := h
  exact ⟨⟨hid, fits_eventType _, fits_outcome _, hcorrelation, hactor, hsubject, htarget, hreason,
    hip, hagent, hsession⟩, hdetail⟩

/-- The row a call adds, from the text of its detail and from what the column keeps of it. -/
def addedRow (sha256 : String → String) (trail : Trail) (call : RecordCall) (t : String)
    (w : Value) : Row where
  seq := call.seq
  prevHash := previousHash trail
  hash := sha256 (previousHash trail ++ canonicalText (row call.event) t)
  columns := { row call.event with detail := w }

/-- The row is the one this call adds. -/
structure AddedBy (sha256 : String → String) (trail : Trail) (call : RecordCall) (added : Row) :
    Prop where
  seq : added.seq = call.seq
  prevHash : added.prevHash = previousHash trail
  hash : link sha256 (previousHash trail) (row call.event) = .ok added.hash
  columns : { added.columns with detail := (row call.event).detail } = row call.event

/-- **What a call does**: it adds one row that continues the chain. -/
theorem Chained.record {trail : Trail} (h : Chained sha256 trail)
    (hsha : ∀ s, Audit.fits 64 (sha256 s) = true) {call : RecordCall} (hdraws : Draws trail call)
    (hkeeps : call.keeps = true) :
    ∃ row, AddedBy sha256 trail call row ∧
      Audit.record sha256 trail call = { trail with rows := trail.rows ++ [row] } ∧
      Chained sha256 { trail with rows := trail.rows ++ [row] } := by
  obtain ⟨hpos, hseq, hnew, hid⟩ := hdraws
  obtain ⟨hfits, hstorable⟩ := RecordCall.fits_of_keeps hkeeps hid
  have hsurvives : Survives id (row call.event).detail :=
    survives_of_storable (fun _ => .refl _) _ hstorable
  obtain ⟨w, t, hw, ht, -⟩ := hsurvives
  have hkept := storedColumns_of_fits hfits hw
  have hlink : link sha256 (Audit.previousHash trail) (row call.event) =
      .ok (sha256 (Audit.previousHash trail ++ canonicalText (row call.event) t)) := by
    simp [link, canonical_eq ht]
  have hunique : (trail.rows.any fun other =>
      other.columns.eventId = (row call.event).eventId) = false := by
    rw [List.any_eq_false]
    intro other hother
    have hne : other.columns.eventId ≠ (row call.event).eventId := hnew other hother
    simpa using hne
  have hprev : Audit.fits 64 (Audit.previousHash trail) = true := h.previousHash ▸ h.fits
  have hrow : newRow sha256 trail (row call.event) call.seq =
      .ok (addedRow sha256 trail call t w) := by
    simp only [newRow, hlink, hkept, ok_bind, hunique, varchar_of_fits hprev,
      varchar_of_fits (hsha _)]
    rfl
  refine ⟨addedRow sha256 trail call t w, ⟨rfl, rfl, hlink, rfl⟩, ?_, ?_, ?_, ?_, ?_⟩
  · unfold Audit.record write
    rw [hrow]
  · rw [List.pairwise_append]
    refine ⟨h.sorted, List.pairwise_singleton _ _, fun a ha b hb => ?_⟩
    rw [List.mem_singleton.mp hb]
    exact hseq a ha
  · intro other hother
    rcases List.mem_append.mp hother with hother | hother
    · exact h.positive other hother
    · rw [List.mem_singleton.mp hother]
      exact hpos
  · refine linked_append.mpr ⟨h.linked, h.previousHash, fun reorder hreorder => ?_, trivial⟩
    -- the detail as it is read has the text it was hashed with
    obtain ⟨w', t', hw', ht', hback⟩ := survives_of_storable hreorder _ hstorable
    obtain rfl : w = w' := Except.ok.inj (hw.symm.trans hw')
    obtain rfl : t = t' := Except.ok.inj (ht.symm.trans ht')
    have hcanonical : canonical ((addedRow sha256 trail call t w).read reorder).columns =
        .ok (canonicalText (row call.event) t) := canonical_eq hback
    simp only [link, hcanonical, ok_bind, ← h.previousHash]
    rfl
  · simp only [headFrom, List.getLast?_append, List.getLast?_singleton, Option.some_or]
    exact hsha _

/-! ## Whole runs -/

/-- The trail before the first call: no events, and perhaps anchors of retention passes. -/
def emptied (anchors : List Anchor) : Trail := ⟨[], anchors⟩

/-- **Nothing is lost and the trail verifies.**  Whatever the hash, the anchors, the batch size
and the order in which keys are read back: after calls that all meet the condition the table
has one row for each of them, and the verifier finds no break. -/
theorem verifies_of_keeps (hsha : ∀ s, fits 64 (sha256 s) = true) {anchors : List Anchor}
    (hanchors : fits 64 (startingHash anchors) = true) {calls : List RecordCall} {trail : Trail}
    (hrun : Run (fun trail call => Draws trail call ∧ call.keeps = true) (record sha256)
      (emptied anchors) calls trail) :
    trail.rows.length = calls.length ∧
      ∀ (reorder : List (Key × Value) → List (Key × Value)), (∀ l, (reorder l).Perm l) →
        ∀ batch, verifyChain sha256 reorder batch trail = .ok none := by
  have hstart : Chained sha256 (emptied anchors) :=
    ⟨List.Pairwise.nil, by simp [emptied], trivial, hanchors⟩
  have hmain : ∀ {from' trail : Trail} {calls : List RecordCall}, Chained sha256 from' →
      Run (fun trail call => Draws trail call ∧ call.keeps = true) (record sha256) from' calls
        trail →
      trail.rows.length = from'.rows.length + calls.length ∧ Chained sha256 trail := by
    intro from' trail calls hchained hrun
    induction hrun with
    | nil => exact ⟨rfl, hchained⟩
    | @cons s t call calls hcall _ ih =>
      obtain ⟨row, -, hrecord, hnext⟩ := hchained.record hsha hcall.1 hcall.2
      obtain ⟨hlen, hend⟩ := ih (hrecord ▸ hnext)
      refine ⟨?_, hend⟩
      rw [hlen, hrecord, List.length_append, List.length_singleton, List.length_cons]
      omega
  obtain ⟨hlen, hchained⟩ := hmain hstart hrun
  refine ⟨by simpa [emptied] using hlen, fun reorder hreorder batch => ?_⟩
  exact verifyChain_of_chained hreorder batch hchained

end Hash

/-! ### Two calls -/

/-- A token is issued. -/
def issuedCall : RecordCall where
  eventType := .tokenIssued
  outcome := .success
  actor := some "portal"
  subject := some "sam"
  target := none
  reason := none
  sourceIp := some "192.0.2.7"
  userAgent := none
  sessionId := none
  detail := some [("scopes", .list [.str "email", .str "openid"]), ("lifetime", .num (.int 300))]
  now := 1767225600000000
  correlationId := "6f1e0c9ad2b34875"
  impersonator := none
  eventId := "0b7f2c4e-5f0a-4c58-9d1e-3a6b1f0c9e21"
  seq := 1

/-- The text of its event. -/
def issuedText : String :=
  "\x7b\"actor\":\"portal\",\"correlation_id\":\"6f1e0c9ad2b34875\",\"detail\":" ++
    "\x7b\"lifetime\":300,\"scopes\":[\"email\",\"openid\"]\x7d,\"event_id\":\"0b7f" ++
    "2c4e-5f0a-4c58-9d1e-3a6b1f0c9e21\",\"event_type\":\"token.issued\",\"occurred_" ++
    "at\":\"2026-01-01T00:00:00.000000+00:00\",\"outcome\":\"success\",\"reason\":n" ++
    "ull,\"session_id\":null,\"source_ip\":\"192.0.2.7\",\"subject\":\"sam\",\"targ" ++
    "et\":null,\"user_agent\":null\x7d"

/-- The SHA-256 digest of that text after the genesis hash, and zeros for any other. -/
def issuedSha256 (s : String) : String :=
  if s = genesis ++ issuedText then
    "6d5f1423776cd4e1a316a73666f86281c8dcdacd35c7b78046fbc67e8f3e8251"
  else genesis

theorem fits_issuedSha256 (s : String) : fits 64 (issuedSha256 s) = true := by
  unfold issuedSha256
  split
  · decide +kernel
  · decide +kernel

theorem run_issuedCall :
    Run (fun trail call => Draws trail call ∧ call.keeps = true) (record issuedSha256) (emptied [])
      [issuedCall] (record issuedSha256 (emptied []) issuedCall) := by
  refine .cons ⟨⟨by decide, ?_, ?_, by decide +kernel⟩, by decide +kernel⟩ (.nil _)
  · simp [emptied]
  · simp [emptied]

/-- One call is one row, and it verifies. -/
theorem verifies_issuedCall :
    (record issuedSha256 (emptied []) issuedCall).rows.length = 1 ∧
      verifyChain issuedSha256 List.reverse 5000 (record issuedSha256 (emptied []) issuedCall) =
        .ok none := by
  obtain ⟨hlen, hverify⟩ :=
    verifies_of_keeps fits_issuedSha256 (by decide +kernel) run_issuedCall
  exact ⟨hlen, hverify List.reverse List.reverse_perm 5000⟩

/-- The same call, counting by a name and by a number: keys of two types. -/
def countedCall : RecordCall :=
  { issuedCall with
    detail := some [("counts", .dict [(.str "total", .num (.int 3)), (.num (.int 2), .num (.int 1))])] }

/-- Keys of two types do not sort, and the event is lost. -/
theorem not_adds_countedCall :
    ¬ ∀ (calls : List RecordCall) (trail : Trail),
      Run (fun trail call => Draws trail call) (record issuedSha256) (emptied []) calls trail →
      trail.rows.length = calls.length ∧
        ∀ (reorder : List (Key × Value) → List (Key × Value)), (∀ l, (reorder l).Perm l) →
          ∀ batch, verifyChain issuedSha256 reorder batch trail = .ok none := by
  intro h
  have hrun : Run (fun trail call => Draws trail call) (record issuedSha256) (emptied [])
      [countedCall] (record issuedSha256 (emptied []) countedCall) := by
    refine .cons ⟨by decide, ?_, ?_, by decide +kernel⟩ (.nil _)
    · simp [emptied]
    · simp [emptied]
  have hlost : (record issuedSha256 (emptied []) countedCall).rows.length = 0 := by decide +kernel
  have hlen := (h _ _ hrun).1
  rw [hlost] at hlen
  cases hlen

end Audit
end CampusID
