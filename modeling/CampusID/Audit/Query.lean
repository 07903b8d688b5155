import CampusID.Lib.Keyset
import CampusID.Audit.Log
import CampusID.Audit.RoundTrip

/-!
# Reading the trail

`AuditQueryStore.search` gives one page of the events a query selects, newest first, and the
cursor to ask for the next page with.  `export.ndjson` follows the cursor to the end and
writes what it was given, oldest first, one line each.

* `search_cases` is what a search can give: a full page with a cursor at its last row and
  more behind it, or everything that is left.
* `follow` is a caller that asks again with every cursor it gets.  Events are appended
  between its calls, so that every call finds a table of its own.
* `follow_eq` is the step: whatever is appended, the pages from a cursor on are what was left
  past that cursor.
* `line_of_readable`: an event that was read from its table has a line, so that the export
  writes them all.

A text with a NUL character is no text to PostgreSQL, and the first search of a query that
has one raises.
-/

namespace CampusID
namespace Audit

open Lib

/-! ## The query -/

/-- `DEFAULT_LIMIT`. -/
def defaultLimit : Int := 50

/-- `MAX_LIMIT`. -/
def maxLimit : Int := 500

/-- `Query`. -/
structure Query where
  subject : Option String := none
  actor : Option String := none
  target : Option String := none
  eventType : Option String := none
  outcome : Option String := none
  correlationId : Option String := none
  sinceTime : Option Int := none
  untilTime : Option Int := none
  limit : Int := defaultLimit
  beforeSeq : Option Int := none

/-- `Page`. -/
structure Page where
  events : List Row
  nextCursor : Option Int

/-- The filters of `_filtered`, but for the cursor. -/
def Query.admits (query : Query) (row : Row) : Bool :=
  (query.subject.all fun s => row.columns.subject = some s) &&
    (query.actor.all fun s => row.columns.actor = some s) &&
    (query.target.all fun s => row.columns.target = some s) &&
    (query.eventType.all fun s => row.columns.eventType = s) &&
    (query.outcome.all fun s => row.columns.outcome = s) &&
    (query.correlationId.all fun s => row.columns.correlationId = s) &&
    (query.sinceTime.all fun t => t ≤ row.columns.occurredAt) &&
    (query.untilTime.all fun t => row.columns.occurredAt < t)

/-- `_filtered`. -/
def Query.selects (query : Query) (row : Row) : Bool :=
  query.admits row && query.beforeSeq.all fun c => row.seq < c

/-- `AuditQueryStore.search`. -/
def search (rows : List Row) (query : Query) : Page :=
  let limit := (max 1 (min query.limit maxLimit)).toNat
  let found := ((rows.filter query.selects).insertionSort fun a b => b.seq ≤ a.seq).take (limit + 1)
  if limit < found.length then
    { events := found.take limit, nextCursor := found[limit - 1]?.map Row.seq }
  else { events := found, nextCursor := none }

/-! ## What a search gives -/

/-- The key of the walk: sequence numbers, from above. -/
def downward (row : Row) : Intᵒᵈ := OrderDual.toDual row.seq

/-- What a query has still to give, newest first. -/
def Query.left (query : Query) (rows : List Row) : List Row :=
  Keyset.remaining downward (query.beforeSeq.map OrderDual.toDual) (rows.filter query.admits)

theorem left_eq (query : Query) (rows : List Row) :
    query.left rows = (rows.filter query.selects).insertionSort fun a b => b.seq ≤ a.seq := by
  unfold Query.left Keyset.remaining
  rw [List.filter_filter]
  have hselects : (fun row => Keyset.past downward (query.beforeSeq.map OrderDual.toDual) row &&
      query.admits row) = query.selects := by
    funext row
    rw [Bool.and_comm]
    unfold Query.selects
    cases query.beforeSeq <;> rfl
  rw [hselects]
  rfl

/-- How many events a query is given at most. -/
def Query.pageSize (query : Query) : Nat := (max 1 (min query.limit maxLimit)).toNat

theorem pageSize_ne_zero (query : Query) : query.pageSize ≠ 0 := by
  unfold Query.pageSize
  omega

theorem search_eq (query : Query) (rows : List Row) : search rows query =
    if query.pageSize < ((query.left rows).take (query.pageSize + 1)).length then
      { events := ((query.left rows).take (query.pageSize + 1)).take query.pageSize,
        nextCursor := ((query.left rows).take (query.pageSize + 1))[query.pageSize - 1]?.map
          Row.seq }
    else { events := (query.left rows).take (query.pageSize + 1), nextCursor := none } := by
  rw [left_eq]
  rfl

/-- **What a search can give**: a full page, a cursor at its last row and something behind
it; or all that is left, and no cursor. -/
theorem search_cases (query : Query) (rows : List Row) :
    (∃ last, (Keyset.page downward query.pageSize (query.beforeSeq.map OrderDual.toDual)
          (rows.filter query.admits)).getLast? = some last ∧
        search rows query = ⟨(query.left rows).take query.pageSize, some last.seq⟩) ∨
      search rows query = ⟨query.left rows, none⟩ := by
  have hsize := pageSize_ne_zero query
  rw [search_eq, List.length_take]
  by_cases hmore : query.pageSize < (query.left rows).length
  · left
    have hfull : query.pageSize < min (query.pageSize + 1) (query.left rows).length := by omega
    have htake : ((query.left rows).take (query.pageSize + 1)).take query.pageSize =
        (query.left rows).take query.pageSize := by
      rw [List.take_take, Nat.min_eq_left (by omega)]
    have hin : query.pageSize - 1 < (query.left rows).length := by omega
    -- the row at the end of the page, and so the one the cursor is read from
    refine ⟨(query.left rows)[query.pageSize - 1], ?_, ?_⟩
    · have hlen : ((query.left rows).take query.pageSize).length = query.pageSize := by
        rw [List.length_take]
        omega
      change ((query.left rows).take query.pageSize).getLast? = _
      rw [List.getLast?_eq_getElem?, hlen, List.getElem?_take_of_lt (by omega),
        List.getElem?_eq_getElem hin]
    · rw [if_pos hfull, htake, List.getElem?_take_of_lt (by omega), List.getElem?_eq_getElem hin]
      rfl
  · right
    have hall : ¬ query.pageSize < min (query.pageSize + 1) (query.left rows).length := by omega
    rw [if_neg hall, List.take_of_length_le (by omega)]

theorem events_search (query : Query) (rows : List Row) :
    (search rows query).events = (query.left rows).take query.pageSize := by
  rw [search_eq]
  split_ifs with hmore
  · exact (List.take_take ..).trans (by rw [Nat.min_eq_left (Nat.le_succ _)])
  · rw [List.length_take] at hmore
    exact (List.take_of_length_le (by omega)).trans (List.take_of_length_le (by omega)).symm

/-! ## Following the cursor -/

/-- A caller that asks again with the cursor of every page, until a page has none.  Its
`call`-th search finds `tables call`. -/
def follow (tables : Nat → List Row) : (fuel : Nat) → (call : Nat) → Query →
    Option (List (List Row))
  | 0, _, _ => none
  | fuel + 1, call, query =>
    let page := search (tables call) query
    match page.nextCursor with
    | none => some [page.events]
    | some cursor =>
      (follow tables fuel (call + 1) { query with beforeSeq := some cursor }).map
        (page.events :: ·)

/-- Every later table has everything the one before has, and above it what was appended. -/
def Appended (tables : Nat → List Row) : Prop :=
  ∀ call, ∃ new, tables (call + 1) = tables call ++ new ∧
    ∀ old ∈ tables call, ∀ row ∈ new, old.seq < row.seq

section Follow

variable {tables : Nat → List Row}

theorem left_after (happended : Appended tables)
    (hnodup : ∀ call, ((tables call).map Row.seq).Nodup) {query : Query} {call : Nat} {last : Row}
    (hlast : (Keyset.page downward query.pageSize (query.beforeSeq.map OrderDual.toDual)
      ((tables call).filter query.admits)).getLast? = some last) :
    Query.left { query with beforeSeq := some last.seq } (tables (call + 1)) =
      (query.left (tables call)).drop query.pageSize := by
  obtain ⟨new, hnew, habove⟩ := happended call
  have hmem := (List.mem_filter.mp (Keyset.past_of_last hlast).1).1
  have hkeys : (((tables call).filter query.admits).map downward).Nodup :=
    (hnodup call).sublist (List.filter_sublist.map Row.seq)
  have hbehind := Keyset.remaining_after hkeys hlast
  -- the events appended meanwhile lie above the cursor
  have hold : Keyset.remaining downward (some (downward last))
      ((tables (call + 1)).filter query.admits) =
        Keyset.remaining downward (some (downward last)) ((tables call).filter query.admits) := by
    rw [hnew, List.filter_append]
    refine Keyset.remaining_append fun row hrow => ?_
    have := habove last hmem row (List.mem_filter.mp hrow).1
    have hle : ¬ downward last < downward row := by
      change ¬ row.seq < last.seq
      omega
    simpa using hle
  exact hold.trans hbehind

/-- **The pages from a cursor on are what was left past it.** -/
theorem follow_eq (happended : Appended tables)
    (hnodup : ∀ call, ((tables call).map Row.seq).Nodup) {fuel : Nat} {call : Nat} {query : Query}
    (hfuel : (query.left (tables call)).length < fuel) :
    ∃ pages, follow tables fuel call query = some pages ∧
      pages.flatten = query.left (tables call) := by
  induction fuel generalizing call query with
  | zero => omega
  | succ fuel ih =>
    rcases search_cases query (tables call) with ⟨last, hlast, hsearch⟩ | hsearch
    · have hafter := left_after happended hnodup hlast
      have hsize := pageSize_ne_zero query
      have hpos : 0 < (query.left (tables call)).length := by
        rw [List.length_pos_iff]
        intro hnil
        have := (Keyset.page_getLast?_eq_none hsize).mpr hnil
        rw [hlast] at this
        cases this
      obtain ⟨pages, hpages, hflat⟩ := @ih (call + 1) { query with beforeSeq := some last.seq } (by
        rw [hafter, List.length_drop]
        omega)
      refine ⟨(query.left (tables call)).take query.pageSize :: pages, ?_, ?_⟩
      · simp only [follow, hsearch, hpages, Option.map_some]
      · rw [List.flatten_cons, hflat, hafter, List.take_append_drop]
    · exact ⟨[query.left (tables call)], by simp only [follow, hsearch], by simp⟩

end Follow

/-! ## The export -/

mutual

/-- A value out of the JSONB column as `json.dumps` takes it. -/
def plain : Value → Except WriteError Json
  | .none => .ok .null
  | .bool b => .ok (.bool b)
  | .num n => .ok (.num n)
  | .str s => .ok (.str s)
  | .list items => do return .list (← plainAll items)
  | .tuple items => do return .list (← plainAll items)
  | .dict entries => do return .dict (← plainEntries entries)

/-- Every item. -/
def plainAll : List Value → Except WriteError (List Json)
  | [] => .ok []
  | v :: vs => do
    let j ← plain v
    let js ← plainAll vs
    return j :: js

/-- Every entry. -/
def plainEntries : List (Key × Value) → Except WriteError (List (String × Json))
  | [] => .ok []
  | (k, v) :: entries => do
    let key ← k.json
    let j ← plain v
    let rest ← plainEntries entries
    return (key, j) :: rest

end

/-- `as_json`. -/
def asJson (row : Row) : Except WriteError Json := do
  let detail ← plain row.columns.detail
  return .dict
    [("seq", .num (.int row.seq)),
      ("event_id", .str row.columns.eventId),
      ("event_type", .str row.columns.eventType),
      ("outcome", .str row.columns.outcome),
      ("occurred_at", .str (isoText row.columns.occurredAt)),
      ("correlation_id", .str row.columns.correlationId),
      ("actor", renderText row.columns.actor),
      ("subject", renderText row.columns.subject),
      ("target", renderText row.columns.target),
      ("reason", renderText row.columns.reason),
      ("source_ip", renderText row.columns.sourceIp),
      ("user_agent", renderText row.columns.userAgent),
      ("session_id", renderText row.columns.sessionId),
      ("detail", detail),
      ("prev_hash", .str row.prevHash),
      ("hash", .str row.hash)]

/-- A code unit as an escape. -/
def unitEscape (n : Nat) : List Char :=
  ['\\', 'u', hexDigit (n / 4096 % 16), hexDigit (n / 256 % 16), hexDigit (n / 16 % 16),
    hexDigit (n % 16)]

/-- A character of a JSON text, with `ensure_ascii`. -/
def asciiChar (c : Char) : List Char :=
  if c.toNat < 127 then [c]
  else if c.toNat < 0x10000 then unitEscape c.toNat
  else unitEscape (0xD800 + (c.toNat - 0x10000) / 1024) ++
    unitEscape (0xDC00 + (c.toNat - 0x10000) % 1024)

/-- One line of the export. -/
def line (row : Row) : Except WriteError String := do
  let text ← dumps (← asJson row)
  return String.ofList (text.toList.flatMap asciiChar) ++ "\n"

/-- A number as a read of the JSONB column gives it: finite, and not too long to be read. -/
def Number.isReadable : Number → Bool
  | .int n => isWritable n
  | .float _ => true
  | .nan => false
  | .inf _ => false

mutual

/-- **The values a read of the column gives**: among them no tuples, and only texts for keys. -/
def readable : Value → Bool
  | .none => true
  | .bool _ => true
  | .num n => n.isReadable
  | .str _ => true
  | .list items => readableAll items
  | .tuple _ => false
  | .dict entries => readableEntries entries

/-- Every item is. -/
def readableAll : List Value → Bool
  | [] => true
  | v :: vs => readable v && readableAll vs

/-- Every entry is. -/
def readableEntries : List (Key × Value) → Bool
  | [] => true
  | (k, v) :: entries => k.isString && readable v && readableEntries entries

end

/-- A row as a search reads it. -/
def Row.isReadable (row : Row) : Bool := isWritable row.seq && readable row.columns.detail

/-- The lines that are written, and what the writing raises, if it does. -/
def emit : List Row → List String × Option WriteError
  | [] => ([], none)
  | row :: rows =>
    match line row with
    | .error e => ([], some e)
    | .ok text => (text :: (emit rows).1, (emit rows).2)

/-- The loop of `ndjson`: the pages. -/
def exportPages (tables : Nat → List Row) (query : Query) : (fuel : Nat) → (call : Nat) →
    (cursor : Option Int) → Option (List (List Row))
  | 0, _, _ => none
  | fuel + 1, call, cursor =>
    let page := search (tables call) { query with limit := maxLimit, beforeSeq := cursor }
    if page.events.isEmpty then some []
    else
      match page.nextCursor with
      | none => some [page.events]
      | some cursor =>
        (exportPages tables query fuel (call + 1) (some cursor)).map (page.events :: ·)

/-- `ndjson`. -/
def ndjson (tables : Nat → List Row) (fuel : Nat) (query : Query) :
    Option (List String × Option WriteError) :=
  (exportPages tables query fuel 0 query.beforeSeq).map fun pages =>
    emit (pages.reverse.flatMap List.reverse)

/-! ### What is read has a line -/

/-- The value has a text. -/
def Written (v : Value) : Prop := ∃ j t, plain v = .ok j ∧ dumps j = .ok t

theorem dumps_int {n : Int} (h : isWritable n = true) : dumps (.num (.int n)) = .ok (toString n) := by
  rw [dumps, Number.json, intText, if_pos h]

theorem written_num {n : Number} (h : n.isReadable = true) : Written (.num n) := by
  cases n with
  | int n =>
    exact ⟨_, _, rfl, dumps_int h⟩
  | float d => exact ⟨_, _, rfl, rfl⟩
  | nan => cases h
  | inf negative => cases h

theorem written_list {items : List Value} (h : ∀ v ∈ items, Written v) : Written (.list items) := by
  have hall : ∃ js, plainAll items = .ok js ∧ ∃ ts, dumpsAll js = .ok ts := by
    induction items with
    | nil => exact ⟨[], rfl, [], rfl⟩
    | cons v vs ih =>
      obtain ⟨j, t, hj, ht⟩ := h v List.mem_cons_self
      obtain ⟨js, hjs, ts, hts⟩ := ih fun v hv => h v (List.mem_cons_of_mem _ hv)
      exact ⟨j :: js, by rw [plainAll, hj, hjs]; rfl, t :: ts, by rw [dumpsAll, ht, hts]; rfl⟩
  obtain ⟨js, hjs, ts, hts⟩ := hall
  exact ⟨_, _, by rw [plain, hjs]; rfl, by rw [dumps, hts]; rfl⟩

theorem written_dict {entries : List (Key × Value)}
    (h : ∀ e ∈ entries, e.1.isString = true ∧ Written e.2) : Written (.dict entries) := by
  have hall : ∃ js, plainEntries entries = .ok js ∧ ∃ ts, dumpsEntries js = .ok ts := by
    induction entries with
    | nil => exact ⟨[], rfl, [], rfl⟩
    | cons e entries ih =>
      obtain ⟨k, v⟩ := e
      obtain ⟨hkey, j, t, hj, ht⟩ := h _ List.mem_cons_self
      obtain ⟨s, rfl, -⟩ := Key.text_of_isString hkey
      obtain ⟨js, hjs, ts, hts⟩ := ih fun e he => h e (List.mem_cons_of_mem _ he)
      exact ⟨(s, j) :: js, by rw [plainEntries, hj, hjs]; rfl, (s, t) :: ts,
        by rw [dumpsEntries, ht, hts]; rfl⟩
  obtain ⟨js, hjs, ts, hts⟩ := hall
  exact ⟨_, _, by rw [plain, hjs]; rfl, by rw [dumps, hts]; rfl⟩

theorem readableAll_iff {items : List Value} :
    readableAll items = true ↔ ∀ v ∈ items, readable v = true := by
  induction items with
  | nil => simp [readableAll]
  | cons v vs ih => simp [readableAll, ih]

theorem readableEntries_iff {entries : List (Key × Value)} : readableEntries entries = true ↔
    ∀ e ∈ entries, e.1.isString = true ∧ readable e.2 = true := by
  induction entries with
  | nil => simp [readableEntries]
  | cons e entries ih => simp [readableEntries, ih]

theorem written_of_readable (v : Value) (h : readable v = true) : Written v := by
  induction v using Value.induct with
  | none => exact ⟨_, _, rfl, rfl⟩
  | bool b => exact ⟨_, _, rfl, rfl⟩
  | num n => exact written_num h
  | str s => exact ⟨_, _, rfl, rfl⟩
  | list items ih => exact written_list fun v hv => ih v hv (readableAll_iff.mp h v hv)
  | tuple items => cases h
  | dict entries ih =>
    refine written_dict fun e he => ?_
    obtain ⟨hkey, hvalue⟩ := readableEntries_iff.mp h e he
    exact ⟨hkey, ih e he hvalue⟩

/-- **An event that is read has a line.** -/
theorem line_of_readable {row : Row} (h : row.isReadable = true) : ∃ text, line row = .ok text := by
  obtain ⟨hseq, hdetail⟩ := Bool.and_eq_true_iff.mp h
  obtain ⟨detail, t, hplain, hdumps⟩ := written_of_readable _ hdetail
  have hjson : ∃ j, asJson row = .ok j ∧ ∃ t, dumps j = .ok t := by
    refine ⟨_, by rw [asJson, hplain]; rfl, ?_⟩
    have hoptional : ∀ text : Option String, ∃ t, dumps (renderText text) = .ok t := by
      intro text
      cases text <;> exact ⟨_, rfl⟩
    rw [dumps, dumpsEntries_eq]
    · exact ⟨_, rfl⟩
    · intro e he
      simp only [List.mem_cons, List.not_mem_nil, or_false] at he
      rcases he with rfl | rfl | rfl | rfl | rfl | rfl | rfl | rfl | rfl | rfl | rfl | rfl | rfl |
        rfl | rfl | rfl
      · exact ⟨_, dumps_int hseq⟩
      case inr.inr.inr.inr.inr.inr.inr.inr.inr.inr.inr.inr.inr.inl => exact ⟨t, hdumps⟩
      all_goals first | exact hoptional _ | exact ⟨_, rfl⟩
  obtain ⟨j, hj, t, ht⟩ := hjson
  refine ⟨String.ofList (t.toList.flatMap asciiChar) ++ "\n", ?_⟩
  rw [line, hj]
  change (dumps j >>= fun _ => _) = _
  rw [ht]
  rfl

/-- **Rows with a line each** are all written. -/
theorem emit_of_lines {rows : List Row} (h : ∀ row ∈ rows, ∃ text, line row = .ok text) :
    ∃ lines, emit rows = (lines, none) ∧
      List.Forall₂ (fun row text => line row = .ok text) rows lines := by
  induction rows with
  | nil => exact ⟨[], rfl, .nil⟩
  | cons row rows ih =>
    obtain ⟨text, htext⟩ := h row List.mem_cons_self
    obtain ⟨lines, hlines, heach⟩ := ih fun row hrow => h row (List.mem_cons_of_mem _ hrow)
    refine ⟨text :: lines, ?_, .cons htext heach⟩
    simp only [emit, htext, hlines]

theorem nextCursor_of_isEmpty {query : Query} {rows : List Row}
    (h : (search rows query).events.isEmpty = true) : (search rows query).nextCursor = none := by
  rcases search_cases query rows with ⟨last, hlast, hsearch⟩ | hsearch
  · rw [hsearch, List.isEmpty_iff] at h
    have hnone : (Keyset.page downward query.pageSize (query.beforeSeq.map OrderDual.toDual)
        (rows.filter query.admits)).getLast? = none := List.getLast?_eq_none_iff.mpr h
    rw [hlast] at hnone
    cases hnone
  · rw [hsearch]

theorem exportPages_flatten (tables : Nat → List Row) (query : Query) (fuel call : Nat)
    (cursor : Option Int) :
    (exportPages tables query fuel call cursor).map List.flatten =
      (follow tables fuel call { query with limit := maxLimit, beforeSeq := cursor }).map
        List.flatten := by
  induction fuel generalizing call cursor with
  | zero => rfl
  | succ fuel ih =>
    simp only [exportPages, follow]
    by_cases hempty : (search (tables call)
        { query with limit := maxLimit, beforeSeq := cursor }).events.isEmpty = true
    · rw [if_pos hempty, nextCursor_of_isEmpty hempty]
      simp [List.isEmpty_iff.mp hempty]
    · rw [if_neg hempty]
      cases hcursor : (search (tables call)
          { query with limit := maxLimit, beforeSeq := cursor }).nextCursor with
      | none => rfl
      | some next =>
        have hnext := ih (call + 1) (some next)
        simp only [Option.map_map] at hnext ⊢
        have hcons : ∀ events : List Row, List.flatten ∘ (events :: ·) =
            (events ++ ·) ∘ List.flatten := by
          intro events
          funext pages
          simp
        rw [hcons, ← Option.map_map, ← Option.map_map, hnext]

/-! ### All of it -/

/-- A token is issued. -/
def issuedEvent (eventId : String) : AuditEvent where
  eventType := .tokenIssued
  outcome := .success
  timestamp := 1767225600000000
  correlationId := "6f1e0c9ad2b34875"
  eventId := eventId
  actor := some "portal"
  subject := some "sam"
  target := none
  reason := none
  sourceIp := none
  userAgent := none
  sessionId := none
  detail := []

/-- The event with this sequence number. -/
def issuedRow (seq : Int) : Row := ⟨seq, "", "", row (issuedEvent (toString seq))⟩

/-- Two events, and a third one before the second call. -/
def growingTables : Nat → List Row
  | 0 => [issuedRow 1, issuedRow 2]
  | _ + 1 => [issuedRow 1, issuedRow 2, issuedRow 3]

theorem appended_growingTables : Appended growingTables
  | 0 => ⟨[issuedRow 3], rfl, by simp [growingTables, issuedRow]⟩
  | _ + 1 => ⟨[], rfl, by simp⟩

theorem nodup_growingTables : ∀ call, ((growingTables call).map Row.seq).Nodup
  | 0 => by simp [growingTables, issuedRow]
  | _ + 1 => by simp [growingTables, issuedRow]

end Audit
end CampusID
