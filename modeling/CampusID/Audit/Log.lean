import CampusID.Lib.Keyset
import CampusID.Audit.Values

/-!
# The audit log

`AuditLog.record` builds an event, redacts its detail and writes it as one more row of a
hash chain; `AuditLog.verify_chain` walks the rows as they are read back and reports the
first break.

* `redact` replaces credentials and the values of attributes that are not public.
* `canonical` is the text a hash is taken over and `link` the hash.  What `hashlib` computes
  is a parameter, `sha256`.
* `write` is `_write`: everything in it happens under the chain lock, in one transaction,
  and whatever it raises is swallowed, so that it adds one row or changes nothing.
* `verifyChain` reads the rows in batches.  `reorder` is the order in which a read of the
  JSONB column gives keys back.

The columns are `varchar` of a length, which refuses a longer text unless all that is too
much of it is spaces, and PostgreSQL refuses a NUL character anywhere.
-/

namespace CampusID
namespace Audit

open Lib

/-! ## Events -/

/-- `EventType`. -/
inductive EventType where
  | authRequest | authSuccess | authFailure
  | sessionCreated | sessionEnded | sessionTerminated
  | authzCodeIssued | authzDenied | tokenIssued | tokenRefreshed | tokenRevoked
  | grantReuseDetected
  | attributeRelease
  | provisioningCreated | provisioningUpdated | provisioningDeleted
  | lifecycleJoiner | lifecycleMover | lifecycleLeaver
  | entitlementGranted | entitlementRevoked | deprovisionStep
  | mfaEnrolmentStarted | mfaEnrolled | mfaEnrolmentFailed | mfaFactorRemoved | mfaStepUp
  | mfaRecoveryIssued | mfaFailed | mfaLockedOut
  | auditExported | auditPruned
  | adminAction
  | logoutDeliveryFailed
  deriving DecidableEq

/-- The value of an event type. -/
def EventType.value : EventType → String
  | .authRequest => "auth.request"
  | .authSuccess => "auth.success"
  | .authFailure => "auth.failure"
  | .sessionCreated => "session.created"
  | .sessionEnded => "session.ended"
  | .sessionTerminated => "session.terminated"
  | .authzCodeIssued => "authz.code_issued"
  | .authzDenied => "authz.denied"
  | .tokenIssued => "token.issued"
  | .tokenRefreshed => "token.refreshed"
  | .tokenRevoked => "token.revoked"
  | .grantReuseDetected => "grant.reuse_detected"
  | .attributeRelease => "attribute.release"
  | .provisioningCreated => "provisioning.created"
  | .provisioningUpdated => "provisioning.updated"
  | .provisioningDeleted => "provisioning.deleted"
  | .lifecycleJoiner => "lifecycle.joiner"
  | .lifecycleMover => "lifecycle.mover"
  | .lifecycleLeaver => "lifecycle.leaver"
  | .entitlementGranted => "entitlement.granted"
  | .entitlementRevoked => "entitlement.revoked"
  | .deprovisionStep => "deprovision.step"
  | .mfaEnrolmentStarted => "mfa.enrolment_started"
  | .mfaEnrolled => "mfa.enrolled"
  | .mfaEnrolmentFailed => "mfa.enrolment_failed"
  | .mfaFactorRemoved => "mfa.factor_removed"
  | .mfaStepUp => "mfa.step_up"
  | .mfaRecoveryIssued => "mfa.recovery_issued"
  | .mfaFailed => "mfa.failed"
  | .mfaLockedOut => "mfa.locked_out"
  | .auditExported => "audit.exported"
  | .auditPruned => "audit.pruned"
  | .adminAction => "admin.action"
  | .logoutDeliveryFailed => "logout.delivery_failed"

/-- `Outcome`. -/
inductive Outcome where
  | success | failure | denied
  deriving DecidableEq

/-- The value of an outcome. -/
def Outcome.value : Outcome → String
  | .success => "success"
  | .failure => "failure"
  | .denied => "denied"

/-- `AuditEvent`.  The timestamp is in microseconds since the epoch. -/
structure AuditEvent where
  eventType : EventType
  outcome : Outcome
  timestamp : Int
  correlationId : String
  eventId : String
  actor : Option String
  subject : Option String
  target : Option String
  reason : Option String
  sourceIp : Option String
  userAgent : Option String
  sessionId : Option String
  detail : List (String × Value)

/-! ### Redaction -/

/-- What replaces a value that may not be recorded. -/
def redacted : String := "[redacted]"

/-- `SECRET_MARKERS`. -/
def secretMarkers : List String :=
  ["token", "secret", "password", "assertion", "cookie", "verifier", "challenge", "code", "key",
    "credential", "salt"]

/-- A character of `key.lower()`, as far as ASCII letters can come of it: besides the ASCII
letters, the Kelvin sign and the dotted capital I. -/
def lowerChar (c : Char) : List Char :=
  if c.toNat = 0x212A then ['k']
  else if c.toNat = 0x130 then ['i', Char.ofNat 0x307]
  else [c.toLower]

/-- `_is_secret`. -/
def isSecret (key : String) : Bool :=
  secretMarkers.any fun marker => marker.toList <:+: key.toList.flatMap lowerChar

/-- The attributes the catalogue classifies `public`: the pairwise identifier and ORCID. -/
def publicAttributes : List String :=
  ["urn:oasis:names:tc:SAML:attribute:pairwise-id", "urn:oid:1.3.6.1.4.1.5923.1.1.1.16"]

/-- `_redact_attributes`: every name, and the values of public attributes. -/
def redactAttributes (attributes : List (Key × Value)) : List (Key × Value) :=
  attributes.map fun entry =>
    match entry.1 with
    | .str name => if name ∈ publicAttributes then entry else (entry.1, .str redacted)
    | _ => (entry.1, .str redacted)

/-- One entry of `redact`. -/
def redactValue (key : String) (value : Value) : Value :=
  if isSecret key then .str redacted
  else
    match key, value with
    | "attributes", .dict attributes => .dict (redactAttributes attributes)
    | _, value => value

/-- `redact`. -/
def redact (detail : List (String × Value)) : List (String × Value) :=
  detail.map fun entry => (entry.1, redactValue entry.1 entry.2)

/-! ## Rows -/

/-- The columns of an event. -/
structure Columns where
  eventId : String
  eventType : String
  outcome : String
  occurredAt : Int
  correlationId : String
  actor : Option String
  subject : Option String
  target : Option String
  reason : Option String
  sourceIp : Option String
  userAgent : Option String
  sessionId : Option String
  detail : Value

/-- A stored event. -/
structure Row where
  seq : Int
  prevHash : String
  hash : String
  columns : Columns

/-- `_row`. -/
def row (event : AuditEvent) : Columns where
  eventId := event.eventId
  eventType := event.eventType.value
  outcome := event.outcome.value
  occurredAt := event.timestamp
  correlationId := event.correlationId
  actor := event.actor
  subject := event.subject
  target := event.target
  reason := event.reason
  sourceIp := event.sourceIp
  userAgent := event.userAgent
  sessionId := event.sessionId
  detail := .dict (event.detail.map fun entry => (.str entry.1, entry.2))

/-! ### The hash -/

/-- The number in at least so many digits. -/
def padded (width n : Nat) : String := Decimal.zeros (width - (toString n).length) ++ toString n

/-- The civil date of a day counted from the epoch: year, month and day of the proleptic
Gregorian calendar. -/
def civilDate (days : Int) : Int × Nat × Nat :=
  let z := days + 719468
  let era := z / 146097
  let dayOfEra := (z % 146097).toNat
  let yearOfEra := (dayOfEra - dayOfEra / 1460 + dayOfEra / 36524 - dayOfEra / 146096) / 365
  let dayOfYear := dayOfEra - (365 * yearOfEra + yearOfEra / 4 - yearOfEra / 100)
  let shifted := (5 * dayOfYear + 2) / 153
  let day := dayOfYear - (153 * shifted + 2) / 5 + 1
  let month := if shifted < 10 then shifted + 3 else shifted - 9
  (yearOfEra + era * 400 + (if month ≤ 2 then 1 else 0), month, day)

/-- `moment.strftime("%Y-%m-%dT%H:%M:%S.%f+00:00")` of an instant in UTC. -/
def utcText (micros : Int) : String :=
  let date := civilDate (micros / 86400000000)
  let inDay := (micros % 86400000000).toNat
  let seconds := inDay / 1000000
  toString date.1 ++ "-" ++ padded 2 date.2.1 ++ "-" ++ padded 2 date.2.2 ++ "T" ++
    padded 2 (seconds / 3600) ++ ":" ++ padded 2 (seconds / 60 % 60) ++ ":" ++
    padded 2 (seconds % 60) ++ "." ++ padded 6 (inDay % 1000000) ++ "+00:00"

/-- `moment.isoformat()` of an instant in UTC. -/
def isoText (micros : Int) : String :=
  let date := civilDate (micros / 86400000000)
  let inDay := (micros % 86400000000).toNat
  let seconds := inDay / 1000000
  padded 4 date.1.toNat ++ "-" ++ padded 2 date.2.1 ++ "-" ++ padded 2 date.2.2 ++ "T" ++
    padded 2 (seconds / 3600) ++ ":" ++ padded 2 (seconds / 60 % 60) ++ ":" ++
    padded 2 (seconds % 60) ++
    (if inDay % 1000000 = 0 then "" else "." ++ padded 6 (inDay % 1000000)) ++ "+00:00"

/-- `GENESIS`. -/
def genesis : String := Decimal.zeros 64

/-- A text column, rendered. -/
def renderText : Option String → Json
  | some s => .str s
  | none => .null

/-- `canonical`: the text of the covered fields. -/
def canonical (columns : Columns) : Except WriteError String := do
  let detail ← render columns.detail
  dumps (.dict
    [("event_id", .str columns.eventId),
      ("event_type", .str columns.eventType),
      ("outcome", .str columns.outcome),
      ("occurred_at", .str (utcText columns.occurredAt)),
      ("correlation_id", .str columns.correlationId),
      ("actor", renderText columns.actor),
      ("subject", renderText columns.subject),
      ("target", renderText columns.target),
      ("reason", renderText columns.reason),
      ("source_ip", renderText columns.sourceIp),
      ("user_agent", renderText columns.userAgent),
      ("session_id", renderText columns.sessionId),
      ("detail", detail)])

/-! ### The table -/

/-- What a `varchar` column of this length keeps of a text. -/
def varchar (length : Nat) (s : String) : Except WriteError String :=
  if !isStorable s then .error (.dataError "invalid byte sequence for encoding")
  else if s.length ≤ length then .ok s
  else if (s.toList.drop length).all (· = ' ') then .ok (String.ofList (s.toList.take length))
  else .error (.dataError "value too long for type character varying")

/-- The same of a nullable column. -/
def varchar? (length : Nat) : Option String → Except WriteError (Option String)
  | some s => do return some (← varchar length s)
  | none => .ok none

/-- What the table keeps of the columns of an event. -/
def storedColumns (columns : Columns) : Except WriteError Columns := do
  return {
    eventId := ← varchar 64 columns.eventId
    eventType := ← varchar 64 columns.eventType
    outcome := ← varchar 16 columns.outcome
    occurredAt := columns.occurredAt
    correlationId := ← varchar 64 columns.correlationId
    actor := ← varchar? 512 columns.actor
    subject := ← varchar? 512 columns.subject
    target := ← varchar? 1024 columns.target
    reason := ← varchar? 512 columns.reason
    sourceIp := ← varchar? 45 columns.sourceIp
    userAgent := ← varchar? 512 columns.userAgent
    sessionId := ← varchar? 128 columns.sessionId
    detail := ← stored columns.detail }

/-- `AuditRetentionAnchor`: where a retention pass cut the trail. -/
structure Anchor where
  removedThroughSeq : Int
  removedThroughHash : String

/-- The two audit tables. -/
structure Trail where
  rows : List Row
  anchors : List Anchor

/-- `ORDER BY seq`. -/
def bySeq (rows : List Row) : List Row := rows.insertionSort fun a b => a.seq ≤ b.seq

theorem bySeq_eq (rows : List Row) : bySeq rows = Keyset.remaining Row.seq none rows := by
  unfold bySeq Keyset.remaining
  rw [Keyset.filter_past_none]

/-- `_starting_hash`: where the surviving chain begins. -/
def startingHash (anchors : List Anchor) : String :=
  match (anchors.insertionSort fun a b => a.removedThroughSeq ≤ b.removedThroughSeq).getLast? with
  | none => genesis
  | some anchor => if anchor.removedThroughHash = "" then genesis else anchor.removedThroughHash

/-- The hash the next event links to. -/
def previousHash (trail : Trail) : String :=
  match (bySeq trail.rows).getLast? with
  | none => startingHash trail.anchors
  | some row => row.hash

section Hash

variable (sha256 : String → String)

/-- `link`.  A text is a sequence of Unicode scalar values: what a `str` may hold besides, a lone
surrogate, `encode` refuses. -/
def link (previous : String) (columns : Columns) : Except WriteError String := do
  return sha256 (previous ++ (← canonical columns))

/-- The row an event is stored as, under a sequence number. -/
def newRow (trail : Trail) (columns : Columns) (seq : Int) : Except WriteError Row := do
  let hash ← link sha256 (previousHash trail) columns
  let kept ← storedColumns columns
  if trail.rows.any fun row => row.columns.eventId = kept.eventId then
    throw (.dataError "duplicate key value violates unique constraint")
  return {
    seq := seq
    prevHash := ← varchar 64 (previousHash trail)
    hash := ← varchar 64 hash
    columns := kept }

/-- `_write`, with the sequence number the database allocates.  An exception is swallowed
and the transaction rolled back. -/
def write (trail : Trail) (event : AuditEvent) (seq : Int) : Trail :=
  match newRow sha256 trail (row event) seq with
  | .ok row => { trail with rows := trail.rows ++ [row] }
  | .error _ => trail

/-- A call of `AuditLog.record`, in a request with this correlation identifier and perhaps an
impersonator.  The event identifier and the sequence number are drawn by the call. -/
structure RecordCall where
  eventType : EventType
  outcome : Outcome
  actor : Option String
  subject : Option String
  target : Option String
  reason : Option String
  sourceIp : Option String
  userAgent : Option String
  sessionId : Option String
  detail : Option (List (String × Value))
  now : Int
  correlationId : String
  impersonator : Option String
  eventId : String
  seq : Int

/-- The detail with the impersonation in it, if there is one. -/
def RecordCall.markedDetail (call : RecordCall) : List (String × Value) :=
  match call.impersonator with
  | none => call.detail.getD []
  | some actingAs =>
    assign (assign (call.detail.getD []) "impersonation" (.bool true)) "impersonated_by"
      (.str actingAs)

/-- The event a call records. -/
def RecordCall.event (call : RecordCall) : AuditEvent where
  eventType := call.eventType
  outcome := call.outcome
  timestamp := call.now
  correlationId := call.correlationId
  eventId := call.eventId
  actor := call.actor
  subject := call.subject
  target := call.target
  reason := call.reason
  sourceIp := call.sourceIp
  userAgent := call.userAgent
  sessionId := call.sessionId
  detail := redact call.markedDetail

/-- `AuditLog.record`. -/
def record (trail : Trail) (call : RecordCall) : Trail :=
  write sha256 trail call.event call.seq

/-! ## Verifying -/

/-- `Broken`. -/
structure Broken where
  seq : Int
  eventId : String
  problem : String
  deriving DecidableEq

/-- `ALTERED`. -/
def altered : String := "content does not match its recorded hash"

/-- `UNLINKED`. -/
def unlinked : String := "does not link to the previous event"

/-- `OUT_OF_ORDER`. -/
def outOfOrder : String := "sequence numbers are not increasing"

/-- `verify_from`, from the sequence number of the row before. -/
def verifyRows : (expected : String) → (lastSeq : Option Int) → List Row →
    Except WriteError (Option Broken)
  | _, _, [] => .ok none
  | expected, lastSeq, row :: rows =>
    if lastSeq.any fun last => row.seq ≤ last then
      .ok (some ⟨row.seq, row.columns.eventId, outOfOrder⟩)
    else if row.prevHash ≠ expected then
      .ok (some ⟨row.seq, row.columns.eventId, unlinked⟩)
    else do
      let computed ← link sha256 expected row.columns
      if computed ≠ row.hash then
        return some ⟨row.seq, row.columns.eventId, altered⟩
      else verifyRows computed (some row.seq) rows

/-- `verify_from`. -/
def verifyFrom (expected : String) (rows : List Row) : Except WriteError (Option Broken) :=
  verifyRows sha256 expected none rows

variable (reorder : List (Key × Value) → List (Key × Value))

/-- A row as it is read. -/
def Row.read (row : Row) : Row :=
  { row with columns := { row.columns with detail := readBack reorder row.columns.detail } }

/-- One query of the walk. -/
def page (batch : Nat) (rows : List Row) (lastSeq : Int) : List Row :=
  (bySeq (rows.filter fun row => lastSeq < row.seq)).take batch

theorem page_eq (batch : Nat) (rows : List Row) (lastSeq : Int) :
    page batch rows lastSeq = Keyset.page Row.seq batch (some lastSeq) rows := rfl

theorem length_filter_of_page {batch : Nat} {rows : List Row} {lastSeq : Int} {last : Row}
    (h : (page batch rows lastSeq).getLast? = some last) :
    (rows.filter fun row => last.seq < row.seq).length <
      (rows.filter fun row => lastSeq < row.seq).length := by
  rw [page_eq] at h
  exact Keyset.length_filter_past_lt h

/-- The loop of `verify_chain`. -/
def verifyPages (batch : Nat) (rows : List Row) (expected : String) (lastSeq : Int) :
    Except WriteError (Option Broken) :=
  match h : (page batch rows lastSeq).getLast? with
  | none => .ok none
  | some last =>
    match verifyFrom sha256 expected ((page batch rows lastSeq).map (Row.read reorder)) with
    | .error e => .error e
    | .ok (some broken) => .ok (some broken)
    | .ok none =>
      have := length_filter_of_page h
      verifyPages batch rows last.hash last.seq
termination_by (rows.filter fun row => lastSeq < row.seq).length

/-- `verify_chain`. -/
def verifyChain (batch : Nat) (trail : Trail) : Except WriteError (Option Broken) :=
  verifyPages sha256 reorder batch trail.rows (startingHash trail.anchors) 0

end Hash

end Audit
end CampusID
