import CampusID.Lib.Histogram
import CampusID.Audit.Recorded
import CampusID.Cache
import CampusID.Saml.Stores

/-!
# The login chart

`DashboardStore._logins` groups the successful logins of a window by a key of their detail and
by the bucket they fall in, and draws one series for every value of that key.  Three things
decide whether a login is in the chart.

* The database drops an event that has nothing under the key.
* `clamped` moves the start of a window that is longer than ninety days.
* A bucket is counted from the epoch, and a series asks for buckets counted from the start of
  the window; `floorTo_mem_steps_iff` says when they are the same.

`countsEvery_iff` is the three together, for any events.  The ACS records neither an `idp` nor
a `protocol`, so of its events the first drops every one, and `loginChart_iff` follows.

Instants and widths are whole microseconds, and the quotient of an instant by a width is the
exact one.
-/

namespace CampusID
namespace Audit

open Lib Histogram

/-! ## The window -/

/-- `DEFAULT_WINDOW`: seven days. -/
def defaultWindow : Int := 7 * 86400000000

/-- `DEFAULT_STEP`: one hour. -/
def defaultStep : Int := 3600000000

/-- `MAX_WINDOW`: ninety days. -/
def maxWindow : Int := 90 * 86400000000

/-- `Window`. -/
structure Window where
  sinceTime : Int
  untilTime : Int
  step : Int := defaultStep
  deriving DecidableEq

/-- `Window.clamped`. -/
def Window.clamped (window : Window) : Window :=
  if window.untilTime - window.sinceTime ≤ maxWindow then window
  else { window with sinceTime := window.untilTime - maxWindow }

section Request

variable (fromisoformat readInt : String → Option Int)

/-- `_moment`. -/
def moment : Option String → Except String (Option Int)
  | none => .ok none
  | some value =>
    if value = "" then .ok none
    else match fromisoformat value with
      | some parsed => .ok (some parsed)
      | none => .error (Text.pyRepr value ++ " is not an ISO-8601 timestamp")

/-- `_int`. -/
def int (default : Int) : Option String → Except String Int
  | none => .ok default
  | some value =>
    if value = "" then .ok default
    else match readInt value with
      | some n => .ok n
      | none => .error (Text.pyRepr value ++ " is not a number")

/-- `_window_from`, of the three parameters and the present. -/
def windowFrom (untilParam sinceParam stepParam : Option String) (now : Int) :
    Except String Window := do
  let untilTime ← moment fromisoformat untilParam
  let sinceTime ← moment fromisoformat sinceParam
  let width ← int readInt 3600 stepParam
  let window : Window := {
    sinceTime := sinceTime.getD (untilTime.getD now - defaultWindow)
    untilTime := untilTime.getD now
    step := width * 1000000 }
  if window.sinceTime ≥ window.untilTime then throw "the window ends before it starts"
  else if window.step ≤ 0 then throw "a bucket has to have a width"
  else return window

theorem windowFrom_eq_ok {untilParam sinceParam stepParam : Option String} {now : Int}
    {window : Window}
    (h : windowFrom fromisoformat readInt untilParam sinceParam stepParam now = .ok window) :
    window.sinceTime < window.untilTime ∧ 0 < window.step := by
  obtain ⟨untilTime, -, h⟩ := Eff.except_bind_eq_ok.mp h
  obtain ⟨sinceTime, -, h⟩ := Eff.except_bind_eq_ok.mp h
  obtain ⟨width, -, h⟩ := Eff.except_bind_eq_ok.mp h
  dsimp only at h
  split_ifs at h with hempty hstep
  obtain rfl := Except.ok.inj h
  exact ⟨not_le.mp hempty, not_le.mp hstep⟩

end Request

theorem Window.clamped_cases (window : Window) :
    window.sinceTime ≤ window.clamped.sinceTime ∧
      window.clamped.untilTime = window.untilTime ∧ window.clamped.step = window.step := by
  unfold Window.clamped
  split_ifs
  · exact ⟨le_rfl, rfl, rfl⟩
  · refine ⟨?_, rfl, rfl⟩
    dsimp only
    omega

/-! ## The series -/

/-- `Point`. -/
structure Point where
  atTime : Int
  count : Nat

/-- `Series`. -/
structure Series where
  label : String
  points : List Point

/-- `Series.total`. -/
def Series.total (line : Series) : Nat := (line.points.map Point.count).sum

/-- `buckets`. -/
def buckets (window : Window) : Except String (List Int) :=
  if window.step ≤ 0 then .error "a bucket has to have a width"
  else .ok (steps window.untilTime window.step window.sinceTime)

/-- `series`. -/
def series (label : String) (counted : List (Int × Nat)) (window : Window) :
    Except String Series := do
  return ⟨label, (← buckets window).map fun at' => ⟨at', (counted.lookup at').getD 0⟩⟩

section Logins

variable (jsonText : Value → String)

/-- `detail[key].astext`: nothing for what is not there and for a null, a string as it is, and
what the database writes for anything else. -/
def astext : Option Value → Option String
  | none => none
  | some .none => none
  | some (.str s) => some s
  | some value => some (jsonText value)

/-- A successful login in the window. -/
def Window.holds (window : Window) (row : Row) : Bool :=
  row.columns.eventType = EventType.authSuccess.value &&
    (window.sinceTime ≤ row.columns.occurredAt && row.columns.occurredAt < window.untilTime)

/-- The label and the bucket of what the query selects. -/
def logged (rows : List Row) (window : Window) (key : String) : List (String × Int) :=
  (rows.filter window.holds).filterMap fun row =>
    (astext jsonText (row.columns.detailAt key)).map fun label =>
      (label, floorTo window.step row.columns.occurredAt)

/-- `grouped`, from the rows of the query. -/
def grouped (counts : List ((String × Int) × Nat)) : List (String × List (Int × Nat)) :=
  counts.foldl (fun d entry =>
    assign d entry.1.1 (assign ((d.lookup entry.1.1).getD []) entry.1.2 entry.2)) []

/-- `DashboardStore._logins`. -/
def logins (rows : List Row) (window : Window) (key : String) : Except String (List Series) :=
  ((grouped (tally (logged jsonText rows window key))).insertionSort
    fun a b => a.1 ≤ b.1).mapM fun entry => series entry.1 entry.2 window

/-! ### What the series show -/

theorem lookup_grouped {counts : List ((String × Int) × Nat)}
    (hnodup : (counts.map Prod.fst).Nodup) (label : String) (bucket : Int) :
    (((grouped counts).lookup label).getD []).lookup bucket = counts.lookup (label, bucket) := by
  induction counts using List.reverseRecOn with
  | nil => rfl
  | append_singleton counts entry ih =>
    obtain ⟨⟨name, at'⟩, n⟩ := entry
    rw [List.map_append, List.nodup_append] at hnodup
    have hlast : grouped (counts ++ [((name, at'), n)]) = assign (grouped counts) name
        (assign (((grouped counts).lookup name).getD []) at' n) := by
      simp [grouped]
    rw [hlast, lookup_assign, List.lookup_append]
    by_cases hkey : (label, bucket) = (name, at')
    · obtain ⟨rfl, rfl⟩ := Prod.mk.inj hkey
      have hnone : counts.lookup (label, bucket) = none := by
        rw [List.lookup_eq_none_iff]
        intro entry hentry
        have hne := hnodup.2.2 entry.1 (List.mem_map.mpr ⟨entry, hentry, rfl⟩) (label, bucket)
          (by simp)
        simpa using hne.symm
      simp [hnone]
    · have hskip : ([((name, at'), n)] : List ((String × Int) × Nat)).lookup (label, bucket) =
          none := by
        simp [List.lookup_cons, beq_false_of_ne hkey]
      rw [hskip, Option.or_none, ← ih hnodup.1]
      by_cases hname : label = name
      · subst hname
        have hat : bucket ≠ at' := fun hat => hkey (by rw [hat])
        simp [hat]
      · rw [if_neg hname]

theorem keys_grouped (counts : List ((String × Int) × Nat)) :
    ((grouped counts).map Prod.fst).Nodup ∧
      ∀ label, label ∈ (grouped counts).map Prod.fst ↔ ∃ bucket, (label, bucket) ∈
        counts.map Prod.fst := by
  induction counts using List.reverseRecOn with
  | nil => simp [grouped]
  | append_singleton counts entry ih =>
    obtain ⟨hnodup, hmem⟩ := ih
    have hlast : grouped (counts ++ [entry]) = assign (grouped counts) entry.1.1
        (assign (((grouped counts).lookup entry.1.1).getD []) entry.1.2 entry.2) := by
      simp [grouped]
    rw [hlast]
    refine ⟨nodup_assign _ _ hnodup, fun label => ?_⟩
    rw [mem_keys_assign, hmem, List.map_append]
    constructor
    · rintro (rfl | ⟨bucket, hbucket⟩)
      · exact ⟨entry.1.2, by simp⟩
      · exact ⟨bucket, List.mem_append_left _ hbucket⟩
    · rintro ⟨bucket, hbucket⟩
      rcases List.mem_append.mp hbucket with hbucket | hbucket
      · exact .inr ⟨bucket, hbucket⟩
      · exact .inl (congrArg Prod.fst (List.mem_singleton.mp hbucket))

variable {jsonText} {rows : List Row} {window : Window} {key : String}

/-- The labels of the chart, in order. -/
def labels (jsonText : Value → String) (rows : List Row) (window : Window) (key : String) :
    List String :=
  (((grouped (tally (logged jsonText rows window key))).insertionSort
    fun a b => a.1 ≤ b.1)).map Prod.fst

theorem nodup_labels : (labels jsonText rows window key).Nodup :=
  ((List.perm_insertionSort _ _).map Prod.fst).nodup_iff.mpr (keys_grouped _).1

theorem mem_labels {label : String} : label ∈ labels jsonText rows window key ↔
    ∃ bucket, (label, bucket) ∈ logged jsonText rows window key := by
  rw [labels, ((List.perm_insertionSort _ _).map Prod.fst).mem_iff, (keys_grouped _).2]
  simp only [mem_tally]

/-- The series of a label counts how often it was logged in each bucket. -/
def lineOf (jsonText : Value → String) (rows : List Row) (window : Window) (key label : String) :
    Series :=
  ⟨label, (steps window.untilTime window.step window.sinceTime).map fun bucket =>
    ⟨bucket, (logged jsonText rows window key).count (label, bucket)⟩⟩

/-- **The chart**: one series for every label, with every bucket of the window in it. -/
theorem logins_eq (hstep : 0 < window.step) : logins jsonText rows window key =
    .ok ((labels jsonText rows window key).map (lineOf jsonText rows window key)) := by
  have hbuckets : buckets window =
      .ok (steps window.untilTime window.step window.sinceTime) := if_neg (not_le.mpr hstep)
  have hline : ∀ entry ∈ grouped (tally (logged jsonText rows window key)),
      series entry.1 entry.2 window = .ok (lineOf jsonText rows window key entry.1) := by
    intro entry hentry
    have hread := lookup_of_mem (keys_grouped _).1 hentry
    have hcount : ∀ bucket, (entry.2.lookup bucket).getD 0 =
        (logged jsonText rows window key).count (entry.1, bucket) := by
      intro bucket
      have hlookup := lookup_grouped (nodup_tally (logged jsonText rows window key)) entry.1 bucket
      rw [hread] at hlookup
      rw [← lookup_tally, ← hlookup]
      rfl
    simp only [series, hbuckets, hcount]
    rfl
  have hall : ∀ l : List (String × List (Int × Nat)),
      (∀ entry ∈ l, entry ∈ grouped (tally (logged jsonText rows window key))) →
      (l.mapM fun entry => series entry.1 entry.2 window) =
        .ok (l.map fun entry => lineOf jsonText rows window key entry.1) := by
    intro l hl
    induction l with
    | nil => rfl
    | cons entry l ih =>
      rw [List.mapM_cons, hline entry (hl entry List.mem_cons_self),
        ih fun e he => hl e (List.mem_cons_of_mem _ he)]
      rfl
  rw [logins, hall _ fun entry hentry => (List.perm_insertionSort _ _).mem_iff.mp hentry, labels,
    List.map_map]
  rfl

/-! ### What is counted -/

/-- The points of a series, with its label. -/
def Series.places (line : Series) : List (String × Int) :=
  line.points.map fun point => (line.label, point.atTime)

/-- An event is counted in the points with its label and its bucket. -/
def countedAt (jsonText : Value → String) (window : Window) (key : String) (row : Row)
    (place : String × Int) : Bool :=
  astext jsonText (row.columns.detailAt key) = some place.1 ∧
    floorTo window.step row.columns.occurredAt = place.2

/-- **No login is lost**: the totals of the series add up to the successful logins of the
window, and every one of them is counted in exactly one point of exactly one series. -/
def CountsEvery (jsonText : Value → String) (rows : List Row) (window : Window) (key : String) :
    Prop :=
  ∃ lines, logins jsonText rows window.clamped key = .ok lines ∧
    (lines.map Series.total).sum = (rows.filter window.holds).length ∧
    ∀ row ∈ rows, window.holds row →
      ((lines.flatMap Series.places).filter (countedAt jsonText window key row)).length = 1

/-- The bins of the chart: every label with every bucket of the window. -/
def bins (jsonText : Value → String) (rows : List Row) (window : Window) (key : String) :
    List (String × Int) :=
  labels jsonText rows window key ×ˢ steps window.untilTime window.step window.sinceTime

theorem places_eq : ((labels jsonText rows window key).map
    (lineOf jsonText rows window key)).flatMap Series.places = bins jsonText rows window key := by
  rw [List.flatMap_map]
  refine List.flatMap_congr fun label _ => ?_
  simp [lineOf, Series.places, Function.comp_def]

theorem nodup_bins (hstep : 0 < window.step) : (bins jsonText rows window key).Nodup :=
  nodup_labels.product (nodup_steps hstep)

theorem mem_bins {label : String} {bucket : Int} :
    (label, bucket) ∈ bins jsonText rows window key ↔
      (∃ other, (label, other) ∈ logged jsonText rows window key) ∧
        bucket ∈ steps window.untilTime window.step window.sinceTime := by
  rw [bins, List.mem_product, mem_labels]

/-- **What the chart adds up to**: the logged events whose bucket is one of the window's. -/
theorem sum_total (hstep : 0 < window.step) :
    (((labels jsonText rows window key).map (lineOf jsonText rows window key)).map
      Series.total).sum = ((logged jsonText rows window key).filter fun place =>
        place.2 ∈ steps window.untilTime window.step window.sinceTime).length := by
  have hcount := @sum_count _ _ _ _ (bins jsonText rows window key) (nodup_bins hstep)
    (logged jsonText rows window key)
  have hfilter : (logged jsonText rows window key).filter
      (fun place => place ∈ bins jsonText rows window key) =
      (logged jsonText rows window key).filter fun place =>
        place.2 ∈ steps window.untilTime window.step window.sinceTime := by
    refine List.filter_congr fun place hplace => ?_
    rw [decide_eq_decide, mem_bins]
    exact and_iff_right ⟨place.2, hplace⟩
  rw [hfilter] at hcount
  rw [← hcount, ← places_eq, List.map_flatMap, List.flatMap_def, List.sum_flatten]
  simp [Function.comp_def, Series.places, Series.total, lineOf]

theorem countedAt_eq {row : Row} {label : String}
    (hlabel : astext jsonText (row.columns.detailAt key) = some label) (place : String × Int) :
    countedAt jsonText window key row place =
      decide (place = (label, floorTo window.step row.columns.occurredAt)) := by
  obtain ⟨name, bucket⟩ := place
  simp [countedAt, hlabel, eq_comm]

theorem length_filterMap_of_forall {α β : Type} {f : α → Option β} {p : β → Bool} {l : List α}
    (h : ∀ x ∈ l, ∃ y, f x = some y ∧ p y = true) : ((l.filterMap f).filter p).length = l.length := by
  induction l with
  | nil => rfl
  | cons x l ih =>
    obtain ⟨y, hy, hp⟩ := h x List.mem_cons_self
    rw [List.filterMap_cons_some hy, List.filter_cons_of_pos hp, List.length_cons, List.length_cons,
      ih fun z hz => h z (List.mem_cons_of_mem _ hz)]

/-- **When the chart loses no login**, whatever the events: every one in the window is in the
clamped window too and has a label, and that window starts on a multiple of the step. -/
theorem countsEvery_iff (hstep : 0 < window.step) : CountsEvery jsonText rows window key ↔
    ∀ row ∈ rows, window.holds row → window.clamped.sinceTime ≤ row.columns.occurredAt ∧
      astext jsonText (row.columns.detailAt key) ≠ none ∧
        window.step ∣ window.clamped.sinceTime := by
  obtain ⟨hsince, huntil, hwidth⟩ := window.clamped_cases
  have hstep' : 0 < window.clamped.step := hwidth ▸ hstep
  have hbucket : ∀ row : Row, window.holds row →
      (floorTo window.step row.columns.occurredAt ∈
          steps window.clamped.untilTime window.clamped.step window.clamped.sinceTime ↔
        window.clamped.sinceTime ≤ floorTo window.step row.columns.occurredAt ∧
          window.step ∣ window.clamped.sinceTime) := by
    intro row hrow
    simp only [Window.holds, Bool.and_eq_true, decide_eq_true_eq] at hrow
    rw [huntil, hwidth]
    exact floorTo_mem_steps_iff hstep hrow.2.2
  unfold CountsEvery
  simp only [logins_eq hstep', Except.ok.injEq, exists_eq_left', places_eq, sum_total hstep']
  constructor
  · rintro ⟨-, honce⟩ row hrow hholds
    obtain ⟨place, hplace⟩ := List.exists_mem_of_length_pos (by rw [honce row hrow hholds]; decide)
    obtain ⟨hbin, hcounted⟩ := List.mem_filter.mp hplace
    simp only [countedAt, decide_eq_true_eq] at hcounted
    obtain ⟨-, hin⟩ := mem_bins.mp hbin
    rw [← hcounted.2] at hin
    obtain ⟨hle, hdvd⟩ := (hbucket row hholds).mp hin
    exact ⟨hle.trans (floorTo_le hstep), by simp [hcounted.1], hdvd⟩
  · intro hall
    have hplaced : ∀ row ∈ rows, window.holds row → ∃ label,
        astext jsonText (row.columns.detailAt key) = some label ∧
          (label, floorTo window.step row.columns.occurredAt) ∈
            logged jsonText rows window.clamped key ∧
          floorTo window.step row.columns.occurredAt ∈
            steps window.clamped.untilTime window.clamped.step window.clamped.sinceTime := by
      intro row hrow hholds
      obtain ⟨hle, hlabel, hdvd⟩ := hall row hrow hholds
      obtain ⟨label, hlabel⟩ := Option.ne_none_iff_exists'.mp hlabel
      have hclamped : window.clamped.holds row := by
        simp only [Window.holds, Bool.and_eq_true, decide_eq_true_eq, huntil] at hholds ⊢
        exact ⟨hholds.1, hle, hholds.2.2⟩
      refine ⟨label, hlabel, ?_, (hbucket row hholds).mpr ⟨le_floorTo hstep hdvd hle, hdvd⟩⟩
      exact List.mem_filterMap.mpr ⟨row, List.mem_filter.mpr ⟨hrow, hclamped⟩, by
        rw [hlabel, hwidth]
        rfl⟩
    refine ⟨?_, fun row hrow hholds => ?_⟩
    · have hrows : rows.filter window.clamped.holds = rows.filter window.holds := by
        refine List.filter_congr fun row hrow => ?_
        rw [Bool.eq_iff_iff]
        simp only [Window.holds, Bool.and_eq_true, decide_eq_true_eq, huntil]
        constructor
        · rintro ⟨htype, hle, hlt⟩
          exact ⟨htype, hsince.trans hle, hlt⟩
        · rintro ⟨htype, hle, hlt⟩
          have hholds : window.holds row := by simp [Window.holds, htype, hle, hlt]
          exact ⟨htype, (hall row hrow hholds).1, hlt⟩
      rw [logged, hrows]
      refine length_filterMap_of_forall fun row hrow => ?_
      obtain ⟨hmem, hholds⟩ := List.mem_filter.mp hrow
      obtain ⟨label, hlabel, -, hin⟩ := hplaced row hmem hholds
      exact ⟨_, by rw [hlabel]; rfl, by rw [decide_eq_true_eq]; exact hwidth.symm ▸ hin⟩
    · obtain ⟨label, hlabel, hlogged, hin⟩ := hplaced row hrow hholds
      have hbin : (label, floorTo window.step row.columns.occurredAt) ∈
          bins jsonText rows window.clamped key := mem_bins.mpr ⟨⟨_, hlogged⟩, hin⟩
      have hone := List.count_eq_one_of_mem (nodup_bins hstep') hbin
      rw [List.filter_congr fun place _ => countedAt_eq hlabel place,
        ← List.countP_eq_length_filter]
      exact (List.countP_congr fun place _ => by simp).trans hone

/-! ## The events of the ACS -/

/-- An attribute dictionary as a value. -/
def attributesValue (attributes : List (String × List String)) : Value :=
  .dict (attributes.map fun entry => (.str entry.1, .list (entry.2.map .str)))

/-- What the ACS records of a session it has created from these facts. -/
def acsSuccess (facts : Saml.AssertionFacts Int) (session : Session)
    (sourceIp userAgent impersonator : Option String) (correlationId eventId : String)
    (now seq : Int) : RecordCall where
  eventType := .authSuccess
  outcome := .success
  actor := some session.subjectKey
  subject := some session.subjectKey
  target := some facts.issuer
  reason := none
  sourceIp := sourceIp
  userAgent := userAgent
  sessionId := some session.sid
  detail := some [("acr", facts.authnContext.elim .none .str),
    ("attributes", attributesValue session.attributes)]
  now := now
  correlationId := correlationId
  impersonator := impersonator
  eventId := eventId
  seq := seq

/-- The call is one of the ACS. -/
def IsAcsSuccess (call : RecordCall) : Prop :=
  ∃ facts session sourceIp userAgent impersonator correlationId eventId now seq,
    call = acsSuccess facts session sourceIp userAgent impersonator correlationId eventId now seq

/-- The keys the two panels split the logins by. -/
def loginKeys : List String := ["idp", "protocol"]

/-- **The ACS records neither.** -/
theorem detailAt_acsSuccess {call : RecordCall} (hacs : IsAcsSuccess call) {columns : Columns}
    (h : storedColumns (row call.event) = .ok columns) {key : String} (hkey : key ∈ loginKeys) :
    columns.detailAt key = none := by
  obtain ⟨facts, session, sourceIp, userAgent, impersonator, correlationId, eventId, now, seq,
    rfl⟩ := hacs
  have hkeys : key ≠ "impersonation" ∧ key ≠ "impersonated_by" ∧ key ≠ "acr" ∧
      key ≠ "attributes" := by
    simp only [loginKeys, List.mem_cons, List.not_mem_nil, or_false] at hkey
    rcases hkey with rfl | rfl <;> decide
  refine detailAt_of_lookup_none ?_ h hkeys.1 hkeys.2.1 ?_
  · simp [acsSuccess]
  · simp only [acsSuccess, Option.getD_some]
    rw [lookup_cons_of_ne hkeys.2.2.1, lookup_cons_of_ne hkeys.2.2.2]
    rfl

/-- **When the login chart loses no login** of those the ACS records: when there is none in the
window. -/
theorem loginChart_iff (sha256 : String → String) (fromisoformat readInt : String → Option Int)
    {untilParam sinceParam stepParam : Option String} {now : Int}
    (hwindow : windowFrom fromisoformat readInt untilParam sinceParam stepParam now = .ok window)
    {calls : List RecordCall}
    (hacs : ∀ call ∈ calls, call.eventType = .authSuccess → IsAcsSuccess call)
    (hkey : key ∈ loginKeys) :
    CountsEvery jsonText (recorded sha256 calls).rows window key ↔
      ∀ row ∈ (recorded sha256 calls).rows, window.holds row = false := by
  rw [countsEvery_iff (windowFrom_eq_ok _ _ hwindow).2]
  refine forall₂_congr fun row hrow => ?_
  obtain ⟨call, hcall, hstored⟩ := mem_recorded hrow
  rw [← Bool.not_eq_true]
  refine ⟨fun h hholds => ?_, fun h hholds => absurd hholds h⟩
  have htype : call.eventType = .authSuccess := by
    have hvalue := (storedColumns_eq_ok hstored).1
    simp only [Window.holds, Bool.and_eq_true, decide_eq_true_eq] at hholds
    exact EventType.value_injective (hvalue.symm.trans hholds.1)
  have hnone := detailAt_acsSuccess (hacs call hcall htype) hstored hkey
  obtain ⟨-, hlabel, -⟩ := h hholds
  rw [hnone] at hlabel
  exact hlabel rfl

/-! ### One login -/

/-- What the gate extracted of a login on the first of January. -/
def januaryFacts : Saml.AssertionFacts Int where
  issuer := "https://idp.example.edu"
  assertionId := "_a1"
  nameId := "n1"
  nameIdFormat := none
  notOnOrAfter := ⟨1767226200000000, "2026-01-01T00:10:00+00:00"⟩
  authnInstant := ⟨1767225590000000, "2025-12-31T23:59:50+00:00"⟩
  authnContext := none
  sessionIndex := none
  attributes := [("urn:oid:0.9.2342.19200300.100.1.3", ["sam@example.edu"])]
  relayState := none
  returnTo := none
  correlationId := none

/-- Its session. -/
def januarySession : Session where
  sid := "s1"
  idpEntityId := januaryFacts.issuer
  nameId := januaryFacts.nameId
  nameIdFormat := none
  authTime := 1767225590000000
  createdAt := 1767225600000000
  lastSeenAt := 1767225600000000
  absoluteExpiry := 1767268800000000
  amr := ["pwd"]
  attributes := januaryFacts.attributes
  personUuid := some "b7c1e0f2-6a4d-4f0e-9a53-2d1c8e7f6b90"

/-- What the ACS records of it. -/
def januaryLogin : RecordCall :=
  acsSuccess januaryFacts januarySession (some "192.0.2.7") none none "6f1e0c9ad2b34875"
    "0b7f2c4e-5f0a-4c58-9d1e-3a6b1f0c9e21" 1767225600000000 1

/-- The digest of that event behind genesis. -/
def loginSha256 : String → String :=
  tabulated [(genesis, januaryLogin,
    "709ce833f7bd1f2e65dce01d650eaa194db0e9d37a637b69c8b8c33ca308cfba")]

theorem fits_loginSha256 (s : String) : fits 64 (loginSha256 s) = true := by
  refine @tabulated_of (fun digest => fits 64 digest = true) _ ?_ (by decide) s
  simp only [List.mem_singleton, forall_eq]
  decide

/-- The week up to the third of January, at hourly resolution. -/
def januaryWindow : Window := ⟨1766793600000000, 1767398400000000, 3600000000⟩

theorem windowFrom_january : windowFrom (fun _ => none) (fun _ => none) none none none
    1767398400000000 = .ok januaryWindow := rfl

theorem isAcsSuccess_januaryLogin : ∀ call ∈ [januaryLogin],
    call.eventType = .authSuccess → IsAcsSuccess call := by
  rintro call hcall -
  rw [List.mem_singleton.mp hcall]
  exact ⟨_, _, _, _, _, _, _, _, _, rfl⟩

/-- The week up to the third of March. -/
def marchWindow : Window := ⟨1771891200000000, 1772496000000000, 3600000000⟩

theorem windowFrom_march : windowFrom (fun _ => none) (fun _ => none) none none none
    1772496000000000 = .ok marchWindow := rfl

/-- A chart of March counts every login of March: there is none. -/
theorem loginChart_march :
    CountsEvery (fun _ => "") (recorded loginSha256 [januaryLogin]).rows marchWindow "idp" := by
  refine (loginChart_iff loginSha256 (fun _ => none) (fun _ => none) windowFrom_march
    isAcsSuccess_januaryLogin List.mem_cons_self).mpr ?_
  obtain ⟨first, hfirst, hrecord, -⟩ := @one_call loginSha256 fits_loginSha256 januaryLogin
    (by decide) (by decide +kernel) (by decide +kernel)
  rw [recorded_singleton, hrecord]
  intro row hrow
  obtain rfl := List.mem_singleton.mp hrow
  have hat : row.columns.occurredAt = 1767225600000000 := hfirst.occurredAt
  simp [Window.holds, hat, marchWindow]

/-- **A login that no series shows.** -/
theorem loses_januaryLogin :
    ¬ ∀ (sha256 : String → String) (jsonText : Value → String)
      (fromisoformat readInt : String → Option Int) (untilParam sinceParam stepParam : Option String)
      (now : Int) (window : Window) (calls : List RecordCall),
      windowFrom fromisoformat readInt untilParam sinceParam stepParam now = .ok window →
      (∀ call ∈ calls, call.eventType = .authSuccess → IsAcsSuccess call) →
      ∀ key ∈ loginKeys, CountsEvery jsonText (recorded sha256 calls).rows window key := by
  intro h
  obtain ⟨first, hfirst, hrecord, -⟩ := @one_call loginSha256 fits_loginSha256 januaryLogin
    (by decide) (by decide +kernel) (by decide +kernel)
  have hevery := h loginSha256 (fun _ => "") (fun _ => none) (fun _ => none) none none none
    1767398400000000 januaryWindow [januaryLogin] windowFrom_january isAcsSuccess_januaryLogin "idp"
    List.mem_cons_self
  rw [loginChart_iff loginSha256 (fun _ => none) (fun _ => none) windowFrom_january
    isAcsSuccess_januaryLogin List.mem_cons_self, recorded_singleton, hrecord] at hevery
  have hat : first.columns.occurredAt = 1767225600000000 := hfirst.occurredAt
  have htype : first.columns.eventType = "auth.success" := hfirst.eventType
  have hmissed := hevery first List.mem_cons_self
  simp [Window.holds, hat, htype, januaryWindow, EventType.value] at hmissed

end Logins

end Audit
end CampusID
