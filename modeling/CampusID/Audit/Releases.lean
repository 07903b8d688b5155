import CampusID.Cache
import CampusID.Audit.Query
import CampusID.Audit.Recorded

/-!
# The disclosure record

Every authorization code is preceded by a record of what its client was told.  Two views read
these records back: a person's own, which folds the newest two hundred of the last ninety days
into one entry for each application, and the administrator's, which lists the newest fifty.

`_record_release` puts the names under `released`, and both views look under `attributes`.

* `byApplication_spec` is what the fold makes of any events, whatever is under that key.
* `attributesOf_release` is what is under it in a recorded release: nothing.
* `accurate_iff` says when the views are accurate all the same.

The instants of an entry are written with `isoformat()`, which is left out here.
-/

namespace CampusID
namespace Audit

open Lib

/-! ## Writing -/

/-- `Decision`, as far as it is recorded. -/
structure Decision where
  attributeName : String
  released : Bool
  basis : String
  ruleId : Option String
  deriving DecidableEq

/-- `ReleasedIdentity`, as far as it is recorded: the names of its claims, and the decisions. -/
structure ReleasedIdentity where
  claims : List String
  decisions : List Decision
  deriving DecidableEq

/-- A decision in the record. -/
def Decision.recorded (decision : Decision) : Value :=
  .dict [(.str "attribute", .str decision.attributeName), (.str "released", .bool decision.released),
    (.str "basis", .str decision.basis), (.str "rule_id", decision.ruleId.elim .none .str)]

/-- `_record_release`. -/
def recordRelease (clientId : String) (session : Session) (identity : ReleasedIdentity)
    (sourceIp userAgent impersonator : Option String) (correlationId eventId : String)
    (now seq : Int) : RecordCall where
  eventType := .attributeRelease
  outcome := .success
  actor := some session.subjectKey
  subject := some session.subjectKey
  target := some clientId
  reason := none
  sourceIp := sourceIp
  userAgent := userAgent
  sessionId := some session.sid
  detail := some [("protocol", .str "oidc"),
    ("released", .list ((identity.claims.insertionSort (· ≤ ·)).map .str)),
    ("decisions", .list (identity.decisions.map Decision.recorded))]
  now := now
  correlationId := correlationId
  impersonator := impersonator
  eventId := eventId
  seq := seq

/-- The call is one of `_record_release`, for a client that `require` has let through. -/
def IsRelease (call : RecordCall) : Prop :=
  ∃ clientId session identity sourceIp userAgent impersonator correlationId eventId now seq,
    clientId ≠ "" ∧ call = recordRelease clientId session identity sourceIp userAgent impersonator
      correlationId eventId now seq

/-! ## Reading -/

/-- The names in a list of them. -/
def texts : List Value → Option (List String)
  | [] => some []
  | .str s :: items => (texts items).map (s :: ·)
  | _ :: _ => none

/-- `event.detail.get(key, [])`, as a list of names.  Of anything but a list of texts it is
nothing: no route writes it, and the views would raise or show what is no name. -/
def namesUnder (key : String) (row : Row) : Option (List String) :=
  match row.columns.detailAt key with
  | none => some []
  | some (.list items) => texts items
  | some _ => none

/-- One entry of the view. -/
structure Application where
  target : String
  releases : Nat
  firstSeen : Int
  lastSeen : Int
  attributes : List String
  deriving DecidableEq

/-- `str(event.target or "unknown")`. -/
def targetOf (row : Row) : String :=
  match row.columns.target with
  | none => "unknown"
  | some target => if target = "" then "unknown" else target

/-- The entry of an application after an event, and of a new one. -/
def Application.seeing (entry : Option Application) (row : Row) (names : List String) :
    Application :=
  let entry := entry.getD ⟨targetOf row, 0, row.columns.occurredAt, row.columns.occurredAt, []⟩
  { entry with
    releases := entry.releases + 1
    firstSeen := row.columns.occurredAt
    attributes := entry.attributes ∪ names }

/-- The loop of `_by_application`. -/
def groupedBy : List (String × Application) → List Row → Option (List (String × Application))
  | apps, [] => some apps
  | apps, row :: rows => do
    let names ← namesUnder "attributes" row
    groupedBy (assign apps (targetOf row) (.seeing (apps.lookup (targetOf row)) row names)) rows

/-- `_by_application`. -/
def byApplication (rows : List Row) : Option (List Application) := do
  let apps ← groupedBy [] rows
  return apps.map fun entry =>
    { entry.2 with attributes := entry.2.attributes.insertionSort (· ≤ ·) }

/-- `WINDOW`: ninety days. -/
def releaseWindow : Int := 90 * 86400000000

/-- The query of `my_releases`. -/
def releasesQuery (person : String) (now : Int) : Query where
  subject := some person
  eventType := some EventType.attributeRelease.value
  sinceTime := some (now - releaseWindow)
  limit := 200

/-- `my_releases`, of a person the session has been matched to. -/
def myReleases (rows : List Row) (person : String) (now : Int) : Option (List Application) :=
  byApplication (search rows (releasesQuery person now)).events

/-- The query of `_recent_releases`. -/
def historyQuery (person : String) : Query where
  subject := some person
  eventType := some EventType.attributeRelease.value
  limit := 50

/-- One entry of the administrator's view. -/
structure RecentRelease where
  atTime : Int
  target : Option String
  attributes : List String
  correlationId : String
  deriving DecidableEq

/-- The entries of the administrator's view. -/
def recentOf : List Row → Option (List RecentRelease)
  | [] => some []
  | row :: rows => do
    let names ← namesUnder "attributes" row
    let rest ← recentOf rows
    return ⟨row.columns.occurredAt, row.columns.target, names.insertionSort (· ≤ ·),
      row.columns.correlationId⟩ :: rest

/-- `PersonDirectory._recent_releases`. -/
def recentReleases (rows : List Row) (person : String) : Option (List RecentRelease) :=
  recentOf (search rows (historyQuery person)).events

/-! ## What the fold makes of events -/

/-- The events to one application. -/
def ownOf (rows : List Row) (target : String) : List Row :=
  rows.filter fun row => targetOf row = target

/-- The entry sums up these events, newest first. -/
structure Summarises (names : Row → List String) (own : List Row) (entry : Application) : Prop where
  releases : entry.releases = own.length
  attributes : ∀ name, name ∈ entry.attributes ↔ ∃ row ∈ own, name ∈ names row
  lastSeen : own.head?.map (·.columns.occurredAt) = some entry.lastSeen
  firstSeen : own.getLast?.map (·.columns.occurredAt) = some entry.firstSeen

/-- An entry for every application, which sums up its events. -/
structure Folded (names : Row → List String) (rows : List Row)
    (apps : List (String × Application)) : Prop where
  nodup : (apps.map Prod.fst).Nodup
  keys : ∀ target, target ∈ apps.map Prod.fst ↔ ∃ row ∈ rows, targetOf row = target
  sums : ∀ target entry, apps.lookup target = some entry →
    entry.target = target ∧ Summarises names (ownOf rows target) entry

theorem ownOf_append (rows : List Row) (row : Row) (target : String) :
    ownOf (rows ++ [row]) target =
      ownOf rows target ++ if targetOf row = target then [row] else [] := by
  by_cases h : targetOf row = target
  · simp [ownOf, h]
  · simp [ownOf, h]

theorem ownOf_eq_nil {rows : List Row} {target : String} :
    ownOf rows target = [] ↔ ¬ ∃ row ∈ rows, targetOf row = target := by
  simp [ownOf]

/-- **One event more.** -/
theorem Folded.seeing {names : Row → List String} {rows : List Row}
    {apps : List (String × Application)} (h : Folded names rows apps) (row : Row) :
    Folded names (rows ++ [row])
      (assign apps (targetOf row) (.seeing (apps.lookup (targetOf row)) row (names row))) := by
  refine ⟨nodup_assign _ _ h.nodup, fun target => ?_, fun target entry hentry => ?_⟩
  · rw [mem_keys_assign, h.keys]
    constructor
    · rintro (rfl | ⟨other, hother, htarget⟩)
      · exact ⟨row, by simp, rfl⟩
      · exact ⟨other, List.mem_append_left _ hother, htarget⟩
    · rintro ⟨other, hother, htarget⟩
      rcases List.mem_append.mp hother with hother | hother
      · exact .inr ⟨other, hother, htarget⟩
      · exact .inl (by rw [← htarget, List.mem_singleton.mp hother])
  · rw [lookup_assign] at hentry
    rw [ownOf_append]
    by_cases htarget : target = targetOf row
    · rw [if_pos htarget] at hentry
      subst htarget
      obtain rfl := Option.some.inj hentry
      rw [if_pos rfl]
      cases hold : apps.lookup (targetOf row) with
      | none =>
        -- the first event of an application
        have hnil : ownOf rows (targetOf row) = [] := by
          rw [ownOf_eq_nil, ← h.keys]
          exact notMem_keys_of_lookup hold
        rw [hnil]
        refine ⟨rfl, rfl, fun name => ?_, rfl, rfl⟩
        simp [Application.seeing]
      | some entry =>
        obtain ⟨htarget, hsums⟩ := h.sums _ _ hold
        have hne : ownOf rows (targetOf row) ≠ [] := by
          intro hnil
          have := hsums.lastSeen
          rw [hnil] at this
          cases this
        refine ⟨htarget, ?_, fun name => ?_, ?_, ?_⟩
        · simp [Application.seeing, hsums.releases]
        · simp [Application.seeing, hsums.attributes, or_and_right, exists_or]
        · rw [List.head?_append_of_ne_nil _ hne]
          exact hsums.lastSeen
        · simp [Application.seeing]
    · rw [if_neg htarget] at hentry
      obtain ⟨hname, hsums⟩ := h.sums _ _ hentry
      rw [if_neg (Ne.symm htarget), List.append_nil]
      exact ⟨hname, hsums⟩

/-- **The fold**, where it can read every event. -/
theorem folded_groupedBy {names : Row → List String} {done rows : List Row}
    {apps : List (String × Application)} (h : Folded names done apps)
    (hnames : ∀ row ∈ rows, namesUnder "attributes" row = some (names row)) :
    ∃ apps', groupedBy apps rows = some apps' ∧ Folded names (done ++ rows) apps' := by
  induction rows generalizing done apps with
  | nil => exact ⟨apps, rfl, by rwa [List.append_nil]⟩
  | cons row rows ih =>
    obtain ⟨apps', hgrouped, hfolded⟩ := ih (h.seeing row)
      fun other hother => hnames other (List.mem_cons_of_mem _ hother)
    refine ⟨apps', ?_, ?_⟩
    · simp only [groupedBy, hnames row List.mem_cons_self]
      exact hgrouped
    · rwa [List.append_assoc] at hfolded

/-- **What the view says of any events**: an entry for every application, once, and it sums up
its events. -/
theorem byApplication_spec {names : Row → List String} {rows : List Row}
    (hnames : ∀ row ∈ rows, namesUnder "attributes" row = some (names row)) :
    ∃ view, byApplication rows = some view ∧ (view.map Application.target).Nodup ∧
      (∀ target, (∃ entry ∈ view, entry.target = target) ↔ ∃ row ∈ rows, targetOf row = target) ∧
      ∀ entry ∈ view, Summarises names (ownOf rows entry.target) entry := by
  have hstart : Folded names [] [] := ⟨List.nodup_nil, by simp, by simp⟩
  obtain ⟨apps, hgrouped, hfolded⟩ := folded_groupedBy hstart hnames
  rw [List.nil_append] at hfolded
  have hread : ∀ entry ∈ apps, entry.2.target = entry.1 ∧
      Summarises names (ownOf rows entry.1) entry.2 := fun entry hentry =>
    hfolded.sums _ _ (lookup_of_mem hfolded.nodup hentry)
  have htargets : apps.map (fun entry => entry.2.target) = apps.map Prod.fst :=
    List.map_congr_left fun entry hentry => (hread entry hentry).1
  refine ⟨_, by rw [byApplication, hgrouped]; rfl, ?_, fun target => ?_, fun entry hentry => ?_⟩
  · rw [List.map_map]
    exact htargets ▸ hfolded.nodup
  · rw [← hfolded.keys, ← htargets]
    simp
  · obtain ⟨pair, hpair, rfl⟩ := List.mem_map.mp hentry
    obtain ⟨htarget, hsums⟩ := hread pair hpair
    rw [← htarget] at hsums
    refine ⟨hsums.releases, fun name => ?_, hsums.lastSeen, hsums.firstSeen⟩
    rw [← hsums.attributes]
    exact (List.perm_insertionSort _ _).mem_iff

/-! ## What is under the keys -/

/-- The names a recorded release says were released. -/
def released (row : Row) : List String := (namesUnder "released" row).getD []

theorem texts_map_str (names : List String) : texts (names.map .str) = some names := by
  induction names with
  | nil => rfl
  | cons name names ih => simp [texts, ih]

theorem storedAll_map_str {names : List String} {items : List Value}
    (h : storedAll (names.map .str) = .ok items) : items = names.map .str := by
  induction names generalizing items with
  | nil => exact (Except.ok.inj h).symm
  | cons name names ih =>
    obtain ⟨w, hw, h⟩ := Eff.except_bind_eq_ok.mp h
    obtain ⟨rest, hrest, h⟩ := Eff.except_bind_eq_ok.mp h
    obtain rfl := Except.ok.inj h
    obtain ⟨t, ht, hw⟩ := Eff.except_bind_eq_ok.mp hw
    obtain rfl := Except.ok.inj hw
    unfold storedText at ht
    split_ifs at ht
    rw [ih hrest, ← Except.ok.inj ht]
    rfl

section Recorded

variable {clientId : String} {session : Session} {identity : ReleasedIdentity}
  {sourceIp userAgent impersonator : Option String} {correlationId eventId : String} {now seq : Int}
  {found : Row}

theorem nodup_recordRelease : (((recordRelease clientId session identity sourceIp userAgent
    impersonator correlationId eventId now seq).detail.getD []).map Prod.fst).Nodup := by
  simp [recordRelease]

/-- **The names are under `released`**, sorted. -/
theorem released_recordRelease (h : storedColumns (row (recordRelease clientId session identity
      sourceIp userAgent impersonator correlationId eventId now seq).event) = .ok found.columns) :
    released found = identity.claims.insertionSort (· ≤ ·) := by
  have hsome : ((recordRelease clientId session identity sourceIp userAgent impersonator
      correlationId eventId now seq).detail.getD []).lookup "released" =
        some (.list ((identity.claims.insertionSort (· ≤ ·)).map .str)) := by
    simp [recordRelease, List.lookup_cons]
  have hplain : isSecret "released" = false := by decide
  obtain ⟨w, hw, hread⟩ := detailAt_of_lookup_some nodup_recordRelease h (by decide) (by decide)
    hsome (by simp [redactValue, hplain])
  simp only [stored] at hw
  obtain ⟨items, hitems, hw⟩ := Eff.except_bind_eq_ok.mp hw
  obtain rfl := Except.ok.inj hw
  rw [storedAll_map_str hitems] at hread
  simp [released, namesUnder, hread, texts_map_str]

/-- **Nothing is under `attributes`.** -/
theorem attributesOf_release {call : RecordCall} (hrelease : IsRelease call)
    (h : storedColumns (row call.event) = .ok found.columns) :
    namesUnder "attributes" found = some [] := by
  obtain ⟨clientId, session, identity, sourceIp, userAgent, impersonator, correlationId, eventId,
    now, seq, -, rfl⟩ := hrelease
  have hnothing : ((recordRelease clientId session identity sourceIp userAgent impersonator
      correlationId eventId now seq).detail.getD []).lookup "attributes" = none := by
    simp [recordRelease, List.lookup_cons]
  have hnone := detailAt_of_lookup_none nodup_recordRelease h (by decide) (by decide) hnothing
  simp [namesUnder, hnone]

theorem varchar_ne_empty {length : Nat} (hlength : length ≠ 0) {s t : String} (hs : s ≠ "")
    (h : varchar length s = .ok t) : t ≠ "" := by
  unfold varchar at h
  split_ifs at h
  · exact Except.ok.inj h ▸ hs
  · obtain rfl := Except.ok.inj h
    intro hempty
    have hnil : s.toList.take length = [] := by
      rw [← String.toList_ofList (l := s.toList.take length), hempty]
      rfl
    rcases List.take_eq_nil_iff.mp hnil with hzero | hnil
    · exact hlength hzero
    · exact hs (String.toList_inj.mp hnil)

theorem target_of_release {call : RecordCall} (hrelease : IsRelease call)
    (h : storedColumns (row call.event) = .ok found.columns) :
    found.columns.target = some (targetOf found) := by
  obtain ⟨clientId, session, identity, sourceIp, userAgent, impersonator, correlationId, eventId,
    now, seq, hclient, rfl⟩ := hrelease
  obtain ⟨-, -, -, htarget, -⟩ := storedColumns_eq_ok h
  obtain ⟨t, ht, htarget⟩ := Eff.except_bind_eq_ok.mp htarget
  have hne : t ≠ "" := varchar_ne_empty (by decide) hclient ht
  have hsome : found.columns.target = some t := (Except.ok.inj htarget).symm
  simp [targetOf, hsome, hne]

end Recorded

/-! ## When the views are accurate -/

/-- The releases to a client. -/
def toClient (rows : List Row) (client : String) : List Row :=
  rows.filter fun row => row.columns.target = some client

/-- The entry says of these releases how many they are, the names they released, and the
instants of the first and of the last. -/
structure Accounts (own : List Row) (entry : Application) : Prop where
  releases : entry.releases = own.length
  attributes : ∀ name, name ∈ entry.attributes ↔ ∃ row ∈ own, name ∈ released row
  first : ∃ row ∈ own, row.columns.occurredAt = entry.firstSeen
  last : ∃ row ∈ own, row.columns.occurredAt = entry.lastSeen
  between : ∀ row ∈ own, entry.firstSeen ≤ row.columns.occurredAt ∧
    row.columns.occurredAt ≤ entry.lastSeen

/-- The view lists every client that received something, none of them twice, and accounts for
the releases to each client it lists. -/
structure Accurate (releases : List Row) (view : List Application) : Prop where
  shown : ∀ row ∈ releases, released row ≠ [] →
    ∃ entry ∈ view, row.columns.target = some entry.target
  once : (view.map Application.target).Nodup
  accounts : ∀ entry ∈ view, Accounts (toClient releases entry.target) entry

/-- The view names what was released by each event. -/
def NamesEach : List Row → List RecentRelease → Prop :=
  List.Forall₂ fun row entry => ∀ name, name ∈ entry.attributes ↔ name ∈ released row

/-- Releases, newest first, that a page of this size shows as they are. -/
structure Plain (releases : List Row) (size : Nat) : Prop where
  /-- None of them released a name. -/
  silent : ∀ row ∈ releases, released row = []
  /-- What is behind the page is to no client on it. -/
  whole : ∀ row ∈ releases.take size, ∀ other ∈ releases.drop size,
    other.columns.target ≠ row.columns.target
  /-- The instants of a client's releases lie between those of its last and its first one on
  the page. -/
  ordered : ∀ row ∈ releases.take size, ∀ client, row.columns.target = some client →
    (∀ oldest ∈ (toClient (releases.take size) client).getLast?,
      oldest.columns.occurredAt ≤ row.columns.occurredAt) ∧
    ∀ newest ∈ (toClient (releases.take size) client).head?,
      row.columns.occurredAt ≤ newest.columns.occurredAt

section Views

variable {releases : List Row} {size : Nat}

theorem toClient_eq {rows : List Row}
    (htarget : ∀ row ∈ rows, row.columns.target = some (targetOf row)) (client : String) :
    toClient rows client = ownOf rows client := by
  refine List.filter_congr fun row hrow => ?_
  rw [htarget row hrow, decide_eq_decide, Option.some.injEq]

theorem mem_toClient {rows : List Row} {client : String} {row : Row} :
    row ∈ toClient rows client ↔ row ∈ rows ∧ row.columns.target = some client := by
  simp [toClient]

/-- **When the view of a page is accurate**, of releases with nothing under the key it reads. -/
theorem accurate_byApplication_iff
    (htarget : ∀ row ∈ releases, row.columns.target = some (targetOf row))
    (hnothing : ∀ row ∈ releases, namesUnder "attributes" row = some []) :
    (∃ view, byApplication (releases.take size) = some view ∧ Accurate releases view) ↔
      Plain releases size := by
  have hpage : ∀ row ∈ releases.take size, row ∈ releases := fun row => List.mem_of_mem_take
  obtain ⟨view, hview, hnodup, htargets, hsums⟩ := @byApplication_spec (fun _ => [])
    (releases.take size) fun row hrow => hnothing row (hpage row hrow)
  have hown : ∀ client, toClient (releases.take size) client = ownOf (releases.take size) client :=
    toClient_eq fun row hrow => htarget row (hpage row hrow)
  have hsplit : ∀ client, toClient releases client =
      toClient (releases.take size) client ++ toClient (releases.drop size) client := by
    intro client
    rw [toClient, toClient, toClient, ← List.filter_append, List.take_append_drop]
  simp only [hview, Option.some.injEq, exists_eq_left']
  constructor
  · intro h
    -- an entry for every client on the page
    have hentry : ∀ row ∈ releases.take size, ∃ entry ∈ view, entry.target = targetOf row :=
      fun row hrow => (htargets _).mpr ⟨row, hrow, rfl⟩
    refine ⟨fun row hrow => ?_, fun row hrow other hother hsame => ?_,
      fun row hrow client hclient => ?_⟩
    · by_contra hne
      obtain ⟨name, hname⟩ := List.exists_mem_of_ne_nil _ hne
      obtain ⟨entry, hin, hclient⟩ := h.shown row hrow hne
      have hlisted : name ∈ entry.attributes := ((h.accounts entry hin).attributes name).mpr
        ⟨row, mem_toClient.mpr ⟨hrow, hclient⟩, hname⟩
      obtain ⟨-, -, hread⟩ := ((hsums entry hin).attributes name).mp hlisted
      exact absurd hread List.not_mem_nil
    · obtain ⟨entry, hin, hclient⟩ := hentry row hrow
      have hcount := (h.accounts entry hin).releases
      rw [(hsums entry hin).releases, ← hown, hsplit, List.length_append] at hcount
      have hmem : other ∈ toClient (releases.drop size) entry.target := mem_toClient.mpr
        ⟨hother, by rw [hsame, htarget row (hpage row hrow), hclient]⟩
      have := List.length_pos_of_mem hmem
      omega
    · obtain ⟨entry, hin, htargetOf⟩ := hentry row hrow
      obtain rfl : entry.target = client := by
        rw [htarget row (hpage row hrow), ← htargetOf] at hclient
        exact Option.some.inj hclient
      obtain ⟨hfirst, hlast⟩ := (h.accounts entry hin).between row
        (mem_toClient.mpr ⟨hpage row hrow, hclient⟩)
      refine ⟨fun oldest holdest => ?_, fun newest hnewest => ?_⟩
      · have hseen := (hsums entry hin).firstSeen
        rw [← hown, Option.mem_def.mp holdest] at hseen
        have hat : oldest.columns.occurredAt = entry.firstSeen := Option.some.inj hseen
        rw [hat]
        exact hfirst
      · have hseen := (hsums entry hin).lastSeen
        rw [← hown, Option.mem_def.mp hnewest] at hseen
        have hat : newest.columns.occurredAt = entry.lastSeen := Option.some.inj hseen
        rw [hat]
        exact hlast
  · intro h
    refine ⟨fun row hrow hne => absurd (h.silent row hrow) hne, hnodup, fun entry hin => ?_⟩
    obtain ⟨row, hrow, hrowTarget⟩ := (htargets entry.target).mp ⟨entry, hin, rfl⟩
    have hclient : row.columns.target = some entry.target := by
      rw [htarget row (hpage row hrow), hrowTarget]
    have hbehind : toClient (releases.drop size) entry.target = [] := by
      rw [toClient, List.filter_eq_nil_iff]
      intro other hother
      simpa [← hclient] using h.whole row hrow other hother
    have hall : toClient releases entry.target = toClient (releases.take size) entry.target := by
      rw [hsplit, hbehind, List.append_nil]
    have hsum := hsums entry hin
    rw [← hown] at hsum
    rw [hall]
    obtain ⟨newest, hnewest, hlastSeen⟩ := Option.map_eq_some_iff.mp hsum.lastSeen
    obtain ⟨oldest, holdest, hfirstSeen⟩ := Option.map_eq_some_iff.mp hsum.firstSeen
    refine ⟨hsum.releases, fun name => ?_, ⟨oldest, List.mem_of_getLast? holdest, hfirstSeen⟩,
      ⟨newest, List.mem_of_head? hnewest, hlastSeen⟩, fun other hother => ?_⟩
    · rw [hsum.attributes]
      constructor
      · rintro ⟨-, -, hread⟩
        exact absurd hread List.not_mem_nil
      · rintro ⟨other, hother, hread⟩
        rw [h.silent other (hpage other (mem_toClient.mp hother).1)] at hread
        exact absurd hread List.not_mem_nil
    · obtain ⟨hmem, hotherClient⟩ := mem_toClient.mp hother
      obtain ⟨hafter, hbefore⟩ := h.ordered other hmem entry.target hotherClient
      exact ⟨hfirstSeen ▸ hafter oldest holdest, hlastSeen ▸ hbefore newest hnewest⟩

/-- **When the administrator's view is accurate**, of the same releases. -/
theorem namesEach_recentOf_iff (hnothing : ∀ row ∈ releases, namesUnder "attributes" row = some []) :
    (∃ entries, recentOf releases = some entries ∧ NamesEach releases entries) ↔
      ∀ row ∈ releases, released row = [] := by
  induction releases with
  | nil => simp [recentOf, NamesEach]
  | cons row rows ih =>
    have hrow := hnothing row List.mem_cons_self
    have hrest := ih fun other hother => hnothing other (List.mem_cons_of_mem _ hother)
    have hread : ∀ entries, recentOf (row :: rows) = some entries ↔ ∃ rest,
        recentOf rows = some rest ∧ entries = ⟨row.columns.occurredAt, row.columns.target, [],
          row.columns.correlationId⟩ :: rest := by
      intro entries
      cases hrecent : recentOf rows with
      | none => simp [recentOf, hrow, hrecent]
      | some rest => simp [recentOf, hrow, hrecent, eq_comm]
    rw [List.forall_mem_cons, ← hrest]
    constructor
    · rintro ⟨entries, hentries, heach⟩
      obtain ⟨rest, hsome, rfl⟩ := (hread entries).mp hentries
      obtain ⟨hnames, heach⟩ := List.forall₂_cons.mp heach
      exact ⟨List.eq_nil_iff_forall_not_mem.mpr fun name hname =>
        List.not_mem_nil ((hnames name).mpr hname), rest, hsome, heach⟩
    · rintro ⟨hsilent, rest, hsome, heach⟩
      refine ⟨_, (hread _).mpr ⟨rest, hsome, rfl⟩, .cons (fun name => ?_) heach⟩
      rw [hsilent]

end Views

/-! ### Recorded releases -/

section Recording

variable {sha256 : String → String} {calls : List RecordCall}

theorem release_of_left (hreleases : ∀ call ∈ calls, call.eventType = .attributeRelease →
    IsRelease call) {query : Query} (htype : query.eventType = some EventType.attributeRelease.value)
    {found : Row} (h : found ∈ query.left (recorded sha256 calls).rows) :
    ∃ call, IsRelease call ∧ storedColumns (row call.event) = .ok found.columns := by
  obtain ⟨hadmitted, -⟩ := Keyset.mem_remaining.mp h
  obtain ⟨hrow, hadmits⟩ := List.mem_filter.mp hadmitted
  obtain ⟨call, hcall, hstored⟩ := mem_recorded hrow
  have heq : found.columns.eventType = EventType.attributeRelease.value := by
    simp only [Query.admits, htype, Bool.and_eq_true, Option.all_some, decide_eq_true_eq] at hadmits
    exact hadmits.1.1.1.1.2
  refine ⟨call, hreleases call hcall ?_, hstored⟩
  exact EventType.value_injective ((storedColumns_eq_ok hstored).1.symm.trans heq)

/-- **When the disclosure record is accurate.**  The person's view accounts for the releases of
the window, and the administrator's names what each of the newest releases released, exactly
when the releases of the window are plain on the page of two hundred, and none of the newest
fifty released a name. -/
theorem accurate_iff (sha256 : String → String)
    (hreleases : ∀ call ∈ calls, call.eventType = .attributeRelease → IsRelease call)
    (person : String) (now : Int) :
    ((∃ view, myReleases (recorded sha256 calls).rows person now = some view ∧
        Accurate ((releasesQuery person now).left (recorded sha256 calls).rows) view) ∧
      ∃ entries, recentReleases (recorded sha256 calls).rows person = some entries ∧
        NamesEach (((historyQuery person).left (recorded sha256 calls).rows).take 50) entries) ↔
      Plain ((releasesQuery person now).left (recorded sha256 calls).rows) 200 ∧
        ∀ row ∈ ((historyQuery person).left (recorded sha256 calls).rows).take 50,
          released row = [] := by
  have hpage : (search (recorded sha256 calls).rows (releasesQuery person now)).events =
      ((releasesQuery person now).left (recorded sha256 calls).rows).take 200 :=
    events_search _ _
  have hhistory : (search (recorded sha256 calls).rows (historyQuery person)).events =
      ((historyQuery person).left (recorded sha256 calls).rows).take 50 :=
    events_search _ _
  unfold myReleases recentReleases
  rw [hpage, hhistory]
  refine and_congr (accurate_byApplication_iff (fun row hrow => ?_) fun row hrow => ?_)
    (namesEach_recentOf_iff fun row hrow => ?_)
  · obtain ⟨call, hrelease, hstored⟩ := release_of_left hreleases rfl hrow
    exact target_of_release hrelease hstored
  · obtain ⟨call, hrelease, hstored⟩ := release_of_left hreleases rfl hrow
    exact attributesOf_release hrelease hstored
  · obtain ⟨call, hrelease, hstored⟩ := release_of_left hreleases rfl (List.mem_of_mem_take hrow)
    exact attributesOf_release hrelease hstored

end Recording

/-! ### One release -/

/-- A session of the person the release is about. -/
def samSession : Session where
  sid := "s1"
  idpEntityId := "https://idp.example.edu"
  nameId := "n1"
  nameIdFormat := none
  authTime := 1767225590000000
  createdAt := 1767225600000000
  lastSeenAt := 1767225600000000
  absoluteExpiry := 1767268800000000
  amr := ["pwd"]
  personUuid := some "b7c1e0f2-6a4d-4f0e-9a53-2d1c8e7f6b90"

/-- What the portal is told is recorded. -/
def toPortal (identity : ReleasedIdentity) : RecordCall :=
  recordRelease "portal" samSession identity (some "192.0.2.7") none none "6f1e0c9ad2b34875"
    "0b7f2c4e-5f0a-4c58-9d1e-3a6b1f0c9e21" 1767225600000000 1

/-- An address is released to the portal. -/
def portalRelease : RecordCall :=
  toPortal ⟨["email"], [⟨"mail", true, "explicit_allow", some "r1"⟩]⟩

/-- It is withheld from the portal. -/
def withheldRelease : RecordCall := toPortal ⟨[], [⟨"mail", false, "default_deny", none⟩]⟩

/-- The digests of the two events behind genesis. -/
def releaseSha256 : String → String :=
  tabulated [(genesis, portalRelease,
      "f7d3dde1775384a3d91054742828799251ab9fa9c77e90941f57522091662ef1"),
    (genesis, withheldRelease,
      "ee8d8760c7736c78215874e05798ddd3b8236300072b46cc8f12f4e301cab491")]

theorem fits_releaseSha256 (s : String) : fits 64 (releaseSha256 s) = true := by
  refine @tabulated_of (fun digest => fits 64 digest = true) _ ?_ (by decide) s
  simp only [List.forall_mem_cons]
  exact ⟨by decide, by decide, by simp⟩

theorem isRelease_toPortal (identity : ReleasedIdentity) : ∀ call ∈ [toPortal identity],
    call.eventType = .attributeRelease → IsRelease call := by
  rintro call hcall -
  rw [List.mem_singleton.mp hcall]
  exact ⟨_, _, _, _, _, _, _, _, _, _, by decide, rfl⟩

/-- The query of the person's view a minute later. -/
def samQuery : Query := releasesQuery "b7c1e0f2-6a4d-4f0e-9a53-2d1c8e7f6b90" 1767225660000000

theorem left_singleton (query : Query) (row : Row) :
    query.left [row] = [] ∨ query.left [row] = [row] := by
  rw [left_eq]
  by_cases hselects : query.selects row = true
  · exact .inr (by simp [hselects])
  · exact .inl (by simp [hselects])

theorem plain_left_singleton {query : Query} {row : Row} {size : Nat} (hsize : 0 < size)
    (h : released row = []) : Plain (query.left [row]) size := by
  obtain ⟨size, rfl⟩ := Nat.exists_eq_add_of_le' hsize
  rcases left_singleton query row with hleft | hleft
  · rw [hleft]
    exact ⟨by simp, by simp, by simp⟩
  · rw [hleft]
    exact ⟨by simpa using h, by simp, by simp [toClient]⟩

/-- **A release of no name is accounted for.** -/
theorem accurate_withheldRelease :
    (∃ view, myReleases (recorded releaseSha256 [withheldRelease]).rows
        "b7c1e0f2-6a4d-4f0e-9a53-2d1c8e7f6b90" 1767225660000000 = some view ∧
      Accurate (samQuery.left (recorded releaseSha256 [withheldRelease]).rows) view) ∧
    ∃ entries, recentReleases (recorded releaseSha256 [withheldRelease]).rows
        "b7c1e0f2-6a4d-4f0e-9a53-2d1c8e7f6b90" = some entries ∧
      NamesEach (((historyQuery "b7c1e0f2-6a4d-4f0e-9a53-2d1c8e7f6b90").left
        (recorded releaseSha256 [withheldRelease]).rows).take 50) entries := by
  obtain ⟨first, -, hrecord, -⟩ := @one_call releaseSha256 fits_releaseSha256 withheldRelease
    (by decide) (by decide +kernel) (by decide +kernel)
  have hrows : (recorded releaseSha256 [withheldRelease]).rows = [first] := by
    rw [recorded_singleton, hrecord]
  obtain ⟨call, hcall, hstored⟩ := @mem_recorded releaseSha256 [withheldRelease] first
    (hrows ▸ List.mem_singleton_self first)
  rw [List.mem_singleton.mp hcall] at hstored
  have hsilent : released first = [] := released_recordRelease hstored
  have hrelease : ∀ call ∈ [withheldRelease], call.eventType = .attributeRelease →
      IsRelease call := isRelease_toPortal _
  refine (accurate_iff releaseSha256 hrelease _ _).mpr ?_
  rw [hrows]
  refine ⟨plain_left_singleton (by decide) hsilent, fun row hrow => ?_⟩
  rcases left_singleton (historyQuery "b7c1e0f2-6a4d-4f0e-9a53-2d1c8e7f6b90") first with
    hleft | hleft
  · rw [hleft] at hrow
    cases hrow
  · rw [hleft] at hrow
    rwa [List.mem_singleton.mp hrow]

/-- **A released address that the person's view does not show.** -/
theorem hides_portalRelease :
    ¬ ∀ (sha256 : String → String) (calls : List RecordCall),
      (∀ call ∈ calls, call.eventType = .attributeRelease → IsRelease call) →
      ∀ (person : String) (now : Int),
        (∃ view, myReleases (recorded sha256 calls).rows person now = some view ∧
          Accurate ((releasesQuery person now).left (recorded sha256 calls).rows) view) ∧
        ∃ entries, recentReleases (recorded sha256 calls).rows person = some entries ∧
          NamesEach (((historyQuery person).left (recorded sha256 calls).rows).take 50)
            entries := by
  intro h
  obtain ⟨first, hfirst, hrecord, -⟩ := @one_call releaseSha256 fits_releaseSha256 portalRelease
    (by decide) (by decide +kernel) (by decide +kernel)
  have hrows : (recorded releaseSha256 [portalRelease]).rows = [first] := by
    rw [recorded_singleton, hrecord]
  have hviews := h releaseSha256 [portalRelease] (isRelease_toPortal _)
    "b7c1e0f2-6a4d-4f0e-9a53-2d1c8e7f6b90" 1767225660000000
  obtain ⟨hplain, -⟩ := (accurate_iff _ (isRelease_toPortal _) _ _).mp hviews
  -- the event is in the window
  have hleft : first ∈ samQuery.left (recorded releaseSha256 [portalRelease]).rows := by
    have hsubject : first.columns.subject = some "b7c1e0f2-6a4d-4f0e-9a53-2d1c8e7f6b90" :=
      hfirst.subject
    have htype : first.columns.eventType = "attribute.release" := hfirst.eventType
    have hat : first.columns.occurredAt = 1767225600000000 := hfirst.occurredAt
    rw [hrows]
    refine Keyset.mem_remaining.mpr ⟨List.mem_filter.mpr ⟨List.mem_singleton_self _, ?_⟩, ?_⟩
    · simp [Query.admits, samQuery, releasesQuery, releaseWindow, hsubject, htype, hat,
        EventType.value]
    · simp [samQuery, releasesQuery]
  obtain ⟨call, hcall, hstored⟩ := @mem_recorded releaseSha256 [portalRelease] first
    (hrows ▸ List.mem_singleton_self first)
  rw [List.mem_singleton.mp hcall] at hstored
  have hnames := released_recordRelease hstored
  rw [hplain.silent first hleft] at hnames
  cases hnames

end Audit
end CampusID
