import CampusID.Lib.Runs
import CampusID.Scim.Leaving

/-!
# Is the lifecycle told what the registry says?

Every write of a client hands the lifecycle two sets: the affiliations the person had and
the affiliations the person has.  The lifecycle keeps no copy, so what it believes about
a person is the second set it was handed last.

The two sets are computed from different things.  The first is read off the rows: the
values of those without an end date, whatever the person's status is.  The second is read
off the client's document: every value in it, whatever its dates are, or nothing if the
document says the person is inactive.  What the registry says about a day is a third
thing: the values of the rows in effect on that day, if the person is active.

`UserStore.inStep_iff_keeps` says exactly which writes keep the three together.
-/

namespace CampusID

open Lib

/-! ## What the registry says about a day -/

/-- `_current`: the dates include this day. -/
def CurrentOn (validFrom : Int) (validUntil : Option Int) (today : Int) : Prop :=
  validFrom ≤ today ∧ match validUntil with
    | none => True
    | some ends => today < ends

instance (validFrom : Int) (validUntil : Option Int) (today : Int) :
    Decidable (CurrentOn validFrom validUntil today) :=
  match validUntil with
  | none => inferInstanceAs (Decidable (_ ∧ True))
  | some _ => inferInstanceAs (Decidable (_ ∧ _))

/-- The row is in effect. -/
def Affiliation.Current (row : Affiliation) (today : Int) : Prop :=
  CurrentOn row.validFrom row.validUntil today

instance (row : Affiliation) (today : Int) : Decidable (row.Current today) :=
  inferInstanceAs (Decidable (CurrentOn _ _ _))

/-- The entry is in effect. -/
def ParsedAffiliation.Current (sent : ParsedAffiliation) (today : Int) : Prop :=
  CurrentOn sent.validFrom sent.validUntil today

instance (sent : ParsedAffiliation) (today : Int) : Decidable (sent.Current today) :=
  inferInstanceAs (Decidable (CurrentOn _ _ _))

/-- The values of the rows in effect. -/
def currentValues (today : Int) (rows : List Affiliation) : Finset String :=
  ((rows.filter (·.Current today)).map Affiliation.affiliation).toFinset

/-- The values of the entries in effect. -/
def currentlySent (today : Int) (sent : List ParsedAffiliation) : Finset String :=
  ((sent.filter (·.Current today)).map ParsedAffiliation.value).toFinset

/-- What the person is on a day: the values of the rows in effect, if they are active. -/
def Registry.current {Doc : Type} (registry : Registry Doc) (personUuid : String) (today : Int) :
    Finset String :=
  if (registry.get personUuid).map Person.status = some .active then
    currentValues today (registry.affiliationsOf personUuid)
  else ∅

/-- What a document says the person is on a day. -/
def ParsedUser.current (parsed : ParsedUser) (today : Int) : Finset String :=
  if parsed.active then currentlySent today parsed.affiliations else ∅

theorem mem_currentValues {today : Int} {rows : List Affiliation} {value : String} :
    value ∈ currentValues today rows ↔
      ∃ row ∈ rows, row.Current today ∧ row.affiliation = value := by
  simp [currentValues, and_assoc]

theorem mem_currentlySent {today : Int} {sent : List ParsedAffiliation} {value : String} :
    value ∈ currentlySent today sent ↔ ∃ a ∈ sent, a.Current today ∧ a.value = value := by
  simp [currentlySent, and_assoc]

@[simp] theorem mem_currentValues_cons {today : Int} {row : Affiliation} {rows : List Affiliation}
    {value : String} : value ∈ currentValues today (row :: rows) ↔
      (row.Current today ∧ row.affiliation = value) ∨ value ∈ currentValues today rows := by
  simp [mem_currentValues]

theorem currentValues_append (today : Int) (rows rows' : List Affiliation) :
    currentValues today (rows ++ rows') =
      currentValues today rows ∪ currentValues today rows' := by
  ext value
  simp [currentValues]

theorem currentValues_affiliationRow (personUuid : String) (today : Int)
    (sent : List ParsedAffiliation) :
    currentValues today (sent.map (affiliationRow personUuid)) = currentlySent today sent := by
  ext value
  rw [mem_currentValues, mem_currentlySent]
  constructor
  · rintro ⟨row, hrow, hcur, rfl⟩
    obtain ⟨a, ha, rfl⟩ := List.mem_map.mp hrow
    exact ⟨a, ha, hcur, rfl⟩
  · rintro ⟨a, ha, hcur, rfl⟩
    exact ⟨_, List.mem_map.mpr ⟨a, ha, rfl⟩, hcur, rfl⟩

theorem filter_affiliationRow (personUuid : String) (sent : List ParsedAffiliation) :
    (sent.map (affiliationRow personUuid)).filter (·.personUuid = personUuid) =
      sent.map (affiliationRow personUuid) := by
  rw [List.filter_eq_self]
  intro row hrow
  obtain ⟨a, -, rfl⟩ := List.mem_map.mp hrow
  simp [affiliationRow]

/-! ## What a replacement leaves -/

/-- The key a row is found by. -/
def Affiliation.key (row : Affiliation) : String × Int := (row.affiliation, row.validFrom)

/-- The rows a document with these keys does not reach: those it does not name, and of
several with one key all but the first. -/
def unreached : List (String × Int) → List Affiliation → List Affiliation
  | _, [] => []
  | keys, row :: rows =>
    if row.key ∈ keys then unreached (keys.filter (· ≠ row.key)) rows
    else row :: unreached keys rows

/-- The values in effect once a document is written over these rows: its own, and those of
the rows it does not reach whose end is still ahead. -/
def leftCurrent (parsed : ParsedUser) (today : Int) (rows : List Affiliation) : Finset String :=
  currentlySent today ((wantedAffiliations parsed).map Prod.snd) ∪
    currentValues today
      ((unreached ((wantedAffiliations parsed).map Prod.fst) rows).filter (¬ ·.Open))

theorem wantedAffiliations_keyed (parsed : ParsedUser) :
    ((wantedAffiliations parsed).map Prod.fst).Nodup ∧
      ∀ entry ∈ wantedAffiliations parsed, entry.1 = (entry.2.value, entry.2.validFrom) := by
  unfold wantedAffiliations
  have hfold : ∀ (sent : List ParsedAffiliation) (d : List ((String × Int) × ParsedAffiliation)),
      ((d.map Prod.fst).Nodup ∧ ∀ entry ∈ d, entry.1 = (entry.2.value, entry.2.validFrom)) →
      let d' := sent.foldl (fun d sent => assign d (sent.value, sent.validFrom) sent) d
      (d'.map Prod.fst).Nodup ∧ ∀ entry ∈ d', entry.1 = (entry.2.value, entry.2.validFrom) := by
    intro sent
    induction sent with
    | nil => exact fun d hd => hd
    | cons a sent ih =>
      rintro d ⟨hnodup, hkeyed⟩
      refine ih _ ⟨nodup_assign _ _ hnodup, fun entry hentry => ?_⟩
      rcases mem_assign hentry with hold | rfl
      · exact hkeyed entry hold
      · rfl
  exact hfold _ [] ⟨List.nodup_nil, by simp⟩

theorem not_current_of_closed (row : Affiliation) (today : Int) :
    ¬ ({ row with validUntil := some today } : Affiliation).Current today := by
  rintro ⟨-, h⟩
  exact lt_irrefl today h

theorem mem_currentlySent_of_lookup {wanted : List ((String × Int) × ParsedAffiliation)}
    {key : String × Int} {sent : ParsedAffiliation} (hnodup : (wanted.map Prod.fst).Nodup)
    (h : wanted.lookup key = some sent) {today : Int} {value : String} :
    value ∈ currentlySent today (wanted.map Prod.snd) ↔
      (sent.Current today ∧ sent.value = value) ∨
        value ∈ currentlySent today ((wanted.filter (·.1 ≠ key)).map Prod.snd) := by
  simp only [mem_currentlySent, List.mem_map]
  constructor
  · rintro ⟨a, ⟨entry, hentry, rfl⟩, hcur⟩
    rcases (mem_iff_of_lookup hnodup h).mp hentry with rfl | hrest
    · exact Or.inl hcur
    · exact Or.inr ⟨_, ⟨entry, hrest, rfl⟩, hcur⟩
  · rintro (hcur | ⟨a, ⟨entry, hentry, rfl⟩, hcur⟩)
    · exact ⟨sent, ⟨(key, sent), (mem_iff_of_lookup hnodup h).mpr (Or.inl rfl), rfl⟩, hcur⟩
    · exact ⟨_, ⟨entry, List.mem_of_mem_filter hentry, rfl⟩, hcur⟩

/-- **What the loop leaves in effect**: among the rows it went through and the entries it
hands back. -/
theorem mem_reconcileAffiliations_current (personUuid : String) (today : Int) (value : String)
    (rows : List Affiliation) (wanted : List ((String × Int) × ParsedAffiliation))
    (hnodup : (wanted.map Prod.fst).Nodup)
    (hkeyed : ∀ entry ∈ wanted, entry.1 = (entry.2.value, entry.2.validFrom)) :
    (value ∈ currentValues today ((reconcileAffiliations personUuid today rows wanted).1.filter
          (·.personUuid = personUuid)) ∨
        value ∈ currentlySent today
          ((reconcileAffiliations personUuid today rows wanted).2.map Prod.snd)) ↔
      value ∈ currentlySent today (wanted.map Prod.snd) ∨
        value ∈ currentValues today ((unreached (wanted.map Prod.fst)
          (rows.filter (·.personUuid = personUuid))).filter (¬ ·.Open)) := by
  induction rows generalizing wanted with
  | nil => simp [reconcileAffiliations, unreached, currentValues]
  | cons row rows ih =>
    rw [reconcileAffiliations]
    by_cases hmine : row.personUuid = personUuid
    · rw [if_pos hmine, List.filter_cons_of_pos (by simpa using hmine), unreached]
      cases hlookup : wanted.lookup (row.affiliation, row.validFrom) with
      | some sent =>
        -- the row is rewritten, and its key is taken out of what is wanted
        have hkey : row.key = (sent.value, sent.validFrom) :=
          hkeyed (row.key, sent) ((mem_iff_of_lookup hnodup hlookup).mpr (Or.inl rfl))
        obtain ⟨hvalue, hfrom⟩ := Prod.mk.inj hkey
        have hkeys : (wanted.filter (·.1 ≠ row.key)).map Prod.fst =
            (wanted.map Prod.fst).filter (· ≠ row.key) := by
          rw [List.filter_map]
          rfl
        have hrest := ih (wanted.filter (·.1 ≠ row.key))
          (hkeys ▸ hnodup.filter _) fun entry hentry => hkeyed entry (List.mem_of_mem_filter hentry)
        have hnamed : row.key ∈ wanted.map Prod.fst := mem_keys_of_lookup hlookup
        rw [if_pos hnamed, ← hkeys, mem_currentlySent_of_lookup hnodup hlookup, or_assoc]
        simp only
        rw [List.filter_cons_of_pos (by simpa using hmine), mem_currentValues_cons, or_assoc]
        refine or_congr ?_ hrest
        show CurrentOn row.validFrom sent.validUntil today ∧ row.affiliation = value ↔ _
        rw [hvalue, hfrom]
        rfl
      | none =>
        have hnamed : row.key ∉ wanted.map Prod.fst := notMem_keys_of_lookup hlookup
        rw [if_neg hnamed]
        simp only
        by_cases hopen : row.Open
        · rw [if_pos hopen, List.filter_cons_of_pos (by simpa using hmine), mem_currentValues_cons,
            List.filter_cons_of_neg (by simpa using hopen), ← ih wanted hnodup hkeyed]
          exact or_congr_left (or_iff_right fun h => not_current_of_closed row today h.1)
        · rw [if_neg hopen, List.filter_cons_of_pos (by simpa using hmine), mem_currentValues_cons,
            List.filter_cons_of_pos (by simpa using hopen), mem_currentValues_cons, or_assoc,
            ih wanted hnodup hkeyed]
          exact or_left_comm
    · rw [if_neg hmine, List.filter_cons_of_neg (by simpa using hmine),
        List.filter_cons_of_neg (by simpa using hmine)]
      exact ih wanted hnodup hkeyed

/-- **What a replacement leaves in effect.** -/
theorem replaceAffiliations_current {personUuid : String} {parsed : ParsedUser} {today : Int}
    {rows rows' : List Affiliation}
    (h : replaceAffiliations personUuid parsed today rows = .ok rows') :
    currentValues today (rows'.filter (·.personUuid = personUuid)) =
      leftCurrent parsed today (rows.filter (·.personUuid = personUuid)) := by
  obtain ⟨hnodup, hkeyed⟩ := wantedAffiliations_keyed parsed
  unfold replaceAffiliations addAffiliations at h
  simp only at h
  split at h
  · cases h
  · obtain rfl := Except.ok.inj h
    ext value
    rw [List.filter_append, filter_affiliationRow, currentValues_append, currentValues_affiliationRow,
      Finset.mem_union, leftCurrent, Finset.mem_union]
    exact mem_reconcileAffiliations_current personUuid today value rows _ hnodup hkeyed

/-! ## What a creation leaves -/

/-- The record a replayed creation is about. -/
def Registry.knownSource {Doc : Type} (registry : Registry Doc) (parsed : ParsedUser) :
    Option (ScimSourceRecord Doc) :=
  parsed.externalId.bind fun externalId =>
    if externalId = "" then none
    else registry.sources.find? fun source => source.externalId = some externalId

namespace UserStore

variable {Doc δ E : Type} (store : UserStore Doc δ E)

theorem createRows_of_known {parsed : ParsedUser} {raw resource : Doc} {personUuid : String}
    {now : Int} {registry registry' : Registry Doc} {created : Bool}
    (hknown : registry.knownSource parsed ≠ none)
    (h : store.createRows parsed raw personUuid now registry = .ok (registry', resource, created)) :
    registry' = registry ∧ created = false := by
  obtain ⟨source, hsource⟩ := Option.ne_none_iff_exists'.mp hknown
  unfold createRows at h
  rw [show (parsed.externalId.bind _) = some source from hsource] at h
  obtain ⟨record, -, h⟩ := Eff.except_bind_eq_ok.mp h
  cases h
  exact ⟨rfl, rfl⟩

/-- **What a creation does that is no replay.**  The record is loaded before the source is added. -/
theorem createRows_new {parsed : ParsedUser} {raw resource : Doc} {personUuid : String}
    {now : Int} {registry registry' : Registry Doc} {created : Bool}
    (hnew : registry.knownSource parsed = none)
    (h : store.createRows parsed raw personUuid now registry = .ok (registry', resource, created)) :
    ∃ identifiers affiliations record, assertUsernameFree registry parsed.userName none = .ok () ∧
      addAffiliations personUuid registry.affiliations parsed.affiliations = .ok affiliations ∧
      writeIdentifiers store.lower personUuid parsed now registry.identifiers = .ok identifiers ∧
      Registry.load ⟨registry.persons ++ [writePerson parsed { personUuid := personUuid }],
        identifiers, affiliations, registry.sources⟩ personUuid = .ok record ∧
      registry' = ⟨registry.persons ++ [writePerson parsed { personUuid := personUuid }],
        identifiers, affiliations, registry.sources ++
          [⟨personUuid, parsed.externalId, raw, store.version (store.toScim record)⟩]⟩ ∧
      resource = store.toScim record ∧ created = true := by
  unfold createRows at h
  rw [show (parsed.externalId.bind _) = none from hnew] at h
  obtain ⟨_, hfree, h⟩ := Eff.except_bind_eq_ok.mp h
  obtain ⟨affiliations, haff, h⟩ := Eff.except_bind_eq_ok.mp h
  obtain ⟨identifiers, hids, h⟩ := Eff.except_bind_eq_ok.mp h
  obtain ⟨record, hload, h⟩ := Eff.except_bind_eq_ok.mp h
  cases h
  exact ⟨identifiers, affiliations, record, hfree, haff, hids, hload, rfl, rfl, rfl⟩

/-- **A creation that went through**: the rows it adds. -/
theorem createRows_of_new {parsed : ParsedUser} {raw resource : Doc} {personUuid : String}
    {now : Int} {registry registry' : Registry Doc} {created : Bool}
    (hnew : registry.knownSource parsed = none)
    (h : store.createRows parsed raw personUuid now registry = .ok (registry', resource, created)) :
    created = true ∧
      registry'.persons = registry.persons ++ [writePerson parsed { personUuid := personUuid }] ∧
      registry'.affiliations =
        registry.affiliations ++ parsed.affiliations.map (affiliationRow personUuid) := by
  obtain ⟨identifiers, affiliations, record, -, haff, -, -, rfl, -, rfl⟩ :=
    store.createRows_new hnew h
  unfold addAffiliations at haff
  split at haff
  · cases haff
  · cases haff
    exact ⟨rfl, rfl, rfl⟩

end UserStore

/-! ## Runs of writes -/

/-- A call of the hook. -/
structure Delivery where
  personUuid : String
  before : Finset String
  after : Finset String
  deriving DecidableEq

/-- What the lifecycle was told last. -/
def told (deliveries : List Delivery) : Finset String :=
  deliveries.foldl (fun _ delivery => delivery.after) ∅

/-- Each delivery starts where the one before it ended. -/
def Chained (deliveries : List Delivery) : Prop :=
  ∀ pre delivery post, deliveries = pre ++ delivery :: post → delivery.before = told pre

/-- A write, and when it is made. -/
structure DatedWrite (Doc : Type) where
  now : Int
  today : Int
  write : UserWrite Doc

@[simp] theorem told_append (deliveries : List Delivery) (delivery : Delivery) :
    told (deliveries ++ [delivery]) = delivery.after := by
  simp [told]

theorem chained_append {deliveries : List Delivery} {delivery : Delivery} :
    Chained (deliveries ++ [delivery]) ↔
      Chained deliveries ∧ delivery.before = told deliveries := by
  constructor
  · intro h
    refine ⟨fun pre d post hd => ?_, h deliveries delivery [] rfl⟩
    exact h pre d (post ++ [delivery]) (by rw [hd]; simp)
  · rintro ⟨h, hlast⟩ pre d post hd
    rcases List.eq_nil_or_concat post with rfl | ⟨post, d', rfl⟩
    · obtain ⟨rfl, heq⟩ := List.append_inj' hd rfl
      obtain rfl := List.singleton_inj.mp heq
      exact hlast
    · have hd' : deliveries ++ [delivery] = (pre ++ d :: post) ++ [d'] := by rw [hd]; simp
      exact h pre d post (List.append_inj' hd' rfl).1

namespace UserStore

variable {Doc E : Type} (store : UserStore Doc (List Delivery) E) (personUuid : String)

/-- The store with a hook that writes down what it is told. -/
def recording : UserStore Doc (List Delivery) E :=
  { store with onTransition := some fun personUuid before after => do
      Eff.update fun w =>
        { w with downstream := w.downstream ++ [⟨personUuid, before, after⟩] }
      return {} }

/-- One write to the person, on its day. -/
def writeOn (w : World Doc (List Delivery)) (op : DatedWrite Doc) :
    Except (Exn E) (Except StoreError Unit) × World Doc (List Delivery) :=
  (store.recording.perform personUuid op.write).run { w with now := op.now, today := op.today }

/-- The world after a write. -/
def afterWrite (w : World Doc (List Delivery)) (op : DatedWrite Doc) :
    World Doc (List Delivery) :=
  (store.writeOn personUuid w op).2

/-- The write succeeds, and no day before the last write's; a person who is really created
is given an identifier that is not taken. -/
structure Succeeds (w : World Doc (List Delivery)) (op : DatedWrite Doc) : Prop where
  later : w.today ≤ op.today
  done : (store.writeOn personUuid w op).1 = .ok (.ok ())
  fresh : ∀ parsed raw, op.write = .create parsed raw → w.registry.knownSource parsed = none →
    w.registry.get personUuid = none

end UserStore

/-- The person is not known: no row, and nothing told. -/
structure World.Unknown {Doc : Type} (personUuid : String) (w : World Doc (List Delivery)) :
    Prop where
  person : w.registry.get personUuid = none
  affiliations : ∀ row ∈ w.registry.affiliations, row.personUuid ≠ personUuid
  nothing : w.downstream = []

/-- **The lifecycle is in step with the registry**: what it was told chains, and what it
was told last is what the person is on the day of the last write. -/
structure World.InStep {Doc : Type} (personUuid : String) (w : World Doc (List Delivery)) :
    Prop where
  chained : Chained w.downstream
  current : told w.downstream = w.registry.current personUuid w.today

/-- **Which writes keep the lifecycle in step.**  What is open has to be what was current
on the day of the last write, and what the client sent what is current once it is written
--- or else the write goes untold and nothing changes by it. -/
def UserWrite.Keeps {Doc : Type} (personUuid : String) (registry : Registry Doc)
    (last today : Int) : UserWrite Doc → Prop
  | .create parsed _ =>
    if (registry.knownSource parsed).isSome then
      registry.current personUuid last = registry.current personUuid today
    else parsed.affiliationValues = parsed.current today
  | .replace parsed _ _ | .applyPatched parsed _ _ =>
    if parsed.active then
      let left := leftCurrent parsed today (registry.affiliationsOf personUuid)
      (registry.openAffiliations personUuid = registry.current personUuid last ∧
          parsed.affiliationValues = left) ∨
        (registry.openAffiliations personUuid = parsed.affiliationValues ∧
          registry.current personUuid last = left)
    else registry.openAffiliations personUuid = registry.current personUuid last
  | .softDelete _ => registry.openAffiliations personUuid = registry.current personUuid last

instance {Doc : Type} (personUuid : String) (registry : Registry Doc) (last today : Int)
    (write : UserWrite Doc) : Decidable (write.Keeps personUuid registry last today) :=
  match write with
  | .create parsed _ =>
    inferInstanceAs (Decidable (if (registry.knownSource parsed).isSome then _ = _ else _ = _))
  | .replace parsed _ _ | .applyPatched parsed _ _ =>
    inferInstanceAs (Decidable
      (if parsed.active then (_ = _ ∧ _ = _) ∨ (_ = _ ∧ _ = _) else _ = _))
  | .softDelete _ => inferInstanceAs (Decidable (_ = _))

/-! ## What a write does -/

/-- What a write did: the day, what the hook was told, and what the person is now. -/
structure World.Wrote {Doc : Type} (personUuid : String) (w w' : World Doc (List Delivery))
    (day : Int) (deliveries : List Delivery) (values : Finset String) : Prop where
  today : w'.today = day
  downstream : w'.downstream = w.downstream ++ deliveries
  current : w'.registry.current personUuid day = values
  unknown : w'.registry.get personUuid = none →
    w.registry.get personUuid = none ∧ w'.registry.affiliations = w.registry.affiliations

/-- What the hook is told of a change: nothing, if it is none. -/
def deliveriesOf (personUuid : String) (before after : Finset String) : List Delivery :=
  if before = after then [] else [⟨personUuid, before, after⟩]

namespace World

variable {Doc : Type} {personUuid : String} {w w' : World Doc (List Delivery)} {today : Int}
  {before after current : Finset String}

theorem Wrote.of_day {now' today' : Int} {deliveries : List Delivery}
    (h : Wrote personUuid { w with now := now', today := today' } w' today deliveries current) :
    w.Wrote personUuid w' today deliveries current :=
  ⟨h.today, h.downstream, h.current, h.unknown⟩

/-- A delivery keeps the lifecycle in step when it starts at what was current and ends at
what is. -/
theorem Wrote.inStep_of_told (h : w.Wrote personUuid w' today [⟨personUuid, before, after⟩] current)
    (hw : w.InStep personUuid) : w'.InStep personUuid ↔
      before = w.registry.current personUuid w.today ∧ after = current := by
  rw [← hw.current, ← h.current, ← h.today]
  constructor
  · rintro ⟨hchain, hcur⟩
    rw [h.downstream] at hchain hcur
    rw [told_append] at hcur
    exact ⟨(chained_append.mp hchain).2, hcur⟩
  · rintro ⟨hbefore, hafter⟩
    refine ⟨?_, ?_⟩
    · rw [h.downstream]
      exact chained_append.mpr ⟨hw.chained, hbefore⟩
    · rw [h.downstream, told_append]
      exact hafter

theorem Wrote.inStep_of_untold (h : w.Wrote personUuid w' today [] current)
    (hw : w.InStep personUuid) :
    w'.InStep personUuid ↔ w.registry.current personUuid w.today = current := by
  have hsame : w'.downstream = w.downstream := by rw [h.downstream, List.append_nil]
  rw [← hw.current, ← h.current, ← h.today, ← hsame]
  constructor
  · exact InStep.current
  · exact fun hcur => ⟨hsame ▸ hw.chained, hcur⟩

/-- **When a change that may be none keeps the lifecycle in step.** -/
theorem Wrote.inStep_iff
    (h : w.Wrote personUuid w' today (deliveriesOf personUuid before after) current)
    (hw : w.InStep personUuid) : w'.InStep personUuid ↔
      (before = w.registry.current personUuid w.today ∧ after = current) ∨
        (before = after ∧ w.registry.current personUuid w.today = current) := by
  by_cases hsame : before = after
  · rw [deliveriesOf, if_pos hsame] at h
    rw [h.inStep_of_untold hw]
    constructor
    · exact fun hcur => Or.inr ⟨hsame, hcur⟩
    · rintro (⟨hbefore, hafter⟩ | ⟨-, hcur⟩)
      · rw [← hbefore, ← hafter, hsame]
      · exact hcur
  · rw [deliveriesOf, if_neg hsame] at h
    rw [h.inStep_of_told hw]
    exact ⟨Or.inl, fun h => h.resolve_right fun h => hsame h.1⟩

end World

theorem Registry.current_of_get {Doc : Type} {registry : Registry Doc} {personUuid : String}
    {status : Status} (h : (registry.get personUuid).map Person.status = some status)
    (today : Int) : registry.current personUuid today =
      if status = .active then currentValues today (registry.affiliationsOf personUuid) else ∅ := by
  simp [current, h]

theorem Registry.current_of_none {Doc : Type} {registry : Registry Doc} {personUuid : String}
    (h : registry.get personUuid = none) (today : Int) : registry.current personUuid today = ∅ := by
  simp [current, h]

theorem ParsedUser.status_eq_active {parsed : ParsedUser} :
    parsed.status = .active ↔ parsed.active = true := by
  unfold status
  split_ifs with h <;> simp [h]

namespace UserStore

variable {Doc E : Type} (store : UserStore Doc (List Delivery) E) {personUuid : String}
  {w w' : World Doc (List Delivery)}

theorem run_recording_tell (before after : Finset String) (w : World Doc (List Delivery)) :
    (store.recording.tell personUuid before after).run w =
      (.ok (), { w with downstream := w.downstream ++ [⟨personUuid, before, after⟩] }) := rfl

theorem run_recording_transitioned (before after : Finset String)
    (w : World Doc (List Delivery)) :
    (store.recording.transitioned personUuid before after).run w =
      (.ok (), { w with
        downstream := w.downstream ++ deliveriesOf personUuid before after }) := by
  unfold transitioned deliveriesOf
  split_ifs
  · simp
  · rfl

/-- **What a replacement does.** -/
theorem replace_wrote {parsed : ParsedUser} {raw resource : Doc} {ifMatch : Option String}
    (h : (store.recording.replace personUuid parsed raw ifMatch).run w =
      (.ok (.ok resource), w')) :
    w.Wrote personUuid w' w.today
      (deliveriesOf personUuid (w.registry.openAffiliations personUuid)
        (if parsed.active then parsed.affiliationValues else ∅))
      (if parsed.active then
        leftCurrent parsed w.today (w.registry.affiliationsOf personUuid) else ∅) := by
  obtain ⟨registry, before, after, htx, htold⟩ := store.recording.replace_ok h
  obtain ⟨-, rfl, rfl, -, -, haff⟩ := store.recording.replaceRows_ok htx
  have hstatus := store.recording.replaceRows_status htx
  rw [run_recording_transitioned] at htold
  obtain rfl := (Prod.mk.inj htold).2
  refine ⟨rfl, ?_, ?_, ?_⟩
  · simp only [ParsedUser.status_eq_active]
  · have hleft : currentValues w.today (registry.affiliationsOf personUuid) =
        leftCurrent parsed w.today (w.registry.affiliationsOf personUuid) :=
      replaceAffiliations_current haff
    show registry.current personUuid w.today = _
    rw [Registry.current_of_get hstatus, hleft]
    simp only [ParsedUser.status_eq_active]
  · intro hnone
    have hnone' : registry.get personUuid = none := hnone
    rw [hnone'] at hstatus
    cases hstatus

/-- **What a deletion does.** -/
theorem softDelete_wrote {ifMatch : Option String}
    (h : (store.recording.softDelete personUuid ifMatch).run w = (.ok (.ok ()), w')) :
    w.Wrote personUuid w' w.today
      [⟨personUuid, w.registry.openAffiliations personUuid, ∅⟩] ∅ := by
  obtain ⟨registry, before, htx, htold⟩ := store.recording.softDelete_ok h
  obtain ⟨rfl, hpersons, -, -⟩ := softDeleteRows_ok htx
  have hstatus := softDeleteRows_status htx
  rw [run_recording_tell] at htold
  obtain rfl := (Prod.mk.inj htold).2
  refine ⟨rfl, rfl, ?_, ?_⟩
  · show registry.current personUuid w.today = _
    rw [Registry.current_of_get hstatus]
    rfl
  · intro hnone
    have hnone' : registry.get personUuid = none := hnone
    rw [hnone'] at hstatus
    cases hstatus

/-- **What a creation does**, replayed or not. -/
theorem create_wrote {parsed : ParsedUser} {raw : Doc} {answer : Doc × Bool}
    (hfresh : w.registry.knownSource parsed = none → w.registry.get personUuid = none)
    (hrows : w.registry.get personUuid = none →
      ∀ row ∈ w.registry.affiliations, row.personUuid ≠ personUuid)
    (h : (store.recording.create parsed raw personUuid).run w = (.ok (.ok answer), w')) :
    match w.registry.knownSource parsed with
    | none => w.Wrote personUuid w' w.today
        (deliveriesOf personUuid ∅ parsed.affiliationValues) (parsed.current w.today)
    | some _ => w.Wrote personUuid w' w.today [] (w.registry.current personUuid w.today) := by
  unfold create at h
  cases htx : store.recording.createRows parsed raw personUuid w.now w.registry with
  | error e =>
    rw [Eff.run_bind_of_ok (run_transact_of_error htx)] at h
    cases h
  | ok written =>
    obtain ⟨registry, resource, created⟩ := written
    rw [Eff.run_bind_of_ok (run_transact_of_ok htx)] at h
    cases hknown : w.registry.knownSource parsed with
    | some source =>
      obtain ⟨rfl, rfl⟩ := store.recording.createRows_of_known (by simp [hknown]) htx
      obtain rfl : w = w' := congrArg Prod.snd h
      exact ⟨rfl, by simp, rfl, fun hnone => ⟨hnone, rfl⟩⟩
    | none =>
      obtain ⟨rfl, hpersons, haff⟩ := store.recording.createRows_of_new hknown htx
      simp only [if_true] at h
      rw [Eff.run_bind_of_ok (store.run_recording_transitioned _ _ _)] at h
      obtain rfl := (Prod.mk.inj h).2
      have hget : registry.get personUuid = some (writePerson parsed { personUuid := personUuid }) := by
        have hold : w.registry.persons.find? (·.personUuid = personUuid) = none := hfresh hknown
        unfold Registry.get
        rw [hpersons, List.find?_append, hold]
        simp [writePerson]
      have hmine : registry.affiliationsOf personUuid =
          parsed.affiliations.map (affiliationRow personUuid) := by
        unfold Registry.affiliationsOf
        rw [haff, List.filter_append, filter_affiliationRow,
          List.filter_eq_nil_iff.mpr (by simpa using hrows (hfresh hknown)), List.nil_append]
      refine ⟨rfl, rfl, ?_, ?_⟩
      · show registry.current personUuid w.today = _
        have hstatus : (registry.get personUuid).map Person.status = some parsed.status := by
          rw [hget]
          rfl
        rw [Registry.current_of_get hstatus, hmine, currentValues_affiliationRow]
        simp only [ParsedUser.status_eq_active]
        rfl
      · intro hnone
        have hnone' : registry.get personUuid = none := hnone
        rw [hget] at hnone'
        cases hnone'

theorem keeps_replace_iff (parsed : ParsedUser) (raw : Doc) (ifMatch : Option String)
    (registry : Registry Doc) (last today : Int) :
    (UserWrite.replace parsed raw ifMatch).Keeps personUuid registry last today ↔
      (registry.openAffiliations personUuid = registry.current personUuid last ∧
        (if parsed.active then parsed.affiliationValues else ∅) =
          (if parsed.active then
            leftCurrent parsed today (registry.affiliationsOf personUuid) else ∅)) ∨
      (registry.openAffiliations personUuid =
          (if parsed.active then parsed.affiliationValues else ∅) ∧
        registry.current personUuid last =
          (if parsed.active then
            leftCurrent parsed today (registry.affiliationsOf personUuid) else ∅)) := by
  unfold UserWrite.Keeps
  by_cases hactive : parsed.active = true
  · simp only [hactive, if_true]
  · simp only [if_neg hactive, and_true]
    constructor
    · exact Or.inl
    · rintro (hopen | ⟨hopen, hcurrent⟩)
      · exact hopen
      · exact hopen.trans hcurrent.symm

/-- What holds along a run whose writes all keep the lifecycle in step. -/
structure Following (personUuid : String) (w : World Doc (List Delivery)) : Prop where
  inStep : w.InStep personUuid
  rows : w.registry.get personUuid = none →
    ∀ row ∈ w.registry.affiliations, row.personUuid ≠ personUuid

theorem Following.rows_of_wrote {day : Int} {deliveries : List Delivery} {values : Finset String}
    (hw : Following personUuid w) (h : w.Wrote personUuid w' day deliveries values)
    (hnone : w'.registry.get personUuid = none) :
    ∀ row ∈ w'.registry.affiliations, row.personUuid ≠ personUuid := by
  obtain ⟨hold, hsame⟩ := h.unknown hnone
  rw [hsame]
  exact hw.rows hold

/-- **One write**: the lifecycle stays in step exactly when the write keeps it. -/
theorem inStep_afterWrite_iff {op : DatedWrite Doc} (hw : Following personUuid w)
    (hop : store.Succeeds personUuid w op) :
    ((store.afterWrite personUuid w op).InStep personUuid ↔
        op.write.Keeps personUuid w.registry w.today op.today) ∧
      ((store.afterWrite personUuid w op).registry.get personUuid = none →
        ∀ row ∈ (store.afterWrite personUuid w op).registry.affiliations,
          row.personUuid ≠ personUuid) := by
  obtain ⟨now, today, write⟩ := op
  have hdone : (store.recording.perform personUuid write).run
      { w with now := now, today := today } =
        (.ok (.ok ()), store.afterWrite personUuid w ⟨now, today, write⟩) :=
    Prod.ext hop.done rfl
  cases write with
  | create parsed raw =>
    obtain ⟨answer, hrun⟩ := run_map_ok hdone
    have hwrote := store.create_wrote (w := { w with now := now, today := today })
      (hop.fresh parsed raw rfl) hw.rows hrun
    unfold UserWrite.Keeps
    cases hknown : w.registry.knownSource parsed with
    | none =>
      simp only [hknown, Option.isSome_none, Bool.false_eq_true, if_false] at hwrote ⊢
      have hnone : w.registry.current personUuid w.today = ∅ :=
        Registry.current_of_none (hop.fresh parsed raw rfl hknown) _
      refine ⟨?_, hw.rows_of_wrote hwrote.of_day⟩
      rw [hwrote.of_day.inStep_iff hw.inStep, hnone]
      constructor
      · rintro (⟨-, hvalues⟩ | ⟨hempty, hcurrent⟩)
        · exact hvalues
        · exact hempty.symm.trans hcurrent
      · exact fun hvalues => Or.inl ⟨rfl, hvalues⟩
    | some source =>
      simp only [hknown, Option.isSome_some, if_true] at hwrote ⊢
      exact ⟨hwrote.of_day.inStep_of_untold hw.inStep, hw.rows_of_wrote hwrote.of_day⟩
  | replace parsed raw ifMatch =>
    obtain ⟨resource, hrun⟩ := run_map_ok hdone
    have hwrote := (store.replace_wrote hrun).of_day
    exact ⟨(hwrote.inStep_iff hw.inStep).trans (keeps_replace_iff _ raw ifMatch _ _ _).symm,
      hw.rows_of_wrote hwrote⟩
  | applyPatched parsed raw ifMatch =>
    obtain ⟨resource, hrun⟩ := run_map_ok hdone
    have hwrote := (store.replace_wrote hrun).of_day
    exact ⟨(hwrote.inStep_iff hw.inStep).trans (keeps_replace_iff _ raw ifMatch _ _ _).symm,
      hw.rows_of_wrote hwrote⟩
  | softDelete ifMatch =>
    have hwrote := (store.softDelete_wrote hdone).of_day
    refine ⟨?_, hw.rows_of_wrote hwrote⟩
    rw [hwrote.inStep_of_told hw.inStep]
    exact and_iff_left rfl

/-- **The lifecycle is in step after every write, and a write that goes untold changes
nothing, in exactly the runs whose every write keeps it.** -/
theorem inStep_iff_keeps {start final : World Doc (List Delivery)} {ops : List (DatedWrite Doc)}
    (hstart : start.Unknown personUuid)
    (hrun : Run (store.Succeeds personUuid) (store.afterWrite personUuid) start ops final) :
    ((∀ pre post, ops = pre ++ post →
          (pre.foldl (store.afterWrite personUuid) start).InStep personUuid) ∧
        ∀ pre op post, ops = pre ++ op :: post →
          let w := pre.foldl (store.afterWrite personUuid) start
          let w' := store.afterWrite personUuid w op
          w'.downstream = w.downstream →
            w'.registry.current personUuid w'.today = w.registry.current personUuid w.today) ↔
      Run (fun w op => store.Succeeds personUuid w op ∧
          op.write.Keeps personUuid w.registry w.today op.today)
        (store.afterWrite personUuid) start ops final := by
  have hfollow : Following personUuid start := by
    refine ⟨⟨?_, ?_⟩, fun _ => hstart.affiliations⟩
    · rw [hstart.nothing]
      intro pre delivery post h
      simp at h
    · rw [hstart.nothing, Registry.current_of_none hstart.person]
      rfl
  have hiff := Run.and_iff_forall_reached (I := Following personUuid)
    (P := fun w => w.InStep personUuid)
    (fun w op hw hop hkeeps => by
      obtain ⟨hstep, hrows⟩ := store.inStep_afterWrite_iff hw hop
      exact ⟨hstep.mpr hkeeps, hrows⟩)
    (fun w hw => hw.inStep)
    (fun w op hw hop hin => (store.inStep_afterWrite_iff hw hop).1.mp hin) hrun hfollow
  rw [hiff]
  refine and_iff_left_of_imp fun hall pre op post hops => ?_
  -- what was told last is what is current, before the write and after it
  intro w w' hsame
  have hw : w.InStep personUuid := hall pre (op :: post) hops
  have hw' : w'.InStep personUuid := by
    have hpre := hall (pre ++ [op]) post (by rw [hops]; simp)
    rwa [List.foldl_append] at hpre
  rw [← hw.current, ← hw'.current, hsame]

/-! ### Coming back -/

/-- A store that writes down what the lifecycle is told. -/
def silentStore : UserStore Unit (List Delivery) Empty where
  toScim := fun _ => ()
  version := fun _ => "W/1"

/-- Nobody is known, and nothing was told. -/
def untoldWorld : World Unit (List Delivery) where
  redis := Store.empty
  now := 0
  today := 0
  rules := {}
  registry := {}
  lifecycle := {}
  downstream := []

theorem untoldWorld_unknown (personUuid : String) : untoldWorld.Unknown personUuid :=
  ⟨rfl, by simp [untoldWorld], rfl⟩

/-- A student is created on one day and deleted on another. -/
def comesAndGoes : List (DatedWrite Unit) :=
  [⟨0, 0, .create (alice [⟨"student", true, none, 0, none⟩]) ()⟩, ⟨60, 1, .softDelete none⟩]

theorem comesAndGoes_run : Run (silentStore.Succeeds "p") (silentStore.afterWrite "p")
    untoldWorld comesAndGoes (comesAndGoes.foldl (silentStore.afterWrite "p") untoldWorld) := by
  refine .cons ⟨by decide, by rfl, fun _ _ _ _ => rfl⟩
    (.cons ⟨by decide, by rfl, fun _ _ h => by cases h⟩ (.nil _))

theorem inStep_of_comesAndGoes :
    (comesAndGoes.foldl (silentStore.afterWrite "p") untoldWorld).InStep "p" := by
  refine ((silentStore.inStep_iff_keeps (untoldWorld_unknown "p") comesAndGoes_run).mpr ?_).1
    comesAndGoes [] (List.append_nil _).symm
  exact .cons ⟨⟨by decide, by rfl, fun _ _ _ _ => rfl⟩, by decide⟩
    (.cons ⟨⟨by decide, by rfl, fun _ _ h => by cases h⟩, by decide⟩ (.nil _))

/-- A student is suspended, and comes back. -/
def comesBack : List (DatedWrite Unit) :=
  let student : ParsedAffiliation := ⟨"student", true, none, 0, none⟩
  [⟨0, 0, .create (alice [student]) ()⟩,
    ⟨60, 1, .replace { alice [student] with active := false } () none⟩,
    ⟨120, 2, .replace (alice [student]) () none⟩]

/-- **Nobody tells the lifecycle that a suspended person is back.**  Their rows stayed open,
so nothing seems to have changed. -/
theorem not_inStep_of_comesBack :
    ¬ ∀ (store : UserStore Unit (List Delivery) Empty) (personUuid : String)
      (start final : World Unit (List Delivery)) (ops : List (DatedWrite Unit)),
      start.Unknown personUuid →
      Run (store.Succeeds personUuid) (store.afterWrite personUuid) start ops final →
      ∀ pre post, ops = pre ++ post →
        (pre.foldl (store.afterWrite personUuid) start).InStep personUuid := by
  intro h
  have hrun : Run (silentStore.Succeeds "p") (silentStore.afterWrite "p") untoldWorld comesBack
      (comesBack.foldl (silentStore.afterWrite "p") untoldWorld) := by
    refine .cons ⟨by decide, by rfl, fun _ _ _ _ => rfl⟩
      (.cons ⟨by decide, by rfl, fun _ _ h => by cases h⟩
        (.cons ⟨by decide, by rfl, fun _ _ h => by cases h⟩ (.nil _)))
  have hin := (h silentStore "p" _ _ comesBack (untoldWorld_unknown "p") hrun comesBack [] rfl).current
  have htold : told (comesBack.foldl (silentStore.afterWrite "p") untoldWorld).downstream = ∅ := by
    decide
  have hcurrent : (comesBack.foldl (silentStore.afterWrite "p") untoldWorld).registry.current "p"
      (comesBack.foldl (silentStore.afterWrite "p") untoldWorld).today = {"student"} := by
    decide
  rw [htold, hcurrent] at hin
  exact absurd hin (by decide)

end UserStore

end CampusID
