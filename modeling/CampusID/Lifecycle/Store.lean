import CampusID.Lib.Rows
import CampusID.Lifecycle.Rules

/-!
# Grants as rows

`LifecycleStore`: a delta becomes rows.  A grant is inserted under the key of its
person, entitlement and justification, ignoring a conflict; a revocation marks the
rows of an entitlement, now or by a deadline; a sweep ends the rows whose deadline
has passed.  Rows are never deleted, so the key of a revoked row stays taken.

Each operation has one lemma saying which rows there are afterwards.  The instants a
row is granted and revoked at are wall-clock readings; of these only whether a row
was revoked is ever read, and the instant of the grant is left out.
-/

namespace CampusID

open Lib

/-- `EntitlementGrant`: one entitlement a person holds, and the reason it exists.
The kind of justification is always `affiliation`. -/
structure EntitlementGrant where
  personUuid : String
  entitlementUrn : String
  justificationRef : String
  revokeAt : Option Int := none
  revokedAt : Option Int := none
  deriving DecidableEq, Repr

namespace EntitlementGrant

/-- `uq_entitlement_grant_person_urn_justification`. -/
def key (row : EntitlementGrant) : String × String × String :=
  (row.personUuid, row.entitlementUrn, row.justificationRef)

/-- The row counts on the day `on`: not revoked, and its deadline, if it has one, is
still to come. -/
def HeldOn (row : EntitlementGrant) (on : Int) : Prop :=
  row.revokedAt = none ∧ ∀ deadline ∈ row.revokeAt, on < deadline

instance (row : EntitlementGrant) (on : Int) : Decidable (row.HeldOn on) :=
  match h : row.revokeAt with
  | none => decidable_of_iff (row.revokedAt = none) (by simp [HeldOn, h])
  | some d => decidable_of_iff (row.revokedAt = none ∧ on < d) (by simp [HeldOn, h])

/-- Nothing is scheduled against the row. -/
def Clean (row : EntitlementGrant) : Prop := row.revokedAt = none ∧ row.revokeAt = none

instance (row : EntitlementGrant) : Decidable row.Clean :=
  inferInstanceAs (Decidable (_ ∧ _))

end EntitlementGrant

/-- The kinds of `LifecycleEvent`. -/
inductive EventType where
  | joiner
  | mover
  | leaver
  | graceExpiry
  deriving DecidableEq, Repr

/-- What asked for an event. -/
inductive Source where
  | scim
  | scheduler
  deriving DecidableEq, Repr

/-- One side of an event: the affiliations and entitlements of a transition, or one
entitlement held or not. -/
inductive LifecycleState where
  | transition (affiliations entitlements : List String)
  | entitlement (urn : String) (held : Bool)
  deriving DecidableEq, Repr

/-- `LifecycleEvent`. -/
structure LifecycleEvent where
  personUuid : String
  eventType : EventType
  source : Source
  beforeState : LifecycleState
  afterState : LifecycleState
  deriving DecidableEq, Repr

/-- The two tables of the lifecycle. -/
structure LifecycleTables where
  grants : List EntitlementGrant := []
  events : List LifecycleEvent := []
  deriving DecidableEq, Repr

/-- `justification_ref`. -/
def justificationRef (grant : Grant) : String := grant.ruleId ++ ":" ++ grant.affiliation

/-- `event_type`. -/
def eventType (before after : Finset String) : EventType :=
  if before = ∅ then .joiner else if after = ∅ then .leaver else .mover

/-- The set of a list of strings, sorted. -/
def sortedSet (l : List String) : List String := Text.sorted l.toFinset

/-- `_state`: the entitlements before a transition, reconstructed from the delta. -/
def stateBefore (affiliations : Finset String) (delta : Delta) : LifecycleState :=
  .transition (Text.sorted affiliations)
    (sortedSet (delta.retained.map Grant.urn ++ delta.revoked.map Revocation.urn))

/-- The `after_state` of a transition. -/
def stateAfter (affiliations : Finset String) (delta : Delta) : LifecycleState :=
  .transition (Text.sorted affiliations)
    (sortedSet ((delta.granted ++ delta.retained).map Grant.urn))

/-- The row `_grant` writes for a grant. -/
def grantRow (personUuid : String) (grant : Grant) : EntitlementGrant where
  personUuid := personUuid
  entitlementUrn := grant.urn
  justificationRef := justificationRef grant

/-- `_grant`: insert the rows, ignoring conflicts on the justification key. -/
def grantRows (personUuid : String) (grants : List Grant) (rows : List EntitlementGrant) :
    List EntitlementGrant :=
  insertAll EntitlementGrant.key rows (grants.map (grantRow personUuid))

/-- What `_revoke` does to a row its query selected: end it now when there is no grace
period, and by deadline when there is; an earlier deadline is kept. -/
def endRow (row : EntitlementGrant) (revocation : Revocation) (now : Int) : EntitlementGrant :=
  if revocation.graceDays = 0 then
    { row with revokedAt := some now, revokeAt := some revocation.effective }
  else
    match row.revokeAt with
    | none => { row with revokeAt := some revocation.effective }
    | some deadline =>
      if revocation.effective < deadline then { row with revokeAt := some revocation.effective }
      else row

/-- `_revoke`: the rows of the person and of a revoked entitlement that are not
revoked yet.  Of two revocations of one entitlement the later one counts. -/
def revokeRow (personUuid : String) (revoked : List Revocation) (now : Int)
    (row : EntitlementGrant) : EntitlementGrant :=
  match revoked.reverse.find? (·.urn = row.entitlementUrn) with
  | some revocation =>
    if row.personUuid = personUuid ∧ row.revokedAt = none then endRow row revocation now else row
  | none => row

/-- `LifecycleStore.apply`. -/
def LifecycleTables.apply (tables : LifecycleTables) (personUuid : String) (delta : Delta)
    (before after : Finset String) (source : Source) (now : Int) : LifecycleTables where
  grants := (grantRows personUuid delta.granted tables.grants).map
    (revokeRow personUuid delta.revoked now)
  events := tables.events ++ [{
    personUuid := personUuid
    eventType := eventType before after
    source := source
    beforeState := stateBefore before delta
    afterState := stateAfter after delta }]

/-- `LifecycleStore.held`. -/
def LifecycleTables.held (tables : LifecycleTables) (personUuid : String) (on : Int) :
    Finset String :=
  ((tables.grants.filter fun row => row.personUuid = personUuid ∧ row.HeldOn on).map
    EntitlementGrant.entitlementUrn).toFinset

/-- The row is due on the day `on`. -/
def EntitlementGrant.Due (row : EntitlementGrant) (on : Int) : Prop :=
  row.revokedAt = none ∧ ∃ deadline ∈ row.revokeAt, deadline ≤ on

instance (row : EntitlementGrant) (on : Int) : Decidable (row.Due on) :=
  match h : row.revokeAt with
  | none => .isFalse (by simp [EntitlementGrant.Due, h])
  | some d => decidable_of_iff (row.revokedAt = none ∧ d ≤ on) (by simp [EntitlementGrant.Due, h])

/-- `expire_due`: end every row whose deadline has passed, with an event for each, and
name the people affected. -/
def LifecycleTables.expireDue (tables : LifecycleTables) (on now : Int) :
    LifecycleTables × List String :=
  let due := tables.grants.filter (·.Due on)
  ({ grants := tables.grants.map fun row =>
       if row.Due on then { row with revokedAt := some now } else row
     events := tables.events ++ due.map fun row => {
       personUuid := row.personUuid
       eventType := .graceExpiry
       source := .scheduler
       beforeState := .entitlement row.entitlementUrn true
       afterState := .entitlement row.entitlementUrn false } },
    sortedSet (due.map EntitlementGrant.personUuid))

/-! ## The rows after an operation -/

@[simp] theorem grantRow_key (personUuid : String) (grant : Grant) :
    (grantRow personUuid grant).key = (personUuid, grant.urn, justificationRef grant) := rfl

theorem grantRow_clean (personUuid : String) (grant : Grant) :
    (grantRow personUuid grant).Clean := ⟨rfl, rfl⟩

/-- The rows after `_grant`: those there were, and those whose key was free. -/
theorem mem_grantRows {personUuid : String} {grants : List Grant} {rows : List EntitlementGrant}
    {row : EntitlementGrant} :
    row ∈ grantRows personUuid grants rows ↔ row ∈ rows ∨
      ((∃ g ∈ grants, grantRow personUuid g = row) ∧ ∀ r ∈ rows, r.key ≠ row.key) := by
  unfold grantRows
  rw [mem_insertAll, List.mem_map]
  -- a row to be inserted is determined by its key
  intro r hr r' hr' heq
  obtain ⟨g, -, rfl⟩ := List.mem_map.mp hr
  obtain ⟨g', -, rfl⟩ := List.mem_map.mp hr'
  simp only [grantRow_key, Prod.mk.injEq] at heq
  simp [grantRow, heq.2.1, heq.2.2]

@[simp] theorem endRow_key (row : EntitlementGrant) (r : Revocation) (now : Int) :
    (endRow row r now).key = row.key := by
  unfold endRow
  split_ifs with h
  · rfl
  · split
    · rfl
    · split_ifs <;> rfl

/-- An ended row is revoked, or has a deadline: the revocation's, or an earlier one
of its own. -/
theorem endRow_deadline (row : EntitlementGrant) (r : Revocation) (now : Int) :
    (endRow row r now).revokedAt ≠ none ∨
      ∃ deadline, (endRow row r now).revokeAt = some deadline ∧
        (deadline = r.effective ∨ row.revokeAt = some deadline) := by
  unfold endRow
  split_ifs with h
  · exact Or.inl (by simp)
  · refine Or.inr ?_
    split
    · exact ⟨_, rfl, Or.inl rfl⟩
    · rename_i deadline hd
      split_ifs
      · exact ⟨_, rfl, Or.inl rfl⟩
      · exact ⟨deadline, hd, Or.inr hd⟩

/-- **What `_revoke` does to a row**: nothing, unless it is an unrevoked row of the
person whose entitlement is among the revoked ones. -/
theorem revokeRow_cases (personUuid : String) (revoked : List Revocation) (now : Int)
    (row : EntitlementGrant) :
    (revokeRow personUuid revoked now row = row ∧
      (row.personUuid = personUuid → row.revokedAt = none →
        ∀ r ∈ revoked, r.urn ≠ row.entitlementUrn)) ∨
    ∃ r ∈ revoked, r.urn = row.entitlementUrn ∧ row.personUuid = personUuid ∧
      row.revokedAt = none ∧ revokeRow personUuid revoked now row = endRow row r now := by
  unfold revokeRow
  cases hf : revoked.reverse.find? (·.urn = row.entitlementUrn) with
  | none =>
    refine Or.inl ⟨rfl, fun _ _ r hr => ?_⟩
    simpa using List.find?_eq_none.mp hf r (List.mem_reverse.mpr hr)
  | some r =>
    have hr : r ∈ revoked := List.mem_reverse.mp (List.mem_of_find?_eq_some hf)
    have hurn : r.urn = row.entitlementUrn := by simpa using List.find?_some hf
    by_cases hsel : row.personUuid = personUuid ∧ row.revokedAt = none
    · exact Or.inr ⟨r, hr, hurn, hsel.1, hsel.2, if_pos hsel⟩
    · refine Or.inl ⟨if_neg hsel, fun hp hn => absurd ⟨hp, hn⟩ hsel⟩

@[simp] theorem revokeRow_key (personUuid : String) (revoked : List Revocation) (now : Int)
    (row : EntitlementGrant) : (revokeRow personUuid revoked now row).key = row.key := by
  rcases revokeRow_cases personUuid revoked now row with ⟨h, -⟩ | ⟨r, -, -, -, -, h⟩
  · rw [h]
  · rw [h, endRow_key]

theorem mem_held {tables : LifecycleTables} {personUuid : String} {on : Int} {urn : String} :
    urn ∈ tables.held personUuid on ↔ ∃ row ∈ tables.grants, row.personUuid = personUuid ∧
      row.HeldOn on ∧ row.entitlementUrn = urn := by
  simp [LifecycleTables.held, and_assoc]

end CampusID
