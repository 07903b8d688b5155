import CampusID.Lib.Effects
import CampusID.Audit.Trail

/-!
# What a recorded event carries

The writers of the trail and its readers meet in the columns of a row, and above all in its
`detail`, which no schema types.  `mem_recorded` is that a row is in the table because a call
put it there.  What such a row has under a key of its detail is what the call gave under that
key, once it was redacted and stored:

* `detailAt_of_lookup_none` --- nothing, where the call gave nothing;
* `detailAt_of_lookup_some` --- the stored value, where redaction leaves it alone.
-/

namespace CampusID
namespace Audit

open Lib

/-- `detail.get(key)`. -/
def Columns.detailAt (columns : Columns) (key : String) : Option Value :=
  match columns.detail with
  | .dict entries => entries.lookup (.str key)
  | _ => none

/-! ## The calls behind the rows -/

section Recording

variable (sha256 : String → String)

/-- **What a call of `record` does to the rows**: nothing, or it adds one, under the sequence
number it drew, with its columns as they are stored. -/
theorem record_cases (trail : Trail) (call : RecordCall) :
    record sha256 trail call = trail ∨ ∃ added, added.seq = call.seq ∧
      storedColumns (row call.event) = .ok added.columns ∧
      record sha256 trail call = { trail with rows := trail.rows ++ [added] } := by
  unfold record write
  cases hrow : newRow sha256 trail (row call.event) call.seq with
  | error e => exact .inl rfl
  | ok added =>
    unfold newRow at hrow
    obtain ⟨hash, -, hrow⟩ := Eff.except_bind_eq_ok.mp hrow
    obtain ⟨kept, hkept, hrow⟩ := Eff.except_bind_eq_ok.mp hrow
    split_ifs at hrow
    · cases hrow
    · obtain ⟨prev, -, hrow⟩ := Eff.except_bind_eq_ok.mp hrow
      obtain ⟨storedHash, -, hrow⟩ := Eff.except_bind_eq_ok.mp hrow
      obtain rfl := Except.ok.inj hrow
      exact .inr ⟨_, rfl, hkept, rfl⟩

/-- The tables after these calls, one after another. -/
def recorded (calls : List RecordCall) : Trail := calls.foldl (record sha256) (emptied [])

variable {sha256}

/-- **Every row was recorded** by one of the calls. -/
theorem mem_recorded {calls : List RecordCall} {found : Row}
    (h : found ∈ (recorded sha256 calls).rows) :
    ∃ call ∈ calls, storedColumns (row call.event) = .ok found.columns := by
  induction calls using List.reverseRecOn with
  | nil => cases h
  | append_singleton calls call ih =>
    have hlast : recorded sha256 (calls ++ [call]) =
        record sha256 (recorded sha256 calls) call := by
      rw [recorded, List.foldl_append]
      rfl
    rw [hlast] at h
    have hold : found ∈ (recorded sha256 calls).rows →
        ∃ c ∈ calls ++ [call], storedColumns (row c.event) = .ok found.columns := by
      intro hmem
      obtain ⟨c, hc, hstored⟩ := ih hmem
      exact ⟨c, List.mem_append_left _ hc, hstored⟩
    rcases record_cases sha256 (recorded sha256 calls) call with hsame | ⟨added, -, hadded, hrecord⟩
    · rw [hsame] at h
      exact hold h
    · rw [hrecord] at h
      rcases List.mem_append.mp h with h | h
      · exact hold h
      · rw [List.mem_singleton.mp h]
        exact ⟨call, by simp, hadded⟩

end Recording

/-! ## The columns -/

/-- Every event type. -/
def EventType.all : List EventType :=
  [.authRequest, .authSuccess, .authFailure, .sessionCreated, .sessionEnded, .sessionTerminated,
    .authzCodeIssued, .authzDenied, .tokenIssued, .tokenRefreshed, .tokenRevoked,
    .grantReuseDetected, .attributeRelease, .provisioningCreated, .provisioningUpdated,
    .provisioningDeleted, .lifecycleJoiner, .lifecycleMover, .lifecycleLeaver,
    .entitlementGranted, .entitlementRevoked, .deprovisionStep, .mfaEnrolmentStarted,
    .mfaEnrolled, .mfaEnrolmentFailed, .mfaFactorRemoved, .mfaStepUp, .mfaRecoveryIssued,
    .mfaFailed, .mfaLockedOut, .auditExported, .auditPruned, .adminAction,
    .logoutDeliveryFailed]

theorem EventType.find_value (eventType : EventType) :
    EventType.all.find? (fun other => other.value = eventType.value) = some eventType := by
  cases eventType <;> decide +kernel

theorem EventType.value_injective : Function.Injective EventType.value := by
  intro a b h
  have hb := b.find_value
  rw [← h, a.find_value] at hb
  exact Option.some.inj hb
section Columns

variable {call : RecordCall} {columns : Columns}

theorem storedColumns_eq_ok (h : storedColumns (row call.event) = .ok columns) :
    columns.eventType = call.eventType.value ∧ columns.occurredAt = call.now ∧
      varchar? 512 call.subject = .ok columns.subject ∧
      varchar? 1024 call.target = .ok columns.target ∧
      stored (row call.event).detail = .ok columns.detail := by
  obtain ⟨eventId, -, h⟩ := Eff.except_bind_eq_ok.mp h
  obtain ⟨eventType, htype, h⟩ := Eff.except_bind_eq_ok.mp h
  obtain ⟨outcome, -, h⟩ := Eff.except_bind_eq_ok.mp h
  obtain ⟨correlationId, -, h⟩ := Eff.except_bind_eq_ok.mp h
  obtain ⟨actor, -, h⟩ := Eff.except_bind_eq_ok.mp h
  obtain ⟨subject, hsubject, h⟩ := Eff.except_bind_eq_ok.mp h
  obtain ⟨target, htarget, h⟩ := Eff.except_bind_eq_ok.mp h
  obtain ⟨reason, -, h⟩ := Eff.except_bind_eq_ok.mp h
  obtain ⟨sourceIp, -, h⟩ := Eff.except_bind_eq_ok.mp h
  obtain ⟨userAgent, -, h⟩ := Eff.except_bind_eq_ok.mp h
  obtain ⟨sessionId, -, h⟩ := Eff.except_bind_eq_ok.mp h
  obtain ⟨detail, hdetail, h⟩ := Eff.except_bind_eq_ok.mp h
  obtain rfl := Except.ok.inj h
  have hvalue : varchar 64 call.eventType.value = .ok call.eventType.value :=
    varchar_of_fits (fits_eventType _)
  refine ⟨?_, rfl, hsubject, htarget, hdetail⟩
  exact (Except.ok.inj (hvalue.symm.trans htype)).symm

end Columns

/-! ## The detail -/

/-- Entry by entry, the keys stay and the values are stored. -/
def KeptAs : List (String × Value) → List (String × Value) → Prop :=
  List.Forall₂ fun entry kept => kept.1 = entry.1 ∧ stored entry.2 = .ok kept.2

theorem KeptAs.keys {entries kept : List (String × Value)} (h : KeptAs entries kept) :
    kept.map Prod.fst = entries.map Prod.fst := by
  induction h with
  | nil => rfl
  | cons hk _ ih => simp [hk.1, ih]

theorem KeptAs.lookup_none {entries kept : List (String × Value)} (h : KeptAs entries kept)
    {key : String} (hnone : entries.lookup key = none) : kept.lookup key = none := by
  rw [List.lookup_eq_none_iff] at hnone ⊢
  intro k hk
  obtain ⟨entry, hentry, hname⟩ : ∃ entry ∈ entries, entry.1 = k.1 := by
    have hmem : k.1 ∈ entries.map Prod.fst := h.keys ▸ List.mem_map.mpr ⟨k, hk, rfl⟩
    exact List.mem_map.mp hmem
  rw [← hname]
  exact hnone entry hentry

theorem KeptAs.lookup_some {entries kept : List (String × Value)} (h : KeptAs entries kept)
    {key : String} {v : Value} (hsome : entries.lookup key = some v) :
    ∃ w, stored v = .ok w ∧ kept.lookup key = some w := by
  induction h with
  | nil => cases hsome
  | @cons entry k entries kept hk _ ih =>
    obtain ⟨hname, hvalue⟩ := hk
    rw [List.lookup_cons] at hsome ⊢
    rw [hname]
    by_cases hkey : key = entry.1
    · subst hkey
      simp only [beq_self_eq_true, Option.some.injEq] at hsome ⊢
      exact ⟨k.2, hsome ▸ hvalue, rfl⟩
    · simp only [beq_false_of_ne hkey] at hsome ⊢
      exact ih hsome

theorem keptAs_of_stored {entries : List (String × Value)} {kept : List (Key × Value)}
    {named : List (String × Value)}
    (h : storedEntries (entries.map fun entry => (.str entry.1, entry.2)) = .ok kept)
    (hnamed : textKeys Key.stored kept = .ok named) : KeptAs entries named := by
  induction entries generalizing kept named with
  | nil =>
    obtain rfl := Except.ok.inj h
    obtain rfl := Except.ok.inj hnamed
    exact .nil
  | cons entry entries ih =>
    obtain ⟨w, hw, h⟩ := Eff.except_bind_eq_ok.mp h
    obtain ⟨rest, hrest, h⟩ := Eff.except_bind_eq_ok.mp h
    obtain rfl := Except.ok.inj h
    obtain ⟨t, ht, hnamed⟩ := Eff.except_bind_eq_ok.mp hnamed
    obtain ⟨ts, hts, hnamed⟩ := Eff.except_bind_eq_ok.mp hnamed
    obtain rfl := Except.ok.inj hnamed
    refine .cons ⟨?_, hw⟩ (ih hrest hts)
    simp only [Key.stored, storedText] at ht
    split_ifs at ht
    exact (Except.ok.inj ht).symm

theorem stored_dict {entries : List (String × Value)} (hnodup : (entries.map Prod.fst).Nodup)
    {w : Value} (h : stored (.dict (entries.map fun entry => (.str entry.1, entry.2))) = .ok w) :
    ∃ kept : List (String × Value), w = .dict (kept.map fun entry => (.str entry.1, entry.2)) ∧
      KeptAs entries kept := by
  simp only [stored] at h
  obtain ⟨kept, hkept, h⟩ := Eff.except_bind_eq_ok.mp h
  obtain ⟨named, hnamed, h⟩ := Eff.except_bind_eq_ok.mp h
  have hall := keptAs_of_stored hkept hnamed
  refine ⟨named, ?_, hall⟩
  rw [dictOf_of_nodup (hall.keys ▸ hnodup)] at h
  exact (Except.ok.inj h).symm

theorem lookup_str {β : Type} (entries : List (String × β)) (key : String) :
    (entries.map fun entry => (Key.str entry.1, entry.2)).lookup (.str key) =
      entries.lookup key := by
  induction entries with
  | nil => rfl
  | cons entry entries ih =>
    rw [List.map_cons, List.lookup_cons, List.lookup_cons, ih]
    by_cases hkey : key = entry.1
    · simp [hkey]
    · have hstr : Key.str key ≠ Key.str entry.1 := fun heq => hkey (Key.str.inj heq)
      simp only [beq_false_of_ne hkey, beq_false_of_ne hstr]

theorem lookup_redact (detail : List (String × Value)) (key : String) :
    (redact detail).lookup key = (detail.lookup key).map (redactValue key) := by
  unfold redact
  induction detail with
  | nil => rfl
  | cons entry detail ih =>
    rw [List.map_cons, List.lookup_cons, List.lookup_cons]
    by_cases hkey : key = entry.1
    · simp [hkey]
    · simp only [beq_false_of_ne hkey]
      exact ih

theorem lookup_markedDetail (call : RecordCall) {key : String} (hmark : key ≠ "impersonation")
    (hmark' : key ≠ "impersonated_by") :
    call.markedDetail.lookup key = (call.detail.getD []).lookup key := by
  unfold RecordCall.markedDetail
  cases call.impersonator with
  | none => rfl
  | some actingAs => simp [hmark, hmark']

theorem nodup_markedDetail {call : RecordCall}
    (h : ((call.detail.getD []).map Prod.fst).Nodup) : (call.markedDetail.map Prod.fst).Nodup := by
  unfold RecordCall.markedDetail
  cases call.impersonator with
  | none => exact h
  | some actingAs => exact nodup_assign _ _ (nodup_assign _ _ h)

section Detail

variable {call : RecordCall} {columns : Columns} {key : String}

theorem exists_kept (hnodup : ((call.detail.getD []).map Prod.fst).Nodup)
    (h : storedColumns (row call.event) = .ok columns) :
    ∃ kept, KeptAs (redact call.markedDetail) kept ∧
      ∀ key, columns.detailAt key = kept.lookup key := by
  obtain ⟨-, -, -, -, hdetail⟩ := storedColumns_eq_ok h
  have hkeys : ((redact call.markedDetail).map Prod.fst).Nodup := by
    have hsame : (redact call.markedDetail).map Prod.fst = call.markedDetail.map Prod.fst := by
      simp [redact, Function.comp_def]
    rw [hsame]
    exact nodup_markedDetail hnodup
  obtain ⟨kept, hkept, hall⟩ := stored_dict hkeys hdetail
  refine ⟨kept, hall, fun key => ?_⟩
  unfold Columns.detailAt
  rw [hkept]
  exact lookup_str kept key

/-- **Nothing is there** where the call gave nothing. -/
theorem detailAt_of_lookup_none (hnodup : ((call.detail.getD []).map Prod.fst).Nodup)
    (h : storedColumns (row call.event) = .ok columns) (hmark : key ≠ "impersonation")
    (hmark' : key ≠ "impersonated_by") (hnone : (call.detail.getD []).lookup key = none) :
    columns.detailAt key = none := by
  obtain ⟨kept, hkept, hread⟩ := exists_kept hnodup h
  rw [hread]
  refine hkept.lookup_none ?_
  rw [lookup_redact, lookup_markedDetail call hmark hmark', hnone]
  rfl

/-- **The stored value is there** where redaction leaves the given one alone. -/
theorem detailAt_of_lookup_some (hnodup : ((call.detail.getD []).map Prod.fst).Nodup)
    (h : storedColumns (row call.event) = .ok columns) (hmark : key ≠ "impersonation")
    (hmark' : key ≠ "impersonated_by") {v : Value}
    (hsome : (call.detail.getD []).lookup key = some v) (hplain : redactValue key v = v) :
    ∃ w, stored v = .ok w ∧ columns.detailAt key = some w := by
  obtain ⟨kept, hkept, hread⟩ := exists_kept hnodup h
  rw [hread]
  refine hkept.lookup_some ?_
  rw [lookup_redact, lookup_markedDetail call hmark hmark', hsome, Option.map_some, hplain]

end Detail

/-! ## The row of a call -/

section Added

variable {sha256 : String → String}

theorem AddedBy.occurredAt {trail : Trail} {call : RecordCall} {added : Row}
    (h : AddedBy sha256 trail call added) : added.columns.occurredAt = call.now :=
  (congrArg Columns.occurredAt h.columns :)

theorem AddedBy.eventId {trail : Trail} {call : RecordCall} {added : Row}
    (h : AddedBy sha256 trail call added) : added.columns.eventId = call.eventId :=
  (congrArg Columns.eventId h.columns :)

theorem AddedBy.subject {trail : Trail} {call : RecordCall} {added : Row}
    (h : AddedBy sha256 trail call added) : added.columns.subject = call.subject :=
  (congrArg Columns.subject h.columns :)

theorem AddedBy.eventType {trail : Trail} {call : RecordCall} {added : Row}
    (h : AddedBy sha256 trail call added) :
    added.columns.eventType = call.eventType.value :=
  (congrArg Columns.eventType h.columns :)

end Added

/-! ### On empty tables -/

theorem recorded_singleton (sha256 : String → String) (call : RecordCall) :
    recorded sha256 [call] = record sha256 (emptied []) call := rfl

theorem one_call {sha256 : String → String} (hsha : ∀ s, fits 64 (sha256 s) = true)
    {call : RecordCall} (hpos : 0 < call.seq) (hid : fits 64 call.eventId = true)
    (hkeeps : call.keeps = true) :
    ∃ first, AddedBy sha256 (emptied []) call first ∧
      record sha256 (emptied []) call = ⟨[first], []⟩ ∧ Chained sha256 ⟨[first], []⟩ := by
  have hempty : Chained sha256 (emptied []) :=
    ⟨List.Pairwise.nil, by simp [emptied], trivial, by decide +kernel⟩
  exact hempty.record hsha ⟨hpos, by simp [emptied], by simp [emptied], hid⟩ hkeeps

/-- The SHA-256 digests of events behind the hash before them, and zeros for any other
text. -/
def tabulated (digests : List (String × RecordCall × String)) (s : String) : String :=
  match digests.find? fun entry => s = entry.1 ++ okD (canonical (row entry.2.1.event)) "" with
  | some entry => entry.2.2
  | none => genesis

theorem tabulated_of {P : String → Prop} {digests : List (String × RecordCall × String)}
    (h : ∀ entry ∈ digests, P entry.2.2) (hzeros : P genesis) (s : String) :
    P (tabulated digests s) := by
  unfold tabulated
  split
  · rename_i entry hentry
    exact h entry (List.mem_of_find?_eq_some hentry)
  · exact hzeros

end Audit
end CampusID
