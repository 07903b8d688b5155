import CampusID.Lib.Dict
import CampusID.Policy.Normalize

/-!
# What the IdP said with what we know

`merge` puts an assertion and the registry together.  Ours replaces theirs for what the broker
owns, and for what it owns within its scope theirs is kept where it is about somebody else.

`carries_merge` is what a merged map holds, value by value.
-/

namespace CampusID
namespace Identity

open Lib Policy

/-- `BROKER_OWNED`. -/
def brokerOwned : List String := [eppn, uniqueId, entitlement]

/-- `SCOPE_OWNED`. -/
def scopeOwned : List String := [scopedAffiliation]

/-- A dictionary of attributes: no name is there twice. -/
structure AttributeMap where
  entries : Attributes
  nodup : (entries.map Prod.fst).Nodup

/-- The map has this value under this name. -/
def AttributeMap.Carries (attributes : AttributeMap) (name value : String) : Prop :=
  attributes.entries.Carries name value

/-- The map has this name. -/
def AttributeMap.Names (attributes : AttributeMap) (name : String) : Prop :=
  name ∈ attributes.entries.map Prod.fst

theorem AttributeMap.names_of_carries {attributes : AttributeMap} {name value : String}
    (h : attributes.Carries name value) : attributes.Names name := by
  obtain ⟨values, hvalues, -⟩ := h
  exact List.mem_map.mpr ⟨(name, values), hvalues, rfl⟩

section Merge

variable (lower : String → String)

/-- `_in_scope`. -/
def inScope (value scope : String) : Bool :=
  match Text.rpartition '@' value with
  | none => true
  | some (_, assertedScope) => lower assertedScope = lower scope

/-- What the first loop of `merge` keeps of what was asserted under one name. -/
def keepAsserted (scope : String) (entry : String × List String) :
    Option (String × List String) :=
  if entry.1 ∈ brokerOwned then none
  else if entry.1 ∈ scopeOwned then
    let kept := entry.2.filter fun value => !inScope lower value scope
    if kept = [] then none else some (entry.1, kept)
  else some entry

/-- One step of the second loop of `merge`. -/
def addOurs (merged : Attributes) (entry : String × List String) : Attributes :=
  if entry.1 ∈ scopeOwned ∧ entry.1 ∈ merged.map Prod.fst then
    -- theirs from elsewhere, plus ours from here
    assign merged entry.1 (Text.sorted ((merged.values entry.1).toFinset ∪ entry.2.toFinset))
  else assign merged entry.1 entry.2

/-- What `merge` computes. -/
def mergeEntries (asserted fromRegistry : Attributes) (scope : String) : Attributes :=
  fromRegistry.foldl addOurs (asserted.filterMap (keepAsserted lower scope))

/-! ## No name is there twice -/

variable {lower} {scope name value : String}

theorem keepAsserted_fst {entry kept : String × List String}
    (h : keepAsserted lower scope entry = some kept) : kept.1 = entry.1 := by
  unfold keepAsserted at h
  dsimp only at h
  split_ifs at h
  · rw [← Option.some.inj h]
  · rw [← Option.some.inj h]

theorem nodup_kept {asserted : Attributes} (h : (asserted.map Prod.fst).Nodup) :
    ((asserted.filterMap (keepAsserted lower scope)).map Prod.fst).Nodup := by
  rw [List.Nodup, List.pairwise_map] at h ⊢
  rw [List.pairwise_filterMap]
  refine h.imp fun hne kept hkept other hother heq => hne ?_
  rw [← keepAsserted_fst hkept, heq, keepAsserted_fst hother]

theorem nodup_addOurs {merged : Attributes} (h : (merged.map Prod.fst).Nodup)
    (entry : String × List String) : ((addOurs merged entry).map Prod.fst).Nodup := by
  unfold addOurs
  split_ifs
  · exact nodup_assign _ _ h
  · exact nodup_assign _ _ h

theorem nodup_addAll {fromRegistry merged : Attributes} (h : (merged.map Prod.fst).Nodup) :
    ((fromRegistry.foldl addOurs merged).map Prod.fst).Nodup := by
  induction fromRegistry generalizing merged with
  | nil => exact h
  | cons entry rest ih => exact ih (nodup_addOurs h entry)

variable (lower) in
/-- `merge`. -/
def merge (asserted fromRegistry : AttributeMap) (scope : String) : AttributeMap where
  entries := mergeEntries lower asserted.entries fromRegistry.entries scope
  nodup := nodup_addAll (nodup_kept asserted.nodup)

/-! ## What the merged map holds -/

theorem carries_iff_mem_values {attributes : Attributes} (h : (attributes.map Prod.fst).Nodup) :
    attributes.Carries name value ↔ value ∈ attributes.values name := by
  unfold Attributes.values
  constructor
  · rintro ⟨values, hvalues, hvalue⟩
    rw [lookup_of_mem h hvalues]
    exact hvalue
  · intro hvalue
    cases hread : attributes.lookup name with
    | none =>
      rw [hread] at hvalue
      cases hvalue
    | some values =>
      rw [hread] at hvalue
      obtain ⟨xs, ys, rfl, -⟩ := List.lookup_eq_some_iff.mp hread
      exact ⟨values, by simp, hvalue⟩

theorem values_of_notMem {attributes : Attributes} (h : name ∉ attributes.map Prod.fst) :
    attributes.values name = [] := by
  have hnone : attributes.lookup name = none := by
    cases hread : attributes.lookup name with
    | none => rfl
    | some values => exact absurd (mem_keys_of_lookup hread) h
  rw [Attributes.values, hnone]
  rfl

theorem values_assign (attributes : Attributes) (key : String) (values : List String) :
    Attributes.values (assign attributes key values) name =
      if name = key then values else attributes.values name := by
  unfold Attributes.values
  rw [lookup_assign]
  split_ifs
  · rfl
  · rfl

/-- An entry of ours adds its values, and leaves theirs under the name only where the name is
owned within our scope. -/
theorem mem_values_addOurs (merged : Attributes) (entry : String × List String) :
    value ∈ (addOurs merged entry).values name ↔
      if name = entry.1 then value ∈ entry.2 ∨ name ∈ scopeOwned ∧ value ∈ merged.values name
      else value ∈ merged.values name := by
  unfold addOurs
  by_cases hname : name = entry.1
  · subst hname
    rw [if_pos rfl]
    split_ifs with howned
    · rw [values_assign, if_pos rfl, Text.mem_sorted, Finset.mem_union, List.mem_toFinset,
        List.mem_toFinset, or_comm]
      simp [howned.1]
    · rw [values_assign, if_pos rfl]
      constructor
      · exact .inl
      · rintro (h | ⟨hscoped, hvalue⟩)
        · exact h
        · rw [values_of_notMem fun hmem => howned ⟨hscoped, hmem⟩] at hvalue
          cases hvalue
  · rw [if_neg hname]
    split_ifs
    · rw [values_assign, if_neg hname]
    · rw [values_assign, if_neg hname]

/-- The second loop adds what is ours, and leaves theirs where we say nothing or own the name
only within our scope. -/
theorem mem_values_addAll {fromRegistry merged : Attributes}
    (h : (fromRegistry.map Prod.fst).Nodup) :
    value ∈ (fromRegistry.foldl addOurs merged).values name ↔
      value ∈ fromRegistry.values name ∨ value ∈ merged.values name ∧
        (name ∈ scopeOwned ∨ name ∉ fromRegistry.map Prod.fst) := by
  induction fromRegistry generalizing merged with
  | nil => simp [Attributes.values]
  | cons entry rest ih =>
    obtain ⟨key, values⟩ := entry
    rw [List.map_cons, List.nodup_cons] at h
    rw [List.foldl_cons, ih h.2, mem_values_addOurs]
    by_cases hname : name = key
    · subst hname
      have hrest : Attributes.values rest name = [] := values_of_notMem h.1
      have hfirst : Attributes.values ((name, values) :: rest) name = values := by
        simp [Attributes.values]
      rw [hrest, hfirst, if_pos rfl]
      have hgone : name ∉ rest.map Prod.fst := h.1
      simp only [List.not_mem_nil, hgone, not_false_eq_true, or_true, and_true, false_or,
        List.map_cons, List.mem_cons, not_true_eq_false, or_false]
      tauto
    · have hfirst : Attributes.values ((key, values) :: rest) name = Attributes.values rest name := by
        unfold Attributes.values
        rw [lookup_cons_of_ne hname]
      rw [hfirst, if_neg hname]
      simp [hname]

theorem carries_kept {asserted : Attributes} :
    Attributes.Carries (asserted.filterMap (keepAsserted lower scope)) name value ↔
      asserted.Carries name value ∧ name ∉ brokerOwned ∧
        (name ∈ scopeOwned → inScope lower value scope = false) := by
  constructor
  · rintro ⟨values, hvalues, hvalue⟩
    obtain ⟨entry, hentry, hkept⟩ := List.mem_filterMap.mp hvalues
    obtain rfl : name = entry.1 := keepAsserted_fst hkept
    unfold keepAsserted at hkept
    dsimp only at hkept
    split_ifs at hkept with hbroker hscoped hnone
    · obtain ⟨-, rfl⟩ := Prod.mk.inj (Option.some.inj hkept)
      obtain ⟨hvalue, hforeign⟩ := List.mem_filter.mp hvalue
      exact ⟨⟨entry.2, hentry, hvalue⟩, hbroker, fun _ => by simpa using hforeign⟩
    · rw [Option.some.inj hkept] at hentry hbroker hscoped ⊢
      exact ⟨⟨values, hentry, hvalue⟩, hbroker, fun h => absurd h hscoped⟩
  · rintro ⟨⟨values, hvalues, hvalue⟩, hbroker, hforeign⟩
    by_cases hscoped : name ∈ scopeOwned
    · have hkept : value ∈ values.filter fun value => !inScope lower value scope :=
        List.mem_filter.mpr ⟨hvalue, by simp [hforeign hscoped]⟩
      refine ⟨_, List.mem_filterMap.mpr ⟨(name, values), hvalues, ?_⟩, hkept⟩
      unfold keepAsserted
      dsimp only
      rw [if_neg hbroker, if_pos hscoped, if_neg (List.ne_nil_of_mem hkept)]
    · refine ⟨values, List.mem_filterMap.mpr ⟨(name, values), hvalues, ?_⟩, hvalue⟩
      unfold keepAsserted
      dsimp only
      rw [if_neg hbroker, if_neg hscoped]

/-- **What a merged map holds**: what the registry says, and of what was asserted the values we
do not own, where the registry has nothing of its own to say under the name. -/
theorem carries_merge {asserted fromRegistry : AttributeMap} :
    (merge lower asserted fromRegistry scope).Carries name value ↔
      fromRegistry.Carries name value ∨ asserted.Carries name value ∧ name ∉ brokerOwned ∧
        if name ∈ scopeOwned then inScope lower value scope = false
        else ¬ fromRegistry.Names name := by
  have hmerged : (merge lower asserted fromRegistry scope).Carries name value ↔
      value ∈ (mergeEntries lower asserted.entries fromRegistry.entries scope).values name :=
    carries_iff_mem_values (merge lower asserted fromRegistry scope).nodup
  rw [hmerged]
  unfold mergeEntries
  rw [mem_values_addAll fromRegistry.nodup, ← carries_iff_mem_values fromRegistry.nodup,
    ← carries_iff_mem_values (nodup_kept asserted.nodup), carries_kept]
  unfold AttributeMap.Carries AttributeMap.Names
  split_ifs with hscoped
  · simp [hscoped]
  · simp [hscoped, and_assoc]

end Merge

end Identity
end CampusID
