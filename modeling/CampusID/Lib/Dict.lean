import Mathlib.Data.List.Basic
import Mathlib.Data.List.Forall2
import Mathlib.Data.List.Induction
import Mathlib.Data.List.Nodup
import Mathlib.Data.List.Perm.Subperm

/-!
# Dictionaries in insertion order

A Python dictionary as a list of entries.  An assignment replaces the value in place
when the key is there and appends an entry when it is not.
-/

namespace CampusID
namespace Lib

variable {κ β : Type} [DecidableEq κ]

/-- `d[key] = value`. -/
def assign (d : List (κ × β)) (key : κ) (value : β) : List (κ × β) :=
  if d.any (·.1 = key) then d.map fun entry => if entry.1 = key then (key, value) else entry
  else d ++ [(key, value)]

theorem mem_assign {d : List (κ × β)} {key : κ} {value : β} {entry : κ × β}
    (h : entry ∈ assign d key value) : entry ∈ d ∨ entry = (key, value) := by
  unfold assign at h
  split_ifs at h
  · obtain ⟨e, he, hentry⟩ := List.mem_map.mp h
    split_ifs at hentry
    · exact Or.inr hentry.symm
    · exact Or.inl (hentry ▸ he)
  · rcases List.mem_append.mp h with h | h
    · exact Or.inl h
    · exact Or.inr (List.mem_singleton.mp h)

theorem keys_assign {d : List (κ × β)} (key : κ) (value : β) {k : κ} (h : k ∈ d.map Prod.fst) :
    k ∈ (assign d key value).map Prod.fst := by
  obtain ⟨e, he, rfl⟩ := List.mem_map.mp h
  unfold assign
  split_ifs
  · by_cases hkey : e.1 = key
    · exact List.mem_map.mpr ⟨(key, value), List.mem_map.mpr ⟨e, he, by simp [hkey]⟩, hkey.symm⟩
    · exact List.mem_map.mpr ⟨e, List.mem_map.mpr ⟨e, he, by simp [hkey]⟩, rfl⟩
  · exact List.mem_map.mpr ⟨e, List.mem_append_left _ he, rfl⟩

theorem assign_mem (d : List (κ × β)) (key : κ) (value : β) : (key, value) ∈ assign d key value := by
  unfold assign
  split
  · next hany =>
    obtain ⟨e, he, hkey⟩ := List.any_eq_true.mp hany
    exact List.mem_map.mpr ⟨e, he, if_pos (of_decide_eq_true hkey)⟩
  · exact List.mem_append_right _ List.mem_cons_self

/-- No key is there twice after an assignment either. -/
theorem nodup_assign {d : List (κ × β)} (key : κ) (value : β) (h : (d.map Prod.fst).Nodup) :
    ((assign d key value).map Prod.fst).Nodup := by
  unfold assign
  split_ifs with hany
  · have hkeys : Prod.fst ∘ (fun entry : κ × β => if entry.1 = key then (key, value) else entry) =
        Prod.fst := by
      funext entry
      by_cases hk : entry.1 = key
      · simp [hk]
      · simp [hk]
    rwa [List.map_map, hkeys]
  · rw [List.map_append, List.nodup_append]
    refine ⟨h, by simp, fun k hk k' hk' heq => hany ?_⟩
    obtain ⟨entry, hentry, rfl⟩ := List.mem_map.mp hk
    obtain rfl : k' = key := by simpa using hk'
    exact List.any_eq_true.mpr ⟨entry, hentry, by simpa using heq⟩

/-- Assigning to a key that is there leaves the keys as they are. -/
theorem keys_assign_of_mem {d : List (κ × β)} {key : κ} (h : key ∈ d.map Prod.fst) (value : β) :
    (assign d key value).map Prod.fst = d.map Prod.fst := by
  obtain ⟨e, he, rfl⟩ := List.mem_map.mp h
  rw [assign, if_pos (List.any_eq_true.mpr ⟨e, he, decide_eq_true rfl⟩), List.map_map]
  refine List.map_congr_left fun entry _ => ?_
  by_cases hk : entry.1 = e.1
  · simp [hk]
  · simp [hk]

theorem assign_self {d : List (κ × β)} {key : κ} {value : β} (hnodup : (d.map Prod.fst).Nodup)
    (h : (key, value) ∈ d) : assign d key value = d := by
  rw [assign, if_pos (List.any_eq_true.mpr ⟨_, h, decide_eq_true rfl⟩)]
  refine (List.map_congr_left fun entry hentry => ?_).trans (List.map_id d)
  split
  · next hkey => exact (List.inj_on_of_nodup_map hnodup hentry h hkey).symm
  · rfl

theorem assign_assign (d : List (κ × β)) (key : κ) (value value' : β) :
    assign (assign d key value) key value' = assign d key value' := by
  have hany : (assign d key value).any (·.1 = key) = true :=
    List.any_eq_true.mpr ⟨_, assign_mem d key value, decide_eq_true rfl⟩
  rw [assign, if_pos hany]
  unfold assign
  split
  · rw [List.map_map]
    refine List.map_congr_left fun entry _ => ?_
    by_cases hk : entry.1 = key
    · simp [hk]
    · simp [hk]
  · next hno =>
    rw [List.map_append]
    refine congrArg₂ _ ((List.map_congr_left fun entry hentry => ?_).trans (List.map_id d)) (by simp)
    rw [if_neg]
    · rfl
    · exact fun hk => hno (List.any_eq_true.mpr ⟨entry, hentry, decide_eq_true hk⟩)

section Reads

variable [BEq κ] [LawfulBEq κ]

omit [DecidableEq κ] in
theorem lookup_cons_of_ne {d : List (κ × β)} {k k' : κ} (h : k ≠ k') (v : β) :
    ((k', v) :: d).lookup k = d.lookup k := by
  rw [List.lookup_cons, beq_false_of_ne h]

theorem lookup_map_replace (d : List (κ × β)) (key k : κ) (value : β) :
    (d.map fun entry => if entry.1 = key then (key, value) else entry).lookup k =
      if k = key then (d.lookup k).map fun _ => value else d.lookup k := by
  induction d with
  | nil => simp
  | cons entry d ih =>
    obtain ⟨k', v⟩ := entry
    rw [List.map_cons]
    by_cases hk' : k' = key
    · subst hk'
      by_cases hk : k = k'
      · subst hk
        simp
      · rw [if_pos rfl, lookup_cons_of_ne hk, lookup_cons_of_ne hk, ih]
    · rw [if_neg hk']
      by_cases hk : k = k'
      · subst hk
        simp [hk']
      · rw [lookup_cons_of_ne hk, lookup_cons_of_ne hk, ih]

/-- **A read after an assignment.** -/
@[simp] theorem lookup_assign (d : List (κ × β)) (key k : κ) (value : β) :
    (assign d key value).lookup k = if k = key then some value else d.lookup k := by
  unfold assign
  by_cases hany : d.any (·.1 = key) = true
  · -- the key is there: its entry was replaced
    rw [if_pos hany, lookup_map_replace]
    by_cases hk : k = key
    · subst hk
      rw [if_pos rfl, if_pos rfl]
      obtain ⟨entry, hentry, hkey⟩ := List.any_eq_true.mp hany
      cases hl : d.lookup k with
      | none =>
        rw [List.lookup_eq_none_iff] at hl
        have hfst : entry.1 = k := by simpa using hkey
        exact absurd (hl entry hentry) (by simp [hfst])
      | some v => rfl
    · rw [if_neg hk, if_neg hk]
  · rw [if_neg hany, List.lookup_append]
    by_cases hk : k = key
    · subst hk
      have hnone : d.lookup k = none := by
        rw [List.lookup_eq_none_iff]
        intro entry hentry
        by_contra hne
        refine hany (List.any_eq_true.mpr ⟨entry, hentry, ?_⟩)
        have heq : k = entry.1 := by simpa using hne
        simp [heq]
      rw [hnone, if_pos rfl]
      simp
    · rw [if_neg hk, lookup_cons_of_ne hk]
      simp

theorem lookup_filter_ne (d : List (κ × β)) (key k : κ) :
    (d.filter (·.1 ≠ key)).lookup k = if k = key then none else d.lookup k := by
  induction d with
  | nil => simp
  | cons entry d ih =>
    obtain ⟨k', v⟩ := entry
    by_cases hk' : k' = key
    · subst hk'
      rw [List.filter_cons_of_neg (by simp), ih]
      by_cases hk : k = k'
      · rw [if_pos hk, if_pos hk]
      · rw [if_neg hk, if_neg hk, lookup_cons_of_ne hk]
    · rw [List.filter_cons_of_pos (by simpa using hk')]
      by_cases hk : k = k'
      · subst hk
        simp [hk']
      · rw [lookup_cons_of_ne hk, lookup_cons_of_ne hk, ih]

omit [DecidableEq κ] in
theorem mem_of_lookup {d : List (κ × β)} {key : κ} {value : β} (h : d.lookup key = some value) :
    (key, value) ∈ d := by
  obtain ⟨xs, ys, rfl, -⟩ := List.lookup_eq_some_iff.mp h
  simp

omit [DecidableEq κ] in
/-- A key that is read is there, and one that is not is not. -/
theorem mem_keys_of_lookup {d : List (κ × β)} {key : κ} {value : β}
    (h : d.lookup key = some value) : key ∈ d.map Prod.fst := by
  obtain ⟨xs, ys, rfl, -⟩ := List.lookup_eq_some_iff.mp h
  simp

omit [DecidableEq κ] in
theorem notMem_keys_of_lookup {d : List (κ × β)} {key : κ} (h : d.lookup key = none) :
    key ∉ d.map Prod.fst := by
  rw [List.lookup_eq_none_iff] at h
  intro hmem
  obtain ⟨entry, hentry, rfl⟩ := List.mem_map.mp hmem
  exact absurd (h entry hentry) (by simp)

omit [DecidableEq κ] in
theorem lookup_of_mem {d : List (κ × β)} (hnodup : (d.map Prod.fst).Nodup) {key : κ} {value : β}
    (h : (key, value) ∈ d) : d.lookup key = some value := by
  obtain ⟨xs, ys, rfl⟩ := List.mem_iff_append.mp h
  refine List.lookup_eq_some_iff.mpr ⟨xs, ys, rfl, fun entry hentry => ?_⟩
  rw [List.map_append, List.nodup_append] at hnodup
  have hne := hnodup.2.2 entry.1 (List.mem_map.mpr ⟨entry, hentry, rfl⟩) key (by simp)
  simpa using hne.symm

/-- **Popping a key** splits its one entry off. -/
theorem mem_iff_of_lookup {d : List (κ × β)} {key : κ} {value : β} (hnodup : (d.map Prod.fst).Nodup)
    (h : d.lookup key = some value) {entry : κ × β} :
    entry ∈ d ↔ entry = (key, value) ∨ entry ∈ d.filter (·.1 ≠ key) := by
  obtain ⟨xs, ys, rfl, hxs⟩ := List.lookup_eq_some_iff.mp h
  rw [List.map_append, List.map_cons, List.nodup_append, List.nodup_cons] at hnodup
  have hys : ∀ e ∈ ys, e.1 ≠ key := fun e he heq =>
    hnodup.2.1.1 (heq ▸ List.mem_map.mpr ⟨e, he, rfl⟩)
  constructor
  · intro hmem
    by_cases hkey : entry.1 = key
    · rcases List.mem_append.mp hmem with hx | hy
      · exact absurd (hxs entry hx) (by simp [hkey])
      · rcases List.mem_cons.mp hy with rfl | hy
        · exact Or.inl rfl
        · exact absurd hkey (hys entry hy)
    · exact Or.inr (List.mem_filter.mpr ⟨hmem, by simpa using hkey⟩)
  · rintro (rfl | hmem)
    · simp
    · exact List.mem_of_mem_filter hmem

theorem perm_of_lookup {d : List (κ × β)} {key : κ} {value : β} (hnodup : (d.map Prod.fst).Nodup)
    (h : d.lookup key = some value) : List.Perm ((key, value) :: d.filter (·.1 ≠ key)) d := by
  obtain ⟨xs, ys, rfl, hxs⟩ := List.lookup_eq_some_iff.mp h
  rw [List.map_append, List.map_cons, List.nodup_append, List.nodup_cons] at hnodup
  have hbefore : xs.filter (·.1 ≠ key) = xs := by
    rw [List.filter_eq_self]
    intro entry hentry
    have hne : entry.1 ≠ key := fun heq => absurd (hxs entry hentry) (by simp [heq])
    simpa using hne
  have hafter : ys.filter (·.1 ≠ key) = ys := by
    rw [List.filter_eq_self]
    intro entry hentry
    have hne : entry.1 ≠ key := fun heq =>
      hnodup.2.1.1 (heq ▸ List.mem_map.mpr ⟨entry, hentry, rfl⟩)
    simpa using hne
  rw [List.filter_append, List.filter_cons_of_neg (by simp), hbefore, hafter]
  exact List.perm_middle.symm

end Reads

omit [DecidableEq κ] in
/-- **Dictionaries of one length**, of which one has a related value under every key of the other,
are alike but for their order. -/
theorem exists_perm_of_related {γ : Type} {R : β → γ → Prop} {d : List (κ × β)} {d' : List (κ × γ)}
    (hnodup : (d.map Prod.fst).Nodup) (hlength : d.length = d'.length)
    (h : ∀ entry ∈ d, ∃ value, (entry.1, value) ∈ d' ∧ R entry.2 value) :
    ∃ ordered, ordered.Perm d' ∧
      List.Forall₂ (fun entry other => entry.1 = other.1 ∧ R entry.2 other.2) d ordered := by
  have hlist : ∀ part : List (κ × β), (∀ entry ∈ part, entry ∈ d) → ∃ ordered : List (κ × γ),
      (∀ other ∈ ordered, other ∈ d') ∧
        List.Forall₂ (fun entry other => entry.1 = other.1 ∧ R entry.2 other.2) part ordered := by
    intro part hpart
    induction part with
    | nil => exact ⟨[], nofun, .nil⟩
    | cons entry part ih =>
      obtain ⟨hentry, hrest⟩ := List.forall_mem_cons.mp hpart
      obtain ⟨value, hvalue, hR⟩ := h entry hentry
      obtain ⟨ordered, hmem, hall⟩ := ih hrest
      exact ⟨(entry.1, value) :: ordered, List.forall_mem_cons.mpr ⟨hvalue, hmem⟩,
        .cons ⟨rfl, hR⟩ hall⟩
  obtain ⟨ordered, hmem, hall⟩ := hlist d fun entry hentry => hentry
  have hkeys : d.map Prod.fst = ordered.map Prod.fst := by
    rw [← List.forall₂_eq_eq_eq, List.forall₂_map_left_iff, List.forall₂_map_right_iff]
    exact hall.imp fun entry other hboth => hboth.1
  rw [hkeys] at hnodup
  have hsub : ordered.Subperm d' := hnodup.of_map.subperm hmem
  exact ⟨ordered, hsub.perm_of_length_le (Nat.le_of_eq (hlength.symm.trans hall.length_eq)), hall⟩

theorem mem_keys_assign {d : List (κ × β)} {key k : κ} {value : β} :
    k ∈ (assign d key value).map Prod.fst ↔ k = key ∨ k ∈ d.map Prod.fst := by
  constructor
  · intro h
    obtain ⟨entry, hentry, rfl⟩ := List.mem_map.mp h
    rcases mem_assign hentry with hold | rfl
    · exact .inr (List.mem_map.mpr ⟨entry, hold, rfl⟩)
    · exact .inl rfl
  · rintro (rfl | h)
    · have hread := lookup_assign d k k value
      rw [if_pos rfl] at hread
      obtain ⟨xs, ys, hsplit, -⟩ := List.lookup_eq_some_iff.mp hread
      rw [hsplit]
      simp
    · exact keys_assign key value h

/-! ## Many assignments -/

section Many

variable {α : Type} (key : α → κ) (value : α → β)

/-- One assignment after another. -/
def assignAll (items : List α) : List (κ × β) :=
  items.foldl (fun d item => assign d (key item) (value item)) []

theorem assignAll_concat (items : List α) (item : α) :
    assignAll key value (items ++ [item]) =
      assign (assignAll key value items) (key item) (value item) := by
  rw [assignAll, List.foldl_append]
  rfl

theorem nodup_assignAll (items : List α) : ((assignAll key value items).map Prod.fst).Nodup := by
  induction items using List.reverseRecOn with
  | nil => exact List.nodup_nil
  | append_singleton items item ih =>
    rw [assignAll_concat]
    exact nodup_assign _ _ ih

/-- An assignment puts its entry in the place of those with its key. -/
theorem perm_assign {d : List (κ × β)} (k : κ) (v : β) (h : (d.map Prod.fst).Nodup) :
    List.Perm (assign d k v) ((k, v) :: d.filter (·.1 ≠ k)) := by
  have hmem : ∀ entry, entry ∈ assign d k v ↔ entry = (k, v) ∨ (entry ∈ d ∧ entry.1 ≠ k) := by
    intro entry
    unfold assign
    split_ifs with hany
    · obtain ⟨found, hfound, hkey⟩ := List.any_eq_true.mp hany
      rw [List.mem_map]
      constructor
      · rintro ⟨old, hold, rfl⟩
        split_ifs with hk
        · exact .inl rfl
        · exact .inr ⟨hold, hk⟩
      · rintro (rfl | ⟨hold, hk⟩)
        · exact ⟨found, hfound, if_pos (of_decide_eq_true hkey)⟩
        · exact ⟨entry, hold, if_neg hk⟩
    · rw [List.mem_append, List.mem_singleton, or_comm]
      refine or_congr_right (iff_self_and.mpr fun hold hk => hany ?_)
      exact List.any_eq_true.mpr ⟨entry, hold, decide_eq_true hk⟩
  refine (List.perm_ext_iff_of_nodup (.of_map _ (nodup_assign k v h)) ?_).mpr fun entry => ?_
  · exact List.nodup_cons.mpr ⟨by simp, (List.Nodup.of_map _ h).filter _⟩
  · rw [hmem, List.mem_cons, List.mem_filter, decide_eq_true_iff]

theorem exists_of_mem_assignAll {items : List α} {entry : κ × β}
    (h : entry ∈ assignAll key value items) : ∃ item ∈ items, entry = (key item, value item) := by
  induction items using List.reverseRecOn with
  | nil => exact absurd h List.not_mem_nil
  | append_singleton items item ih =>
    rw [assignAll_concat] at h
    rcases mem_assign h with hold | rfl
    · obtain ⟨found, hfound, heq⟩ := ih hold
      exact ⟨found, List.mem_append_left _ hfound, heq⟩
    · exact ⟨item, by simp, rfl⟩

/-- **The last assignment counts.** -/
theorem lookup_assignAll [BEq κ] [LawfulBEq κ] (items : List α) (k : κ) :
    (assignAll key value items).lookup k =
      ((items.filter (key · = k)).getLast?).map value := by
  induction items using List.reverseRecOn with
  | nil => rfl
  | append_singleton items item ih =>
    rw [assignAll_concat, lookup_assign, List.filter_append]
    by_cases hk : k = key item
    · rw [if_pos hk, List.filter_cons_of_pos (by simp [hk])]
      simp
    · rw [if_neg hk, List.filter_cons_of_neg (by simpa using Ne.symm hk), List.filter_nil,
        List.append_nil, ih]

theorem assignAll_of_nodup {items : List α} (h : (items.map key).Nodup) :
    assignAll key value items = items.map fun item => (key item, value item) := by
  induction items using List.reverseRecOn with
  | nil => rfl
  | append_singleton items item ih =>
    rw [List.map_append, List.map_singleton, List.nodup_append] at h
    rw [assignAll_concat, ih h.1, assign, if_neg, List.map_append]
    · rfl
    · intro hany
      obtain ⟨entry, hentry, hkey⟩ := List.any_eq_true.mp hany
      obtain ⟨other, hother, rfl⟩ := List.mem_map.mp hentry
      exact h.2.2 (key other) (List.mem_map_of_mem hother) (key item) (by simp)
        (of_decide_eq_true hkey)

/-- There are no more entries of a kind than assignments of it. -/
theorem length_filter_assignAll (p : β → Bool) (items : List α) :
    ((assignAll key value items).filter (p ·.2)).length ≤ (items.filter (p <| value ·)).length := by
  induction items using List.reverseRecOn with
  | nil => exact Nat.le_refl _
  | append_singleton items item ih =>
    rw [assignAll_concat, List.filter_append, List.length_append]
    have hassign : ((assign (assignAll key value items) (key item) (value item)).filter
        (p ·.2)).length ≤ ((assignAll key value items).filter (p ·.2)).length +
          ([item].filter (p <| value ·)).length := by
      have hperm := perm_assign (key item) (value item) (nodup_assignAll key value items)
      have hfewer := (List.filter_sublist (p := fun entry : κ × β => entry.1 ≠ key item)
        (l := assignAll key value items)).filter (p ·.2)
      rw [(hperm.filter (p ·.2)).length_eq, List.filter_cons, List.filter_cons]
      have hle := hfewer.length_le
      split_ifs
      · exact Nat.add_le_add_right hle 1
      · exact hle
    exact Nat.le_trans hassign (Nat.add_le_add_right ih _)

end Many

end Lib
end CampusID
