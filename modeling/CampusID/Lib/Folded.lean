import CampusID.Lib.Dict
import Mathlib.Data.List.Nodup

/-!
# Dictionaries read up to a folding

A dictionary whose keys are compared through a folding of them, as names are without regard to
case.  A name is looked up as it is spelled, and otherwise as the first key that folds alike
(`spelling`).  The dictionary holds a name once if no two of its keys fold alike (`Single`).

What an assignment or a deletion does to the rest of the dictionary is said by its `part`s, the
entries whose folded keys have a property.
-/

namespace CampusID
namespace Lib
namespace Folded

variable {κ γ β : Type} [DecidableEq κ] [DecidableEq γ] (fold : κ → γ)

/-- The dictionary's own spelling of a name. -/
def spelling (d : List (κ × β)) (name : κ) : Option κ :=
  if d.any (·.1 = name) then some name else (d.find? fun e => fold e.1 = fold name).map Prod.fst

/-- `del d[key]`. -/
def erase (d : List (κ × β)) (key : κ) : List (κ × β) := d.filter (·.1 ≠ key)

/-- No two keys fold alike. -/
def Single (d : List (κ × β)) : Prop := (d.map fun e => fold e.1).Nodup

/-- The entries whose folded keys have a property. -/
def part (P : γ → Bool) (d : List (κ × β)) : List (κ × β) := d.filter fun e => P (fold e.1)

instance (d : List (κ × β)) : Decidable (Single fold d) := inferInstanceAs (Decidable (List.Nodup _))

variable {fold} {d : List (κ × β)} {name key : κ} {value : β}

/-! ## Spellings -/

theorem fold_spelling (h : spelling fold d name = some key) : fold key = fold name := by
  unfold spelling at h
  split at h
  · exact congrArg fold (Option.some.inj h).symm
  · obtain ⟨e, he, rfl⟩ := Option.map_eq_some_iff.mp h
    simpa using List.find?_some he

theorem spelling_mem (h : spelling fold d name = some key) : key ∈ d.map Prod.fst := by
  unfold spelling at h
  split at h
  · next hany =>
    obtain ⟨e, he, hkey⟩ := List.any_eq_true.mp hany
    exact List.mem_map.mpr ⟨e, he, (of_decide_eq_true hkey).trans (Option.some.inj h)⟩
  · obtain ⟨e, he, rfl⟩ := Option.map_eq_some_iff.mp h
    exact List.mem_map_of_mem (List.mem_of_find?_eq_some he)

theorem spelling_eq_none : spelling fold d name = none ↔ ∀ e ∈ d, fold e.1 ≠ fold name := by
  unfold spelling
  split
  · next hany =>
    obtain ⟨e, he, hkey⟩ := List.any_eq_true.mp hany
    have hfold : fold e.1 = fold name := congrArg fold (of_decide_eq_true hkey)
    exact ⟨fun h => (Option.some_ne_none _ h).elim, fun h => (h e he hfold).elim⟩
  · rw [Option.map_eq_none_iff, List.find?_eq_none]
    simp

theorem spelling_of_mem (h : name ∈ d.map Prod.fst) : spelling fold d name = some name := by
  obtain ⟨e, he, rfl⟩ := List.mem_map.mp h
  rw [spelling, if_pos (List.any_eq_true.mpr ⟨e, he, decide_eq_true rfl⟩)]

/-- Where a name is looked up depends on the keys alone. -/
theorem spelling_congr {d' : List (κ × β)} (h : d'.map Prod.fst = d.map Prod.fst) (name : κ) :
    spelling fold d' name = spelling fold d name := by
  have hany : ∀ d : List (κ × β), d.any (·.1 = name) = (d.map Prod.fst).any (· = name) := by
    intro d
    rw [List.any_map]
    rfl
  have hfind : ∀ d : List (κ × β), (d.find? fun e => fold e.1 = fold name).map Prod.fst =
      (d.map Prod.fst).find? fun k => fold k = fold name := by
    intro d
    rw [List.find?_map]
    rfl
  rw [spelling, spelling, hany, hany, hfind, hfind, h]

/-! ## Parts -/

omit [DecidableEq γ] in
/-- An assignment leaves the parts it does not fold into alone. -/
theorem part_assign {P : γ → Bool} (hkey : P (fold key) = false) (value : β) :
    part fold P (assign d key value) = part fold P d := by
  unfold assign part
  split
  · clear *- hkey
    induction d with
    | nil => rfl
    | cons e d ih =>
      rw [List.map_cons]
      by_cases he : e.1 = key
      · rw [if_pos he, List.filter_cons_of_neg (by simp [hkey]), ih,
          List.filter_cons_of_neg (by simp [he, hkey])]
      · rw [if_neg he, List.filter_cons, List.filter_cons, ih]
  · rw [List.filter_append, List.filter_cons_of_neg (by simp [hkey]), List.filter_nil,
      List.append_nil]

omit [DecidableEq γ] in
/-- A deletion leaves the parts it does not fold into alone. -/
theorem part_erase {P : γ → Bool} (hkey : P (fold key) = false) :
    part fold P (erase d key) = part fold P d := by
  unfold erase part
  rw [List.filter_filter]
  refine List.filter_congr fun e _ => ?_
  by_cases he : e.1 = key
  · simp [he, hkey]
  · simp [he]

/-! ## Names held once -/

omit [DecidableEq κ] [DecidableEq γ] in
theorem Single.sublist {d' : List (κ × β)} (h : Single fold d) (hsub : d'.Sublist d) :
    Single fold d' :=
  List.Nodup.sublist (hsub.map _) h

omit [DecidableEq γ] in
theorem Single.erase (h : Single fold d) (key : κ) : Single fold (erase d key) :=
  h.sublist List.filter_sublist

omit [DecidableEq κ] [DecidableEq γ] in
theorem Single.keys (h : Single fold d) : (d.map Prod.fst).Nodup := by
  refine List.Nodup.of_map fold ?_
  rw [List.map_map]
  exact h

omit [DecidableEq κ] [DecidableEq γ] in
theorem Single.eq (h : Single fold d) {e e' : κ × β} (he : e ∈ d) (he' : e' ∈ d)
    (hfold : fold e.1 = fold e'.1) : e = e' :=
  List.inj_on_of_nodup_map h he he' hfold

omit [DecidableEq γ] in
theorem folds_replace (d : List (κ × β)) :
    (d.map fun entry => if entry.1 = key then (key, value) else entry).map (fun e => fold e.1) =
      d.map fun e => fold e.1 := by
  rw [List.map_map]
  refine List.map_congr_left fun entry _ => ?_
  by_cases hk : entry.1 = key
  · simp [hk]
  · simp [hk]

omit [DecidableEq γ] in
/-- **An assignment keeps names held once** if it is spelled as the dictionary has it, or new. -/
theorem single_assign (h : Single fold d) (value : β) :
    Single fold (assign d key value) ↔
      key ∈ d.map Prod.fst ∨ ∀ e ∈ d, fold e.1 ≠ fold key := by
  unfold assign
  split
  · next hany =>
    obtain ⟨e, he, hkey⟩ := List.any_eq_true.mp hany
    have hmem : key ∈ d.map Prod.fst := of_decide_eq_true hkey ▸ List.mem_map_of_mem he
    refine ⟨fun _ => .inl hmem, fun _ => ?_⟩
    rw [Single, folds_replace]
    exact h
  · next hany =>
    have hnot : key ∉ d.map Prod.fst := by
      rintro hmem
      obtain ⟨e, he, rfl⟩ := List.mem_map.mp hmem
      exact hany (List.any_eq_true.mpr ⟨e, he, decide_eq_true rfl⟩)
    rw [Single, List.map_append, List.nodup_append]
    constructor
    · rintro ⟨-, -, hdisjoint⟩
      exact .inr fun e he => hdisjoint _ (List.mem_map.mpr ⟨e, he, rfl⟩) _ (by simp)
    · rintro (hmem | hnew)
      · exact absurd hmem hnot
      · refine ⟨h, by simp, fun k hk k' hk' => ?_⟩
        obtain ⟨e, he, rfl⟩ := List.mem_map.mp hk
        obtain rfl : k' = fold key := by simpa using hk'
        exact hnew e he

omit [DecidableEq γ] in
/-- What is held once after an assignment was so before. -/
theorem Single.of_assign (h : Single fold (assign d key value)) : Single fold d := by
  unfold assign at h
  split at h
  · rwa [Single, folds_replace] at h
  · rw [Single, List.map_append] at h
    exact h.sublist (List.sublist_append_left _ _)

omit [DecidableEq γ] in
theorem Single.of_foldl_assign {entries : List (κ × β)}
    (h : Single fold (entries.foldl (fun d e => assign d e.1 e.2) d)) : Single fold d := by
  induction entries generalizing d with
  | nil => exact h
  | cons e entries ih => exact (ih h).of_assign

/-- **A merge keeps names held once** if every name is spelled as the dictionary has it, or new. -/
theorem single_foldl_assign {entries : List (κ × β)} (hd : Single fold d)
    (hentries : Single fold entries) :
    Single fold (entries.foldl (fun d e => assign d e.1 e.2) d) ↔
      ∀ e ∈ entries, e.1 ∈ d.map Prod.fst ∨ ∀ f ∈ d, fold f.1 ≠ fold e.1 := by
  induction entries generalizing d with
  | nil => simpa using hd
  | cons first entries ih =>
    obtain ⟨hfirst, hrest⟩ := List.nodup_cons.mp hentries
    have hother : ∀ e ∈ entries, fold e.1 ≠ fold first.1 :=
      fun e he heq => hfirst (List.mem_map.mpr ⟨e, he, heq⟩)
    rw [List.foldl_cons, List.forall_mem_cons]
    by_cases hassign : Single fold (assign d first.1 first.2)
    · -- the keys of the others are there, or new, before the assignment as after it
      rw [ih hassign hrest]
      refine ⟨fun h => ⟨(single_assign hd _).mp hassign, fun e he => ?_⟩, fun h e he => ?_⟩
      · have hne : e.1 ≠ first.1 := fun heq => hother e he (congrArg fold heq)
        rcases h e he with hmem | hnew
        · exact .inl ((mem_keys_assign.mp hmem).resolve_left hne)
        · refine .inr fun f hf hfold => ?_
          obtain ⟨g, hg, hkey⟩ := List.mem_map.mp
            (keys_assign first.1 first.2 (List.mem_map_of_mem hf))
          exact hnew g hg (by rw [hkey, hfold])
      · rcases h.2 e he with hmem | hnew
        · exact .inl (mem_keys_assign.mpr (.inr hmem))
        · refine .inr fun f hf hfold => ?_
          rcases mem_assign hf with hf | rfl
          · exact hnew f hf hfold
          · exact hother e he hfold.symm
    · constructor
      · exact fun h => absurd h.of_foldl_assign hassign
      · exact fun h => absurd ((single_assign hd _).mpr h.1) hassign

end Folded
end Lib
end CampusID
