import Mathlib.Algebra.Order.Field.Power
import Mathlib.Data.Rat.Cast.Order
import Mathlib.Tactic.Ring
import Mathlib.Tactic.FieldSimp
import Mathlib.Tactic.Linarith
import CampusID.Audit.Values

/-!
# The text of a value survives the column

`storable` is the shapes of value whose text is the same before and after the JSONB column:
no tuples, no float that is a whole number, and dictionaries whose keys are all strings or
all numbers.  `survives_of_storable` is the result: such a value is kept, both sides
are rendered, and the two texts are equal, in whatever order the column gives the keys back.

The text of a dictionary depends on its entries only up to order (`membersText_perm`),
because `dumps` sorts them; everything else follows the structure of the value.
-/

namespace CampusID
namespace Audit

open Lib

/-! ## Texts of dictionaries -/

theorem membersText_perm {l l' : List (String × String)} (hperm : l.Perm l')
    (hnodup : (l.map Prod.fst).Nodup) : membersText l = membersText l' := by
  have htotal : Std.Total fun a b : String × String => a.1 ≤ b.1 := ⟨fun a b => le_total a.1 b.1⟩
  have htrans : IsTrans (String × String) fun a b => a.1 ≤ b.1 := ⟨fun _ _ _ => le_trans⟩
  have hsort : l.insertionSort (fun a b => a.1 ≤ b.1) = l'.insertionSort fun a b => a.1 ≤ b.1 := by
    refine List.Perm.eq_of_pairwise ?_ (List.pairwise_insertionSort _ l)
      (List.pairwise_insertionSort _ l')
      ((List.perm_insertionSort _ l).trans (hperm.trans (List.perm_insertionSort _ l').symm))
    intro a b ha hb hab hba
    have ha' := (List.perm_insertionSort _ l).mem_iff.mp ha
    have hb' := hperm.mem_iff.mpr ((List.perm_insertionSort _ l').mem_iff.mp hb)
    exact List.inj_on_of_nodup_map hnodup ha' hb' (le_antisymm hab hba)
  unfold membersText
  rw [hsort]

theorem assign_append_of_notMem {β : Type} {d : List (String × β)} {k : String} (v : β)
    (h : k ∉ d.map Prod.fst) : assign d k v = d ++ [(k, v)] := by
  unfold assign
  rw [if_neg]
  rw [List.any_eq_true]
  rintro ⟨entry, hentry, hk⟩
  exact h (List.mem_map.mpr ⟨entry, hentry, by simpa using hk⟩)

theorem dictOf_of_nodup {β : Type} {l : List (String × β)} (h : (l.map Prod.fst).Nodup) :
    dictOf l = l := by
  have hfold : ∀ (l d : List (String × β)), ((d ++ l).map Prod.fst).Nodup →
      l.foldl (fun d entry => assign d entry.1 entry.2) d = d ++ l := by
    intro l
    induction l with
    | nil => simp
    | cons entry l ih =>
      intro d hd
      have hnot : entry.1 ∉ d.map Prod.fst := by
        rw [List.map_append, List.nodup_append] at hd
        exact fun hmem => hd.2.2 _ hmem entry.1 (by simp) rfl
      rw [List.foldl_cons, assign_append_of_notMem _ hnot, ih]
      · simp
      · simpa using hd
  exact hfold l [] (by simpa using h)


/-! ## The shapes that survive -/

namespace Key

/-- The text of a key, where it has one. -/
def label (k : Key) : String :=
  match k.text with
  | .ok t => t
  | .error _ => ""

/-- A string the column keeps. -/
def isString : Key → Bool
  | .str s => isStorable s
  | _ => false

/-- A finite number that can be written. -/
def isNumber : Key → Bool
  | .num (.int n) => isWritable n
  | .num (.float _) => true
  | _ => false

end Key

/-- The keys of a dictionary that survives: all strings or all finite numbers, no two with
one text. -/
def plainKeys (keys : List Key) : Bool :=
  (keys.all Key.isString || keys.all Key.isNumber) && (keys.map Key.label).Nodup

mutual

/-- **The values whose text survives the column.** -/
def storable : Value → Bool
  | .none => true
  | .bool _ => true
  | .num n => n.isPlain
  | .str s => isStorable s
  | .list items => storableAll items
  | .tuple _ => false
  | .dict entries => plainKeys (entries.map Prod.fst) && storableEntries entries

/-- Every item is storable. -/
def storableAll : List Value → Bool
  | [] => true
  | v :: vs => storable v && storableAll vs

/-- Every value of a dictionary is storable. -/
def storableEntries : List (Key × Value) → Bool
  | [] => true
  | (_, v) :: entries => storable v && storableEntries entries

end

mutual

/-- Induction on a value: what holds of a list or a dictionary may be assumed of what is
in it. -/
theorem Value.induct {P : Value → Prop} (none : P .none) (bool : ∀ b, P (.bool b))
    (num : ∀ n, P (.num n)) (str : ∀ s, P (.str s))
    (list : ∀ items, (∀ v ∈ items, P v) → P (.list items)) (tuple : ∀ items, P (.tuple items))
    (dict : ∀ entries, (∀ e ∈ entries, P e.2) → P (.dict entries)) : ∀ v, P v
  | .none => none
  | .bool b => bool b
  | .num n => num n
  | .str s => str s
  | .list items => list items (Value.inductAll none bool num str list tuple dict items)
  | .tuple items => tuple items
  | .dict entries => dict entries (Value.inductEntries none bool num str list tuple dict entries)

theorem Value.inductAll {P : Value → Prop} (none : P .none) (bool : ∀ b, P (.bool b))
    (num : ∀ n, P (.num n)) (str : ∀ s, P (.str s))
    (list : ∀ items, (∀ v ∈ items, P v) → P (.list items)) (tuple : ∀ items, P (.tuple items))
    (dict : ∀ entries, (∀ e ∈ entries, P e.2) → P (.dict entries)) :
    ∀ (items : List Value), ∀ v ∈ items, P v
  | [], _, h => by cases h
  | w :: ws, v, h =>
    (List.mem_cons.mp h).elim (fun heq => heq ▸ Value.induct none bool num str list tuple dict w)
      (Value.inductAll none bool num str list tuple dict ws v)

theorem Value.inductEntries {P : Value → Prop} (none : P .none) (bool : ∀ b, P (.bool b))
    (num : ∀ n, P (.num n)) (str : ∀ s, P (.str s))
    (list : ∀ items, (∀ v ∈ items, P v) → P (.list items)) (tuple : ∀ items, P (.tuple items))
    (dict : ∀ entries, (∀ e ∈ entries, P e.2) → P (.dict entries)) :
    ∀ (entries : List (Key × Value)), ∀ e ∈ entries, P e.2
  | [], _, h => by cases h
  | (_, w) :: entries, e, h =>
    (List.mem_cons.mp h).elim (fun heq => heq ▸ Value.induct none bool num str list tuple dict w)
      (Value.inductEntries none bool num str list tuple dict entries e)

end

theorem storableAll_iff {items : List Value} :
    storableAll items = true ↔ ∀ v ∈ items, storable v = true := by
  induction items with
  | nil => simp [storableAll]
  | cons v vs ih => simp [storableAll, ih]

theorem storableEntries_iff {entries : List (Key × Value)} :
    storableEntries entries = true ↔ ∀ e ∈ entries, storable e.2 = true := by
  induction entries with
  | nil => simp [storableEntries]
  | cons e entries ih =>
    obtain ⟨k, v⟩ := e
    simp [storableEntries, ih]

/-! ### Results of the recursive functions, entry by entry -/

/-- What a computation returned, where it returned. -/
def okD {α : Type} (x : Except WriteError α) (default : α) : α :=
  match x with
  | .ok a => a
  | .error _ => default

@[simp] theorem okD_ok {α : Type} (a default : α) : okD (.ok a) default = a := rfl

@[simp] theorem ok_bind {α β : Type} (a : α) (f : α → Except WriteError β) :
    (Except.ok a >>= f) = f a := rfl

theorem renderAll_eq {items : List Value} (h : ∀ v ∈ items, ∃ j, render v = .ok j) :
    renderAll items = .ok (items.map fun v => okD (render v) .null) := by
  induction items with
  | nil => rfl
  | cons v vs ih =>
    obtain ⟨j, hj⟩ := h v List.mem_cons_self
    simp [renderAll, hj, ih fun v hv => h v (List.mem_cons_of_mem _ hv)]

theorem renderEntries_eq {entries : List (Key × Value)}
    (h : ∀ e ∈ entries, ∃ j, render e.2 = .ok j) :
    renderEntries entries = .ok (entries.map fun e => (e.1, okD (render e.2) .null)) := by
  induction entries with
  | nil => rfl
  | cons e entries ih =>
    obtain ⟨k, v⟩ := e
    obtain ⟨j, hj⟩ := h (k, v) List.mem_cons_self
    simp only at hj
    simp [renderEntries, hj, ih fun e he => h e (List.mem_cons_of_mem _ he)]

theorem storedAll_eq {items : List Value} (h : ∀ v ∈ items, ∃ w, stored v = .ok w) :
    storedAll items = .ok (items.map fun v => okD (stored v) .none) := by
  induction items with
  | nil => rfl
  | cons v vs ih =>
    obtain ⟨w, hw⟩ := h v List.mem_cons_self
    simp [storedAll, hw, ih fun v hv => h v (List.mem_cons_of_mem _ hv)]

theorem storedEntries_eq {entries : List (Key × Value)}
    (h : ∀ e ∈ entries, ∃ w, stored e.2 = .ok w) :
    storedEntries entries = .ok (entries.map fun e => (e.1, okD (stored e.2) .none)) := by
  induction entries with
  | nil => rfl
  | cons e entries ih =>
    obtain ⟨k, v⟩ := e
    obtain ⟨w, hw⟩ := h (k, v) List.mem_cons_self
    simp only at hw
    simp [storedEntries, hw, ih fun e he => h e (List.mem_cons_of_mem _ he)]

theorem dumpsAll_eq {items : List Json} (h : ∀ j ∈ items, ∃ t, dumps j = .ok t) :
    dumpsAll items = .ok (items.map fun j => okD (dumps j) "") := by
  induction items with
  | nil => rfl
  | cons j js ih =>
    obtain ⟨t, ht⟩ := h j List.mem_cons_self
    simp [dumpsAll, ht, ih fun j hj => h j (List.mem_cons_of_mem _ hj)]

theorem dumpsEntries_eq {entries : List (String × Json)}
    (h : ∀ e ∈ entries, ∃ t, dumps e.2 = .ok t) :
    dumpsEntries entries = .ok (entries.map fun e => (e.1, okD (dumps e.2) "")) := by
  induction entries with
  | nil => rfl
  | cons e entries ih =>
    obtain ⟨k, j⟩ := e
    obtain ⟨t, ht⟩ := h (k, j) List.mem_cons_self
    simp only at ht
    simp [dumpsEntries, ht, ih fun e he => h e (List.mem_cons_of_mem _ he)]

theorem textKeys_eq {β : Type} {text : Key → Except WriteError String} {entries : List (Key × β)}
    (h : ∀ e ∈ entries, text e.1 = .ok e.1.label) :
    textKeys text entries = .ok (entries.map fun e => (e.1.label, e.2)) := by
  induction entries with
  | nil => rfl
  | cons e entries ih =>
    obtain ⟨k, v⟩ := e
    have hk : text k = .ok k.label := h (k, v) List.mem_cons_self
    simp [textKeys, hk, ih fun e he => h e (List.mem_cons_of_mem _ he)]

theorem readAll_eq (reorder : List (Key × Value) → List (Key × Value)) (items : List Value) :
    readAll reorder items = items.map (readBack reorder) := by
  induction items with
  | nil => rfl
  | cons v vs ih => simp [readAll, ih]

theorem readEntries_eq (reorder : List (Key × Value) → List (Key × Value))
    (entries : List (Key × Value)) :
    readEntries reorder entries = entries.map fun e => (e.1, readBack reorder e.2) := by
  induction entries with
  | nil => rfl
  | cons e entries ih =>
    obtain ⟨k, v⟩ := e
    simp [readEntries, ih]

/-! ### Keys -/

theorem sortedItems_perm {β : Type} {entries : List (Key × β)}
    (h : ∀ a ∈ entries, ∀ b ∈ entries, a.1.comparable b.1 = true) :
    ∃ ordered, sortedItems entries = .ok ordered ∧ ordered.Perm entries :=
  ⟨_, if_pos (Or.inr h), List.perm_insertionSort _ _⟩

/-- What `storable` asks of the keys of a dictionary. -/
structure PlainKeys (keys : List Key) : Prop where
  text : ∀ k ∈ keys, k.text = .ok k.label
  stored : ∀ k ∈ keys, k.stored = .ok k.label
  comparable : ∀ a ∈ keys, ∀ b ∈ keys, a.comparable b = true
  nodup : (keys.map Key.label).Nodup

theorem Key.text_of_isString {k : Key} (h : k.isString = true) :
    ∃ s, k = .str s ∧ isStorable s = true := by
  cases k with
  | str s => exact ⟨s, rfl, h⟩
  | num n => cases h
  | bool b => cases h
  | none => cases h

theorem Key.text_of_isNumber {k : Key} (h : k.isNumber = true) :
    k.text = .ok k.label ∧ k.stored = .ok k.label ∧ ∃ n, k = .num n := by
  cases k with
  | str s => cases h
  | bool b => cases h
  | none => cases h
  | num n =>
    cases n with
    | nan => cases h
    | inf negative => cases h
    | float d => exact ⟨rfl, rfl, _, rfl⟩
    | int n =>
      have hw : isWritable n = true := h
      simp [Key.text, Key.stored, Key.json, Key.label, Number.repr, Number.json, intText, hw]

theorem plainKeys_iff {keys : List Key} (h : plainKeys keys = true) : PlainKeys keys := by
  unfold plainKeys at h
  rw [Bool.and_eq_true, Bool.or_eq_true, List.all_eq_true, List.all_eq_true, decide_eq_true_eq] at h
  obtain ⟨hkind, hnodup⟩ := h
  rcases hkind with hstr | hnum
  · refine ⟨fun k hk => ?_, fun k hk => ?_, fun a ha b hb => ?_, hnodup⟩
    · obtain ⟨s, rfl, -⟩ := Key.text_of_isString (hstr k hk)
      rfl
    · obtain ⟨s, rfl, hs⟩ := Key.text_of_isString (hstr k hk)
      simp [Key.stored, storedText, hs, Key.label, Key.text]
    · obtain ⟨s, rfl, -⟩ := Key.text_of_isString (hstr a ha)
      obtain ⟨t, rfl, -⟩ := Key.text_of_isString (hstr b hb)
      rfl
  · refine ⟨fun k hk => (Key.text_of_isNumber (hnum k hk)).1,
      fun k hk => (Key.text_of_isNumber (hnum k hk)).2.1, fun a ha b hb => ?_, hnodup⟩
    obtain ⟨-, -, m, rfl⟩ := Key.text_of_isNumber (hnum a ha)
    obtain ⟨-, -, n, rfl⟩ := Key.text_of_isNumber (hnum b hb)
    rfl

theorem plainKeys_str {β : Type} {entries : List (String × β)}
    (h : (entries.map Prod.fst).Nodup) {keys : List Key}
    (hkeys : keys.Perm (entries.map fun e => Key.str e.1)) :
    (∀ k ∈ keys, k.text = .ok k.label) ∧ (∀ a ∈ keys, ∀ b ∈ keys, a.comparable b = true) ∧
      (keys.map Key.label).Nodup := by
  have hstr : ∀ k ∈ keys, ∃ s, k = .str s := by
    intro k hk
    obtain ⟨e, -, rfl⟩ := List.mem_map.mp (hkeys.mem_iff.mp hk)
    exact ⟨e.1, rfl⟩
  refine ⟨fun k hk => ?_, fun a ha b hb => ?_, ?_⟩
  · obtain ⟨s, rfl⟩ := hstr k hk
    rfl
  · obtain ⟨s, rfl⟩ := hstr a ha
    obtain ⟨t, rfl⟩ := hstr b hb
    rfl
  · rw [(hkeys.map Key.label).nodup_iff, List.map_map]
    exact h

/-! ### The text of a value -/

/-- The text the hash is taken over, where there is one. -/
def valueText (v : Value) : Except WriteError String := do dumps (← render v)

theorem valueText_eq_ok {v : Value} {t : String} :
    valueText v = .ok t ↔ ∃ j, render v = .ok j ∧ dumps j = .ok t := by
  unfold valueText
  cases h : render v with
  | error e => simp [Bind.bind, Except.bind]
  | ok j => simp

/-- **The text of a dictionary**, from the texts of its entries. -/
theorem valueText_dict {entries : List (Key × Value)}
    (htext : ∀ k ∈ entries.map Prod.fst, k.text = .ok k.label)
    (hcomp : ∀ a ∈ entries.map Prod.fst, ∀ b ∈ entries.map Prod.fst, a.comparable b = true)
    (hnodup : ((entries.map Prod.fst).map Key.label).Nodup)
    (hval : ∀ e ∈ entries, ∃ t, valueText e.2 = .ok t) :
    valueText (.dict entries) = .ok ("\x7b" ++
      membersText (entries.map fun e => (e.1.label, okD (valueText e.2) "")) ++ "\x7d") := by
  have hrender : ∀ e ∈ entries, ∃ j, render e.2 = .ok j := fun e he => by
    obtain ⟨t, ht⟩ := hval e he
    obtain ⟨j, hj, -⟩ := valueText_eq_ok.mp ht
    exact ⟨j, hj⟩
  -- the rendered entries, sorted, keep the keys and the values
  have hcomp' : ∀ a ∈ entries.map (fun e => (e.1, okD (render e.2) .null)),
      ∀ b ∈ entries.map (fun e => (e.1, okD (render e.2) .null)), a.1.comparable b.1 = true := by
    simp only [List.mem_map]
    rintro a ⟨e, he, rfl⟩ b ⟨e', he', rfl⟩
    exact hcomp _ (List.mem_map_of_mem he) _ (List.mem_map_of_mem he')
  obtain ⟨ordered, hsorted, hperm⟩ := sortedItems_perm hcomp'
  have hmem : ∀ e ∈ ordered, ∃ e' ∈ entries, e = (e'.1, okD (render e'.2) .null) := by
    intro e he
    obtain ⟨e', he', rfl⟩ := List.mem_map.mp (hperm.mem_iff.mp he)
    exact ⟨e', he', rfl⟩
  have hkeys : textKeys Key.text ordered = .ok (ordered.map fun e => (e.1.label, e.2)) := by
    refine textKeys_eq fun e he => ?_
    obtain ⟨e', he', rfl⟩ := hmem e he
    exact htext _ (List.mem_map_of_mem he')
  have hdict : dictOf (ordered.map fun e => (e.1.label, e.2)) =
      ordered.map fun e => (e.1.label, e.2) := by
    refine dictOf_of_nodup ?_
    rw [List.map_map, ((hperm.map _).nodup_iff), List.map_map]
    simpa [Function.comp_def] using hnodup
  have hdumps : dumpsEntries (ordered.map fun e => (e.1.label, e.2)) =
      .ok ((ordered.map fun e => (e.1.label, e.2)).map fun e => (e.1, okD (dumps e.2) "")) := by
    refine dumpsEntries_eq fun e he => ?_
    obtain ⟨e', he', rfl⟩ := List.mem_map.mp he
    obtain ⟨e'', he'', rfl⟩ := hmem e' he'
    obtain ⟨t, ht⟩ := hval e'' he''
    obtain ⟨j, hj, hjt⟩ := valueText_eq_ok.mp ht
    exact ⟨t, by simp [hj, hjt]⟩
  have hmembers : membersText ((ordered.map fun e => (e.1.label, e.2)).map
        fun e => (e.1, okD (dumps e.2) "")) =
      membersText (entries.map fun e => (e.1.label, okD (valueText e.2) "")) := by
    refine membersText_perm ?_ ?_
    · have hrow : (entries.map fun e => (e.1.label, okD (valueText e.2) "")) =
          ((entries.map fun e => (e.1, okD (render e.2) .null)).map fun e => (e.1.label, e.2)).map
            fun e => (e.1, okD (dumps e.2) "") := by
        rw [List.map_map, List.map_map]
        refine List.map_congr_left fun e he => ?_
        obtain ⟨t, ht⟩ := hval e he
        obtain ⟨j, hj, hjt⟩ := valueText_eq_ok.mp ht
        simp [ht, hj, hjt]
      rw [hrow]
      exact (hperm.map _).map _
    · rw [List.map_map, List.map_map, (hperm.map _).nodup_iff, List.map_map]
      simpa [Function.comp_def] using hnodup
  refine valueText_eq_ok.mpr ⟨.dict (ordered.map fun e => (e.1.label, e.2)), ?_, ?_⟩
  · simp only [render, renderEntries_eq hrender, hsorted, hkeys, ok_bind, hdict]
    rfl
  · simp only [dumps, hdumps, ok_bind, hmembers]
    rfl

theorem valueText_list {items : List Value} (hval : ∀ v ∈ items, ∃ t, valueText v = .ok t) :
    valueText (.list items) =
      .ok ("[" ++ join "," (items.map fun v => okD (valueText v) "") ++ "]") := by
  have hrender : ∀ v ∈ items, ∃ j, render v = .ok j := fun v hv => by
    obtain ⟨t, ht⟩ := hval v hv
    obtain ⟨j, hj, -⟩ := valueText_eq_ok.mp ht
    exact ⟨j, hj⟩
  have hdumps : dumpsAll (items.map fun v => okD (render v) .null) =
      .ok ((items.map fun v => okD (render v) .null).map fun j => okD (dumps j) "") := by
    refine dumpsAll_eq fun j hj => ?_
    obtain ⟨v, hv, rfl⟩ := List.mem_map.mp hj
    obtain ⟨t, ht⟩ := hval v hv
    obtain ⟨j, hj, hjt⟩ := valueText_eq_ok.mp ht
    exact ⟨t, by simp [hj, hjt]⟩
  have htexts : ((items.map fun v => okD (render v) .null).map fun j => okD (dumps j) "") =
      items.map fun v => okD (valueText v) "" := by
    rw [List.map_map]
    refine List.map_congr_left fun v hv => ?_
    obtain ⟨t, ht⟩ := hval v hv
    obtain ⟨j, hj, hjt⟩ := valueText_eq_ok.mp ht
    simp [ht, hj, hjt]
  refine valueText_eq_ok.mpr ⟨.list (items.map fun v => okD (render v) .null), ?_, ?_⟩
  · simp only [render, renderAll_eq hrender, ok_bind]
    rfl
  · simp only [dumps, hdumps, ok_bind, htexts]
    rfl

/-! ### The result -/

section

variable (reorder : List (Key × Value) → List (Key × Value))

/-- The column keeps the value, and its text is the same when it is read back. -/
def Survives (v : Value) : Prop :=
  ∃ w t, stored v = .ok w ∧ valueText v = .ok t ∧ valueText (readBack reorder w) = .ok t

variable {reorder}

theorem Survives.list {items : List Value} (h : ∀ v ∈ items, Survives reorder v) :
    Survives reorder (.list items) := by
  have hstored : storedAll items = .ok (items.map fun v => okD (stored v) .none) :=
    storedAll_eq fun v hv => (h v hv).imp fun w hw => hw.choose_spec.1
  have hread : readAll reorder (items.map fun v => okD (stored v) .none) =
      items.map fun v => readBack reorder (okD (stored v) .none) := by
    rw [readAll_eq, List.map_map]
    rfl
  have htext : ∀ v ∈ items, ∃ t, valueText v = .ok t := fun v hv => by
    obtain ⟨w, t, -, ht, -⟩ := h v hv
    exact ⟨t, ht⟩
  have htext' : ∀ v ∈ items.map (fun v => readBack reorder (okD (stored v) .none)),
      ∃ t, valueText v = .ok t := by
    intro v hv
    obtain ⟨v', hv', rfl⟩ := List.mem_map.mp hv
    obtain ⟨w, t, hw, -, ht⟩ := h v' hv'
    exact ⟨t, by rw [hw, okD_ok, ht]⟩
  refine ⟨.list (items.map fun v => okD (stored v) .none), _, ?_, valueText_list htext, ?_⟩
  · simp only [stored, hstored, ok_bind]
    rfl
  · rw [readBack, hread, valueText_list htext', List.map_map]
    have hsame : (items.map ((fun v => okD (valueText v) "") ∘
        fun v => readBack reorder (okD (stored v) .none))) =
        items.map fun v => okD (valueText v) "" := by
      refine List.map_congr_left fun v hv => ?_
      obtain ⟨w, t, hw, ht, ht'⟩ := h v hv
      simp [hw, ht, ht']
    rw [hsame]

theorem Survives.dict (hreorder : ∀ l, (reorder l).Perm l) {entries : List (Key × Value)}
    (hkeys : PlainKeys (entries.map Prod.fst)) (h : ∀ e ∈ entries, Survives reorder e.2) :
    Survives reorder (.dict entries) := by
  have hstored : storedEntries entries =
      .ok (entries.map fun e => (e.1, okD (stored e.2) .none)) :=
    storedEntries_eq fun e he => (h e he).imp fun w hw => hw.choose_spec.1
  have hnamed : textKeys Key.stored (entries.map fun e => (e.1, okD (stored e.2) .none)) =
      .ok ((entries.map fun e => (e.1, okD (stored e.2) .none)).map fun e => (e.1.label, e.2)) := by
    refine textKeys_eq fun e he => ?_
    obtain ⟨e', he', rfl⟩ := List.mem_map.mp he
    exact hkeys.stored e'.1 (List.mem_map_of_mem he')
  have hlabels : ((entries.map fun e => (e.1.label, okD (stored e.2) .none)).map
      Prod.fst).Nodup := by
    simpa [List.map_map, Function.comp_def] using hkeys.nodup
  have hkept : stored (.dict entries) =
      .ok (.dict (entries.map fun e => (.str e.1.label, okD (stored e.2) .none))) := by
    simp only [stored, hstored, ok_bind, hnamed, List.map_map]
    rw [show (entries.map ((fun e : Key × Value => (e.1.label, e.2)) ∘
        fun e => (e.1, okD (stored e.2) .none))) =
        entries.map fun e => (e.1.label, okD (stored e.2) .none) from rfl,
      dictOf_of_nodup hlabels, List.map_map]
    rfl
  have htext : ∀ e ∈ entries, ∃ t, valueText e.2 = .ok t := fun e he => by
    obtain ⟨w, t, -, ht, -⟩ := h e he
    exact ⟨t, ht⟩
  -- what is read back has the same entries, under string keys, in some order
  generalize hback : reorder (entries.map fun e =>
    ((Key.str e.1.label), readBack reorder (okD (stored e.2) .none))) = back
  have hperm : back.Perm (entries.map fun e =>
      ((Key.str e.1.label), readBack reorder (okD (stored e.2) .none))) := hback ▸ hreorder _
  have hbackKeys : (back.map Prod.fst).Perm
      ((entries.map fun e => (e.1.label, okD (stored e.2) .none)).map fun e => Key.str e.1) := by
    refine (hperm.map Prod.fst).trans (List.Perm.of_eq ?_)
    rw [List.map_map, List.map_map]
    rfl
  obtain ⟨htext', hcomp', hnodup'⟩ := plainKeys_str hlabels hbackKeys
  have hval' : ∀ e ∈ back, ∃ t, valueText e.2 = .ok t := by
    intro e he
    obtain ⟨e', he', rfl⟩ := List.mem_map.mp (hperm.mem_iff.mp he)
    obtain ⟨w, t, hw, -, ht⟩ := h e' he'
    exact ⟨t, by rw [hw, okD_ok, ht]⟩
  refine ⟨_, _, hkept, valueText_dict hkeys.text hkeys.comparable hkeys.nodup htext, ?_⟩
  have hmembers : membersText (back.map fun e => (e.1.label, okD (valueText e.2) "")) =
      membersText (entries.map fun e => (e.1.label, okD (valueText e.2) "")) := by
    refine membersText_perm ((hperm.map _).trans (List.Perm.of_eq ?_)) ?_
    · rw [List.map_map]
      refine List.map_congr_left fun e he => ?_
      obtain ⟨w, t, hw, ht, ht'⟩ := h e he
      simp [hw, ht, ht', Key.label, Key.text]
    · simpa [List.map_map, Function.comp_def] using hnodup'
  rw [readBack, readEntries_eq, List.map_map,
    show ((fun e : Key × Value => (e.1, readBack reorder e.2)) ∘
      fun e : Key × Value => (Key.str e.1.label, okD (stored e.2) .none)) = fun e =>
        ((Key.str e.1.label), readBack reorder (okD (stored e.2) .none)) from rfl, hback,
    valueText_dict htext' hcomp' hnodup' hval', hmembers]

/-- **A storable value survives the column.** -/
theorem survives_of_storable (hreorder : ∀ l, (reorder l).Perm l) (v : Value)
    (h : storable v = true) : Survives reorder v := by
  induction v using Value.induct with
  | none => exact ⟨.none, "null", rfl, rfl, rfl⟩
  | bool b => exact ⟨.bool b, _, rfl, rfl, rfl⟩
  | str s =>
    have hs : isStorable s = true := h
    exact ⟨.str s, _, by simp [stored, storedText, hs], rfl, rfl⟩
  | num n =>
    have hn : n.isPlain = true := h
    cases n with
    | nan => cases hn
    | inf negative => cases hn
    | float d =>
      have hd : d.isWhole = false := by simpa [Number.isPlain] using hn
      exact ⟨.num (.float d), _, by simp [stored, Number.stored, hd], rfl, rfl⟩
    | int k =>
      have hk : isWritable k = true := hn
      have htext : valueText (.num (.int k)) = .ok (toString k) := by
        simp [valueText, render, dumps, Number.json, intText, hk]
      exact ⟨.num (.int k), _, by simp [stored, Number.stored, hk], htext, htext⟩
  | list items ih =>
    exact Survives.list fun v hv => ih v hv (storableAll_iff.mp h v hv)
  | tuple items => cases h
  | dict entries ih =>
    rw [storable, Bool.and_eq_true] at h
    exact Survives.dict hreorder (plainKeys_iff h.1) fun e he =>
      ih e he (storableEntries_iff.mp h.2 e he)

end

end Audit
end CampusID
