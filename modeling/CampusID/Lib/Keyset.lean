import Mathlib.Data.List.Sort

/-!
# Keyset paging

A table is a list of rows in no particular order, and a reader walks it in the order of a
key: it asks for so many of the rows *past* the key of the last row it was given, and goes on
until nothing is left.

What a walk has still to read is `remaining`, the rows past the cursor in order, and
everything a reader needs is three facts about it:

* `remaining_after` --- behind a page lies what `remaining` had behind that page;
* `remaining_append` --- rows that arrive at or before the cursor change nothing;
* `induct` --- induction on what is left, one page at a time.

Keys are unique in all of this.  With two rows of one key a page may end between them, and
the next one starts behind both.
-/

namespace CampusID
namespace Lib
namespace Keyset

variable {R K : Type} [LinearOrder K] (key : R → K)

/-- The row lies past the cursor; before the first page there is none. -/
def past (cursor : Option K) (r : R) : Bool := cursor.all fun c => c < key r

/-- What is left past the cursor, in order. -/
def remaining (cursor : Option K) (rows : List R) : List R :=
  (rows.filter (past key cursor)).insertionSort fun a b => key a ≤ key b

/-- One page. -/
def page (n : Nat) (cursor : Option K) (rows : List R) : List R :=
  (remaining key cursor rows).take n

@[simp] theorem past_none (r : R) : past key none r = true := rfl

@[simp] theorem past_some (c : K) (r : R) : past key (some c) r = decide (c < key r) := rfl

theorem filter_past_none (rows : List R) : rows.filter (past key none) = rows :=
  List.filter_eq_self.mpr fun _ _ => rfl

variable {key}

theorem remaining_perm (cursor : Option K) (rows : List R) :
    (remaining key cursor rows).Perm (rows.filter (past key cursor)) :=
  List.perm_insertionSort _ _

theorem mem_remaining {cursor : Option K} {rows : List R} {r : R} :
    r ∈ remaining key cursor rows ↔ r ∈ rows ∧ past key cursor r = true := by
  rw [(remaining_perm cursor rows).mem_iff, List.mem_filter]

theorem past_trans {cursor : Option K} {r last : R} (hlast : past key cursor last = true)
    (h : past key (some (key last)) r = true) : past key cursor r = true := by
  cases cursor with
  | none => rfl
  | some c =>
    simp only [past_some, decide_eq_true_eq] at *
    exact lt_trans hlast h

theorem filter_past_after {cursor : Option K} {last : R} (hlast : past key cursor last = true)
    (rows : List R) : rows.filter (past key (some (key last))) =
      (rows.filter (past key cursor)).filter (past key (some (key last))) := by
  rw [List.filter_filter]
  refine List.filter_congr fun r _ => ?_
  cases hr : past key (some (key last)) r with
  | false => simp
  | true => simp [past_trans hlast hr]

theorem remaining_sorted (cursor : Option K) (rows : List R) :
    (remaining key cursor rows).Pairwise fun a b => key a ≤ key b := by
  have htotal : Std.Total fun a b : R => key a ≤ key b := ⟨fun a b => le_total (key a) (key b)⟩
  have htrans : IsTrans R fun a b => key a ≤ key b := ⟨fun _ _ _ => le_trans⟩
  exact List.pairwise_insertionSort _ _

theorem nodup_remaining {rows : List R} (hnodup : (rows.map key).Nodup) (cursor : Option K) :
    ((remaining key cursor rows).map key).Nodup := by
  rw [((remaining_perm cursor rows).map key).nodup_iff]
  exact hnodup.sublist (List.filter_sublist.map key)

theorem remaining_strict {rows : List R} (hnodup : (rows.map key).Nodup) (cursor : Option K) :
    (remaining key cursor rows).Pairwise fun a b => key a < key b := by
  have hne := List.pairwise_map.mp (nodup_remaining hnodup cursor)
  exact (remaining_sorted cursor rows).imp₂ (fun _ _ hle hne => lt_of_le_of_ne hle hne) hne

/-- **The order is determined by the rows.**  Two lists in order of a key that is unique are
equal when they hold the same rows. -/
theorem eq_of_perm {xs ys : List R} (hnodup : (xs.map key).Nodup)
    (hxs : xs.Pairwise fun a b => key a ≤ key b) (hys : ys.Pairwise fun a b => key a ≤ key b)
    (hperm : xs.Perm ys) : xs = ys := by
  refine List.Perm.eq_of_pairwise ?_ hxs hys hperm
  intro a b ha hb hab hba
  exact List.inj_on_of_nodup_map hnodup ha (hperm.mem_iff.mpr hb) (le_antisymm hab hba)

/-- **Rows that arrive at or before the cursor change nothing.** -/
theorem remaining_append {cursor : Option K} {rows new : List R}
    (h : ∀ r ∈ new, past key cursor r = false) :
    remaining key cursor (rows ++ new) = remaining key cursor rows := by
  have hnone : new.filter (past key cursor) = [] := by
    rw [List.filter_eq_nil_iff]
    intro r hr
    simp [h r hr]
  rw [remaining, remaining, List.filter_append, hnone, List.append_nil]

/-! ### Cutting -/

/-- Rows in an order along which a test does not turn false: those that fail it, and behind
them those that pass. -/
theorem filter_append_filter {p : R → Bool} {rows : List R}
    (h : rows.Pairwise fun a b => p a = true → p b = true) :
    rows.filter (fun r => !p r) ++ rows.filter p = rows := by
  induction rows with
  | nil => rfl
  | cons r rows ih =>
    obtain ⟨hr, hrows⟩ := List.pairwise_cons.mp h
    cases hp : p r with
    | false => simp [hp, ih hrows]
    | true =>
      have hall : ∀ b ∈ rows, p b = true := fun b hb => hr b hb hp
      have hnone : rows.filter (fun r => !p r) = [] := by
        rw [List.filter_eq_nil_iff]
        intro b hb
        simp [hall b hb]
      simp [hp, hnone, List.filter_eq_self.mpr hall]

variable (key) in
/-- The rows up to a key. -/
def upTo (c : K) (rows : List R) : List R := rows.filter fun r => key r ≤ c

theorem upTo_append {c : K} {rows : List R} (h : rows.Pairwise fun a b => key a ≤ key b) :
    upTo key c rows ++ rows.filter (past key (some c)) = rows := by
  have hupTo : upTo key c rows = rows.filter fun r => !past key (some c) r := by
    refine List.filter_congr fun r _ => ?_
    rw [past_some, ← decide_not]
    exact decide_eq_decide.mpr not_lt.symm
  rw [hupTo]
  refine filter_append_filter (h.imp fun hab ha => ?_)
  simp only [past_some, decide_eq_true_eq] at *
  exact lt_of_lt_of_le ha hab

theorem getLast?_upTo {r : R} {rows : List R} (h : rows.Pairwise fun a b => key a < key b)
    (hr : r ∈ rows) : (upTo key (key r) rows).getLast? = some r := by
  obtain ⟨before, behind, rfl⟩ := List.append_of_mem hr
  obtain ⟨-, hbehind, hbefore⟩ := List.pairwise_append.mp h
  have hfront : upTo key (key r) before = before := by
    refine List.filter_eq_self.mpr fun a ha => ?_
    simpa using le_of_lt (hbefore a ha r List.mem_cons_self)
  have hback : upTo key (key r) (r :: behind) = [r] := by
    have hnone : upTo key (key r) behind = [] := by
      refine List.filter_eq_nil_iff.mpr fun b hb => ?_
      simpa using (List.pairwise_cons.mp hbehind).1 b hb
    rw [upTo, List.filter_cons_of_pos (by simp)]
    exact congrArg _ hnone
  have hsplit : upTo key (key r) (before ++ r :: behind) = before ++ [r] := by
    rw [upTo, List.filter_append]
    exact congrArg₂ _ hfront hback
  rw [hsplit, List.getLast?_concat]

section Page

variable {n : Nat} {cursor : Option K} {rows : List R} {last : R}

theorem past_of_last (h : (page key n cursor rows).getLast? = some last) :
    last ∈ rows ∧ past key cursor last = true :=
  mem_remaining.mp (List.mem_of_mem_take (List.mem_of_getLast? h))

/-- **Behind a page lies what was behind it.** -/
theorem remaining_after (hnodup : (rows.map key).Nodup)
    (h : (page key n cursor rows).getLast? = some last) :
    remaining key (some (key last)) rows = (remaining key cursor rows).drop n := by
  have hstrict := remaining_strict hnodup cursor
  have hpast := (past_of_last h).2
  refine eq_of_perm (nodup_remaining hnodup _) (remaining_sorted _ _)
    ((remaining_sorted cursor rows).sublist (List.drop_sublist n _)) ?_
  -- of all that was left, exactly the rows behind the page are past its last row
  have hcut : (remaining key cursor rows).filter (past key (some (key last))) =
      (remaining key cursor rows).drop n := by
    obtain ⟨init, hinit⟩ := List.getLast?_eq_some_iff.mp h
    have hsplit : remaining key cursor rows =
        (init ++ [last]) ++ (remaining key cursor rows).drop n := by
      rw [← hinit]
      exact (List.take_append_drop n _).symm
    rw [hsplit] at hstrict
    obtain ⟨hpage, -, hbehind⟩ := List.pairwise_append.mp hstrict
    have hfront : (init ++ [last]).filter (past key (some (key last))) = [] := by
      rw [List.filter_eq_nil_iff]
      intro r hr
      rcases List.mem_append.mp hr with hr | hr
      · have := (List.pairwise_append.mp hpage).2.2 r hr last (by simp)
        simpa using le_of_lt this
      · simp [List.mem_singleton.mp hr]
    have hback : ((remaining key cursor rows).drop n).filter (past key (some (key last))) =
        (remaining key cursor rows).drop n := by
      rw [List.filter_eq_self]
      intro r hr
      simpa using hbehind last (by simp) r hr
    conv_lhs => rw [hsplit]
    rw [List.filter_append, hfront, hback, List.nil_append]
  rw [← hcut]
  refine (remaining_perm _ _).trans ?_
  rw [filter_past_after hpast]
  exact (remaining_perm cursor rows).symm.filter _

theorem length_filter_past_lt (h : (page key n cursor rows).getLast? = some last) :
    (rows.filter (past key (some (key last)))).length <
      (rows.filter (past key cursor)).length := by
  obtain ⟨hmem, hpast⟩ := past_of_last h
  rw [filter_past_after hpast]
  exact List.length_filter_lt_length_iff_exists.mpr
    ⟨last, List.mem_filter.mpr ⟨hmem, hpast⟩, by simp⟩

end Page

/-- The walk has ended exactly when nothing is left. -/
theorem page_getLast?_eq_none {n : Nat} (hn : n ≠ 0) {cursor : Option K} {rows : List R} :
    (page key n cursor rows).getLast? = none ↔ remaining key cursor rows = [] := by
  rw [List.getLast?_eq_none_iff, page, List.take_eq_nil_iff]
  exact or_iff_right hn

/-- **Induction along a walk.**  What holds where nothing is left, and holds before a page
when it holds behind it, holds at every cursor. -/
theorem induct {n : Nat} (hn : n ≠ 0) {rows : List R} {P : Option K → Prop}
    (done : ∀ cursor, remaining key cursor rows = [] → P cursor)
    (next : ∀ cursor last, (page key n cursor rows).getLast? = some last →
      P (some (key last)) → P cursor) (cursor : Option K) : P cursor := by
  induction hm : (rows.filter (past key cursor)).length using Nat.strong_induction_on
    generalizing cursor with
  | _ m ih =>
    cases hlast : (page key n cursor rows).getLast? with
    | none => exact done cursor ((page_getLast?_eq_none hn).mp hlast)
    | some last => exact next cursor last hlast (ih _ (hm ▸ length_filter_past_lt hlast) _ rfl)

end Keyset
end Lib
end CampusID
