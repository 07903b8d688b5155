import Mathlib.Data.Finset.Basic
import Mathlib.Data.Finset.Option
import Mathlib.Data.Set.Finite.List
import Mathlib.Logic.Relation
import Mathlib.Order.WellFounded

/-!
# Sorting in rounds

Items need keys, and an item may give one.  A round takes every item whose keys have been given
before the round, in the order of the list; the rounds go on with the others until nothing is
taken.  What comes out is a list in which every item finds its keys given by those before it
(`inOrder_run`), and the items that are stuck.

* Items are stuck on one another: if every key is given by somebody, some item is stuck exactly
  when the items need each other in a circle (`run_stuck_iff`).
* The rounds are not the greedy order, which takes the first item that is ready each time
  (`Greedy`).  They are where no item overtakes an earlier one that has become ready during the
  round (`greedy_run_iff`).
-/

namespace CampusID
namespace Lib
namespace Rounds

section Definitions

variable {α κ : Type} [DecidableEq κ] (needs : α → Finset κ) (gives : α → Option κ)

/-- The keys some items give. -/
def given (items : List α) : Finset κ := (items.filterMap gives).toFinset

/-- All the keys an item needs are there. -/
def ready (done : Finset κ) (item : α) : Bool := needs item ⊆ done

/-- As many rounds as the first argument at most: the items in the order they are taken, and those
that are left. -/
def run : Nat → Finset κ → List α → List α × List α
  | 0, _, items => ([], items)
  | bound + 1, done, items =>
    if (items.filter (ready needs done)).isEmpty then ([], items)
    else
      let rest := run bound (done ∪ given gives (items.filter (ready needs done)))
        (items.filter (!ready needs done ·))
      (items.filter (ready needs done) ++ rest.1, rest.2)

/-- Every item of a list finds its keys given by those before it. -/
def InOrder : Finset κ → List α → Prop
  | _, [] => True
  | done, item :: items => needs item ⊆ done ∧ InOrder (done ∪ given gives [item]) items

/-- An item needs a key that another one gives. -/
def Needs (items : List α) (a b : α) : Prop :=
  a ∈ items ∧ b ∈ items ∧ ∃ key ∈ needs a, gives b = some key

/-- Some items need each other in a circle. -/
def Cyclic (items : List α) : Prop := ∃ a, Relation.TransGen (Needs needs gives items) a a

/-- **The greedy order**: each item is the first of those that are left whose keys are all
there. -/
inductive Greedy : Finset κ → List α → List α → Prop
  | nil (done : Finset κ) : Greedy done [] []
  | cons {done : Finset κ} {before after order : List α} {item : α}
      (waiting : ∀ other ∈ before, ready needs done other = false)
      (free : ready needs done item = true)
      (rest : Greedy (done ∪ given gives [item]) (before ++ after) order) :
      Greedy done (before ++ item :: after) (item :: order)

/-- The keys that are there after some rounds over all the items. -/
def settled (items : List α) : Nat → Finset κ
  | 0 => ∅
  | n + 1 => given gives (items.filter (ready needs (settled items n)))

end Definitions

variable {α κ : Type} [DecidableEq κ] {needs : α → Finset κ} {gives : α → Option κ}
  {items before after sorted : List α} {item a b : α} {key : κ} {done done' : Finset κ}
  {bound : Nat}

/-! ## Keys -/

theorem mem_given : key ∈ given gives items ↔ ∃ item ∈ items, gives item = some key := by
  rw [given, List.mem_toFinset, List.mem_filterMap]

@[simp] theorem given_nil : given gives ([] : List α) = ∅ := rfl

theorem given_append (items items' : List α) :
    given gives (items ++ items') = given gives items ∪ given gives items' := by
  rw [given, List.filterMap_append, List.toFinset_append]
  rfl

theorem given_cons (item : α) (items : List α) :
    given gives (item :: items) = given gives [item] ∪ given gives items :=
  given_append [item] items

theorem given_subset (h : items ⊆ before) : given gives items ⊆ given gives before := by
  intro key hkey
  obtain ⟨item, hitem, hgives⟩ := mem_given.mp hkey
  exact mem_given.mpr ⟨item, h hitem, hgives⟩

theorem ready_iff : ready needs done item = true ↔ needs item ⊆ done := decide_eq_true_iff

theorem ready_mono (hsub : done ⊆ done') (h : ready needs done item = true) :
    ready needs done' item = true :=
  ready_iff.mpr ((ready_iff.mp h).trans hsub)

theorem not_ready_mono (hsub : done ⊆ done') (h : ready needs done' item = false) :
    ready needs done item = false := by
  rw [Bool.eq_false_iff] at h ⊢
  exact fun hready => h (ready_mono hsub hready)

/-! ## What the rounds do -/

theorem run_of_isEmpty (h : (items.filter (ready needs done)).isEmpty) (bound : Nat) :
    run needs gives bound done items = ([], items) := by
  cases bound with
  | zero => rfl
  | succ bound => rw [run, if_pos h]

theorem run_succ (h : ¬ (items.filter (ready needs done)).isEmpty) :
    run needs gives (bound + 1) done items =
      (items.filter (ready needs done) ++
        (run needs gives bound (done ∪ given gives (items.filter (ready needs done)))
          (items.filter (!ready needs done ·))).1,
        (run needs gives bound (done ∪ given gives (items.filter (ready needs done)))
          (items.filter (!ready needs done ·))).2) := by
  rw [run, if_neg h]

/-- **Nothing is lost.** -/
theorem run_perm : ((run needs gives bound done items).1 ++
    (run needs gives bound done items).2).Perm items := by
  induction bound generalizing done items with
  | zero => exact .refl _
  | succ bound ih =>
    by_cases h : (items.filter (ready needs done)).isEmpty
    · rw [run_of_isEmpty h]
      exact .refl _
    · rw [run_succ h, List.append_assoc]
      exact (List.Perm.append_left _ ih).trans (items.filter_append_perm (ready needs done))

theorem inOrder_append : InOrder needs gives done (before ++ after) ↔
    InOrder needs gives done before ∧ InOrder needs gives (done ∪ given gives before) after := by
  induction before generalizing done with
  | nil => simp [InOrder]
  | cons item before ih =>
    rw [List.cons_append, InOrder, ih, given_cons item before, ← Finset.union_assoc, InOrder,
      and_assoc]

/-- Items that are all ready are in order, whatever the order. -/
theorem inOrder_of_ready (h : ∀ item ∈ items, ready needs done item = true) :
    InOrder needs gives done items := by
  induction items generalizing done with
  | nil => trivial
  | cons item items ih =>
    obtain ⟨hitem, hitems⟩ := List.forall_mem_cons.mp h
    refine ⟨ready_iff.mp hitem, ih fun other hother => ?_⟩
    exact ready_mono Finset.subset_union_left (hitems other hother)

/-- **What is taken is in order.** -/
theorem inOrder_run : InOrder needs gives done (run needs gives bound done items).1 := by
  induction bound generalizing done items with
  | zero => trivial
  | succ bound ih =>
    by_cases h : (items.filter (ready needs done)).isEmpty
    · rw [run_of_isEmpty h]
      trivial
    · rw [run_succ h]
      exact inOrder_append.mpr ⟨inOrder_of_ready fun _ hitem => (List.mem_filter.mp hitem).2, ih⟩

/-- **What is left is not ready**, after as many rounds as there are items. -/
theorem not_ready_of_left (hbound : items.length ≤ bound)
    (h : item ∈ (run needs gives bound done items).2) :
    ready needs (done ∪ given gives (run needs gives bound done items).1) item = false := by
  induction bound generalizing done items with
  | zero =>
    rw [List.length_eq_zero_iff.mp (Nat.le_zero.mp hbound)] at h
    cases h
  | succ bound ih =>
    by_cases hready : (items.filter (ready needs done)).isEmpty
    · rw [run_of_isEmpty hready] at h ⊢
      rw [given_nil, Finset.union_empty, Bool.eq_false_iff]
      intro hitem
      have hmem : item ∈ items.filter (ready needs done) := List.mem_filter.mpr ⟨h, hitem⟩
      rw [List.isEmpty_iff.mp hready] at hmem
      cases hmem
    · rw [run_succ hready] at h ⊢
      rw [given_append, ← Finset.union_assoc]
      refine ih ?_ h
      -- a round takes at least one item, so one fewer round is enough for the others
      have hpos := List.length_pos_iff.mpr fun hnil => hready (List.isEmpty_iff.mpr hnil)
      have hlength := (items.filter_append_perm (ready needs done)).length_eq
      rw [List.length_append] at hlength
      omega

/-! ## Circles -/

/-- **Items that are stuck need each other in a circle**, if every key is given by somebody. -/
theorem cyclic_of_left (hbound : items.length ≤ bound)
    (hgiven : ∀ item ∈ items, needs item ⊆ given gives items)
    (hleft : (run needs gives bound ∅ items).2 ≠ []) : Cyclic needs gives items := by
  by_contra hacyclic
  have hperm : ((run needs gives bound ∅ items).1 ++ (run needs gives bound ∅ items).2).Perm
      items := run_perm
  -- what is stuck needs something that is stuck
  have hnext : ∀ a ∈ (run needs gives bound ∅ items).2,
      ∃ b ∈ (run needs gives bound ∅ items).2, Needs needs gives items a b := by
    intro a ha
    have hitem := hperm.mem_iff.mp (List.mem_append_right _ ha)
    have hstuck := not_ready_of_left hbound ha
    rw [Finset.empty_union, Bool.eq_false_iff, ne_eq, ready_iff, Finset.not_subset] at hstuck
    obtain ⟨key, hkey, hmissing⟩ := hstuck
    obtain ⟨b, hb, hgives⟩ := mem_given.mp (hgiven a hitem hkey)
    refine ⟨b, ?_, hitem, hb, key, hkey, hgives⟩
    rcases List.mem_append.mp (hperm.mem_iff.mpr hb) with htaken | hleft
    · exact absurd (mem_given.mpr ⟨b, htaken, hgives⟩) hmissing
    · exact hleft
  have hfinite : Finite {a // a ∈ (run needs gives bound ∅ items).2} :=
    (List.finite_toSet (run needs gives bound ∅ items).2).to_subtype
  have htrans : IsTrans {a // a ∈ (run needs gives bound ∅ items).2}
      fun a b => Relation.TransGen (Needs needs gives items) b.1 a.1 :=
    ⟨fun _ _ _ hab hbc => hbc.trans hab⟩
  have hirrefl : Std.Irrefl fun a b : {a // a ∈ (run needs gives bound ∅ items).2} =>
      Relation.TransGen (Needs needs gives items) b.1 a.1 := ⟨fun a ha => hacyclic ⟨a.1, ha⟩⟩
  obtain ⟨a, ha⟩ := List.exists_mem_of_ne_nil _ hleft
  obtain ⟨m, -, hmin⟩ := (Finite.wellFounded_of_trans_of_irrefl
    fun a b : {a // a ∈ (run needs gives bound ∅ items).2} =>
      Relation.TransGen (Needs needs gives items) b.1 a.1).has_min Set.univ ⟨⟨a, ha⟩, trivial⟩
  obtain ⟨b, hb, hneeds⟩ := hnext m.1 m.2
  exact hmin ⟨b, hb⟩ trivial (.single hneeds)

theorem exists_first {P : α → Prop} (h : ∃ a ∈ items, P a) :
    ∃ before a after, items = before ++ a :: after ∧ P a ∧ ∀ b ∈ before, ¬ P b := by
  classical
  obtain ⟨a, ha, hP⟩ := h
  have hsome : (items.find? (P ·)).isSome :=
    List.find?_isSome.mpr ⟨a, ha, decide_eq_true hP⟩
  obtain ⟨first, hfirst⟩ := Option.isSome_iff_exists.mp hsome
  obtain ⟨hP, before, after, hsplit, hbefore⟩ := List.find?_eq_some_iff_append.mp hfirst
  exact ⟨before, first, after, hsplit, of_decide_eq_true hP, by simpa using hbefore⟩

/-- Items that are in order do not need each other in a circle, if no key is given twice. -/
theorem not_cyclic_of_inOrder (hperm : sorted.Perm items)
    (honce : ∀ a ∈ items, ∀ b ∈ items, ∀ key, gives a = some key → gives b = some key → a = b)
    (h : InOrder needs gives ∅ sorted) : ¬ Cyclic needs gives items := by
  rintro ⟨a, hcircle⟩
  have hmem : ∀ {c}, Relation.TransGen (Needs needs gives items) c c → c ∈ sorted := by
    intro c hc
    obtain ⟨d, hneeds, -⟩ := Relation.TransGen.head'_iff.mp hc
    exact hperm.mem_iff.mpr hneeds.1
  obtain ⟨before, first, after, rfl, hfirst, hnone⟩ := exists_first
    (P := fun c => Relation.TransGen (Needs needs gives items) c c) ⟨a, hmem hcircle, hcircle⟩
  -- the first item on a circle needs a key of another one on it, which comes before
  obtain ⟨next, hneeds, hback⟩ := Relation.TransGen.head'_iff.mp hfirst
  have hcircle' := Relation.TransGen.tail' hback hneeds
  obtain ⟨-, hnext, key, hkey, hgives⟩ := hneeds
  have hready := (inOrder_append.mp h).2.1
  rw [Finset.empty_union] at hready
  obtain ⟨giver, hgiver, hgives'⟩ := mem_given.mp (hready hkey)
  have hsame := honce giver (hperm.mem_iff.mp (List.mem_append_left _ hgiver)) next hnext key
    hgives' hgives
  subst hsame
  exact hnone giver hgiver hcircle'

/-- **Some item is stuck exactly when the items need each other in a circle.** -/
theorem run_stuck_iff (hbound : items.length ≤ bound)
    (hgiven : ∀ item ∈ items, needs item ⊆ given gives items)
    (honce : ∀ a ∈ items, ∀ b ∈ items, ∀ key, gives a = some key → gives b = some key → a = b) :
    (run needs gives bound ∅ items).2 ≠ [] ↔ Cyclic needs gives items := by
  refine ⟨cyclic_of_left hbound hgiven, fun hcyclic hnil => ?_⟩
  have hperm : ((run needs gives bound ∅ items).1 ++ (run needs gives bound ∅ items).2).Perm
      items := run_perm
  rw [hnil, List.append_nil] at hperm
  exact not_cyclic_of_inOrder hperm honce inOrder_run hcyclic

/-! ## The greedy order -/

theorem greedy_cons_iff : Greedy needs gives done items (item :: sorted) ↔
    ∃ before after, items = before ++ item :: after ∧
      (∀ other ∈ before, ready needs done other = false) ∧ ready needs done item = true ∧
        Greedy needs gives (done ∪ given gives [item]) (before ++ after) sorted := by
  constructor
  · intro h
    cases h with
    | cons waiting free rest => exact ⟨_, _, rfl, waiting, free, rest⟩
  · rintro ⟨before, after, rfl, waiting, free, rest⟩
    exact .cons waiting free rest

/-- The greedy order takes an item exactly when nothing before it is ready. -/
theorem greedy_split {base : Finset κ} (hsub : base ⊆ done)
    (hbefore : ∀ other ∈ before, ready needs base other = false)
    (hitem : ready needs base item = true) :
    Greedy needs gives done (before ++ item :: after) (item :: sorted) ↔
      (∀ other ∈ before, ready needs done other = false) ∧
        Greedy needs gives (done ∪ given gives [item]) (before ++ after) sorted := by
  have hfree := ready_mono hsub hitem
  rw [greedy_cons_iff]
  constructor
  · rintro ⟨before', after', hsplit, waiting, -, rest⟩
    rcases List.append_eq_append_iff.mp hsplit with ⟨l, rfl, hl⟩ | ⟨l, rfl, hl⟩
    · cases l with
      | nil =>
        obtain ⟨-, rfl⟩ := List.cons.inj hl
        rw [List.append_nil] at waiting rest
        exact ⟨waiting, rest⟩
      | cons c l =>
        -- the item would be one of those before it that are not ready
        obtain ⟨rfl, -⟩ := List.cons.inj hl
        have hnot := waiting item (List.mem_append_right _ List.mem_cons_self)
        rw [hfree] at hnot
        cases hnot
    · cases l with
      | nil =>
        obtain ⟨-, rfl⟩ := List.cons.inj hl
        rw [List.append_nil] at hbefore ⊢
        exact ⟨waiting, rest⟩
      | cons c l =>
        obtain ⟨rfl, -⟩ := List.cons.inj hl
        have hnot := hbefore item (List.mem_append_right _ List.mem_cons_self)
        rw [hitem] at hnot
        cases hnot
  · rintro ⟨waiting, rest⟩
    exact ⟨before, after, rfl, waiting, hfree, rest⟩

/-- **One round is greedy** where no item becomes ready before the turn of a later item that was
ready when the round began. -/
theorem greedy_round (before current : List α) {base : Finset κ} (hsub : base ⊆ done)
    (hbefore : ∀ other ∈ before, ready needs base other = false) :
    Greedy needs gives done (before ++ current) (current.filter (ready needs base) ++ sorted) ↔
      (∀ l item l', current = l ++ item :: l' → ready needs base item = true →
        ∀ other ∈ before ++ l, ready needs base other = false →
          ready needs (done ∪ given gives (l.filter (ready needs base))) other = false) ∧
      Greedy needs gives (done ∪ given gives (current.filter (ready needs base)))
        (before ++ current.filter (!ready needs base ·)) sorted := by
  induction current generalizing before done with
  | nil => simp
  | cons c current ih =>
    cases hc : ready needs base c with
    | true =>
      rw [List.filter_cons_of_pos hc, List.filter_cons_of_neg (by simp [hc]), List.cons_append,
        greedy_split hsub hbefore hc, ih before (hsub.trans Finset.subset_union_left) hbefore,
        given_cons c (current.filter _), ← Finset.union_assoc, ← and_assoc]
      refine and_congr_left fun _ => ⟨?_, fun h => ⟨fun other hother => ?_, ?_⟩⟩
      · rintro ⟨hnow, hlater⟩ l item l' hsplit hitem other hother hnot
        cases l with
        | nil =>
          rw [List.filter_nil, given_nil, Finset.union_empty]
          exact hnow other (by simpa using hother)
        | cons d l =>
          obtain ⟨rfl, rfl⟩ := List.cons.inj hsplit
          rw [List.filter_cons_of_pos hc, given_cons, ← Finset.union_assoc]
          refine hlater l item l' rfl hitem other ?_ hnot
          rcases List.mem_append.mp hother with hother | hother
          · exact List.mem_append_left _ hother
          rcases List.mem_cons.mp hother with rfl | hother
          · rw [hc] at hnot
            cases hnot
          · exact List.mem_append_right _ hother
      · have hfirst := h [] c current rfl hc other (List.mem_append_left _ hother)
          (hbefore other hother)
        rwa [List.filter_nil, given_nil, Finset.union_empty] at hfirst
      · intro l item l' hsplit hitem other hother hnot
        have hnext := h (c :: l) item l' (by rw [hsplit]; rfl) hitem other
          (by
            rcases List.mem_append.mp hother with hother | hother
            · exact List.mem_append_left _ hother
            · exact List.mem_append_right _ (List.mem_cons_of_mem _ hother)) hnot
        rwa [List.filter_cons_of_pos hc, given_cons, ← Finset.union_assoc] at hnext
    | false =>
      have hbefore' : ∀ other ∈ before ++ [c], ready needs base other = false := by
        intro other hother
        rcases List.mem_append.mp hother with hother | hother
        · exact hbefore other hother
        · rw [List.mem_singleton.mp hother]
          exact hc
      rw [List.filter_cons_of_neg (by simp [hc]), List.filter_cons_of_pos (by simp [hc]),
        List.append_cons before c current, ih (before ++ [c]) hsub hbefore', ← List.append_cons]
      refine and_congr_left fun _ => ⟨fun h => ?_, fun h => ?_⟩
      · intro l item l' hsplit hitem other hother hnot
        cases l with
        | nil =>
          obtain ⟨rfl, -⟩ := List.cons.inj hsplit
          rw [hc] at hitem
          cases hitem
        | cons d l =>
          obtain ⟨rfl, rfl⟩ := List.cons.inj hsplit
          rw [List.filter_cons_of_neg (by simp [hc])]
          exact h l item l' rfl hitem other (by simpa using hother) hnot
      · intro l item l' hsplit hitem other hother hnot
        have hnext := h (c :: l) item l' (by rw [hsplit]; rfl) hitem other
          (by simpa using hother) hnot
        rwa [List.filter_cons_of_neg (by simp [hc])] at hnext

/-! ## Levels -/

/-- The item is not ready before this round over all the items. -/
def waits (needs : α → Finset κ) (gives : α → Option κ) (items : List α) : Nat → α → Bool
  | 0, _ => true
  | n + 1, item => !ready needs (settled needs gives items n) item

/-- The items that are left after some rounds over all of them. -/
def left (needs : α → Finset κ) (gives : α → Option κ) (items : List α) (n : Nat) : List α :=
  items.filter (waits needs gives items n)

/-- The longest chain of items that need each other, from this one on, has this many links. -/
def Level (needs : α → Finset κ) (gives : α → Option κ) (items : List α) (n : Nat) (item : α) :
    Prop :=
  ready needs (settled needs gives items n) item = true ∧
    ∀ m < n, ready needs (settled needs gives items m) item = false

theorem settled_subset (n : Nat) :
    settled needs gives items n ⊆ settled needs gives items (n + 1) := by
  induction n with
  | zero => exact Finset.empty_subset _
  | succ n ih =>
    refine given_subset fun item hitem => ?_
    obtain ⟨hmem, hready⟩ := List.mem_filter.mp hitem
    exact List.mem_filter.mpr ⟨hmem, ready_mono ih hready⟩

theorem settled_mono {m n : Nat} (h : m ≤ n) :
    settled needs gives items m ⊆ settled needs gives items n :=
  monotone_nat_of_le_succ settled_subset h

theorem waits_iff {n : Nat} : waits needs gives items n item = true ↔
    ∀ m < n, ready needs (settled needs gives items m) item = false := by
  cases n with
  | zero => simp [waits]
  | succ n =>
    rw [waits, Bool.not_eq_true']
    refine ⟨fun h m hm => ?_, fun h => h n (Nat.lt_succ_self n)⟩
    exact not_ready_mono (settled_mono (Nat.le_of_lt_succ hm)) h

theorem mem_left {n : Nat} : item ∈ left needs gives items n ↔
    item ∈ items ∧ ∀ m < n, ready needs (settled needs gives items m) item = false := by
  rw [left, List.mem_filter, waits_iff]

@[simp] theorem left_zero : left needs gives items 0 = items :=
  List.filter_eq_self.mpr fun _ _ => rfl

theorem left_succ (n : Nat) : left needs gives items (n + 1) =
    (left needs gives items n).filter (!ready needs (settled needs gives items n) ·) := by
  rw [left, left, List.filter_filter]
  refine List.filter_congr fun item _ => ?_
  rw [waits]
  cases hready : ready needs (settled needs gives items n) item with
  | true => rfl
  | false =>
    have hwaits : waits needs gives items n item = true :=
      waits_iff.mpr fun m hm => not_ready_mono (settled_mono hm.le) hready
    rw [hwaits]
    rfl

theorem left_eq_nil_of_le {m n : Nat} (hmn : m ≤ n) (h : left needs gives items m = []) :
    left needs gives items n = [] := by
  refine List.eq_nil_iff_forall_not_mem.mpr fun item hitem => ?_
  obtain ⟨hmem, hwaits⟩ := mem_left.mp hitem
  have hearlier : item ∈ left needs gives items m :=
    mem_left.mpr ⟨hmem, fun k hk => hwaits k (hk.trans_le hmn)⟩
  rw [h] at hearlier
  cases hearlier

/-- What an item that does not wait gives is there. -/
theorem mem_settled_of_not_waits {n : Nat} (hitem : item ∈ items)
    (hwaits : waits needs gives items n item = false) (hgives : gives item = some key) :
    key ∈ settled needs gives items n := by
  rw [← Bool.not_eq_true, waits_iff] at hwaits
  push Not at hwaits
  obtain ⟨m, hm, hready⟩ := hwaits
  rw [ne_eq, Bool.not_eq_false] at hready
  refine settled_mono (Nat.succ_le_of_lt hm) ?_
  exact mem_given.mpr ⟨item, List.mem_filter.mpr ⟨hitem, hready⟩, hgives⟩

/-- The keys of the items that were ready before are there already. -/
theorem settled_succ (n : Nat) : settled needs gives items (n + 1) =
    settled needs gives items n ∪ given gives
      ((left needs gives items n).filter (ready needs (settled needs gives items n))) := by
  refine Finset.Subset.antisymm (fun key hkey => ?_) (Finset.union_subset (settled_subset n) ?_)
  · obtain ⟨item, hitem, hgives⟩ := mem_given.mp hkey
    obtain ⟨hmem, hready⟩ := List.mem_filter.mp hitem
    cases hwaits : waits needs gives items n item with
    | false => exact Finset.mem_union_left _ (mem_settled_of_not_waits hmem hwaits hgives)
    | true =>
      have hleft := List.mem_filter.mpr ⟨hmem, hwaits⟩
      exact Finset.mem_union_right _
        (mem_given.mpr ⟨item, List.mem_filter.mpr ⟨hleft, hready⟩, hgives⟩)
  · refine given_subset fun item hitem => ?_
    obtain ⟨hleft, hready⟩ := List.mem_filter.mp hitem
    exact List.mem_filter.mpr ⟨(mem_left.mp hleft).1, hready⟩

/-- **An item overtakes an earlier one** that is one level deeper, and needs no item of its level
that comes after it. -/
def Overtakes (needs : α → Finset κ) (gives : α → Option κ) (items : List α) : Prop :=
  ∃ n before item after other, items = before ++ item :: after ∧ Level needs gives items n item ∧
    other ∈ before ∧ Level needs gives items (n + 1) other ∧
    needs other ⊆ settled needs gives items n ∪
      given gives (before.filter (ready needs (settled needs gives items n)))

/-- No item of a round becomes ready before the turn of a later one that was ready when the round
began. -/
def KeepsTurns (needs : α → Finset κ) (gives : α → Option κ) (items : List α) (n : Nat) : Prop :=
  ∀ l item l', left needs gives items n = l ++ item :: l' →
    ready needs (settled needs gives items n) item = true → ∀ other ∈ l,
      ready needs (settled needs gives items n) other = false →
        ready needs (settled needs gives items n ∪
          given gives (l.filter (ready needs (settled needs gives items n)))) other = false

theorem keepsTurns_of_left_eq_nil {n : Nat} (h : left needs gives items n = []) :
    KeepsTurns needs gives items n := by
  intro l item l' hsplit
  rw [h] at hsplit
  exact absurd hsplit.symm (List.append_ne_nil_of_right_ne_nil _ (List.cons_ne_nil _ _))

theorem greedy_left (n : Nat) : Greedy needs gives (settled needs gives items n)
    (left needs gives items n)
    ((left needs gives items n).filter (ready needs (settled needs gives items n)) ++ sorted) ↔
      KeepsTurns needs gives items n ∧ Greedy needs gives (settled needs gives items (n + 1))
        (left needs gives items (n + 1)) sorted := by
  rw [settled_succ, left_succ]
  exact greedy_round [] (left needs gives items n) (Finset.Subset.refl _) (by simp)

theorem greedy_left_nil {k : Nat} (hnil : left needs gives items k = []) :
    Greedy needs gives (settled needs gives items k) (left needs gives items k) [] ↔
      ∀ n, k ≤ n → KeepsTurns needs gives items n := by
  rw [hnil]
  exact iff_of_true (.nil _) fun n hn => keepsTurns_of_left_eq_nil (left_eq_nil_of_le hn hnil)

/-- **Rounds that keep turns are greedy**, from any round on. -/
theorem greedy_run {k : Nat}
    (h : (run needs gives bound (settled needs gives items k) (left needs gives items k)).2 = []) :
    Greedy needs gives (settled needs gives items k) (left needs gives items k)
        (run needs gives bound (settled needs gives items k) (left needs gives items k)).1 ↔
      ∀ n, k ≤ n → KeepsTurns needs gives items n := by
  induction bound generalizing k with
  | zero => exact greedy_left_nil h
  | succ bound ih =>
    by_cases hready :
        ((left needs gives items k).filter (ready needs (settled needs gives items k))).isEmpty
    · rw [run_of_isEmpty hready] at h ⊢
      exact greedy_left_nil h
    · rw [run_succ hready] at h ⊢
      rw [← settled_succ, ← left_succ] at h ⊢
      rw [greedy_left, ih h]
      constructor
      · rintro ⟨hnow, hlater⟩ n hn
        rcases hn.eq_or_lt with rfl | hlt
        · exact hnow
        · exact hlater n hlt
      · exact fun hall => ⟨hall k le_rfl, fun n hn => hall n (Nat.le_of_succ_le hn)⟩

/-- **The rounds are the greedy order** where no item overtakes another. -/
theorem greedy_run_iff (h : (run needs gives bound ∅ items).2 = []) :
    Greedy needs gives ∅ items (run needs gives bound ∅ items).1 ↔
      ¬ Overtakes needs gives items := by
  have hrun : Greedy needs gives (settled needs gives items 0) (left needs gives items 0)
      (run needs gives bound (settled needs gives items 0) (left needs gives items 0)).1 ↔
        ∀ n, 0 ≤ n → KeepsTurns needs gives items n := greedy_run (by rwa [left_zero])
  rw [left_zero] at hrun
  refine hrun.trans ⟨fun hkeeps => ?_, fun hnone n _ => ?_⟩
  · rintro ⟨n, before, item, after, other, rfl, hlevel, hother, hdeeper, hneeds⟩
    have hsplit : left needs gives (before ++ item :: after) n =
        before.filter (waits needs gives (before ++ item :: after) n) ++
          item :: after.filter (waits needs gives (before ++ item :: after) n) := by
      rw [left, List.filter_append, List.filter_cons_of_pos (waits_iff.mpr hlevel.2)]
    have hmem : other ∈ before.filter (waits needs gives (before ++ item :: after) n) :=
      List.mem_filter.mpr ⟨hother, waits_iff.mpr fun m hm =>
        hdeeper.2 m (hm.trans (Nat.lt_succ_self n))⟩
    have hnot := hkeeps n (Nat.zero_le n) _ _ _ hsplit hlevel.1 other hmem
      (hdeeper.2 n (Nat.lt_succ_self n))
    rw [Bool.eq_false_iff, ne_eq, ready_iff] at hnot
    refine hnot (hneeds.trans (Finset.union_subset Finset.subset_union_left fun key hkey => ?_))
    obtain ⟨giver, hgiver, hgives⟩ := mem_given.mp hkey
    obtain ⟨hbefore, hready⟩ := List.mem_filter.mp hgiver
    cases hwaits : waits needs gives (before ++ item :: after) n giver with
    | false =>
      exact Finset.mem_union_left _
        (mem_settled_of_not_waits (List.mem_append_left _ hbefore) hwaits hgives)
    | true =>
      refine Finset.mem_union_right _ (mem_given.mpr ⟨giver, ?_, hgives⟩)
      exact List.mem_filter.mpr ⟨List.mem_filter.mpr ⟨hbefore, hwaits⟩, hready⟩
  · intro l item l' hsplit hready other hother hwaiting
    obtain ⟨first, second, rfl, rfl, hsecond⟩ := List.filter_eq_append_iff.mp hsplit
    obtain ⟨between, after, rfl, hbetween, hitem, -⟩ := List.filter_eq_cons_iff.mp hsecond
    obtain ⟨hfirst, hwaits⟩ := List.mem_filter.mp hother
    rw [Bool.eq_false_iff, ne_eq, ready_iff]
    intro hneeds
    have hgiven : given gives ((first.filter (waits needs gives
          (first ++ (between ++ item :: after)) n)).filter
          (ready needs (settled needs gives (first ++ (between ++ item :: after)) n))) ⊆
        given gives ((first ++ between).filter
          (ready needs (settled needs gives (first ++ (between ++ item :: after)) n))) := by
      refine given_subset fun giver hgiver => ?_
      obtain ⟨hgiver, hready⟩ := List.mem_filter.mp hgiver
      exact List.mem_filter.mpr
        ⟨List.mem_append_left _ (List.mem_filter.mp hgiver).1, hready⟩
    refine hnone ⟨n, first ++ between, item, after, other, by rw [List.append_assoc],
      ⟨hready, waits_iff.mp hitem⟩, List.mem_append_left _ hfirst, ⟨?_, fun m hm => ?_⟩,
      hneeds.trans (Finset.union_subset_union_right hgiven)⟩
    · refine ready_iff.mpr (hneeds.trans (Finset.union_subset (settled_subset n) ?_))
      refine hgiven.trans (given_subset fun giver hgiver => ?_)
      obtain ⟨hgiver, hready⟩ := List.mem_filter.mp hgiver
      refine List.mem_filter.mpr ⟨?_, hready⟩
      rw [← List.append_assoc]
      exact List.mem_append_left _ hgiver
    · rcases Nat.lt_succ_iff_lt_or_eq.mp hm with hm | rfl
      · exact waits_iff.mp hwaits m hm
      · exact hwaiting

end Rounds
end Lib
end CampusID
