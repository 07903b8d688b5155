import CampusID.Lib.Interleaving
import Mathlib.Data.List.Nodup
import Mathlib.Data.List.Pairwise

/-!
# Transactions at the read-committed level

A table of keyed rows under any number of transactions, each statement atomic.  A statement
sees what is committed and what its own transaction has written.  An update locks the rows it
hits until its transaction ends: while another transaction holds one of them, it waits, and it
looks at the rows again when it goes on.  What a transaction wrote is published by its commit.

The log is every version that was ever published, in commit order, with its transaction; the
rows that were there at the start are versions of nobody.

* `Exclusive` --- no row is held by two transactions.
* `Ledger` --- the row that is there is above every version published of it, in an order of
  the user's.  A commit keeps it if it publishes above the rows that are there
  (`Ledger.commit`), and what it publishes need only be compared with those rows, not with
  everything published before (`Ledger.pairwise_commit`).
-/

namespace CampusID
namespace Lib
namespace ReadCommitted

/-- A table: the key of a row, what the queries select, what the updates hit and what they
make of it. -/
structure Schema (K V Q U : Type) where
  key : V → K
  selects : Q → V → Bool
  hits : U → V → Bool
  set : U → V → V
  key_set : ∀ u v, key (set u v) = key v

/-- A statement. -/
inductive Stmt (V Q U : Type) where
  | select (q : Q)
  | update (u : U)
  | insert (rows : List V)
  | commit
  | rollback
  deriving DecidableEq

/-- What a statement answers: an update, how many rows it hit. -/
abbrev Stmt.Answer {V Q U : Type} : Stmt V Q U → Type
  | .select _ => List V
  | .update _ => Nat
  | .insert _ => Unit
  | .commit => Unit
  | .rollback => Unit

/-- A statement and its transaction. -/
abbrev Command (X V Q U : Type) := X × Stmt V Q U

/-- A program of statements. -/
abbrev Program (X V Q U α : Type) := Prog (Command X V Q U) (fun c => c.2.Answer) α

/-- The committed rows, the versions written and not committed, and the versions committed. -/
structure Db (X V : Type) where
  rows : List V
  pending : List (X × V)
  log : List (Option X × V)

namespace Db

variable {K X V Q U : Type} [DecidableEq K] [DecidableEq X] (σ : Schema K V Q U)

/-- A table before any transaction. -/
def start (rows : List V) : Db X V := ⟨rows, [], rows.map fun v => (none, v)⟩

/-- A row replaces the one with its key, or comes last. -/
def put (rows : List V) (v : V) : List V :=
  if ∃ r ∈ rows, σ.key r = σ.key v then rows.map fun r => if σ.key r = σ.key v then v else r
  else rows ++ [v]

/-- The versions a transaction has written, in order. -/
def own (db : Db X V) (x : X) : List V := (db.pending.filter (·.1 = x)).map Prod.snd

/-- The rows as a transaction sees them. -/
def view (db : Db X V) (x : X) : List V := (db.own x).foldl (put σ) db.rows

/-- A version goes from its transaction to everybody. -/
def publish (x : X) (db : Db X V) (v : V) : Db X V :=
  { db with rows := put σ db.rows v, log := db.log ++ [(some x, v)] }

/-- What a transaction has written is dropped. -/
def drop (db : Db X V) (x : X) : Db X V := { db with pending := db.pending.filter (·.1 ≠ x) }

/-- What a transaction has written is published. -/
def committed (db : Db X V) (x : X) : Db X V := ((db.own x).foldl (publish σ x) db).drop x

/-- One statement. -/
def exec : (c : Command X V Q U) → Db X V → c.2.Answer × Db X V
  | (x, .select q), db => ((db.view σ x).filter (σ.selects q), db)
  | (x, .update u), db =>
    (((db.view σ x).filter (σ.hits u)).length,
      { db with pending := db.pending ++
          ((db.view σ x).filter (σ.hits u)).map fun v => (x, σ.set u v) })
  | (x, .insert rows), db => ((), { db with pending := db.pending ++ rows.map fun v => (x, v) })
  | (x, .commit), db => ((), db.committed σ x)
  | (x, .rollback), db => ((), db.drop x)

/-- Another transaction holds the row with this key. -/
def Held (db : Db X V) (x : X) (k : K) : Prop := ∃ e ∈ db.pending, e.1 ≠ x ∧ σ.key e.2 = k

/-- The statement does not go through as things are: an update that would hit a row another
transaction holds, an insert of a key that is taken. -/
def Blocked (db : Db X V) : Command X V Q U → Prop
  | (x, .update u) => ∃ v ∈ db.view σ x, σ.hits u v = true ∧ db.Held σ x (σ.key v)
  | (_, .insert rows) => ¬ (rows.map σ.key).Nodup ∨
    ∃ v ∈ rows, (∃ e ∈ db.pending, σ.key e.2 = σ.key v) ∨ ∃ r ∈ db.rows, σ.key r = σ.key v
  | _ => False

instance (db : Db X V) (x : X) (k : K) : Decidable (db.Held σ x k) :=
  inferInstanceAs (Decidable (∃ e ∈ db.pending, e.1 ≠ x ∧ σ.key e.2 = k))

instance (db : Db X V) : (c : Command X V Q U) → Decidable (db.Blocked σ c)
  | (x, .update u) =>
    inferInstanceAs (Decidable (∃ v ∈ db.view σ x, σ.hits u v = true ∧ db.Held σ x (σ.key v)))
  | (_, .insert rows) => inferInstanceAs (Decidable (¬ (rows.map σ.key).Nodup ∨ ∃ v ∈ rows,
      (∃ e ∈ db.pending, σ.key e.2 = σ.key v) ∨ ∃ r ∈ db.rows, σ.key r = σ.key v))
  | (_, .select _) => .isFalse id
  | (_, .commit) => .isFalse id
  | (_, .rollback) => .isFalse id

/-! ## Rows -/

variable {σ}

theorem mem_put {rows : List V} {v r : V} :
    r ∈ put σ rows v ↔ r = v ∨ (r ∈ rows ∧ σ.key r ≠ σ.key v) := by
  unfold put
  split_ifs with h
  · rw [List.mem_map]
    constructor
    · rintro ⟨r', hr', hif⟩
      split_ifs at hif with hk
      · exact .inl hif.symm
      · subst hif
        exact .inr ⟨hr', hk⟩
    · rintro (rfl | ⟨hr, hk⟩)
      · obtain ⟨r', hr', hk⟩ := h
        exact ⟨r', hr', if_pos hk⟩
      · exact ⟨r, hr, if_neg hk⟩
  · rw [List.mem_append, List.mem_singleton, or_comm]
    refine or_congr_right ⟨fun hr => ⟨hr, fun hk => h ⟨r, hr, hk⟩⟩, And.left⟩

theorem mem_foldl_put {vs : List V} (hkeys : (vs.map σ.key).Nodup) {rows : List V} {r : V} :
    r ∈ vs.foldl (put σ) rows ↔ r ∈ vs ∨ (r ∈ rows ∧ ∀ v ∈ vs, σ.key r ≠ σ.key v) := by
  induction vs generalizing rows with
  | nil => simp
  | cons v vs ih =>
    obtain ⟨hv, hvs⟩ := List.nodup_cons.mp hkeys
    rw [List.foldl_cons, ih hvs, mem_put]
    constructor
    · rintro (hr | ⟨rfl | ⟨hr, hne⟩, hall⟩)
      · exact .inl (List.mem_cons_of_mem v hr)
      · exact .inl List.mem_cons_self
      · exact .inr ⟨hr, List.forall_mem_cons.mpr ⟨hne, hall⟩⟩
    · rintro (hr | ⟨hr, hall⟩)
      · rcases List.mem_cons.mp hr with rfl | hr
        · exact .inr ⟨.inl rfl, fun w hw hk => hv (hk ▸ List.mem_map_of_mem hw)⟩
        · exact .inl hr
      · obtain ⟨hne, hall⟩ := List.forall_mem_cons.mp hall
        exact .inr ⟨.inr ⟨hr, hne⟩, hall⟩

theorem mem_own {db : Db X V} {x : X} {v : V} : v ∈ db.own x ↔ (x, v) ∈ db.pending := by
  simp [own]

theorem own_eq_nil {db : Db X V} {x : X} (h : ∀ e ∈ db.pending, e.1 ≠ x) : db.own x = [] := by
  rw [own, List.map_eq_nil_iff, List.filter_eq_nil_iff]
  intro e he
  simpa using h e he

/-- A transaction that has written nothing sees what is committed. -/
theorem view_of_own_eq_nil {db : Db X V} {x : X} (h : db.own x = []) : db.view σ x = db.rows := by
  rw [view, h, List.foldl_nil]

section Publishing

variable {db : Db X V} {x : X} {vs : List V}

omit [DecidableEq X] in
theorem foldl_publish_log (vs : List V) (db : Db X V) :
    (vs.foldl (publish σ x) db).log = db.log ++ vs.map fun v => (some x, v) := by
  induction vs generalizing db with
  | nil => simp
  | cons v vs ih => simp [ih, publish]

omit [DecidableEq X] in
theorem foldl_publish_rows (vs : List V) (db : Db X V) :
    (vs.foldl (publish σ x) db).rows = vs.foldl (put σ) db.rows := by
  induction vs generalizing db with
  | nil => rfl
  | cons v vs ih => exact ih _

omit [DecidableEq X] in
theorem foldl_publish_pending (vs : List V) (db : Db X V) :
    (vs.foldl (publish σ x) db).pending = db.pending := by
  induction vs generalizing db with
  | nil => rfl
  | cons v vs ih => exact ih _

@[simp] theorem committed_log : (db.committed σ x).log =
    db.log ++ (db.own x).map fun v => (some x, v) :=
  foldl_publish_log _ _

@[simp] theorem committed_rows : (db.committed σ x).rows = db.view σ x :=
  foldl_publish_rows _ _

@[simp] theorem committed_pending :
    (db.committed σ x).pending = db.pending.filter (·.1 ≠ x) := by
  rw [committed, drop, foldl_publish_pending]

end Publishing

omit [DecidableEq X] in
theorem earlier_or_later {log : List (Option X × V)}
    {ordered : Option X × V → Option X × V → Prop}
    (h : log.Pairwise ordered) {a b : Option X × V} (ha : a ∈ log) (hb : b ∈ log) (hne : a ≠ b) :
    ordered a b ∨ ordered b a := by
  have hsymm : Std.Symm fun a b => ordered a b ∨ ordered b a := ⟨fun _ _ => Or.symm⟩
  have hboth : log.Pairwise fun a b => ordered a b ∨ ordered b a := h.imp Or.inl
  exact hboth.forall ha hb hne

theorem pair_sublist_append {β : Type} {log news : List β} {a b : β}
    (h : [a, b].Sublist (log ++ news)) :
    [a, b].Sublist log ∨ (a ∈ log ∧ b ∈ news) ∨ (a ∈ news ∧ b ∈ news) := by
  obtain ⟨before, after, hsplit, hlog, hnews⟩ := List.sublist_append_iff.mp h
  rcases List.cons_eq_append_iff.mp hsplit with ⟨rfl, rfl⟩ | ⟨before, rfl, htail⟩
  · exact .inr (.inr ⟨hnews.mem (.head _), hnews.mem (.tail _ (.head _))⟩)
  rcases List.cons_eq_append_iff.mp htail with ⟨rfl, rfl⟩ | ⟨before, rfl, hlast⟩
  · exact .inr (.inl ⟨hlog.mem (.head _), hnews.mem (.head _)⟩)
  · obtain ⟨rfl, rfl⟩ := List.nil_eq_append_iff.mp hlast
    exact .inl hlog

/-- Three entries of a log that has grown, in order. -/
theorem triple_sublist_append {β : Type} {log news : List β} {a b c : β}
    (h : [a, b, c].Sublist (log ++ news)) :
    [a, b, c].Sublist log ∨ ([a, b].Sublist log ∧ c ∈ news) ∨ (b ∈ news ∧ c ∈ news) := by
  obtain ⟨before, after, hsplit, hlog, hnews⟩ := List.sublist_append_iff.mp h
  rcases List.cons_eq_append_iff.mp hsplit with ⟨rfl, rfl⟩ | ⟨before, rfl, htail⟩
  · exact .inr (.inr ⟨hnews.mem (by simp), hnews.mem (by simp)⟩)
  rcases List.cons_eq_append_iff.mp htail with ⟨rfl, rfl⟩ | ⟨before, rfl, hlast⟩
  · exact .inr (.inr ⟨hnews.mem (by simp), hnews.mem (by simp)⟩)
  rcases List.cons_eq_append_iff.mp hlast with ⟨rfl, rfl⟩ | ⟨before, rfl, hnil⟩
  · exact .inr (.inl ⟨hlog, hnews.mem (.head _)⟩)
  · obtain ⟨rfl, rfl⟩ := List.nil_eq_append_iff.mp hnil
    exact .inl hlog

/-! ## Locks -/

variable (σ) in
/-- No row is held by two transactions. -/
def Exclusive (db : Db X V) : Prop :=
  ∀ a ∈ db.pending, ∀ b ∈ db.pending, σ.key a.2 = σ.key b.2 → a.1 = b.1

omit [DecidableEq K] [DecidableEq X] in
theorem exclusive_start (rows : List V) : Exclusive σ (start rows : Db X V) := by
  rintro a ha
  cases ha

omit [DecidableEq K] [DecidableEq X] in
theorem Exclusive.of_subset {db db' : Db X V} (h : db.Exclusive σ)
    (hsub : ∀ e ∈ db'.pending, e ∈ db.pending) : db'.Exclusive σ :=
  fun a ha b hb => h a (hsub a ha) b (hsub b hb)

omit [DecidableEq K] in
/-- **New versions of one transaction on rows nobody else holds.** -/
theorem Exclusive.write {db : Db X V} (h : db.Exclusive σ) {x : X} {vs : List V}
    (hfree : ∀ v ∈ vs, ¬ db.Held σ x (σ.key v)) :
    Exclusive σ { db with pending := db.pending ++ vs.map fun v => (x, v) } := by
  have hone : ∀ a ∈ db.pending, ∀ v ∈ vs, σ.key a.2 = σ.key v → a.1 = x := by
    intro a ha v hv hk
    by_contra hne
    exact hfree v hv ⟨a, ha, hne, hk⟩
  intro a ha b hb hk
  simp only [List.mem_append, List.mem_map] at ha hb
  rcases ha with ha | ⟨v, hv, rfl⟩
  · rcases hb with hb | ⟨w, hw, rfl⟩
    · exact h a ha b hb hk
    · exact hone a ha w hw hk
  · rcases hb with hb | ⟨w, hw, rfl⟩
    · exact (hone b hb v hv hk.symm).symm
    · rfl

/-! ## Published versions -/

variable (σ) in
/-- Every published version is below the row that is there. -/
def Ledger (le : V → V → Prop) (db : Db X V) : Prop :=
  ∀ e ∈ db.log, ∃ r ∈ db.rows, σ.key r = σ.key e.2 ∧ le e.2 r

section Ledger

variable {le : V → V → Prop} {db : Db X V} {x : X}

omit [DecidableEq K] [DecidableEq X] in
theorem ledger_start (refl : ∀ v, le v v) (rows : List V) : Ledger σ le (start rows : Db X V) := by
  intro e he
  obtain ⟨v, hv, rfl⟩ := List.mem_map.mp he
  exact ⟨v, hv, rfl, refl v⟩

theorem keyed_put {rows : List V} (h : (rows.map σ.key).Nodup) (v : V) :
    ((put σ rows v).map σ.key).Nodup := by
  unfold put
  split_ifs with hex
  · have hmap : (rows.map fun r => if σ.key r = σ.key v then v else r).map σ.key =
        rows.map σ.key := by
      rw [List.map_map]
      refine List.map_congr_left fun r _ => ?_
      simp only [Function.comp_apply]
      split_ifs with hk
      · exact hk.symm
      · rfl
    rwa [hmap]
  · rw [List.map_append, List.map_singleton]
    refine List.nodup_append.mpr ⟨h, List.nodup_singleton _, fun k hk k' hk' hkk => ?_⟩
    obtain ⟨r, hr, rfl⟩ := List.mem_map.mp hk
    exact hex ⟨r, hr, hkk.trans (List.mem_singleton.mp hk')⟩

/-- No two rows share a key after a commit, if none did before. -/
theorem keyed_view (h : (db.rows.map σ.key).Nodup) (x : X) :
    ((db.view σ x).map σ.key).Nodup := by
  unfold view
  generalize db.own x = vs
  generalize db.rows = rows at h
  induction vs generalizing rows with
  | nil => exact h
  | cons v vs ih => exact ih _ (keyed_put h v)

/-- A commit above the rows that are there leaves one above each of them. -/
theorem exists_row_committed (refl : ∀ v, le v v) (hkeys : ((db.own x).map σ.key).Nodup)
    (habove : ∀ v ∈ db.own x, ∀ r ∈ db.rows, σ.key r = σ.key v → le r v) {r : V}
    (hr : r ∈ db.rows) : ∃ r' ∈ (db.committed σ x).rows, σ.key r' = σ.key r ∧ le r r' := by
  rw [committed_rows]
  by_cases hown : ∃ v ∈ db.own x, σ.key r = σ.key v
  · obtain ⟨v, hv, hrv⟩ := hown
    exact ⟨v, (mem_foldl_put hkeys).mpr (.inl hv), hrv.symm, habove v hv r hr hrv⟩
  · exact ⟨r, (mem_foldl_put hkeys).mpr (.inr ⟨hr, fun v hv hrv => hown ⟨v, hv, hrv⟩⟩), rfl, refl r⟩

/-- **A commit above the rows that are there** keeps the ledger. -/
theorem Ledger.commit (trans : ∀ a b c, le a b → le b c → le a c) (refl : ∀ v, le v v)
    (h : db.Ledger σ le) (hkeys : ((db.own x).map σ.key).Nodup)
    (habove : ∀ v ∈ db.own x, ∀ r ∈ db.rows, σ.key r = σ.key v → le r v) :
    (db.committed σ x).Ledger σ le := by
  intro e he
  rw [committed_log, List.mem_append, List.mem_map] at he
  rcases he with he | ⟨v, hv, rfl⟩
  · obtain ⟨r, hr, hk, hle⟩ := h e he
    obtain ⟨r', hr', hk', hle'⟩ := exists_row_committed refl hkeys habove hr
    exact ⟨r', hr', hk'.trans hk, trans _ _ _ hle hle'⟩
  · rw [committed_rows]
    exact ⟨v, (mem_foldl_put hkeys).mpr (.inl hv), rfl, refl v⟩

/-- **What a commit publishes, compared with everything published before.** -/
theorem Ledger.pairwise_commit (h : db.Ledger σ le) {ordered : Option X × V → Option X × V → Prop}
    (hlog : db.log.Pairwise ordered)
    (hown : (db.own x).Pairwise fun v w => ordered (some x, v) (some x, w))
    (habove : ∀ e ∈ db.log, ∀ v ∈ db.own x, ∀ r ∈ db.rows, σ.key r = σ.key e.2 → le e.2 r →
      ordered e (some x, v)) :
    (db.committed σ x).log.Pairwise ordered := by
  rw [committed_log]
  refine List.pairwise_append.mpr ⟨hlog, List.pairwise_map.mpr hown, fun e he e' he' => ?_⟩
  obtain ⟨v, hv, rfl⟩ := List.mem_map.mp he'
  obtain ⟨r, hr, hk, hle⟩ := h e he
  exact habove e he v hv r hr hk hle

end Ledger

end Db

end ReadCommitted
end Lib
end CampusID
