import CampusID.Lib.ReadCommitted
import CampusID.Lib.Runs

/-!
# Pools of transactions

Any number of transactions on one table, one statement at a time.  A transaction is named by
the request it serves, which its statements carry.

`Tidy` is the discipline the programs follow: a transaction updates with empty hands, and once
it has written it commits.  `Sound` is what every possible move keeps then: what a transaction
holds is made from the rows that are there, by an update it has seen hit them, and what it saw
itself write is in the log when it has ended.  Where the updates of a program are `Based` on rows
that it has read, so is what its transaction holds (`Sound.based`).

A property of the rows and the log is kept by a run if the commits keep it
(`run_sound`).
-/

namespace CampusID
namespace Lib
namespace ReadCommitted

variable {K V Q U Req α : Type} [DecidableEq K] [DecidableEq Req]

/-- A pool of transactions over one table. -/
abbrev TxPool (V Q U Req α : Type) :=
  Pool (Command Req V Q U) (fun c => c.2.Answer) Req α Int (Db Req V)

/-- A transaction in progress. -/
abbrev TxThread (V Q U Req α : Type) :=
  Thread (Command Req V Q U) (fun c => c.2.Answer) Req α Int

/-- The statements of transaction `x`, which has written something or not: it updates before it
has, and it commits after. -/
def Tidy (x : Req) : Bool → Program Req V Q U α → Prop
  | written, .pure _ => written = false
  | written, .call (y, .select _) k => y = x ∧ ∀ rows, Tidy x written (k rows)
  | written, .call (y, .update _) k =>
    y = x ∧ written = false ∧ Tidy x false (k 0) ∧ ∀ n, n ≠ 0 → Tidy x true (k n)
  | _, .call (y, .insert _) k => y = x ∧ Tidy x true (k ())
  | _, .call (y, .commit) k => y = x ∧ Tidy x false (k ())
  | written, .call (y, .rollback) k => y = x ∧ written = false ∧ Tidy x false (k ())

/-- A result of `ok` is returned only after an update of transaction `x` that hit something. -/
def Earned (x : Req) (ok : α → Prop) : Bool → Program Req V Q U α → Prop
  | hit, .pure a => ok a → hit = true
  | hit, .call (y, .update _) k => y = x ∧ Earned x ok hit (k 0) ∧ ∀ n, n ≠ 0 → Earned x ok true (k n)
  | hit, .call (_, .select _) k => ∀ rows, Earned x ok hit (k rows)
  | hit, .call (_, .insert _) k => Earned x ok hit (k ())
  | hit, .call (_, .commit) k => Earned x ok hit (k ())
  | hit, .call (_, .rollback) k => Earned x ok hit (k ())

omit [DecidableEq Req] in
theorem Earned.saw {x : Req} {ok : α → Prop} {prog : Program Req V Q U α}
    {h : List (Σ c : Command Req V Q U, c.2.Answer)} {a : α}
    (hf : Prog.Follows prog h (.pure a)) (ha : ok a) {hit : Bool} (he : Earned x ok hit prog) :
    hit = true ∨ ∃ (u : U) (n : Nat),
      (⟨(x, .update u), n⟩ : Σ c : Command Req V Q U, c.2.Answer) ∈ h ∧ n ≠ 0 := by
  induction prog generalizing h hit with
  | pure b =>
    obtain ⟨-, hb⟩ := Prog.Follows.pure_iff.mp hf
    obtain rfl := Prog.pure.inj hb
    exact .inl (he ha)
  | call c k ih =>
    rcases Prog.Follows.call_iff.mp hf with ⟨-, hcall⟩ | ⟨r, h', rfl, hrest⟩
    · cases hcall
    · have hlift : ∀ {hit' : Bool}, Earned x ok hit' (k r) → hit' = true ∨ ∃ (u : U) (n : Nat),
          (⟨(x, .update u), n⟩ : Σ c : Command Req V Q U, c.2.Answer) ∈ ⟨c, r⟩ :: h' ∧ n ≠ 0 := by
        intro hit' he'
        refine (ih r hrest he').imp_right ?_
        rintro ⟨u, n, hmem, hn⟩
        exact ⟨u, n, List.mem_cons_of_mem _ hmem, hn⟩
      obtain ⟨y, stmt⟩ := c
      cases stmt with
      | update u =>
        obtain ⟨rfl, hzero, hsome⟩ := he
        by_cases hn : r = (0 : Nat)
        · exact hlift (hn ▸ hzero)
        · exact .inr ⟨u, r, List.mem_cons_self, hn⟩
      | select q => exact hlift (he r)
      | insert rows => exact hlift he
      | commit => exact hlift he
      | rollback => exact hlift he

/-- The rows that a history of statements has read. -/
def readRows (h : List (Σ c : Command Req V Q U, c.2.Answer)) : List V :=
  h.flatMap fun
    | ⟨(_, .select _), rows⟩ => rows
    | _ => []

omit [DecidableEq Req] in
theorem saw_of_mem_readRows {h : List (Σ c : Command Req V Q U, c.2.Answer)} {v : V}
    (hv : v ∈ readRows h) : ∃ (x : Req) (q : Q) (rows : List V),
      (⟨(x, .select q), rows⟩ : Σ c : Command Req V Q U, c.2.Answer) ∈ h ∧ v ∈ rows := by
  obtain ⟨⟨⟨x, stmt⟩, answer⟩, hmem, hin⟩ := List.mem_flatMap.mp hv
  cases stmt with
  | select q => exact ⟨x, q, answer, hmem, hin⟩
  | update u => cases hin
  | insert rows => cases hin
  | commit => cases hin
  | rollback => cases hin

/-- Every update is based on a row that was read before it. -/
def Based (rel : V → U → Prop) : List V → Program Req V Q U α → Prop
  | _, .pure _ => True
  | read, .call (_, .select _) k => ∀ rows, Based rel (read ++ rows) (k rows)
  | read, .call (_, .update u) k => (∃ v ∈ read, rel v u) ∧ ∀ n, Based rel read (k n)
  | read, .call (_, .insert _) k => Based rel read (k ())
  | read, .call (_, .commit) k => Based rel read (k ())
  | read, .call (_, .rollback) k => Based rel read (k ())

omit [DecidableEq Req] in
/-- The row an update was based on is among those that were read. -/
theorem Based.saw {rel : V → U → Prop} {prog rest : Program Req V Q U α}
    {h : List (Σ c : Command Req V Q U, c.2.Answer)} (hf : Prog.Follows prog h rest)
    {read : List V} (hb : Based rel read prog) {x : Req} {u : U} {n : Nat}
    (hs : (⟨(x, .update u), n⟩ : Σ c : Command Req V Q U, c.2.Answer) ∈ h) :
    ∃ v ∈ read ++ readRows h, rel v u := by
  induction hf generalizing read with
  | nil => cases hs
  | @cons c k r h rest hrest ih =>
    obtain ⟨y, stmt⟩ := c
    have hlater : ∀ {read' : List V}, Based rel read' (k r) →
        (∀ v ∈ read' ++ readRows h, v ∈ read ++ readRows (⟨(y, stmt), r⟩ :: h)) →
        (⟨(x, .update u), n⟩ : Σ c : Command Req V Q U, c.2.Answer) ∈ h →
        ∃ v ∈ read ++ readRows (⟨(y, stmt), r⟩ :: h), rel v u := by
      intro read' hb' hsub hs'
      obtain ⟨v, hv, hrel⟩ := ih hb' hs'
      exact ⟨v, hsub v hv, hrel⟩
    rcases List.mem_cons.mp hs with he | hthere
    · obtain ⟨hc, -⟩ := Sigma.mk.inj he
      obtain ⟨rfl, rfl⟩ := Prod.mk.inj hc
      obtain ⟨v, hv, hrel⟩ := hb.1
      exact ⟨v, List.mem_append_left _ hv, hrel⟩
    · cases stmt with
      | select q => exact hlater (hb r) (by simp [readRows]) hthere
      | update u' => exact hlater (hb.2 r) (by simp [readRows]) hthere
      | insert rows => exact hlater hb (by simp [readRows]) hthere
      | commit => exact hlater hb (by simp [readRows]) hthere
      | rollback => exact hlater hb (by simp [readRows]) hthere

/-- A table, and the programs that serve requests on it. -/
structure System (K V Q U Req α : Type) where
  schema : Schema K V Q U
  program : Req → Program Req V Q U α

namespace System

/-- No transaction yet. -/
def start (rows : List V) (now : Int) : TxPool V Q U Req α := ⟨Db.start rows, now, []⟩

variable (sys : System K V Q U Req α)

/-- One move. -/
def step (p : TxPool V Q U Req α) (mv : Move Req Int) : TxPool V Q U Req α :=
  p.step (fun _ => Db.exec sys.schema) sys.program mv

/-- The moves that can happen: no request is made twice, and what is blocked waits. -/
def Possible (p : TxPool V Q U Req α) : Move Req Int → Prop
  | .tick elapsed => 0 ≤ elapsed
  | .spawn q => ∀ i th, p.At i th → th.request ≠ q
  | .advance i => ∀ c, p.next i = some c → ¬ p.store.Blocked sys.schema c

instance (p : TxPool V Q U Req α) : (mv : Move Req Int) → Decidable (sys.Possible p mv)
  | .tick elapsed => inferInstanceAs (Decidable (0 ≤ elapsed))
  | .spawn q =>
    decidable_of_iff (∀ th ∈ p.threads, th.request ≠ q) <| by
      refine ⟨fun h i th hi => h th (List.mem_of_getElem? hi), ?_⟩
      intro h th hth
      obtain ⟨i, hi⟩ := List.mem_iff_getElem?.mp hth
      exact h i th hi
  | .advance i =>
    decidable_of_iff (∀ c ∈ p.next i, ¬ p.store.Blocked sys.schema c) Iff.rfl

/-- What the updates of a request make of rows, and what its inserts are. -/
def Writes (good : Req → V → V → Prop) (new : Req → V → Prop) (q : Req) :
    Command Req V Q U → Prop
  | (_, .update u) => ∀ r, sys.schema.hits u r = true → good q r (sys.schema.set u r)
  | (_, .insert rows) => ∀ v ∈ rows, new q v
  | _ => True

/-- What a run of transactions keeps. -/
structure Sound (good : Req → V → V → Prop) (new : Req → V → Prop)
    (p : TxPool V Q U Req α) : Prop where
  coherent : p.Coherent sys.program
  distinct : ∀ i j th th', p.At i th → p.At j th' → th.request = th'.request → i = j
  hand : ∀ i th, p.At i th → ∃ written, Tidy (th.request) written th.rest ∧
    (written = false → p.store.own (th.request) = [])
  exclusive : p.store.Exclusive sys.schema
  rows : (p.store.rows.map sys.schema.key).Nodup
  keys : ∀ x, ((p.store.own x).map sys.schema.key).Nodup
  made : ∀ e ∈ p.store.pending, ∃ i th, p.At i th ∧ th.request = e.1 ∧
    ((∃ r ∈ p.store.rows, sys.schema.key r = sys.schema.key e.2 ∧ good th.request r e.2) ∨
      (new th.request e.2 ∧ ∀ r ∈ p.store.rows, sys.schema.key r ≠ sys.schema.key e.2))
  saw : ∀ i th u n, p.At i th → th.Saw (th.request, .update u) n → n ≠ 0 →
    ∃ r, sys.schema.hits u r = true ∧
      ((th.request, sys.schema.set u r) ∈ p.store.pending ∨
        (some th.request, sys.schema.set u r) ∈ p.store.log)
  owned : ∀ i th v, p.At i th → v ∈ p.store.own th.request → new th.request v ∨
    ∃ u n r, th.Saw (th.request, .update u) n ∧ sys.schema.hits u r = true ∧
      v = sys.schema.set u r
  answered : ∀ i th x q rows, p.At i th → th.Saw (x, .select q) rows →
    ∀ v ∈ rows, sys.schema.selects q v = true

/-! ## One statement -/

variable {sys} {good : Req → V → V → Prop} {new : Req → V → Prop} {p : TxPool V Q U Req α}
  {i : Nat} {th : TxThread V Q U Req α} {x : Req}

variable (sys) in
/-- A thread after a statement made the same request before. -/
theorem request_of_fire {c : Command Req V Q U} {k : c.2.Answer → Program Req V Q U α}
    (hi : p.At i th) {j : Nat} {th' : TxThread V Q U Req α}
    (hj : (p.fire (fun _ => Db.exec sys.schema) i th c k).At j th') :
    ∃ th₀, p.At j th₀ ∧ th₀.request = th'.request := by
  rcases (Pool.fire_threads hi).mp hj with ⟨rfl, rfl⟩ | ⟨-, hj⟩
  · exact ⟨th, hi, rfl⟩
  · exact ⟨th', hj, rfl⟩

variable (sys) in
/-- Who holds a row is still there after a statement. -/
theorem fire_keeps_request {c : Command Req V Q U} {k : c.2.Answer → Program Req V Q U α}
    (hi : p.At i th) {j : Nat} {th₀ : TxThread V Q U Req α}
    (hj : p.At j th₀) :
    ∃ th', (p.fire (fun _ => Db.exec sys.schema) i th c k).At j th' ∧
      th'.request = th₀.request := by
  obtain ⟨th', hj', hreq, -⟩ := Pool.fire_keeps (fun _ => Db.exec sys.schema) (c := c) (k := k) hi hj
  exact ⟨th', hj', hreq⟩

theorem Sound.fire (h : sys.Sound good new p) (hi : p.At i th) {c : Command Req V Q U}
    {k : c.2.Answer → Program Req V Q U α} (hr : th.rest = .call c k)
    {answer : c.2.Answer} {db : Db Req V} (hexec : Db.exec sys.schema c p.store = (answer, db))
    (hhand : ∃ written, Tidy (th.request) written (k answer) ∧
      (written = false → db.own (th.request) = []))
    (hothers : ∀ y, y ≠ th.request → db.own y = p.store.own y)
    (hexclusive : db.Exclusive sys.schema) (hrows : (db.rows.map sys.schema.key).Nodup)
    (hkeys : ((db.own (th.request)).map sys.schema.key).Nodup)
    (hmade : ∀ e ∈ db.pending, ∃ i th, p.At i th ∧ th.request = e.1 ∧
      ((∃ r ∈ db.rows, sys.schema.key r = sys.schema.key e.2 ∧ good th.request r e.2) ∨
        (new th.request e.2 ∧ ∀ r ∈ db.rows, sys.schema.key r ≠ sys.schema.key e.2)))
    (hstays : ∀ x v, (x, v) ∈ p.store.pending ∨ (some x, v) ∈ p.store.log →
      (x, v) ∈ db.pending ∨ (some x, v) ∈ db.log)
    (hsaw : ∀ u n, (⟨(th.request, .update u), n⟩ : Σ c : Command Req V Q U, c.2.Answer) =
      ⟨c, answer⟩ → n ≠ 0 → ∃ r, sys.schema.hits u r = true ∧
        (th.request, sys.schema.set u r) ∈ db.pending)
    (howned : ∀ v ∈ db.own (th.request), v ∈ p.store.own (th.request) ∨ new th.request v ∨
      ∃ u n r, (⟨(th.request, .update u), n⟩ : Σ c : Command Req V Q U, c.2.Answer) = ⟨c, answer⟩ ∧
        sys.schema.hits u r = true ∧ v = sys.schema.set u r) :
    sys.Sound good new (p.fire (fun _ => Db.exec sys.schema) i th c k) := by
  have hstore : (p.fire (fun _ => Db.exec sys.schema) i th c k).store = db :=
    congrArg Prod.snd hexec
  have hone : (Db.exec sys.schema c p.store).1 = answer := congrArg Prod.fst hexec
  refine ⟨Pool.coherent_fire h.coherent hi hr, ?_, ?_, hstore ▸ hexclusive, hstore ▸ hrows, ?_, ?_,
    ?_, ?_, ?_⟩
  · intro j j' th₁ th₂ hj hj' htx
    obtain ⟨th₁', hold, hreq⟩ := request_of_fire sys hi hj
    obtain ⟨th₂', hold', hreq'⟩ := request_of_fire sys hi hj'
    rw [← hreq, ← hreq'] at htx
    exact h.distinct j j' th₁' th₂' hold hold' htx
  · rw [hstore]
    intro j th' hj
    rcases (Pool.fire_threads hi).mp hj with ⟨rfl, rfl⟩ | ⟨hne, hold⟩
    · rw [Thread.advance_request, Thread.advance_rest, hone]
      exact hhand
    · have hy : th'.request ≠ th.request :=
        fun htx => hne (h.distinct j i th' th hold hi htx)
      rw [hothers _ hy]
      exact h.hand j th' hold
  · rw [hstore]
    intro y
    by_cases hy : y = th.request
    · subst hy
      exact hkeys
    · rw [hothers y hy]
      exact h.keys y
  · rw [hstore]
    intro e he
    obtain ⟨j, th₀, hj, htx, hform⟩ := hmade e he
    obtain ⟨th', hj', hreq⟩ := fire_keeps_request sys hi hj
    exact ⟨j, th', hj', by rw [hreq, htx], by rwa [hreq]⟩
  · rw [hstore]
    intro j th' u n hj hs hn
    have hkeep : ∀ th₀ : TxThread V Q U Req α, p.At j th₀ →
        th₀.Saw (th₀.request, .update u) n → ∃ r, sys.schema.hits u r = true ∧
          ((th₀.request, sys.schema.set u r) ∈ db.pending ∨
            (some th₀.request, sys.schema.set u r) ∈ db.log) := by
      intro th₀ hj₀ hs₀
      obtain ⟨r, hhit, hin⟩ := h.saw j th₀ u n hj₀ hs₀ hn
      exact ⟨r, hhit, hstays _ _ hin⟩
    rcases (Pool.fire_threads hi).mp hj with ⟨rfl, rfl⟩ | ⟨-, hold⟩
    · rw [Thread.advance_request] at hs ⊢
      rcases Thread.saw_advance.mp hs with hs | he
      · exact hkeep th hi hs
      · rw [hone] at he
        obtain ⟨r, hhit, hin⟩ := hsaw u n he hn
        exact ⟨r, hhit, .inl hin⟩
    · exact hkeep th' hold hs
  · rw [hstore]
    intro j th' v hj hv
    rcases (Pool.fire_threads hi).mp hj with ⟨rfl, rfl⟩ | ⟨hne, hold⟩
    · rw [Thread.advance_request] at hv ⊢
      rcases howned v hv with hv | hnew | ⟨u, n, r, he, hhit, hset⟩
      · refine (h.owned _ th v hi hv).imp_right ?_
        rintro ⟨u, n, r, hs, hhit, hset⟩
        exact ⟨u, n, r, Thread.saw_advance.mpr (.inl hs), hhit, hset⟩
      · exact .inl hnew
      · exact .inr ⟨u, n, r, Thread.saw_advance.mpr (.inr (by rw [he, hone])), hhit, hset⟩
    · have hy : th'.request ≠ th.request :=
        fun htx => hne (h.distinct j i th' th hold hi htx)
      rw [hothers _ hy] at hv
      exact h.owned j th' v hold hv
  · intro j th' x q rows hj hs v hv
    rcases (Pool.fire_threads hi).mp hj with ⟨rfl, rfl⟩ | ⟨-, hold⟩
    · rcases Thread.saw_advance.mp hs with hs | he
      · exact h.answered _ th x q rows hi hs v hv
      · -- what a select answers are rows that it selects
        obtain ⟨rfl, hrows⟩ := Sigma.mk.inj he
        rw [eq_of_heq hrows] at hv
        exact (List.mem_filter.mp hv).2
    · exact h.answered j th' x q rows hold hs v hv

/-- A statement that changes nothing, and is no update that hit something. -/
theorem Sound.fire_idle (h : sys.Sound good new p) (hi : p.At i th) {c : Command Req V Q U}
    {k : c.2.Answer → Program Req V Q U α} (hr : th.rest = .call c k) {answer : c.2.Answer}
    (hexec : Db.exec sys.schema c p.store = (answer, p.store)) {written : Bool}
    (htidy : Tidy (th.request) written (k answer))
    (hempty : written = false → p.store.own (th.request) = [])
    (hno : ∀ u n, (⟨(th.request, .update u), n⟩ : Σ c : Command Req V Q U, c.2.Answer) =
      ⟨c, answer⟩ → n = 0) :
    sys.Sound good new (p.fire (fun _ => Db.exec sys.schema) i th c k) :=
  h.fire hi hr hexec ⟨written, htidy, hempty⟩ (fun _ _ => rfl) h.exclusive h.rows (h.keys _) h.made
    (fun _ _ => id) (fun u n he hn => absurd (hno u n he) hn) fun _ => .inl

theorem own_append {db : Db Req V} {vs : List V} {y : Req} :
    Db.own { db with pending := db.pending ++ vs.map fun v => (x, v) } y =
      db.own y ++ if y = x then vs else [] := by
  simp only [Db.own, List.filter_append, List.map_append, List.append_cancel_left_eq]
  split_ifs with hy
  · subst hy
    rw [List.filter_eq_self.mpr, List.map_map]
    · exact List.map_id' _
    · simp
  · rw [List.filter_eq_nil_iff.mpr]
    · rfl
    · simp [Ne.symm hy]

/-- A statement that writes versions of free rows with empty hands, or new rows. -/
theorem Sound.fire_write (h : sys.Sound good new p) (hi : p.At i th) {c : Command Req V Q U}
    {k : c.2.Answer → Program Req V Q U α} (hr : th.rest = .call c k) {answer : c.2.Answer}
    {vs : List V}
    (hexec : Db.exec sys.schema c p.store = (answer, { p.store with
      pending := p.store.pending ++ vs.map fun v => (th.request, v) }))
    (hhand : ∃ written, Tidy (th.request) written (k answer) ∧
      (written = false → p.store.own (th.request) = [] ∧ vs = []))
    (hfree : ∀ v ∈ vs, ¬ p.store.Held sys.schema (th.request) (sys.schema.key v))
    (hkeys : ((p.store.own (th.request) ++ vs).map sys.schema.key).Nodup)
    (hmade : ∀ v ∈ vs,
      (∃ r ∈ p.store.rows, sys.schema.key r = sys.schema.key v ∧ good th.request r v) ∨
        (new th.request v ∧ ∀ r ∈ p.store.rows, sys.schema.key r ≠ sys.schema.key v))
    (hsaw : ∀ u n, (⟨(th.request, .update u), n⟩ : Σ c : Command Req V Q U, c.2.Answer) =
      ⟨c, answer⟩ → n ≠ 0 → ∃ r, sys.schema.hits u r = true ∧ sys.schema.set u r ∈ vs)
    (howned : ∀ v ∈ vs, new th.request v ∨
      ∃ u n r, (⟨(th.request, .update u), n⟩ : Σ c : Command Req V Q U, c.2.Answer) = ⟨c, answer⟩ ∧
        sys.schema.hits u r = true ∧ v = sys.schema.set u r) :
    sys.Sound good new (p.fire (fun _ => Db.exec sys.schema) i th c k) := by
  refine h.fire hi hr hexec ?_ (fun y hy => ?_) (h.exclusive.write hfree) h.rows ?_
    (fun e he => ?_) ?_ ?_ (fun v hv => ?_)
  · obtain ⟨written, htidy, hempty⟩ := hhand
    refine ⟨written, htidy, fun hw => ?_⟩
    rw [own_append, if_pos rfl, (hempty hw).1, (hempty hw).2, List.append_nil]
  · rw [own_append, if_neg hy, List.append_nil]
  · rwa [own_append, if_pos rfl]
  · rcases List.mem_append.mp he with he | he
    · exact h.made e he
    · obtain ⟨v, hv, rfl⟩ := List.mem_map.mp he
      exact ⟨i, th, hi, rfl, hmade v hv⟩
  · rintro y v (he | he)
    · exact .inl (List.mem_append_left _ he)
    · exact .inr he
  · intro u n he hn
    obtain ⟨r, hhit, hin⟩ := hsaw u n he hn
    exact ⟨r, hhit, List.mem_append_right _ (List.mem_map_of_mem hin)⟩
  · rw [own_append, if_pos rfl] at hv
    exact (List.mem_append.mp hv).imp_right (howned v)

theorem Db.own_committed {db : Db Req V} {y : Req} :
    (db.committed sys.schema x).own y = if y = x then [] else db.own y := by
  rw [Db.own, Db.committed_pending, List.filter_filter]
  split_ifs with hy
  · subst hy
    rw [List.map_eq_nil_iff, List.filter_eq_nil_iff]
    simp
  · refine congrArg (List.map Prod.snd) (List.filter_congr fun e _ => ?_)
    by_cases he : e.1 = y
    · simp [he, hy]
    · simp [he]

theorem Sound.fire_commit (h : sys.Sound good new p) (hi : p.At i th)
    {k : Unit → Program Req V Q U α} (hr : th.rest = .call (th.request, .commit) k)
    (htidy : Tidy (th.request) false (k ())) :
    sys.Sound good new
      (p.fire (fun _ => Db.exec sys.schema) i th (th.request, .commit) k) := by
  have hkept : ∀ e ∈ (p.store.committed sys.schema (th.request)).pending,
      e ∈ p.store.pending ∧ e.1 ≠ th.request := by
    intro e he
    simpa using he
  have hexec : Db.exec sys.schema (th.request, .commit) p.store =
      ((), p.store.committed sys.schema (th.request)) := rfl
  refine h.fire hi hr hexec ⟨false, htidy, fun _ => ?_⟩ (fun y hy => ?_)
    (h.exclusive.of_subset fun e he => (hkept e he).1) ?_ ?_ (fun e he => ?_) ?_ ?_ (fun v hv => ?_)
  · rw [Db.own_committed, if_pos rfl]
  · rw [Db.own_committed, if_neg hy]
  · rw [Db.committed_rows]
    exact Db.keyed_view h.rows _
  · rw [Db.own_committed, if_pos rfl]
    exact List.nodup_nil
  · obtain ⟨hold, hne⟩ := hkept e he
    obtain ⟨j, th₀, hj, htx, hform⟩ := h.made e hold
    -- the rows it publishes are not those that others hold
    have hother : ∀ v ∈ p.store.own (th.request), sys.schema.key e.2 ≠ sys.schema.key v :=
      fun v hv hk => hne (h.exclusive e hold _ (Db.mem_own.mp hv) hk)
    refine ⟨j, th₀, hj, htx, ?_⟩
    rw [Db.committed_rows]
    rcases hform with ⟨r, hr, hk, hgood⟩ | ⟨hnew, hfree⟩
    · refine .inl ⟨r, (Db.mem_foldl_put (h.keys _)).mpr (.inr ⟨hr, fun v hv => ?_⟩), hk, hgood⟩
      rw [hk]
      exact hother v hv
    · refine .inr ⟨hnew, fun r hr => ?_⟩
      rcases (Db.mem_foldl_put (h.keys _)).mp hr with hr | ⟨hr, -⟩
      · exact (hother r hr).symm
      · exact hfree r hr
  · rintro x v (he | he)
    · by_cases hx : x = th.request
      · subst hx
        refine .inr ?_
        rw [Db.committed_log]
        exact List.mem_append_right _ (List.mem_map_of_mem (Db.mem_own.mpr he))
      · refine .inl ?_
        rw [Db.committed_pending]
        simpa [hx] using he
    · refine .inr ?_
      rw [Db.committed_log]
      exact List.mem_append_left _ he
  · rintro u n ⟨⟩
  · rw [Db.own_committed, if_pos rfl] at hv
    cases hv

variable (sys) in
/-- A statement leaves the hands of the others as they are. -/
theorem own_exec {db : Db Req V} {c : Command Req V Q U} {y : Req} (hy : y ≠ c.1) :
    (Db.exec sys.schema c db).2.own y = db.own y := by
  obtain ⟨x, stmt⟩ := c
  cases stmt with
  | select q => rfl
  | update u =>
    change Db.own { db with pending := db.pending ++ List.map _ _ } y = _
    simp only [Db.own, List.filter_append, List.filter_map, Function.comp_def, Ne.symm hy,
      decide_false, List.filter_false, List.map_nil, List.append_nil]
  | insert rows =>
    change Db.own { db with pending := db.pending ++ rows.map fun v => (x, v) } y = _
    rw [own_append, if_neg hy, List.append_nil]
  | commit => exact Eq.trans Db.own_committed (if_neg hy)
  | rollback =>
    change List.map _ (List.filter _ (List.filter _ _)) = _
    rw [List.filter_filter]
    refine congrArg (List.map Prod.snd) (List.filter_congr fun e _ => ?_)
    by_cases he : e.1 = y
    · simp [he, hy]
    · simp [he]

omit [DecidableEq K] in
/-- What a version in the hands of a transaction is made from. -/
theorem Sound.of_own (h : sys.Sound good new p) (hi : p.At i th) {v : V}
    (hv : v ∈ p.store.own th.request) :
    (∃ r ∈ p.store.rows, sys.schema.key r = sys.schema.key v ∧ good th.request r v) ∨
      (new th.request v ∧ ∀ r ∈ p.store.rows, sys.schema.key r ≠ sys.schema.key v) := by
  obtain ⟨j, th', hj, htx, hform⟩ := h.made _ (Db.mem_own.mp hv)
  obtain rfl : j = i := h.distinct j i th' th hj hi htx
  obtain rfl : th' = th := Option.some.inj (hj.symm.trans hi)
  exact hform

omit [DecidableEq K] in
/-- **What a transaction holds is based on what it has read**, if its updates are. -/
theorem Sound.based (h : sys.Sound good new p) (hi : p.At i th) {rel : V → U → Prop}
    (hb : Based rel [] (sys.program th.request)) {v : V} (hv : v ∈ p.store.own th.request)
    (hnew : ¬ new th.request v) : ∃ u, (∃ loaded ∈ readRows th.replies, rel loaded u) ∧
      ∃ r, sys.schema.hits u r = true ∧ v = sys.schema.set u r := by
  obtain ⟨u, n, r, hs, hhit, hset⟩ := (h.owned i th v hi hv).resolve_left hnew
  obtain ⟨loaded, hloaded, hrel⟩ := hb.saw (h.coherent i th hi) hs
  exact ⟨u, ⟨loaded, hloaded, hrel⟩, r, hhit, hset⟩

omit [DecidableEq K] in
/-- **What a transaction that has ended saw itself write is published.** -/
theorem Sound.logged (h : sys.Sound good new p) (hi : p.At i th) {a : α} (hr : th.rest = .pure a)
    {u : U} {n : Nat} (hs : th.Saw (th.request, .update u) n) (hn : n ≠ 0) :
    ∃ r, sys.schema.hits u r = true ∧
      (some th.request, sys.schema.set u r) ∈ p.store.log := by
  obtain ⟨r, hhit, hin⟩ := h.saw i th u n hi hs hn
  refine ⟨r, hhit, hin.resolve_left fun hpending => ?_⟩
  obtain ⟨written, hth, hempty⟩ := h.hand i th hi
  rw [hr] at hth
  have hmem := Db.mem_own.mpr hpending
  rw [hempty hth] at hmem
  cases hmem

omit [DecidableEq K] in
/-- A transaction that has earned its result has left a version in the log. -/
theorem Sound.logged_of_earned (h : sys.Sound good new p) (hi : p.At i th) {a : α}
    (hr : th.rest = .pure a) {ok : α → Prop} (ha : ok a)
    (he : Earned th.request ok false (sys.program th.request)) :
    ∃ u r, sys.schema.hits u r = true ∧
      (some th.request, sys.schema.set u r) ∈ p.store.log := by
  have hf := h.coherent i th hi
  rw [hr] at hf
  obtain ⟨u, n, hs, hn⟩ := (he.saw hf ha).resolve_left Bool.false_ne_true
  obtain ⟨r, hhit, hlog⟩ := h.logged hi hr hs hn
  exact ⟨u, r, hhit, hlog⟩

/-! ## Runs -/

section Runs

omit [DecidableEq K] in
theorem sound_start {rows : List V} (hrows : (rows.map sys.schema.key).Nodup) (now : Int) :
    sys.Sound good new (start rows now) := by
  refine ⟨?_, ?_, ?_, Db.exclusive_start rows, hrows, ?_, ?_, ?_, ?_, ?_⟩
  · rintro i th ⟨⟩
  · rintro i j th th' ⟨⟩
  · rintro i th ⟨⟩
  · exact fun x => List.nodup_nil
  · rintro e ⟨⟩
  · rintro i th u n ⟨⟩
  · rintro i th v ⟨⟩
  · rintro i th x q rows ⟨⟩

/-- A transaction that has written nothing keeps everything where it takes nothing back. -/
theorem Sound.fire_rollback (h : sys.Sound good new p) (hi : p.At i th)
    {k : Unit → Program Req V Q U α} (hr : th.rest = .call (th.request, .rollback) k)
    (hth : Tidy th.request false (k ())) (hempty : p.store.own th.request = []) :
    sys.Sound good new (p.fire (fun _ => Db.exec sys.schema) i th (th.request, .rollback) k) := by
  have hsame : Db.exec sys.schema (th.request, .rollback) p.store = ((), p.store) := by
    refine Prod.ext rfl ?_
    change p.store.drop _ = p.store
    rw [Db.drop, List.filter_eq_self.mpr]
    intro e he
    rw [decide_eq_true_eq]
    rintro hx
    have hmem : e.2 ∈ p.store.own (th.request) := Db.mem_own.mpr (by rwa [← hx])
    rw [hempty] at hmem
    cases hmem
  refine h.fire_idle hi hr hsame hth (fun _ => hempty) ?_
  rintro u n ⟨⟩

theorem Sound.fire_insert (h : sys.Sound good new p) (hi : p.At i th) {rows : List V}
    {k : Unit → Program Req V Q U α} (hr : th.rest = .call (th.request, .insert rows) k)
    (hth : Tidy th.request true (k ())) (hnew : ∀ v ∈ rows, new th.request v)
    (hgo : ¬ p.store.Blocked sys.schema ((th.request, .insert rows) : Command Req V Q U)) :
    sys.Sound good new
      (p.fire (fun _ => Db.exec sys.schema) i th (th.request, .insert rows) k) := by
  rw [Db.Blocked, not_or, not_not] at hgo
  obtain ⟨hnodup, hfree⟩ := hgo
  refine h.fire_write hi hr rfl ⟨true, hth, fun h => by cases h⟩ ?_ ?_ ?_ ?_
    fun v hv => .inl (hnew v hv)
  · rintro v hv ⟨e, he, -, hk⟩
    exact hfree ⟨v, hv, .inl ⟨e, he, hk⟩⟩
  · rw [List.map_append]
    refine List.nodup_append.mpr ⟨h.keys _, hnodup, fun a ha b hb hab => ?_⟩
    obtain ⟨w, hw, rfl⟩ := List.mem_map.mp ha
    obtain ⟨v, hv, rfl⟩ := List.mem_map.mp hb
    exact hfree ⟨v, hv, .inl ⟨_, Db.mem_own.mp hw, hab⟩⟩
  · exact fun v hv => .inr ⟨hnew v hv, fun r hr hk => hfree ⟨v, hv, .inr ⟨r, hr, hk⟩⟩⟩
  · rintro u n ⟨⟩

theorem Sound.fire_update (h : sys.Sound good new p) (hi : p.At i th) {u : U}
    {k : Nat → Program Req V Q U α} (hr : th.rest = .call (th.request, .update u) k)
    (hzero : Tidy th.request false (k 0)) (hth : ∀ n, n ≠ 0 → Tidy th.request true (k n))
    (hempty : p.store.own th.request = [])
    (hmay : ∀ r, sys.schema.hits u r = true → good th.request r (sys.schema.set u r))
    (hgo : ¬ p.store.Blocked sys.schema ((th.request, .update u) : Command Req V Q U)) :
    sys.Sound good new
      (p.fire (fun _ => Db.exec sys.schema) i th (th.request, .update u) k) := by
  have hview : p.store.view sys.schema (th.request) = p.store.rows :=
    Db.view_of_own_eq_nil hempty
  have hgo' : ∀ r ∈ p.store.rows.filter (sys.schema.hits u),
      ¬ p.store.Held sys.schema (th.request) (sys.schema.key r) := by
    intro r hr hheld
    obtain ⟨hr, hhit⟩ := List.mem_filter.mp hr
    exact hgo ⟨r, by rwa [hview], hhit, hheld⟩
  have hexec : Db.exec sys.schema (th.request, .update u) p.store =
      ((p.store.rows.filter (sys.schema.hits u)).length, { p.store with
        pending := p.store.pending ++
          ((p.store.rows.filter (sys.schema.hits u)).map (sys.schema.set u)).map
            fun v => (th.request, v) }) := by
    simp only [Db.exec, hview, List.map_map]
    rfl
  refine h.fire_write hi hr hexec ?_ ?_ ?_ ?_ ?_ ?_
  · by_cases hn : (p.store.rows.filter (sys.schema.hits u)).length = 0
    · refine ⟨false, by rwa [hn], fun _ => ⟨hempty, ?_⟩⟩
      rw [List.length_eq_zero_iff.mp hn, List.map_nil]
    · exact ⟨true, hth _ hn, fun h => by cases h⟩
  · intro v hv
    obtain ⟨r, hr, rfl⟩ := List.mem_map.mp hv
    rw [sys.schema.key_set]
    exact hgo' r hr
  · rw [hempty, List.nil_append, List.map_map]
    have hkey : sys.schema.key ∘ sys.schema.set u = sys.schema.key :=
      funext (sys.schema.key_set u)
    rw [hkey]
    exact h.rows.sublist (List.filter_sublist.map _)
  · intro v hv
    obtain ⟨r, hr, rfl⟩ := List.mem_map.mp hv
    obtain ⟨hr, hhit⟩ := List.mem_filter.mp hr
    exact .inl ⟨r, hr, (sys.schema.key_set u r).symm, hmay r hhit⟩
  · intro u' n he hn
    obtain ⟨rfl, hcount⟩ : u' = u ∧ n = (p.store.rows.filter (sys.schema.hits u)).length := by
      obtain ⟨hc, hr⟩ := Sigma.mk.inj he
      simp only [Prod.mk.injEq, Stmt.update.injEq, true_and] at hc
      subst hc
      exact ⟨rfl, eq_of_heq hr⟩
    obtain ⟨r, hr⟩ := List.exists_mem_of_length_pos (Nat.pos_of_ne_zero (hcount ▸ hn))
    exact ⟨r, (List.mem_filter.mp hr).2, List.mem_map_of_mem hr⟩
  · intro v hv
    obtain ⟨r, hr, rfl⟩ := List.mem_map.mp hv
    exact .inr ⟨u, _, r, rfl, (List.mem_filter.mp hr).2, rfl⟩

/-- **One statement keeps all of it.** -/
theorem Sound.fire_possible (hwrites : ∀ q, Prog.Only (sys.Writes good new q) (sys.program q))
    (h : sys.Sound good new p) (hi : p.At i th) {c : Command Req V Q U}
    {k : c.2.Answer → Program Req V Q U α} (hr : th.rest = .call c k)
    (hgo : ¬ p.store.Blocked sys.schema c) :
    sys.Sound good new (p.fire (fun _ => Db.exec sys.schema) i th c k) := by
  obtain ⟨written, hth, hempty⟩ := h.hand i th hi
  have hmay : sys.Writes good new th.request c := by
    have hrest := (h.coherent i th hi).only_rest (hwrites th.request)
    rw [hr] at hrest
    exact hrest.1
  rw [hr] at hth
  obtain ⟨y, stmt⟩ := c
  cases stmt with
  | select q =>
    obtain ⟨rfl, hth⟩ := hth
    refine h.fire_idle hi hr rfl (hth _) hempty ?_
    rintro u n ⟨⟩
  | rollback =>
    obtain ⟨rfl, rfl, hth⟩ := hth
    exact h.fire_rollback hi hr hth (hempty rfl)
  | commit =>
    obtain ⟨rfl, hth⟩ := hth
    exact h.fire_commit hi hr hth
  | insert rows =>
    obtain ⟨rfl, hth⟩ := hth
    exact h.fire_insert hi hr hth hmay hgo
  | update u =>
    obtain ⟨rfl, rfl, hzero, hth⟩ := hth
    exact h.fire_update hi hr hzero hth (hempty rfl) hmay hgo

omit [DecidableEq K] in
/-- A request that nobody has made yet has written nothing. -/
theorem Sound.spawn (h : sys.Sound good new p) {q : Req} (htidy : Tidy q false (sys.program q))
    (hfresh : ∀ j th₀, p.At j th₀ → th₀.request ≠ q) :
    sys.Sound good new { p with threads := p.threads ++ [⟨q, [], sys.program q⟩] } := by
  have hown : p.store.own (q) = [] := by
    refine Db.own_eq_nil fun e he htx => ?_
    obtain ⟨j, th₀, hj, htx', -⟩ := h.made e he
    exact hfresh j th₀ hj (htx'.trans htx)
  refine ⟨Pool.coherent_spawn h.coherent q, ?_, ?_, h.exclusive, h.rows, h.keys, ?_, ?_, ?_, ?_⟩
  · intro j j' th₁ th₂ hj hj' htx
    rcases Pool.spawn_threads hj with hj | ⟨rfl, rfl⟩
    · rcases Pool.spawn_threads hj' with hj' | ⟨rfl, rfl⟩
      · exact h.distinct j j' th₁ th₂ hj hj' htx
      · exact absurd htx (hfresh j th₁ hj)
    · rcases Pool.spawn_threads hj' with hj' | ⟨rfl, rfl⟩
      · exact absurd htx.symm (hfresh j' th₂ hj')
      · rfl
  · intro j th' hj
    rcases Pool.spawn_threads hj with hj | ⟨-, rfl⟩
    · exact h.hand j th' hj
    · exact ⟨false, htidy, fun _ => hown⟩
  · intro e he
    obtain ⟨j, th₀, hj, hform⟩ := h.made e he
    exact ⟨j, th₀, Pool.spawn_keeps hj _, hform⟩
  · intro j th' u n hj hs hn
    rcases Pool.spawn_threads hj with hj | ⟨-, rfl⟩
    · exact h.saw j th' u n hj hs hn
    · cases hs
  · intro j th' v hj hv
    rcases Pool.spawn_threads hj with hj | ⟨-, rfl⟩
    · exact h.owned j th' v hj hv
    · have hnil : v ∈ p.store.own q := hv
      rw [hown] at hnil
      cases hnil
  · intro j th' x q' rows hj hs
    rcases Pool.spawn_threads hj with hj | ⟨-, rfl⟩
    · exact h.answered j th' x q' rows hj hs
    · cases hs

variable (htidy : ∀ q, Tidy (q) false (sys.program q))
  (hwrites : ∀ q, Prog.Only (sys.Writes good new q) (sys.program q))
include htidy hwrites

/-- **What every possible move keeps.** -/
theorem Sound.step (h : sys.Sound good new p) {mv : Move Req Int} (hgo : sys.Possible p mv) :
    sys.Sound good new (sys.step p mv) := by
  refine Pool.step_invariant _ sys.program (A := sys.Possible) ?_ ?_ ?_ p mv h hgo
  · exact fun p d h _ => ⟨h.coherent, h.distinct, h.hand, h.exclusive, h.rows, h.keys, h.made, h.saw,
      h.owned, h.answered⟩
  · exact fun p q h hfresh => h.spawn (htidy q) hfresh
  · intro p i th c k h hgo hi hr
    exact h.fire_possible hwrites hi hr (hgo c (Pool.next_eq hi hr))

/-- **What a run of transactions keeps**, together with any property of the rows and the log
that the allowed commits keep. -/
theorem run_sound {cond : TxPool V Q U Req α → Move Req Int → Prop} {law : Db Req V → Prop}
    (hlaw : ∀ db db' : Db Req V, db'.rows = db.rows → db'.log = db.log → law db → law db')
    (hcommit : ∀ (p : TxPool V Q U Req α) i th k, sys.Sound good new p → law p.store →
      cond p (.advance i) → p.At i th → th.rest = .call (th.request, .commit) k →
        law (p.store.committed sys.schema (th.request)))
    {s p : TxPool V Q U Req α} {moves : List (Move Req Int)}
    (hrun : Run (fun p mv => sys.Possible p mv ∧ cond p mv) sys.step s moves p)
    (hs : sys.Sound good new s) (hl : law s.store) :
    sys.Sound good new p ∧ law p.store := by
  refine hrun.invariant (I := fun p => sys.Sound good new p ∧ law p.store) ?_ ⟨hs, hl⟩
  rintro p mv ⟨h, hl⟩ ⟨hgo, hc⟩
  refine ⟨h.step htidy hwrites hgo, ?_⟩
  cases mv with
  | tick d => exact hl
  | spawn q => exact hl
  | advance i =>
    simp only [System.step, Pool.step]
    split
    · rename_i q hist c k heq
      obtain ⟨y, stmt⟩ := c
      cases stmt with
      | commit =>
        obtain ⟨written, hth, -⟩ := h.hand i _ heq
        obtain rfl : y = q := hth.1
        exact hcommit p i _ k h hl hc heq rfl
      | _ => exact hlaw p.store _ rfl rfl hl
    · exact hl

end Runs

end System

end ReadCommitted
end Lib
end CampusID
