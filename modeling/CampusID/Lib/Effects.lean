import Mathlib.Data.List.Basic

/-!
# Computations that change a state and may raise

The meaning of an `async` method that awaits one store after another: it changes
the state of the world step by step and either returns or raises.  What it changed
before it raised stays changed; there is no transaction around it.

The two rules everything else rests on are `run_bind_of_ok` and
`run_bind_of_error`: a sequence goes on after a step that returns, and stops with
the state as it is at a step that raises.  `Preserves` is the frame rule: a
property of the state that no step disturbs survives the whole computation,
however it ends.  `Ensures` says what holds when a computation returns and what when it
raises, with one rule for each way to build one.
-/

namespace CampusID
namespace Lib

/-- A computation over the state `σ` that returns an `α` or raises an `ε`. -/
def Eff (σ ε α : Type) : Type := σ → Except ε α × σ

namespace Eff

variable {σ ε α β γ : Type}

/-- Run a computation from a state. -/
def run (x : Eff σ ε α) (s : σ) : Except ε α × σ := x s

/-- Run one computation, and the one its result selects if it returned. -/
def bind (x : Eff σ ε α) (f : α → Eff σ ε β) : Eff σ ε β := fun s =>
  match x s with
  | (.ok a, s') => f a s'
  | (.error e, s') => (.error e, s')

instance : Monad (Eff σ ε) where
  pure a := fun s => (.ok a, s)
  bind := bind

/-- `raise`. -/
def raise (e : ε) : Eff σ ε α := fun s => (.error e, s)

/-- Read something off the state. -/
def read (f : σ → α) : Eff σ ε α := fun s => (.ok (f s), s)

/-- Change the state. -/
def update (f : σ → σ) : Eff σ ε Unit := fun s => (.ok (), f s)

/-- A step that always returns: an answer and the next state. -/
def step (f : σ → α × σ) : Eff σ ε α := fun s => (.ok (f s).1, (f s).2)

/-- A check that does not look at the state. -/
def check (x : Except ε α) : Eff σ ε α := fun s => (x, s)

/-- A computation with the exceptions of another kind. -/
def relabel {δ : Type} (f : ε → δ) (x : Eff σ ε α) : Eff σ δ α := fun s =>
  ((x s).1.mapError f, (x s).2)

/-- `try`: run a computation and hand on what it returned or raised. -/
def attempt (x : Eff σ ε α) : Eff σ ε (Except ε α) := fun s => (.ok (x s).1, (x s).2)

/-- Run a computation for every element of a list, collecting the results. -/
def collect (f : α → Eff σ ε β) : List α → Eff σ ε (List β)
  | [] => Pure.pure []
  | a :: as => f a >>= fun b => collect f as >>= fun bs => Pure.pure (b :: bs)

@[simp] theorem run_pure (a : α) (s : σ) : (Pure.pure a : Eff σ ε α).run s = (.ok a, s) := rfl

@[simp] theorem run_raise (e : ε) (s : σ) : (raise e : Eff σ ε α).run s = (.error e, s) := rfl

@[simp] theorem run_read (f : σ → α) (s : σ) : (read f : Eff σ ε α).run s = (.ok (f s), s) := rfl

@[simp] theorem run_update (f : σ → σ) (s : σ) : (update f : Eff σ ε Unit).run s = (.ok (), f s) :=
  rfl

@[simp] theorem run_step (f : σ → α × σ) (s : σ) :
    (step f : Eff σ ε α).run s = (.ok (f s).1, (f s).2) := rfl

@[simp] theorem run_check (x : Except ε α) (s : σ) : (check x : Eff σ ε α).run s = (x, s) := rfl

@[simp] theorem run_relabel {δ : Type} (f : ε → δ) (x : Eff σ ε α) (s : σ) :
    (relabel f x).run s = ((x.run s).1.mapError f, (x.run s).2) := rfl

@[simp] theorem run_attempt (x : Eff σ ε α) (s : σ) :
    (attempt x).run s = (.ok (x.run s).1, (x.run s).2) := rfl

theorem run_bind_of_ok {x : Eff σ ε α} {f : α → Eff σ ε β} {s s' : σ} {a : α}
    (h : x.run s = (.ok a, s')) : (x >>= f).run s = (f a).run s' := by
  show (bind x f) s = f a s'
  unfold bind
  rw [show x s = (.ok a, s') from h]

theorem run_bind_of_error {x : Eff σ ε α} {f : α → Eff σ ε β} {s s' : σ} {e : ε}
    (h : x.run s = (.error e, s')) : (x >>= f).run s = (.error e, s') := by
  show (bind x f) s = (.error e, s')
  unfold bind
  rw [show x s = (.error e, s') from h]

@[simp] theorem run_pure_bind (a : α) (f : α → Eff σ ε β) (s : σ) :
    ((Pure.pure a : Eff σ ε α) >>= f).run s = (f a).run s := rfl

@[simp] theorem run_read_bind (g : σ → α) (f : α → Eff σ ε β) (s : σ) :
    ((read g : Eff σ ε α) >>= f).run s = (f (g s)).run s := rfl

@[simp] theorem run_update_bind (g : σ → σ) (f : Unit → Eff σ ε β) (s : σ) :
    ((update g : Eff σ ε Unit) >>= f).run s = (f ()).run (g s) := rfl

@[simp] theorem run_step_bind (g : σ → α × σ) (f : α → Eff σ ε β) (s : σ) :
    ((step g : Eff σ ε α) >>= f).run s = (f (g s).1).run (g s).2 := rfl

@[simp] theorem run_raise_bind (e : ε) (f : α → Eff σ ε β) (s : σ) :
    ((raise e : Eff σ ε α) >>= f).run s = (.error e, s) := rfl

theorem run_check_bind (x : Except ε α) (f : α → Eff σ ε β) (s : σ) :
    (check x >>= f).run s = match x with
      | .ok a => (f a).run s
      | .error e => (.error e, s) := by
  cases x <;> rfl

@[simp] theorem run_attempt_bind (x : Eff σ ε α) (f : Except ε α → Eff σ ε β) (s : σ) :
    (attempt x >>= f).run s = (f (x.run s).1).run (x.run s).2 := rfl

theorem run_bind_pure_snd (x : Eff σ ε α) (f : α → β) (s : σ) :
    ((x >>= fun a => Pure.pure (f a)).run s).2 = (x.run s).2 := by
  rcases hx : x.run s with ⟨r | a, m⟩
  · rw [run_bind_of_error hx]
  · rw [run_bind_of_ok hx, run_pure]

/-- **A sequence that returned went through a state in between.** -/
theorem run_bind_eq_ok {x : Eff σ ε α} {f : α → Eff σ ε β} {s s' : σ} {b : β} :
    (x >>= f).run s = (.ok b, s') ↔
      ∃ a m, x.run s = (.ok a, m) ∧ (f a).run m = (.ok b, s') := by
  rcases hx : x.run s with ⟨r | a, m⟩
  · rw [run_bind_of_error hx]
    simp
  · rw [run_bind_of_ok hx]
    constructor
    · intro h
      exact ⟨a, m, rfl, h⟩
    · rintro ⟨a', m', heq, h⟩
      obtain ⟨rfl, rfl⟩ : a = a' ∧ m = m' := by simpa using heq
      exact h

theorem except_bind_eq_ok {x : Except ε α} {f : α → Except ε β} {b : β} :
    x >>= f = .ok b ↔ ∃ a, x = .ok a ∧ f a = .ok b := by
  cases x with
  | error e => simp [Bind.bind, Except.bind]
  | ok a => simp [Bind.bind, Except.bind]

/-- A computation that raised did so in one of its parts. -/
theorem except_bind_eq_error {x : Except ε α} {f : α → Except ε β} {e : ε} :
    x >>= f = .error e ↔ x = .error e ∨ ∃ a, x = .ok a ∧ f a = .error e := by
  cases x with
  | error e => simp [Bind.bind, Except.bind]
  | ok a => simp [Bind.bind, Except.bind]

/-- What a comprehension gives is made of its items. -/
theorem exists_of_mapM_eq_ok {f : α → Except ε β} {items : List α} {results : List β}
    (h : items.mapM f = .ok results) {b : β} (hb : b ∈ results) : ∃ a ∈ items, f a = .ok b := by
  induction items generalizing results with
  | nil =>
    cases h
    exact absurd hb List.not_mem_nil
  | cons a items ih =>
    rw [List.mapM_cons] at h
    obtain ⟨b', hfirst, hrest⟩ := except_bind_eq_ok.mp h
    obtain ⟨others, hothers, hresults⟩ := except_bind_eq_ok.mp hrest
    cases hresults
    rcases List.mem_cons.mp hb with rfl | hb
    · exact ⟨a, List.mem_cons_self, hfirst⟩
    · obtain ⟨a', ha', hf⟩ := ih hothers hb
      exact ⟨a', List.mem_cons_of_mem _ ha', hf⟩

theorem mem_of_mapM_eq_ok {f : α → Except ε β} {items : List α} {results : List β}
    (h : items.mapM f = .ok results) {a : α} (ha : a ∈ items) {b : β} (hf : f a = .ok b) :
    b ∈ results := by
  induction items generalizing results with
  | nil => exact absurd ha List.not_mem_nil
  | cons first items ih =>
    rw [List.mapM_cons] at h
    obtain ⟨b', hfirst, hrest⟩ := except_bind_eq_ok.mp h
    obtain ⟨others, hothers, hresults⟩ := except_bind_eq_ok.mp hrest
    cases hresults
    rcases List.mem_cons.mp ha with rfl | ha
    · rw [Except.ok.inj (hfirst.symm.trans hf)]
      exact List.mem_cons_self
    · exact List.mem_cons_of_mem _ (ih hothers ha)

/-- **A comprehension whose items are checked** goes through when every item passes. -/
theorem mapM_eq_ok_iff {f : α → Except ε β} {C : α → Prop} [DecidablePred C] {g : α → β}
    {e : α → ε} {items : List α} (h : ∀ a ∈ items, f a = if C a then .ok (g a) else .error (e a))
    {results : List β} :
    items.mapM f = .ok results ↔ (∀ a ∈ items, C a) ∧ results = items.map g := by
  induction items generalizing results with
  | nil =>
    rw [List.mapM_nil]
    constructor
    · intro hok
      cases hok
      exact ⟨by simp, rfl⟩
    · rintro ⟨-, rfl⟩
      rfl
  | cons a items ih =>
    obtain ⟨hfirst, hothers⟩ := List.forall_mem_cons.mp h
    rw [List.mapM_cons, except_bind_eq_ok, List.forall_mem_cons]
    constructor
    · rintro ⟨b, hb, hrest⟩
      obtain ⟨bs, hbs, hresults⟩ := except_bind_eq_ok.mp hrest
      obtain ⟨hall, rfl⟩ := (ih hothers).mp hbs
      rw [hfirst] at hb
      split_ifs at hb with hC
      cases hb
      cases hresults
      exact ⟨⟨hC, hall⟩, rfl⟩
    · rintro ⟨⟨hC, hall⟩, rfl⟩
      refine ⟨g a, hfirst.trans (if_pos hC), ?_⟩
      exact except_bind_eq_ok.mpr ⟨_, (ih hothers).mpr ⟨hall, rfl⟩, rfl⟩

theorem foldlM_concat_eq_ok {f : β → α → Except ε β} {items : List α} {a : α} {b c : β} :
    (items ++ [a]).foldlM f b = .ok c ↔ ∃ m, items.foldlM f b = .ok m ∧ f m a = .ok c := by
  rw [List.foldlM_append, except_bind_eq_ok]
  simp only [List.foldlM_cons, List.foldlM_nil, bind_pure]

/-- **A loop that went through** relates its start to its end as its steps do. -/
theorem foldlM_ok_related {f : β → α → Except ε β} {R : β → β → Prop} (refl : ∀ b, R b b)
    (trans : ∀ a b c, R a b → R b c → R a c) {items : List α}
    (step : ∀ a ∈ items, ∀ b b', f b a = .ok b' → R b b') {b b' : β}
    (h : items.foldlM f b = .ok b') : R b b' := by
  induction items generalizing b with
  | nil =>
    cases h
    exact refl _
  | cons a items ih =>
    rw [List.foldlM_cons] at h
    obtain ⟨m, hm, hrest⟩ := except_bind_eq_ok.mp h
    obtain ⟨hfirst, hothers⟩ := List.forall_mem_cons.mp step
    exact trans _ _ _ (hfirst b m hm) (ih hothers hrest)

/-- Every step of a loop that goes through meets a condition where it is taken. -/
def Along (f : β → α → Except ε β) (cond : β → α → Prop) : β → List α → Prop
  | _, [] => True
  | b, a :: items => ∀ b', f b a = .ok b' → cond b a ∧ Along f cond b' items

/-- **When a condition on the steps is exact.**  If a step from where the property holds leads to
where it holds exactly when it meets the condition, then so does the loop, at every step. -/
theorem along_iff {f : β → α → Except ε β} {cond : β → α → Prop} {P : β → Prop} {items : List α}
    (step : ∀ a ∈ items, ∀ b b', P b → f b a = .ok b' → (P b' ↔ cond b a)) {b : β} (hb : P b) :
    Along f cond b items ↔
      ∀ pre post, items = pre ++ post → ∀ b', pre.foldlM f b = .ok b' → P b' := by
  induction items generalizing b with
  | nil =>
    refine ⟨fun _ pre post hpre b' hrun => ?_, fun _ => trivial⟩
    obtain ⟨rfl, -⟩ := List.append_eq_nil_iff.mp hpre.symm
    cases hrun
    exact hb
  | cons a items ih =>
    obtain ⟨hfirst, hothers⟩ := List.forall_mem_cons.mp step
    constructor
    · intro halong pre post hpre b' hrun
      cases pre with
      | nil =>
        cases hrun
        exact hb
      | cons a' pre =>
        obtain ⟨rfl, htail⟩ := List.cons_eq_cons.mp hpre
        rw [List.foldlM_cons] at hrun
        obtain ⟨m, hm, hrest⟩ := except_bind_eq_ok.mp hrun
        obtain ⟨hcond, halong⟩ := halong m hm
        exact (ih hothers ((hfirst b m hb hm).mpr hcond)).mp halong pre post htail b' hrest
    · intro hall m hm
      have hP : P m := hall [a] items rfl m (by rw [List.foldlM_cons, hm]; rfl)
      refine ⟨(hfirst b m hb hm).mp hP, (ih hothers hP).mpr fun pre post hpre b' hrun => ?_⟩
      refine hall (a :: pre) post (by rw [hpre]; rfl) b' ?_
      rw [List.foldlM_cons, hm]
      exact hrun

/-- What is made of the result of a computation that went through. -/
theorem toOption_map_eq_some {x : Except ε α} {f : α → β} {b : β} :
    x.toOption.map f = some b ↔ ∃ a, x = .ok a ∧ f a = b := by
  cases x with
  | error e => simp [Except.toOption]
  | ok a => simp [Except.toOption]

/-! ## Frames -/

/-- However the computation ends, it keeps `P`. -/
def Preserves (P : σ → Prop) (x : Eff σ ε α) : Prop := ∀ s, P s → P (x.run s).2

namespace Preserves

variable {P : σ → Prop}

theorem pure (a : α) : Preserves P (Pure.pure a : Eff σ ε α) := fun _ h => h

theorem raise (e : ε) : Preserves P (Eff.raise e : Eff σ ε α) := fun _ h => h

theorem read (f : σ → α) : Preserves P (Eff.read f : Eff σ ε α) := fun _ h => h

theorem bind {x : Eff σ ε α} {f : α → Eff σ ε β} (hx : Preserves P x)
    (hf : ∀ a, Preserves P (f a)) : Preserves P (x >>= f) := by
  intro s hs
  have hm := hx s hs
  rcases hr : x.run s with ⟨r | a, m⟩
  · rw [run_bind_of_error hr]
    rwa [hr] at hm
  · rw [run_bind_of_ok hr]
    rw [hr] at hm
    exact hf a m hm

theorem attempt {x : Eff σ ε α} (hx : Preserves P x) : Preserves P (Eff.attempt x) := hx

theorem collect {f : α → Eff σ ε β} (hf : ∀ a, Preserves P (f a)) :
    ∀ as, Preserves P (Eff.collect f as)
  | [] => pure []
  | a :: as => bind (hf a) fun _ => bind (collect hf as) fun bs => pure (_ :: bs)

end Preserves

/-! ## Specifications -/

/-- From a state with `P` the computation returns with `Q`, or raises with `E`. -/
def Ensures (P : σ → Prop) (x : Eff σ ε α) (Q : α → σ → Prop) (E : ε → σ → Prop) : Prop :=
  ∀ s, P s → match x.run s with
    | (.ok a, s') => Q a s'
    | (.error e, s') => E e s'

namespace Ensures

variable {P : σ → Prop} {Q : α → σ → Prop} {E : ε → σ → Prop}

/-- The second computation goes on from what the first one returned. -/
theorem bind {x : Eff σ ε α} {f : α → Eff σ ε β} {R : β → σ → Prop} (hx : Ensures P x Q E)
    (hf : ∀ a, Ensures (Q a) (f a) R E) : Ensures P (x >>= f) R E := by
  intro s hs
  have hm := hx s hs
  rcases hr : x.run s with ⟨r | a, m⟩
  · rw [run_bind_of_error hr]
    rwa [hr] at hm
  · rw [run_bind_of_ok hr]
    rw [hr] at hm
    exact hf a m hm

theorem of_returned {x : Eff σ ε α} (h : Ensures P x Q E) {s s' : σ} {a : α} (hs : P s)
    (hr : x.run s = (.ok a, s')) : Q a s' := by
  have := h s hs
  rwa [hr] at this

theorem of_raised {x : Eff σ ε α} (h : Ensures P x Q E) {s s' : σ} {e : ε} (hs : P s)
    (hr : x.run s = (.error e, s')) : E e s' := by
  have := h s hs
  rwa [hr] at this

end Ensures

/-! ## What may be raised -/

/-- What the computation raises from a state, if it raises, is in `E`. -/
def RaisesOnly (E : ε → Prop) (x : Eff σ ε α) (s : σ) : Prop := ∀ e, (x.run s).1 = .error e → E e

namespace RaisesOnly

variable {E : ε → Prop} {s : σ}

@[simp] theorem pure (a : α) : RaisesOnly E (Pure.pure a : Eff σ ε α) s := by
  intro e h
  cases h

@[simp] theorem check {x : Except ε α} :
    RaisesOnly E (Eff.check x : Eff σ ε α) s ↔ ∀ e, x = .error e → E e := Iff.rfl

@[simp] theorem relabel {δ : Type} {F : δ → Prop} {f : ε → δ} {x : Eff σ ε α} :
    RaisesOnly F (Eff.relabel f x) s ↔ RaisesOnly (fun e => F (f e)) x s := by
  unfold RaisesOnly
  rw [run_relabel]
  rcases (x.run s).1 with e | a
  · simp [Except.mapError]
  · simp [Except.mapError]

/-- A sequence raises what its first part raises, and what its second part raises from where the
first one returned. -/
theorem bind {x : Eff σ ε α} {f : α → Eff σ ε β} :
    RaisesOnly E (x >>= f) s ↔
      RaisesOnly E x s ∧ ∀ a s', x.run s = (.ok a, s') → RaisesOnly E (f a) s' := by
  unfold RaisesOnly
  rcases hx : x.run s with ⟨r | a, m⟩
  · rw [run_bind_of_error hx]
    simp
  · rw [run_bind_of_ok hx]
    simp

theorem check_bind {x : Except ε α} {f : α → Eff σ ε β} :
    RaisesOnly E (Eff.check x >>= f) s ↔
      (∀ e, x = .error e → E e) ∧ ∀ a, x = .ok a → RaisesOnly E (f a) s := by
  rw [bind, check]
  simp [run_check]

end RaisesOnly

end Eff

end Lib
end CampusID
