import Mathlib.Order.Lattice
import Mathlib.Logic.Function.Basic

/-!
# Tables whose entries expire

A table maps keys to values with an optional expiry instant.  Expiry is lazy: an
entry whose instant has come is no longer *live*, but the table still remembers
it.  That is what makes it possible to argue about time without deleting
anything --- an invariant compares the expiry instants of two entries, and
whichever of them is dead by now was promised to die no later than the other.

The value type may depend on the key, so that a key names what is stored under
it and no read can find a value of the wrong kind.

`live` reads a table at an instant, `put` writes with an expiry.  The lemmas are
the ones a store built from these needs: reading after writing, at the same key
and at another; and `live_antitone`, that an unchanged entry only ever dies.
-/

namespace CampusID
namespace Lib

/-- A stored value and the instant it stops being there, if there is one. -/
structure Entry (T V : Type) where
  value : V
  expiry : Option T
  deriving DecidableEq, Repr

namespace Entry

variable {T V : Type} [LinearOrder T]

/-- The entry is there at `now`: its expiry instant, if it has one, is still to
come. -/
def Live (now : T) (e : Entry T V) : Prop := ∀ t ∈ e.expiry, now < t

instance (now : T) (e : Entry T V) : Decidable (e.Live now) :=
  match h : e.expiry with
  | none => .isTrue fun t ht => by simp [h] at ht
  | some t => decidable_of_iff (now < t) (by simp [Live, h])

@[simp] theorem live_some {now t : T} {v : V} : (⟨v, some t⟩ : Entry T V).Live now ↔ now < t := by
  simp [Live]

@[simp] theorem live_none {now : T} {v : V} : (⟨v, none⟩ : Entry T V).Live now := by
  simp [Live]

theorem Live.antitone {now later : T} {e : Entry T V} (h : e.Live later) (le : now ≤ later) :
    e.Live now :=
  fun t ht => lt_of_le_of_lt le (h t ht)

end Entry

/-- A table of expiring entries. -/
abbrev Table (K : Type) (V : K → Type) (T : Type) := (k : K) → Option (Entry T (V k))

namespace Table

variable {K T : Type} {V : K → Type}

/-- The empty table. -/
def empty : Table K V T := fun _ => none

@[simp] theorem empty_apply (k : K) : (empty : Table K V T) k = none := rfl

/-! ## Writing -/

section Writing

variable [DecidableEq K]

/-- Write a value, replacing what was there together with its expiry. -/
def put (m : Table K V T) (k : K) (v : V k) (expiry : Option T) : Table K V T :=
  Function.update m k (some ⟨v, expiry⟩)

/-- Forget a key. -/
def erase (m : Table K V T) (k : K) : Table K V T := Function.update m k none

@[simp] theorem put_self (m : Table K V T) (k : K) (v : V k) (x : Option T) :
    m.put k v x k = some ⟨v, x⟩ := by
  simp [put]

theorem put_of_ne (m : Table K V T) {k k' : K} (h : k' ≠ k) (v : V k) (x : Option T) :
    m.put k v x k' = m k' := by
  simp [put, Function.update_of_ne h]

@[simp] theorem erase_self (m : Table K V T) (k : K) : m.erase k k = none := by
  simp [erase]

theorem erase_of_ne (m : Table K V T) {k k' : K} (h : k' ≠ k) : m.erase k k' = m k' := by
  simp [erase, Function.update_of_ne h]

end Writing

/-! ## Reading -/

section Reading

variable [LinearOrder T]

/-- What a read at `now` finds. -/
def live (m : Table K V T) (now : T) (k : K) : Option (V k) :=
  (m k).bind fun e => if e.Live now then some e.value else none

/-- A live read finds an entry, and that entry is live. -/
theorem live_eq_some {m : Table K V T} {now : T} {k : K} {v : V k} :
    m.live now k = some v ↔ ∃ x, m k = some ⟨v, x⟩ ∧ Entry.Live now ⟨v, x⟩ := by
  rw [live, Option.bind_eq_some_iff]
  constructor
  · rintro ⟨⟨w, x⟩, hw, hv⟩
    split_ifs at hv with hl
    obtain rfl : w = v := Option.some.inj hv
    exact ⟨x, hw, hl⟩
  · rintro ⟨x, hx, hl⟩
    exact ⟨⟨v, x⟩, hx, if_pos hl⟩

theorem live_eq_none {m : Table K V T} {now : T} {k : K} :
    m.live now k = none ↔ ∀ e, m k = some e → ¬ e.Live now := by
  rw [live, Option.bind_eq_none_iff]
  simp

theorem live_antitone {m : Table K V T} {now later : T} (le : now ≤ later) {k : K} {v : V k}
    (h : m.live later k = some v) : m.live now k = some v := by
  obtain ⟨x, hx, hl⟩ := live_eq_some.mp h
  exact live_eq_some.mpr ⟨x, hx, hl.antitone le⟩

variable [DecidableEq K]

@[simp] theorem live_put_self (m : Table K V T) (k : K) (v : V k) (now t : T) :
    (m.put k v (some t)).live now k = if now < t then some v else none := by
  simp [live]

theorem live_put_of_ne (m : Table K V T) {k k' : K} (h : k' ≠ k) (v : V k) (x : Option T)
    (now : T) : (m.put k v x).live now k' = m.live now k' := by
  simp [live, put_of_ne m h]

end Reading

end Table

end Lib
end CampusID
