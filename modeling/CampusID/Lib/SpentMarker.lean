import CampusID.Lib.Expiry
import Mathlib.Algebra.Order.Monoid.Defs

/-!
# Records guarded by a spent marker

A credential that may be used once is kept as two keys: the record, written when
the credential is issued, and a marker, written when it is first used.  Both are
written with the same time to live, and the marker later, so the marker outlives
the record: as long as the record can be read, a use that happened can be seen.

`Guarded record marker life m now` is that invariant of a table.  It is kept by the
four things that can happen to the table --- the clock moves, a record is written
under a name never used before, the marker of an existing record is written, some
other key is written --- and `Guarded.marker_live` is what it is for.

What the invariant does not say is that a marker is written only while its record
is still readable.  Two writes of one marker are kept apart only as long as that
is so, which is why it appears as a hypothesis wherever single use is proved.
-/

namespace CampusID
namespace Lib

variable {K T D : Type} {V : K → Type} [AddCommGroup T] [LinearOrder T]

/-- Every record dies within one lifetime from now, and every marker belongs to a
record and dies no earlier than it. -/
structure Guarded (record marker : D → K) (life : T) (m : Table K V T) (now : T) : Prop where
  dies : ∀ d e, m (record d) = some e → ∃ t, e.expiry = some t ∧ t ≤ now + life
  outlives : ∀ d e, m (marker d) = some e →
    ∃ e' t u, m (record d) = some e' ∧ e'.expiry = some t ∧ e.expiry = some u ∧ t ≤ u

namespace Guarded

variable {record marker : D → K} {life now : T} {m : Table K V T}

theorem empty (record marker : D → K) (life now : T) :
    Guarded record marker life (Table.empty : Table K V T) now := by
  constructor <;> intro d e h <;> simp at h

/-- **While a record is live, so is its marker, if it was ever written.** -/
theorem marker_live (h : Guarded record marker life m now) {d : D}
    {v : V (record d)} (hv : m.live now (record d) = some v) (hm : m (marker d) ≠ none) :
    ∃ w, m.live now (marker d) = some w := by
  obtain ⟨e, he⟩ := Option.ne_none_iff_exists'.mp hm
  obtain ⟨e', t, u, he', ht, hu, hle⟩ := h.outlives d e he
  obtain ⟨x, hx, hl⟩ := Table.live_eq_some.mp hv
  obtain rfl : e' = ⟨v, x⟩ := Option.some.inj (he'.symm.trans hx)
  have hnow : now < t := hl t ht
  refine ⟨e.value, Table.live_eq_some.mpr ⟨e.expiry, he, fun u' hu' => ?_⟩⟩
  obtain rfl : u' = u := Option.some.inj (Option.mem_def.mp hu' ▸ hu)
  exact lt_of_lt_of_le hnow hle

theorem later [IsOrderedAddMonoid T] (h : Guarded record marker life m now) {now' : T}
    (le : now ≤ now') : Guarded record marker life m now' := by
  refine ⟨fun d e he => ?_, h.outlives⟩
  obtain ⟨t, ht, hle⟩ := h.dies d e he
  exact ⟨t, ht, hle.trans (by gcongr)⟩

theorem congr (h : Guarded record marker life m now) {m' : Table K V T}
    (hr : ∀ d, m' (record d) = m (record d)) (hm : ∀ d, m' (marker d) = m (marker d)) :
    Guarded record marker life m' now := by
  refine ⟨fun d e he => ?_, fun d e he => ?_⟩
  · rw [hr] at he
    exact h.dies d e he
  · rw [hm] at he
    rw [hr]
    exact h.outlives d e he

variable [DecidableEq K]

theorem put_other (h : Guarded record marker life m now) {k : K} (hr : ∀ d, record d ≠ k)
    (hm : ∀ d, marker d ≠ k) (v : V k) (x : Option T) :
    Guarded record marker life (m.put k v x) now :=
  h.congr (fun d => Table.put_of_ne _ (hr d) _ _) (fun d => Table.put_of_ne _ (hm d) _ _)

theorem put_record (h : Guarded record marker life m now) (inj : Function.Injective record)
    (hne : ∀ d d', marker d ≠ record d') {d : D} (hd : m (record d) = none) (v : V (record d)) :
    Guarded record marker life (m.put (record d) v (some (now + life))) now := by
  refine ⟨fun d' e he => ?_, fun d' e he => ?_⟩
  · by_cases hdd : d' = d
    · subst hdd
      rw [Table.put_self] at he
      exact ⟨now + life, by rw [← Option.some.inj he], le_refl _⟩
    · rw [Table.put_of_ne _ fun h => hdd (inj h)] at he
      exact h.dies d' e he
  · rw [Table.put_of_ne _ (hne d' d)] at he
    obtain ⟨e', t, u, he', h'⟩ := h.outlives d' e he
    have hdd : d' ≠ d := by
      rintro rfl
      simp [hd] at he'
    exact ⟨e', t, u, by rw [Table.put_of_ne _ fun h => hdd (inj h)]; exact he', h'⟩

/-- A marker written for an existing record: it starts its life now, and the record
started no later. -/
theorem put_marker (h : Guarded record marker life m now) (inj : Function.Injective marker)
    (hne : ∀ d d', record d ≠ marker d') {d : D} (hd : m (record d) ≠ none) (v : V (marker d)) :
    Guarded record marker life (m.put (marker d) v (some (now + life))) now := by
  refine ⟨fun d' e he => ?_, fun d' e he => ?_⟩
  · rw [Table.put_of_ne _ (hne d' d)] at he
    exact h.dies d' e he
  · rw [Table.put_of_ne _ (hne d' d)]
    by_cases hdd : d' = d
    · subst hdd
      rw [Table.put_self] at he
      obtain ⟨e', he'⟩ := Option.ne_none_iff_exists'.mp hd
      obtain ⟨t, ht, hle⟩ := h.dies d' e' he'
      exact ⟨e', t, now + life, he', ht, by rw [← Option.some.inj he], hle⟩
    · rw [Table.put_of_ne _ fun h => hdd (inj h)] at he
      exact h.outlives d' e he

end Guarded

end Lib
end CampusID
