import CampusID.Lib.Effects

/-!
# Reading at an offset

A reader takes the whole of its data and an offset, and returns a value and the offset after it.
`Stands data i piece j` says that `piece` begins at `i` and ends at `j`; pieces that stand one
after another stand as one (`stands_append`).  A reader that returns the values of `P`, each of
which stands written where it is read (`Reads`), returns lists of them when it is repeated.
-/

namespace CampusID
namespace Lib
namespace Readers

open Eff

variable {σ α ε : Type} {data piece piece' : List σ} {i j k : Nat} {x : σ}

/-- `piece` begins at `i` and ends at `j`. -/
def Stands (data : List σ) (i : Nat) (piece : List σ) (j : Nat) : Prop :=
  piece <+: data.drop i ∧ j = i + piece.length

theorem stands_nil : Stands data i [] j ↔ j = i :=
  and_iff_right List.nil_prefix

theorem stands_append : Stands data i (piece ++ piece') j ↔
    ∃ k, Stands data i piece k ∧ Stands data k piece' j := by
  constructor
  · rintro ⟨⟨rest, hrest⟩, rfl⟩
    have hafter : data.drop (i + piece.length) = piece' ++ rest := by
      rw [← List.drop_drop, ← hrest, List.append_assoc, List.drop_left]
    refine ⟨i + piece.length, ⟨⟨piece' ++ rest, ?_⟩, rfl⟩, ⟨⟨rest, hafter.symm⟩, ?_⟩⟩
    · rw [← hrest, List.append_assoc]
    · rw [List.length_append, Nat.add_assoc]
  · rintro ⟨k, ⟨⟨rest, hrest⟩, rfl⟩, ⟨⟨rest', hrest'⟩, rfl⟩⟩
    have hafter : rest = piece' ++ rest' := by
      rw [hrest', ← List.drop_drop, ← hrest, List.drop_left]
    refine ⟨⟨rest', ?_⟩, ?_⟩
    · rw [← hrest, hafter, List.append_assoc]
    · rw [List.length_append, Nat.add_assoc]

theorem stands_singleton : Stands data i [x] j ↔ data[i]? = some x ∧ j = i + 1 := by
  refine and_congr_left fun _ => ?_
  rw [← List.head?_drop]
  cases data.drop i with
  | nil => simp
  | cons y rest => simp [eq_comm]

theorem stands_cons : Stands data i (x :: piece) j ↔
    data[i]? = some x ∧ Stands data (i + 1) piece j := by
  rw [← List.singleton_append, stands_append]
  simp only [stands_singleton, and_assoc, exists_and_left, exists_eq_left]

theorem stands_take (h : i + k ≤ data.length) :
    Stands data i ((data.drop i).take k) j ↔ j = i + k := by
  have hlength : ((data.drop i).take k).length = k := by
    rw [List.length_take, List.length_drop]
    omega
  rw [Stands, hlength]
  exact and_iff_right (List.take_prefix ..)

theorem Stands.eq_take (h : Stands data i piece j) : piece = (data.drop i).take piece.length :=
  List.prefix_iff_eq_take.mp h.1

theorem Stands.le (h : Stands data i piece j) : i ≤ j := h.2 ▸ Nat.le_add_right ..

/-- A piece that begins in the data ends in them, and so does one that is not empty. -/
theorem Stands.le_length (h : Stands data i piece j) (hi : i ≤ data.length) : j ≤ data.length := by
  have hlength := h.1.length_le
  rw [List.length_drop] at hlength
  have := h.2
  omega

theorem Stands.bound (h : Stands data i piece j) (hpiece : 0 < piece.length) :
    j ≤ data.length := by
  have hlength := h.1.length_le
  rw [List.length_drop] at hlength
  have := h.2
  omega

/-- The piece that stands from `i` is cut out there. -/
theorem Stands.slice (h : Stands data i piece (i + k)) : (data.drop i).take k = piece := by
  rw [Nat.add_left_cancel h.2, ← h.eq_take]

/-- Two pieces of one length at one offset are one. -/
theorem Stands.unique (h : Stands data i piece j) (h' : Stands data i piece' j) :
    piece = piece' := by
  have hlength : piece.length = piece'.length := Nat.add_left_cancel (h.2.symm.trans h'.2)
  rw [h.eq_take, h'.eq_take, hlength]

theorem stands_all : Stands data 0 piece data.length ↔ data = piece := by
  constructor
  · rintro ⟨hpre, hlength⟩
    exact (hpre.eq_of_length (by rw [List.drop_zero]; omega)).symm
  · rintro rfl
    exact ⟨List.prefix_rfl, (Nat.zero_add _).symm⟩

/-! ## Readers -/

/-- The reader returns the values of `P`, where they stand as they are written. -/
def Reads (data : List σ) (read : Nat → Except ε (α × Nat)) (P : α → Prop)
    (write : α → List σ) : Prop :=
  ∀ i v j, read i = .ok (v, j) ↔ P v ∧ Stands data i (write v) j

/-- `count` values, one after another. -/
def repeatedly (read : Nat → Except ε (α × Nat)) : (count i : Nat) → Except ε (List α × Nat)
  | 0, i => .ok ([], i)
  | count + 1, i => do
    let (v, i) ← read i
    let (vs, i) ← repeatedly read count i
    return (v :: vs, i)

variable {read : Nat → Except ε (α × Nat)} {P : α → Prop} {write : α → List σ}

/-- **A reader that is repeated** reads the values one after another. -/
theorem Reads.repeatedly (h : Reads data read P write) (count : Nat) :
    Reads data (repeatedly read count) (fun vs => vs.length = count ∧ ∀ v ∈ vs, P v)
      (fun vs => vs.flatMap write) := by
  induction count with
  | zero =>
    rintro i vs j
    constructor
    · rintro ⟨⟩
      exact ⟨⟨rfl, nofun⟩, stands_nil.mpr rfl⟩
    · rintro ⟨⟨hcount, -⟩, hstands⟩
      obtain rfl := List.length_eq_zero_iff.mp hcount
      rw [stands_nil.mp hstands]
      rfl
  | succ count ih =>
    rintro i vs j
    rw [Readers.repeatedly, except_bind_eq_ok]
    constructor
    · rintro ⟨⟨v, k⟩, hv, hrest⟩
      obtain ⟨⟨vs, _⟩, hvs, hdone⟩ := except_bind_eq_ok.mp hrest
      obtain ⟨⟨⟩⟩ := hdone
      obtain ⟨hP, hstands⟩ := (h i v k).mp hv
      obtain ⟨⟨hcount, hall⟩, hstands'⟩ := (ih k vs j).mp hvs
      refine ⟨⟨congrArg (· + 1) hcount, List.forall_mem_cons.mpr ⟨hP, hall⟩⟩, ?_⟩
      exact stands_append.mpr ⟨k, hstands, hstands'⟩
    · rintro ⟨⟨hcount, hall⟩, hstands⟩
      cases vs with
      | nil => exact absurd hcount (Nat.zero_ne_add_one count)
      | cons v vs =>
        obtain ⟨hP, hall⟩ := List.forall_mem_cons.mp hall
        obtain ⟨k, hv, hvs⟩ := stands_append.mp hstands
        refine ⟨(v, k), (h i v k).mpr ⟨hP, hv⟩, except_bind_eq_ok.mpr ⟨(vs, j), ?_, rfl⟩⟩
        exact (ih k vs j).mpr ⟨⟨Nat.succ.inj hcount, hall⟩, hvs⟩

/-! ## What a reader raises -/

/-- What is raised, if anything is, is one of `E`. -/
def OnlyRaises {β : Type} (E : ε → Prop) (x : Except ε β) : Prop := ∀ e, x = .error e → E e

section Raising

variable {β γ : Type} {E : ε → Prop} {x : Except ε β} {f : β → Except ε γ}

theorem OnlyRaises.ok (b : β) : OnlyRaises E (.ok b) := fun _ => nofun

theorem OnlyRaises.error {e : ε} (h : E e) : OnlyRaises E (.error e : Except ε β) := by
  rintro _ ⟨⟩
  exact h

theorem OnlyRaises.bind (hx : OnlyRaises E x) (hf : ∀ b, x = .ok b → OnlyRaises E (f b)) :
    OnlyRaises E (x >>= f) := fun e he => by
  rcases except_bind_eq_error.mp he with he | ⟨b, hb, he⟩
  · exact hx e he
  · exact hf b hb e he

/-- A computation that only raises these has a value or raises one of them. -/
theorem OnlyRaises.cases (h : OnlyRaises E x) : (∃ b, x = .ok b) ∨ ∃ e, x = .error e ∧ E e := by
  cases x with
  | ok b => exact .inl ⟨b, rfl⟩
  | error e => exact .inr ⟨e, rfl, h e rfl⟩

theorem OnlyRaises.repeatedly (h : ∀ i, OnlyRaises E (read i)) (count i : Nat) :
    OnlyRaises E (repeatedly read count i) := by
  induction count generalizing i with
  | zero => exact .ok _
  | succ count ih => exact .bind (h i) fun a _ => .bind (ih a.2) fun _ _ => .ok _

end Raising

end Readers
end Lib
end CampusID
