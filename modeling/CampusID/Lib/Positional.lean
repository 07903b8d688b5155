import Mathlib.Algebra.Group.Nat.Defs
import Mathlib.Data.List.Induction

/-!
# Numbers as digits

A number below `b ^ width` is `width` digits in base `b`, the most significant first.  `digits`
writes them, `value` reads them, and each undoes the other: `value_digits`, `digits_value`.
-/

namespace CampusID
namespace Lib
namespace Positional

/-- The number that the digits are, the most significant first. -/
def value (b : Nat) (digits : List Nat) : Nat := digits.foldl (fun n d => n * b + d) 0

/-- The last `width` digits of a number. -/
def digits (b : Nat) : (width n : Nat) → List Nat
  | 0, _ => []
  | width + 1, n => digits b width (n / b) ++ [n % b]

variable {b n width : Nat} {ds : List Nat}

@[simp] theorem value_nil (b : Nat) : value b [] = 0 := rfl

theorem value_concat (b : Nat) (ds : List Nat) (d : Nat) :
    value b (ds ++ [d]) = value b ds * b + d := by
  simp only [value, List.foldl_append, List.foldl_cons, List.foldl_nil]

@[simp] theorem value_singleton (b d : Nat) : value b [d] = d := by simp [value]

@[simp] theorem length_digits (b width n : Nat) : (digits b width n).length = width := by
  induction width generalizing n with
  | zero => rfl
  | succ width ih => rw [digits, List.length_append, ih, List.length_singleton]

theorem lt_of_mem_digits (hb : 0 < b) {d : Nat} (h : d ∈ digits b width n) : d < b := by
  induction width generalizing n with
  | zero => exact absurd h List.not_mem_nil
  | succ width ih =>
    rw [digits, List.mem_append, List.mem_singleton] at h
    rcases h with h | rfl
    · exact ih h
    · exact Nat.mod_lt _ hb

theorem value_lt (h : ∀ d ∈ ds, d < b) : value b ds < b ^ ds.length := by
  induction ds using List.reverseRecOn with
  | nil => exact Nat.one_pos
  | append_singleton ds d ih =>
    have hds := ih fun e he => h e (List.mem_append_left _ he)
    have hd : d < b := h d (List.mem_append_right _ List.mem_cons_self)
    rw [value_concat, List.length_append, List.length_singleton, Nat.pow_succ]
    calc value b ds * b + d < value b ds * b + b := Nat.add_lt_add_left hd _
      _ = (value b ds + 1) * b := (Nat.succ_mul _ _).symm
      _ ≤ b ^ ds.length * b := Nat.mul_le_mul_right _ hds

/-- **A number is read from its digits.** -/
theorem value_digits (hn : n < b ^ width) : value b (digits b width n) = n := by
  induction width generalizing n with
  | zero => exact (Nat.lt_one_iff.mp hn).symm
  | succ width ih =>
    rw [digits, value_concat, ih (Nat.div_lt_of_lt_mul (by rwa [Nat.mul_comm, ← Nat.pow_succ]))]
    exact Nat.div_add_mod' n b

theorem eq_of_digits_eq {m : Nat} (hm : m < b ^ width) (hn : n < b ^ width)
    (h : digits b width m = digits b width n) : m = n := by
  rw [← value_digits hm, h, value_digits hn]

/-- **Digits are written from their number.** -/
theorem digits_value (h : ∀ d ∈ ds, d < b) : digits b ds.length (value b ds) = ds := by
  induction ds using List.reverseRecOn with
  | nil => rfl
  | append_singleton ds d ih =>
    have hd : d < b := h d (List.mem_append_right _ List.mem_cons_self)
    have hdiv : (value b ds * b + d) / b = value b ds := by
      rw [Nat.mul_comm, Nat.mul_add_div (Nat.zero_lt_of_lt hd), Nat.div_eq_of_lt hd, Nat.add_zero]
    have hmod : (value b ds * b + d) % b = d := by
      rw [Nat.mul_comm, Nat.mul_add_mod, Nat.mod_eq_of_lt hd]
    rw [List.length_append, List.length_singleton, digits, value_concat, hdiv, hmod,
      ih fun e he => h e (List.mem_append_left _ he)]

/-! ## Bytes -/

/-- `int.from_bytes(bytes, "big")`. -/
def bigEndian (bytes : List UInt8) : Nat := value 256 (bytes.map UInt8.toNat)

/-- `n.to_bytes(width, "big")`, where it does not raise. -/
def toBigEndian (width n : Nat) : List UInt8 := (digits 256 width n).map UInt8.ofNat

variable {bytes : List UInt8}

@[simp] theorem length_toBigEndian (width n : Nat) : (toBigEndian width n).length = width := by
  rw [toBigEndian, List.length_map, length_digits]

theorem lt_of_mem_toNat {d : Nat} (h : d ∈ bytes.map UInt8.toNat) : d < 256 := by
  obtain ⟨byte, -, rfl⟩ := List.mem_map.mp h
  exact byte.toNat_lt

theorem bigEndian_lt (bytes : List UInt8) : bigEndian bytes < 256 ^ bytes.length := by
  have hlt := value_lt (b := 256) fun d (h : d ∈ bytes.map UInt8.toNat) => lt_of_mem_toNat h
  rwa [List.length_map] at hlt

theorem bigEndian_toBigEndian (hn : n < 256 ^ width) : bigEndian (toBigEndian width n) = n := by
  have hbytes : (toBigEndian width n).map UInt8.toNat = digits 256 width n := by
    rw [toBigEndian, List.map_map]
    refine (List.map_congr_left fun d hd => ?_).trans (List.map_id _)
    exact UInt8.toNat_ofNat_of_lt' (lt_of_mem_digits (by decide) hd)
  rw [bigEndian, hbytes, value_digits hn]

theorem toBigEndian_bigEndian (bytes : List UInt8) :
    toBigEndian bytes.length (bigEndian bytes) = bytes := by
  have hdigits := digits_value (b := 256) fun d (h : d ∈ bytes.map UInt8.toNat) => lt_of_mem_toNat h
  rw [List.length_map] at hdigits
  rw [toBigEndian, bigEndian, hdigits, List.map_map]
  exact (List.map_congr_left fun byte _ => UInt8.ofNat_toNat).trans (List.map_id _)

/-- Bytes of one length are told apart by their number. -/
theorem eq_of_bigEndian_eq {bytes' : List UInt8} (hlength : bytes.length = bytes'.length)
    (h : bigEndian bytes = bigEndian bytes') : bytes = bytes' := by
  rw [← toBigEndian_bigEndian bytes, ← toBigEndian_bigEndian bytes', hlength, h]

theorem bigEndian_singleton (byte : UInt8) : bigEndian [byte] = byte.toNat := value_singleton ..

end Positional
end Lib
end CampusID
