import Mathlib.Data.List.Basic

/-!
# Octets in hexadecimal

An octet written with two digits, and read from two digits of either case.
-/

namespace CampusID
namespace Lib

/-- The value of a hexadecimal digit. -/
def hexValue (c : Char) : Option Nat :=
  if '0' ≤ c ∧ c ≤ '9' then some (c.toNat - 48)
  else if 'A' ≤ c ∧ c ≤ 'F' then some (c.toNat - 55)
  else if 'a' ≤ c ∧ c ≤ 'f' then some (c.toNat - 87)
  else none

/-- The octet of two hexadecimal digits. -/
def hexOctet (hi lo : Char) : Option UInt8 :=
  match hexValue hi, hexValue lo with
  | some a, some b => some (UInt8.ofNat (16 * a + b))
  | _, _ => none

theorem hexValue_of_hexOctet {hi lo : Char} {octet : UInt8} (h : hexOctet hi lo = some octet) :
    hexValue hi ≠ none ∧ hexValue lo ≠ none := by
  unfold hexOctet at h
  split at h
  · rename_i a b ha hb
    simp [ha, hb]
  · cases h

end Lib
end CampusID
