import CampusID.Cache
import CampusID.Text

/-!
# Time-based one-time passwords

`verify` tries the steps of the drift window, nearest first, and refuses a step at or below the
highest one the factor has accepted.  The HMAC-SHA-1 of a packed step under a base32 secret is a
parameter; the truncation is the source's.
-/

namespace CampusID
namespace Mfa

/-- `DIGITS`. -/
def totpDigits : Nat := 6

/-- `PERIOD`. -/
def totpPeriod : Int := 30

/-- `DRIFT`. -/
def totpDrift : Nat := 1

/-- `MALFORMED`. -/
def totpMalformed : String := "mfa.totp_malformed"

/-- `MISMATCH`. -/
def totpMismatch : String := "mfa.totp_mismatch"

/-- `REPLAY`. -/
def totpReplay : String := "mfa.totp_replay"

/-- `step_at`. -/
def stepAt (moment : Int) : Int := moment.tdiv second / totpPeriod

/-- The bytes of the MAC of a step under a secret. -/
abbrev Mac := String → Int → List Nat

/-- `code_at`. -/
def codeAt (mac : Mac) (secret : String) (step : Int) : List Char :=
  let bytes := mac secret step
  let offset := bytes.getLast?.getD 0 % 16
  let word := ((bytes.drop offset).take 4).foldl (fun acc byte => acc * 256 + byte) 0
  (Nat.toDigits 10 (word % 2 ^ 31 % 10 ^ totpDigits)).leftpad totpDigits '0'

/-- `_window`. -/
def totpWindow (drift : Nat) : List Int :=
  0 :: (List.range drift).flatMap fun n => [-((n : Int) + 1), (n : Int) + 1]

/-- `totp.verify`: the step that matched, or the reason there is none.  Six digits of another
script raise in `compare_digest`; here they are malformed, a refusal like the other. -/
def totpVerify (mac : Mac) (secret code : String) (moment : Int) (lastStep : Option Int)
    (drift : Nat := totpDrift) : Except String Int :=
  let digits := code.toList.filter fun c => ! Text.isSpace c
  if digits.length ≠ totpDigits ∨ digits.all Char.isDigit = false then .error totpMalformed
  else
    match ((totpWindow drift).map (stepAt moment + ·)).find? (codeAt mac secret · = digits) with
    | none => .error totpMismatch
    | some matched =>
      match lastStep with
      | none => .ok matched
      | some last => if matched ≤ last then .error totpReplay else .ok matched

/-- The mark of a factor that has accepted nothing is below every step. -/
def Below (mark : Option Int) (step : Int) : Prop := ∀ last ∈ mark, last < step

instance (mark : Option Int) (step : Int) : Decidable (Below mark step) :=
  inferInstanceAs (Decidable (∀ last ∈ mark, last < step))

/-- **A step that is accepted is above the mark.** -/
theorem below_of_totpVerify {mac : Mac} {secret code : String} {moment step : Int}
    {lastStep : Option Int} {drift : Nat}
    (h : totpVerify mac secret code moment lastStep drift = .ok step) : Below lastStep step := by
  unfold totpVerify at h
  dsimp only at h
  split_ifs at h
  split at h
  · cases h
  · split at h
    · rintro last ⟨⟩
    · rename_i matched _ _ last
      split_ifs at h with hle
      cases h
      rintro _ ⟨⟩
      exact lt_of_not_ge hle

end Mfa
end CampusID
