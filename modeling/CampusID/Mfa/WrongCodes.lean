import Mathlib.Algebra.Group.Int.Defs
import CampusID.Mfa.Factors
import CampusID.Mfa.Lockout

/-!
# Wrong codes are counted

`verify` with everything it can raise.  What is left of a code without its white space is six
characters of which `str.isdigit` says that they are digits, of any script; `compare_digest`
compares ASCII only, and raises `TypeError` on the others; and `struct.pack` raises on a step
that is no 64-bit counter.  Neither is a `TotpRejected`, so neither is a failure to the loop over
the factors or to the route, and such a request is not counted (`countsFailures_iff`).
-/

namespace CampusID
namespace Mfa

open Lib

/-- What `verify` uses of Python's library. -/
structure TotpLibrary where
  /-- `str.isdigit` of a character. -/
  isdigit : Char → Bool
  /-- `b32decode` reads the secret. -/
  decodes : String → Bool
  mac : Mac
  isdigit_ascii : ∀ c, c.toNat < 128 → isdigit c = c.isDigit

/-- What `verify` can raise: `TotpRejected`, `TypeError` and `struct.error`. -/
inductive TotpRaised where
  | rejected (reason : String)
  | typeError
  | structError
  deriving DecidableEq, Repr

/-- Nobody catches it. -/
def TotpRaised.Escapes (raised : TotpRaised) : Prop := ∀ reason, raised ≠ .rejected reason

/-- `struct.pack(">Q", step)` succeeds. -/
def Packs (step : Int) : Prop := 0 ≤ step ∧ step < 2 ^ 64

instance (step : Int) : Decidable (Packs step) := inferInstanceAs (Decidable (_ ∧ _))

/-- The text is ASCII. -/
def AsciiChars (chars : List Char) : Prop := ∀ c ∈ chars, c.toNat < 128

instance (chars : List Char) : Decidable (AsciiChars chars) :=
  List.decidableBAll (fun c : Char => c.toNat < 128) chars

/-- `hmac.compare_digest`. -/
def compareDigest (a b : List Char) : Except TotpRaised Bool :=
  if AsciiChars a ∧ AsciiChars b then .ok (a = b) else .error .typeError

/-- The characters of a code that are no white space. -/
def codeDigits (code : String) : List Char := code.toList.filter fun c => ! Text.isSpace c

namespace TotpLibrary

variable (lib : TotpLibrary)

/-- `code_at`, or what it raises. -/
def codeAt (secret : String) (step : Int) : Except TotpRaised (List Char) :=
  if lib.decodes secret = false then .error (.rejected totpMalformed)
  else if Packs step then .ok (Mfa.codeAt lib.mac secret step)
  else .error .structError

/-- The loop of `verify` over the offsets. -/
def scan (secret : String) (now : Int) (digits : List Char) :
    List Int → Option Int → Except TotpRaised (Option Int)
  | [], matched => .ok matched
  | offset :: rest, matched => do
    let expected ← lib.codeAt secret (now + offset)
    let same ← compareDigest expected digits
    scan secret now digits rest (if same ∧ matched = none then some (now + offset) else matched)

/-- `totp.verify`. -/
def verify (secret code : String) (moment : Int) (lastStep : Option Int)
    (drift : Nat := totpDrift) : Except TotpRaised Int := do
  let digits := codeDigits code
  if digits.length ≠ totpDigits ∨ digits.all lib.isdigit = false then
    .error (.rejected totpMalformed)
  else
    match ← lib.scan secret (stepAt moment) digits (totpWindow drift) none with
    | none => .error (.rejected totpMismatch)
    | some matched =>
      match lastStep with
      | none => .ok matched
      | some last => if matched ≤ last then .error (.rejected totpReplay) else .ok matched

/-- `verify_totp`, run on its own: the id of the factor that accepted.  `advance` is what
`_advance` answers, and `last` the reason of the last factor that refused. -/
def verifyTotp (advance : MfaFactor → Int → Bool) (code : String) (moment : Int) :
    List MfaFactor → Option String → Except TotpRaised String
  | [], last => .error (.rejected (last.getD totpMismatch))
  | factor :: rest, last =>
    match factor.secret with
    | none => verifyTotp advance code moment rest last
    | some secret =>
      match lib.verify secret code moment factor.lastStep with
      | .error (.rejected reason) => verifyTotp advance code moment rest (some reason)
      | .error raised => .error raised
      | .ok step =>
        if advance factor step then .ok factor.id else .error (.rejected totpReplay)

end TotpLibrary

/-- How a step-up ends.  What escapes is a server error. -/
inductive StepUpAnswer where
  | locked (retryAfter : Int)
  | elevated (factorId : String)
  | refused (reason : String) (failure : Failure)
  | serverError (raised : TotpRaised)
  deriving DecidableEq, Repr

/-- `step_up_totp` once `verify_totp` has returned or raised. -/
def AttemptLimiter.settle (limiter : AttemptLimiter) :
    Except TotpRaised String → LimitProgram StepUpAnswer
  | .ok factorId => do
    AttemptLimiter.recordSuccess
    return .elevated factorId
  | .error (.rejected reason) => do
    let failure ← limiter.recordFailure
    return .refused reason failure
  | .error raised => return .serverError raised

/-- `step_up_totp` once it knows the person. -/
def AttemptLimiter.stepUp (limiter : AttemptLimiter) (verified : Except TotpRaised String) :
    LimitProgram StepUpAnswer := do
  let remaining : Int ← limitCommand .ttl
  if remaining > 0 then return .locked remaining
  else limiter.settle verified

/-- `_confirmed`, of the one-time codes. -/
def confirmedTotp (rows : List MfaFactor) (personUuid : String) : List MfaFactor :=
  rows.filter (FactorQuery.confirmed personUuid .totp).selects

/-- How often a program counts a failure. -/
def failuresCounted {α : Type} (program : LimitProgram α) (now : Int) (st : LimitState) : Nat :=
  ((Prog.trace (LimitState.exec now) program st).map Sigma.fst).count .incr

/-- A step-up by one-time code: the person, what the database and the limiter hold, and the code. -/
structure TotpStepUp where
  limiter : AttemptLimiter := {}
  store : LimitState := {}
  rows : List MfaFactor
  advance : MfaFactor → Int → Bool := fun _ _ => true
  personUuid : String
  moment : Int
  code : String

namespace TotpStepUp

variable (lib : TotpLibrary) (request : TotpStepUp)

/-- What `verify_totp` returns or raises. -/
def verified : Except TotpRaised String :=
  lib.verifyTotp request.advance request.code request.moment
    (confirmedTotp request.rows request.personUuid) none

/-- The program of the route. -/
def program : LimitProgram StepUpAnswer := request.limiter.stepUp (request.verified lib)

/-- What the route answers. -/
def answer : StepUpAnswer :=
  (Prog.run (LimitState.exec request.moment) (request.program lib) request.store).1

end TotpStepUp

/-- **Every wrong code is counted**: a factor of the person verifies the code or rejects it, and a
step-up that does not elevate is counted once. -/
structure CountsFailures (lib : TotpLibrary) (request : TotpStepUp) : Prop where
  rejects : ∀ factor ∈ confirmedTotp request.rows request.personUuid,
    ∀ secret ∈ factor.secret, ∀ raised,
      lib.verify secret request.code request.moment factor.lastStep = .error raised →
        ∃ reason, raised = .rejected reason
  counted : (∃ factorId, request.answer lib = .elevated factorId) ∨
    failuresCounted (request.program lib) request.moment request.store = 1

/-- The code passes for six digits and cannot be compared: one of them is not ASCII, or the clock
shows a step that cannot be packed. -/
def Incomparable (lib : TotpLibrary) (code : String) (moment : Int)
    (drift : Nat := totpDrift) : Prop :=
  (codeDigits code).length = totpDigits ∧ (codeDigits code).all lib.isdigit = true ∧
    (¬ AsciiChars (codeDigits code) ∨
      ∃ offset ∈ totpWindow drift, ¬ Packs (stepAt moment + offset))

instance (lib : TotpLibrary) (code : String) (moment : Int) (drift : Nat) :
    Decidable (Incomparable lib code moment drift) := inferInstanceAs (Decidable (_ ∧ _ ∧ (_ ∨ _)))

/-- The person has a factor whose secret can be read. -/
def HasReadable (lib : TotpLibrary) (request : TotpStepUp) : Prop :=
  ∃ factor ∈ confirmedTotp request.rows request.personUuid, ∃ secret ∈ factor.secret,
    lib.decodes secret = true

/-! ## The verifier -/

section Verifier

variable {lib : TotpLibrary} {secret code : String} {moment now : Int} {lastStep : Option Int}
  {digits : List Char} {drift : Nat}

theorem asciiChars_codeAt (mac : Mac) (secret : String) (step : Int) :
    AsciiChars (codeAt mac secret step) := by
  intro c hc
  unfold codeAt at hc
  rw [List.leftpad, List.mem_append] at hc
  have hdigit : c.isDigit = true := by
    rcases hc with hpad | hnumber
    · rw [List.eq_of_mem_replicate hpad]
      rfl
    · exact Nat.isDigit_of_mem_toDigits (by decide) (by decide) hnumber
  have hle : c.val ≤ 57 := by
    simp only [Char.isDigit, Bool.and_eq_true, decide_eq_true_eq] at hdigit
    exact hdigit.2
  have : c.toNat ≤ 57 := UInt32.le_iff_toNat_le.mp hle
  omega

theorem codeAt_of_not_decodes (h : lib.decodes secret = false) (step : Int) :
    lib.codeAt secret step = .error (.rejected totpMalformed) := if_pos h

theorem codeAt_of_decodes (h : lib.decodes secret = true) (step : Int) :
    lib.codeAt secret step =
      if Packs step then .ok (codeAt lib.mac secret step) else .error .structError := by
  unfold TotpLibrary.codeAt
  rw [if_neg (by simp [h])]

theorem scan_cons (h : lib.decodes secret = true) {offset : Int} (hpacks : Packs (now + offset))
    (rest : List Int) (matched : Option Int) :
    lib.scan secret now digits (offset :: rest) matched =
      (compareDigest (codeAt lib.mac secret (now + offset)) digits).bind fun same =>
        lib.scan secret now digits rest
          (if same ∧ matched = none then some (now + offset) else matched) := by
  rw [TotpLibrary.scan, codeAt_of_decodes h, if_pos hpacks]
  generalize codeAt lib.mac secret (now + offset) = expected
  rfl

/-- With a secret that can be read, ASCII text and steps that can be packed, every step is
compared. -/
theorem scan_of_comparable (h : lib.decodes secret = true) (hascii : AsciiChars digits)
    {offsets : List Int} (hpacks : ∀ offset ∈ offsets, Packs (now + offset))
    (matched : Option Int) :
    lib.scan secret now digits offsets matched = .ok (matched.or
      ((offsets.map (now + ·)).find? (codeAt lib.mac secret · = digits))) := by
  induction offsets generalizing matched with
  | nil => simp [TotpLibrary.scan]
  | cons offset rest ih =>
    rw [scan_cons h (hpacks offset List.mem_cons_self), compareDigest,
      if_pos ⟨asciiChars_codeAt _ _ _, hascii⟩]
    show lib.scan secret now digits rest _ = _
    rw [ih fun o ho => hpacks o (List.mem_cons_of_mem _ ho), List.map_cons, List.find?_cons]
    cases matched with
    | some m => simp
    | none =>
      by_cases hsame : codeAt lib.mac secret (now + offset) = digits
      · simp [hsame]
      · simp [hsame]

theorem scan_of_not_decodes (h : lib.decodes secret = false) {offset : Int} {rest : List Int}
    (matched : Option Int) :
    lib.scan secret now digits (offset :: rest) matched = .error (.rejected totpMalformed) := by
  rw [TotpLibrary.scan, codeAt_of_not_decodes h]
  rfl

theorem scan_of_incomparable (h : lib.decodes secret = true) {offsets : List Int}
    (hbad : offsets ≠ [] ∧ ¬ AsciiChars digits ∨ ∃ offset ∈ offsets, ¬ Packs (now + offset))
    (matched : Option Int) :
    ∃ raised : TotpRaised, raised.Escapes ∧
      lib.scan secret now digits offsets matched = .error raised := by
  induction offsets generalizing matched with
  | nil =>
    rcases hbad with ⟨hne, -⟩ | ⟨offset, hmem, -⟩
    · exact absurd rfl hne
    · cases hmem
  | cons offset rest ih =>
    by_cases hpacks : Packs (now + offset)
    · rw [scan_cons h hpacks, compareDigest]
      by_cases hascii : AsciiChars digits
      · have hlater : ∃ o ∈ rest, ¬ Packs (now + o) := by
          rcases hbad with ⟨-, hnot⟩ | ⟨o, hmem, ho⟩
          · exact absurd hascii hnot
          · rcases List.mem_cons.mp hmem with rfl | hrest
            · exact absurd hpacks ho
            · exact ⟨o, hrest, ho⟩
        rw [if_pos ⟨asciiChars_codeAt _ _ _, hascii⟩]
        exact ih (.inr hlater) _
      · rw [if_neg fun hboth => hascii hboth.2]
        exact ⟨.typeError, fun _ => by simp, rfl⟩
    · rw [TotpLibrary.scan, codeAt_of_decodes h, if_neg hpacks]
      exact ⟨.structError, fun _ => by simp, rfl⟩

theorem verify_of_digits (hlength : (codeDigits code).length = totpDigits)
    (hall : (codeDigits code).all lib.isdigit = true) :
    lib.verify secret code moment lastStep drift =
      (lib.scan secret (stepAt moment) (codeDigits code) (totpWindow drift) none).bind fun
        | none => .error (.rejected totpMismatch)
        | some matched =>
          match lastStep with
          | none => .ok matched
          | some last => if matched ≤ last then .error (.rejected totpReplay)
            else .ok matched := by
  unfold TotpLibrary.verify
  dsimp only
  rw [if_neg (by simp [hlength, hall])]
  rfl

/-- **Where `verify` raises what nobody catches**: six digits that cannot be compared, under a
secret that can be read. -/
theorem verify_escapes_iff :
    (∃ raised : TotpRaised, raised.Escapes ∧
      lib.verify secret code moment lastStep drift = .error raised) ↔
        lib.decodes secret = true ∧ Incomparable lib code moment drift := by
  have hwindow : totpWindow drift ≠ [] := List.cons_ne_nil _ _
  constructor
  · rintro ⟨raised, hescapes, hraised⟩
    by_cases hdigits : (codeDigits code).length = totpDigits ∧
        (codeDigits code).all lib.isdigit = true
    · rw [verify_of_digits hdigits.1 hdigits.2] at hraised
      cases hdecodes : lib.decodes secret with
      | false =>
        rw [totpWindow, scan_of_not_decodes hdecodes] at hraised
        obtain rfl := Except.error.inj hraised
        exact absurd rfl (hescapes _)
      | true =>
        refine ⟨rfl, hdigits.1, hdigits.2, ?_⟩
        by_contra hgood
        push Not at hgood
        rw [scan_of_comparable hdecodes hgood.1 hgood.2] at hraised
        dsimp only [Except.bind] at hraised
        -- what is compared matches a step or is rejected
        split at hraised
        · obtain rfl := Except.error.inj hraised
          exact hescapes _ rfl
        · split at hraised
          · cases hraised
          · split_ifs at hraised
            obtain rfl := Except.error.inj hraised
            exact hescapes _ rfl
    · unfold TotpLibrary.verify at hraised
      dsimp only at hraised
      rw [if_pos] at hraised
      · obtain rfl := Except.error.inj hraised
        exact absurd rfl (hescapes _)
      · by_contra hnot
        push Not at hnot
        exact hdigits ⟨hnot.1, by simpa using hnot.2⟩
  · rintro ⟨hdecodes, hlength, hall, hbad⟩
    obtain ⟨raised, hescapes, hscan⟩ := scan_of_incomparable hdecodes
      (hbad.imp_left fun hascii => ⟨hwindow, hascii⟩) none
    refine ⟨raised, hescapes, ?_⟩
    rw [verify_of_digits hlength hall, hscan]
    rfl

/-- **On codes that can be compared, `verify` is `totpVerify`.** -/
theorem verify_eq_totpVerify (hdecodes : lib.decodes secret = true)
    (hascii : AsciiChars (codeDigits code))
    (hpacks : ∀ offset ∈ totpWindow drift, Packs (stepAt moment + offset)) :
    lib.verify secret code moment lastStep drift =
      (totpVerify lib.mac secret code moment lastStep drift).mapError .rejected := by
  have hsame : (codeDigits code).all lib.isdigit = (codeDigits code).all Char.isDigit := by
    rw [Bool.eq_iff_iff, List.all_eq_true, List.all_eq_true]
    exact forall₂_congr fun c hc => by rw [lib.isdigit_ascii c (hascii c hc)]
  by_cases hdigits : (codeDigits code).length ≠ totpDigits ∨
      (codeDigits code).all lib.isdigit = false
  · unfold TotpLibrary.verify totpVerify
    dsimp only
    rw [if_pos hdigits, if_pos (hsame ▸ hdigits)]
    rfl
  · have hboth := hdigits
    push Not at hboth
    rw [verify_of_digits hboth.1 (by simpa using hboth.2), scan_of_comparable hdecodes hascii hpacks]
    have htotp : totpVerify lib.mac secret code moment lastStep drift =
        match ((totpWindow drift).map (stepAt moment + ·)).find?
            (codeAt lib.mac secret · = codeDigits code) with
        | none => .error totpMismatch
        | some matched =>
          match lastStep with
          | none => .ok matched
          | some last => if matched ≤ last then .error totpReplay else .ok matched := by
      unfold totpVerify
      dsimp only
      rw [if_neg (hsame ▸ hdigits)]
      rfl
    rw [htotp, Option.none_or]
    cases ((totpWindow drift).map (stepAt moment + ·)).find?
        (codeAt lib.mac secret · = codeDigits code) with
    | none => rfl
    | some matched =>
      cases lastStep with
      | none => rfl
      | some last =>
        dsimp only [Except.bind]
        split_ifs <;> rfl

end Verifier

/-! ## The loop over the factors -/

section Loop

variable {lib : TotpLibrary} {advance : MfaFactor → Int → Bool} {code : String} {moment : Int}
  {rows : List MfaFactor}

theorem verifyTotp_of_rejects (h : ∀ factor ∈ rows, ∀ secret ∈ factor.secret, ∀ raised,
    lib.verify secret code moment factor.lastStep = .error raised →
      ∃ reason, raised = .rejected reason) (last : Option String) {raised : TotpRaised}
    (hraised : lib.verifyTotp advance code moment rows last = .error raised) :
    ∃ reason, raised = .rejected reason := by
  induction rows generalizing last with
  | nil => exact ⟨_, (Except.error.inj hraised).symm⟩
  | cons factor rest ih =>
    have hrest := ih fun other hmem => h other (List.mem_cons_of_mem _ hmem)
    rw [TotpLibrary.verifyTotp] at hraised
    split at hraised
    · exact hrest last hraised
    · rename_i secret hsecret
      split at hraised
      · exact hrest _ hraised
      · rename_i other _ hverify
        obtain rfl := Except.error.inj hraised
        exact h factor List.mem_cons_self secret hsecret _ hverify
      · split_ifs at hraised
        exact ⟨_, (Except.error.inj hraised).symm⟩

end Loop

/-! ## The route -/

section Route

variable {limiter : AttemptLimiter} {st : LimitState} {now : Int}

theorem failuresCounted_afterCount {α : Type} (attempts : Nat) (f : Failure → α) :
    failuresCounted ((afterCount limiter attempts).bind fun failure => .pure (f failure)) now st =
      0 := by
  unfold afterCount
  split_ifs <;> rfl

/-- **A failure is counted once.** -/
theorem failuresCounted_recordFailure {α : Type} (f : Failure → α) :
    failuresCounted (limiter.recordFailure.bind fun failure => .pure (f failure)) now st = 1 := by
  rw [recordFailure_eq, Prog.call_bind]
  have hrest : ∀ (attempts : Nat) (st : LimitState), failuresCounted
      ((if attempts = 1 then
          .call (.expire limiter.windowEx) fun _ => afterCount limiter attempts
        else afterCount limiter attempts : LimitProgram Failure).bind
          fun failure => .pure (f failure)) now st = 0 := by
    intro attempts st
    split_ifs
    · exact failuresCounted_afterCount attempts f
    · exact failuresCounted_afterCount attempts f
  have hcall := hrest (LimitState.exec now .incr st).1 (LimitState.exec now .incr st).2
  show (LimitCmd.incr :: _).count .incr = 1
  rw [List.count_cons_self]
  exact congrArg (· + 1) hcall

theorem stepUp_eq (verified : Except TotpRaised String) : limiter.stepUp verified =
    .call .ttl fun remaining =>
      if remaining > 0 then .pure (.locked remaining) else limiter.settle verified := by
  refine congrArg (Prog.call LimitCmd.ttl) (funext fun remaining => ?_)
  change ite (remaining > 0) _ _ = _
  split_ifs <;> rfl

theorem run_stepUp (hunlocked : ¬ st.Locked now) (verified : Except TotpRaised String) :
    Prog.run (LimitState.exec now) (limiter.stepUp verified) st =
      Prog.run (LimitState.exec now) (limiter.settle verified) st := by
  rw [stepUp_eq, Prog.run_call]
  exact congrArg (Prog.run _ · st) (if_neg hunlocked)

theorem failuresCounted_stepUp (hunlocked : ¬ st.Locked now)
    (verified : Except TotpRaised String) :
    failuresCounted (limiter.stepUp verified) now st =
      failuresCounted (limiter.settle verified) now st := by
  rw [stepUp_eq]
  show (LimitCmd.ttl :: ((Prog.trace _ (if st.ttl now > 0 then _ else _) st).map _)).count .incr = _
  have hgoes : ¬ st.ttl now > 0 := hunlocked
  rw [if_neg hgoes, List.count_cons_of_ne (by decide)]
  rfl

end Route

/-- **When every wrong code is counted**: where no code of six digits that cannot be compared meets
a secret that can be read. -/
theorem countsFailures_iff (lib : TotpLibrary) (request : TotpStepUp)
    (hunlocked : ¬ request.store.Locked request.moment) :
    CountsFailures lib request ↔
      ¬ (Incomparable lib request.code request.moment ∧ HasReadable lib request) := by
  constructor
  · rintro hcounts ⟨hincomparable, factor, hmem, secret, hsecret, hdecodes⟩
    obtain ⟨raised, hescapes, hraised⟩ : ∃ raised : TotpRaised, raised.Escapes ∧
        lib.verify secret request.code request.moment factor.lastStep = .error raised :=
      verify_escapes_iff.mpr ⟨hdecodes, hincomparable⟩
    obtain ⟨reason, rfl⟩ := hcounts.rejects factor hmem secret hsecret raised hraised
    exact hescapes reason rfl
  · intro hnot
    have hrejects : ∀ factor ∈ confirmedTotp request.rows request.personUuid,
        ∀ secret ∈ factor.secret, ∀ raised,
          lib.verify secret request.code request.moment factor.lastStep = .error raised →
            ∃ reason, raised = .rejected reason := by
      intro factor hmem secret hsecret raised hraised
      by_contra hescapes
      push Not at hescapes
      obtain ⟨hdecodes, hincomparable⟩ := verify_escapes_iff.mp ⟨raised, hescapes, hraised⟩
      exact hnot ⟨hincomparable, factor, hmem, secret, hsecret, hdecodes⟩
    refine ⟨hrejects, ?_⟩
    unfold TotpStepUp.answer TotpStepUp.program
    rw [run_stepUp hunlocked, failuresCounted_stepUp hunlocked]
    cases hverified : request.verified lib with
    | ok factorId => exact .inl ⟨factorId, rfl⟩
    | error raised =>
      obtain ⟨reason, rfl⟩ := verifyTotp_of_rejects hrejects none hverified
      exact .inr (failuresCounted_recordFailure _)

/-! ### Two codes -/

/-- A library that knows the digits of two scripts, and one MAC. -/
def someLibrary : TotpLibrary where
  isdigit c := c.isDigit || (1632 ≤ c.toNat && c.toNat ≤ 1641)
  decodes secret := secret = "JBSWY3DPEHPK3PXP"
  mac _ _ := List.replicate 20 0
  isdigit_ascii c hc := by
    have : ¬ 1632 ≤ c.toNat := by omega
    simp [this]

/-- Sam's telephone. -/
def samsFactor : MfaFactor where
  id := "f1"
  personUuid := "sam"
  kind := .totp
  label := "phone"
  secret := some "JBSWY3DPEHPK3PXP"
  confirmedAt := some 0

/-- A step-up of Sam's with the code. -/
def samsStepUp (code : String) : TotpStepUp where
  rows := [samsFactor]
  personUuid := "sam"
  moment := 1700000000 * second
  code := code

/-- A wrong code in two groups. -/
theorem countsFailures_sam : CountsFailures someLibrary (samsStepUp "123 456") :=
  (countsFailures_iff someLibrary (samsStepUp "123 456") (by decide)).mpr
    fun h => absurd h.1 (by decide +kernel)

/-- **Six digits of another script are not counted.** -/
theorem not_countsFailures : ¬ ∀ (lib : TotpLibrary) (request : TotpStepUp),
    ¬ request.store.Locked request.moment →
      confirmedTotp request.rows request.personUuid ≠ [] → CountsFailures lib request := by
  intro h
  have hraises : (samsStepUp "٠١٢٣٤٥").answer someLibrary = .serverError .typeError := by
    decide +kernel
  rcases (h someLibrary (samsStepUp "٠١٢٣٤٥") (by decide) (by decide)).counted with
    ⟨factorId, helevated⟩ | hcounted
  · rw [hraises] at helevated
    cases helevated
  · exact absurd hcounted (by decide +kernel)

end Mfa
end CampusID
