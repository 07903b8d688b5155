import CampusID.Mfa.Factors

/-!
# A code is single use

Calls of `verify_totp` and `confirm_totp` in any number, interleaved statement by statement.

`verify_totp` writes only over the mark it read, and the row stays locked from that write to the
commit, so the mark it publishes is above the one that is there.  `confirm_totp` compares its step
with the mark it read, and writes over whatever is there when it commits.  `totp_single_use` holds
of the runs in which no mark that has reached the step of a confirmation is committed between its
read and its commit (`Timely`), and `confirm_replays` is a run with one that is.
-/

namespace CampusID
namespace Mfa

open Lib
open Lib.ReadCommitted

/-- A call of the store.  The serial number tells apart calls that are otherwise the same. -/
inductive TotpCall where
  | verify (serial : Nat) (personUuid code : String) (now : Int)
  | confirm (serial : Nat) (personUuid factorId code : String) (now : Int)
  deriving DecidableEq, Repr

/-- The call is a confirmation. -/
def TotpCall.Confirms : TotpCall → Prop
  | .verify _ _ _ _ => False
  | .confirm _ _ _ _ _ => True

instance : (call : TotpCall) → Decidable call.Confirms
  | .verify _ _ _ _ => .isFalse id
  | .confirm _ _ _ _ _ => .isTrue trivial

/-- The program of a call. -/
def TotpCall.program (mac : Mac) (call : TotpCall) :
    FactorProgram TotpCall (Except String (Option String)) :=
  match call with
  | .verify _ personUuid code now => verifyTotp mac call personUuid code now
  | .confirm _ personUuid factorId code now => confirmTotp mac call personUuid factorId code now

/-- The calls on the table of factors. -/
def totpCalls (mac : Mac) : System String MfaFactor FactorQuery FactorUpdate TotpCall
    (Except String (Option String)) := ⟨factors, TotpCall.program mac⟩

/-- A call in progress. -/
abbrev TotpThread := TxThread MfaFactor FactorQuery FactorUpdate TotpCall
  (Except String (Option String))

/-- The calls in progress over the table of factors. -/
abbrev TotpPool := TxPool MfaFactor FactorQuery FactorUpdate TotpCall
  (Except String (Option String))

/-- The step an update assigns. -/
def FactorUpdate.step : FactorUpdate → Option Int
  | .advance _ _ step _ => some step
  | .confirm _ step _ => some step
  | .count _ _ _ => none

/-- The call returned, and moved the mark of the factor to the step. -/
def Accepted (th : TotpThread) (factorId : String) (step : Int) : Prop :=
  (∃ out, th.rest = .pure (.ok out)) ∧ ∃ (u : FactorUpdate) (n : Nat),
    th.Saw (th.request, .update u) n ∧ n ≠ 0 ∧ u.factorId = factorId ∧ u.step = some step

/-- A mark that has not gone down. -/
def NotAfter (mark mark' : Option Int) : Prop := ∀ last ∈ mark, ∃ last' ∈ mark', last ≤ last'

/-- No two calls are accepted for one step of one factor. -/
def AcceptedOnce (p : TotpPool) : Prop :=
  ∀ i j th th' factorId step, p.At i th → p.At j th' → Accepted th factorId step →
    Accepted th' factorId step → i = j

/-- No committed mark has gone down between two states. -/
def MarksKept (p p' : TotpPool) : Prop :=
  ∀ factor ∈ p.store.rows, ∃ factor' ∈ p'.store.rows, factor'.id = factor.id ∧
    NotAfter factor.lastStep factor'.lastStep

/-- **No mark overtakes a confirmation** between its read and its commit: when it commits, the mark
of its factor is still the one it read, or another below its step. -/
def Timely (p : TotpPool) : Move TotpCall Int → Prop
  | .advance i => ∀ th ∈ p.threads[i]?, th.request.Confirms →
    p.next i = some (th.request, .commit) → ∀ written ∈ p.store.own th.request,
      ∀ factor ∈ p.store.rows, factor.id = written.id →
        (∀ loaded ∈ readRows th.replies, loaded.id = factor.id → factor.lastStep = loaded.lastStep) ∨
          ∀ step ∈ written.lastStep, Below factor.lastStep step
  | _ => True

instance (p : TotpPool) : (mv : Move TotpCall Int) → Decidable (Timely p mv)
  | .tick _ => .isTrue trivial
  | .spawn _ => .isTrue trivial
  | .advance i => inferInstanceAs (Decidable (∀ th ∈ p.threads[i]?, th.request.Confirms →
      p.next i = some (th.request, .commit) → ∀ written ∈ p.store.own th.request,
        ∀ factor ∈ p.store.rows, factor.id = written.id →
          (∀ loaded ∈ readRows th.replies, loaded.id = factor.id →
            factor.lastStep = loaded.lastStep) ∨
              ∀ step ∈ written.lastStep, Below factor.lastStep step))

/-! ## The transactions -/

section Programs

variable (mac : Mac)

theorem tidy_tryFactors {X : Type} (x : X) (code : String) (now : Int) :
    ∀ (rows : List MfaFactor) (last : Option String),
      Tidy x false (tryFactors mac x code now rows last)
  | [], last => ⟨rfl, rfl⟩
  | factor :: rest, last => by
    unfold tryFactors
    cases factor.secret with
    | none => exact tidy_tryFactors x code now rest last
    | some secret =>
      dsimp only
      split
      · exact tidy_tryFactors x code now rest _
      · exact tidy_write

theorem tidy_program (call : TotpCall) : Tidy call false (call.program mac) := by
  cases call with
  | verify serial personUuid code now =>
    exact ⟨rfl, fun rows => tidy_tryFactors mac _ code now rows none⟩
  | confirm serial personUuid factorId code now =>
    refine ⟨rfl, fun rows => ?_⟩
    change Tidy _ false (confirmLoaded _ _ _ _ (List.head? rows))
    unfold confirmLoaded
    split
    · exact tidy_refuse
    · split
      · exact tidy_refuse
      · exact tidy_write

/-- What the updates of a call make of a row: they move its mark to a step, a verification to
one above it. -/
def Moves (call : TotpCall) (factor written : MfaFactor) : Prop :=
  ∃ step, written.lastStep = some step ∧ (call.Confirms ∨ Below factor.lastStep step)

theorem writes_tryFactors (call : TotpCall) (code : String) (now : Int) :
    ∀ (rows : List MfaFactor) (last : Option String),
      Prog.Only ((totpCalls mac).Writes Moves (fun _ _ => False) call)
        (tryFactors mac call code now rows last)
  | [], last => ⟨trivial, fun _ => trivial⟩
  | factor :: rest, last => by
    unfold tryFactors
    cases factor.secret with
    | none => exact writes_tryFactors call code now rest last
    | some secret =>
      dsimp only
      split
      · exact writes_tryFactors call code now rest _
      · rename_i step hstep
        refine only_write (fun r hhit => ⟨step, rfl, .inr ?_⟩) trivial trivial
        obtain ⟨-, hmark⟩ := of_decide_eq_true hhit
        rw [hmark]
        exact below_of_totpVerify hstep

theorem writes_program (call : TotpCall) :
    Prog.Only ((totpCalls mac).Writes Moves (fun _ _ => False) call) (call.program mac) := by
  cases call with
  | verify serial personUuid code now =>
    exact ⟨trivial, fun rows => writes_tryFactors mac _ code now rows none⟩
  | confirm serial personUuid factorId code now =>
    refine ⟨trivial, fun rows => ?_⟩
    change Prog.Only _ (confirmLoaded _ _ _ _ (List.head? rows))
    unfold confirmLoaded
    split
    · exact only_refuse trivial
    · split
      · exact only_refuse trivial
      · rename_i step hstep
        exact only_write (fun r _ => ⟨step, rfl, .inl trivial⟩) trivial trivial

/-- An update moves the mark of the row it is based on to a step above it. -/
def Above (loaded : MfaFactor) (u : FactorUpdate) : Prop :=
  u.factorId = loaded.id ∧ ∃ step, u.step = some step ∧ Below loaded.lastStep step

theorem based_tryFactors {X : Type} (x : X) (code : String) (now : Int) {read : List MfaFactor} :
    ∀ (rows : List MfaFactor) (last : Option String), rows ⊆ read →
      Based Above read (tryFactors mac x code now rows last)
  | [], last, _ => trivial
  | factor :: rest, last, hsub => by
    obtain ⟨hfactor, hrest⟩ := List.cons_subset.mp hsub
    unfold tryFactors
    cases factor.secret with
    | none => exact based_tryFactors x code now rest last hrest
    | some secret =>
      dsimp only
      split
      · exact based_tryFactors x code now rest _ hrest
      · rename_i step hstep
        exact based_write hfactor ⟨rfl, step, rfl, below_of_totpVerify hstep⟩

/-- **Both calls compare the step with a mark they have read.** -/
theorem based_program (call : TotpCall) : Based Above [] (call.program mac) := by
  cases call with
  | verify serial personUuid code now =>
    exact fun rows => based_tryFactors mac _ code now rows none (List.Subset.refl rows)
  | confirm serial personUuid factorId code now =>
    intro rows
    change Based _ rows (confirmLoaded _ _ _ _ (List.head? rows))
    unfold confirmLoaded
    split
    · exact based_refuse
    · rename_i factor secret hloaded
      obtain ⟨loaded, hhead, hsecret⟩ := Option.bind_eq_some_iff.mp hloaded
      obtain ⟨_, -, heq⟩ := Option.map_eq_some_iff.mp hsecret
      obtain ⟨rfl, rfl⟩ := Prod.mk.inj heq
      split
      · exact based_refuse
      · rename_i step hstep
        exact based_write (List.mem_of_head? hhead) ⟨rfl, step, rfl, below_of_totpVerify hstep⟩

end Programs

theorem lastStep_set {u : FactorUpdate} {step : Int} (h : u.step = some step) (r : MfaFactor) :
    (factors.set u r).lastStep = some step := by
  cases u with
  | advance => exact h
  | confirm => exact h
  | count => cases h

/-! ## What is committed -/

theorem NotAfter.refl (mark : Option Int) : NotAfter mark mark :=
  fun last h => ⟨last, h, le_rfl⟩

theorem NotAfter.trans {a b c : Option Int} (hab : NotAfter a b) (hbc : NotAfter b c) :
    NotAfter a c := by
  intro last h
  obtain ⟨last', h', hle⟩ := hab last h
  obtain ⟨last'', h'', hle'⟩ := hbc last' h'
  exact ⟨last'', h'', hle.trans hle'⟩

theorem Below.notAfter {mark : Option Int} {step : Int} (h : Below mark step) :
    NotAfter mark (some step) :=
  fun last hlast => ⟨step, rfl, (h last hlast).le⟩

/-- A later version of a factor has a mark above the earlier one's. -/
def Rises (earlier later : Option TotpCall × MfaFactor) : Prop :=
  earlier.2.id = later.2.id → ∃ step, later.2.lastStep = some step ∧
    Below earlier.2.lastStep step

/-- The marks of every factor rise in the order of the commits, and each row is above them. -/
structure Marked (db : Db TotpCall MfaFactor) : Prop where
  ledger : db.Ledger factors fun a b => NotAfter a.lastStep b.lastStep
  rises : db.log.Pairwise Rises

theorem marked_start {rows : List MfaFactor} (hrows : (rows.map MfaFactor.id).Nodup) :
    Marked (Db.start rows) := by
  refine ⟨Db.ledger_start (fun v => NotAfter.refl v.lastStep) rows, ?_⟩
  refine List.pairwise_map.mpr ((List.pairwise_map.mp hrows).imp ?_)
  exact fun hne hid => absurd hid hne

section Commit

variable {mac : Mac} {p : TotpPool} {i : Nat} {th : TotpThread}
  {k : Unit → FactorProgram TotpCall (Except String (Option String))}

/-- **What a commit publishes is above what is there**, whether the call verifies or confirms
in time. -/
theorem below_of_commit (h : (totpCalls mac).Sound Moves (fun _ _ => False) p)
    (htimely : Timely p (.advance i)) (hi : p.At i th)
    (hr : th.rest = .call (th.request, .commit) k) {written factor : MfaFactor}
    (hw : written ∈ p.store.own th.request) (hf : factor ∈ p.store.rows)
    (hid : factor.id = written.id) :
    ∃ step, written.lastStep = some step ∧ Below factor.lastStep step := by
  obtain ⟨r, hrow, hkey, step, hstep, hbelow⟩ := (h.of_own hi hw).resolve_right fun hnew => hnew.1
  obtain rfl : r = factor := List.inj_on_of_nodup_map h.rows hrow hf (hkey.trans hid.symm)
  refine ⟨step, hstep, hbelow.elim (fun hc => ?_) id⟩
  -- the step of a confirmation is above the mark it read
  obtain ⟨u, ⟨loaded, hread, hsame, step', hstep', habove⟩, r', hhit, rfl⟩ :=
    h.based hi (based_program mac th.request) hw id
  obtain rfl : step' = step :=
    Option.some.inj ((lastStep_set hstep' r').symm.trans hstep)
  have hloaded : loaded.id = r.id :=
    hsame.symm.trans ((factorId_of_hits hhit).symm.trans ((factors.key_set u r').symm.trans hid.symm))
  rcases htimely th hi hc (Pool.next_eq hi hr) _ hw r hf hid with hmark | hlater
  · rw [hmark loaded hread hloaded]
    exact habove
  · exact hlater step' hstep

theorem notAfter_of_commit (h : (totpCalls mac).Sound Moves (fun _ _ => False) p)
    (htimely : Timely p (.advance i)) (hi : p.At i th)
    (hr : th.rest = .call (th.request, .commit) k) {written factor : MfaFactor}
    (hw : written ∈ p.store.own th.request) (hf : factor ∈ p.store.rows)
    (hid : factor.id = written.id) : NotAfter factor.lastStep written.lastStep := by
  obtain ⟨step, hstep, hbelow⟩ := below_of_commit h htimely hi hr hw hf hid
  rw [hstep]
  exact hbelow.notAfter

theorem marked_commit (h : (totpCalls mac).Sound Moves (fun _ _ => False) p)
    (hm : Marked p.store) (htimely : Timely p (.advance i)) (hi : p.At i th)
    (hr : th.rest = .call (th.request, .commit) k) :
    Marked (p.store.committed factors th.request) := by
  refine ⟨hm.ledger.commit (fun _ _ _ => NotAfter.trans) (fun v => NotAfter.refl v.lastStep)
    (h.keys _) fun written hw factor hf hid => notAfter_of_commit h htimely hi hr hw hf hid,
    hm.ledger.pairwise_commit hm.rises ?_ ?_⟩
  · refine (List.pairwise_map.mp (h.keys th.request)).imp ?_
    exact fun hne hid => absurd hid hne
  · intro e _ written hw factor hf hid hle hid'
    obtain ⟨step, hstep, hbelow⟩ := below_of_commit h htimely hi hr hw hf (hid.trans hid')
    refine ⟨step, hstep, fun last hlast => ?_⟩
    obtain ⟨last', hlast', hle'⟩ := hle last hlast
    exact lt_of_le_of_lt hle' (hbelow last' hlast')

end Commit

theorem logged_of_accepted {mac : Mac} {p : TotpPool} {i : Nat} {th : TotpThread}
    (h : (totpCalls mac).Sound Moves (fun _ _ => False) p) (hi : p.At i th) {factorId : String}
    {step : Int} (ha : Accepted th factorId step) :
    ∃ written, (some th.request, written) ∈ p.store.log ∧ written.id = factorId ∧
      written.lastStep = some step := by
  obtain ⟨⟨out, hr⟩, u, n, hs, hn, hfactor, hstep⟩ := ha
  obtain ⟨r, hhit, hlog⟩ := h.logged hi hr hs hn
  refine ⟨_, hlog, ?_, ?_⟩
  · exact (factors.key_set u r).trans ((factorId_of_hits hhit).trans hfactor)
  · exact lastStep_set hstep r

/-- **A code is single use, in time.**  Where no mark overtakes a confirmation between its read and
its commit, no two calls are accepted for one step of one factor, and no mark goes down. -/
theorem totp_single_use (mac : Mac) {rows : List MfaFactor}
    (hrows : (rows.map MfaFactor.id).Nodup) {now : Int} {moves : List (Move TotpCall Int)}
    {p : TotpPool} (hrun : Run (fun p mv => (totpCalls mac).Possible p mv ∧ Timely p mv)
      (totpCalls mac).step (System.start rows now) moves p) :
    AcceptedOnce p ∧ ∀ moves' p', Run (fun p mv => (totpCalls mac).Possible p mv ∧ Timely p mv)
      (totpCalls mac).step p moves' p' → MarksKept p p' := by
  have hframe : ∀ db db' : Db TotpCall MfaFactor, db'.rows = db.rows → db'.log = db.log → Marked db →
      Marked db' := by
    rintro db db' hrows hlog ⟨hledger, hrises⟩
    exact ⟨by unfold Db.Ledger; rwa [hrows, hlog], by rwa [hlog]⟩
  obtain ⟨h, hm⟩ := System.run_sound (tidy_program mac) (writes_program mac) hframe
    (fun p i th k h hm htimely hi hr => marked_commit h hm htimely hi hr) hrun
    (System.sound_start hrows now) (marked_start hrows)
  refine ⟨fun i j th th' factorId step hi hj ha ha' => ?_, fun moves' p' hrun' factor hf => ?_⟩
  · obtain ⟨v, hv, hvid, hvstep⟩ := logged_of_accepted h hi ha
    obtain ⟨w, hw, hwid, hwstep⟩ := logged_of_accepted h hj ha'
    refine h.distinct i j th th' hi hj ?_
    by_contra hne
    -- of two versions one is earlier, and the later one has the higher mark
    have hdiffer : ∀ a b : Option TotpCall × MfaFactor, Rises a b → a.2.id = b.2.id →
        a.2.lastStep ≠ b.2.lastStep := by
      intro a b hab hid heq
      obtain ⟨s, hs, hbelow⟩ := hab hid
      exact lt_irrefl s (hbelow s (heq.trans hs))
    rcases Db.earlier_or_later hm.rises hv hw
      (fun heq => hne (Option.some.inj (congrArg Prod.fst heq))) with hr | hr
    · exact hdiffer _ _ hr (hvid.trans hwid.symm) (hvstep.trans hwstep.symm)
    · exact hdiffer _ _ hr (hwid.trans hvid.symm) (hwstep.trans hvstep.symm)
  · have hfactor : ∀ db db' : Db TotpCall MfaFactor, db'.rows = db.rows → db'.log = db.log →
        (Marked db ∧ ∃ factor' ∈ db.rows, factor'.id = factor.id ∧
          NotAfter factor.lastStep factor'.lastStep) →
        Marked db' ∧ ∃ factor' ∈ db'.rows, factor'.id = factor.id ∧
          NotAfter factor.lastStep factor'.lastStep := by
      rintro db db' hrows hlog ⟨hm, hex⟩
      exact ⟨hframe db db' hrows hlog hm, by rwa [hrows]⟩
    refine (System.run_sound (tidy_program mac) (writes_program mac) hfactor ?_ hrun' h
      ⟨hm, factor, hf, rfl, NotAfter.refl _⟩).2.2
    rintro q i th k h ⟨hm, factor', hf', hid, hle⟩ htimely hi hr
    refine ⟨marked_commit h hm htimely hi hr, ?_⟩
    obtain ⟨factor'', hf'', hid', hle'⟩ := Db.exists_row_committed
      (fun v : MfaFactor => NotAfter.refl v.lastStep) (h.keys th.request)
      (fun w hw r hr' hid => notAfter_of_commit h htimely hi hr hw hr' hid) hf'
    exact ⟨factor'', hf'', hid'.trans hid, hle.trans hle'⟩

/-! ### A confirmation that commits too late -/

/-- The MACs of the steps `0` to `2` under the secret `12345678901234567890`. -/
def sampleMac : Mac := fun _ step =>
  if step = 0 then
    [204, 147, 207, 24, 80, 141, 148, 147, 76, 100, 182, 93, 139, 167, 102, 127, 183, 205, 228, 176]
  else if step = 1 then
    [117, 164, 138, 25, 212, 203, 225, 0, 100, 78, 138, 193, 57, 126, 234, 116, 122, 45, 51, 171]
  else if step = 2 then
    [11, 172, 183, 250, 8, 47, 239, 48, 120, 34, 17, 147, 139, 193, 197, 231, 4, 22, 255, 68]
  else []

/-- That secret in base32, on a confirmed factor that has accepted nothing. -/
def sampleFactor : MfaFactor where
  id := "f1"
  personUuid := "p1"
  kind := .totp
  label := "phone"
  secret := some "GEZDGNBVGY3TQOJQGEZDGNBVGY3TQOJQ"
  confirmedAt := some 0

/-- A step-up, and after it a confirmation with the code of the next step. -/
def promptMoves : List (Move TotpCall Int) :=
  [.spawn (.verify 1 "p1" "287082" (59 * second)), .advance 0, .advance 0, .advance 0,
    .spawn (.confirm 2 "p1" "f1" "359152" (60 * second)), .advance 1, .advance 1, .advance 1]

/-- The state they lead to. -/
def promptPool : TotpPool := promptMoves.foldl (totpCalls sampleMac).step
  (System.start [sampleFactor] 0)

/-- The confirmation is in time. -/
theorem totp_single_use_prompt : AcceptedOnce promptPool ∧ ∀ moves' p',
    Run (fun p mv => (totpCalls sampleMac).Possible p mv ∧ Timely p mv)
      (totpCalls sampleMac).step promptPool moves' p' → MarksKept promptPool p' :=
  totp_single_use sampleMac (by decide) (Run.of_admits (by decide +kernel))

/-- A step-up with the code of the step, between the read and the write of a confirmation with
the same code. -/
def lateMoves : List (Move TotpCall Int) :=
  [.spawn (.verify 1 "p1" "287082" (59 * second)),
    .spawn (.confirm 2 "p1" "f1" "287082" (59 * second)),
    .advance 1, .advance 0, .advance 0, .advance 0, .advance 1, .advance 1]

/-- The state it leads to. -/
def latePool : TotpPool := lateMoves.foldl (totpCalls sampleMac).step
  (System.start [sampleFactor] 0)

theorem accepted_verify : ∃ th, latePool.At 0 th ∧ Accepted th "f1" 1 := by
  refine ⟨⟨.verify 1 "p1" "287082" (59 * second),
    [(0, ⟨(.verify 1 "p1" "287082" (59 * second), .select (.confirmed "p1" .totp)), [sampleFactor]⟩),
      (0, ⟨(.verify 1 "p1" "287082" (59 * second), .update (.advance "f1" none 1 (59 * second))), (1 : Nat)⟩),
      (0, ⟨(.verify 1 "p1" "287082" (59 * second), .commit), ()⟩)], .pure (.ok (some "f1"))⟩, rfl, ⟨_, rfl⟩,
    .advance "f1" none 1 (59 * second), 1, ?_, Nat.one_ne_zero, rfl, rfl⟩
  exact .tail _ (.head _)

theorem accepted_confirm : ∃ th, latePool.At 1 th ∧ Accepted th "f1" 1 := by
  refine ⟨⟨.confirm 2 "p1" "f1" "287082" (59 * second),
    [(0, ⟨(.confirm 2 "p1" "f1" "287082" (59 * second), .select (.live "p1" "f1")), [sampleFactor]⟩),
      (0, ⟨(.confirm 2 "p1" "f1" "287082" (59 * second), .update (.confirm "f1" 1 (59 * second))), (1 : Nat)⟩),
      (0, ⟨(.confirm 2 "p1" "f1" "287082" (59 * second), .commit), ()⟩)], .pure (.ok none)⟩, rfl, ⟨_, rfl⟩,
    .confirm "f1" 1 (59 * second), 1, ?_, Nat.one_ne_zero, rfl, rfl⟩
  exact .tail _ (.head _)

/-- **The confirmation accepts the step the step-up has accepted.** -/
theorem confirm_replays : ¬ ∀ (mac : Mac) (rows : List MfaFactor) (now : Int)
    (moves : List (Move TotpCall Int)) (p : TotpPool), (rows.map MfaFactor.id).Nodup →
    Run (totpCalls mac).Possible (totpCalls mac).step (System.start rows now) moves p →
      AcceptedOnce p ∧ ∀ moves' p', Run (totpCalls mac).Possible (totpCalls mac).step p moves' p' →
        MarksKept p p' := by
  intro h
  obtain ⟨honce, -⟩ := h sampleMac [sampleFactor] 0 lateMoves latePool (by decide)
    (Run.of_admits (by decide +kernel))
  obtain ⟨th, hi, ha⟩ := accepted_verify
  obtain ⟨th', hj, ha'⟩ := accepted_confirm
  exact absurd (honce 0 1 th th' "f1" 1 hi hj ha ha') (by decide)

end Mfa
end CampusID
