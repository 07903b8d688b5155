import CampusID.Lib.Transactions
import Mathlib.Data.List.Perm.Subperm

/-!
# Recovery sheets

The rows of `mfa_recovery_code`, and the transactions that issue a sheet and redeem a code.

Issuing supersedes the live rows it sees and inserts a sheet.  Redeeming reads the live rows,
checks their hashes one after the other, and spends the row that matched by an update that asks
whether it is unused, but not whether it is superseded.

`sheets_hold` is about the runs in which nothing supersedes a code between the read and the commit
of its redemption, and no issue commits while another for its person is underway (`Current`).
That a code is redeemed once holds in all runs (`redeemed_once`).

What the hash of a code is, and whether a typed code is the one behind it, is a parameter; the
codes and hashes of a sheet are drawn by the caller.
-/

namespace CampusID
namespace Mfa

open Lib
open Lib.ReadCommitted

/-- `COUNT`. -/
def recoveryCount : Nat := 10

/-- `NO_SUCH_CODE`. -/
def noSuchCode : String := "mfa.no_such_recovery_code"

/-- `CODE_SPENT`. -/
def codeSpent : String := "mfa.recovery_code_spent"

/-- `RecoveryCode`. -/
structure RecoveryCode where
  id : String
  personUuid : String
  codeHash : String
  usedAt : Option Int := none
  supersededAt : Option Int := none
  deriving DecidableEq, Repr

/-- Neither used nor superseded. -/
def RecoveryCode.Live (code : RecoveryCode) : Prop :=
  code.usedAt = none ∧ code.supersededAt = none

instance (code : RecoveryCode) : Decidable code.Live :=
  inferInstanceAs (Decidable (_ ∧ _))

/-- A code that is drawn, its row's key and its hash. -/
structure DrawnCode where
  id : String
  code : String
  hash : String
  deriving DecidableEq, Repr

/-- What `generate` and `hash_code` draw. -/
structure Sheet where
  codes : List DrawnCode
  complete : codes.length = recoveryCount
  deriving DecidableEq

/-- The rows of a sheet. -/
def Sheet.rows (sheet : Sheet) (personUuid : String) : List RecoveryCode :=
  sheet.codes.map fun drawn =>
    { id := drawn.id, personUuid := personUuid, codeHash := drawn.hash }

/-- The live codes of a person. -/
inductive RecoveryQuery where
  | live (personUuid : String)
  deriving DecidableEq, Repr

/-- What the store updates. -/
inductive RecoveryUpdate where
  | supersede (personUuid : String) (now : Int)
  | spend (codeId : String) (now : Int)
  deriving DecidableEq, Repr

/-- The table. -/
def recoveryCodes : Schema String RecoveryCode RecoveryQuery RecoveryUpdate where
  key := RecoveryCode.id
  selects
    | .live personUuid, code => code.personUuid = personUuid ∧ code.Live
  hits
    | .supersede personUuid _, code => code.personUuid = personUuid ∧ code.Live
    | .spend codeId _, code => code.id = codeId ∧ code.usedAt = none
  set
    | .supersede _ now, code => { code with supersededAt := some now }
    | .spend _ now, code => { code with usedAt := some now }
  key_set u code := by cases u <;> rfl

/-- How a call ends. -/
inductive RecoveryOutcome where
  | issued (codes : List String)
  | redeemed (remaining : Nat)
  | refused (reason : String)
  deriving DecidableEq, Repr

/-- A transaction on the table. -/
abbrev RecoveryProgram (X : Type) := Program X RecoveryCode RecoveryQuery RecoveryUpdate

section Programs

variable {X : Type}

/-- One statement of transaction `x`. -/
def recoveryStatement (x : X) (stmt : Stmt RecoveryCode RecoveryQuery RecoveryUpdate) :
    RecoveryProgram X stmt.Answer := Prog.send (x, stmt)

/-- `issue_recovery_codes`. -/
def issueRecoveryCodes (x : X) (personUuid : String) (sheet : Sheet) (now : Int) :
    RecoveryProgram X RecoveryOutcome := do
  let _ : Nat ← recoveryStatement x (.update (.supersede personUuid now))
  recoveryStatement x (.insert (sheet.rows personUuid))
  recoveryStatement x .commit
  return .issued (sheet.codes.map DrawnCode.code)

/-- The loop of `redeem_recovery_code`, with the number of the codes it was started with. -/
def redeemLive (matching : String → String → Bool) (x : X) (code : String) (now : Int) (live : Nat) :
    List RecoveryCode → RecoveryProgram X RecoveryOutcome
  | [] => do
    recoveryStatement x .commit
    return .refused noSuchCode
  | candidate :: rest =>
    if matching candidate.codeHash code then do
      let spent : Nat ← recoveryStatement x (.update (.spend candidate.id now))
      if spent = 0 then do
        recoveryStatement x .rollback
        return .refused codeSpent
      else do
        recoveryStatement x .commit
        return .redeemed (live - 1)
    else redeemLive matching x code now live rest

/-- `redeem_recovery_code`. -/
def redeemRecoveryCode (matching : String → String → Bool) (x : X) (personUuid code : String)
    (now : Int) : RecoveryProgram X RecoveryOutcome := do
  let live : List RecoveryCode ← recoveryStatement x (.select (.live personUuid))
  redeemLive matching x code now live.length live

end Programs

/-- A call of the store.  The serial number tells apart calls that are otherwise the same. -/
inductive RecoveryCall where
  | issue (serial : Nat) (personUuid : String) (sheet : Sheet) (now : Int)
  | redeem (serial : Nat) (personUuid code : String) (now : Int)
  deriving DecidableEq

/-- The call issues a sheet for the person. -/
def RecoveryCall.Issues (personUuid : String) : RecoveryCall → Prop
  | .issue _ person _ _ => person = personUuid
  | .redeem _ _ _ _ => False

/-- The call redeems a code. -/
def RecoveryCall.Redeems : RecoveryCall → Prop
  | .issue _ _ _ _ => False
  | .redeem _ _ _ _ => True

/-- The rows of the sheet a call issues. -/
def RecoveryCall.sheetRows : RecoveryCall → List RecoveryCode
  | .issue _ personUuid sheet _ => sheet.rows personUuid
  | .redeem _ _ _ _ => []

/-- The calls on the table of codes. -/
def recoveryCalls (matching : String → String → Bool) : System String RecoveryCode RecoveryQuery
    RecoveryUpdate RecoveryCall RecoveryOutcome where
  schema := recoveryCodes
  program call :=
    match call with
    | .issue _ personUuid sheet now => issueRecoveryCodes call personUuid sheet now
    | .redeem _ personUuid code now => redeemRecoveryCode matching call personUuid code now

/-- A call in progress. -/
abbrev RecoveryThread := TxThread RecoveryCode RecoveryQuery RecoveryUpdate RecoveryCall
  RecoveryOutcome

/-- The calls in progress over the table of codes. -/
abbrev RecoveryPool := TxPool RecoveryCode RecoveryQuery RecoveryUpdate RecoveryCall
  RecoveryOutcome

/-! ## One sheet, each code once -/

/-- The call returned, and spent the code. -/
def Redeemed (th : RecoveryThread) (codeId : String) : Prop :=
  (∃ remaining, th.rest = .pure (.redeemed remaining)) ∧ ∃ (now : Int) (n : Nat),
    th.Saw (th.request, .update (.spend codeId now)) n ∧ n ≠ 0

/-- No code is redeemed by two calls. -/
def RedeemedOnce (p : RecoveryPool) : Prop :=
  ∀ i j th th' codeId, p.At i th → p.At j th' → Redeemed th codeId → Redeemed th' codeId → i = j

/-- Once an issue has committed, no redemption of a code that was there before, and is not of
its sheet, commits. -/
def OldSheetsRetired (p : RecoveryPool) : Prop :=
  ∀ a b c, [a, b, c].Sublist p.store.log → a.2.id = c.2.id → a.1 ≠ b.1 →
    ∀ issue redeem, b.1 = some issue → issue.Issues c.2.personUuid → c.1 = some redeem →
      ¬ redeem.Redeems

/-- The live codes of a person are of one sheet, and no more than a sheet has. -/
structure OneSheetLive (p : RecoveryPool) : Prop where
  one : ∀ x x' code code', (x, code) ∈ p.store.log → (x', code') ∈ p.store.log →
    code ∈ p.store.rows → code' ∈ p.store.rows → code.Live → code'.Live →
      code.personUuid = code'.personUuid → x = x'
  count : ∀ personUuid, (p.store.rows.filter fun code =>
    decide (code.personUuid = personUuid ∧ code.Live)).length ≤ recoveryCount

instance (personUuid : String) : (call : RecoveryCall) → Decidable (call.Issues personUuid)
  | .issue _ person _ _ => inferInstanceAs (Decidable (person = personUuid))
  | .redeem _ _ _ _ => .isFalse id

instance : (call : RecoveryCall) → Decidable call.Redeems
  | .issue _ _ _ _ => .isFalse id
  | .redeem _ _ _ _ => .isTrue trivial

/-- Whose sheet a call issues. -/
def RecoveryCall.issuedTo : RecoveryCall → Option String
  | .issue _ personUuid _ _ => some personUuid
  | .redeem _ _ _ _ => none

/-- The call has been answered a statement, and has not returned. -/
def Underway : RecoveryThread → Prop
  | ⟨_, _, .pure _⟩ => False
  | ⟨_, history, .call _ _⟩ => history ≠ []

instance : (th : RecoveryThread) → Decidable (Underway th)
  | ⟨_, _, .pure _⟩ => .isFalse id
  | ⟨_, [], .call _ _⟩ => .isFalse fun h => h rfl
  | ⟨_, _ :: _, .call _ _⟩ => .isTrue (List.cons_ne_nil _ _)

/-- What the call redeems is superseded or not as it was when the call read it. -/
def Untouched (p : RecoveryPool) (th : RecoveryThread) : Prop :=
  th.request.Redeems → ∀ written ∈ p.store.own th.request, ∀ code ∈ p.store.rows,
    code.id = written.id → ∀ loaded ∈ readRows th.replies, loaded.id = code.id →
      code.supersededAt = loaded.supersededAt

/-- No other call that issues a sheet to the same person is underway. -/
def SoleIssue (p : RecoveryPool) (th : RecoveryThread) : Prop :=
  ∀ other ∈ p.threads, other.request ≠ th.request → Underway other →
    ∀ personUuid ∈ th.request.issuedTo, ¬ other.request.Issues personUuid

instance (p : RecoveryPool) (th : RecoveryThread) : Decidable (Untouched p th) :=
  inferInstanceAs (Decidable (_ → ∀ _ ∈ _, ∀ _ ∈ _, _ → ∀ _ ∈ _, _ → _))

instance (p : RecoveryPool) (th : RecoveryThread) : Decidable (SoleIssue p th) :=
  inferInstanceAs (Decidable (∀ _ ∈ _, _ → _ → ∀ personUuid ∈ th.request.issuedTo, ¬ _))

/-- **No call is overtaken**: nothing supersedes a code between the read and the commit of its
redemption, and no issue commits while another for its person is underway. -/
def Current (p : RecoveryPool) : Move RecoveryCall Int → Prop
  | .advance i => ∀ th ∈ p.threads[i]?, p.next i = some (th.request, .commit) →
    Untouched p th ∧ SoleIssue p th
  | _ => True

instance (p : RecoveryPool) : (mv : Move RecoveryCall Int) → Decidable (Current p mv)
  | .tick _ => .isTrue trivial
  | .spawn _ => .isTrue trivial
  | .advance i => inferInstanceAs (Decidable (∀ th ∈ p.threads[i]?,
      p.next i = some (th.request, .commit) → Untouched p th ∧ SoleIssue p th))

/-! ## The transactions -/

section Programs

variable (matching : String → String → Bool)

theorem tidy_redeemLive {X : Type} (x : X) (code : String) (now : Int) (live : Nat) :
    ∀ rows : List RecoveryCode, Tidy x false (redeemLive matching x code now live rows)
  | [] => ⟨rfl, rfl⟩
  | candidate :: rest => by
    unfold redeemLive
    split_ifs
    · refine ⟨rfl, rfl, ⟨rfl, rfl, rfl⟩, fun n hn => ?_⟩
      change Tidy x true (ite (n = 0) _ _)
      rw [if_neg hn]
      exact ⟨rfl, rfl⟩
    · exact tidy_redeemLive x code now live rest

theorem tidy_recovery (call : RecoveryCall) :
    Tidy call false ((recoveryCalls matching).program call) := by
  cases call with
  | issue serial personUuid sheet now =>
    exact ⟨rfl, rfl, ⟨rfl, rfl, rfl⟩, fun n _ => ⟨rfl, rfl, rfl⟩⟩
  | redeem serial personUuid code now =>
    exact ⟨rfl, fun rows => tidy_redeemLive matching _ code now _ rows⟩

/-- What the updates of a call make of a row: an issue supersedes a live one of its person, and
a redemption uses one that is unused. -/
def Retires (call : RecoveryCall) (code written : RecoveryCode) : Prop :=
  written.personUuid = code.personUuid ∧ code.usedAt = none ∧
    ((call.Issues code.personUuid ∧ code.Live ∧ written.supersededAt ≠ none) ∨
      (call.Redeems ∧ written.usedAt ≠ none ∧ written.supersededAt = code.supersededAt))

/-- What a call inserts. -/
def Draws (call : RecoveryCall) (code : RecoveryCode) : Prop := code ∈ call.sheetRows

theorem writes_redeemLive (serial : Nat) (personUuid code : String) (now : Int) (live : Nat) :
    ∀ rows : List RecoveryCode, Prog.Only
      ((recoveryCalls matching).Writes Retires Draws (.redeem serial personUuid code now))
        (redeemLive matching (RecoveryCall.redeem serial personUuid code now) code now live rows)
  | [] => ⟨trivial, fun _ => trivial⟩
  | candidate :: rest => by
    unfold redeemLive
    split_ifs
    · refine ⟨fun r hhit => ?_, fun n => ?_⟩
      · obtain ⟨-, hunused⟩ := of_decide_eq_true hhit
        exact ⟨rfl, hunused, .inr ⟨trivial, nofun, rfl⟩⟩
      · change Prog.Only _ (ite (n = 0) _ _)
        split_ifs
        · exact ⟨trivial, fun _ => trivial⟩
        · exact ⟨trivial, fun _ => trivial⟩
    · exact writes_redeemLive serial personUuid code now live rest

theorem writes_recovery (call : RecoveryCall) :
    Prog.Only ((recoveryCalls matching).Writes Retires Draws call)
      ((recoveryCalls matching).program call) := by
  cases call with
  | issue serial personUuid sheet now =>
    refine ⟨fun r hhit => ?_, fun _ => ⟨fun v hv => hv, fun _ => ⟨trivial, fun _ => trivial⟩⟩⟩
    obtain ⟨hperson, hlive⟩ := of_decide_eq_true hhit
    exact ⟨rfl, hlive.1, .inl ⟨hperson.symm, hlive, nofun⟩⟩
  | redeem serial personUuid code now =>
    exact ⟨trivial, fun rows => writes_redeemLive matching serial personUuid code now _ rows⟩

/-- What a redemption spends is a row it has read. -/
def Spends (loaded : RecoveryCode) (u : RecoveryUpdate) : Prop := ∃ now, u = .spend loaded.id now

theorem based_redeemLive {X : Type} (x : X) (code : String) (now : Int) (live : Nat)
    {read : List RecoveryCode} : ∀ rows : List RecoveryCode, rows ⊆ read →
      Based Spends read (redeemLive matching x code now live rows)
  | [], _ => trivial
  | candidate :: rest, hsub => by
    obtain ⟨hcandidate, hrest⟩ := List.cons_subset.mp hsub
    unfold redeemLive
    split_ifs
    · refine ⟨⟨candidate, hcandidate, now, rfl⟩, fun n => ?_⟩
      change Based _ read (ite (n = 0) _ _)
      split_ifs <;> trivial
    · exact based_redeemLive x code now live rest hrest

end Programs

theorem RecoveryCall.issuedTo_of_issues {call : RecoveryCall} {personUuid : String}
    (h : call.Issues personUuid) : call.issuedTo = some personUuid := by
  cases call with
  | issue => exact congrArg some h
  | redeem => exact h.elim

theorem RecoveryCall.not_redeems {call : RecoveryCall} {personUuid : String}
    (h : call.Issues personUuid) : ¬ call.Redeems := by
  cases call with
  | issue => exact id
  | redeem => exact h.elim

theorem issues_of_draws {call : RecoveryCall} {code : RecoveryCode} (h : Draws call code) :
    call.Issues code.personUuid ∧ code.Live := by
  cases call with
  | issue serial personUuid sheet now =>
    obtain ⟨drawn, -, rfl⟩ := List.mem_map.mp h
    exact ⟨rfl, rfl, rfl⟩
  | redeem => cases h

theorem length_sheetRows (call : RecoveryCall) : call.sheetRows.length ≤ recoveryCount := by
  cases call with
  | issue serial personUuid sheet now =>
    change (sheet.codes.map _).length ≤ _
    rw [List.length_map]
    exact Nat.le_of_eq sheet.complete
  | redeem => exact Nat.zero_le _

/-! ## A code is redeemed once -/

/-- A version of a code no less retired. -/
structure Retired (code code' : RecoveryCode) : Prop where
  person : code'.personUuid = code.personUuid
  used : code.usedAt ≠ none → code'.usedAt ≠ none
  superseded : code.supersededAt ≠ none → code'.supersededAt ≠ none

theorem Retired.refl (code : RecoveryCode) : Retired code code := ⟨rfl, id, id⟩

theorem Retired.trans {a b c : RecoveryCode} (hab : Retired a b) (hbc : Retired b c) :
    Retired a c :=
  ⟨hbc.person.trans hab.person, hbc.used ∘ hab.used, hbc.superseded ∘ hab.superseded⟩

theorem Retired.live {code code' : RecoveryCode} (h : Retired code code') (hlive : code'.Live) :
    code.Live := by
  refine ⟨?_, ?_⟩
  · by_contra hused
    exact h.used hused hlive.1
  · by_contra hsuperseded
    exact h.superseded hsuperseded hlive.2

theorem Retires.retired {call : RecoveryCall} {code written : RecoveryCode}
    (h : Retires call code written) : Retired code written := by
  obtain ⟨hperson, hunused, ⟨-, hlive, hsuperseded⟩ | ⟨-, hused, hsame⟩⟩ := h
  · exact ⟨hperson, fun h => absurd hunused h, fun h => absurd hlive.2 h⟩
  · exact ⟨hperson, fun h => absurd hunused h, fun h => hsame ▸ h⟩

/-- Each row is at least as retired as its versions, and a version is published only over unused
ones. -/
structure Spent (db : Db RecoveryCall RecoveryCode) : Prop where
  ledger : db.Ledger recoveryCodes Retired
  unused : db.log.Pairwise fun earlier later =>
    earlier.2.id = later.2.id → earlier.2.usedAt = none

theorem Spent.frame {db db' : Db RecoveryCall RecoveryCode} (hrows : db'.rows = db.rows)
    (hlog : db'.log = db.log) (h : Spent db) : Spent db' :=
  ⟨by unfold Db.Ledger; rw [hrows, hlog]; exact h.ledger, hlog ▸ h.unused⟩

theorem spent_start {rows : List RecoveryCode} (hrows : (rows.map RecoveryCode.id).Nodup) :
    Spent (Db.start rows) := by
  refine ⟨Db.ledger_start Retired.refl rows, ?_⟩
  refine List.pairwise_map.mpr ((List.pairwise_map.mp hrows).imp ?_)
  exact fun hne hid => absurd hid hne

section Commit

variable {matching : String → String → Bool} {p : RecoveryPool} {i : Nat} {th : RecoveryThread}
  {k : Unit → RecoveryProgram RecoveryCall RecoveryOutcome}

theorem retires_of_own (h : (recoveryCalls matching).Sound Retires Draws p) (hi : p.At i th)
    {written code : RecoveryCode} (hw : written ∈ p.store.own th.request)
    (hc : code ∈ p.store.rows) (hid : code.id = written.id) :
    Retires th.request code written := by
  obtain ⟨r, hrow, hkey, hretires⟩ := (h.of_own hi hw).resolve_right fun hnew => hnew.2 code hc hid
  obtain rfl : r = code := List.inj_on_of_nodup_map h.rows hrow hc (hkey.trans hid.symm)
  exact hretires

theorem spent_commit (h : (recoveryCalls matching).Sound Retires Draws p) (hs : Spent p.store)
    (hi : p.At i th) : Spent (p.store.committed recoveryCodes th.request) := by
  refine ⟨hs.ledger.commit (fun _ _ _ => Retired.trans) Retired.refl (h.keys _)
    fun written hw code hc hid => (retires_of_own h hi hw hc hid).retired,
    hs.ledger.pairwise_commit hs.unused ?_ ?_⟩
  · refine (List.pairwise_map.mp (h.keys th.request)).imp ?_
    exact fun hne hid => absurd hid hne
  · intro e _ written hw code hc hid hle hid'
    by_contra hused
    exact hle.used hused (retires_of_own h hi hw hc (hid.trans hid')).2.1

end Commit

theorem logged_of_redeemed {matching : String → String → Bool} {p : RecoveryPool} {i : Nat}
    {th : RecoveryThread} (h : (recoveryCalls matching).Sound Retires Draws p) (hi : p.At i th)
    {codeId : String} (hr : Redeemed th codeId) :
    ∃ code, (some th.request, code) ∈ p.store.log ∧ code.id = codeId ∧ code.usedAt ≠ none := by
  obtain ⟨⟨remaining, hr⟩, now, n, hs, hn⟩ := hr
  obtain ⟨r, hhit, hlog⟩ := h.logged hi hr hs hn
  obtain ⟨hid, -⟩ := of_decide_eq_true hhit
  exact ⟨_, hlog, hid, nofun⟩

theorem redeemedOnce_of_spent {matching : String → String → Bool} {p : RecoveryPool}
    (h : (recoveryCalls matching).Sound Retires Draws p) (hs : Spent p.store) : RedeemedOnce p := by
  intro i j th th' codeId hi hj hr hr'
  obtain ⟨v, hv, hvid, hvused⟩ := logged_of_redeemed h hi hr
  obtain ⟨w, hw, hwid, hwused⟩ := logged_of_redeemed h hj hr'
  refine h.distinct i j th th' hi hj ?_
  by_contra hne
  -- the earlier of two versions is unused
  have hdiffer : (some th.request, v) ≠ (some th'.request, w) :=
    fun heq => hne (Option.some.inj (congrArg Prod.fst heq))
  rcases Db.earlier_or_later hs.unused hv hw hdiffer with hu | hu
  · exact hvused (hu (hvid.trans hwid.symm))
  · exact hwused (hu (hwid.trans hvid.symm))

/-- **A code is redeemed once**, in whatever order the calls run. -/
theorem redeemed_once (matching : String → String → Bool) {rows : List RecoveryCode}
    (hrows : (rows.map RecoveryCode.id).Nodup) {now : Int} {moves : List (Move RecoveryCall Int)}
    {p : RecoveryPool} (hrun : Run (recoveryCalls matching).Possible (recoveryCalls matching).step
      (System.start rows now) moves p) : RedeemedOnce p := by
  have hfree : Run (fun p mv => (recoveryCalls matching).Possible p mv ∧ True)
      (recoveryCalls matching).step (System.start rows now) moves p :=
    hrun.mono fun _ _ hgo => ⟨hgo, trivial⟩
  obtain ⟨h, hs⟩ := System.run_sound (tidy_recovery matching) (writes_recovery matching)
    (fun db db' => Spent.frame) (fun p i th k h hs _ hi _ => spent_commit h hs hi)
    hfree
    (System.sound_start hrows now)
    (spent_start hrows)
  exact redeemedOnce_of_spent h hs

/-! ## What an issue has superseded -/

/-- If the call issues a sheet, it has superseded every code of the person that is live. -/
def SupersedesAll (db : Db RecoveryCall RecoveryCode) (call : RecoveryCall) : Prop :=
  ∀ code ∈ db.rows, call.Issues code.personUuid → code.Live →
    ∃ written ∈ db.own call, written.id = code.id

/-- Every issue that is underway has superseded what is live. -/
def AllSuperseded (p : RecoveryPool) : Prop :=
  ∀ i th, p.At i th → Underway th → SupersedesAll p.store th.request

theorem underway_iff {th : RecoveryThread} :
    Underway th ↔ th.replies ≠ [] ∧ ∃ c k, th.rest = .call c k := by
  obtain ⟨call, history, rest⟩ := th
  cases rest with
  | pure out => simp [Underway]
  | call c k => simp [Underway, Thread.replies]

theorem SupersedesAll.of_frame {db db' : Db RecoveryCall RecoveryCode} {call : RecoveryCall}
    (h : SupersedesAll db call)
    (hrows : ∀ code ∈ db'.rows, call.Issues code.personUuid → code.Live → code ∈ db.rows)
    (hown : db.own call ⊆ db'.own call) : SupersedesAll db' call := by
  intro code hc hissues hlive
  obtain ⟨w, hw, hid⟩ := h code (hrows code hc hissues hlive) hissues hlive
  exact ⟨w, hown hw, hid⟩

section Superseding

variable {matching : String → String → Bool} {p : RecoveryPool} {i : Nat} {th : RecoveryThread}

theorem issue_stands (h : (recoveryCalls matching).Sound Retires Draws p) (hi : p.At i th)
    {serial : Nat} {personUuid : String} {sheet : Sheet} {now : Int}
    (hcall : th.request = .issue serial personUuid sheet now) :
    (∃ k, th.rest = .call (th.request, .update (.supersede personUuid now)) k) ∨
      (th.replies ≠ [] ∧ ∃ k, th.rest = .call (th.request, .insert (sheet.rows personUuid)) k) ∨
      (th.replies ≠ [] ∧ ∃ out, th.rest = .call (th.request, .commit) fun _ => .pure out) ∨
      ∃ out, th.rest = .pure out := by
  have hf := h.coherent i th hi
  rw [hcall] at hf ⊢
  rcases Prog.Follows.call_iff.mp hf with ⟨-, hrest⟩ | ⟨n, h₁, hcons, hf⟩
  · exact .inl ⟨_, hrest⟩
  · have hne : th.replies ≠ [] := hcons ▸ List.cons_ne_nil _ _
    rcases Prog.Follows.call_iff.mp hf with ⟨-, hrest⟩ | ⟨_, h₂, -, hf⟩
    · exact .inr (.inl ⟨hne, _, hrest⟩)
    · rcases Prog.Follows.call_iff.mp hf with ⟨-, hrest⟩ | ⟨_, h₃, -, hf⟩
      · exact .inr (.inr (.inl ⟨hne, _, hrest⟩))
      · exact .inr (.inr (.inr ⟨_, (Prog.Follows.pure_iff.mp hf).2⟩))

/-- A row that a call publishes is live only if the call has drawn it, under a key that was
free. -/
theorem draws_of_own (h : (recoveryCalls matching).Sound Retires Draws p) (hi : p.At i th)
    {written : RecoveryCode} (hw : written ∈ p.store.own th.request) (hlive : written.Live) :
    Draws th.request written ∧ ∀ code ∈ p.store.rows, code.id ≠ written.id := by
  rcases h.of_own hi hw with ⟨r, -, -, -, -, ⟨-, -, hsuperseded⟩ | ⟨-, hused, -⟩⟩ | hnew
  · exact absurd hlive.2 hsuperseded
  · exact absurd hlive.1 hused
  · exact hnew

theorem row_committed (h : (recoveryCalls matching).Sound Retires Draws p) {code : RecoveryCode}
    (hc : code ∈ (p.store.committed recoveryCodes th.request).rows) :
    code ∈ p.store.own th.request ∨
      (code ∈ p.store.rows ∧ ∀ w ∈ p.store.own th.request, code.id ≠ w.id) := by
  rw [Db.committed_rows] at hc
  exact (Db.mem_foldl_put (h.keys _)).mp hc

theorem AllSuperseded.supersedesAll (hc : AllSuperseded p) (h : (recoveryCalls matching).Sound Retires Draws p)
    (hi : p.At i th) {k : Unit → RecoveryProgram RecoveryCall RecoveryOutcome}
    (hr : th.rest = .call (th.request, .commit) k) : SupersedesAll p.store th.request := by
  cases hcall : th.request with
  | redeem => exact fun code _ hissues => hissues.elim
  | issue serial personUuid sheet now =>
    rw [← hcall]
    rcases issue_stands h hi hcall with ⟨_, hrest⟩ | ⟨-, _, hrest⟩ | ⟨hne, _, hrest⟩ | ⟨_, hrest⟩
    · cases hr.symm.trans hrest
    · cases hr.symm.trans hrest
    · exact hc i th hi (underway_iff.mpr ⟨hne, _, _, hrest⟩)
    · cases hr.symm.trans hrest

theorem supersedesAll_update (h : (recoveryCalls matching).Sound Retires Draws p) (hi : p.At i th)
    {personUuid : String} {now : Int} {k : Nat → RecoveryProgram RecoveryCall RecoveryOutcome}
    (hr : th.rest = .call (th.request, .update (.supersede personUuid now)) k)
    (hissues : th.request.Issues personUuid) :
    SupersedesAll (Db.exec recoveryCodes (th.request, .update (.supersede personUuid now))
      p.store).2 th.request := by
  obtain ⟨written, htidy, hempty⟩ := h.hand i th hi
  rw [hr] at htidy
  have hview : p.store.view recoveryCodes th.request = p.store.rows :=
    Db.view_of_own_eq_nil (hempty htidy.2.1)
  intro code hcode hissues' hlive
  have hperson : code.personUuid = personUuid := Option.some.inj
    ((RecoveryCall.issuedTo_of_issues hissues').symm.trans (RecoveryCall.issuedTo_of_issues hissues))
  refine ⟨{ code with supersededAt := some now }, Db.mem_own.mpr ?_, rfl⟩
  refine List.mem_append_right _ (List.mem_map.mpr ⟨code, List.mem_filter.mpr ⟨?_, ?_⟩, rfl⟩)
  · rw [hview]
    exact hcode
  · exact decide_eq_true ⟨hperson, hlive⟩

/-- **One statement keeps it.**  Those who are underway lose nothing, as no issue for their person
commits. -/
theorem allSuperseded_fire (h : (recoveryCalls matching).Sound Retires Draws p) (hc : AllSuperseded p)
    (hcurrent : Current p (.advance i)) (hi : p.At i th)
    {c : Command RecoveryCall RecoveryCode RecoveryQuery RecoveryUpdate}
    {k : c.2.Answer → RecoveryProgram RecoveryCall RecoveryOutcome} (hr : th.rest = .call c k) :
    AllSuperseded (p.fire (fun _ => Db.exec recoveryCodes) i th c k) := by
  intro j th' hj hunder
  rcases (Pool.fire_threads hi).mp hj with ⟨rfl, rfl⟩ | ⟨hne, hold⟩
  · rw [Thread.advance_request]
    cases hcall : th.request with
    | redeem => exact fun code _ hissues => hissues.elim
    | issue serial personUuid sheet now =>
      rw [← hcall]
      rcases issue_stands h hi hcall with ⟨k', hrest⟩ | ⟨hne, k', hrest⟩ | ⟨-, out, hrest⟩ | ⟨_, hrest⟩
      · obtain ⟨rfl, -⟩ := Prog.call.inj (hr.symm.trans hrest)
        exact supersedesAll_update h hi hrest (hcall ▸ rfl)
      · obtain ⟨rfl, -⟩ := Prog.call.inj (hr.symm.trans hrest)
        refine (hc j th hi (underway_iff.mpr ⟨hne, _, _, hrest⟩)).of_frame (fun _ hrow _ _ => hrow) ?_
        exact fun v hv => Db.mem_own.mpr (List.mem_append_left _ (Db.mem_own.mp hv))
      · -- after its commit it is not underway
        obtain ⟨rfl, hk⟩ := Prog.call.inj (hr.symm.trans hrest)
        obtain rfl := eq_of_heq hk
        obtain ⟨-, c, k, hover⟩ := underway_iff.mp hunder
        cases hover
      · cases hr.symm.trans hrest
  · have hother : th'.request ≠ th.request := fun heq => hne (h.distinct j i th' th hold hi heq)
    obtain ⟨y, stmt⟩ := c
    obtain ⟨written, htidy, -⟩ := h.hand i th hi
    rw [hr] at htidy
    obtain rfl : y = th.request := by
      cases stmt with
      | select => exact htidy.1
      | update => exact htidy.1
      | insert => exact htidy.1
      | commit => exact htidy.1
      | rollback => exact htidy.1
    have hown : (Db.exec recoveryCodes (th.request, stmt) p.store).2.own th'.request =
        p.store.own th'.request :=
      System.own_exec (recoveryCalls matching) hother
    refine (hc j th' hold hunder).of_frame (fun code hcode hissues hlive => ?_)
      (hown ▸ List.Subset.refl _)
    cases stmt with
    | commit =>
      rcases row_committed h hcode with hw | ⟨hrow, -⟩
      · have hdrawn := issues_of_draws (draws_of_own h hi hw hlive).1
        exact absurd hissues ((hcurrent th hi (Pool.next_eq hi hr)).2 th' (List.mem_of_getElem? hold)
          hother hunder _ (RecoveryCall.issuedTo_of_issues hdrawn.1))
      · exact hrow
    | _ => exact hcode

theorem AllSuperseded.step (h : (recoveryCalls matching).Sound Retires Draws p) (hc : AllSuperseded p)
    {mv : Move RecoveryCall Int} (hcurrent : Current p mv) :
    AllSuperseded ((recoveryCalls matching).step p mv) := by
  cases mv with
  | tick d => exact hc
  | spawn q =>
    intro j th' hj hunder
    rcases Pool.spawn_threads hj with hj | ⟨-, rfl⟩
    · exact hc j th' hj hunder
    · exact absurd rfl (underway_iff.mp hunder).1
  | advance i =>
    simp only [System.step, Pool.step]
    split
    · rename_i q hist c k heq
      exact allSuperseded_fire h hc hcurrent heq rfl
    · exact hc

/-- **It holds before every move of a run** in which no call is overtaken. -/
theorem allSuperseded_run {rows : List RecoveryCode} (hrows : (rows.map RecoveryCode.id).Nodup)
    {now : Int} {moves : List (Move RecoveryCall Int)}
    (hrun : Run (fun p mv => (recoveryCalls matching).Possible p mv ∧ Current p mv)
      (recoveryCalls matching).step (System.start rows now) moves p) :
    Run (fun p mv => (recoveryCalls matching).Possible p mv ∧ Current p mv ∧ AllSuperseded p)
      (recoveryCalls matching).step (System.start rows now) moves p := by
  have hkept := hrun.and_invariant
    (I := fun p => (recoveryCalls matching).Sound Retires Draws p ∧ AllSuperseded p)
    (fun p mv ⟨h, hc⟩ ⟨hgo, hcurrent⟩ =>
      ⟨h.step (tidy_recovery matching) (writes_recovery matching) hgo, hc.step h hcurrent⟩)
    ⟨System.sound_start hrows now,
      fun i th hi => by cases hi⟩
  exact hkept.mono fun p mv ⟨⟨hgo, hcurrent⟩, _, hc⟩ => ⟨hgo, hcurrent, hc⟩

end Superseding

/-! ## One sheet is live -/

section Sheets

variable {rows : List RecoveryCode}

/-- What the commits keep of the sheets, from the rows there were.  The log has every row, and
what is live in it is as it was drawn; a sheet that is published after a code of its person has
retired the code; and the codes that are live are of one call. -/
structure Sheets (rows : List RecoveryCode) (db : Db RecoveryCall RecoveryCode) : Prop where
  spent : Spent db
  published : ∀ code ∈ db.rows, ∃ x, (x, code) ∈ db.log
  initial : ∀ code, (none, code) ∈ db.log → code ∈ rows
  drawn : ∀ call code, (some call, code) ∈ db.log → code.Live → Draws call code
  retired : ∀ a b, [a, b].Sublist db.log → a.1 ≠ b.1 → ∀ issue, b.1 = some issue →
    issue.Issues a.2.personUuid → ∀ code ∈ db.rows, code.id = a.2.id → ¬ code.Live
  refused : ∀ a b c, [a, b, c].Sublist db.log → a.2.id = c.2.id → a.1 ≠ b.1 →
    ∀ issue redeem, b.1 = some issue → issue.Issues c.2.personUuid → c.1 = some redeem →
      ¬ redeem.Redeems
  one : ∀ x x' code code', (x, code) ∈ db.log → (x', code') ∈ db.log → code ∈ db.rows →
    code' ∈ db.rows → code.Live → code'.Live → code.personUuid = code'.personUuid → x = x'

theorem Sheets.frame {db db' : Db RecoveryCall RecoveryCode} (hrows : db'.rows = db.rows)
    (hlog : db'.log = db.log) (h : Sheets rows db) : Sheets rows db' := by
  obtain ⟨hspent, hpublished, hinitial, hdrawn, hretired, hrefused, hone⟩ := h
  refine ⟨hspent.frame hrows hlog, ?_, ?_, ?_, ?_, ?_, ?_⟩ <;> simpa only [hrows, hlog]

theorem sheets_start (hrows : (rows.map RecoveryCode.id).Nodup) : Sheets rows (Db.start rows) := by
  have hnone : ∀ e ∈ (Db.start rows : Db RecoveryCall RecoveryCode).log, e.1 = none := by
    intro e he
    obtain ⟨v, -, rfl⟩ := List.mem_map.mp he
    rfl
  refine ⟨spent_start hrows, fun code hc => ⟨none, List.mem_map_of_mem hc⟩, ?_, ?_, ?_, ?_, ?_⟩
  · intro code hc
    obtain ⟨v, hv, he⟩ := List.mem_map.mp hc
    exact (Prod.mk.inj he).2 ▸ hv
  · intro call code hc
    cases hnone _ hc
  · intro a b hab hne
    exact absurd ((hnone a (hab.mem (by simp))).trans (hnone b (hab.mem (by simp))).symm) hne
  · intro a b c habc _ hne
    exact absurd ((hnone a (habc.mem (by simp))).trans (hnone b (habc.mem (by simp))).symm) hne
  · intro x x' code code' hx hx' _ _ _ _ _
    exact (hnone _ hx).trans (hnone _ hx').symm

section Commit

variable {matching : String → String → Bool} {p : RecoveryPool} {i : Nat} {th : RecoveryThread}
  {k : Unit → RecoveryProgram RecoveryCall RecoveryOutcome}

theorem entry_committed {db : Db RecoveryCall RecoveryCode} {call : RecoveryCall}
    {x : Option RecoveryCall} {code : RecoveryCode}
    (he : (x, code) ∈ (db.committed recoveryCodes call).log) :
    (x, code) ∈ db.log ∨ (x = some call ∧ code ∈ db.own call) := by
  rw [Db.committed_log, List.mem_append, List.mem_map] at he
  refine he.imp_right ?_
  rintro ⟨w, hw, heq⟩
  obtain ⟨rfl, rfl⟩ := Prod.mk.inj heq
  exact ⟨rfl, hw⟩

/-- **A redemption in time** commits over a code that is not superseded. -/
theorem current_of_untouched (h : (recoveryCalls matching).Sound Retires Draws p)
    (huntouched : Untouched p th) (hi : p.At i th) (hredeems : th.request.Redeems)
    {written code : RecoveryCode} (hw : written ∈ p.store.own th.request)
    (hc : code ∈ p.store.rows) (hid : code.id = written.id) : code.supersededAt = none := by
  have hbased : Based Spends [] ((recoveryCalls matching).program th.request) := by
    cases hcall : th.request with
    | issue => exact (hcall ▸ hredeems).elim
    | redeem => exact fun rows => based_redeemLive matching _ _ _ _ _ (List.Subset.refl rows)
  have hold : ¬ Draws th.request written :=
    fun hdraws => RecoveryCall.not_redeems (issues_of_draws hdraws).1 hredeems
  obtain ⟨u, ⟨loaded, hread, now, rfl⟩, r, hhit, rfl⟩ := h.based hi hbased hw hold
  obtain ⟨hsame, -⟩ := of_decide_eq_true hhit
  have hloaded : loaded.id = code.id := hsame.symm.trans hid.symm
  -- what was read was live
  obtain ⟨x, ⟨personUuid⟩, live, hsaw, hin⟩ := saw_of_mem_readRows hread
  have hlive := (of_decide_eq_true (h.answered i th x _ live hi hsaw loaded hin)).2
  exact (huntouched hredeems _ hw code hc hid loaded hread hloaded).trans hlive.2

theorem not_live_of_issue (h : (recoveryCalls matching).Sound Retires Draws p)
    (hall : SupersedesAll p.store th.request) {code : RecoveryCode}
    (hissues : th.request.Issues code.personUuid)
    (hc : code ∈ (p.store.committed recoveryCodes th.request).rows)
    (hold : code ∉ p.store.own th.request) : ¬ code.Live := by
  intro hlive
  obtain ⟨hrow, hfree⟩ := (row_committed h hc).resolve_left hold
  obtain ⟨w, hw, hid⟩ := hall code hrow hissues hlive
  exact hfree w hw hid.symm

theorem Spent.row {db : Db RecoveryCall RecoveryCode} (hs : Spent db)
    {e : Option RecoveryCall × RecoveryCode} (he : e ∈ db.log) :
    ∃ code ∈ db.rows, code.id = e.2.id ∧ Retired e.2 code := hs.ledger e he

theorem retired_committed (h : (recoveryCalls matching).Sound Retires Draws p) (hi : p.At i th)
    {old : RecoveryCode} (hold : old ∈ p.store.rows) (hdead : ¬ old.Live) {code : RecoveryCode}
    (hc : code ∈ (p.store.committed recoveryCodes th.request).rows) (hid : code.id = old.id) :
    ¬ code.Live := by
  rcases row_committed h hc with hw | ⟨hrow, -⟩
  · intro hlive
    exact hdead ((retires_of_own h hi hw hold hid.symm).retired.live hlive)
  · obtain rfl : code = old := List.inj_on_of_nodup_map h.rows hrow hold hid
    exact hdead

/-- A code whose sheet was replaced before the commit, or is by it, is not live afterwards. -/
theorem Sheets.retired_commit (hs : Sheets rows p.store)
    (h : (recoveryCalls matching).Sound Retires Draws p) (hall : SupersedesAll p.store th.request)
    (hi : p.At i th) {a b : Option RecoveryCall × RecoveryCode}
    (hab : [a, b].Sublist (p.store.committed recoveryCodes th.request).log) (hne : a.1 ≠ b.1)
    {issue : RecoveryCall} (hb : b.1 = some issue) (hissues : issue.Issues a.2.personUuid)
    {code : RecoveryCode} (hc : code ∈ (p.store.committed recoveryCodes th.request).rows)
    (hid : code.id = a.2.id) : ¬ code.Live := by
  rw [Db.committed_log] at hab
  rcases Db.pair_sublist_append hab with hab | ⟨ha, hbn⟩ | ⟨ha, hbn⟩
  · -- both are old, and the row has been retired before
    obtain ⟨old, hold, hidold, -⟩ := hs.spent.row (hab.mem (.head _))
    have hdead := hs.retired a b hab hne issue hb hissues old hold hidold
    exact retired_committed h hi hold hdead hc (hid.trans hidold.symm)
  · -- the issue is the one that commits
    obtain ⟨w, -, rfl⟩ := List.mem_map.mp hbn
    obtain rfl := Option.some.inj hb
    obtain ⟨old, hold, hidold, hretired⟩ := hs.spent.row ha
    by_cases hw : code ∈ p.store.own th.request
    · intro hlive
      exact (draws_of_own h hi hw hlive).2 old hold (hidold.trans hid.symm)
    · have hrow := ((row_committed h hc).resolve_left hw).1
      obtain rfl : code = old :=
        List.inj_on_of_nodup_map h.rows hrow hold (hid.trans hidold.symm)
      exact not_live_of_issue h hall (hretired.person ▸ hissues) hc hw
  · obtain ⟨w, -, rfl⟩ := List.mem_map.mp ha
    obtain ⟨w', -, rfl⟩ := List.mem_map.mp hbn
    exact absurd rfl hne

/-- What comes behind the sheet that replaced the one of a code is not a redemption of it. -/
theorem Sheets.refused_commit (hs : Sheets rows p.store)
    (h : (recoveryCalls matching).Sound Retires Draws p) (huntouched : Untouched p th)
    (hi : p.At i th) {a b c : Option RecoveryCall × RecoveryCode}
    (habc : [a, b, c].Sublist (p.store.committed recoveryCodes th.request).log)
    (hid : a.2.id = c.2.id) (hne : a.1 ≠ b.1) {issue redeem : RecoveryCall}
    (hb : b.1 = some issue) (hissues : issue.Issues c.2.personUuid) (hcr : c.1 = some redeem) :
    ¬ redeem.Redeems := by
  intro hredeems
  rw [Db.committed_log] at habc
  rcases Db.triple_sublist_append habc with habc | ⟨hab, hcn⟩ | ⟨hbn, hcn⟩
  · exact hs.refused a b c habc hid hne issue redeem hb hissues hcr hredeems
  · -- the redemption is the one that commits, and its code is not superseded
    obtain ⟨w, hw, rfl⟩ := List.mem_map.mp hcn
    obtain rfl := Option.some.inj hcr
    obtain ⟨old, hold, hidold, hretired⟩ := hs.spent.row (hab.mem (.head _))
    have hmade := retires_of_own h hi hw hold (hidold.trans hid)
    have hperson : w.personUuid = a.2.personUuid := hmade.1.trans hretired.person
    refine hs.retired a b hab hne issue hb (hperson ▸ hissues) old hold hidold ⟨hmade.2.1, ?_⟩
    exact current_of_untouched h huntouched hi hredeems hw hold (hidold.trans hid)
  · obtain ⟨w, -, rfl⟩ := List.mem_map.mp hbn
    obtain ⟨w', -, rfl⟩ := List.mem_map.mp hcn
    obtain rfl := Option.some.inj hb
    obtain rfl := Option.some.inj hcr
    exact RecoveryCall.not_redeems hissues hredeems

/-- Live rows of one person are of one call: both are old, or both are drawn. -/
theorem Sheets.one_commit (hs : Sheets rows p.store)
    (h : (recoveryCalls matching).Sound Retires Draws p) (hall : SupersedesAll p.store th.request)
    (hi : p.At i th) {x x' : Option RecoveryCall} {code code' : RecoveryCode}
    (hx : (x, code) ∈ (p.store.committed recoveryCodes th.request).log)
    (hx' : (x', code') ∈ (p.store.committed recoveryCodes th.request).log)
    (hc : code ∈ (p.store.committed recoveryCodes th.request).rows)
    (hc' : code' ∈ (p.store.committed recoveryCodes th.request).rows) (hlive : code.Live)
    (hlive' : code'.Live) (hperson : code.personUuid = code'.personUuid) : x = x' := by
  have hdrawn : ∀ x code, (x, code) ∈ (p.store.committed recoveryCodes th.request).log →
      code ∈ p.store.own th.request → code.Live → x = some th.request := by
    intro x code hx hw hlive
    rcases entry_committed hx with hx | ⟨hx, -⟩
    · obtain ⟨old, hold, hidold, -⟩ := hs.spent.row hx
      exact absurd hidold ((draws_of_own h hi hw hlive).2 old hold)
    · exact hx
  have hkept : ∀ x code, (x, code) ∈ (p.store.committed recoveryCodes th.request).log →
      code ∉ p.store.own th.request → (x, code) ∈ p.store.log := by
    intro x code hx hw
    exact (entry_committed hx).resolve_right fun hx => hw hx.2
  have hmixed : ∀ code code', code ∈ p.store.own th.request → code.Live →
      code' ∈ (p.store.committed recoveryCodes th.request).rows →
      code' ∉ p.store.own th.request → code.personUuid = code'.personUuid → ¬ code'.Live := by
    intro code code' hw hlive hc' hw' hperson
    have hissues := (issues_of_draws (draws_of_own h hi hw hlive).1).1
    exact not_live_of_issue h hall (hperson ▸ hissues) hc' hw'
  by_cases hw : code ∈ p.store.own th.request
  · by_cases hw' : code' ∈ p.store.own th.request
    · exact (hdrawn x code hx hw hlive).trans (hdrawn x' code' hx' hw' hlive').symm
    · exact absurd hlive' (hmixed code code' hw hlive hc' hw' hperson)
  · by_cases hw' : code' ∈ p.store.own th.request
    · exact absurd hlive (hmixed code' code hw' hlive' hc hw hperson.symm)
    · exact hs.one x x' code code' (hkept x code hx hw) (hkept x' code' hx' hw')
        ((row_committed h hc).resolve_left hw).1 ((row_committed h hc').resolve_left hw').1
        hlive hlive' hperson

/-- **A commit that is current keeps the sheets.** -/
theorem sheets_commit (h : (recoveryCalls matching).Sound Retires Draws p)
    (hs : Sheets rows p.store) (hall : SupersedesAll p.store th.request)
    (hcurrent : Current p (.advance i)) (hi : p.At i th)
    (hr : th.rest = .call (th.request, .commit) k) :
    Sheets rows (p.store.committed recoveryCodes th.request) where
  spent := spent_commit h hs.spent hi
  published code hc := by
    rw [Db.committed_log]
    rcases row_committed h hc with hw | ⟨hrow, -⟩
    · exact ⟨some th.request, List.mem_append_right _ (List.mem_map_of_mem hw)⟩
    · obtain ⟨x, hx⟩ := hs.published code hrow
      exact ⟨x, List.mem_append_left _ hx⟩
  initial code hc := by
    rcases entry_committed hc with hc | ⟨hx, -⟩
    · exact hs.initial code hc
    · cases hx
  drawn call code hc hlive := by
    rcases entry_committed hc with hc | ⟨hx, hw⟩
    · exact hs.drawn call code hc hlive
    · obtain rfl := Option.some.inj hx
      exact (draws_of_own h hi hw hlive).1
  retired a b hab hne issue hb hissues code hc hid :=
    hs.retired_commit h hall hi hab hne hb hissues hc hid
  refused a b c habc hid hne issue redeem hb hissues hcr :=
    hs.refused_commit h (hcurrent th hi (Pool.next_eq hi hr)).1 hi habc hid hne hb hissues hcr
  one x x' code code' hx hx' hc hc' hlive hlive' hperson :=
    hs.one_commit h hall hi hx hx' hc hc' hlive hlive' hperson

end Commit

/-- **The live codes are no more than a sheet has.** -/
theorem Sheets.count {db : Db RecoveryCall RecoveryCode} (h : Sheets rows db)
    (hkeys : (db.rows.map RecoveryCode.id).Nodup) (personUuid : String)
    (hcount : (rows.filter fun code =>
      decide (code.personUuid = personUuid ∧ code.Live)).length ≤ recoveryCount) :
    (db.rows.filter fun code =>
      decide (code.personUuid = personUuid ∧ code.Live)).length ≤ recoveryCount := by
  have hmem : ∀ code ∈ db.rows.filter fun code =>
      decide (code.personUuid = personUuid ∧ code.Live),
      code ∈ db.rows ∧ code.personUuid = personUuid ∧ code.Live := by
    intro code hc
    obtain ⟨hrow, hlive⟩ := List.mem_filter.mp hc
    exact ⟨hrow, of_decide_eq_true hlive⟩
  have hnodup : (db.rows.filter fun code =>
      decide (code.personUuid = personUuid ∧ code.Live)).Nodup := hkeys.of_map.filter _
  generalize hl : (db.rows.filter fun code =>
    decide (code.personUuid = personUuid ∧ code.Live)) = live at hmem hnodup
  cases live with
  | nil => exact Nat.zero_le _
  | cons first rest =>
    obtain ⟨hrow, hperson, hlive⟩ := hmem first (.head _)
    obtain ⟨x, hx⟩ := h.published first hrow
    -- every live row is of the call that published the first
    have hof : ∀ code ∈ first :: rest, (x, code) ∈ db.log := by
      intro code hc
      obtain ⟨hrow', hperson', hlive'⟩ := hmem code hc
      obtain ⟨x', hx'⟩ := h.published code hrow'
      obtain rfl := h.one x x' first code hx hx' hrow hrow' hlive hlive'
        (hperson.trans hperson'.symm)
      exact hx'
    cases x with
    | none =>
      refine Nat.le_trans (List.subperm_of_subset hnodup fun code hc => ?_).length_le hcount
      exact List.mem_filter.mpr ⟨h.initial code (hof code hc), decide_eq_true (hmem code hc).2⟩
    | some call =>
      refine Nat.le_trans (List.subperm_of_subset hnodup fun code hc => ?_).length_le
        (length_sheetRows call)
      exact h.drawn call code (hof code hc) (hmem code hc).2.2

/-- **One sheet, each code once, where no call is overtaken.**  In every run in which nothing
supersedes a code between the read and the commit of its redemption, and no issue commits while
another for its person is underway, no code is redeemed twice, none is redeemed after a later
issue, and no more than one sheet is live. -/
theorem sheets_hold (matching : String → String → Bool)
    (hrows : (rows.map RecoveryCode.id).Nodup)
    (hcount : ∀ personUuid, (rows.filter fun code =>
      decide (code.personUuid = personUuid ∧ code.Live)).length ≤ recoveryCount)
    {now : Int} {moves : List (Move RecoveryCall Int)} {p : RecoveryPool}
    (hrun : Run (fun p mv => (recoveryCalls matching).Possible p mv ∧ Current p mv)
      (recoveryCalls matching).step (System.start rows now) moves p) :
    RedeemedOnce p ∧ OldSheetsRetired p ∧ OneSheetLive p := by
  obtain ⟨h, hs⟩ := System.run_sound (tidy_recovery matching) (writes_recovery matching)
    (fun db db' => Sheets.frame)
    (fun p i th k h hs hcond hi hr =>
      sheets_commit h hs (hcond.2.supersedesAll h hi hr) hcond.1 hi hr)
    (allSuperseded_run hrows hrun)
    (System.sound_start hrows now)
    (sheets_start hrows)
  exact ⟨redeemedOnce_of_spent h hs.spent, hs.refused, hs.one,
    fun personUuid => hs.count h.rows personUuid (hcount personUuid)⟩

end Sheets

/-! ### A redemption that has read the old sheet -/

/-- A sheet of ten codes whose hashes are the codes. -/
def sampleSheet : Sheet where
  codes := ["c0", "c1", "c2", "c3", "c4", "c5", "c6", "c7", "c8", "c9"].map fun code =>
    ⟨code, code, code⟩
  complete := rfl

/-- A code matches the hash that equals it. -/
def sampleMatching (hash code : String) : Bool := hash = code

/-- A call that issues the sheet. -/
def sampleIssue : RecoveryCall := .issue 1 "p1" sampleSheet 5

/-- A code of an old sheet. -/
def oldCode : RecoveryCode where
  id := "old"
  personUuid := "p1"
  codeHash := "old"

/-- A sheet is issued over a code that is live, and a code of it is redeemed. -/
def currentMoves : List (Move RecoveryCall Int) :=
  [.spawn sampleIssue, .advance 0, .advance 0, .advance 0,
    .spawn (.redeem 2 "p1" "c0" 6), .advance 1, .advance 1, .advance 1]

/-- The state they lead to. -/
def currentPool : RecoveryPool :=
  currentMoves.foldl (recoveryCalls sampleMatching).step (System.start [oldCode] 0)

/-- Neither is overtaken. -/
theorem sheets_hold_current :
    RedeemedOnce currentPool ∧ OldSheetsRetired currentPool ∧ OneSheetLive currentPool := by
  have hrows : ([oldCode].map RecoveryCode.id).Nodup := List.nodup_singleton _
  exact sheets_hold sampleMatching hrows
    (fun _ => Nat.le_trans (List.length_filter_le _ _) (by decide))
    (Run.of_admits (by decide +kernel))

/-- A call that redeems the old code. -/
def staleRedeem : RecoveryCall := .redeem 2 "p1" "old" 6

/-- The redemption reads the live codes before the sheet is issued, and spends after. -/
def staleMoves : List (Move RecoveryCall Int) :=
  [.spawn staleRedeem, .advance 0, .spawn sampleIssue, .advance 1, .advance 1, .advance 1,
    .advance 0, .advance 0]

/-- The state they lead to. -/
def stalePool : RecoveryPool :=
  staleMoves.foldl (recoveryCalls sampleMatching).step (System.start [oldCode] 0)

/-- Even so, once. -/
theorem redeemed_once_stale : RedeemedOnce stalePool := by
  have hrows : ([oldCode].map RecoveryCode.id).Nodup := List.nodup_singleton _
  exact redeemed_once sampleMatching hrows (Run.of_admits (by decide +kernel))

/-- **The old code is redeemed after the new sheet is issued.** -/
theorem stale_redeems : ¬ ∀ (matching : String → String → Bool) (rows : List RecoveryCode)
    (now : Int) (moves : List (Move RecoveryCall Int)) (p : RecoveryPool),
    (rows.map RecoveryCode.id).Nodup →
    (∀ personUuid, (rows.filter fun code =>
      decide (code.personUuid = personUuid ∧ code.Live)).length ≤ recoveryCount) →
    Run (recoveryCalls matching).Possible (recoveryCalls matching).step (System.start rows now)
      moves p → RedeemedOnce p ∧ OldSheetsRetired p ∧ OneSheetLive p := by
  intro h
  obtain ⟨-, hretired, -⟩ := h sampleMatching [oldCode] 0 staleMoves stalePool (by decide)
    (fun _ => Nat.le_trans (List.length_filter_le _ _) (by decide)) (Run.of_admits (by decide +kernel))
  refine hretired (none, oldCode) (some sampleIssue, ⟨"c0", "p1", "c0", none, none⟩)
    (some staleRedeem, ⟨"old", "p1", "old", some 6, some 5⟩) (by decide +kernel) rfl nofun
    sampleIssue staleRedeem rfl rfl rfl trivial

end Mfa
end CampusID
