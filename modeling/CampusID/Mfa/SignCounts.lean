import CampusID.Mfa.Factors

/-!
# Signature counters and clones

`verify_webauthn` compares the count an assertion carries with the count it loaded, and assigns
it when the transaction ends.  Nothing relates the two if another assertion has committed in
between.

`clones_show` is about the runs in which no count that has reached the one an assertion carries
is committed between its read and its commit (`InOrder`).  `clone_passes` is two assertions in
flight, the second of which is a clone's.

What a ceremony is checked for before its counter --- the client data, the relying party, the
user's presence, the signature --- is a parameter.
-/

namespace CampusID
namespace Mfa

open Lib
open Lib.ReadCommitted

/-- What the browser sends back, and what it is checked against. -/
structure AssertionResponse where
  clientData : List Nat
  authenticatorData : List Nat
  signature : List Nat
  challenge : List Nat
  origin : String
  rpId : String
  deriving DecidableEq, Repr

/-- The count of the authenticator data: four bytes after the hash and the flags. -/
def AssertionResponse.signCount (response : AssertionResponse) : Nat :=
  ((response.authenticatorData.drop 33).take 4).foldl (fun acc byte => acc * 256 + byte) 0

/-- `CLONED`. -/
def cloned : String := "mfa.cloned_credential_suspected"

/-- `_check_counter`. -/
def checkCounter (stored presented : Nat) : Except String Unit :=
  if stored = 0 ∧ presented = 0 then .ok ()
  else if presented ≤ stored then .error cloned
  else .ok ()

/-- What `webauthn.verify` checks before the counter, under a public key. -/
abbrev CeremonyChecks := AssertionResponse → List Nat → Except String Unit

/-- `webauthn.verify`: the count that was presented, or the reason. -/
def webauthnVerify (checks : CeremonyChecks) (response : AssertionResponse)
    (publicKey : List Nat) (stored : Nat) : Except String Nat := do
  checks response publicKey
  checkCounter stored response.signCount
  return response.signCount

/-- `verify_webauthn` once it has looked for the credential.  The unit of work writes the count
if it is another than the loaded one. -/
def verifyLoaded {X : Type} (checks : CeremonyChecks) (x : X) (response : AssertionResponse)
    (now : Int) (loaded : Option MfaFactor) : FactorProgram X (Except String Nat) :=
  match loaded.bind fun factor => factor.publicKey.map fun publicKey => (factor, publicKey) with
  | none => refuse x noSuchFactor
  | some (factor, publicKey) =>
    match webauthnVerify checks response publicKey (factor.signCount.getD 0) with
    | .error reason => refuse x reason
    | .ok presented => write x (.count factor.id
        (if factor.signCount = some presented then none else some presented) now) staleData presented

/-- `verify_webauthn`. -/
def verifyWebauthn {X : Type} (checks : CeremonyChecks) (x : X) (personUuid : String)
    (credentialId : List Nat) (response : AssertionResponse) (now : Int) :
    FactorProgram X (Except String Nat) := do
  let rows : List MfaFactor ← statement x (.select (.credential personUuid credentialId))
  verifyLoaded checks x response now rows.head?

/-- A call of `verify_webauthn`. -/
structure WebauthnCall where
  serial : Nat
  personUuid : String
  credentialId : List Nat
  response : AssertionResponse
  now : Int
  deriving DecidableEq, Repr

/-- The calls on the table of factors. -/
def webauthnCalls (checks : CeremonyChecks) : System String MfaFactor FactorQuery FactorUpdate
    WebauthnCall (Except String Nat) where
  schema := factors
  program call := verifyWebauthn checks call call.personUuid call.credentialId call.response call.now

/-- A call in progress. -/
abbrev WebauthnThread := TxThread MfaFactor FactorQuery FactorUpdate WebauthnCall
  (Except String Nat)

/-- The calls in progress over the table of factors. -/
abbrev WebauthnPool := TxPool MfaFactor FactorQuery FactorUpdate WebauthnCall (Except String Nat)

/-- The count of a factor. -/
def MfaFactor.count (factor : MfaFactor) : Nat := factor.signCount.getD 0

/-- A count that may follow another: a higher one, or both are zero. -/
def MayFollow (stored presented : Nat) : Prop :=
  stored < presented ∨ (stored = 0 ∧ presented = 0)

instance (stored presented : Nat) : Decidable (MayFollow stored presented) :=
  inferInstanceAs (Decidable (_ ∨ _))

/-- Every assertion that was accepted is in the log, in the order of the commits, and there the
accepted counts of one credential rise as long as they are not zero. -/
structure CountsRise (p : WebauthnPool) : Prop where
  logged : ∀ i th presented, p.At i th → th.rest = .pure (.ok presented) →
    presented = th.request.response.signCount ∧ ∃ factor, (some th.request, factor) ∈ p.store.log
  rise : p.store.log.Pairwise fun earlier later =>
    earlier.2.id = later.2.id → ∀ call call', earlier.1 = some call → later.1 = some call' →
      MayFollow call.response.signCount call'.response.signCount

/-- No committed count has gone down between two states. -/
def CountsKept (p p' : WebauthnPool) : Prop :=
  ∀ factor ∈ p.store.rows, ∃ factor' ∈ p'.store.rows, factor'.id = factor.id ∧
    factor.count ≤ factor'.count

/-- **No count overtakes an assertion** between its read and its commit: when it commits, the
count of its credential is still the one it read, or another that the presented one may follow. -/
def InOrder (p : WebauthnPool) : Move WebauthnCall Int → Prop
  | .advance i => ∀ th ∈ p.threads[i]?, p.next i = some (th.request, .commit) →
    ∀ written ∈ p.store.own th.request, ∀ factor ∈ p.store.rows, factor.id = written.id →
      (∀ loaded ∈ readRows th.replies, loaded.id = factor.id → factor.count = loaded.count) ∨
        MayFollow factor.count th.request.response.signCount
  | _ => True

instance (p : WebauthnPool) : (mv : Move WebauthnCall Int) → Decidable (InOrder p mv)
  | .tick _ => .isTrue trivial
  | .spawn _ => .isTrue trivial
  | .advance i => inferInstanceAs (Decidable (∀ th ∈ p.threads[i]?,
      p.next i = some (th.request, .commit) → ∀ written ∈ p.store.own th.request,
        ∀ factor ∈ p.store.rows, factor.id = written.id →
          (∀ loaded ∈ readRows th.replies, loaded.id = factor.id →
            factor.count = loaded.count) ∨
              MayFollow factor.count th.request.response.signCount))

/-! ## The transaction -/

theorem mayFollow_of_webauthnVerify {checks : CeremonyChecks} {response : AssertionResponse}
    {publicKey : List Nat} {stored presented : Nat}
    (h : webauthnVerify checks response publicKey stored = .ok presented) :
    presented = response.signCount ∧ MayFollow stored presented := by
  unfold webauthnVerify at h
  cases hchecks : checks response publicKey with
  | error reason =>
    rw [hchecks] at h
    cases h
  | ok _ =>
    rw [hchecks] at h
    unfold checkCounter MayFollow at *
    simp only [bind, Except.bind] at h
    split_ifs at h with hzero hle
    · cases h
      exact ⟨rfl, .inr hzero⟩
    · cases h
      exact ⟨rfl, .inl (Nat.lt_of_not_le hle)⟩

section Programs

variable (checks : CeremonyChecks) (call : WebauthnCall)

theorem tidy_verifyWebauthn : Tidy call false ((webauthnCalls checks).program call) := by
  refine ⟨rfl, fun rows => ?_⟩
  change Tidy _ false (verifyLoaded _ _ _ _ (List.head? rows))
  unfold verifyLoaded
  split
  · exact tidy_refuse
  · split
    · exact tidy_refuse
    · exact tidy_write

theorem earned_verifyWebauthn : Earned call (fun out => ∃ presented, out = .ok presented) false
    ((webauthnCalls checks).program call) := by
  intro rows
  change Earned _ _ false (verifyLoaded _ _ _ _ (List.head? rows))
  unfold verifyLoaded
  split
  · exact earned_refuse
  · split
    · exact earned_refuse
    · exact earned_write

/-- What the update of a call makes of a row: it gets the presented count, unless that is zero
and so was the loaded one. -/
def Counts (call : WebauthnCall) (factor written : MfaFactor) : Prop :=
  written.count = call.response.signCount ∨
    (call.response.signCount = 0 ∧ written.signCount = factor.signCount)

theorem writes_verifyWebauthn : Prog.Only
    ((webauthnCalls checks).Writes Counts (fun _ _ => False) call)
      ((webauthnCalls checks).program call) := by
  refine ⟨trivial, fun rows => ?_⟩
  change Prog.Only _ (verifyLoaded _ _ _ _ (List.head? rows))
  unfold verifyLoaded
  split
  · exact only_refuse trivial
  · split
    · exact only_refuse trivial
    · rename_i factor publicKey _ _ presented hverify
      obtain ⟨rfl, hfollows⟩ := mayFollow_of_webauthnVerify hverify
      refine only_write (fun r _ => ?_) trivial trivial
      split_ifs with hsame
      · -- the count is not assigned, so the loaded one was zero too
        refine .inr ⟨?_, rfl⟩
        rw [hsame] at hfollows
        rcases hfollows with hlt | ⟨-, hzero⟩
        · exact absurd hlt (lt_irrefl _)
        · exact hzero
      · exact .inl rfl

/-- **The counter is checked** against a count that was read. -/
theorem based_verifyWebauthn : Based (fun loaded u => u.factorId = loaded.id ∧
    MayFollow loaded.count call.response.signCount) [] ((webauthnCalls checks).program call) := by
  intro rows
  change Based _ rows (verifyLoaded _ _ _ _ (List.head? rows))
  unfold verifyLoaded
  split
  · exact based_refuse
  · rename_i factor publicKey hloaded
    obtain ⟨loaded, hhead, hkey⟩ := Option.bind_eq_some_iff.mp hloaded
    obtain ⟨_, -, heq⟩ := Option.map_eq_some_iff.mp hkey
    obtain ⟨rfl, rfl⟩ := Prod.mk.inj heq
    split
    · exact based_refuse
    · rename_i presented hverify
      obtain ⟨rfl, hfollows⟩ := mayFollow_of_webauthnVerify hverify
      exact based_write (List.mem_of_head? hhead) ⟨rfl, hfollows⟩

theorem returns_verifyWebauthn : Prog.Returns
    (fun out => ∀ presented, out = .ok presented → presented = call.response.signCount)
    ((webauthnCalls checks).program call) := by
  intro rows
  change Prog.Returns _ (verifyLoaded _ _ _ _ (List.head? rows))
  unfold verifyLoaded
  split
  · exact returns_refuse nofun
  · split
    · exact returns_refuse nofun
    · rename_i presented hverify
      refine returns_write nofun ?_
      rintro _ ⟨⟩
      exact (mayFollow_of_webauthnVerify hverify).1

end Programs

/-! ## What is committed -/

/-- Every version a call has published has the count it presented, the counts of one factor
rise in the order of the commits, and each row is above them. -/
structure Counted (db : Db WebauthnCall MfaFactor) : Prop where
  ledger : db.Ledger factors fun a b => a.count ≤ b.count
  presented : ∀ e ∈ db.log, ∀ call, e.1 = some call → e.2.count = call.response.signCount
  rise : db.log.Pairwise fun earlier later => earlier.2.id = later.2.id →
    ∀ call', later.1 = some call' → MayFollow earlier.2.count call'.response.signCount

theorem counted_start {rows : List MfaFactor} (hrows : (rows.map MfaFactor.id).Nodup) :
    Counted (Db.start rows) := by
  refine ⟨Db.ledger_start (fun v => le_refl v.count) rows, ?_, ?_⟩
  · intro e he call hcall
    obtain ⟨v, -, rfl⟩ := List.mem_map.mp he
    cases hcall
  · refine List.pairwise_map.mpr ((List.pairwise_map.mp hrows).imp ?_)
    exact fun hne hid => absurd hid hne

theorem MayFollow.le {stored presented : Nat} (h : MayFollow stored presented) :
    stored ≤ presented := by
  rcases h with hlt | ⟨rfl, rfl⟩
  · exact hlt.le
  · exact le_rfl

theorem MayFollow.of_le {below stored presented : Nat} (h : MayFollow stored presented)
    (hle : below ≤ stored) : MayFollow below presented := by
  unfold MayFollow at *
  omega

section Commit

variable {checks : CeremonyChecks} {p : WebauthnPool} {i : Nat} {th : WebauthnThread}
  {k : Unit → FactorProgram WebauthnCall (Except String Nat)}

theorem follows_of_inOrder (h : (webauthnCalls checks).Sound Counts (fun _ _ => False) p)
    (horder : InOrder p (.advance i)) (hi : p.At i th)
    (hr : th.rest = .call (th.request, .commit) k) {written factor : MfaFactor}
    (hw : written ∈ p.store.own th.request) (hf : factor ∈ p.store.rows)
    (hid : factor.id = written.id) : MayFollow factor.count th.request.response.signCount := by
  -- it was compared with the count that was read
  obtain ⟨u, ⟨loaded, hread, hsame, hfollows⟩, r, hhit, rfl⟩ :=
    h.based hi (based_verifyWebauthn checks th.request) hw id
  have hloaded : loaded.id = factor.id :=
    hsame.symm.trans ((factorId_of_hits hhit).symm.trans
      ((factors.key_set u r).symm.trans hid.symm))
  rcases horder th hi (Pool.next_eq hi hr) _ hw factor hf hid with hcount | hlater
  · rw [hcount loaded hread hloaded]
    exact hfollows
  · exact hlater

/-- **What an assertion in order publishes** has the count it presented, which follows the one
that is there. -/
theorem mayFollow_of_commit (h : (webauthnCalls checks).Sound Counts (fun _ _ => False) p)
    (horder : InOrder p (.advance i)) (hi : p.At i th)
    (hr : th.rest = .call (th.request, .commit) k) {written factor : MfaFactor}
    (hw : written ∈ p.store.own th.request) (hf : factor ∈ p.store.rows)
    (hid : factor.id = written.id) :
    written.count = th.request.response.signCount ∧
      MayFollow factor.count th.request.response.signCount := by
  obtain ⟨r, hrow, hkey, hcounts⟩ := (h.of_own hi hw).resolve_right fun hnew => hnew.1
  obtain rfl : r = factor := List.inj_on_of_nodup_map h.rows hrow hf (hkey.trans hid.symm)
  have hfollows := follows_of_inOrder h horder hi hr hw hf hid
  refine ⟨?_, hfollows⟩
  rcases hcounts with hcount | ⟨hzero, hsame⟩
  · exact hcount
  · have hle := hfollows.le
    unfold MfaFactor.count at *
    rw [hsame]
    omega

theorem exists_row_of_own (h : (webauthnCalls checks).Sound Counts (fun _ _ => False) p)
    (hi : p.At i th) {written : MfaFactor} (hw : written ∈ p.store.own th.request) :
    ∃ factor ∈ p.store.rows, factor.id = written.id := by
  obtain ⟨r, hrow, hkey, -⟩ := (h.of_own hi hw).resolve_right fun hnew => hnew.1
  exact ⟨r, hrow, hkey⟩

theorem counted_commit (h : (webauthnCalls checks).Sound Counts (fun _ _ => False) p)
    (hc : Counted p.store) (horder : InOrder p (.advance i)) (hi : p.At i th)
    (hr : th.rest = .call (th.request, .commit) k) :
    Counted (p.store.committed factors th.request) := by
  refine ⟨hc.ledger.commit (fun _ _ _ => le_trans) (fun v => le_refl v.count) (h.keys _) ?_, ?_,
    hc.ledger.pairwise_commit hc.rise ?_ ?_⟩
  · intro written hw factor hf hid
    obtain ⟨hcount, hfollows⟩ := mayFollow_of_commit h horder hi hr hw hf hid
    exact hcount ▸ hfollows.le
  · intro e he call hcall
    rw [Db.committed_log, List.mem_append, List.mem_map] at he
    rcases he with he | ⟨written, hw, rfl⟩
    · exact hc.presented e he call hcall
    · obtain rfl : th.request = call := Option.some.inj hcall
      obtain ⟨factor, hf, hid⟩ := exists_row_of_own h hi hw
      exact (mayFollow_of_commit h horder hi hr hw hf hid).1
  · refine (List.pairwise_map.mp (h.keys th.request)).imp ?_
    exact fun hne hid => absurd hid hne
  · rintro e _ written hw factor hf hid hle hid' call' ⟨⟩
    exact (mayFollow_of_commit h horder hi hr hw hf (hid.trans hid')).2.of_le hle

end Commit

/-- **Clones show, in order.**  Where no count overtakes an assertion between its read and its
commit, the accepted counts of a credential rise in the order of the commits, and no committed
count goes down. -/
theorem clones_show (checks : CeremonyChecks) {rows : List MfaFactor}
    (hrows : (rows.map MfaFactor.id).Nodup) {now : Int} {moves : List (Move WebauthnCall Int)}
    {p : WebauthnPool} (hrun : Run (fun p mv => (webauthnCalls checks).Possible p mv ∧ InOrder p mv)
      (webauthnCalls checks).step (System.start rows now) moves p) :
    CountsRise p ∧ ∀ moves' p', Run (fun p mv => (webauthnCalls checks).Possible p mv ∧ InOrder p mv)
      (webauthnCalls checks).step p moves' p' → CountsKept p p' := by
  have hframe : ∀ db db' : Db WebauthnCall MfaFactor, db'.rows = db.rows → db'.log = db.log →
      Counted db → Counted db' := by
    rintro db db' hrows hlog ⟨hledger, hpresented, hrise⟩
    exact ⟨by unfold Db.Ledger; rwa [hrows, hlog], by rwa [hlog], by rwa [hlog]⟩
  obtain ⟨h, hc⟩ := System.run_sound (tidy_verifyWebauthn checks) (writes_verifyWebauthn checks)
    hframe (fun p i th k h hc horder hi hr => counted_commit h hc horder hi hr) hrun
    (System.sound_start hrows now)
    (counted_start hrows)
  refine ⟨⟨fun i th presented hi hr => ?_, ?_⟩, fun moves' p' hrun' factor hf => ?_⟩
  · have hf := h.coherent i th hi
    rw [hr] at hf
    obtain ⟨u, r, -, hlog⟩ := h.logged_of_earned hi hr ⟨presented, rfl⟩
      (earned_verifyWebauthn checks th.request)
    exact ⟨hf.returns (returns_verifyWebauthn checks th.request) presented rfl, _, hlog⟩
  · refine hc.rise.imp_of_mem fun {a b} ha _ hab hid call call' hcall hcall' => ?_
    rw [← hc.presented a ha call hcall]
    exact hab hid call' hcall'
  · have hfactor : ∀ db db' : Db WebauthnCall MfaFactor, db'.rows = db.rows → db'.log = db.log →
        (Counted db ∧ ∃ factor' ∈ db.rows, factor'.id = factor.id ∧ factor.count ≤ factor'.count) →
        Counted db' ∧ ∃ factor' ∈ db'.rows, factor'.id = factor.id ∧
          factor.count ≤ factor'.count := by
      rintro db db' hrows hlog ⟨hc, hex⟩
      exact ⟨hframe db db' hrows hlog hc, by rwa [hrows]⟩
    refine (System.run_sound (tidy_verifyWebauthn checks) (writes_verifyWebauthn checks) hfactor
      ?_ hrun' h ⟨hc, factor, hf, rfl, le_rfl⟩).2.2
    rintro q i th k h ⟨hc, factor', hf', hid, hle⟩ horder hi hr
    refine ⟨counted_commit h hc horder hi hr, ?_⟩
    have habove : ∀ w ∈ q.store.own th.request, ∀ r ∈ q.store.rows,
        factors.key r = factors.key w → r.count ≤ w.count := by
      intro w hw r hr' hid
      obtain ⟨hcount, hfollows⟩ := mayFollow_of_commit h horder hi hr hw hr' hid
      exact hcount ▸ hfollows.le
    obtain ⟨factor'', hf'', hid', hle'⟩ := Db.exists_row_committed
      (fun v : MfaFactor => le_refl v.count) (h.keys th.request) habove hf'
    exact ⟨factor'', hf'', hid'.trans hid, hle.trans hle'⟩

/-! ### A clone in flight -/

/-- An assertion that carries a count below 256. -/
def sampleResponse (count : Nat) : AssertionResponse where
  clientData := []
  authenticatorData := List.replicate 36 0 ++ [count]
  signature := []
  challenge := []
  origin := "https://broker.example.edu"
  rpId := "broker.example.edu"

/-- A call with such an assertion. -/
def sampleAssertion (serial count : Nat) : WebauthnCall where
  serial := serial
  personUuid := "p1"
  credentialId := [1]
  response := sampleResponse count
  now := 0

/-- A credential that has counted to four. -/
def sampleCredential : MfaFactor where
  id := "f1"
  personUuid := "p1"
  kind := .webauthn
  label := "key"
  credentialId := some [1]
  publicKey := some [2]
  signCount := some 4
  confirmedAt := some 0

/-- Every signature is valid. -/
def sampleChecks : CeremonyChecks := fun _ _ => .ok ()

/-- Two assertions, one after the other. -/
def orderedMoves : List (Move WebauthnCall Int) :=
  [.spawn (sampleAssertion 1 5), .advance 0, .advance 0, .advance 0,
    .spawn (sampleAssertion 2 6), .advance 1, .advance 1, .advance 1]

/-- The state they lead to. -/
def orderedPool : WebauthnPool :=
  orderedMoves.foldl (webauthnCalls sampleChecks).step (System.start [sampleCredential] 0)

/-- They commit in order. -/
theorem clones_show_ordered : CountsRise orderedPool ∧ ∀ moves' p',
    Run (fun p mv => (webauthnCalls sampleChecks).Possible p mv ∧ InOrder p mv)
      (webauthnCalls sampleChecks).step orderedPool moves' p' → CountsKept orderedPool p' :=
  clones_show sampleChecks (by decide) (Run.of_admits (by decide +kernel))

/-- An assertion that counts five is checked before one that counts six has committed, and
commits after it. -/
def clonedMoves : List (Move WebauthnCall Int) :=
  [.spawn (sampleAssertion 1 6), .spawn (sampleAssertion 2 5), .advance 0, .advance 1,
    .advance 0, .advance 0]

/-- Before the second has written. -/
def clonedPool : WebauthnPool :=
  clonedMoves.foldl (webauthnCalls sampleChecks).step (System.start [sampleCredential] 0)

/-- **The count goes back from six to five.** -/
theorem clone_passes : ¬ ∀ (checks : CeremonyChecks) (rows : List MfaFactor) (now : Int)
    (moves : List (Move WebauthnCall Int)) (p : WebauthnPool), (rows.map MfaFactor.id).Nodup →
    Run (webauthnCalls checks).Possible (webauthnCalls checks).step (System.start rows now) moves p →
      CountsRise p ∧ ∀ moves' p', Run (webauthnCalls checks).Possible (webauthnCalls checks).step
        p moves' p' → CountsKept p p' := by
  intro h
  obtain ⟨-, hkept⟩ := h sampleChecks [sampleCredential] 0 clonedMoves clonedPool (by decide)
    (Run.of_admits (by decide +kernel))
  have hback := hkept [.advance 1, .advance 1] _ (Run.of_admits (by decide +kernel))
    { sampleCredential with signCount := some 6, lastUsedAt := some 0 } (.head _)
  revert hback
  decide +kernel

end Mfa
end CampusID
