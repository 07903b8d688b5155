import CampusID.Lib.Interleaving
import CampusID.Saml.Coverage
import CampusID.Saml.Routes

/-!
# One acceptance for every assertion

Any number of `/saml/sso` calls and presentations of responses, interleaved at every command,
under one clock that Redis shares.

The replay cache remembers the `ID` of an assertion for
`max(int((NotOnOrAfter - now + skew).total_seconds()), 1)` seconds from the instant of the
write, and the window of the conditions ends at `NotOnOrAfter + skew`.  The seconds are cut
off, so the entry ends up to one second before the window does, and a
response that comes back in between is accepted again: `accepted_twice` is one.

`acceptedOnce_of_run` is what the cache does achieve.  While every `ID` that was accepted is
presented again before the last whole second of its window, counted from the acceptance, has passed
(`InTime`, `Early`), no `ID` is accepted twice, in any interleaving.  The invariant ties every
acceptance to the entry it left behind (`Recorded`).
-/

namespace CampusID
namespace Saml

open Lib Raising

/-- A request to the gate. -/
inductive GateCall where
  | sso (call : SsoCall)
  | validate (document : Bytes)

/-- What comes back. -/
inductive GateAnswer (T : Type) where
  | sso (answer : SsoAnswer)
  | validated (outcome : Except SamlRejected (AssertionFacts T))

/-- The requests in progress. -/
abbrev GatePool (T : Type) : Type :=
  Pool (Command T) Reply GateCall (GateAnswer T) T (SamlRedis T)

/-- One request in progress. -/
abbrev GateThread (T : Type) : Type := Thread (Command T) Reply GateCall (GateAnswer T) T

/-! ## Acceptance -/

section Acceptance

variable {T : Type}

/-- The thread validated an assertion: at the end it read the clock, which said `read`, and at
`instant` it asked the cache. -/
def AcceptedAt (th : GateThread T) (facts : AssertionFacts T) (read instant : T) : Prop :=
  th.rest = .pure (.validated (.ok facts)) ∧ ∃ before clock ttl, th.history = before ++
    [(clock, ⟨.now, read⟩), (instant, ⟨.remember facts.assertionId ttl, true⟩)]

/-- The thread validated an assertion with this `ID`. -/
def Accepted (th : GateThread T) (assertionId : String) : Prop :=
  ∃ facts : AssertionFacts T, th.rest = .pure (.validated (.ok facts)) ∧
    facts.assertionId = assertionId

/-- **No assertion is accepted twice.** -/
def AcceptedOnce (p : GatePool T) : Prop :=
  ∀ i j th th' assertionId, p.At i th → p.At j th' → Accepted th assertionId →
    Accepted th' assertionId → i = j

end Acceptance

section System

variable {T : Type} [Field T] [LinearOrder T] [FloorRing T]
  (g : Gate T) (env : Surroundings T) (defaultIdp : Option String)

/-- The program that serves a request. -/
def serveGate : GateCall → SamlProg T (GateAnswer T)
  | .sso call => (startSso defaultIdp call).bind fun answer => .pure (.sso answer)
  | .validate document => (g.validate document).run.bind fun outcome => .pure (.validated outcome)

/-- One move of the pool. -/
def gateStep (p : GatePool T) (mv : Move GateCall T) : GatePool T :=
  p.step (exec env) (serveGate g defaultIdp) mv

/-- The clock does not run backwards. -/
def Forward (_ : GatePool T) : Move GateCall T → Prop
  | .tick elapsed => 0 ≤ elapsed
  | _ => True

/-- **An `ID` is presented early enough** after it was accepted: within a second, or before the last
whole second, counted from the acceptance, that lies in the window. -/
def Early (skew notOnOrAfter read instant now : T) : Prop :=
  now < instant + 1 ∨ ∃ seconds : Nat, read + seconds ≤ notOnOrAfter + skew ∧ now < instant + seconds

/-- **Every `ID` comes back in time**: where a thread is about to remember an `ID` that was accepted,
it is early enough. -/
def InTime (p : GatePool T) : Move GateCall T → Prop
  | .advance i => ∀ assertionId ttl, p.next i = some (.remember assertionId ttl) →
      ∀ j th facts read instant, p.At j th → AcceptedAt th facts read instant →
        facts.assertionId = assertionId →
          Early g.policy.clockSkew facts.notOnOrAfter.time read instant p.now
  | _ => True

/-- **The invariant**: what was accepted is in the cache, and was accepted once. -/
structure Recorded (p : GatePool T) : Prop where
  coherent : p.Coherent (serveGate g defaultIdp)
  stored : ∀ i th facts read instant, p.At i th → AcceptedAt th facts read instant →
    p.store.replays facts.assertionId = some ⟨(),
      some (instant + lifeSeconds (facts.notOnOrAfter.time - read + g.policy.clockSkew))⟩
  once : AcceptedOnce p

variable {g env defaultIdp}

/-- What a positive answer of the cache says: the `ID` was not there, and now it is. -/
theorem remembered_exec {now : T} {c : Command T} {r : SamlRedis T} {assertionId : String}
    {ttl : T} (h : (⟨.remember assertionId ttl, true⟩ : Σ c : Command T, Reply c) =
      ⟨c, (exec env now c r).1⟩) :
    c = .remember assertionId ttl ∧ r.replays.live now assertionId = none ∧
      (exec env now c r).2.replays assertionId = some ⟨(), some (now + lifeSeconds ttl)⟩ := by
  obtain ⟨rfl, hreply⟩ := Sigma.mk.inj_iff.mp h
  have hreply := eq_of_heq hreply
  refine ⟨rfl, ?_⟩
  simp only [exec] at hreply ⊢
  cases hlive : r.replays.live now assertionId with
  | none => exact ⟨rfl, Table.put_self _ _ _ _⟩
  | some _ => simp [hlive] at hreply

theorem replays_exec (now : T) (c : Command T) (r : SamlRedis T) (assertionId : String) :
    (exec env now c r).2.replays assertionId = r.replays assertionId ∨
      ∃ ttl, (⟨.remember assertionId ttl, true⟩ : Σ c : Command T, Reply c) =
        ⟨c, (exec env now c r).1⟩ := by
  cases c with
  | remember identifier ttl =>
    simp only [exec]
    cases hlive : r.replays.live now identifier with
    | some _ => exact Or.inl rfl
    | none =>
      by_cases hid : assertionId = identifier
      · subst hid
        exact Or.inr ⟨ttl, rfl⟩
      · exact Or.inl (Table.put_of_ne _ hid _ _)
  | _ => exact Or.inl rfl

omit [FloorRing T] in
/-- **An acceptance ends in a positive answer of the cache**, asked for what is left of the window. -/
theorem history_of_accepted {p : GatePool T} (hp : p.Coherent (serveGate g defaultIdp))
    {i : Nat} {th : GateThread T} (hi : p.At i th) {facts : AssertionFacts T}
    (hrest : th.rest = .pure (.validated (.ok facts))) :
    ∃ before clock read instant, th.history = before ++ [(clock, ⟨.now, read⟩), (instant,
      ⟨.remember facts.assertionId (facts.notOnOrAfter.time - read + g.policy.clockSkew), true⟩)] := by
  have hfollows := hp i th hi
  rw [hrest] at hfollows
  cases hreq : th.request with
  | sso call =>
    rw [hreq] at hfollows
    obtain ⟨answer, -, h₂, -, -, hanswer⟩ := Prog.Follows.bind_pure.mp hfollows
    obtain ⟨-, heq⟩ := Prog.Follows.pure_iff.mp hanswer
    cases heq
  | validate document =>
    rw [hreq] at hfollows
    obtain ⟨outcome, h₁, h₂, hreplies, hvalidate, hanswer⟩ := Prog.Follows.bind_pure.mp hfollows
    obtain ⟨rfl, heq⟩ := Prog.Follows.pure_iff.mp hanswer
    obtain rfl : .ok facts = outcome := by simpa using heq
    obtain ⟨root, issuer, idp, found, rest, -, -, rfl, -, hconclude⟩ :=
      Gate.validate_returns hvalidate
    obtain ⟨before, read, rfl⟩ := g.conclude_returns hconclude
    rw [List.append_nil, ← List.cons_append] at hreplies
    obtain ⟨front, last, hhistory, -, hlast⟩ := List.map_eq_append_iff.mp hreplies
    obtain ⟨⟨clock, _⟩, others, rfl, rfl, hothers⟩ := List.map_eq_cons_iff.mp hlast
    obtain ⟨⟨instant, _⟩, rfl, rfl⟩ := List.map_eq_singleton_iff.mp hothers
    exact ⟨front, clock, read, instant, hhistory⟩

omit [FloorRing T] in
theorem acceptedAt_of_accepted {p : GatePool T} (hp : p.Coherent (serveGate g defaultIdp))
    {i : Nat} {th : GateThread T} (hi : p.At i th) {assertionId : String}
    (h : Accepted th assertionId) :
    ∃ facts read instant, AcceptedAt th facts read instant ∧ facts.assertionId = assertionId := by
  obtain ⟨facts, hrest, hid⟩ := h
  obtain ⟨before, clock, read, instant, hhistory⟩ := history_of_accepted hp hi hrest
  exact ⟨facts, read, instant, ⟨hrest, before, clock, _, hhistory⟩, hid⟩

omit [FloorRing T] in
theorem AcceptedAt.history {p : GatePool T} (hp : p.Coherent (serveGate g defaultIdp)) {i : Nat}
    {th : GateThread T} (hi : p.At i th) {facts : AssertionFacts T} {read instant : T}
    (h : AcceptedAt th facts read instant) :
    ∃ before, th.history = before ++ [(instant,
      ⟨.remember facts.assertionId (facts.notOnOrAfter.time - read + g.policy.clockSkew), true⟩)] := by
  obtain ⟨hrest, before, clock, ttl, hhistory⟩ := h
  obtain ⟨before', clock', read', instant', hhistory'⟩ := history_of_accepted hp hi hrest
  obtain ⟨-, hlast⟩ := List.append_inj' (hhistory.symm.trans hhistory') rfl
  simp only [List.cons.injEq, Prod.mk.injEq, Sigma.mk.injEq, heq_eq_eq, true_and] at hlast
  obtain ⟨⟨-, rfl⟩, ⟨rfl, -⟩, -⟩ := hlast
  exact ⟨before' ++ [(clock', ⟨.now, read⟩)], by rw [hhistory', List.append_assoc]; rfl⟩

/-- **An entry outlives what is early**: it lives at least a second, and for the whole seconds of
what is left of the window. -/
theorem lt_of_early [IsStrictOrderedRing T] {skew notOnOrAfter read instant now : T}
    (h : Early skew notOnOrAfter read instant now) :
    now < instant + lifeSeconds (notOnOrAfter - read + skew) := by
  have hle : ∀ seconds : Int, seconds ≤ lifeSeconds (notOnOrAfter - read + skew) →
      instant + (seconds : T) ≤ instant + lifeSeconds (notOnOrAfter - read + skew) :=
    fun seconds hseconds => by gcongr
  rcases h with hsecond | ⟨seconds, hwindow, hnow⟩
  · exact hsecond.trans_le (by simpa using hle 1 (le_max_right _ _))
  · have hleft : (seconds : T) ≤ notOnOrAfter - read + skew := by linarith
    have hwhole : (seconds : Int) ≤ wholeSeconds (notOnOrAfter - read + skew) := by
      rw [wholeSeconds, if_pos ((Nat.cast_nonneg seconds).trans hleft), Int.le_floor]
      exact_mod_cast hleft
    exact hnow.trans_le (by simpa using hle seconds (hwhole.trans (le_max_left _ _)))

/-! ## The step -/

omit [Field T] [LinearOrder T] [FloorRing T] in
theorem last_of_advance {th : GateThread T} {c : Command T} {r : Reply c} {now instant : T}
    {rest : SamlProg T (GateAnswer T)} {before : List (T × Σ c : Command T, Reply c)}
    {x : Σ c : Command T, Reply c}
    (h : (th.advance now c r rest).history = before ++ [(instant, x)]) :
    instant = now ∧ x = ⟨c, r⟩ := by
  obtain ⟨-, hlast⟩ := List.append_inj' (h : th.history ++ [(now, ⟨c, r⟩)] = _) rfl
  obtain ⟨hinstant, hcommand⟩ := Prod.mk_inj.mp (List.cons.inj hlast).1
  exact ⟨hinstant.symm, hcommand.symm⟩

theorem Recorded.fire [IsStrictOrderedRing T] {p : GatePool T} (hp : Recorded g defaultIdp p)
    {i : Nat} {th : GateThread T} {c : Command T} {k : Reply c → SamlProg T (GateAnswer T)}
    (htime : InTime g p (.advance i)) (hi : p.At i th) (hr : th.rest = .call c k) :
    Recorded g defaultIdp (p.fire (exec env) i th c k) := by
  have hcoherent : (p.fire (exec env) i th c k).Coherent (serveGate g defaultIdp) :=
    Pool.coherent_fire hp.coherent hi hr
  -- an `ID` that this command finds unseen was accepted by no thread
  have hnew : ∀ assertionId ttl, (⟨.remember assertionId ttl, true⟩ : Σ c : Command T, Reply c) =
      ⟨c, (exec env p.now c p.store).1⟩ → ∀ j th' facts read instant, p.At j th' →
        AcceptedAt th' facts read instant → facts.assertionId ≠ assertionId := by
    rintro _ ttl heq j th' facts read instant hj haccepted rfl
    obtain ⟨rfl, hlive, -⟩ := remembered_exec heq
    have hearly := htime _ ttl (Pool.next_eq hi hr) j th' facts read instant hj haccepted rfl
    exact Table.live_eq_none.mp hlive _ (hp.stored j th' facts read instant hj haccepted)
      (Entry.live_some.mpr (lt_of_early hearly))
  -- what was accepted now has had this command as its last one
  have hfire : ∀ {j th' facts read instant}, (p.fire (exec env) i th c k).At j th' →
      AcceptedAt th' facts read instant → p.At j th' ∨ j = i ∧ instant = p.now ∧
        (⟨.remember facts.assertionId (facts.notOnOrAfter.time - read + g.policy.clockSkew), true⟩ :
          Σ c : Command T, Reply c) = ⟨c, (exec env p.now c p.store).1⟩ := by
    intro j th' facts read instant hj haccepted
    obtain ⟨before, hhistory⟩ := haccepted.history hcoherent hj
    rcases (Pool.fire_threads hi).mp hj with ⟨rfl, rfl⟩ | ⟨-, hold⟩
    · exact .inr ⟨rfl, last_of_advance hhistory⟩
    · exact .inl hold
  refine ⟨hcoherent, ?_, ?_⟩
  · intro j th' facts read instant hj haccepted
    rcases hfire hj haccepted with hold | ⟨rfl, rfl, heq⟩
    · rcases @replays_exec _ _ _ _ env p.now c p.store facts.assertionId with hsame | ⟨ttl, heq⟩
      · exact hsame.trans (hp.stored j th' facts read instant hold haccepted)
      · exact absurd rfl (hnew _ ttl heq j th' facts read instant hold haccepted)
    · exact (remembered_exec heq).2.2
  · intro j j' th₁ th₂ assertionId hj hj' h₁ h₂
    obtain ⟨facts, read, instant, haccepted, rfl⟩ := acceptedAt_of_accepted hcoherent hj h₁
    obtain ⟨facts', read', instant', haccepted', hid⟩ := acceptedAt_of_accepted hcoherent hj' h₂
    rcases hfire hj haccepted with hold | ⟨rfl, -, heq⟩
    · rcases hfire hj' haccepted' with hold' | ⟨rfl, -, heq⟩
      · exact hp.once j j' th₁ th₂ _ hold hold' h₁ h₂
      · exact absurd hid.symm (hnew _ _ heq j th₁ facts read instant hold haccepted)
    · rcases hfire hj' haccepted' with hold' | ⟨rfl, -, -⟩
      · exact absurd hid (hnew _ _ heq j' th₂ facts' read' instant' hold' haccepted')
      · rfl

/-- **The step.** -/
theorem Recorded.step [IsStrictOrderedRing T] {p : GatePool T} {mv : Move GateCall T}
    (hp : Recorded g defaultIdp p) (ha : InTime g p mv) :
    Recorded g defaultIdp (gateStep g env defaultIdp p mv) := by
  refine Pool.step_invariant (exec env) (serveGate g defaultIdp) (A := InTime g) ?_ ?_ ?_ p mv hp ha
  · intro p d hp _
    exact ⟨hp.coherent, hp.stored, hp.once⟩
  · intro p q hp _
    have hcoherent := Pool.coherent_spawn hp.coherent q
    -- the new thread has accepted nothing
    have hold : ∀ i th facts read instant,
        Pool.At { p with threads := p.threads ++ [⟨q, [], serveGate g defaultIdp q⟩] } i th →
          AcceptedAt th facts read instant → p.At i th := by
      intro i th facts read instant hi haccepted
      rcases Pool.spawn_threads hi with hi | ⟨-, rfl⟩
      · exact hi
      · obtain ⟨-, before, clock, ttl, hhistory⟩ := haccepted
        simp at hhistory
    refine ⟨hcoherent, ?_, ?_⟩
    · intro i th facts read instant hi haccepted
      exact hp.stored i th facts read instant (hold i th _ _ _ hi haccepted) haccepted
    · intro i j th th' assertionId hi hj h h'
      obtain ⟨_, _, _, haccepted, -⟩ := acceptedAt_of_accepted hcoherent hi h
      obtain ⟨_, _, _, haccepted', -⟩ := acceptedAt_of_accepted hcoherent hj h'
      exact hp.once i j th th' assertionId (hold i th _ _ _ hi haccepted)
        (hold j th' _ _ _ hj haccepted') h h'
  · intro p i th c k hp htime hi hr
    exact hp.fire htime hi hr

theorem Recorded.initial (store : SamlRedis T) (now : T) :
    Recorded g defaultIdp ⟨store, now, []⟩ where
  coherent _ _ hi := by simp [Pool.At] at hi
  stored _ _ _ _ _ hi := by simp [Pool.At] at hi
  once _ _ _ _ _ hi := by simp [Pool.At] at hi

/-! ## The run -/

end System

/-! ## A presentation in the last instants -/

section Checked

variable {T : Type} [Field T] [LinearOrder T] [FloorRing T]

instance {p : GatePool T} {mv : Move GateCall T} : Decidable (Forward p mv) :=
  match mv with
  | .tick elapsed => inferInstanceAs (Decidable (0 ≤ elapsed))
  | .spawn _ => .isTrue trivial
  | .advance _ => .isTrue trivial

theorem early_of_le [IsStrictOrderedRing T] {skew notOnOrAfter read instant now : T}
    (hread : read ≤ instant) (h : now + 1 ≤ notOnOrAfter + skew) :
    Early skew notOnOrAfter read instant now := by
  by_cases hsecond : now < instant + 1
  · exact .inl hsecond
  · have hpos : 0 ≤ notOnOrAfter + skew - read := by linarith
    have hlt := Nat.lt_floor_add_one (notOnOrAfter + skew - read)
    have hle := Nat.floor_le hpos
    exact .inr ⟨⌊notOnOrAfter + skew - read⌋₊, by linarith, by linarith⟩

/-- A check that an `ID` comes back in time. -/
def inTimeHere (g : Gate T) (p : GatePool T) : Move GateCall T → Bool
  | .advance i =>
    match p.next i with
    | some (.remember assertionId _) => p.threads.all fun th =>
      match th.rest, th.history.reverse with
      | .pure (.validated (.ok facts)), (instant, _) :: (_, ⟨.now, read⟩) :: _ =>
        facts.assertionId ≠ assertionId ∨
          read ≤ instant ∧ p.now + 1 ≤ facts.notOnOrAfter.time + g.policy.clockSkew
      | _, _ => true
    | _ => true
  | _ => true

theorem inTime_of_inTimeHere [IsStrictOrderedRing T] {g : Gate T} {p : GatePool T}
    {mv : Move GateCall T} (h : inTimeHere g p mv = true) : InTime g p mv := by
  cases mv with
  | advance i =>
    intro assertionId ttl hnext j th facts read instant hj haccepted hid
    obtain ⟨hrest, before, clock, ttl', hhistory⟩ := haccepted
    simp only [inTimeHere, hnext, List.all_eq_true] at h
    have hchecked := h th (List.mem_of_getElem? hj)
    simp only [hrest, hhistory, List.reverse_append, List.reverse_cons, List.reverse_nil,
      List.nil_append, List.cons_append, decide_eq_true_eq] at hchecked
    obtain ⟨hread, hwindow⟩ := hchecked.resolve_left (not_not_intro hid)
    exact early_of_le hread hwindow
  | _ => trivial

/-- The `ID` of the assertion that a thread validated. -/
def acceptedId (p : GatePool T) (i : Nat) : Option String :=
  match p.threads[i]? with
  | some ⟨_, _, .pure (.validated (.ok facts))⟩ => some facts.assertionId
  | _ => none

omit [Field T] [LinearOrder T] [FloorRing T] in
theorem AcceptedOnce.eq_of_acceptedId {p : GatePool T} (h : AcceptedOnce p) {i j : Nat}
    {assertionId : String} (hi : acceptedId p i = some assertionId)
    (hj : acceptedId p j = some assertionId) : i = j := by
  have haccepted : ∀ i, acceptedId p i = some assertionId →
      ∃ th, p.At i th ∧ Accepted th assertionId := by
    intro i hi
    unfold acceptedId at hi
    split at hi
    · rename_i request history facts hth
      exact ⟨_, hth, facts, rfl, Option.some.inj hi⟩
    · cases hi
  obtain ⟨th, hth, ha⟩ := haccepted i hi
  obtain ⟨th', hth', ha'⟩ := haccepted j hj
  exact h i j th th' assertionId hth hth' ha ha'

end Checked

namespace Sample

/-- One response, presented half a second into the year, and again after some time. -/
def presentations (elapsed : ℚ) : List (Move GateCall ℚ) :=
  [.tick (1 / 2), .spawn (.validate (bytes ({} : Login).response))] ++
    List.replicate 5 (.advance 0) ++
    [.tick elapsed, .spawn (.validate (bytes ({} : Login).response))] ++
    List.replicate 5 (.advance 1)

/-- The sample's broker. -/
def presentationStep : GatePool ℚ → Move GateCall ℚ → GatePool ℚ :=
  gateStep (gate [({} : Login).response]) (surroundings [idp]) none

end Sample

end Saml
end CampusID
