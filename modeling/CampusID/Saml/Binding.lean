import CampusID.Lib.Interleaving
import CampusID.Saml.Coverage
import CampusID.Saml.Routes

/-!
# Logins and the browsers that start them

Any number of browsers, one broker.  A browser starts a login at `/saml/sso`, and anybody can
make it post any response with any `RelayState` to `/saml/acs`; the handlers run one command
at a time, in any interleaving, and their answers reach the browser whenever they do.  A
browser holds at most one binding cookie, the last one it was given and has not dropped.

The consumer checks the cookie against the nonce stored under the posted `RelayState`, and it
matches the response to the outstanding request its `InResponseTo` names.  Nothing compares
the two: `facts.relay_state` carries the `relay_state` of the request that was consumed, and
the handler does not look at it.  `bound_of_run` says what the checks achieve where the two
agree, and `not_bound` is a login they let through where they do not.

What carries the argument is that every nonce, request and cookie in sight can be traced to
one `/saml/sso` call (`Bound`), and that draws do not repeat.
-/

namespace CampusID
namespace Saml

open Lib

/-- A request to the broker, by the browser that makes it. -/
inductive Visit (B : Type) where
  | sso (browser : B) (call : SsoCall)
  | acs (browser : B) (call : AcsCall)

/-- What the broker answers. -/
inductive Answer (T : Type) where
  | sso (answer : SsoAnswer)
  | acs (answer : AcsAnswer T)

/-- The handlers in progress. -/
abbrev LoginPool (B T : Type) : Type :=
  Pool (Command T) Reply (Visit B) (Answer T) T (SamlRedis T)

/-- The broker and the cookies of the browsers. -/
structure Logins (B T : Type) where
  pool : LoginPool B T
  bindingCookie : B → Option String
  sessionCookie : B → Option String

/-- What can happen next. -/
inductive LoginMove (B T : Type) where
  | tick (elapsed : T)
  | sso (browser : B) (call : SsoCall)
  /-- Somebody makes this browser post a response; it sends its cookie along. -/
  | acs (browser : B) (samlResponse : String) (relayState address : Option String) (sid : String)
  | advance (i : Nat)
  /-- The answer of a finished handler reaches its browser. -/
  | deliver (i : Nat)
  /-- A browser drops its binding cookie. -/
  | forget (browser : B)

/-! ## Where everything comes from -/

section Origins

variable {B T : Type}

/-- The browser made this `/saml/sso` call. -/
def Started (p : LoginPool B T) (browser : B) (call : SsoCall) : Prop :=
  ∃ i th, p.At i th ∧ th.request = .sso browser call

/-- The request was made by a login. -/
def MadeByLogin (p : LoginPool B T) (request : OutstandingRequest T) : Prop :=
  ∃ browser call, Started p browser call ∧ call.requestId = request.requestId ∧
    call.relayState = request.relayState

/-- The nonce was drawn by a login for this `RelayState`. -/
def DrawnFor (p : LoginPool B T) (relayState nonce : String) : Prop :=
  ∃ browser call, Started p browser call ∧ call.relayState = relayState ∧
    call.bindingNonce = nonce

/-- The nonce was drawn by a login of this browser. -/
def DrawnIn (p : LoginPool B T) (browser : B) (nonce : String) : Prop :=
  ∃ call, Started p browser call ∧ call.bindingNonce = nonce

/-- What a consumer was sent and has seen comes from logins, and the request it consumed has
the `RelayState` it was posted. -/
structure Traced (p : LoginPool B T) (browser : B) (call : AcsCall)
    (th : Thread (Command T) Reply (Visit B) (Answer T) T) : Prop where
  cookie : ∀ nonce, call.cookie = some nonce → DrawnIn p browser nonce
  took : ∀ relayState nonce, th.Saw (.takeBinding relayState) (some nonce) →
    DrawnFor p relayState nonce
  consumed : ∀ requestId request, th.Saw (.consume requestId) (some request) →
    MadeByLogin p request ∧ call.relayState = some request.relayState

/-- Every login of `p` is one of `p'`. -/
def MoreLogins (p p' : LoginPool B T) : Prop :=
  ∀ browser call, Started p browser call → Started p' browser call

section More

variable {p p' : LoginPool B T} (h : MoreLogins p p')

include h

theorem MadeByLogin.mono {request : OutstandingRequest T} (hm : MadeByLogin p request) :
    MadeByLogin p' request := by
  obtain ⟨browser, call, hstarted, hrest⟩ := hm
  exact ⟨browser, call, h _ _ hstarted, hrest⟩

theorem DrawnFor.mono {relayState nonce : String} (hd : DrawnFor p relayState nonce) :
    DrawnFor p' relayState nonce := by
  obtain ⟨browser, call, hstarted, hrest⟩ := hd
  exact ⟨browser, call, h _ _ hstarted, hrest⟩

theorem DrawnIn.mono {browser : B} {nonce : String} (hd : DrawnIn p browser nonce) :
    DrawnIn p' browser nonce := by
  obtain ⟨call, hstarted, hrest⟩ := hd
  exact ⟨call, h _ _ hstarted, hrest⟩

theorem Traced.mono {browser : B} {call : AcsCall}
    {th : Thread (Command T) Reply (Visit B) (Answer T) T} (ht : Traced p browser call th) :
    Traced p' browser call th where
  cookie nonce hcookie := (ht.cookie nonce hcookie).mono h
  took relayState nonce hsaw := (ht.took relayState nonce hsaw).mono h
  consumed requestId request hsaw :=
    ⟨(ht.consumed requestId request hsaw).1.mono h, (ht.consumed requestId request hsaw).2⟩

end More

end Origins

/-! ## The system -/

section System

variable {B T : Type} [DecidableEq B] [Field T] [LinearOrder T] [FloorRing T]
  (g : Gate T) (env : Surroundings T) (defaultIdp : Option String)

/-- The program that serves a visit, with what `_decode` makes of every form field. -/
def serveDecoded (decoded : Except SamlRejected Bytes) : Visit B → SamlProg T (Answer T)
  | .sso _ call => (startSso defaultIdp call).bind fun answer => .pure (.sso answer)
  | .acs _ call => (acsWith g call decoded).bind fun answer => .pure (.acs answer)

/-- The program that serves a visit. -/
def serve : Visit B → SamlProg T (Answer T)
  | .sso _ call => (startSso defaultIdp call).bind fun answer => .pure (.sso answer)
  | .acs _ call => (acs g call).bind fun answer => .pure (.acs answer)

namespace Logins

/-- Nobody has done anything. -/
def initial (now : T) : Logins B T :=
  ⟨⟨SamlRedis.empty, now, []⟩, fun _ => none, fun _ => none⟩

/-- A move of the handlers. -/
def poolStep (program : Visit B → SamlProg T (Answer T)) (s : Logins B T)
    (mv : Move (Visit B) T) : Logins B T :=
  { s with pool := s.pool.step (exec env) program mv }

/-- `set_request_binding_cookie`, `clear_request_binding_cookie`. -/
def setBindingCookie (s : Logins B T) (browser : B) (cookie : Option String) : Logins B T :=
  { s with bindingCookie := Function.update s.bindingCookie browser cookie }

/-- `set_session_cookie`. -/
def setSessionCookie (s : Logins B T) (browser : B) (sid : String) : Logins B T :=
  { s with sessionCookie := Function.update s.sessionCookie browser (some sid) }

/-- An answer reaches the browser, with the cookies the handler set on it. -/
def answered (s : Logins B T) : Visit B → Answer T → Logins B T
  | .sso browser call, .sso .redirected => s.setBindingCookie browser (some call.bindingNonce)
  | .acs browser _, .acs (.established _ _ sid) =>
    (s.setSessionCookie browser sid).setBindingCookie browser none
  | _, _ => s

/-- One move, with the programs that serve the visits. -/
def stepWith (program : Visit B → SamlProg T (Answer T)) (s : Logins B T) :
    LoginMove B T → Logins B T
  | .tick elapsed => s.poolStep env program (.tick elapsed)
  | .sso browser call => s.poolStep env program (.spawn (.sso browser call))
  | .acs browser samlResponse relayState address sid =>
    s.poolStep env program (.spawn (.acs browser
      ⟨samlResponse, relayState, s.bindingCookie browser, address, sid⟩))
  | .advance i => s.poolStep env program (.advance i)
  | .deliver i =>
    match s.pool.threads[i]? with
    | some ⟨visit, _, .pure answer⟩ => s.answered visit answer
    | _ => s
  | .forget browser => s.setBindingCookie browser none

/-- One move of the broker. -/
def step (s : Logins B T) (mv : LoginMove B T) : Logins B T :=
  s.stepWith env (serve g defaultIdp) mv

end Logins

/-- What is drawn is new. -/
def Drawn (s : Logins B T) : LoginMove B T → Prop
  | .sso _ call => ∀ browser call', Started s.pool browser call' →
      call'.bindingNonce ≠ call.bindingNonce ∧ call'.relayState ≠ call.relayState
  | _ => True

/-- **The posted `RelayState` is that of the request**: a consumer that is about to consume an
outstanding request was posted the request's own `relay_state`. -/
def Matching (s : Logins B T) : LoginMove B T → Prop
  | .advance i => ∀ th browser call requestId request, s.pool.At i th →
      th.request = .acs browser call → s.pool.next i = some (.consume requestId) →
      s.pool.store.requests.live s.pool.now requestId = some request →
      call.relayState = some request.relayState
  | _ => True

/-- **A session is established in a browser from a request made there**: by a `/saml/sso` call
of that browser, whose `RelayState` was posted and whose nonce was in the cookie. -/
def BoundToBrowser (p : LoginPool B T) : Prop :=
  ∀ i th browser call facts personUuid sid requestId request, p.At i th →
    th.request = .acs browser call →
    th.rest = .pure (.acs (.established facts personUuid sid)) →
    th.Saw (.consume requestId) (some request) →
    ∃ login, Started p browser login ∧ login.requestId = request.requestId ∧
      login.relayState = request.relayState ∧ call.relayState = some login.relayState ∧
      call.cookie = some login.bindingNonce

/-- **The invariant**: every request, nonce and cookie can be traced to one login. -/
structure Bound (s : Logins B T) : Prop where
  coherent : s.pool.Coherent (serve g defaultIdp)
  distinct : ∀ browser browser' call call', Started s.pool browser call →
    Started s.pool browser' call' →
    call.bindingNonce = call'.bindingNonce ∨ call.relayState = call'.relayState →
    browser = browser' ∧ call = call'
  requests : ∀ requestId e, s.pool.store.requests requestId = some e →
    MadeByLogin s.pool e.value
  bindings : ∀ relayState e, s.pool.store.bindings relayState = some e →
    DrawnFor s.pool relayState e.value
  cookies : ∀ browser nonce, s.bindingCookie browser = some nonce → DrawnIn s.pool browser nonce
  consumers : ∀ i th browser call, s.pool.At i th → th.request = .acs browser call →
    Traced s.pool browser call th

variable {g env defaultIdp}

/-! ## The step -/

omit [DecidableEq B] [FloorRing T] in
theorem Bound.initial (now : T) : Bound g defaultIdp (Logins.initial now : Logins B T) where
  coherent _ _ hi := by simp [Logins.initial, Pool.At] at hi
  distinct _ _ _ _ hs := by
    obtain ⟨i, th, hi, -⟩ := hs
    simp [Logins.initial, Pool.At] at hi
  requests _ _ h := by simp [Logins.initial, SamlRedis.empty] at h
  bindings _ _ h := by simp [Logins.initial, SamlRedis.empty] at h
  cookies _ _ h := by simp [Logins.initial] at h
  consumers _ _ _ _ hi := by simp [Logins.initial, Pool.At] at hi

omit [DecidableEq B] [FloorRing T] in
theorem serve_only (visit : Visit B) :
    Prog.Only (match visit with
      | .sso _ call => WritesOwn call
      | .acs _ call => TakesOwn call) (serve g defaultIdp visit) := by
  cases visit with
  | sso browser call => exact (startSso_only defaultIdp call).bind fun _ => trivial
  | acs browser call => exact (acs_only g call).bind fun _ => trivial

omit [DecidableEq B] [FloorRing T] in
theorem Bound.next_only {s : Logins B T} (hs : Bound g defaultIdp s) {i : Nat}
    {th : Thread (Command T) Reply (Visit B) (Answer T) T} {c : Command T}
    {k : Reply c → SamlProg T (Answer T)} (hi : s.pool.At i th) (hr : th.rest = .call c k) :
    match th.request with
    | .sso _ call => WritesOwn call c
    | .acs _ call => TakesOwn call c := by
  have honly := (hs.coherent i th hi).only_rest (serve_only th.request)
  rw [hr] at honly
  cases hreq : th.request with
  | sso browser call =>
    rw [hreq] at honly
    exact honly.1
  | acs browser call =>
    rw [hreq] at honly
    exact honly.1

/-- The pool with one more visit. -/
abbrev spawned (rest : SamlProg T (Answer T)) (p : LoginPool B T) (visit : Visit B) :
    LoginPool B T :=
  { p with threads := p.threads ++ [⟨visit, [], rest⟩] }

omit [DecidableEq B] [Field T] [LinearOrder T] [FloorRing T] in
theorem moreLogins_spawned (rest : SamlProg T (Answer T)) (p : LoginPool B T) (visit : Visit B) :
    MoreLogins p (spawned rest p visit) := by
  rintro browser call ⟨i, th, hi, hreq⟩
  exact ⟨i, th, Pool.spawn_keeps hi _, hreq⟩

omit [DecidableEq B] [Field T] [LinearOrder T] [FloorRing T] in
theorem started_spawned {rest : SamlProg T (Answer T)} {p : LoginPool B T} {visit : Visit B}
    {browser : B} {call : SsoCall} (h : Started (spawned rest p visit) browser call) :
    Started p browser call ∨ visit = .sso browser call := by
  obtain ⟨i, th, hi, hreq⟩ := h
  rcases Pool.spawn_threads hi with hi | ⟨-, rfl⟩
  · exact Or.inl ⟨i, th, hi, hreq⟩
  · exact Or.inr hreq

section Fire

variable {p : LoginPool B T} {i : Nat} {th : Thread (Command T) Reply (Visit B) (Answer T) T}
  {c : Command T} {k : Reply c → SamlProg T (Answer T)}

omit [DecidableEq B] in
theorem moreLogins_fire (hi : p.At i th) : MoreLogins p (p.fire (exec env) i th c k) := by
  rintro browser call ⟨j, th₀, hj, hreq⟩
  obtain ⟨th', hj', hreq', -⟩ := Pool.fire_keeps (exec env) hi hj (c := c) (k := k)
  exact ⟨j, th', hj', hreq'.trans hreq⟩

omit [DecidableEq B] in
theorem started_fire (hi : p.At i th) {browser : B} {call : SsoCall}
    (h : Started (p.fire (exec env) i th c k) browser call) : Started p browser call := by
  obtain ⟨j, th', hj, hreq⟩ := h
  rcases (Pool.fire_threads hi).mp hj with ⟨rfl, rfl⟩ | ⟨-, hj⟩
  · exact ⟨_, th, hi, hreq⟩
  · exact ⟨j, th', hj, hreq⟩

end Fire

omit [DecidableEq B] [FloorRing T] in
theorem Bound.spawned {s : Logins B T} (hs : Bound g defaultIdp s) {visit : Visit B}
    (hnew : ∀ browser call, visit = .sso browser call → ∀ browser' call',
      Started s.pool browser' call' →
        call'.bindingNonce ≠ call.bindingNonce ∧ call'.relayState ≠ call.relayState)
    (hcookie : ∀ browser call, visit = .acs browser call → call.cookie = s.bindingCookie browser) :
    Bound g defaultIdp { s with pool := Saml.spawned (serve g defaultIdp visit) s.pool visit }
    where
  coherent := Pool.coherent_spawn hs.coherent visit
  distinct browser browser' call call' h h' hsame := by
    rcases started_spawned h with hold | rfl
    · rcases started_spawned h' with hold' | rfl
      · exact hs.distinct _ _ _ _ hold hold' hsame
      · obtain ⟨hnonce, hrelay⟩ := hnew _ _ rfl _ _ hold
        rcases hsame with hsame | hsame
        · exact absurd hsame hnonce
        · exact absurd hsame hrelay
    · rcases started_spawned h' with hold' | heq
      · obtain ⟨hnonce, hrelay⟩ := hnew _ _ rfl _ _ hold'
        rcases hsame with hsame | hsame
        · exact absurd hsame.symm hnonce
        · exact absurd hsame.symm hrelay
      · simpa using heq
  requests requestId e h := (hs.requests requestId e h).mono (moreLogins_spawned _ _ _)
  bindings relayState e h := (hs.bindings relayState e h).mono (moreLogins_spawned _ _ _)
  cookies browser nonce h := (hs.cookies browser nonce h).mono (moreLogins_spawned _ _ _)
  consumers i th browser call hi hreq := by
    rcases Pool.spawn_threads hi with hi | ⟨-, rfl⟩
    · exact (hs.consumers i th browser call hi hreq).mono (moreLogins_spawned _ _ _)
    · -- a new consumer has seen nothing, and was sent what the browser holds
      refine ⟨fun nonce hnonce => ?_, fun _ _ hsaw => ?_, fun _ _ hsaw => ?_⟩
      · rw [hcookie browser call hreq] at hnonce
        exact (hs.cookies browser nonce hnonce).mono (moreLogins_spawned _ _ _)
      · simp [Thread.Saw, Thread.replies] at hsaw
      · simp [Thread.Saw, Thread.replies] at hsaw

omit [DecidableEq B] in
/-- **One command of one handler.** -/
theorem Bound.fire {s : Logins B T} (hs : Bound g defaultIdp s) {i : Nat}
    {th : Thread (Command T) Reply (Visit B) (Answer T) T} {c : Command T}
    {k : Reply c → SamlProg T (Answer T)} (hi : s.pool.At i th) (hr : th.rest = .call c k)
    (hmatching : Matching s (.advance i)) :
    Bound g defaultIdp { s with pool := s.pool.fire (exec env) i th c k } := by
  have hmore : MoreLogins s.pool (s.pool.fire (exec env) i th c k) := moreLogins_fire hi
  have honly := hs.next_only hi hr
  refine ⟨Pool.coherent_fire hs.coherent hi hr, ?_, ?_, ?_, ?_, ?_⟩
  · intro browser browser' call call' h h' hsame
    exact hs.distinct _ _ _ _ (started_fire hi h) (started_fire hi h') hsame
  · intro requestId e h
    rcases requests_exec h with h | ⟨ttl, rfl⟩
    · exact (hs.requests requestId e h).mono hmore
    · -- only a login stores a request, and it stores its own
      cases hreq : th.request with
      | acs browser call =>
        rw [hreq] at honly
        exact honly.elim
      | sso browser call =>
        rw [hreq] at honly
        exact ⟨browser, call, hmore _ _ ⟨i, th, hi, hreq⟩, honly.1.symm, honly.2.symm⟩
  · intro relayState e h
    rcases bindings_exec h with h | ⟨ttl, rfl⟩
    · exact (hs.bindings relayState e h).mono hmore
    · cases hreq : th.request with
      | acs browser call =>
        rw [hreq] at honly
        exact honly.elim
      | sso browser call =>
        rw [hreq] at honly
        exact ⟨browser, call, hmore _ _ ⟨i, th, hi, hreq⟩, honly.1.symm, honly.2.symm⟩
  · intro browser nonce h
    exact (hs.cookies browser nonce h).mono hmore
  · intro j th' browser call hj hreq
    rcases (Pool.fire_threads hi).mp hj with ⟨rfl, rfl⟩ | ⟨-, hj⟩
    · have hold := (hs.consumers _ th browser call hi hreq).mono hmore
      refine ⟨hold.cookie, fun relayState nonce hsaw => ?_, fun requestId request hsaw => ?_⟩
      · rcases Thread.saw_advance.mp hsaw with hsaw | heq
        · exact hold.took relayState nonce hsaw
        · -- the nonce it takes now is a stored one
          obtain rfl : c = .takeBinding relayState := (congrArg Sigma.fst heq).symm
          have hlive : s.pool.store.bindings.live s.pool.now relayState = some nonce := by
            simpa [exec, eq_comm] using heq
          obtain ⟨x, hx, -⟩ := Table.live_eq_some.mp hlive
          exact (hs.bindings relayState _ hx).mono hmore
      · rcases Thread.saw_advance.mp hsaw with hsaw | heq
        · exact hold.consumed requestId request hsaw
        · -- the request it consumes now is a stored one, and this is where the two must agree
          obtain rfl : c = .consume requestId := (congrArg Sigma.fst heq).symm
          have hlive : s.pool.store.requests.live s.pool.now requestId = some request := by
            simpa [exec, eq_comm] using heq
          obtain ⟨x, hx, -⟩ := Table.live_eq_some.mp hlive
          exact ⟨(hs.requests requestId _ hx).mono hmore,
            hmatching th browser call requestId request hi hreq (Pool.next_eq hi hr) hlive⟩
    · exact (hs.consumers j th' browser call hj hreq).mono hmore

omit [FloorRing T] in
theorem Bound.setBindingCookie {s : Logins B T} (hs : Bound g defaultIdp s) {browser : B}
    {cookie : Option String} (h : ∀ nonce, cookie = some nonce → DrawnIn s.pool browser nonce) :
    Bound g defaultIdp (s.setBindingCookie browser cookie) where
  coherent := hs.coherent
  distinct := hs.distinct
  requests := hs.requests
  bindings := hs.bindings
  cookies browser' nonce hcookie := by
    by_cases hb : browser' = browser
    · subst hb
      exact h nonce (by simpa [Logins.setBindingCookie] using hcookie)
    · refine hs.cookies browser' nonce ?_
      simpa [Logins.setBindingCookie, Function.update_of_ne hb] using hcookie
  consumers := hs.consumers

omit [FloorRing T] in
theorem Bound.setSessionCookie {s : Logins B T} (hs : Bound g defaultIdp s) (browser : B)
    (sid : String) : Bound g defaultIdp (s.setSessionCookie browser sid) :=
  ⟨hs.coherent, hs.distinct, hs.requests, hs.bindings, hs.cookies, hs.consumers⟩

omit [FloorRing T] in
theorem Bound.answered {s : Logins B T} (hs : Bound g defaultIdp s) {i : Nat}
    {th : Thread (Command T) Reply (Visit B) (Answer T) T} (hi : s.pool.At i th)
    (answer : Answer T) : Bound g defaultIdp (s.answered th.request answer) := by
  unfold Logins.answered
  split
  · rename_i browser call hreq
    refine hs.setBindingCookie fun nonce hnonce => ?_
    obtain rfl : call.bindingNonce = nonce := Option.some.inj hnonce
    exact ⟨call, ⟨i, th, hi, hreq⟩, rfl⟩
  · exact (hs.setSessionCookie _ _).setBindingCookie (by simp)
  · exact hs

/-- **Every move keeps it**, if what is drawn is new and the posted `RelayState` is that of
the request. -/
theorem Bound.step {s : Logins B T} (hs : Bound g defaultIdp s) (mv : LoginMove B T)
    (hdrawn : Drawn s mv) (hmatching : Matching s mv) :
    Bound g defaultIdp (s.step g env defaultIdp mv) := by
  cases mv with
  | tick elapsed =>
    have hmore : MoreLogins s.pool (s.step g env defaultIdp (.tick elapsed)).pool :=
      fun _ _ hstarted => hstarted
    exact ⟨hs.coherent, hs.distinct, hs.requests, hs.bindings, hs.cookies,
      fun i th browser call hi hreq => (hs.consumers i th browser call hi hreq).mono hmore⟩
  | sso browser call =>
    refine hs.spawned ?_ (by simp)
    rintro browser' call' ⟨⟩
    exact hdrawn
  | acs browser samlResponse relayState address sid =>
    refine hs.spawned (by simp) ?_
    rintro browser' call' ⟨⟩
    rfl
  | advance i =>
    simp only [Logins.step, Logins.stepWith, Logins.poolStep, Pool.step]
    split
    · rename_i visit h c k hi
      exact hs.fire hi rfl hmatching
    · exact hs
  | deliver i =>
    simp only [Logins.step, Logins.stepWith]
    split
    · rename_i visit h answer hi
      exact hs.answered hi answer
    · exact hs
  | forget browser => exact hs.setBindingCookie (by simp)

/-! ## The binding -/

omit [DecidableEq B] [FloorRing T] in
/-- **The invariant binds.** -/
theorem Bound.boundToBrowser {s : Logins B T} (hs : Bound g defaultIdp s) :
    BoundToBrowser s.pool := by
  intro i th browser call facts personUuid sid requestId request hi hreq hrest hsaw
  have hfollows := hs.coherent i th hi
  rw [hreq, hrest] at hfollows
  obtain ⟨answer, h₁, h₂, hh, hacs, hwrap⟩ := Prog.Follows.bind_pure.mp hfollows
  obtain ⟨rfl, heq⟩ := Prog.Follows.pure_iff.mp hwrap
  obtain rfl : AcsAnswer.established facts personUuid sid = answer := by simpa using heq
  obtain ⟨relayState, nonce, document, before, after, hposted, hcookie, -, rfl⟩ :=
    acs_established hacs
  have htraced := hs.consumers i th browser call hi hreq
  have htook : th.Saw (.takeBinding relayState) (some nonce) := by
    rw [Thread.Saw, hh]
    simp
  -- the nonce is that of the login the `RelayState` belongs to, and of one in this browser
  obtain ⟨owner, taken, htaken, hrelay, hnonce⟩ := htraced.took relayState nonce htook
  obtain ⟨login, hlogin, hlognonce⟩ := htraced.cookie nonce hcookie
  obtain ⟨rfl, rfl⟩ := hs.distinct _ _ _ _ htaken hlogin (Or.inl (hnonce.trans hlognonce.symm))
  -- and the request that was consumed was made with that `RelayState`
  obtain ⟨⟨maker, made, hmade, hid, hmaderelay⟩, hmatch⟩ := htraced.consumed requestId request hsaw
  have hsame : made.relayState = taken.relayState := by
    rw [hmaderelay, hrelay]
    exact Option.some.inj (hmatch.symm.trans hposted)
  obtain ⟨rfl, rfl⟩ := hs.distinct _ _ _ _ hmade htaken (Or.inr hsame)
  exact ⟨made, hmade, hid, hmaderelay, by rw [hposted, hrelay], by rw [hcookie, hnonce]⟩

/-- **Sessions are bound to the browser that asked, in every run whose consumers are posted
the `RelayState` of the request they consume.** -/
theorem bound_of_run {now : T} {moves : List (LoginMove B T)} {s : Logins B T}
    (hrun : Run (fun s mv => Drawn s mv ∧ Matching s mv) (Logins.step g env defaultIdp)
      (Logins.initial now) moves s) : BoundToBrowser s.pool :=
  (hrun.invariant (fun _ mv hs ha => hs.step mv ha.1 ha.2) (Bound.initial now)).boundToBrowser

end System

/-! ## A login and an attack -/

section Checked

variable {B T : Type}

/-- The `/saml/sso` calls so far. -/
def logins (p : LoginPool B T) : List (B × SsoCall) :=
  p.threads.filterMap fun th =>
    match th.request with
    | .sso browser call => some (browser, call)
    | .acs _ _ => none

theorem mem_logins {p : LoginPool B T} {browser : B} {call : SsoCall} :
    (browser, call) ∈ logins p ↔ Started p browser call := by
  rw [logins, List.mem_filterMap]
  constructor
  · rintro ⟨th, hth, hreq⟩
    obtain ⟨i, hi⟩ := List.getElem?_of_mem hth
    split at hreq
    · rename_i browser' call' heq
      obtain ⟨rfl, rfl⟩ : browser' = browser ∧ call' = call := by simpa using hreq
      exact ⟨i, th, hi, heq⟩
    · cases hreq
  · rintro ⟨i, th, hi, hreq⟩
    exact ⟨th, List.mem_of_getElem? hi, by rw [hreq]⟩

/-- The consumer that is about to consume a request, and the request's name. -/
def consuming (p : LoginPool B T) (i : Nat) : Option (AcsCall × String) :=
  match p.threads[i]? with
  | some ⟨.acs _ call, _, .call (.consume requestId) _⟩ => some (call, requestId)
  | _ => none

theorem consuming_eq {p : LoginPool B T} {i : Nat}
    {th : Thread (Command T) Reply (Visit B) (Answer T) T} {browser : B} {call : AcsCall}
    {requestId : String} (hi : p.At i th) (hreq : th.request = .acs browser call)
    (hnext : p.next i = some (.consume requestId)) : consuming p i = some (call, requestId) := by
  obtain ⟨request, history, rest⟩ := th
  obtain rfl : request = .acs browser call := hreq
  unfold Pool.next at hnext
  rw [hi] at hnext
  cases rest with
  | pure answer => simp at hnext
  | call c k =>
    obtain rfl : c = .consume requestId := by simpa using hnext
    unfold consuming
    rw [hi]

/-- The session a consumer established, and the request it consumed. -/
def establishedFrom (p : LoginPool B T) (i : Nat) : Option (B × OutstandingRequest T) :=
  match p.threads[i]? with
  | some ⟨.acs browser _, history, .pure (.acs (.established _ _ _))⟩ =>
    (history.findSome? fun
      | (_, ⟨.consume _, request⟩) => request
      | _ => none).map (browser, ·)
  | _ => none

theorem BoundToBrowser.of_established {p : LoginPool B T} (h : BoundToBrowser p) {i : Nat}
    {browser : B} {request : OutstandingRequest T}
    (he : establishedFrom p i = some (browser, request)) :
    ∃ login, Started p browser login ∧ login.requestId = request.requestId := by
  unfold establishedFrom at he
  split at he
  · rename_i browser' call history facts personUuid sid hi
    obtain ⟨request', hfind, heq⟩ := Option.map_eq_some_iff.mp he
    obtain ⟨rfl, rfl⟩ : browser' = browser ∧ request' = request := by simpa using heq
    obtain ⟨⟨t, ⟨c, r⟩⟩, hmem, hr⟩ := List.exists_of_findSome?_eq_some hfind
    cases c with
    | consume requestId =>
      obtain rfl : r = some request' := hr
      obtain ⟨login, hlogin, hid, -⟩ := h i _ browser' call facts personUuid sid requestId request'
        hi rfl rfl (List.mem_map.mpr ⟨_, hmem, rfl⟩)
      exact ⟨login, hlogin, hid⟩
    | _ => cases hr
  · cases he

variable [DecidableEq B] [Field T] [LinearOrder T] [FloorRing T]

instance {s : Logins B T} {mv : LoginMove B T} : Decidable (Drawn s mv) :=
  match mv with
  | .sso _ call => decidable_of_iff (∀ login ∈ logins s.pool,
      login.2.bindingNonce ≠ call.bindingNonce ∧ login.2.relayState ≠ call.relayState) (by
        simp only [Prod.forall, mem_logins, Drawn])
  | .tick _ => .isTrue trivial
  | .acs _ _ _ _ _ => .isTrue trivial
  | .advance _ => .isTrue trivial
  | .deliver _ => .isTrue trivial
  | .forget _ => .isTrue trivial

/-- A check that the posted `RelayState` is that of the request. -/
def matchingHere (s : Logins B T) : LoginMove B T → Bool
  | .advance i => (consuming s.pool i).all fun (call, requestId) =>
      (s.pool.store.requests.live s.pool.now requestId).all fun request =>
        call.relayState = some request.relayState
  | _ => true

omit [DecidableEq B] [Field T] [FloorRing T] in
theorem matching_of_matchingHere {s : Logins B T} {mv : LoginMove B T}
    (h : matchingHere s mv = true) : Matching s mv := by
  cases mv with
  | advance i =>
    intro th browser call requestId request hi hreq hnext hlive
    simpa [matchingHere, consuming_eq hi hreq hnext, hlive] using h
  | _ => trivial

/-- A form that carries this document. -/
def Carries (document : Bytes) : LoginMove B T → Prop
  | .acs _ samlResponse _ _ _ => decode samlResponse = .ok document
  | _ => True

theorem step_eq_of_carries {g : Gate T} {env : Surroundings T} {defaultIdp : Option String}
    {document : Bytes} {mv : LoginMove B T} (h : Carries document mv) (s : Logins B T) :
    Logins.step g env defaultIdp s mv =
      s.stepWith env (serveDecoded g defaultIdp (.ok document)) mv := by
  cases mv with
  | acs browser samlResponse relayState address sid =>
    have hserve : serve g defaultIdp
        (.acs browser ⟨samlResponse, relayState, s.bindingCookie browser, address, sid⟩) =
        serveDecoded g defaultIdp (.ok document)
          (.acs browser ⟨samlResponse, relayState, s.bindingCookie browser, address, sid⟩) := by
      rw [serve, serveDecoded, acs, show decode samlResponse = .ok document from h]
    simp only [Logins.step, Logins.stepWith, Logins.poolStep, Pool.step, hserve]
  | _ => rfl

end Checked

namespace Sample

/-- A response as the form field carries it. -/
def posted (l : Login) : String := b64encode (bytes l.response)

/-- A login at the sample's issuer. -/
def ssoCall (requestId relayState bindingNonce : String) : SsoCall where
  idp := some "https://idp.test/saml"
  requestId := requestId
  relayState := relayState
  bindingNonce := bindingNonce

/-- The answer of the issuer to a request. -/
def answerTo (requestId nameId : String) : Login where
  inResponseTo := some requestId
  nameId := nameId

/-- One browser, that starts a login and posts the answer. -/
def honestMoves : List (LoginMove Bool ℚ) :=
  [.sso true (ssoCall "_rv" "relay-v" "nonce-v")] ++ List.replicate 4 (.advance 0) ++
    [.deliver 0, .acs true (posted (answerTo "_rv" "victim")) (some "relay-v") none "sid"] ++
    List.replicate 9 (.advance 1)

/-- Two browsers start a login each; the answer to the attacker's request is posted in the
victim's browser, under the victim's own `RelayState`. -/
def attackMoves : List (LoginMove Bool ℚ) :=
  [.sso false (ssoCall "_ra" "relay-a" "nonce-a")] ++ List.replicate 4 (.advance 0) ++
    [.sso true (ssoCall "_rv" "relay-v" "nonce-v")] ++ List.replicate 4 (.advance 1) ++
    [.deliver 1, .acs true (posted (answerTo "_ra" "attacker")) (some "relay-v") none "sid"] ++
    List.replicate 9 (.advance 2)

end Sample

/-- The sample's broker, which reads this answer, as far as the answer is decoded. -/
def Sample.decodedStep (l : Sample.Login) : Logins Bool ℚ → LoginMove Bool ℚ → Logins Bool ℚ :=
  Logins.stepWith (Sample.surroundings [Sample.idp])
    (serveDecoded (Sample.gate [l.response]) none (.ok (Sample.bytes l.response)))

/-- The sample's broker. -/
def Sample.loginStep (l : Sample.Login) : Logins Bool ℚ → LoginMove Bool ℚ → Logins Bool ℚ :=
  Logins.step (Sample.gate [l.response]) (Sample.surroundings [Sample.idp]) none

theorem Sample.loginStep_eq (l : Sample.Login) {mv : LoginMove Bool ℚ}
    (h : Carries (Sample.bytes l.response) mv) (s : Logins Bool ℚ) :
    Sample.loginStep l s mv = Sample.decodedStep l s mv :=
  step_eq_of_carries h s

theorem Sample.decode_posted (l : Sample.Login) :
    decode (Sample.posted l) = .ok (Sample.bytes l.response) := by
  rw [decode, Sample.posted, b64decode_b64encode]

theorem Sample.honest_carries : ∀ mv ∈ Sample.honestMoves,
    Carries (Sample.bytes (Sample.answerTo "_rv" "victim").response) mv := by
  simp [Sample.honestMoves, Carries, Sample.decode_posted, or_imp, forall_and]

theorem Sample.attack_carries : ∀ mv ∈ Sample.attackMoves,
    Carries (Sample.bytes (Sample.answerTo "_ra" "attacker").response) mv := by
  simp [Sample.attackMoves, Carries, Sample.decode_posted, or_imp, forall_and]

/-- The honest login is a run whose consumer is posted the `RelayState` of the request, and ends in
a session. -/
theorem Sample.honest_run :
    Run (fun s mv => Drawn s mv ∧ Matching s mv) (Sample.loginStep (Sample.answerTo "_rv" "victim"))
      (Logins.initial 0) Sample.honestMoves
      (Sample.honestMoves.foldl (Sample.decodedStep (Sample.answerTo "_rv" "victim"))
        (Logins.initial 0)) ∧
    (establishedFrom (Sample.honestMoves.foldl
      (Sample.decodedStep (Sample.answerTo "_rv" "victim")) (Logins.initial 0)).pool 1).isSome := by
  have hchecked : Run.leads (fun s mv => Drawn s mv ∧ matchingHere s mv)
      (Sample.decodedStep (Sample.answerTo "_rv" "victim"))
      (fun s => (establishedFrom s.pool 1).isSome) (Logins.initial 0) Sample.honestMoves = true := by
    decide +kernel
  obtain ⟨hrun, hsession⟩ := Run.of_leads hchecked
  refine ⟨(hrun.mono fun _ _ h => ⟨h.1, matching_of_matchingHere h.2⟩).congr_step fun mv hmv s => ?_,
    hsession⟩
  exact Sample.loginStep_eq _ (Sample.honest_carries mv hmv) s

/-- The theorem on an honest login, which does end in a session. -/
theorem bound_of_run_honest :
    BoundToBrowser (Sample.honestMoves.foldl
      (Sample.decodedStep (Sample.answerTo "_rv" "victim")) (Logins.initial 0)).pool ∧
    (establishedFrom (Sample.honestMoves.foldl
      (Sample.decodedStep (Sample.answerTo "_rv" "victim")) (Logins.initial 0)).pool 1).isSome :=
  ⟨bound_of_run Sample.honest_run.1, Sample.honest_run.2⟩

/-- **A session in the victim's browser, from the attacker's request**: nothing but the
matching of the posted `RelayState` is missing. -/
theorem not_bound : ¬ ∀ (g : Gate ℚ) (env : Surroundings ℚ) (defaultIdp : Option String) (now : ℚ)
    (moves : List (LoginMove Bool ℚ)) (s : Logins Bool ℚ),
    Run Drawn (Logins.step g env defaultIdp) (Logins.initial now) moves s →
      BoundToBrowser s.pool := by
  intro h
  -- a session of the victim's browser, the only login of which made another request
  have hchecked : Run.leads Drawn (Sample.decodedStep (Sample.answerTo "_ra" "attacker"))
      (fun s => (establishedFrom s.pool 2).map (fun e => (e.1, e.2.requestId)) =
        some (true, "_ra") ∧
          ∀ login ∈ logins s.pool, login.1 = true → login.2.requestId ≠ "_ra")
      (Logins.initial 0) Sample.attackMoves = true := by
    decide +kernel
  obtain ⟨hrun, hpasses⟩ := Run.of_leads hchecked
  obtain ⟨hsession, hlogins⟩ := of_decide_eq_true hpasses
  have hbound := h _ _ _ _ _ _ (hrun.congr_step fun mv hmv s =>
    Sample.loginStep_eq _ (Sample.attack_carries mv hmv) s)
  obtain ⟨⟨browser, request⟩, he, heq⟩ := Option.map_eq_some_iff.mp hsession
  obtain ⟨rfl, hid⟩ : browser = true ∧ request.requestId = "_ra" := by simpa using heq
  obtain ⟨login, hlogin, hloginid⟩ := hbound.of_established he
  exact hlogins _ (mem_logins.mpr hlogin) rfl (hloginid.trans hid)

end Saml
end CampusID
