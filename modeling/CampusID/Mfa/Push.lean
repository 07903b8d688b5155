import CampusID.Cache
import CampusID.Lib.Expiry
import CampusID.Lib.Interleaving

/-!
# Push approvals

The client of the push service, any number of its calls interleaved with each other and with
what happens at the service.  A Redis command is atomic, and so is a request to the service.

A request is raised at the service and bound to its person for the length of the window.  A poll
reads the binding, asks the service, and deletes the binding when the request is settled.
Nothing keeps two polls from reading the binding before one of them deletes it
(`approved_twice`), so `approval_is_single_use` is about the runs in which the polls of an
approved request hold its binding one after the other (`Alone`).

What the service does with a request is a command of its own, `settle`, which leaves a settled
request as it is.
-/

namespace CampusID
namespace Mfa

open Lib

/-- `PENDING`. -/
def pushPending : String := "pending"

/-- `APPROVED`. -/
def pushApproved : String := "approved"

/-- `DENIED`. -/
def pushDenied : String := "denied"

/-- `EXPIRED`. -/
def pushExpired : String := "expired"

/-- `UNAVAILABLE`. -/
def pushUnavailable : String := "unavailable"

/-- The statuses that are final. -/
def SettledStatus (status : String) : Prop :=
  status = pushApproved ∨ status = pushDenied ∨ status = pushExpired

instance (status : String) : Decidable (SettledStatus status) :=
  inferInstanceAs (Decidable (_ ∨ _ ∨ _))

/-- `PushClient`. -/
structure PushClient where
  window : Int := 60 * second

/-- `int(window.total_seconds())`, as a duration. -/
def PushClient.lifetime (client : PushClient) : Int := client.window.tdiv second * second

/-- What becomes of a request to the service: an answer, one that lacks the field it is read
for, an error of the transport or of its status code, a body that is no JSON. -/
inductive Transport where
  | delivered
  | bare
  | httpError
  | malformed
  deriving DecidableEq, Repr

/-- Why the service gave no answer. -/
inductive PushFailure where
  | http
  | malformed
  deriving DecidableEq, Repr

/-- A request as the service keeps it. -/
structure PushRequest where
  subject : String
  context : String
  status : String
  deriving DecidableEq, Repr

/-- The bindings in Redis, and the requests at the service. -/
structure PushState where
  bindings : Table String (fun _ => String) Int
  requests : String → Option PushRequest

/-- The steps: the service is asked to raise a request under an id it draws, the binding is
written, read and deleted, the service is asked for the status, and it settles a request. -/
inductive PushCmd where
  | post (subject context requestId : String) (transport : Transport)
  | bind (requestId personUuid : String) (ex : Int)
  | bound (requestId : String)
  | ask (requestId : String) (transport : Transport)
  | unbind (requestId : String)
  | settle (requestId status : String)
  deriving DecidableEq, Repr

/-- What a step answers. -/
abbrev PushCmd.Reply : PushCmd → Type
  | .post _ _ _ _ => Option String
  | .bind _ _ _ => Unit
  | .bound _ => Option String
  | .ask _ _ => Except PushFailure (Option String)
  | .unbind _ => Unit
  | .settle _ _ => Unit

/-- The service keeps a request. -/
def PushState.keep (st : PushState) (requestId : String) (request : PushRequest) : PushState :=
  { st with requests := Function.update st.requests requestId (some request) }

/-- A request that is raised. -/
def PushState.raised (st : PushState) (subject context requestId : String) : PushState :=
  st.keep requestId { subject := subject, context := context, status := pushPending }

/-- What the service answers when it is asked for a request.  It knows nothing of a request that
was not raised. -/
def PushState.answer (st : PushState) (requestId : String) :
    Transport → Except PushFailure (Option String)
  | .httpError => .error .http
  | .malformed => .error .malformed
  | .bare => if st.requests requestId = none then .error .http else .ok none
  | .delivered =>
    match st.requests requestId with
    | none => .error .http
    | some request => .ok (some request.status)

/-- The service settles a request that is not settled. -/
def PushState.settled (st : PushState) (requestId status : String) : PushState :=
  match st.requests requestId with
  | none => st
  | some request =>
    if SettledStatus request.status then st
    else st.keep requestId { request with status := status }

/-- One step at the instant `now`. -/
def PushState.exec (now : Int) : (c : PushCmd) → PushState → c.Reply × PushState
  | .post subject context requestId .delivered, st =>
    (some requestId, st.raised subject context requestId)
  | .post subject context requestId .bare, st => (none, st.raised subject context requestId)
  | .post subject context requestId .malformed, st => (none, st.raised subject context requestId)
  | .post _ _ _ .httpError, st => (none, st)
  | .bind requestId personUuid ex, st =>
    ((), { st with bindings := st.bindings.put requestId personUuid (some (now + ex)) })
  | .bound requestId, st => (st.bindings.live now requestId, st)
  | .ask requestId transport, st => (st.answer requestId transport, st)
  | .unbind requestId, st => ((), { st with bindings := st.bindings.erase requestId })
  | .settle requestId status, st => ((), st.settled requestId status)

/-- How a call ends. -/
inductive PushOutcome where
  | sent (requestId : String)
  | unavailable
  | status (status : String)
  | error
  | done
  deriving DecidableEq, Repr

/-- A program of these steps. -/
abbrev PushProgram := Prog PushCmd PushCmd.Reply

/-- One step. -/
def pushCommand (c : PushCmd) : PushProgram c.Reply := Prog.send c

/-- `send`. -/
def PushClient.send (client : PushClient) (personUuid context requestId : String)
    (transport : Transport) : PushProgram PushOutcome := do
  let answer : Option String ← pushCommand (.post personUuid context requestId transport)
  match answer with
  | none => return .unavailable
  | some requestId => do
    pushCommand (.bind requestId personUuid client.lifetime)
    return .sent requestId

/-- `outcome` once the service has answered. -/
def afterAnswer (requestId : String) :
    Except PushFailure (Option String) → PushProgram PushOutcome
  | .error .http => return .status pushUnavailable
  | .error .malformed => return .error
  | .ok status =>
    if SettledStatus (status.getD pushPending) then do
      pushCommand (.unbind requestId)
      return .status (status.getD pushPending)
    else return .status (status.getD pushPending)

/-- `outcome`. -/
def outcome (personUuid requestId : String) (transport : Transport) : PushProgram PushOutcome := do
  let bound : Option String ← pushCommand (.bound requestId)
  if bound = some personUuid then do
    let answer : Except PushFailure (Option String) ← pushCommand (.ask requestId transport)
    afterAnswer requestId answer
  else return .status pushExpired

/-- The service settles a request, by a click or by its clock. -/
def settleRequest (requestId status : String) : PushProgram PushOutcome := do
  pushCommand (.settle requestId status)
  return .done

/-- What is called, with the id the service draws and what becomes of the request to it. -/
inductive PushCall where
  | send (personUuid context requestId : String) (transport : Transport)
  | poll (personUuid requestId : String) (transport : Transport)
  | settle (requestId status : String)
  deriving DecidableEq, Repr

/-- The program of a call. -/
def PushClient.program (client : PushClient) : PushCall → PushProgram PushOutcome
  | .send personUuid context requestId transport =>
    client.send personUuid context requestId transport
  | .poll personUuid requestId transport => outcome personUuid requestId transport
  | .settle requestId status => settleRequest requestId status

/-- The id a call draws. -/
def PushCall.drawn : PushCall → Option String
  | .send _ _ requestId _ => some requestId
  | .poll _ _ _ => none
  | .settle _ _ => none

/-- The person a poll is made for. -/
def PushCall.caller : PushCall → Option String
  | .send _ _ _ _ => none
  | .poll personUuid _ _ => some personUuid
  | .settle _ _ => none

/-- A call in progress. -/
abbrev PushThread := Thread PushCmd PushCmd.Reply PushCall PushOutcome Int

/-- The calls in progress over Redis and the service. -/
abbrev PushPool := Pool PushCmd PushCmd.Reply PushCall PushOutcome Int PushState

/-- No calls, no binding and no request. -/
def noPushes (now : Int) : PushPool := ⟨⟨Table.empty, fun _ => none⟩, now, []⟩

namespace PushClient

variable (client : PushClient)

/-- One move. -/
def poolStep (p : PushPool) (mv : Move PushCall Int) : PushPool :=
  p.step PushState.exec client.program mv

/-- The moves that can happen: the clock does not run backwards, and the service draws a new id
for each request. -/
def Possible (p : PushPool) : Move PushCall Int → Prop
  | .tick elapsed => 0 ≤ elapsed
  | .spawn q => ∀ requestId ∈ q.drawn, ∀ th ∈ p.threads, th.request.drawn ≠ some requestId
  | .advance _ => True

end PushClient

/-! ## Approved once -/

/-- The poll returned that the request is approved. -/
def Approves (th : PushThread) (personUuid requestId : String) : Prop :=
  (∃ transport, th.request = .poll personUuid requestId transport) ∧
    th.rest = .pure (.status pushApproved)

/-- The call that raised a request has bound it to its person at the instant `t`. -/
def BoundAt (client : PushClient) (p : PushPool) (personUuid requestId : String) (t : Int) : Prop :=
  ∃ i th context transport, p.At i th ∧ th.request = .send personUuid context requestId transport ∧
    (t, ⟨.bind requestId personUuid client.lifetime, ()⟩) ∈ th.history

/-- At most one poll returns that a request is approved, and it was made for the person the
request was raised for, while the binding was there. -/
structure ApprovedOnce (client : PushClient) (p : PushPool) : Prop where
  once : ∀ i j th th' personUuid personUuid' requestId, p.At i th → p.At j th' →
    Approves th personUuid requestId → Approves th' personUuid' requestId → i = j
  own : ∀ i th personUuid requestId, p.At i th → Approves th personUuid requestId →
    ∃ t t', BoundAt client p personUuid requestId t ∧
      (t', ⟨.bound requestId, some personUuid⟩) ∈ th.history ∧ t ≤ t' ∧ t' < t + client.lifetime

/-- The service has approved the request. -/
def PushState.Approved (st : PushState) (requestId : String) : Prop :=
  (st.requests requestId).map PushRequest.status = some pushApproved

instance (st : PushState) (requestId : String) : Decidable (st.Approved requestId) :=
  inferInstanceAs (Decidable (_ = _))

/-- The step of a poll that has found the binding of the request and not deleted it. -/
def PushCmd.Holds (requestId : String) : PushCmd → Prop
  | .ask id _ => id = requestId
  | .unbind id => id = requestId
  | _ => False

instance (requestId : String) : (c : PushCmd) → Decidable (c.Holds requestId)
  | .ask id _ => inferInstanceAs (Decidable (id = requestId))
  | .unbind id => inferInstanceAs (Decidable (id = requestId))
  | .post _ _ _ _ => .isFalse id
  | .bind _ _ _ => .isFalse id
  | .bound _ => .isFalse id
  | .settle _ _ => .isFalse id

/-- What thread `i` is about to do does not make two polls of an approved request hold its
binding: it asks for one only while no other poll holds its binding, and finds a binding only
while no poll is about to delete it. -/
def StaysAlone (p : PushPool) (i : Nat) : Option PushCmd → Prop
  | some (.ask requestId _) => p.store.Approved requestId → ∀ j < p.threads.length, j ≠ i →
    ∀ c ∈ p.next j, ¬ c.Holds requestId
  | some (.bound requestId) => p.store.Approved requestId → ∀ th ∈ p.threads[i]?,
    p.store.bindings.live p.now requestId = th.request.caller →
      ∀ j < p.threads.length, p.next j ≠ some (.unbind requestId)
  | _ => True

/-- **The polls of an approved request hold its binding one after the other.** -/
def Alone (p : PushPool) : Move PushCall Int → Prop
  | .advance i => StaysAlone p i (p.next i)
  | _ => True

instance (p : PushPool) (i : Nat) : (c : Option PushCmd) → Decidable (StaysAlone p i c)
  | some (.ask requestId _) => inferInstanceAs (Decidable (p.store.Approved requestId →
      ∀ j < p.threads.length, j ≠ i → ∀ c ∈ p.next j, ¬ c.Holds requestId))
  | some (.bound requestId) => inferInstanceAs (Decidable (p.store.Approved requestId →
      ∀ th ∈ p.threads[i]?, p.store.bindings.live p.now requestId = th.request.caller →
        ∀ j < p.threads.length, p.next j ≠ some (.unbind requestId)))
  | none => .isTrue trivial
  | some (.post _ _ _ _) => .isTrue trivial
  | some (.bind _ _ _) => .isTrue trivial
  | some (.unbind _) => .isTrue trivial
  | some (.settle _ _) => .isTrue trivial

instance (p : PushPool) : (mv : Move PushCall Int) → Decidable (Alone p mv)
  | .advance i => inferInstanceAs (Decidable (StaysAlone p i (p.next i)))
  | .tick _ => .isTrue trivial
  | .spawn _ => .isTrue trivial

instance (p : PushPool) : (mv : Move PushCall Int) → Decidable (PushClient.Possible p mv)
  | .tick elapsed => inferInstanceAs (Decidable (0 ≤ elapsed))
  | .spawn q => inferInstanceAs (Decidable (∀ requestId ∈ q.drawn, ∀ th ∈ p.threads,
      th.request.drawn ≠ some requestId))
  | .advance _ => .isTrue trivial

/-! ## The programs -/

theorem approved_settled : SettledStatus pushApproved := .inl rfl

theorem afterAnswer_settled {requestId : String} {status : Option String}
    (h : SettledStatus (status.getD pushPending)) : afterAnswer requestId (.ok status) =
      .call (.unbind requestId) fun _ => .pure (.status (status.getD pushPending)) :=
  if_pos h

theorem afterAnswer_open {requestId : String} {status : Option String}
    (h : ¬ SettledStatus (status.getD pushPending)) :
    afterAnswer requestId (.ok status) = .pure (.status (status.getD pushPending)) :=
  if_neg h

theorem follows_outcome {personUuid requestId : String} {transport : Transport}
    {h : List (Σ c : PushCmd, c.Reply)} {q : PushProgram PushOutcome}
    (hf : Prog.Follows (outcome personUuid requestId transport) h q) :
    (h = [] ∧ q = outcome personUuid requestId transport) ∨
    (∃ b, b ≠ some personUuid ∧ h = [⟨.bound requestId, b⟩] ∧ q = .pure (.status pushExpired)) ∨
    (h = [⟨.bound requestId, some personUuid⟩] ∧
      q = .call (.ask requestId transport) (afterAnswer requestId)) ∨
    (∃ a, h = [⟨.bound requestId, some personUuid⟩, ⟨.ask requestId transport, a⟩] ∧
      q = afterAnswer requestId a) ∨
    ∃ status, SettledStatus (Option.getD status pushPending) ∧
      h = [⟨.bound requestId, some personUuid⟩, ⟨.ask requestId transport, .ok status⟩,
        ⟨.unbind requestId, ()⟩] ∧ q = .pure (.status (Option.getD status pushPending)) := by
  rcases Prog.Follows.call_iff.mp hf with ⟨rfl, rfl⟩ | ⟨b, h₁, rfl, hf₁⟩
  · exact .inl ⟨rfl, rfl⟩
  refine .inr ?_
  change Prog.Follows (ite (b = some personUuid) _ _) h₁ q at hf₁
  split_ifs at hf₁ with hb
  · subst hb
    rcases Prog.Follows.call_iff.mp hf₁ with ⟨rfl, rfl⟩ | ⟨a, h₂, rfl, hf₂⟩
    · exact .inr (.inl ⟨rfl, rfl⟩)
    refine .inr (.inr ?_)
    change Prog.Follows (afterAnswer requestId a) h₂ q at hf₂
    match a with
    | .error .http =>
      obtain ⟨rfl, rfl⟩ := Prog.Follows.pure_iff.mp hf₂
      exact .inl ⟨_, rfl, rfl⟩
    | .error .malformed =>
      obtain ⟨rfl, rfl⟩ := Prog.Follows.pure_iff.mp hf₂
      exact .inl ⟨_, rfl, rfl⟩
    | .ok status =>
      by_cases hs : SettledStatus (Option.getD status pushPending)
      · rw [afterAnswer_settled hs] at hf₂
        rcases Prog.Follows.call_iff.mp hf₂ with ⟨rfl, rfl⟩ | ⟨_, h₃, rfl, hf₃⟩
        · exact .inl ⟨.ok status, rfl, (afterAnswer_settled hs).symm⟩
        · obtain ⟨rfl, rfl⟩ := Prog.Follows.pure_iff.mp hf₃
          exact .inr ⟨status, hs, rfl, rfl⟩
      · rw [afterAnswer_open hs] at hf₂
        obtain ⟨rfl, rfl⟩ := Prog.Follows.pure_iff.mp hf₂
        exact .inl ⟨.ok status, rfl, (afterAnswer_open hs).symm⟩
  · obtain ⟨rfl, rfl⟩ := Prog.Follows.pure_iff.mp hf₁
    exact .inl ⟨b, hb, rfl, rfl⟩

theorem follows_send {client : PushClient} {personUuid context requestId : String}
    {transport : Transport} {h : List (Σ c : PushCmd, c.Reply)} {q : PushProgram PushOutcome}
    (hf : Prog.Follows (client.send personUuid context requestId transport) h q) :
    (h = [] ∧ q = client.send personUuid context requestId transport) ∨
    (h = [⟨.post personUuid context requestId transport, none⟩] ∧ q = .pure .unavailable) ∨
    ∃ id, (h = [⟨.post personUuid context requestId transport, some id⟩] ∧
        q = .call (.bind id personUuid client.lifetime) fun _ => .pure (.sent id)) ∨
      (h = [⟨.post personUuid context requestId transport, some id⟩,
        ⟨.bind id personUuid client.lifetime, ()⟩] ∧ q = .pure (.sent id)) := by
  rcases Prog.Follows.call_iff.mp hf with ⟨rfl, rfl⟩ | ⟨answer, h₁, rfl, hf₁⟩
  · exact .inl ⟨rfl, rfl⟩
  refine .inr ?_
  cases answer with
  | none =>
    obtain ⟨rfl, rfl⟩ := Prog.Follows.pure_iff.mp hf₁
    exact .inl ⟨rfl, rfl⟩
  | some id =>
    refine .inr ⟨id, ?_⟩
    rcases Prog.Follows.call_iff.mp hf₁ with ⟨rfl, rfl⟩ | ⟨_, h₂, rfl, hf₂⟩
    · exact .inl ⟨rfl, rfl⟩
    · obtain ⟨rfl, rfl⟩ := Prog.Follows.pure_iff.mp hf₂
      exact .inr ⟨rfl, rfl⟩

theorem follows_settle {requestId status : String} {h : List (Σ c : PushCmd, c.Reply)}
    {q : PushProgram PushOutcome} (hf : Prog.Follows (settleRequest requestId status) h q) :
    (h = [] ∧ q = settleRequest requestId status) ∨
      (h = [⟨.settle requestId status, ()⟩] ∧ q = .pure .done) := by
  rcases Prog.Follows.call_iff.mp hf with ⟨rfl, rfl⟩ | ⟨_, h₁, rfl, hf₁⟩
  · exact .inl ⟨rfl, rfl⟩
  · obtain ⟨rfl, rfl⟩ := Prog.Follows.pure_iff.mp hf₁
    exact .inr ⟨rfl, rfl⟩

/-- The step a call issues, after the replies it has had, and how it goes on. -/
inductive Issued (client : PushClient) (q : PushCall) :
    List (Σ c : PushCmd, c.Reply) → (c : PushCmd) → (c.Reply → PushProgram PushOutcome) → Prop
  | post {personUuid context requestId : String} {transport : Transport}
      {k : Option String → PushProgram PushOutcome}
      (request : q = .send personUuid context requestId transport)
      (sent : k none = .pure .unavailable ∧ ∀ id, k (some id) =
        .call (.bind id personUuid client.lifetime) fun _ => .pure (.sent id)) :
      Issued client q [] (.post personUuid context requestId transport) k
  | bind {personUuid context requestId id : String} {transport : Transport}
      (request : q = .send personUuid context requestId transport) :
      Issued client q [⟨.post personUuid context requestId transport, some id⟩]
        (.bind id personUuid client.lifetime) fun _ => .pure (.sent id)
  | bound {personUuid requestId : String} {transport : Transport}
      {k : Option String → PushProgram PushOutcome}
      (request : q = .poll personUuid requestId transport)
      (found : k (some personUuid) = .call (.ask requestId transport) (afterAnswer requestId))
      (missed : ∀ b, b ≠ some personUuid → k b = .pure (.status pushExpired)) :
      Issued client q [] (.bound requestId) k
  | ask {personUuid requestId : String} {transport : Transport}
      (request : q = .poll personUuid requestId transport) :
      Issued client q [⟨.bound requestId, some personUuid⟩] (.ask requestId transport)
        (afterAnswer requestId)
  | unbind {personUuid requestId : String} {transport : Transport} {status : Option String}
      (request : q = .poll personUuid requestId transport)
      (settled : SettledStatus (status.getD pushPending)) :
      Issued client q
        [⟨.bound requestId, some personUuid⟩, ⟨.ask requestId transport, .ok status⟩]
        (.unbind requestId) fun _ => .pure (.status (status.getD pushPending))
  | settle {requestId status : String} (request : q = .settle requestId status) :
      Issued client q [] (.settle requestId status) fun _ => .pure .done

/-- **What a call issues.** -/
theorem issued {client : PushClient} {q : PushCall} {h : List (Σ c : PushCmd, c.Reply)}
    {c : PushCmd} {k : c.Reply → PushProgram PushOutcome}
    (hf : Prog.Follows (client.program q) h (.call c k)) : Issued client q h c k := by
  cases q with
  | send personUuid context requestId transport =>
    rcases follows_send hf with ⟨rfl, hq⟩ | ⟨-, hq⟩ | ⟨id, ⟨rfl, hq⟩ | ⟨-, hq⟩⟩
    · cases hq
      exact .post rfl ⟨rfl, fun id => rfl⟩
    · cases hq
    · cases hq
      exact .bind rfl
    · cases hq
  | poll personUuid requestId transport =>
    rcases follows_outcome hf with ⟨rfl, hq⟩ | ⟨b, -, -, hq⟩ | ⟨rfl, hq⟩ | ⟨a, rfl, hq⟩ |
      ⟨status, -, -, hq⟩
    · cases hq
      exact .bound rfl (if_pos rfl) fun b hb => if_neg hb
    · cases hq
    · cases hq
      exact .ask rfl
    · match a with
      | .error .http => cases hq
      | .error .malformed => cases hq
      | .ok status =>
        by_cases hs : SettledStatus (Option.getD status pushPending)
        · rw [afterAnswer_settled hs] at hq
          cases hq
          exact .unbind rfl hs
        · rw [afterAnswer_open hs] at hq
          cases hq
    · cases hq
  | settle requestId status =>
    rcases follows_settle hf with ⟨rfl, hq⟩ | ⟨-, hq⟩
    · cases hq
      exact .settle rfl
    · cases hq

/-! ## Where a binding comes from -/

theorem settled_bindings (st : PushState) (requestId status : String) :
    (st.settled requestId status).bindings = st.bindings := by
  unfold PushState.settled
  split
  · rfl
  · split_ifs <;> rfl

theorem binding_of_exec {now : Int} {c : PushCmd} {st : PushState} {requestId : String}
    {e : Entry Int String} (h : (PushState.exec now c st).2.bindings requestId = some e) :
    st.bindings requestId = some e ∨
      ∃ personUuid ex, c = .bind requestId personUuid ex ∧ e = ⟨personUuid, some (now + ex)⟩ := by
  cases c with
  | post subject context id transport => cases transport <;> exact .inl h
  | bind id personUuid ex =>
    by_cases hid : requestId = id
    · subst hid
      change st.bindings.put _ _ _ requestId = some e at h
      rw [Table.put_self] at h
      exact .inr ⟨personUuid, ex, rfl, (Option.some.inj h).symm⟩
    · change st.bindings.put _ _ _ requestId = some e at h
      rw [Table.put_of_ne _ hid] at h
      exact .inl h
  | bound id => exact .inl h
  | ask id transport => exact .inl h
  | unbind id =>
    by_cases hid : requestId = id
    · subst hid
      change st.bindings.erase _ requestId = some e at h
      rw [Table.erase_self] at h
      cases h
    · change st.bindings.erase _ requestId = some e at h
      rw [Table.erase_of_ne _ hid] at h
      exact .inl h
  | settle id status =>
    rw [PushState.exec, settled_bindings] at h
    exact .inl h

/-- What every possible move keeps: an id is drawn once and is the one that is bound; a binding
has the lifetime, and so does one that was found. -/
structure Recorded (client : PushClient) (p : PushPool) : Prop where
  coherent : p.Coherent client.program
  drawn : ∀ i j th th' requestId, p.At i th → p.At j th' → th.request.drawn = some requestId →
    th'.request.drawn = some requestId → i = j
  posted : ∀ i th personUuid context requestId transport id, p.At i th →
    th.Saw (.post personUuid context requestId transport) (some id) → id = requestId
  kept : ∀ requestId personUuid x, p.store.bindings requestId = some ⟨personUuid, x⟩ →
    ∃ t, BoundAt client p personUuid requestId t ∧ x = some (t + client.lifetime) ∧ t ≤ p.now
  found : ∀ i th requestId personUuid t', p.At i th →
    (t', ⟨.bound requestId, some personUuid⟩) ∈ th.history →
      ∃ t, BoundAt client p personUuid requestId t ∧ t ≤ t' ∧ t' < t + client.lifetime

section Steps

variable {client : PushClient} {p : PushPool} {i : Nat} {th : PushThread} {c : PushCmd}
  {k : c.Reply → PushProgram PushOutcome}

theorem BoundAt.fire {personUuid requestId : String} {t : Int}
    (h : BoundAt client p personUuid requestId t) (hi : p.At i th) :
    BoundAt client (p.fire PushState.exec i th c k) personUuid requestId t := by
  obtain ⟨j, th', context, transport, hj, hreq, hmem⟩ := h
  obtain ⟨th'', hj', hreq', hkeep⟩ := Pool.fire_recalls PushState.exec (c := c) (k := k) hi hj
  exact ⟨j, th'', context, transport, hj', hreq'.trans hreq, hkeep _ hmem⟩

theorem BoundAt.spawn {personUuid requestId : String} {t : Int}
    (h : BoundAt client p personUuid requestId t) (th' : PushThread) :
    BoundAt client { p with threads := p.threads ++ [th'] } personUuid requestId t := by
  obtain ⟨j, th₀, context, transport, hj, hreq, hmem⟩ := h
  exact ⟨j, th₀, context, transport, Pool.spawn_keeps hj _, hreq, hmem⟩

theorem Recorded.issued (h : Recorded client p) (hi : p.At i th) (hr : th.rest = .call c k) :
    Issued client th.request th.replies c k :=
  Mfa.issued (hr ▸ h.coherent i th hi)

theorem Recorded.request_of_bind (h : Recorded client p) (hi : p.At i th)
    {requestId personUuid : String} {ex : Int}
    {k : Unit → PushProgram PushOutcome}
    (hr : th.rest = .call (.bind requestId personUuid ex) k) :
    ex = client.lifetime ∧ ∃ context transport,
      th.request = .send personUuid context requestId transport ∧
        th.replies = [⟨.post personUuid context requestId transport, some requestId⟩] := by
  have hissued := h.issued hi hr
  generalize hreplies : th.replies = replies at hissued
  cases hissued with
  | @bind _ context drawn _ transport hreq =>
    obtain rfl : requestId = drawn :=
      h.posted i th personUuid context drawn transport requestId hi (by
        rw [Thread.Saw, hreplies]
        exact .head _)
    exact ⟨rfl, context, transport, hreq, rfl⟩

theorem Recorded.fire (h : Recorded client p) (hi : p.At i th) (hr : th.rest = .call c k) :
    Recorded client (p.fire PushState.exec i th c k) := by
  have hrequest : ∀ {j th'}, (p.fire PushState.exec i th c k).At j th' →
      ∃ th₀, p.At j th₀ ∧ th₀.request = th'.request := by
    intro j th' hj
    rcases (Pool.fire_threads hi).mp hj with ⟨rfl, rfl⟩ | ⟨-, hj⟩
    · exact ⟨th, hi, rfl⟩
    · exact ⟨th', hj, rfl⟩
  refine ⟨Pool.coherent_fire h.coherent hi hr, ?_, ?_, ?_, ?_⟩
  · intro j j' th₁ th₂ requestId hj hj' hd hd'
    obtain ⟨th₁', hold, hreq⟩ := hrequest hj
    obtain ⟨th₂', hold', hreq'⟩ := hrequest hj'
    exact h.drawn j j' th₁' th₂' requestId hold hold' (hreq ▸ hd) (hreq' ▸ hd')
  · intro j th' personUuid context requestId transport id hj hs
    rcases (Pool.fire_threads hi).mp hj with ⟨rfl, rfl⟩ | ⟨-, hj⟩
    · rcases Thread.saw_advance.mp hs with hs | he
      · exact h.posted _ th personUuid context requestId transport id hi hs
      · obtain ⟨rfl, ha⟩ := Sigma.mk.inj he
        have ha := eq_of_heq ha
        cases transport <;> cases ha
        rfl
    · exact h.posted j th' personUuid context requestId transport id hj hs
  · intro requestId personUuid x hb
    rcases binding_of_exec hb with hb | ⟨person, ex, rfl, he⟩
    · obtain ⟨t, hbound, hx, hle⟩ := h.kept requestId personUuid x hb
      exact ⟨t, hbound.fire hi, hx, hle⟩
    · obtain ⟨rfl, rfl⟩ := Entry.mk.inj he
      obtain ⟨rfl, context, transport, hreq, -⟩ := h.request_of_bind hi hr
      refine ⟨p.now, ⟨i, _, context, transport, (Pool.fire_threads hi).mpr (.inl ⟨rfl, rfl⟩),
        hreq, ?_⟩, rfl, le_rfl⟩
      rw [Thread.advance_history]
      exact List.mem_append_right _ (.head _)
  · intro j th' requestId personUuid t' hj hmem
    have hold : ∀ th₀ : PushThread, p.At j th₀ →
        (t', ⟨.bound requestId, some personUuid⟩) ∈ th₀.history →
          ∃ t, BoundAt client (p.fire PushState.exec i th c k) personUuid requestId t ∧ t ≤ t' ∧
            t' < t + client.lifetime := by
      intro th₀ hj₀ hmem₀
      obtain ⟨t, hbound, hle, hlt⟩ := h.found j th₀ requestId personUuid t' hj₀ hmem₀
      exact ⟨t, hbound.fire hi, hle, hlt⟩
    rcases (Pool.fire_threads hi).mp hj with ⟨rfl, rfl⟩ | ⟨-, hj⟩
    · rw [Thread.advance_history, List.mem_append, List.mem_singleton] at hmem
      rcases hmem with hmem | he
      · exact hold th hi hmem
      · -- the binding is live as it is found
        obtain ⟨rfl, hevent⟩ := Prod.mk.inj he
        obtain ⟨rfl, ha⟩ := Sigma.mk.inj hevent
        have ha : some personUuid = p.store.bindings.live p.now requestId := eq_of_heq ha
        obtain ⟨x, hx, hlive⟩ := Table.live_eq_some.mp ha.symm
        obtain ⟨t, hbound, rfl, hle⟩ := h.kept requestId personUuid x hx
        exact ⟨t, hbound.fire hi, hle, Entry.live_some.mp hlive⟩
    · exact hold th' hj hmem

/-- **Every possible move keeps it.** -/
theorem Recorded.step (h : Recorded client p) {m : Move PushCall Int}
    (hgo : PushClient.Possible p m) : Recorded client (client.poolStep p m) := by
  refine Pool.step_invariant PushState.exec client.program (A := PushClient.Possible) ?_ ?_ ?_
    p m h hgo
  · intro p d h hd
    refine ⟨h.coherent, h.drawn, h.posted, fun requestId personUuid x hb => ?_, h.found⟩
    obtain ⟨t, hbound, hx, hle⟩ := h.kept requestId personUuid x hb
    exact ⟨t, hbound, hx, hle.trans (Int.le_add_of_nonneg_right hd)⟩
  · intro p q h hfresh
    refine ⟨Pool.coherent_spawn h.coherent q, ?_, ?_, ?_, ?_⟩
    · intro j j' th₁ th₂ requestId hj hj' hd hd'
      rcases Pool.spawn_threads hj with hj | ⟨rfl, rfl⟩
      · rcases Pool.spawn_threads hj' with hj' | ⟨rfl, rfl⟩
        · exact h.drawn j j' th₁ th₂ requestId hj hj' hd hd'
        · exact absurd hd (hfresh requestId hd' th₁ (List.mem_of_getElem? hj))
      · rcases Pool.spawn_threads hj' with hj' | ⟨rfl, rfl⟩
        · exact absurd hd' (hfresh requestId hd th₂ (List.mem_of_getElem? hj'))
        · rfl
    · intro j th' personUuid context requestId transport id hj hs
      rcases Pool.spawn_threads hj with hj | ⟨-, rfl⟩
      · exact h.posted j th' personUuid context requestId transport id hj hs
      · cases hs
    · intro requestId personUuid x hb
      obtain ⟨t, hbound, hx, hle⟩ := h.kept requestId personUuid x hb
      exact ⟨t, hbound.spawn _, hx, hle⟩
    · intro j th' requestId personUuid t' hj hmem
      rcases Pool.spawn_threads hj with hj | ⟨-, rfl⟩
      · obtain ⟨t, hbound, hle, hlt⟩ := h.found j th' requestId personUuid t' hj hmem
        exact ⟨t, hbound.spawn _, hle, hlt⟩
      · cases hmem
  · intro p i th c k h _ hi hr
    exact h.fire hi hr

end Steps

/-! ## One poll wins -/

/-- The service has told the poll that the request is approved. -/
def Won (th : PushThread) (requestId : String) : Prop :=
  ∃ transport, th.Saw (.ask requestId transport) (.ok (some pushApproved))

theorem won_of_approves {client : PushClient} {p : PushPool} (h : p.Coherent client.program)
    {i : Nat} {th : PushThread} (hi : p.At i th) {personUuid requestId : String}
    (ha : Approves th personUuid requestId) :
    Won th requestId ∧ th.Saw (.bound requestId) (some personUuid) := by
  obtain ⟨⟨transport, hreq⟩, hrest⟩ := ha
  have hf := h i th hi
  rw [hreq, hrest] at hf
  rcases follows_outcome hf with ⟨-, hq⟩ | ⟨b, -, -, hq⟩ | ⟨-, hq⟩ | ⟨a, hh, hq⟩ |
    ⟨status, -, hh, hq⟩
  · cases hq
  · injection hq with hq
    injection hq with hq
    exact absurd hq (by decide)
  · cases hq
  · match a with
    | .error .http =>
      injection hq with hq
      injection hq with hq
      exact absurd hq (by decide)
    | .error .malformed => cases hq
    | .ok status =>
      by_cases hs : SettledStatus (Option.getD status pushPending)
      · rw [afterAnswer_settled hs] at hq
        cases hq
      · rw [afterAnswer_open hs] at hq
        injection hq with hq
        injection hq with hq
        exact absurd (hq ▸ approved_settled) hs
  · injection hq with hq
    injection hq with hq
    have hstatus : status = some pushApproved := by
      cases status with
      | none => exact absurd hq (by decide)
      | some s => exact congrArg some hq.symm
    unfold Won Thread.Saw
    rw [hh, hstatus]
    exact ⟨⟨transport, .tail _ (.head _)⟩, .head _⟩

section Winners

variable {client : PushClient} {p : PushPool} {i : Nat} {th : PushThread} {c : PushCmd}
  {k : c.Reply → PushProgram PushOutcome} {requestId : String}

theorem found_of_won (h : p.Coherent client.program) (hi : p.At i th) (hw : Won th requestId) :
    ∃ personUuid, th.Saw (.bound requestId) (some personUuid) := by
  obtain ⟨transport, hs⟩ := hw
  have hf := h i th hi
  unfold Thread.Saw at *
  cases hreq : th.request with
  | send personUuid context id transport' =>
    rw [hreq] at hf
    rcases follows_send hf with ⟨hh, -⟩ | ⟨hh, -⟩ | ⟨id, ⟨hh, -⟩ | ⟨hh, -⟩⟩ <;> simp [hh] at hs
  | settle id status =>
    rw [hreq] at hf
    rcases follows_settle hf with ⟨hh, -⟩ | ⟨hh, -⟩ <;> simp [hh] at hs
  | poll personUuid id transport' =>
    rw [hreq] at hf
    rcases follows_outcome hf with ⟨hh, -⟩ | ⟨b, -, hh, -⟩ | ⟨hh, -⟩ | ⟨a, hh, -⟩ |
      ⟨status, -, hh, -⟩
    · simp [hh] at hs
    · simp [hh] at hs
    · simp [hh] at hs
    · rw [hh] at hs ⊢
      have hid : requestId = id := by simp_all
      exact ⟨personUuid, hid ▸ .head _⟩
    · rw [hh] at hs ⊢
      have hid : requestId = id := by simp_all
      exact ⟨personUuid, hid ▸ .head _⟩

theorem unbinds_of_won (h : Recorded client p) (hi : p.At i th) (hw : Won th requestId)
    (hr : th.rest = .call c k) : c = .unbind requestId := by
  obtain ⟨transport, hs⟩ := hw
  have hissued := h.issued hi hr
  unfold Thread.Saw at hs
  generalize th.replies = replies at hissued hs
  cases hissued with
  | post => cases hs
  | bind => simp at hs
  | bound => cases hs
  | ask => simp at hs
  | settle => cases hs
  | unbind =>
    simp only [List.mem_cons, Sigma.mk.injEq, reduceCtorEq, false_and, PushCmd.ask.injEq,
      List.not_mem_nil, or_false, false_or] at hs
    rw [hs.1.1]

theorem not_won_of_unbound (h : Recorded client p) (hi : p.At i th)
    (hd : th.request.drawn = some requestId)
    (hno : ∀ personUuid ex, (⟨.bind requestId personUuid ex, ()⟩ : Σ c : PushCmd, c.Reply) ∉ th.replies)
    {j : Nat} {th' : PushThread} (hj : p.At j th') : ¬ Won th' requestId := by
  intro hw
  obtain ⟨personUuid, hs⟩ := found_of_won h.coherent hj hw
  obtain ⟨⟨t', e⟩, hmem, rfl⟩ := List.mem_map.mp hs
  obtain ⟨t, ⟨j', sender, context, transport, hj', hreq, hbind⟩, -⟩ :=
    h.found j th' requestId personUuid t' hj hmem
  obtain rfl : j' = i := h.drawn j' i sender th requestId hj' hi (by rw [hreq]; rfl) hd
  obtain rfl : sender = th := Option.some.inj (hj'.symm.trans hi)
  exact hno personUuid client.lifetime (List.mem_map_of_mem hbind)

/-- Where a poll has won: the request is approved, no other poll has won or holds the binding,
and the binding is gone unless the poll is about to delete it. -/
structure OneWinner (p : PushPool) (requestId : String) : Prop where
  approved : ∀ i th, p.At i th → Won th requestId → p.store.Approved requestId
  one : ∀ i j th th', p.At i th → p.At j th' → Won th requestId → Won th' requestId → i = j
  alone : ∀ i th, p.At i th → Won th requestId → ∀ j ≠ i, ∀ c, p.next j = some c →
    ¬ c.Holds requestId
  released : ∀ i th, p.At i th → Won th requestId → p.next i ≠ some (.unbind requestId) →
    p.store.bindings requestId = none

theorem OneWinner.of_none (h : ∀ i th, p.At i th → ¬ Won th requestId) : OneWinner p requestId :=
  ⟨fun i th hi hw => absurd hw (h i th hi), fun i _ th _ hi _ hw => absurd hw (h i th hi),
    fun i th hi hw => absurd hw (h i th hi), fun i th hi hw => absurd hw (h i th hi)⟩

theorem won_of_fire (hi : p.At i th) {j : Nat} {th' : PushThread}
    (hj : (p.fire PushState.exec i th c k).At j th') (hw : Won th' requestId) :
    (∃ th₀, p.At j th₀ ∧ Won th₀ requestId) ∨
      (j = i ∧ ∃ transport, (⟨.ask requestId transport, .ok (some pushApproved)⟩ :
        Σ c : PushCmd, c.Reply) = ⟨c, (PushState.exec p.now c p.store).1⟩) := by
  rcases (Pool.fire_threads hi).mp hj with ⟨rfl, rfl⟩ | ⟨-, hj⟩
  · obtain ⟨transport, hs⟩ := hw
    rcases Thread.saw_advance.mp hs with hs | he
    · exact .inl ⟨th, hi, transport, hs⟩
    · exact .inr ⟨rfl, transport, he⟩
  · exact .inl ⟨th', hj, hw⟩

theorem not_won_of_fire (hi : p.At i th) (hold : ∀ j th', p.At j th' → ¬ Won th' requestId)
    (hno : ∀ transport, (⟨.ask requestId transport, .ok (some pushApproved)⟩ :
      Σ c : PushCmd, c.Reply) ≠ ⟨c, (PushState.exec p.now c p.store).1⟩) :
    ∀ j th', (p.fire PushState.exec i th c k).At j th' → ¬ Won th' requestId := by
  intro j th' hj hw
  rcases won_of_fire hi hj hw with ⟨th₀, hj₀, hw₀⟩ | ⟨-, transport, he⟩
  · exact hold j th₀ hj₀ hw₀
  · exact hno transport he

theorem OneWinner.quiet (h : OneWinner p requestId) (hi : p.At i th) (hlost : ¬ Won th requestId)
    (hno : ∀ transport, (⟨.ask requestId transport, .ok (some pushApproved)⟩ :
      Σ c : PushCmd, c.Reply) ≠ ⟨c, (PushState.exec p.now c p.store).1⟩)
    (hnext : ∀ c' k', k (PushState.exec p.now c p.store).1 = .call c' k' → ¬ c'.Holds requestId)
    (happroved : p.store.Approved requestId →
      (PushState.exec p.now c p.store).2.Approved requestId)
    (hbindings : p.store.bindings requestId = none →
      (PushState.exec p.now c p.store).2.bindings requestId = none) :
    OneWinner (p.fire PushState.exec i th c k) requestId := by
  -- a winner is another thread, and it was one before
  have hold : ∀ j th', (p.fire PushState.exec i th c k).At j th' → Won th' requestId →
      j ≠ i ∧ p.At j th' := by
    intro j th' hj hw
    rcases (Pool.fire_threads hi).mp hj with ⟨rfl, rfl⟩ | hj
    · obtain ⟨th₀, hj₀, hw₀⟩ := (won_of_fire hi hj hw).resolve_right fun hnew =>
        hno _ hnew.2.choose_spec
      obtain rfl : th₀ = th := Option.some.inj (hj₀.symm.trans hi)
      exact absurd hw₀ hlost
    · exact hj
  refine ⟨?_, ?_, ?_, ?_⟩
  · intro j th' hj hw
    exact happroved (h.approved j th' (hold j th' hj hw).2 hw)
  · intro j j' th₁ th₂ hj hj' hw hw'
    exact h.one j j' th₁ th₂ (hold j th₁ hj hw).2 (hold j' th₂ hj' hw').2 hw hw'
  · intro j th' hj hw j' hne c' hc'
    rcases (Pool.next_fire hi).mp hc' with ⟨-, k', hk'⟩ | ⟨-, hc'⟩
    · exact hnext c' k' hk'
    · exact h.alone j th' (hold j th' hj hw).2 hw j' hne c' hc'
  · intro j th' hj hw hun
    refine hbindings (h.released j th' (hold j th' hj hw).2 hw fun hnext' => hun ?_)
    exact (Pool.next_fire hi).mpr (.inr ⟨(hold j th' hj hw).1, hnext'⟩)

theorem approved_keep {st : PushState} {id : String} (hne : requestId ≠ id) (request : PushRequest)
    (h : st.Approved requestId) : (st.keep id request).Approved requestId := by
  have hsame : (st.keep id request).requests requestId = st.requests requestId :=
    Function.update_of_ne hne _ _
  unfold PushState.Approved
  rwa [hsame]

theorem approved_settle {st : PushState} (h : st.Approved requestId) (id status : String) :
    (st.settled id status).Approved requestId := by
  unfold PushState.settled
  cases hid : st.requests id with
  | none => exact h
  | some request =>
    dsimp only
    split_ifs with hs
    · exact h
    · by_cases heq : requestId = id
      · subst heq
        unfold PushState.Approved at h
        rw [hid] at h
        exact absurd (Option.some.inj h ▸ approved_settled) hs
      · exact approved_keep heq _ h

theorem approved_of_answer {st : PushState} {transport : Transport}
    (h : st.answer requestId transport = .ok (some pushApproved)) : st.Approved requestId := by
  unfold PushState.answer at h
  unfold PushState.Approved
  cases transport with
  | delivered =>
    cases hreq : st.requests requestId with
    | none =>
      rw [hreq] at h
      cases h
    | some request =>
      rw [hreq] at h
      exact Except.ok.inj h
  | bare =>
    dsimp only at h
    split_ifs at h
    exact absurd (Except.ok.inj h) (by decide)
  | httpError => cases h
  | malformed => cases h

theorem approved_raised {st : PushState} {id : String} (hne : requestId ≠ id)
    (h : st.Approved requestId) (subject context : String) (now : Int) (transport : Transport) :
    (PushState.exec now (.post subject context id transport) st).2.Approved requestId := by
  have hkeep : (st.raised subject context id).Approved requestId := approved_keep hne _ h
  cases transport with
  | delivered => exact hkeep
  | bare => exact hkeep
  | malformed => exact hkeep
  | httpError => exact h

theorem OneWinner.fire_ask {transport : Transport} (h : OneWinner p requestId)
    (hrec : Recorded client p) (hi : p.At i th)
    (hr : th.rest = .call (.ask requestId transport) (afterAnswer requestId))
    (halone : StaysAlone p i (some (.ask requestId transport))) :
    OneWinner (p.fire PushState.exec i th (.ask requestId transport) (afterAnswer requestId))
      requestId := by
  have hnext := Pool.next_eq hi hr
  -- the poll holds the binding, so no other has won, and it has not either
  have hnone : ∀ j th', p.At j th' → ¬ Won th' requestId := by
    intro j th' hj hw
    by_cases hji : j = i
    · subst hji
      obtain rfl : th' = th := Option.some.inj (hj.symm.trans hi)
      cases unbinds_of_won hrec hi hw hr
    · exact h.alone j th' hj hw i (Ne.symm hji) _ hnext rfl
  by_cases ha : p.store.answer requestId transport = .ok (some pushApproved)
  · have happroved := approved_of_answer ha
    have hwinner : ∀ {j th'}, (p.fire PushState.exec i th (.ask requestId transport)
        (afterAnswer requestId)).At j th' → Won th' requestId → j = i := by
      intro j th' hj hw
      rcases won_of_fire hi hj hw with ⟨th₀, hj₀, hw₀⟩ | ⟨hji, -⟩
      · rcases (Pool.fire_threads hi).mp hj with ⟨hji, -⟩ | ⟨-, hj⟩
        · exact hji
        · exact absurd hw (hnone j th' hj)
      · exact hji
    refine ⟨fun j th' _ _ => happroved, ?_, ?_, ?_⟩
    · intro j j' th₁ th₂ hj hj' hw hw'
      exact (hwinner hj hw).trans (hwinner hj' hw').symm
    · intro j th' hj hw j' hne c' hc'
      obtain rfl := hwinner hj hw
      obtain ⟨-, hc'⟩ := ((Pool.next_fire hi).mp hc').resolve_left fun heq => hne heq.1
      refine halone happroved j' ?_ hne c' hc'
      obtain ⟨th₀, -, hj₀, -⟩ := Pool.next_eq_some.mp hc'
      exact (List.getElem?_eq_some_iff.mp hj₀).1
    · intro j th' hj hw hun
      obtain rfl := hwinner hj hw
      refine absurd ((Pool.next_fire hi).mpr (.inl ⟨rfl, ?_⟩)) hun
      change ∃ k', afterAnswer requestId (p.store.answer requestId transport) = _
      rw [ha]
      exact ⟨_, afterAnswer_settled approved_settled⟩
  · refine .of_none (not_won_of_fire hi hnone fun transport' he => ha ?_)
    obtain ⟨hcmd, hanswer⟩ := Sigma.mk.inj he
    obtain rfl : transport' = transport := (PushCmd.ask.inj hcmd).2
    exact (eq_of_heq hanswer).symm

theorem OneWinner.fire_unbind {k : Unit → PushProgram PushOutcome} (h : OneWinner p requestId)
    (hi : p.At i th) (hr : th.rest = .call (.unbind requestId) k) :
    OneWinner (p.fire PushState.exec i th (.unbind requestId) k) requestId := by
  have hnext := Pool.next_eq hi hr
  have hno : ∀ transport, (⟨.ask requestId transport, .ok (some pushApproved)⟩ :
      Σ c : PushCmd, c.Reply) ≠
        ⟨.unbind requestId, (PushState.exec p.now (.unbind requestId) p.store).1⟩ := by
    rintro transport ⟨⟩
  have hwinner : ∀ {j th'}, (p.fire PushState.exec i th (.unbind requestId) k).At j th' →
      Won th' requestId → j = i ∧ Won th requestId := by
    intro j th' hj hw
    obtain ⟨th₀, hj₀, hw₀⟩ := (won_of_fire hi hj hw).resolve_right fun hnew =>
      hno _ hnew.2.choose_spec
    have hji : j = i := by
      by_contra hne
      exact h.alone j th₀ hj₀ hw₀ i (Ne.symm hne) _ hnext rfl
    subst hji
    obtain rfl : th₀ = th := Option.some.inj (hj₀.symm.trans hi)
    exact ⟨rfl, hw₀⟩
  refine ⟨?_, ?_, ?_, ?_⟩
  · intro j th' hj hw
    exact h.approved i th hi (hwinner hj hw).2
  · intro j j' th₁ th₂ hj hj' hw hw'
    exact (hwinner hj hw).1.trans (hwinner hj' hw').1.symm
  · intro j th' hj hw j' hne c' hc'
    obtain ⟨rfl, hw⟩ := hwinner hj hw
    obtain ⟨-, hc'⟩ := ((Pool.next_fire hi).mp hc').resolve_left fun heq => hne heq.1
    exact h.alone j th hi hw j' hne c' hc'
  · intro j th' _ _ _
    exact Table.erase_self _ _

/-- **What a step keeps**, if it leaves the polls alone. -/
theorem OneWinner.fire (h : OneWinner p requestId) (hrec : Recorded client p) (hi : p.At i th)
    (hr : th.rest = .call c k) (halone : StaysAlone p i (some c)) :
    OneWinner (p.fire PushState.exec i th c k) requestId := by
  have hissued := hrec.issued hi hr
  have hlost : c ≠ .unbind requestId → ¬ Won th requestId :=
    fun hne hw => hne (unbinds_of_won hrec hi hw hr)
  generalize hreplies : th.replies = replies at hissued
  cases hissued with
  | @post personUuid context id transport k hreq hsent =>
    have hno : ∀ transport', (⟨.ask requestId transport', .ok (some pushApproved)⟩ :
        Σ c : PushCmd, c.Reply) ≠ ⟨.post personUuid context id transport,
          (PushState.exec p.now (.post personUuid context id transport) p.store).1⟩ := by
      rintro transport' ⟨⟩
    by_cases hid : requestId = id
    · -- nobody has polled for a request that is not raised
      subst hid
      refine .of_none (not_won_of_fire hi (fun j th' hj => ?_) hno)
      refine not_won_of_unbound hrec hi (by rw [hreq]; rfl) ?_ hj
      rw [hreplies]
      exact fun _ _ => List.not_mem_nil
    · refine h.quiet hi (hlost nofun) hno ?_ (fun ha => approved_raised hid ha _ _ _ _) ?_
      · intro c' k' hk'
        obtain ⟨hnone, hsome⟩ := hsent
        cases hanswer : (PushState.exec p.now (.post personUuid context id transport) p.store).1 with
        | none =>
          rw [hanswer, hnone] at hk'
          cases hk'
        | some id' =>
          rw [hanswer, hsome] at hk'
          cases hk'
          exact fun hholds => hholds
      · cases transport <;> exact fun hb => hb
  | @bind personUuid context drawn id transport hreq =>
    obtain ⟨-, context, transport, hreq, -⟩ := hrec.request_of_bind hi hr
    have hno : ∀ transport', (⟨.ask requestId transport', .ok (some pushApproved)⟩ :
        Σ c : PushCmd, c.Reply) ≠ ⟨.bind id personUuid client.lifetime,
          (PushState.exec p.now (.bind id personUuid client.lifetime) p.store).1⟩ := by
      rintro transport' ⟨⟩
    by_cases hid : requestId = id
    · -- nor for one that is not bound
      subst hid
      refine .of_none (not_won_of_fire hi (fun j th' hj => ?_) hno)
      refine not_won_of_unbound hrec hi (by rw [hreq]; rfl) ?_ hj
      rw [hreplies]
      simp
    · refine h.quiet hi (hlost nofun) hno ?_ (fun ha => ha) ?_
      · rintro c' k' ⟨⟩
      · intro hb
        change p.store.bindings.put _ _ _ requestId = none
        rwa [Table.put_of_ne _ hid]
  | @bound personUuid id transport k hreq hfound hmissed =>
    have hno : ∀ transport', (⟨.ask requestId transport', .ok (some pushApproved)⟩ :
        Σ c : PushCmd, c.Reply) ≠
          ⟨.bound id, (PushState.exec p.now (.bound id) p.store).1⟩ := by
      rintro transport' ⟨⟩
    by_cases hlive : p.store.bindings.live p.now id = some personUuid
    · by_cases hid : requestId = id
      · -- a winner has deleted the binding that is found, or is about to
        subst hid
        refine .of_none (not_won_of_fire hi (fun j th' hj hw => ?_) hno)
        by_cases hun : p.next j = some (.unbind requestId)
        · refine halone (h.approved j th' hj hw) th hi ?_ j (List.getElem?_eq_some_iff.mp hj).1 hun
          rw [hlive, hreq]
          rfl
        · obtain ⟨x, hx, -⟩ := Table.live_eq_some.mp hlive
          rw [h.released j th' hj hw hun] at hx
          cases hx
      · refine h.quiet hi (hlost nofun) hno ?_ (fun ha => ha) fun hb => hb
        intro c' k' hk'
        change k (p.store.bindings.live p.now id) = _ at hk'
        rw [hlive, hfound] at hk'
        cases hk'
        exact fun hholds => hid hholds.symm
    · refine h.quiet hi (hlost nofun) hno ?_ (fun ha => ha) fun hb => hb
      intro c' k' hk'
      change k (p.store.bindings.live p.now id) = _ at hk'
      rw [hmissed _ hlive] at hk'
      cases hk'
  | @ask personUuid id transport hreq =>
    by_cases hid : requestId = id
    · subst hid
      exact h.fire_ask hrec hi hr halone
    · refine h.quiet hi (hlost nofun) ?_ ?_ (fun ha => ha) fun hb => hb
      · rintro transport' he
        exact hid (PushCmd.ask.inj (Sigma.mk.inj he).1).1
      · intro c' k' hk'
        change afterAnswer id (p.store.answer id transport) = _ at hk'
        match p.store.answer id transport, hk' with
        | .error .http, hk' => cases hk'
        | .error .malformed, hk' => cases hk'
        | .ok status, hk' =>
          by_cases hs : SettledStatus (Option.getD status pushPending)
          · rw [afterAnswer_settled hs] at hk'
            cases hk'
            exact fun hholds => hid hholds.symm
          · rw [afterAnswer_open hs] at hk'
            cases hk'
  | @unbind personUuid id transport status hreq hsettled =>
    by_cases hid : requestId = id
    · subst hid
      exact h.fire_unbind hi hr
    · refine h.quiet hi (hlost fun heq => hid (PushCmd.unbind.inj heq).symm) ?_ ?_
        (fun ha => ha) ?_
      · rintro transport' ⟨⟩
      · rintro c' k' ⟨⟩
      · intro hb
        change p.store.bindings.erase _ requestId = none
        rwa [Table.erase_of_ne _ hid]
  | @settle id status hreq =>
    refine h.quiet hi (hlost nofun) ?_ ?_ (fun ha => approved_settle ha id status) ?_
    · rintro transport' ⟨⟩
    · rintro c' k' ⟨⟩
    · intro hb
      change (p.store.settled id status).bindings requestId = none
      rwa [settled_bindings]

end Winners

/-! ## Runs -/

variable {client : PushClient} {p : PushPool}

theorem not_holds_program {q : PushCall} {c : PushCmd} {k : c.Reply → PushProgram PushOutcome}
    (h : client.program q = .call c k) (requestId : String) : ¬ c.Holds requestId := by
  have hf : Prog.Follows (client.program q) [] (.call c k) := h ▸ .nil _
  cases issued hf with
  | post => exact fun hholds => hholds
  | bound => exact fun hholds => hholds
  | settle => exact fun hholds => hholds

/-- **Every move that leaves the polls alone keeps both.** -/
theorem recorded_step {mv : Move PushCall Int} (hgo : PushClient.Possible p mv) (halone : Alone p mv)
    (h : Recorded client p ∧ ∀ requestId, OneWinner p requestId) :
    Recorded client (client.poolStep p mv) ∧
      ∀ requestId, OneWinner (client.poolStep p mv) requestId := by
  refine ⟨h.1.step hgo, fun requestId => ?_⟩
  refine (Pool.step_invariant PushState.exec client.program
    (I := fun p => Recorded client p ∧ OneWinner p requestId)
    (A := fun p mv => PushClient.Possible p mv ∧ Alone p mv) ?_ ?_ ?_ p mv
    ⟨h.1, h.2 requestId⟩ ⟨hgo, halone⟩).2
  · intro p d ⟨hrec, h⟩ ⟨hd, _⟩
    exact ⟨hrec.step (m := .tick d) hd, h.approved, h.one, h.alone, h.released⟩
  · intro p q ⟨hrec, h⟩ ⟨hfresh, _⟩
    have hold : ∀ {j : Nat} {th' : PushThread},
        (p.threads ++ [⟨q, [], client.program q⟩])[j]? = some th' → Won th' requestId →
          p.At j th' := by
      intro j th' hj ⟨transport, hs⟩
      rcases Pool.spawn_threads hj with hj | ⟨-, rfl⟩
      · exact hj
      · cases hs
    refine ⟨hrec.step (m := .spawn q) hfresh, ?_, ?_, ?_, ?_⟩
    · exact fun j th' hj hw => h.approved j th' (hold hj hw) hw
    · exact fun j j' th₁ th₂ hj hj' hw hw' => h.one j j' th₁ th₂ (hold hj hw) (hold hj' hw') hw hw'
    · intro j th' hj hw j' hne c hc
      rcases Pool.next_spawn hc with hc | ⟨k, hk⟩
      · exact h.alone j th' (hold hj hw) hw j' hne c hc
      · exact not_holds_program hk requestId
    · intro j th' hj hw hun
      refine h.released j th' (hold hj hw) hw fun hnext => hun ?_
      obtain ⟨th₀, k, hj₀, hr⟩ := Pool.next_eq_some.mp hnext
      exact Pool.next_eq_some.mpr ⟨th₀, k, Pool.spawn_keeps hj₀ _, hr⟩
  · intro p i th c k ⟨hrec, h⟩ ⟨_, halone⟩ hi hr
    refine ⟨hrec.fire hi hr, h.fire hrec hi hr ?_⟩
    change StaysAlone p i (p.next i) at halone
    rwa [Pool.next_eq hi hr] at halone

theorem recorded_start (client : PushClient) (now : Int) : Recorded client (noPushes now) := by
  refine ⟨?_, ?_, ?_, ?_, ?_⟩
  · rintro i th ⟨⟩
  · rintro i j th th' requestId ⟨⟩
  · rintro i th personUuid context requestId transport id ⟨⟩
  · rintro requestId personUuid x ⟨⟩
  · rintro i th requestId personUuid t' ⟨⟩

theorem Recorded.own (h : Recorded client p) {i : Nat} {th : PushThread} (hi : p.At i th)
    {personUuid requestId : String} (ha : Approves th personUuid requestId) :
    ∃ t t', BoundAt client p personUuid requestId t ∧
      (t', ⟨.bound requestId, some personUuid⟩) ∈ th.history ∧ t ≤ t' ∧
        t' < t + client.lifetime := by
  obtain ⟨-, hs⟩ := won_of_approves h.coherent hi ha
  obtain ⟨⟨t', e⟩, hmem, rfl⟩ := List.mem_map.mp hs
  obtain ⟨t, hbound, hle, hlt⟩ := h.found i th requestId personUuid t' hi hmem
  exact ⟨t, t', hbound, hmem, hle, hlt⟩

/-- **An approval is single use, where the polls keep apart.**  In every run in which the polls
of an approved request hold its binding one after the other, one of them at most returns that it
is approved, and that one was made for the person of the request while the binding was there. -/
theorem approval_is_single_use (client : PushClient) {now : Int} {moves : List (Move PushCall Int)}
    (hrun : Run (fun p mv => PushClient.Possible p mv ∧ Alone p mv) client.poolStep (noPushes now)
      moves p) : ApprovedOnce client p := by
  have hstart : ∀ requestId, OneWinner (noPushes now) requestId :=
    fun requestId => .of_none fun i th hi => by cases hi
  obtain ⟨hrec, h⟩ := hrun.invariant
    (I := fun p => Recorded client p ∧ ∀ requestId, OneWinner p requestId)
    (fun p mv h hgo => recorded_step hgo.1 hgo.2 h) ⟨recorded_start client now, hstart⟩
  refine ⟨?_, fun i th personUuid requestId hi ha => hrec.own hi ha⟩
  intro i j th th' personUuid personUuid' requestId hi hj ha ha'
  exact (h requestId).one i j th th' hi hj (won_of_approves hrec.coherent hi ha).1
    (won_of_approves hrec.coherent hj ha').1

/-! ### Two polls at once -/

/-- A request of `p1` that the service approves. -/
def approvedMoves : List (Move PushCall Int) :=
  [.spawn (.send "p1" "sign-in" "r1" .delivered), .advance 0, .advance 0,
    .spawn (.settle "r1" pushApproved), .advance 1]

/-- A poll of it. -/
def samplePoll : PushCall := .poll "p1" "r1" .delivered

/-- Two polls, one after the other. -/
def pollsApart : List (Move PushCall Int) :=
  approvedMoves ++ [.spawn samplePoll, .advance 2, .advance 2, .advance 2, .spawn samplePoll,
    .advance 3]

/-- Two polls that both read the binding before one of them deletes it. -/
def pollsTogether : List (Move PushCall Int) :=
  approvedMoves ++ [.spawn samplePoll, .spawn samplePoll, .advance 2, .advance 3, .advance 2,
    .advance 3, .advance 2, .advance 3]

/-- The state some moves lead to. -/
def pushesAfter (moves : List (Move PushCall Int)) : PushPool :=
  moves.foldl (PushClient.poolStep {}) (noPushes 0)

/-- One after the other: the second finds no binding. -/
theorem approval_is_single_use_apart : ApprovedOnce {} (pushesAfter pollsApart) :=
  approval_is_single_use {} (Run.of_admits (by decide +kernel))

theorem approves_together : (∃ th, (pushesAfter pollsTogether).At 2 th ∧ Approves th "p1" "r1") ∧
    ∃ th, (pushesAfter pollsTogether).At 3 th ∧ Approves th "p1" "r1" := by
  have happroves : Approves ⟨samplePoll, [(0, ⟨.bound "r1", some "p1"⟩),
      (0, ⟨.ask "r1" .delivered, .ok (some pushApproved)⟩), (0, ⟨.unbind "r1", ()⟩)],
      .pure (.status pushApproved)⟩ "p1" "r1" := ⟨⟨.delivered, rfl⟩, rfl⟩
  exact ⟨⟨_, rfl, happroves⟩, ⟨_, rfl, happroves⟩⟩

/-- **Two polls elevate on one approval.** -/
theorem approved_twice : ¬ ∀ (client : PushClient) (now : Int) (moves : List (Move PushCall Int))
    (p : PushPool), Run PushClient.Possible client.poolStep (noPushes now) moves p →
      ApprovedOnce client p := by
  intro h
  have honce := (h {} 0 pollsTogether _ (Run.of_admits (by decide +kernel))).once
  obtain ⟨⟨th, hi, ha⟩, th', hj, ha'⟩ := approves_together
  exact absurd (honce 2 3 th th' "p1" "p1" "r1" hi hj ha ha') (by decide)

end Mfa
end CampusID
