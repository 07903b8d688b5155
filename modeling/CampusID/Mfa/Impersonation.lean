import CampusID.Mfa.Endpoints
import CampusID.Mfa.OneTimeCodes

/-!
# Impersonated sessions

The impersonation route starts a session whose `acr` is AAL1, whose `amr` is empty, and which
names the administrator.  The comment there says that it must not be able to reach the console
that minted it.  But nothing in the MFA routes looks at that name: they enrol factors for the
fixture account, and every factor they accept adds its category to `amr`.

`console_shut_iff` says in which runs of requests with such a session the guard of the console
refuses it: those in which the accepted step-ups are all of one category.  `console_reached` is
a run with two.  That the session names the administrator holds in all runs.
-/

namespace CampusID
namespace Mfa

open Lib

/-- The application as it is, the session cookie of a browser, and the clock. -/
structure Visit where
  state : AppState
  cookie : String
  now : Int

/-- What happens: time passes, the browser makes a request or has its session rotated, the push
service settles a request, and roles are assigned. -/
inductive Act where
  | tick (elapsed : Nat)
  | request (request : Request)
  | rotate (fresh : String)
  | settle (requestId status : String)
  | assign (person : String) (roles : List String)

/-- What a route answers, returned or raised. -/
def answerOf : Except Answer Answer → Answer
  | .ok answer => answer
  | .error answer => answer

namespace Visit

/-- One act. -/
def step (app : App) (v : Visit) : Act → Visit
  | .tick elapsed => { v with now := v.now + elapsed }
  | .request request =>
    let out := (app.handle v.now v.cookie request).run v.state
    { v with state := out.2, cookie := (answerOf out.1).cookie.getD v.cookie }
  | .rotate fresh =>
    let out := Redis.run v.now (app.sessions.rotate v.cookie fresh v.now) v.state.redis
    { v with state := { v.state with redis := out.2 },
             cookie := (out.1.map Session.sid).getD v.cookie }
  | .settle requestId status =>
    { v with state := { v.state with pushes := v.state.pushes.settled requestId status } }
  | .assign person roles =>
    { v with state := { v.state with roles := Function.update v.state.roles person roles } }

/-- The identifier that is drawn for the session is not the one it has. -/
def Draws (v : Visit) : Act → Prop
  | .request request => request.fresh ≠ some v.cookie
  | .rotate fresh => fresh ≠ v.cookie
  | _ => True

/-- The impersonation route has just started the session of the cookie, for this administrator. -/
def Minted (app : App) (admin : String) (v : Visit) : Prop :=
  ∃ s sid reason subject fresh answer subject' person,
    (app.impersonate v.now sid reason subject fresh).run s = (.ok answer, v.state) ∧
      answer.cookie = some v.cookie ∧ answer.body = .impersonating subject' person admin

/-- Redis holds this session under the cookie. -/
def Holds (v : Visit) (session : Session) : Prop :=
  v.state.redis.strings.live v.now (.session v.cookie) = some session

/-- The session does not satisfy AAL2 and names the administrator, and the guard of the console
refuses it, whichever roles it asks for. -/
structure Shut (app : App) (admin : String) (v : Visit) : Prop where
  level : ∀ session, v.Holds session → satisfiesAal2 session.amr = false
  mark : ∀ session, v.Holds session → session.impersonatedBy = some admin
  guard : ∀ roles, ∃ answer, ((app.admin v.now v.cookie roles).run v.state).1 = .error answer

/-- The route loads this session of this person, and its verification returns. -/
def Accepts (app : App) (v : Visit) (u : StepUp) (session : Session) (person : String) : Prop :=
  ∃ r s, Redis.run v.now (app.sessions.load v.cookie v.now) v.state.redis = (some session, r) ∧
    session.personUuid = some person ∧
      (u.verify person).run { v.state with redis := r } = (.ok (), s)

/-- A step-up that is accepted is of the category the session has, if it has one. -/
def OneCategory (app : App) (v : Visit) : Act → Prop
  | .request request => ∀ u ∈ request.stepUp app v.now, ∀ session person,
    v.Accepts app u session person → ∀ m ∈ session.amr, m ∈ factorCategories → m = u.kind.category
  | _ => True

/-! ## The session of the cookie -/

/-- What Redis holds under the cookie is a session with that identifier, of the past, that names
the administrator. -/
def Ours (admin : String) (v : Visit) : Prop :=
  ∀ session, v.Holds session → session.sid = v.cookie ∧ session.lastSeenAt ≤ v.now ∧
    session.impersonatedBy = some admin

/-- The session as a load leaves it. -/
def touched (v : Visit) (session : Session) : Session := { session with lastSeenAt := v.now }

/-- The session as an accepted step-up leaves it. -/
def raisedBy (v : Visit) (u : StepUp) (session : Session) : Session :=
  let raised := elevated session.amr u.kind.category session.authTime v.now
  { session with sid := u.fresh, acr := some raised.acr, amr := raised.amr, authTime := v.now,
                 lastSeenAt := v.now }

section Loads

variable {app : App} {admin : String} {v : Visit} {session : Session} {r : Redis}

theorem intime_touched (hintime : ¬ app.sessions.TimedOut session v.now)
    (hpast : session.lastSeenAt ≤ v.now) : ¬ app.sessions.TimedOut (v.touched session) v.now := by
  unfold SessionStore.TimedOut at hintime ⊢
  simp only [touched]
  omega

/-- **A load that returns** a session of ours leaves it touched, and loads it again. -/
theorem Ours.load (h : v.Ours admin)
    (hload : Redis.run v.now (app.sessions.load v.cookie v.now) v.state.redis =
      (some session, r)) :
    ∃ found, v.Holds found ∧ session = v.touched found ∧ session.sid = v.cookie ∧
      Redis.run v.now (app.sessions.load v.cookie v.now) r =
        (some session, app.sessions.writtenAt v.now r session) ∧
      r.strings.live v.now (.session v.cookie) = some session := by
  obtain ⟨found, hfound, hintime, rfl⟩ := app.sessions.load_eq_some (congrArg Prod.fst hload)
  obtain ⟨hsid, hpast, -⟩ := h found hfound
  have hr := app.sessions.load_of_intime hfound hintime
  rw [hload] at hr
  obtain rfl : r = _ := (Prod.mk.inj hr).2
  have hlive := app.sessions.live_writtenAt v.now v.state.redis (v.touched found)
  rw [show (v.touched found).sid = v.cookie from hsid] at hlive
  have hagain := app.sessions.load_of_intime hlive (intime_touched hintime hpast)
  exact ⟨found, hfound, rfl, hsid, hagain, hlive⟩

theorem Ours.of_load (h : v.Ours admin) {out : Option Session × Redis}
    (hload : Redis.run v.now (app.sessions.load v.cookie v.now) v.state.redis = out)
    (hlive : out.2.strings.live v.now (.session v.cookie) = some session) :
    ∃ found, v.Holds found ∧ session = v.touched found := by
  subst hload
  rcases app.sessions.load_cases v.now v.state.redis v.cookie with
    ⟨hnone, hrun⟩ | ⟨found, hfound, ⟨-, hrun⟩ | ⟨-, hrun⟩⟩
  · rw [hrun, hnone] at hlive
    cases hlive
  · rw [hrun] at hlive
    simp [Table.live] at hlive
  · obtain ⟨found', hfound', heq, -, -, hlive'⟩ := h.load hrun
    rw [hrun, hlive'] at hlive
    exact ⟨found', hfound', (Option.some.inj hlive).symm.trans heq⟩

theorem live_moved (moved : Session) (hfresh : moved.sid ≠ v.cookie) :
    (app.sessions.destroyedAt v.now (app.sessions.writtenAt v.now r moved)
      v.cookie).strings.live v.now (.session moved.sid) = some moved := by
  have hne : Key.session moved.sid ≠ .session v.cookie := by simpa using hfresh
  rw [SessionStore.destroyedAt_strings, Table.live, Table.erase_of_ne _ hne]
  exact app.sessions.live_writtenAt v.now r moved

end Loads

/-! ## One request -/

section Requests

variable {app : App} {admin : String} {v : Visit}

theorem Ours.run_elevate (h : v.Ours admin) {session : Session} {r : Redis} {s : AppState}
    (hload : Redis.run v.now (app.sessions.load v.cookie v.now) v.state.redis = (some session, r))
    (hs : s.redis = r) (u : StepUp) (person : String) :
    ∃ answer s', (app.elevate v.now session person u.kind u.fresh).run s = (.ok answer, s') ∧
      answer.cookie = some u.fresh ∧ s'.redis = app.sessions.destroyedAt v.now
        (app.sessions.writtenAt v.now (app.sessions.writtenAt v.now r session)
          (v.raisedBy u session)) v.cookie := by
  obtain ⟨found, -, rfl, hsid, hagain, -⟩ := h.load hload
  have hmove := app.sessions.reissue_of_load hagain fun stored => { stored with
    sid := u.fresh
    acr := some (elevated found.amr u.kind.category found.authTime v.now).acr
    amr := (elevated found.amr u.kind.category found.authTime v.now).amr
    authTime := v.now, lastSeenAt := v.now }
  rw [← hsid, ← SessionStore.elevate_eq_reissue] at hmove
  have hrun : Redis.run v.now (Mfa.elevate app.sessions (v.touched found) u.kind u.fresh v.now
      v.now) r = (some (elevated found.amr u.kind.category found.authTime v.now,
        v.raisedBy u (v.touched found)), app.sessions.destroyedAt v.now
        (app.sessions.writtenAt v.now (app.sessions.writtenAt v.now r (v.touched found))
          (v.raisedBy u (v.touched found))) v.cookie) := by
    rw [← hsid]
    simp only [Redis.run] at hmove
    simp only [Redis.run, Mfa.elevate, Prog.bind_def, Prog.run_bind]
    erw [hmove]
    rfl
  rw [← hs] at hrun
  obtain ⟨s', hs', hredis⟩ := run_elevate_some hrun person
  refine ⟨_, s', hs', rfl, ?_⟩
  rw [hredis, hs]

theorem Ours.run_of_accepts (h : v.Ours admin) {request : Request} {u : StepUp}
    (hu : request.stepUp app v.now = some u) {session : Session} {person : String}
    (haccepts : v.Accepts app u session person) :
    ∃ answer s' r, (app.handle v.now v.cookie request).run v.state = (.ok answer, s') ∧
      answer.cookie = some u.fresh ∧ s'.redis = app.sessions.destroyedAt v.now
        (app.sessions.writtenAt v.now r (v.raisedBy u session)) v.cookie := by
  obtain ⟨r, s, hload, hperson, hverify⟩ := haccepts
  have hr : SessionsAre r { v.state with redis := r } := rfl
  have hs : s.redis = r := (silent_verify hu person).of_returned hr hverify
  obtain ⟨answer, s', hmoved, hcookie, hredis⟩ := h.run_elevate hload hs u person
  refine ⟨answer, s', _, ?_, hcookie, hredis⟩
  unfold App.handle App.signedIn
  rw [Eff.run_bind_of_ok (run_caller_some hload), hperson]
  dsimp only
  rw [route_of_stepUp hu]
  exact (Eff.run_bind_of_ok hverify).trans hmoved

variable (app) in
/-- **How a request ends**: no cookie is set and the sessions are those after the load, or a
step-up was accepted, and the session is moved. -/
theorem Ours.request_cases (h : v.Ours admin) (request : Request) :
    ∃ out, (app.handle v.now v.cookie request).run v.state = out ∧
      (((answerOf out.1).cookie = none ∧ out.2.redis =
          (Redis.run v.now (app.sessions.load v.cookie v.now) v.state.redis).2) ∨
        ∃ u ∈ request.stepUp app v.now, ∃ session person r, v.Accepts app u session person ∧
          (answerOf out.1).cookie = some u.fresh ∧ out.2.redis = app.sessions.destroyedAt v.now
            (app.sessions.writtenAt v.now r (v.raisedBy u session)) v.cookie) := by
  by_cases hsome : ∃ u ∈ request.stepUp app v.now, ∃ session person, v.Accepts app u session person
  · obtain ⟨u, hu, session, person, haccepts⟩ := hsome
    obtain ⟨answer, s', r, hrun, hcookie, hredis⟩ := h.run_of_accepts hu haccepts
    exact ⟨_, hrun, .inr ⟨u, hu, session, person, r, haccepts, hcookie, hredis⟩⟩
  refine ⟨_, rfl, .inl ?_⟩
  unfold App.handle App.signedIn
  rcases hload : Redis.run v.now (app.sessions.load v.cookie v.now) v.state.redis with
    ⟨_ | session, r⟩
  · rw [Eff.run_bind_of_error (run_caller_none hload)]
    exact ⟨rfl, rfl⟩
  rw [Eff.run_bind_of_ok (run_caller_some hload)]
  cases hperson : session.personUuid with
  | none => exact ⟨rfl, rfl⟩
  | some person =>
    have hr : SessionsAre r { v.state with redis := r } := rfl
    dsimp only
    cases hstep : request.stepUp app v.now with
    | none =>
      have hsilent := silent_route (r := r) hstep session person
      rcases hrun : (request.route app v.now session person).run { v.state with redis := r } with
        ⟨answer | answer, s⟩
      · obtain ⟨hs, hcookie⟩ := hsilent.of_raised hr hrun
        exact ⟨hcookie, hs⟩
      · obtain ⟨hs, hcookie⟩ := hsilent.of_returned hr hrun
        exact ⟨hcookie, hs⟩
    | some u =>
      rw [route_of_stepUp hstep]
      rcases hrun : (u.verify person).run { v.state with redis := r } with ⟨answer | _, s⟩
      · obtain ⟨hs, hcookie⟩ := (silent_verify (r := r) hstep person).of_raised hr hrun
        have hroute := Eff.run_bind_of_error (f := fun _ =>
          app.elevate v.now session person u.kind u.fresh) hrun
        rw [show (u.route app v.now session person).run _ = _ from hroute]
        exact ⟨hcookie, hs⟩
      · exact absurd ⟨u, hstep, session, person, r, s, hload, hperson, hrun⟩ hsome

/-- **What the cookie's session is after an act**: it was there before, with the same mark, and
its methods are the same unless a step-up was accepted. -/
theorem Ours.held_step (h : v.Ours admin) {act : Act} (hdraws : v.Draws act) {session : Session}
    (hheld : (v.step app act).Holds session) :
    session.sid = (v.step app act).cookie ∧ session.lastSeenAt ≤ (v.step app act).now ∧
      ∃ found, v.Holds found ∧ session.impersonatedBy = found.impersonatedBy ∧
        (session.amr = found.amr ∨ ∃ request u person loaded, act = .request request ∧
          u ∈ request.stepUp app v.now ∧ v.Accepts app u loaded person ∧ loaded.amr = found.amr ∧
            session.amr = (elevated found.amr u.kind.category found.authTime v.now).amr) := by
  cases act with
  | tick elapsed =>
    have hbefore : v.Holds session :=
      Table.live_antitone (by omega : v.now ≤ v.now + (elapsed : Int)) hheld
    obtain ⟨hsid, hpast, -⟩ := h session hbefore
    refine ⟨hsid, ?_, session, hbefore, rfl, .inl rfl⟩
    change session.lastSeenAt ≤ v.now + (elapsed : Int)
    omega
  | settle requestId status =>
    obtain ⟨hsid, hpast, -⟩ := h session hheld
    exact ⟨hsid, hpast, session, hheld, rfl, .inl rfl⟩
  | assign person roles =>
    obtain ⟨hsid, hpast, -⟩ := h session hheld
    exact ⟨hsid, hpast, session, hheld, rfl, .inl rfl⟩
  | rotate fresh =>
    rcases hload : Redis.run v.now (app.sessions.load v.cookie v.now) v.state.redis with
      ⟨_ | loaded, r⟩
    · have hrun := app.sessions.reissue_of_load_none hload fun session =>
        { session with sid := fresh, lastSeenAt := v.now }
      rw [← SessionStore.rotate_eq_reissue] at hrun
      have hstep : v.step app (.rotate fresh) = { v with state := { v.state with redis := r } } := by
        simp [step, hrun]
      rw [hstep] at hheld ⊢
      obtain ⟨found, hfound, rfl⟩ := h.of_load hload hheld
      exact ⟨(h found hfound).1, le_rfl, found, hfound, rfl, .inl rfl⟩
    · obtain ⟨found, hfound, rfl, -, -, -⟩ := h.load hload
      have hrun := app.sessions.reissue_of_load hload fun session =>
        { session with sid := fresh, lastSeenAt := v.now }
      rw [← SessionStore.rotate_eq_reissue] at hrun
      have hstep : v.step app (.rotate fresh) = { v with cookie := fresh, state := { v.state with
          redis := app.sessions.destroyedAt v.now (app.sessions.writtenAt v.now r
            { v.touched found with sid := fresh, lastSeenAt := v.now }) v.cookie } } := by
        simp [step, hrun]
      have hfresh : fresh ≠ v.cookie := hdraws
      rw [hstep] at hheld ⊢
      obtain rfl := Option.some.inj ((live_moved { v.touched found with
        sid := fresh, lastSeenAt := v.now } hfresh).symm.trans hheld)
      exact ⟨rfl, le_rfl, found, hfound, rfl, .inl rfl⟩
  | request request =>
    obtain ⟨out, hout, ⟨hcookie, hredis⟩ | ⟨u, hu, loaded, person, r, haccepts, hcookie, hredis⟩⟩ :=
      h.request_cases app request
    · have hstep : v.step app (.request request) = { v with state := out.2 } := by
        simp [step, hout, hcookie]
      rw [hstep] at hheld ⊢
      unfold Holds at hheld
      rw [hredis] at hheld
      obtain ⟨found, hfound, rfl⟩ := h.of_load rfl hheld
      exact ⟨(h found hfound).1, le_rfl, found, hfound, rfl, .inl rfl⟩
    · have hstep : v.step app (.request request) = { v with state := out.2, cookie := u.fresh } := by
        simp [step, hout, hcookie]
      have hfresh : u.fresh ≠ v.cookie := by
        rw [← Option.some_inj.ne, ← fresh_of_stepUp hu]
        exact hdraws
      obtain ⟨r', s, hload, -, -⟩ := id haccepts
      obtain ⟨found, hfound, rfl, -, -, -⟩ := h.load hload
      rw [hstep] at hheld ⊢
      unfold Holds at hheld
      rw [hredis] at hheld
      obtain rfl := Option.some.inj ((live_moved _ hfresh).symm.trans hheld)
      exact ⟨rfl, le_rfl, found, hfound, rfl, .inr ⟨request, u, person, _, rfl, hu, haccepts, rfl,
        rfl⟩⟩

/-- **Every act keeps the mark.** -/
theorem Ours.step (h : v.Ours admin) {act : Act} (hdraws : v.Draws act) :
    (v.step app act).Ours admin := by
  intro session hheld
  obtain ⟨hsid, hpast, found, hfound, hmark, -⟩ := h.held_step hdraws hheld
  exact ⟨hsid, hpast, hmark.trans (h found hfound).2.2⟩

/-- **An accepted step-up** leaves the session raised. -/
theorem Ours.held_of_accepts (h : v.Ours admin) {request : Request} {u : StepUp}
    (hu : request.stepUp app v.now = some u) (hdraws : v.Draws (.request request))
    {session : Session} {person : String} (haccepts : v.Accepts app u session person) :
    (v.step app (.request request)).Holds (v.raisedBy u session) := by
  obtain ⟨answer, s', r, hrun, hcookie, hredis⟩ := h.run_of_accepts hu haccepts
  have hstep : v.step app (.request request) = { v with state := s', cookie := u.fresh } := by
    simp [Visit.step, hrun, answerOf, hcookie]
  have hfresh : u.fresh ≠ v.cookie := by
    rw [← Option.some_inj.ne, ← fresh_of_stepUp hu]
    exact hdraws
  rw [hstep]
  unfold Holds
  rw [hredis]
  exact live_moved (v.raisedBy u session) hfresh

end Requests

/-! ## The guard -/

theorem Minted.ours {app : App} {admin : String} {v : Visit} (h : v.Minted app admin) :
    v.Ours admin ∧ ∀ session, v.Holds session → satisfiesAal2 session.amr = false := by
  obtain ⟨s, sid, reason, subject, fresh, answer, subject', person, hrun, hcookie, hbody⟩ := h
  unfold App.impersonate at hrun
  split at hrun
  · cases hrun
  obtain ⟨caller, s₁, -, hrun⟩ := Eff.run_bind_eq_ok.mp hrun
  split at hrun
  · cases hrun
  split at hrun
  · cases hrun
  split at hrun
  · cases hrun
  rename_i resolved _
  have hcreate := app.sessions.run_create v.now s₁.redis
    (impersonation (Text.strip subject) resolved (some caller.personUuid)) fresh
  unfold ofSessions at hrun
  rw [Eff.run_step_bind, hcreate, Eff.run_pure] at hrun
  obtain ⟨hanswer, hstate⟩ := Prod.mk.inj hrun
  obtain rfl := Except.ok.inj hanswer
  obtain rfl : fresh = v.cookie := Option.some.inj hcookie
  obtain ⟨-, -, rfl⟩ : _ ∧ _ ∧ caller.personUuid = admin := by simpa using hbody
  have hholds : ∀ session, v.Holds session → session = app.sessions.newSession
      (impersonation (Text.strip subject) resolved (some caller.personUuid)) v.cookie v.now := by
    intro session hheld
    unfold Holds at hheld
    rw [← hstate] at hheld
    exact Option.some.inj (hheld.symm.trans (app.sessions.live_writtenAt v.now s₁.redis _))
  refine ⟨fun session hheld => ?_, fun session hheld => ?_⟩
  · rw [hholds session hheld]
    exact ⟨rfl, le_rfl, rfl⟩
  · rw [hholds session hheld]
    rfl

theorem guard_refuses {app : App} {admin : String} {v : Visit} (h : v.Ours admin)
    (hlevel : ∀ session, v.Holds session → satisfiesAal2 session.amr = false) (roles : List String) :
    ∃ answer, ((app.admin v.now v.cookie roles).run v.state).1 = .error answer := by
  unfold App.admin
  rcases hload : Redis.run v.now (app.sessions.load v.cookie v.now) v.state.redis with
    ⟨_ | session, r⟩
  · rw [Eff.run_bind_of_error (run_caller_none hload)]
    exact ⟨_, rfl⟩
  rw [Eff.run_bind_of_ok (run_caller_some hload)]
  obtain ⟨found, hfound, rfl, -, -, -⟩ := h.load hload
  cases hperson : (v.touched found).personUuid with
  | none => exact ⟨_, rfl⟩
  | some person =>
    have hlow : satisfiesAal2 (v.touched found).amr = false := hlevel found hfound
    dsimp only
    rw [Eff.run_read_bind]
    split_ifs
    · exact ⟨_, rfl⟩
    · exact ⟨_, rfl⟩

/-! ## The runs -/

/-- **When an impersonated session cannot administer.**  In every run of requests with a session
that the impersonation route has started, the accepted step-ups are of one category exactly when
at every point of the run the session does not satisfy AAL2, names the administrator, and is
refused by the guard of the console. -/
theorem console_shut_iff (app : App) {admin : String} {v v' : Visit} (hminted : v.Minted app admin)
    {acts : List Act} (h : Run Draws (step app) v acts v') :
    Run (fun v act => v.Draws act ∧ v.OneCategory app act) (step app) v acts v' ↔
      ∀ pre post, acts = pre ++ post → Shut app admin (pre.foldl (step app) v) := by
  refine Run.and_iff_forall_reached (I := fun v => v.Ours admin ∧ ∀ session, v.Holds session →
    satisfiesAal2 session.amr = false) ?_ ?_ ?_ h hminted.ours
  · rintro v act ⟨hours, hlevel⟩ hdraws hone
    refine ⟨hours.step hdraws, fun session hheld => ?_⟩
    obtain ⟨-, -, found, hfound, -, hsame | ⟨request, u, person, loaded, rfl, hu, haccepts, hamr,
      hraised⟩⟩ := hours.held_step hdraws hheld
    · rw [hsame]
      exact hlevel found hfound
    · rw [hraised, ← Bool.not_eq_true, satisfiesAal2_iff]
      rintro ⟨a, ha, b, hb, hca, hcb, hne⟩
      have hone : ∀ m ∈ found.amr, m ∈ factorCategories → m = u.kind.category := by
        rw [← hamr]
        exact hone u hu loaded person haccepts
      have hall : ∀ m ∈ (elevated found.amr u.kind.category found.authTime v.now).amr,
          m ∈ factorCategories → m = u.kind.category := by
        intro m hm hcategory
        rcases (mem_elevated hcategory).mp hm with hm | hm
        · exact hone m hm hcategory
        · exact hm
      exact hne ((hall a ha hca).trans (hall b hb hcb).symm)
  · rintro v ⟨hours, hlevel⟩
    exact ⟨hlevel, fun session hheld => (hours session hheld).2.2, guard_refuses hours hlevel⟩
  · rintro v act ⟨hours, -⟩ hdraws hshut
    cases act with
    | request request =>
      intro u hu session person haccepts m hm hcategory
      by_contra hne
      have hlow := hshut.level _ (hours.held_of_accepts hu hdraws haccepts)
      rw [← Bool.not_eq_true, satisfiesAal2_iff] at hlow
      exact hlow ⟨m, (mem_elevated hcategory).mpr (.inl hm), u.kind.category,
        (mem_elevated u.kind.category_mem).mpr (.inr rfl), hcategory, u.kind.category_mem, hne⟩
    | _ => trivial

/-! ### A fixture account that enrols an authenticator and approves a push -/

instance (v : Visit) : (act : Act) → Decidable (v.Draws act)
  | .request request => inferInstanceAs (Decidable (request.fresh ≠ some v.cookie))
  | .rotate fresh => inferInstanceAs (Decidable (fresh ≠ v.cookie))
  | .tick _ => .isTrue trivial
  | .settle _ _ => .isTrue trivial
  | .assign _ _ => .isTrue trivial

/-- A deployment with a push service and one fixture account. -/
def sampleApp : App where
  sessions := Ceremony.sampleStore
  push := some {}
  mac := sampleMac
  ceremony _ _ := .error "mfa.webauthn_rejected"
  attestation _ := .error "mfa.webauthn_rejected"
  matching _ _ := false
  origin := "https://login.campus.example"
  rpId := "login.campus.example"
  production := false
  fixtures := ["fixture@campus.example"]
  personFor eppn := if eppn = "fixture@campus.example" then some "p1" else none

/-- An administrator is signed in with two factors, and the fixture account has the role too. -/
def sampleState : AppState where
  redis := (Redis.run (40 * second) (sampleApp.sessions.create
    { idpEntityId := "https://idp.campus.example", nameId := "n1", amr := [pwd, otp],
      personUuid := some "admin" } "a1" (40 * second)) Store.empty).2
  challenges := Table.empty
  factors := []
  codes := []
  pushes := ⟨Table.empty, fun _ => none⟩
  limits _ := {}
  roles _ := [adminRole]

/-- The administrator impersonates the fixture account. -/
def sampleVisit : Visit where
  state := ((sampleApp.impersonate (40 * second) "a1" "ticket 4711" "fixture@campus.example"
    "s1").run sampleState).2
  cookie := "s1"
  now := 40 * second

theorem minted_sampleVisit : sampleVisit.Minted sampleApp "admin" :=
  ⟨sampleState, "a1", "ticket 4711", "fixture@campus.example", "s1",
    { status := 201, body := .impersonating "fixture@campus.example" "p1" "admin",
      cookie := some "s1" }, "fixture@campus.example", "p1",
    Prod.ext (by decide +kernel) rfl, rfl, rfl⟩

/-- Enrolling an authenticator for the fixture account, and stepping up with it. -/
def codeActs : List Act :=
  [.request (.beginTotp "phone" "GEZDGNBVGY3TQOJQGEZDGNBVGY3TQOJQ" "f1"),
    .request (.confirmTotp "f1" "287082"), .tick 30000000,
    .request (.stepUpTotp "359152" "s2")]

/-- Approving a push, too. -/
def pushActs : List Act :=
  codeActs ++ [.request (.startPush "sign in" "r1" .delivered), .settle "r1" pushApproved,
    .request (.pollPush "r1" .delivered "s3")]

/-- One category does not reach the console. -/
theorem console_shut_codeActs : Shut sampleApp "admin" (codeActs.foldl (step sampleApp)
    sampleVisit) := by
  have hrun : Run Draws (step sampleApp) sampleVisit codeActs _ := Run.of_admits (by decide +kernel)
  refine (console_shut_iff sampleApp minted_sampleVisit hrun).mp ?_ codeActs []
    (List.append_nil _).symm
  refine .cons ⟨by decide, fun u hu => by cases hu⟩ (.cons ⟨by decide, fun u hu => by cases hu⟩
    (.cons ⟨trivial, trivial⟩ (.cons ⟨by decide +kernel, ?_⟩ (.nil _))))
  rintro u - session person ⟨r, s, hload, -⟩ m hm
  have hmethods : ((Redis.run (70 * second) (sampleApp.sessions.load "s1" (70 * second))
    ((codeActs.take 3).foldl (step sampleApp) sampleVisit).state.redis).1.map Session.amr) =
      some [] := by
    decide +kernel
  have hcookie : ((codeActs.take 3).foldl (step sampleApp) sampleVisit).cookie = "s1" := by
    decide +kernel
  change Redis.run (70 * second) (sampleApp.sessions.load
    ((codeActs.take 3).foldl (step sampleApp) sampleVisit).cookie (70 * second)) _ = _ at hload
  rw [hcookie] at hload
  erw [hload] at hmethods
  rw [Option.some.inj hmethods] at hm
  cases hm

/-- **An impersonated session reaches the console** with an authenticator it has enrolled itself
and a push that was approved. -/
theorem console_reached : ¬ ∀ (app : App) (admin : String) (v v' : Visit) (acts : List Act),
    v.Minted app admin → Run Draws (step app) v acts v' → Shut app admin v' := by
  intro h
  have hrun : Run Draws (step sampleApp) sampleVisit pushActs _ := Run.of_admits (by decide +kernel)
  obtain ⟨answer, hanswer⟩ := (h _ _ _ _ _ minted_sampleVisit hrun).guard [adminRole]
  have hpassed : ((sampleApp.admin (70 * second) "s3").run
      (pushActs.foldl (step sampleApp) sampleVisit).state).1 = .ok ⟨"p1", "s3"⟩ := by
    decide +kernel
  have hnow : (pushActs.foldl (step sampleApp) sampleVisit).now = 70 * second := by
    decide +kernel
  have hcookie : (pushActs.foldl (step sampleApp) sampleVisit).cookie = "s3" := by
    decide +kernel
  rw [hnow, hcookie, hpassed] at hanswer
  cases hanswer

end Visit

end Mfa
end CampusID
