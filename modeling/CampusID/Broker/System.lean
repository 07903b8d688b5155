import CampusID.Lifecycle.Orchestrator
import CampusID.Oidc.FamilyRevocation
import CampusID.Session.Lineages

/-!
# Sessions and tokens together

One Redis, the session store and the grant store over it, and the three ways a person's
sessions are ended from outside: the logout route, the administrator's console, and the
leaver sequence.  A run is any sequence of calls on these, with the clock moving
forward in between and everything outside Redis changing at will.

Two things are recorded that the program does not keep.  `issued` lists every session
identifier that was ever handed out, with the identifier its session started under ---
the *lineage* it belongs to --- and its subject.  `families` lists every token family
with the session identifier its code carried.

`Sound` is the invariant of all runs.  Its heart is `Lineages.single`: of the identifiers
of one lineage only the latest can be alive.
-/

namespace CampusID

open Lib

/-! ## The routes that end sessions -/

/-- `_end` of the logout route: destroy the session, and revoke the families its
identifier is indexed under. -/
def endSession (sessions : SessionStore) (grants : GrantStore) (sid : String) :
    RedisProg (List String) := do
  sessions.destroy sid
  grants.revokeSessionFamilies sid

/-- `SESSION_HANDLE`. -/
def sessionHandle : Nat := 8

/-- `PersonDirectory.terminate`: every session of a person, or those whose identifier
starts with a handle.  It answers with the handles of what it ended. -/
def terminatePerson (sessions : SessionStore) (personUuid : String) (handle : Option String) :
    RedisProg (List String) := do
  let sids ← sessions.sidsFor personUuid
  match handle with
  | none => do
    let _ ← sessions.terminateSubject personUuid
    return sids.map fun sid => String.ofList (sid.toList.take sessionHandle)
  | some handle => do
    let matched := sids.filter fun sid => handle.toList.isPrefixOf sid.toList
    Prog.forEach sessions.destroy matched
    return matched.map fun sid => String.ofList (sid.toList.take sessionHandle)

/-! ## States and steps -/

/-- The broker in use. -/
structure Broker (Doc δ : Type) where
  world : World Doc δ
  pending : List AuthorizationCode := []
  named : List String := []
  issued : List SidRecord := []
  families : List (String × String) := []

/-- One step of a run. -/
inductive BrokerOp (Doc δ : Type) where
  | tick (elapsed : Int)
  | elsewhere (world : World Doc δ)
  | abandon (grant : AuthorizationCode)
  | call (c : GrantCall)
  | create (login : Login) (sid : String)
  | load (sid : String)
  | rotate (sid fresh : String)
  | elevate (sid acr : String) (amr : List String) (fresh : String)
  | destroy (sid : String)
  | logout (sid : String)
  | terminate (personUuid : String) (handle : Option String)
  | deprovision (personUuid : String) (before : Finset String) (source : Source)
      (on : Option Int)

namespace Broker

variable {Doc δ E : Type}

/-- Redis. -/
def redis (s : Broker Doc δ) : Redis := s.world.redis

/-- The clock. -/
def now (s : Broker Doc δ) : Int := s.world.now

/-- What the grant store sees of the state. -/
def grantState (s : Broker Doc δ) : GrantState := ⟨s.redis, s.now, s.pending, s.named⟩

/-- The state with another Redis. -/
def withRedis (s : Broker Doc δ) (r : Redis) : Broker Doc δ :=
  { s with world := { s.world with redis := r } }

/-- The state after a program. -/
def after {α : Type} (s : Broker Doc δ) (p : RedisProg α) : Broker Doc δ :=
  s.withRedis (Redis.run s.now p s.redis).2

/-- The identifier was handed out. -/
def Known (s : Broker Doc δ) (sid : String) : Prop := ∃ record ∈ s.issued, record.sid = sid

/-- The session under this identifier is alive. -/
def Alive (s : Broker Doc δ) (sid : String) : Prop :=
  s.redis.strings.live s.now (.session sid) ≠ none

/-- The families with the identifier of their code, after a call. -/
def familiesAfter (families : List (String × String)) : GrantCall → List (String × String)
  | .issueCode g _ => (g.familyId, g.sid) :: families
  | _ => families

/-- The state before anything happened. -/
def initial (world : World Doc δ) : Broker Doc δ where
  world := { world with redis := Store.empty }

/-- The state after a reissue of a session. -/
def reissued (s : Broker Doc δ) (sid fresh : String) (p : RedisProg (Option Session)) :
    Broker Doc δ :=
  { s.after p with
    issued := reissuedAs s.issued sid fresh (Redis.run s.now p s.redis).1 }

variable (o : Orchestrator δ E)

/-- One step. -/
def step (s : Broker Doc δ) : BrokerOp Doc δ → Broker Doc δ
  | .tick elapsed => { s with world := { s.world with now := s.now + elapsed } }
  | .elsewhere world => { s with world := { world with redis := s.redis, now := s.now } }
  | .abandon g => { s with pending := s.pending.erase g }
  | .call c =>
    let ended := o.grants.step s.grantState (.call c)
    { s.withRedis ended.redis with
      pending := ended.pending
      named := ended.named
      families := familiesAfter s.families c }
  | .create login sid =>
    { s.after (o.sessions.create login sid s.now) with
      issued := ⟨sid, sid, (o.sessions.newSession login sid s.now).subjectKey⟩ :: s.issued }
  | .load sid => s.after (o.sessions.load sid s.now)
  | .rotate sid fresh => s.reissued sid fresh (o.sessions.rotate sid fresh s.now)
  | .elevate sid acr amr fresh =>
    s.reissued sid fresh (o.sessions.elevate sid acr amr fresh s.now)
  | .destroy sid => s.after (o.sessions.destroy sid)
  | .logout sid => s.after (endSession o.sessions o.grants sid)
  | .terminate personUuid handle => s.after (terminatePerson o.sessions personUuid handle)
  | .deprovision personUuid before source on =>
    { s with world := ((o.deprovision personUuid before source on).run s.world).2 }

/-- The steps callers take: the clock does not run backwards, what is drawn is fresh, a
code is issued under a live session and a logout ends one. -/
def Allowed (s : Broker Doc δ) : BrokerOp Doc δ → Prop
  | .tick elapsed => 0 ≤ elapsed
  | .call (.issueCode g code) =>
    o.grants.Allowed s.grantState (.call (.issueCode g code)) ∧ s.Alive g.sid
  | .call c => o.grants.Allowed s.grantState (.call c)
  | .create _ sid => ¬ s.Known sid
  | .rotate _ fresh => ¬ s.Known fresh
  | .elevate _ _ _ fresh => ¬ s.Known fresh
  | .logout sid => s.Alive sid
  | _ => True

theorem Allowed.grants {o : Orchestrator δ E} {s : Broker Doc δ} {c : GrantCall}
    (h : Allowed o s (.call c)) : o.grants.Allowed s.grantState (.call c) := by
  cases c with
  | issueCode g code => exact h.1
  | _ => exact h

/-! ## What a grant call leaves alone -/

theorem call_sameSessions (st : GrantStore) (now : Int) (r : Redis) (c : GrantCall) :
    (∀ sid, (Redis.run now (st.program c) r).2.strings (.session sid) =
        r.strings (.session sid)) ∧
      ∀ d, (Redis.run now (st.program c) r).2.sets (.subjectIndex d) =
        r.sets (.subjectIndex d) := by
  obtain ⟨out, r', fs, hends, heff⟩ := st.program_effect now r c
  rw [hends.run]
  cases heff with
  | issuedCode g hd =>
    refine ⟨fun sid => ?_, fun d => ?_⟩
    · rw [GrantStore.codeIssuedAt_strings, Table.put_of_ne _ (by simp)]
    · unfold GrantStore.codeIssuedAt
      rw [Store.expire_sets_of_ne _ _ (by simp), Store.sadd_sets_of_ne _ _ (by simp)]
      rfl
  | revokedSession sid _ h =>
    refine ⟨fun sid => ?_, fun d => ?_⟩
    · exact st.markedAll_strings_of_ne _ _ _ (by simp)
    · have hne : SetKey.subjectIndex d ≠ .sessionFamilies sid := by simp
      show (st.markedAll now r fs).sets.erase (.sessionFamilies sid) (.subjectIndex d) = _
      rw [Table.erase_of_ne _ hne, st.markedAll_sets]
  | unissued => exact ⟨fun _ => rfl, fun _ => rfl⟩
  | unredeemed => exact ⟨fun _ => rfl, fun _ => rfl⟩
  | unrotated => exact ⟨fun _ => rfl, fun _ => rfl⟩
  | _ =>
    refine ⟨fun sid => ?_, fun d => rfl⟩
    simp [GrantStore.codeSpentAt, GrantStore.refreshSpentAt, Table.put_of_ne]

/-! ## The invariant -/

/-- **The invariant of every run.** -/
structure Sound (s : Broker Doc δ) : Prop where
  expiries : o.grants.Expiries s.redis.strings s.now
  tracked : o.sessions.Tracked s.redis s.now
  lineages : Lineages s.redis s.now s.issued
  named : ∀ p ∈ s.families, p.1 ∈ s.named

theorem sound_initial (world : World Doc δ) : Sound o (initial world) where
  expiries := .empty _
  tracked := .empty _
  lineages := ⟨fun _ _ h => (by cases h), by simp [initial], by simp [initial],
    by simp [initial], by simp [initial]⟩
  named := by simp [initial]

/-! ## What a call on the session store does -/

/-- **What a call on the session store does** to the broker.  Nothing of the grant
store's is touched; at most one identifier is handed out, a fresh one, and if it is not
the start of a lineage then it takes over from the one that was alive. -/
structure Summary (s s' : Broker Doc δ) (new : Option SidRecord) : Prop where
  now : s'.now = s.now
  pending : s'.pending = s.pending
  named : s'.named = s.named
  families : s'.families = s.families
  grants : SessionStore.SameGrants s.redis s'.redis
  tracked : o.sessions.Tracked s'.redis s.now
  carries : SessionStore.Carries s.now (new.map SidRecord.sid) s.redis s'.redis
  issued : s'.issued = new.toList ++ s.issued
  fresh : ∀ a, new = some a → ¬ s.Known a.sid
  subject : ∀ a, new = some a → ∀ e : Entry Int Session,
    s'.redis.strings (.session a.sid) = some e → a.subject = e.value.subjectKey
  origin : ∀ a, new = some a → a.origin = a.sid ∨ ∃ old ∈ s.issued, old.origin = a.origin ∧
    old.subject = a.subject ∧ s.Alive old.sid ∧ ¬ s'.Alive old.sid

section Steps

variable {o} {s : Broker Doc δ}

theorem summary_after {α : Type} {p : RedisProg α} (honly : Prog.Only SessionStore.SessionKeys p)
    (htracked : o.sessions.Tracked (Redis.run s.now p s.redis).2 s.now)
    (hcarries : SessionStore.Carries s.now none s.redis (Redis.run s.now p s.redis).2) :
    Summary o s (s.after p) none where
  now := rfl
  pending := rfl
  named := rfl
  families := rfl
  grants := SessionStore.run_sameGrants honly s.now s.redis
  tracked := htracked
  carries := hcarries
  issued := rfl
  fresh := by simp
  subject := by simp
  origin := by simp

theorem summary_load (h : Sound o s) (sid : String) :
    Summary o s (step o s (.load sid)) none := by
  refine summary_after (o.sessions.load_only sid s.now) ?_ ?_
  · rcases o.sessions.load_cases s.now s.redis sid with
      ⟨-, hrun⟩ | ⟨session, hl, ⟨-, hrun⟩ | ⟨-, hrun⟩⟩
    · rw [hrun]
      exact h.tracked
    · rw [hrun]
      exact h.tracked.destroyedAt sid
    · rw [hrun]
      obtain ⟨x, hx, -⟩ := Table.live_eq_some.mp hl
      obtain ⟨-, hbounded, -⟩ := h.tracked sid _ hx
      exact h.tracked.writtenAt hbounded
  · rcases o.sessions.load_cases s.now s.redis sid with
      ⟨-, hrun⟩ | ⟨session, hl, ⟨-, hrun⟩ | ⟨-, hrun⟩⟩
    · rw [hrun]
      exact .refl _
    · rw [hrun]
      exact .destroyedAt _ _
    · rw [hrun]
      obtain ⟨x, hx, -⟩ := Table.live_eq_some.mp hl
      obtain ⟨hkeyed, -, -⟩ := h.tracked sid _ hx
      refine .touched session ?_ rfl
      show s.redis.strings.live s.now (.session session.sid) = some session
      rw [show session.sid = sid from hkeyed]
      exact hl

theorem summary_destroy (h : Sound o s) (sid : String) :
    Summary o s (step o s (.destroy sid)) none := by
  have hrun := o.sessions.run_destroy s.now s.redis sid
  refine summary_after (o.sessions.destroy_only sid) ?_ ?_
  · rw [hrun]
    exact h.tracked.destroyedAt sid
  · rw [hrun]
    exact .destroyedAt _ _

/-- The console ends every session the index lists: Redis as after
`terminate_subject`. -/
theorem run_terminatePerson_none (sessions : SessionStore) (now : Int) (r : Redis)
    (personUuid : String) : (Redis.run now (terminatePerson sessions personUuid none) r).2 =
      (Redis.run now (sessions.terminateSubject personUuid) r).2 := by
  simp [Redis.run, terminatePerson, SessionStore.sidsFor, setMembers]

/-- The identifiers of a subject's index that start with a handle. -/
def matching (sessions : SessionStore) (now : Int) (r : Redis) (personUuid handle : String) :
    List String :=
  ((r.members now (sessions.subjectIndex personUuid)).insertionSort (· ≤ ·)).filter
    fun sid => handle.toList.isPrefixOf sid.toList

theorem run_terminatePerson_some (sessions : SessionStore) (now : Int) (r : Redis)
    (personUuid handle : String) :
    (Redis.run now (terminatePerson sessions personUuid (some handle)) r).2 =
      sessions.destroyedAll now r (matching sessions now r personUuid handle) := by
  have hall := sessions.run_destroyAll now r (matching sessions now r personUuid handle)
  simp only [Redis.run, matching] at hall
  simp [Redis.run, terminatePerson, SessionStore.sidsFor, setMembers, hall, matching]

theorem summary_terminate (h : Sound o s) (personUuid : String) (handle : Option String) :
    Summary o s (step o s (.terminate personUuid handle)) none := by
  cases handle with
  | none =>
    refine summary_after (p := terminatePerson o.sessions personUuid none) ?_ ?_ ?_
    · exact Prog.Only.bind ⟨trivial, fun _ => trivial⟩ fun sids =>
        (o.sessions.terminateSubject_only personUuid).bind fun _ => trivial
    · rw [run_terminatePerson_none]
      exact h.tracked.terminated personUuid
    · rw [run_terminatePerson_none]
      exact .terminated _ _
  | some handle =>
    refine summary_after (p := terminatePerson o.sessions personUuid (some handle)) ?_ ?_ ?_
    · exact Prog.Only.bind ⟨trivial, fun _ => trivial⟩ fun sids =>
        (Prog.Only.forEach o.sessions.destroy_only _).bind fun _ => trivial
    · rw [run_terminatePerson_some]
      exact h.tracked.destroyedAll _
    · rw [run_terminatePerson_some]
      exact .destroyedAll _ _

theorem summary_create (h : Sound o s) {login : Login} {sid : String} (hfresh : ¬ s.Known sid) :
    Summary o s (step o s (.create login sid))
      (some ⟨sid, sid, (o.sessions.newSession login sid s.now).subjectKey⟩) := by
  have hrun := o.sessions.run_create s.now s.redis login sid
  have hredis : (step o s (.create login sid)).redis =
      o.sessions.writtenAt s.now s.redis (o.sessions.newSession login sid s.now) := by
    show (Redis.run s.now _ s.redis).2 = _
    rw [hrun]
  refine ⟨rfl, rfl, rfl, rfl, ?_, ?_, ?_, rfl, ?_, ?_, ?_⟩
  · exact SessionStore.run_sameGrants (o.sessions.create_only login sid s.now) s.now s.redis
  · rw [hredis]
    exact h.tracked.writtenAt (le_refl _)
  · rw [hredis]
    exact .added _ (o.sessions.newSession login sid s.now)
  · rintro a ⟨⟩
    exact hfresh
  · rintro a ⟨⟩ e he
    rw [hredis, SessionStore.writtenAt_strings] at he
    obtain rfl := Option.some.inj ((Table.put_self _ _ _ _).symm.trans he)
    rfl
  · rintro a ⟨⟩
    exact Or.inl rfl

theorem summary_reissued (h : Sound o s) {sid fresh : String} {f : Session → Session}
    (hfresh : ¬ s.Known fresh) (hsid : ∀ session, (f session).sid = fresh)
    (hkey : ∀ session, (f session).subjectKey = session.subjectKey)
    (hexp : ∀ session, (f session).absoluteExpiry = session.absoluteExpiry) :
    ∃ new, Summary o s (s.reissued sid fresh (o.sessions.reissue sid f s.now)) new := by
  have hsame := SessionStore.run_sameGrants (o.sessions.reissue_only sid f s.now) s.now s.redis
  have hredis : (s.reissued sid fresh (o.sessions.reissue sid f s.now)).redis =
      (Redis.run s.now (o.sessions.reissue sid f s.now) s.redis).2 := rfl
  have hissued : (s.reissued sid fresh (o.sessions.reissue sid f s.now)).issued =
      reissuedAs s.issued sid fresh
        (Redis.run s.now (o.sessions.reissue sid f s.now) s.redis).1 := rfl
  rcases o.sessions.reissue_cases s.now s.redis sid f with
    ⟨-, hrun⟩ | ⟨-, hrun⟩ | ⟨session, hl, hrun⟩
  · refine ⟨none, rfl, rfl, rfl, rfl, hsame, ?_, ?_, ?_, by simp, by simp, by simp⟩
    · rw [hredis, hrun]
      exact h.tracked
    · rw [hredis, hrun]
      exact .refl _
    · rw [hissued, hrun]
      rfl
  · refine ⟨none, rfl, rfl, rfl, rfl, hsame, ?_, ?_, ?_, by simp, by simp, by simp⟩
    · rw [hredis, hrun]
      exact h.tracked.destroyedAt sid
    · rw [hredis, hrun]
      exact .destroyedAt _ _
    · rw [hissued, hrun]
      rfl
  · obtain ⟨x, hx, -⟩ := Table.live_eq_some.mp hl
    obtain ⟨old, hold, holdsid, holdsub, hreissued⟩ := h.lineages.reissuedAs_of_stored hx
    obtain rfl := hsid { session with lastSeenAt := s.now }
    obtain ⟨htracked, hcarries, hgone, y, hthere⟩ := SessionStore.moved_summary h.tracked hl
      (hexp { session with lastSeenAt := s.now })
      (fun heq => hfresh ⟨old, hold, holdsid.trans heq⟩)
    refine ⟨some ⟨(f { session with lastSeenAt := s.now }).sid, old.origin, old.subject⟩,
      rfl, rfl, rfl, rfl, hsame, ?_, ?_, ?_, ?_, ?_, ?_⟩
    · rw [hredis, hrun]
      exact htracked
    · rw [hredis, hrun]
      exact hcarries
    · rw [hissued, hrun]
      exact hreissued _ _
    · rintro a ⟨⟩
      exact hfresh
    · rintro a ⟨⟩ e he
      rw [hredis, hrun] at he
      obtain rfl := Option.some.inj (hthere.symm.trans he)
      exact holdsub.trans (hkey { session with lastSeenAt := s.now }).symm
    · rintro a ⟨⟩
      refine Or.inr ⟨old, hold, rfl, rfl, ?_, ?_⟩
      · unfold Alive
        rw [holdsid, hl]
        simp
      · unfold Alive
        rw [hredis, hrun, holdsid, not_not]
        exact Table.live_eq_none.mpr fun e he => by rw [hgone] at he; cases he

/-! ## Primitive steps -/

/-- The calls on the session store. -/
def OnSessions : BrokerOp Doc δ → Prop
  | .create _ _ | .load _ | .rotate _ _ | .elevate _ _ _ _ | .destroy _ | .terminate _ _ => True
  | _ => False

/-- **Every call on the session store does what the summary says.** -/
theorem step_summary {op : BrokerOp Doc δ} (hop : OnSessions op) (ha : Allowed o s op)
    (h : Sound o s) : ∃ new, Summary o s (step o s op) new := by
  cases op with
  | create login sid => exact ⟨_, summary_create h ha⟩
  | load sid => exact ⟨_, summary_load h sid⟩
  | rotate sid fresh =>
    exact summary_reissued h ha (fun _ => rfl) (fun _ => rfl) (fun _ => rfl)
  | elevate sid acr amr fresh =>
    exact summary_reissued h ha (fun _ => rfl) (fun _ => rfl) (fun _ => rfl)
  | destroy sid => exact ⟨_, summary_destroy h sid⟩
  | terminate personUuid handle => exact ⟨_, summary_terminate h personUuid handle⟩
  | _ => exact hop.elim

theorem Sound.of_summary (h : Sound o s) {s' : Broker Doc δ} {new : Option SidRecord}
    (hs : Summary o s s' new) : Sound o s' := by
  refine ⟨?_, ?_, ?_, ?_⟩
  · rw [hs.now]
    exact h.expiries.congr (fun _ => hs.grants.strings _ (by simp))
      (fun _ => hs.grants.strings _ (by simp)) (fun _ => hs.grants.strings _ (by simp))
      (fun _ => hs.grants.strings _ (by simp))
  · rw [hs.now]
    exact hs.tracked
  · rw [hs.now, hs.issued]
    refine h.lineages.handOut new hs.carries hs.fresh hs.subject fun a ha => ?_
    refine (hs.origin a ha).imp_right ?_
    rintro ⟨old, hold, horigin, hsubject, halive, hdead⟩
    unfold Alive at hdead
    rw [hs.now, not_not] at hdead
    exact ⟨old, hold, horigin, hsubject, halive, hdead⟩
  · rw [hs.families, hs.named]
    exact h.named

/-- The steps that are one call on one store, or none. -/
def Primitive : BrokerOp Doc δ → Prop
  | .logout _ | .deprovision _ _ _ _ => False
  | _ => True

theorem Sound.call (h : Sound o s) {c : GrantCall} (ha : Allowed o s (.call c)) :
    Sound o (step o s (.call c)) := by
  obtain ⟨hstrings, hsets⟩ := call_sameSessions o.grants s.now s.redis c
  refine ⟨GrantStore.step_expiries ha.grants h.expiries, h.tracked.congr hstrings hsets,
    h.lineages.carry (.of_eq hstrings), ?_⟩
  cases c with
  | issueCode g code =>
    intro p hp
    rcases List.mem_cons.mp hp with rfl | hp
    · exact List.mem_cons_self
    · exact List.mem_cons_of_mem _ (h.named p hp)
  | _ => exact h.named

/-- **A primitive step keeps the invariant.** -/
theorem Sound.primitive (h : Sound o s) {op : BrokerOp Doc δ} (hprim : Primitive op)
    (ha : Allowed o s op) : Sound o (step o s op) := by
  by_cases hop : OnSessions op
  · obtain ⟨new, hs⟩ := step_summary hop ha h
    exact h.of_summary hs
  · cases op with
    | tick elapsed =>
      exact ⟨h.expiries.later (le_add_of_nonneg_right ha), h.tracked.later ha,
        h.lineages.later ha, h.named⟩
    | elsewhere world => exact ⟨h.expiries, h.tracked, h.lineages, h.named⟩
    | abandon g => exact ⟨h.expiries, h.tracked, h.lineages, h.named⟩
    | call c => exact h.call ha
    | logout sid => exact hprim.elim
    | deprovision personUuid before source on => exact hprim.elim
    | _ => exact absurd trivial hop

/-! ## The other two steps, in primitive ones -/

/-- A run of primitive steps. -/
abbrev PrimitiveRun (o : Orchestrator δ E) :
    Broker Doc δ → List (BrokerOp Doc δ) → Broker Doc δ → Prop :=
  Run (fun s op => Primitive op ∧ Allowed o s op) (step o)

theorem step_revokeSessionFamilies (s : Broker Doc δ) (sid : String) :
    step o s (.call (.revokeSessionFamilies sid)) =
      s.withRedis (Redis.run s.now (o.grants.revokeSessionFamilies sid) s.redis).2 := by
  simp [step, GrantStore.step, GrantStore.program, GrantStore.pendingAfter, GrantStore.namedAfter,
    familiesAfter, withRedis, grantState, Redis.run]

theorem step_logout (s : Broker Doc δ) (sid : String) :
    step o s (.logout sid) =
      step o (step o s (.destroy sid)) (.call (.revokeSessionFamilies sid)) := by
  rw [step_revokeSessionFamilies]
  simp [step, after, withRedis, endSession, Redis.run, now, redis]

theorem foldl_revoke (s : Broker Doc δ) (sids : List String) :
    (sids.map fun sid => BrokerOp.call (.revokeSessionFamilies sid)).foldl (step o) s =
      s.withRedis (o.revokeAll s.now sids s.redis) := by
  induction sids generalizing s with
  | nil => rfl
  | cons sid sids ih =>
    rw [List.map_cons, List.foldl_cons, ih, step_revokeSessionFamilies]
    rfl

/-- The steps of a leaver sequence that returned. -/
def leaverOps (o : Orchestrator δ E) (personUuid : String) (s : Broker Doc δ)
    (world : World Doc δ) : List (BrokerOp Doc δ) :=
  .terminate personUuid none ::
    ((o.leaverSids personUuid s.world).map fun sid => .call (.revokeSessionFamilies sid)) ++
      [.elsewhere world]

/-- A leaver sequence that returned is a termination, the revocations, and something
elsewhere. -/
theorem step_deprovision_of_ok {personUuid : String} {before : Finset String} {source : Source}
    {on : Option Int} {delta : Delta} {world : World Doc δ}
    (h : (o.deprovision personUuid before source on : Action Doc δ E _).run s.world =
      (.ok delta, world)) :
    step o s (.deprovision personUuid before source on) =
      (leaverOps o personUuid s world).foldl (step o) s := by
  have haside := o.disableAccounts_aside personUuid s.world
  rcases hrun : (o.disableAccounts personUuid : Action Doc δ E _).run s.world with
    ⟨e | disabled, m⟩
  · rw [o.deprovision_of_error hrun] at h
    cases h
  · rw [hrun] at haside
    obtain ⟨families, hdep⟩ := o.deprovision_of_ok hrun before source on
    have hsids : o.leaverSids personUuid s.world = o.leaverSids personUuid m := by
      unfold Orchestrator.leaverSids
      rw [show m.redis = _ from haside.redis, show m.now = _ from haside.now]
    have hworld : world = (Except.ok (ε := Exn E) delta, world).2 := rfl
    rw [← h, hdep] at hworld
    have hredis : world.redis = o.leaverRedis personUuid m := by rw [hworld]
    have hnow : world.now = s.now := by
      rw [hworld]
      exact haside.now
    have hfold := foldl_revoke (o := o) (step o s (.terminate personUuid none))
      (o.leaverSids personUuid s.world)
    have hend : (step o s (.terminate personUuid none)).redis =
        (Redis.run s.now (o.sessions.terminateSubject personUuid) s.redis).2 :=
      run_terminatePerson_none o.sessions s.now s.redis personUuid
    unfold leaverOps
    rw [List.cons_append, List.foldl_cons, List.foldl_append, hfold, List.foldl_cons,
      List.foldl_nil]
    have hlast : o.revokeAll s.now (o.leaverSids personUuid s.world)
        (step o s (.terminate personUuid none)).redis = world.redis := by
      rw [hredis, Orchestrator.leaverRedis, hend, hsids,
        show m.redis = _ from haside.redis, show m.now = _ from haside.now]
      rfl
    show ({ s with world := ((o.deprovision personUuid before source on).run s.world).2 } :
        Broker Doc δ) = { s with world := { world with
          redis := o.revokeAll s.now (o.leaverSids personUuid s.world)
            (step o s (.terminate personUuid none)).redis
          now := s.now } }
    rw [h, hlast, ← hnow]

theorem step_deprovision_of_error {personUuid : String} {before : Finset String}
    {source : Source} {on : Option Int} {e : Exn E} {world : World Doc δ}
    (h : (o.deprovision personUuid before source on : Action Doc δ E _).run s.world =
      (.error e, world)) :
    step o s (.deprovision personUuid before source on) = step o s (.elsewhere world) := by
  have haside := o.disableAccounts_aside personUuid s.world
  rcases hrun : (o.disableAccounts personUuid : Action Doc δ E _).run s.world with
    ⟨e' | disabled, m⟩
  · rw [hrun] at haside
    rw [o.deprovision_of_error hrun] at h
    obtain ⟨-, rfl⟩ := Prod.mk.inj h
    show ({ s with world := ((o.deprovision personUuid before source on).run s.world).2 } :
      Broker Doc δ) = { s with world := { m with redis := s.redis, now := s.now } }
    rw [o.deprovision_of_error hrun, show s.redis = m.redis from haside.redis.symm,
      show s.now = m.now from haside.now.symm]
  · obtain ⟨families, hdep⟩ := o.deprovision_of_ok hrun before source on
    rw [hdep] at h
    cases h

theorem leaverOps_run (s : Broker Doc δ) (personUuid : String) (world : World Doc δ) :
    PrimitiveRun o s (leaverOps o personUuid s world)
      ((leaverOps o personUuid s world).foldl (step o) s) := by
  have hrevoke : ∀ (sids : List String) (t : Broker Doc δ),
      ∃ u, PrimitiveRun o t
        ((sids.map fun sid => BrokerOp.call (.revokeSessionFamilies sid)) ++
          [BrokerOp.elsewhere world]) u := by
    intro sids
    induction sids with
    | nil => exact fun t => ⟨_, .cons ⟨trivial, trivial⟩ (.nil _)⟩
    | cons sid sids ih =>
      intro t
      obtain ⟨u, hu⟩ := ih (step o t (.call (.revokeSessionFamilies sid)))
      exact ⟨u, .cons ⟨trivial, trivial⟩ hu⟩
  obtain ⟨u, hu⟩ := hrevoke (o.leaverSids personUuid s.world)
    (step o s (.terminate personUuid none))
  have hall : PrimitiveRun o s (leaverOps o personUuid s world) u :=
    .cons ⟨trivial, trivial⟩ hu
  rwa [hall.eq_foldl] at hall

/-- **Every step is a run of primitive ones.** -/
theorem step_primitive {op : BrokerOp Doc δ} (ha : Allowed o s op) :
    ∃ ops, PrimitiveRun o s ops (step o s op) := by
  by_cases hprim : Primitive op
  · exact ⟨[op], .cons ⟨hprim, ha⟩ (.nil _)⟩
  cases op with
  | logout sid =>
    refine ⟨[.destroy sid, .call (.revokeSessionFamilies sid)], ?_⟩
    rw [step_logout]
    exact .cons ⟨trivial, trivial⟩ (.cons ⟨trivial, trivial⟩ (.nil _))
  | deprovision personUuid before source on =>
    rcases hrun : (o.deprovision personUuid before source on : Action Doc δ E _).run s.world with
      ⟨e | delta, world⟩
    · refine ⟨[.elsewhere world], ?_⟩
      rw [step_deprovision_of_error hrun]
      exact .cons ⟨trivial, trivial⟩ (.nil _)
    · refine ⟨leaverOps o personUuid s world, ?_⟩
      rw [step_deprovision_of_ok hrun]
      exact leaverOps_run s personUuid world
  | _ => exact absurd trivial hprim

/-- **Every step keeps the invariant.** -/
theorem Sound.step (h : Sound o s) {op : BrokerOp Doc δ} (ha : Allowed o s op) :
    Sound o (step o s op) := by
  obtain ⟨ops, hrun⟩ := step_primitive ha
  exact hrun.invariant (fun _ _ hs hop => hs.primitive hop.1 hop.2) h

end Steps

end Broker

end CampusID
