import CampusID.Mfa.Ceremony

/-!
# What stands behind an `acr` of AAL2

Sessions are made by a login and by an administrator who impersonates, and moved by rotations
and step-ups.  A step-up is two instants: a route loads the session and its factor check
accepts, and `_elevate` raises the session the route holds.  In between, that session may have
been moved or ended.

Beside Redis a `Floor` keeps what the program does not: which identifier was handed out for
whom, which factor of which person was accepted, and which accepted checks are still on their
way to `_elevate`.

The ACS stores as `acr` what the IdP asserted, and as `amr` the one method `pwd`; `primary`,
which would say AAL1 whatever the IdP asserted, is not called.  `backed_iff` is what follows:
every AAL2 in the store is backed exactly when no IdP asserts the broker's own AAL2.
-/

namespace CampusID
namespace Mfa

open Lib
open Ceremony (sampleStore sampleFacts)

/-- `IMPERSONATION_ISSUER`. -/
def impersonationIssuer : String := "urn:campusid:impersonation"

/-- What the admin route gives `create`. -/
def impersonation (subject personUuid : String) (impersonatedBy : Option String) : Login where
  idpEntityId := impersonationIssuer
  nameId := subject
  acr := some aal1
  amr := []
  personUuid := some personUuid
  impersonatedBy := impersonatedBy

/-! ## The calls -/

/-- What the routes do with sessions.  A fresh identifier is an argument; `check` is a step-up
route up to its accepted factor, and `stepUp` its `_elevate`. -/
inductive Event where
  | login (facts : Saml.AssertionFacts Int) (attributes : List (String × List String))
    (personUuid sid : String) (now : Int)
  | impersonate (subject personUuid : String) (impersonatedBy : Option String) (sid : String)
    (now : Int)
  | load (sid : String) (now : Int)
  | rotate (sid fresh : String) (now : Int)
  | check (sid : String) (kind : Kind) (now : Int)
  | stepUp (session : Session) (kind : Kind) (fresh : String) (checkedAt storedAt : Int)
  | destroy (sid : String) (now : Int)
  | terminate (subjectKey : String) (now : Int)

namespace Event

/-- The instant the store is called at. -/
def now : Event → Int
  | .login _ _ _ _ now => now
  | .impersonate _ _ _ _ now => now
  | .load _ now => now
  | .rotate _ _ now => now
  | .check _ _ now => now
  | .stepUp _ _ _ _ storedAt => storedAt
  | .destroy _ now => now
  | .terminate _ now => now

/-- The identifier a call draws. -/
def fresh : Event → Option String
  | .login _ _ _ sid _ => some sid
  | .impersonate _ _ _ sid _ => some sid
  | .rotate _ fresh _ => some fresh
  | .stepUp _ _ fresh _ _ => some fresh
  | _ => none

/-- What a call runs, and the session it hands back. -/
def program (store : SessionStore) : Event → RedisProg (Option Session)
  | .login facts attributes personUuid sid now =>
    (store.create (acsLogin facts attributes personUuid) sid now).bind fun session =>
      .pure (some session)
  | .impersonate subject personUuid impersonatedBy sid now =>
    (store.create (impersonation subject personUuid impersonatedBy) sid now).bind fun session =>
      .pure (some session)
  | .load sid now => store.load sid now
  | .rotate sid fresh now => store.rotate sid fresh now
  | .check sid _ now => store.load sid now
  | .stepUp session kind fresh checkedAt storedAt =>
    (elevate store session kind fresh checkedAt storedAt).bind fun raised =>
      .pure (raised.map Prod.snd)
  | .destroy sid _ => (store.destroy sid).bind fun _ => .pure none
  | .terminate subjectKey _ => (store.terminateSubject subjectKey).bind fun _ => .pure none

end Event

/-- The sessions, the identifiers handed out and for whom, the factors accepted and of whom,
and the accepted checks that `_elevate` has not seen. -/
structure Floor where
  redis : Redis
  issued : List (String × Option String)
  accepted : List (String × String)
  pending : List (Session × Kind)

namespace Floor

/-- Nobody is logged in. -/
def start : Floor := ⟨Store.empty, [], [], []⟩

/-- What an accepted check adds: the person of the loaded session presented the factor. -/
def acceptedBy : Event → Option Session → List (String × String)
  | .check _ kind _, some session =>
    session.personUuid.toList.map fun person => (person, kind.category)
  | _, _ => []

/-- A route without a person refuses before it checks anything. -/
def pendingAfter (pending : List (Session × Kind)) : Event → Option Session → List (Session × Kind)
  | .check _ kind _, some session =>
    if session.personUuid = none then pending else (session, kind) :: pending
  | .stepUp session kind _ _ _, _ => pending.erase (session, kind)
  | _, _ => pending

/-- One call. -/
def step (store : SessionStore) (s : Floor) (event : Event) : Floor :=
  let out := Redis.run event.now (event.program store) s.redis
  { redis := out.2
    issued := (out.1.toList.map fun session => (session.sid, session.personUuid)) ++ s.issued
    accepted := acceptedBy event out.1 ++ s.accepted
    pending := pendingAfter s.pending event out.1 }

/-- An identifier is drawn once, and `_elevate` follows an accepted check. -/
structure Allowed (s : Floor) (event : Event) : Prop where
  fresh : ∀ sid, event.fresh = some sid → ∀ person, (sid, person) ∉ s.issued
  checked : ∀ session kind fresh checkedAt storedAt,
    event = .stepUp session kind fresh checkedAt storedAt → (session, kind) ∈ s.pending

/-- No login asserts the broker's own AAL2. -/
def Plain : Event → Prop
  | .login facts _ _ _ _ => facts.authnContext ≠ some aal2
  | _ => True

/-- The session's methods were presented, and support its level. -/
structure Backed (accepted : List (String × String)) (session : Session) : Prop where
  level : session.acr = some aal2 → satisfiesAal2 session.amr = true
  methods : ∀ m ∈ session.amr, m ∈ factorCategories → m ≠ pwd →
    ∃ person, session.personUuid = some person ∧ (person, m) ∈ accepted

/-- Every session in the store whose `acr` is AAL2 has two categories of factors, and each of
them but the login's was accepted from its person. -/
def Honest (s : Floor) : Prop :=
  ∀ sid (e : Entry Int Session), s.redis.strings (.session sid) = some e →
    e.value.acr = some aal2 → satisfiesAal2 e.value.amr = true ∧
      ∀ m ∈ e.value.amr, m ∈ factorCategories → m ≠ pwd →
        ∃ person, e.value.personUuid = some person ∧ (person, m) ∈ s.accepted

/-! ## What one call leaves -/

/-- Redis holds sessions under their own identifiers. -/
def Keyed (r : Redis) : Prop :=
  ∀ sid (e : Entry Int Session), r.strings (.session sid) = some e → e.value.sid = sid

/-- Whatever is there afterwards was there before, or is the session handed back. -/
def Leaves (r : Redis) (out : Option Session × Redis) : Prop :=
  ∀ sid (e : Entry Int Session), out.2.strings (.session sid) = some e →
    r.strings (.session sid) = some e ∨ ∃ session, out.1 = some session ∧ session.sid = sid ∧
      e.value = session

section Leaves

variable (store : SessionStore) {r : Redis} {sid : String} {session : Session}

theorem leaves_writtenAt (now : Int) (r : Redis) (session : Session) :
    Leaves r (some session, store.writtenAt now r session) := by
  intro sid e he
  by_cases hsid : sid = session.sid
  · subst hsid
    simp only [SessionStore.writtenAt_strings, Table.put_self] at he
    exact .inr ⟨session, rfl, rfl, by rw [← Option.some.inj he]⟩
  · simp only [SessionStore.writtenAt_strings] at he
    rw [Table.put_of_ne _ (by simpa using hsid)] at he
    exact .inl he

theorem leaves_destroyedAt (now : Int) (r : Redis) (sid : String) (out : Option Session) :
    Leaves r (out, store.destroyedAt now r sid) := by
  intro sid' e he
  simp only [SessionStore.destroyedAt_strings] at he
  by_cases hsid : sid' = sid
  · subst hsid
    rw [Table.erase_self] at he
    cases he
  · rw [Table.erase_of_ne _ (by simpa using hsid)] at he
    exact .inl he

theorem leaves_load (now : Int) (r : Redis) (sid : String) :
    Leaves r (Redis.run now (store.load sid now) r) := by
  rcases store.load_cases now r sid with ⟨-, hrun⟩ | ⟨session, -, ⟨-, hrun⟩ | ⟨-, hrun⟩⟩
  · rw [hrun]
    exact fun _ _ he => .inl he
  · rw [hrun]
    exact leaves_destroyedAt store now r sid none
  · rw [hrun]
    exact leaves_writtenAt store now r _

theorem leaves_reissue (now : Int) (hkeyed : Keyed r) (sid : String) (f : Session → Session) :
    Leaves r (Redis.run now (store.reissue sid f now) r) := by
  rcases store.reissue_cases now r sid f with ⟨-, hrun⟩ | ⟨-, hrun⟩ | ⟨session, hlive, hrun⟩
  · rw [hrun]
    exact fun _ _ he => .inl he
  · rw [hrun]
    exact leaves_destroyedAt store now r sid none
  · rw [hrun]
    obtain ⟨x, hx, -⟩ := Table.live_eq_some.mp hlive
    have hsid : session.sid = sid := hkeyed sid _ hx
    intro sid' e he
    by_cases hne : sid' = sid
    · subst hne
      simp at he
    · rcases leaves_destroyedAt store now _ sid (some _) sid' e he with he | hback
      · rcases leaves_writtenAt store now _ _ sid' e he with he | hback
        · rcases leaves_writtenAt store now r _ sid' e he with he | ⟨_, hback, hold, -⟩
          · exact .inl he
          · rw [← Option.some.inj hback] at hold
            exact absurd (hold.symm.trans hsid) hne
        · exact .inr hback
      · exact .inr hback

theorem leaves_terminate (now : Int) (r : Redis) (subjectKey : String) :
    Leaves r (none, (Redis.run now (store.terminateSubject subjectKey) r).2) := by
  intro sid e he
  rw [SessionStore.run_terminateSubject] at he
  by_cases hmem : sid ∈ (r.members now (store.subjectIndex subjectKey)).insertionSort (· ≤ ·)
  · replace he : (store.destroyedAll now r _).strings (.session sid) = some e := he
    rw [store.destroyedAll_strings_of_mem now r hmem] at he
    cases he
  · replace he : (store.destroyedAll now r _).strings (.session sid) = some e := he
    rw [store.destroyedAll_strings_of_notMem now r hmem] at he
    exact .inl he

theorem stored_of_load {now : Int}
    (h : (Redis.run now (store.load sid now) r).1 = some session) :
    ∃ e : Entry Int Session, r.strings (.session sid) = some e ∧
      session = { e.value with lastSeenAt := now } := by
  obtain ⟨found, hlive, -, rfl⟩ := store.load_eq_some h
  obtain ⟨x, hx, -⟩ := Table.live_eq_some.mp hlive
  exact ⟨_, hx, rfl⟩

theorem stored_of_reissue {now : Int} {f : Session → Session}
    (h : (Redis.run now (store.reissue sid f now) r).1 = some session) :
    ∃ e : Entry Int Session, r.strings (.session sid) = some e ∧
      session = f { e.value with lastSeenAt := now } := by
  rcases store.reissue_cases now r sid f with ⟨-, hrun⟩ | ⟨-, hrun⟩ | ⟨found, hlive, hrun⟩
  · rw [hrun] at h
    cases h
  · rw [hrun] at h
    cases h
  · rw [hrun] at h
    obtain ⟨x, hx, -⟩ := Table.live_eq_some.mp hlive
    exact ⟨_, hx, (Option.some.inj h).symm⟩

end Leaves

theorem run_stepUp (store : SessionStore) (r : Redis) (session : Session) (kind : Kind)
    (fresh : String) (checkedAt storedAt : Int) :
    let raised := elevated session.amr kind.category session.authTime checkedAt
    Redis.run storedAt ((Event.stepUp session kind fresh checkedAt storedAt).program store) r =
      Redis.run storedAt (store.reissue session.sid (fun stored => { stored with
        sid := fresh, acr := some raised.acr, amr := raised.amr, authTime := storedAt,
        lastSeenAt := storedAt }) storedAt) r := by
  intro raised
  rw [← SessionStore.elevate_eq_reissue]
  simp only [Redis.run, Event.program, elevate, Prog.bind_def, Prog.run_bind]
  exact Prod.ext (by simp [raised]) (by simp [raised])

/-- **Whatever is there after a call** was there before, or was handed back. -/
theorem leaves_program (store : SessionStore) {r : Redis} (hkeyed : Keyed r) (event : Event) :
    Leaves r (Redis.run event.now (event.program store) r) := by
  cases event with
  | login facts attributes personUuid sid now =>
    have hrun := store.run_create now r (acsLogin facts attributes personUuid) sid
    simp only [Redis.run] at hrun
    simp only [Redis.run, Event.program, Event.now, Prog.run_bind, hrun]
    exact leaves_writtenAt store now r _
  | impersonate subject personUuid impersonatedBy sid now =>
    have hrun := store.run_create now r (impersonation subject personUuid impersonatedBy) sid
    simp only [Redis.run] at hrun
    simp only [Redis.run, Event.program, Event.now, Prog.run_bind, hrun]
    exact leaves_writtenAt store now r _
  | load sid now => exact leaves_load store now r sid
  | check sid kind now => exact leaves_load store now r sid
  | rotate sid fresh now =>
    change Leaves r (Redis.run now (store.rotate sid fresh now) r)
    rw [SessionStore.rotate_eq_reissue]
    exact leaves_reissue store now hkeyed sid _
  | stepUp session kind fresh checkedAt storedAt =>
    change Leaves r (Redis.run storedAt _ r)
    rw [run_stepUp]
    exact leaves_reissue store storedAt hkeyed session.sid _
  | destroy sid now =>
    have hrun := store.run_destroy now r sid
    simp only [Redis.run] at hrun
    simp only [Redis.run, Event.program, Event.now, Prog.run_bind, hrun]
    exact leaves_destroyedAt store now r sid none
  | terminate subjectKey now =>
    have hleaves := leaves_terminate store now r subjectKey
    simp only [Redis.run] at hleaves
    simp only [Redis.run, Event.program, Event.now, Prog.run_bind]
    exact hleaves

/-! ## What every call keeps -/

/-- An identifier was handed out for one person, or for none. -/
def OneOwner (issued : List (String × Option String)) : Prop :=
  ∀ a ∈ issued, ∀ b ∈ issued, a.1 = b.1 → a.2 = b.2

/-- Every session in the store is under the identifier it was handed out with, and backed; so
is every one on its way to `_elevate`, whose factor was accepted from its person. -/
structure Sound (s : Floor) : Prop where
  keyed : Keyed s.redis
  stored : ∀ sid (e : Entry Int Session), s.redis.strings (.session sid) = some e →
    (sid, e.value.personUuid) ∈ s.issued ∧ Backed s.accepted e.value
  pending : ∀ a ∈ s.pending, (a.1.sid, a.1.personUuid) ∈ s.issued ∧ Backed s.accepted a.1 ∧
    ∃ person, a.1.personUuid = some person ∧ (person, a.2.category) ∈ s.accepted
  owner : OneOwner s.issued

theorem sound_start : Sound start := by
  refine ⟨?_, ?_, ?_, ?_⟩
  · rintro _ _ ⟨⟩
  · rintro _ _ ⟨⟩
  · simp [start]
  · simp [start, OneOwner]

theorem Backed.mono {accepted accepted' : List (String × String)} {session : Session}
    (h : Backed accepted session) (hmore : ∀ a ∈ accepted, a ∈ accepted') :
    Backed accepted' session := by
  refine ⟨h.level, fun m hm hcategory hne => ?_⟩
  obtain ⟨person, hperson, hin⟩ := h.methods m hm hcategory hne
  exact ⟨person, hperson, hmore _ hin⟩

theorem Backed.congr {accepted : List (String × String)} {session session' : Session}
    (h : Backed accepted session) (hacr : session'.acr = session.acr)
    (hamr : session'.amr = session.amr) (hperson : session'.personUuid = session.personUuid) :
    Backed accepted session' := by
  refine ⟨?_, ?_⟩
  · rw [hacr, hamr]
    exact h.level
  · rw [hamr, hperson]
    exact h.methods

/-- **A login is backed unless it asserts AAL2**, which one password never supports. -/
theorem backed_login_iff {store : SessionStore} {facts : Saml.AssertionFacts Int}
    {attributes : List (String × List String)} {personUuid sid : String} {now : Int}
    {accepted : List (String × String)} :
    Backed accepted (store.newSession (acsLogin facts attributes personUuid) sid now) ↔
      facts.authnContext ≠ some aal2 := by
  constructor
  · intro h hacr
    have hone : satisfiesAal2 [pwd] = true := h.level hacr
    exact absurd hone (by decide)
  · intro hplain
    refine ⟨fun hacr => absurd hacr hplain, fun m hm _ hne => ?_⟩
    exact absurd (List.mem_singleton.mp hm) hne

/-- **An elevation is backed** if what it raises is, and the factor was accepted. -/
theorem backed_elevated {accepted : List (String × String)} {session moved : Session} {kind : Kind}
    {now : Int} {person : String} (h : Backed accepted session)
    (hperson : session.personUuid = some person) (haccepted : (person, kind.category) ∈ accepted)
    (hacr : moved.acr = some (elevated session.amr kind.category session.authTime now).acr)
    (hamr : moved.amr = (elevated session.amr kind.category session.authTime now).amr)
    (howner : moved.personUuid = session.personUuid) : Backed accepted moved := by
  refine ⟨fun hlevel => ?_, fun m hm hcategory hne => ?_⟩
  · rw [hamr]
    exact satisfiesAal2_elevated kind.category_mem (Option.some.inj (hacr ▸ hlevel))
  · rw [hamr, mem_elevated hcategory] at hm
    rcases hm with hm | rfl
    · rw [howner]
      exact h.methods m hm hcategory hne
    · exact ⟨person, howner.trans hperson, haccepted⟩

/-- **What a call hands back** is backed, and goes to whom its identifier was handed out for. -/
theorem Sound.handed {s : Floor} (h : s.Sound) {store : SessionStore} {event : Event}
    (hallowed : s.Allowed event) (hplain : Plain event) {session : Session}
    (hback : (Redis.run event.now (event.program store) s.redis).1 = some session) :
    Backed s.accepted session ∧
      ∀ person, (session.sid, person) ∈ s.issued → person = session.personUuid := by
  have hloaded : ∀ {sid now}, (Redis.run now (store.load sid now) s.redis).1 = some session →
      Backed s.accepted session ∧
        ∀ person, (session.sid, person) ∈ s.issued → person = session.personUuid := by
    intro sid now hback
    obtain ⟨e, he, rfl⟩ := stored_of_load store hback
    obtain ⟨hissued, hbacked⟩ := h.stored sid e he
    have hsid : e.value.sid = sid := h.keyed sid e he
    exact ⟨hbacked.congr rfl rfl rfl, fun person hperson =>
      h.owner _ hperson _ hissued hsid⟩
  cases event with
  | login facts attributes personUuid sid now =>
    have hrun := store.run_create now s.redis (acsLogin facts attributes personUuid) sid
    simp only [Redis.run] at hrun
    simp only [Redis.run, Event.program, Event.now, Prog.run_bind, hrun] at hback
    obtain rfl : store.newSession (acsLogin facts attributes personUuid) sid now = session :=
      Option.some.inj hback
    exact ⟨backed_login_iff.mpr hplain, fun person hperson =>
      absurd hperson (hallowed.fresh sid rfl person)⟩
  | impersonate subject personUuid impersonatedBy sid now =>
    have hrun := store.run_create now s.redis (impersonation subject personUuid impersonatedBy) sid
    simp only [Redis.run] at hrun
    simp only [Redis.run, Event.program, Event.now, Prog.run_bind, hrun] at hback
    obtain rfl : store.newSession (impersonation subject personUuid impersonatedBy) sid now =
      session := Option.some.inj hback
    refine ⟨⟨fun hacr => absurd (Option.some.inj hacr) (by decide), ?_⟩, fun person hperson =>
      absurd hperson (hallowed.fresh sid rfl person)⟩
    rintro m ⟨⟩
  | load sid now => exact hloaded hback
  | check sid kind now => exact hloaded hback
  | rotate sid fresh now =>
    obtain ⟨e, he, rfl⟩ := stored_of_reissue store hback
    exact ⟨(h.stored sid e he).2.congr rfl rfl rfl, fun person hperson =>
      absurd hperson (hallowed.fresh fresh rfl person)⟩
  | stepUp captured kind fresh checkedAt storedAt =>
    change (Redis.run storedAt _ s.redis).1 = some session at hback
    rw [run_stepUp] at hback
    obtain ⟨e, he, rfl⟩ := stored_of_reissue store hback
    obtain ⟨hissued, hbacked, person, hperson, haccepted⟩ :=
      h.pending _ (hallowed.checked captured kind fresh checkedAt storedAt rfl)
    have howner : e.value.personUuid = captured.personUuid :=
      h.owner _ (h.stored _ e he).1 _ hissued rfl
    exact ⟨backed_elevated hbacked hperson haccepted rfl rfl howner, fun person hperson =>
      absurd hperson (hallowed.fresh fresh rfl person)⟩
  | destroy sid now =>
    simp only [Redis.run, Event.program, Prog.run_bind] at hback
    cases hback
  | terminate subjectKey now =>
    simp only [Redis.run, Event.program, Prog.run_bind] at hback
    cases hback

/-- A check on its way to `_elevate` was there before, or was accepted just now. -/
theorem mem_pendingAfter {pending : List (Session × Kind)} {event : Event} {out : Option Session}
    {a : Session × Kind} (h : a ∈ pendingAfter pending event out) :
    a ∈ pending ∨ out = some a.1 ∧ ∃ person, a.1.personUuid = some person ∧
      (person, a.2.category) ∈ acceptedBy event out := by
  cases event with
  | check sid kind now =>
    cases out with
    | none => exact .inl h
    | some session =>
      simp only [pendingAfter] at h
      split_ifs at h with hnobody
      · exact .inl h
      · rcases List.mem_cons.mp h with rfl | h
        · obtain ⟨person, hperson⟩ := Option.ne_none_iff_exists'.mp hnobody
          exact .inr ⟨rfl, person, hperson, by simp [acceptedBy, hperson]⟩
        · exact .inl h
  | stepUp session kind fresh checkedAt storedAt => exact .inl (List.mem_of_mem_erase h)
  | _ => exact .inl h

/-- **Every call keeps it.** -/
theorem Sound.step {s : Floor} (h : s.Sound) {store : SessionStore} {event : Event}
    (hallowed : s.Allowed event) (hplain : Plain event) : (s.step store event).Sound := by
  obtain ⟨out, hout⟩ : ∃ out, Redis.run event.now (event.program store) s.redis = out := ⟨_, rfl⟩
  have hleaves := leaves_program store h.keyed event
  have hhanded : ∀ session, out.1 = some session → Backed s.accepted session ∧
      ∀ person, (session.sid, person) ∈ s.issued → person = session.personUuid := by
    intro session hback
    rw [← hout] at hback
    exact h.handed hallowed hplain hback
  have hmore : ∀ a ∈ s.accepted, a ∈ acceptedBy event out.1 ++ s.accepted :=
    fun a ha => List.mem_append_right _ ha
  have hissued : ∀ a, a ∈ (out.1.toList.map fun session => (session.sid, session.personUuid)) ++
      s.issued ↔ (∃ session, out.1 = some session ∧ a = (session.sid, session.personUuid)) ∨
        a ∈ s.issued := by
    intro a
    simp [eq_comm]
  rw [hout] at hleaves
  simp only [Floor.step, hout]
  refine ⟨fun sid e he => ?_, fun sid e he => ?_, fun a ha => ?_, fun a ha b hb hab => ?_⟩
  · rcases hleaves sid e he with he | ⟨session, -, hsid, hvalue⟩
    · exact h.keyed sid e he
    · rw [hvalue, hsid]
  · rcases hleaves sid e he with he | ⟨session, hback, rfl, hvalue⟩
    · obtain ⟨hin, hbacked⟩ := h.stored sid e he
      exact ⟨(hissued _).mpr (.inr hin), hbacked.mono hmore⟩
    · rw [hvalue]
      exact ⟨(hissued _).mpr (.inl ⟨session, hback, rfl⟩), (hhanded session hback).1.mono hmore⟩
  · rcases mem_pendingAfter ha with ha | ⟨hback, person, hperson, haccepted⟩
    · obtain ⟨hin, hbacked, person, hperson, haccepted⟩ := h.pending a ha
      exact ⟨(hissued _).mpr (.inr hin), hbacked.mono hmore, person, hperson, hmore _ haccepted⟩
    · exact ⟨(hissued _).mpr (.inl ⟨a.1, hback, rfl⟩), (hhanded a.1 hback).1.mono hmore, person,
        hperson, List.mem_append_left _ haccepted⟩
  · -- what is handed back goes to its owner, whether its identifier is fresh or not
    rcases (hissued a).mp ha with ⟨session, hback, rfl⟩ | ha <;>
      rcases (hissued b).mp hb with ⟨session', hback', rfl⟩ | hb
    · rw [hback] at hback'
      rw [Option.some.inj hback']
    · obtain ⟨sid, person⟩ := b
      obtain rfl : session.sid = sid := hab
      exact ((hhanded session hback).2 person hb).symm
    · obtain ⟨sid, person⟩ := a
      obtain rfl : sid = session'.sid := hab
      exact (hhanded session' hback').2 person ha
    · exact h.owner a ha b hb hab

theorem Sound.honest {s : Floor} (h : s.Sound) : s.Honest := by
  intro sid e he hacr
  obtain ⟨-, hlevel, hmethods⟩ := h.stored sid e he
  exact ⟨hlevel hacr, hmethods⟩

theorem plain_of_honest {store : SessionStore} {s : Floor} {event : Event}
    (h : (s.step store event).Honest) : Plain event := by
  cases event with
  | login facts attributes personUuid sid now =>
    intro hacr
    have hrun := store.run_create now s.redis (acsLogin facts attributes personUuid) sid
    simp only [Redis.run] at hrun
    have hstored := store.live_writtenAt now s.redis
      (store.newSession (acsLogin facts attributes personUuid) sid now)
    obtain ⟨x, hx, -⟩ := Table.live_eq_some.mp hstored
    have hone := h sid ⟨_, x⟩ (by
      simp only [Floor.step, Redis.run, Event.program, Event.now, Prog.run_bind, hrun]
      exact hx) hacr
    have hpwd : satisfiesAal2 [pwd] = true := hone.1
    exact absurd hpwd (by decide)
  | _ => trivial

/-- **When an AAL2 claim is always backed.**  In every run, no login asserts the broker's own
AAL2 exactly when every AAL2 in the store is two categories of factors, each of them but the
login's accepted from its person. -/
theorem backed_iff (store : SessionStore) {events : List Event} {s : Floor}
    (h : Run Allowed (step store) start events s) :
    Run (fun s event => s.Allowed event ∧ Plain event) (step store) start events s ↔
      ∀ pre post, events = pre ++ post → (pre.foldl (step store) start).Honest :=
  Run.and_iff_forall_reached (fun _ _ hsound ha hplain => hsound.step ha hplain)
    (fun _ hsound => hsound.honest) (fun _ _ _ _ honest => plain_of_honest honest) h sound_start

/-- The session of the sample login, as a route loads it a second later. -/
def sampleSession : Session :=
  { sampleStore.newSession (acsLogin sampleFacts [] "p1") "s1" 0 with lastSeenAt := second }

/-- A login that asserts nothing, an accepted one-time code, and its step-up. -/
def codeEvents : List Event :=
  [.login sampleFacts [] "p1" "s1" 0, .check "s1" .totp second,
    .stepUp sampleSession .totp "s2" second second]

theorem run_codeEvents : Run (fun s event => s.Allowed event ∧ Plain event) (step sampleStore)
    start codeEvents (codeEvents.foldl (step sampleStore) start) := by
  have hissued : ((start.step sampleStore (.login sampleFacts [] "p1" "s1" 0)).step sampleStore
      (.check "s1" .totp second)).issued = [("s1", some "p1"), ("s1", some "p1")] := by
    decide +kernel
  have hpending : ((start.step sampleStore (.login sampleFacts [] "p1" "s1" 0)).step sampleStore
      (.check "s1" .totp second)).pending = [(sampleSession, .totp)] := by
    decide +kernel
  refine .cons ⟨⟨?_, ?_⟩, by rintro ⟨⟩⟩ (.cons ⟨⟨?_, ?_⟩, trivial⟩
    (.cons ⟨⟨?_, ?_⟩, trivial⟩ (.nil _)))
  · exact fun _ _ _ => List.not_mem_nil
  · rintro _ _ _ _ _ ⟨⟩
  · rintro _ ⟨⟩
  · rintro _ _ _ _ _ ⟨⟩
  · rintro _ ⟨⟩ person
    rw [hissued]
    simp
  · rintro _ _ _ _ _ ⟨⟩
    rw [hpending]
    exact List.mem_cons_self

theorem backed_iff_codeEvents : (codeEvents.foldl (step sampleStore) start).Honest :=
  (backed_iff sampleStore (run_codeEvents.mono fun _ _ h => h.1)).mp run_codeEvents codeEvents []
    (List.append_nil _).symm

/-- The step-up of that run is called AAL2. -/
example : ((codeEvents.foldl (step sampleStore) start).redis.strings.live second
    (.session "s2")).bind Session.acr = some aal2 := by
  decide +kernel

/-- **An IdP that asserts the broker's own AAL2** is believed. -/
theorem not_backed : ¬ ∀ (store : SessionStore) (events : List Event) (s : Floor),
    Run Allowed (step store) start events s → s.Honest := by
  intro h
  have hrun : Run Allowed (step sampleStore) start
      [.login { sampleFacts with authnContext := some aal2 } [] "p1" "s1" 0] _ :=
    .cons ⟨fun _ _ _ => List.not_mem_nil, by rintro _ _ _ _ _ ⟨⟩⟩ (.nil _)
  exact plain_of_honest (h _ _ _ hrun) rfl

end Floor

end Mfa
end CampusID
