import CampusID.Lib.Runs
import CampusID.Session.Lineages

/-!
# The session store over whole runs

A run is any sequence of calls on the session store, one after another, at instants that do
not decrease.  Two clocks are at work: the expiries Redis keeps, in whole seconds, and the
timestamps in the records.  Two structures are: the record of a session, and the index of
its subject, each with an expiry of its own.

Besides Redis a state holds what a statement about runs needs and the program does not
keep: the identifiers handed out with their lineages, the instant each lineage was created,
and the instant each identifier was last loaded or written.

`SessionStore.Kept` is what holds after every call.
-/

namespace CampusID

open Lib
open SessionStore (Carries Tracked)

/-- A call on the session store.  A fresh identifier is an argument. -/
inductive SessionCall where
  | create (login : Login) (sid : String)
  | load (sid : String)
  | rotate (sid fresh : String)
  | elevate (sid acr : String) (amr : List String) (fresh : String)
  | destroy (sid : String)
  | terminateSubject (subjectKey : String)

/-- A call, and when it is made. -/
structure DatedCall where
  now : Int
  call : SessionCall

/-- The store in use. -/
structure SessionState where
  redis : Redis
  now : Int
  issued : List SidRecord
  born : String → Int
  seen : String → Int

namespace SessionStore

variable (store : SessionStore)

/-- What a call runs, and the session it returns if it returns one. -/
def program (now : Int) : SessionCall → RedisProg (Option Session)
  | .create login sid => do
    let session ← store.create login sid now
    return some session
  | .load sid => store.load sid now
  | .rotate sid fresh => store.rotate sid fresh now
  | .elevate sid acr amr fresh => store.elevate sid acr amr fresh now
  | .destroy sid => do
    store.destroy sid
    return none
  | .terminateSubject subjectKey => do
    let _ ← store.terminateSubject subjectKey
    return none

/-- The identifiers handed out after a call that returned this. -/
def issuedAfter (issued : List SidRecord) : SessionCall → Option Session → List SidRecord
  | .create _ sid, some session => ⟨sid, sid, session.subjectKey⟩ :: issued
  | .rotate sid fresh, session => reissuedAs issued sid fresh session
  | .elevate sid _ _ fresh, session => reissuedAs issued sid fresh session
  | _, _ => issued

/-- The instants lineages were created at, after a call. -/
def bornAfter (born : String → Int) (now : Int) : SessionCall → String → Int
  | .create _ sid => Function.update born sid now
  | _ => born

/-- The instants of the last load or write, after a call that returned this. -/
def seenAfter (seen : String → Int) (now : Int) : Option Session → String → Int
  | some session => Function.update seen session.sid now
  | none => seen

/-- One call. -/
def step (s : SessionState) (op : DatedCall) : SessionState :=
  let out := Redis.run op.now (store.program op.now op.call) s.redis
  { redis := out.2
    now := op.now
    issued := issuedAfter s.issued op.call out.1
    born := bornAfter s.born op.now op.call
    seen := seenAfter s.seen op.now out.1 }

/-- The store before the first call. -/
def fresh (now : Int) : SessionState where
  redis := Store.empty
  now := now
  issued := []
  born := fun _ => now
  seen := fun _ => now

/-- The identifier a call draws. -/
def drawn : SessionCall → Option String
  | .create _ sid => some sid
  | .rotate _ fresh => some fresh
  | .elevate _ _ _ fresh => some fresh
  | _ => none

/-- The calls that can be made: the clock does not run backwards, and what is drawn is
fresh. -/
def Allowed (s : SessionState) (op : DatedCall) : Prop :=
  s.now ≤ op.now ∧ ∀ sid, drawn op.call = some sid → ∀ a ∈ s.issued, a.sid ≠ sid

/-! ## What a call does -/

/-- **What a call does**, by how it ends. -/
inductive Effect (now : Int) (r : Redis) : SessionCall → Option Session → Redis → Prop
  | created (login : Login) (sid : String) :
      Effect now r (.create login sid) (some (store.newSession login sid now))
        (store.writtenAt now r (store.newSession login sid now))
  | touched {sid : String} {session : Session}
      (hlive : r.strings.live now (.session sid) = some session) :
      Effect now r (.load sid) (some { session with lastSeenAt := now })
        (store.writtenAt now r { session with lastSeenAt := now })
  | moved {call : SessionCall} {sid : String} {session moved : Session}
      (hissued : ∀ issued, issuedAfter issued call (some moved) =
        reissuedAs issued sid moved.sid (some moved))
      (hborn : ∀ born, bornAfter born now call = born)
      (hdrawn : drawn call = some moved.sid)
      (hlive : r.strings.live now (.session sid) = some session)
      (hseen : moved.lastSeenAt = now) (hkey : moved.subjectKey = session.subjectKey)
      (hexpiry : moved.absoluteExpiry = session.absoluteExpiry) :
      Effect now r call (some moved) (store.destroyedAt now (store.writtenAt now
        (store.writtenAt now r { session with lastSeenAt := now }) moved) sid)
  | dropped {call : SessionCall} {r' : Redis}
      (hissued : ∀ issued, issuedAfter issued call none = issued)
      (hborn : ∀ born, bornAfter born now call = born)
      (htracked : store.Tracked r now → store.Tracked r' now)
      (hstrings : ∀ sid e, r'.strings (.session sid) = some e → r.strings (.session sid) = some e) :
      Effect now r call none r'

theorem strings_of_destroyedAt {now : Int} {r : Redis} {sid : String} (sid' : String)
    (e : Entry Int Session)
    (h : (store.destroyedAt now r sid).strings (.session sid') = some e) :
    r.strings (.session sid') = some e := by
  rw [destroyedAt_strings] at h
  by_cases hsid : sid' = sid
  · subst hsid
    rw [Table.erase_self] at h
    cases h
  · rwa [Table.erase_of_ne _ (by simpa using hsid)] at h

theorem strings_of_destroyedAll {now : Int} {r : Redis} {sids : List String} (sid : String)
    (e : Entry Int Session)
    (h : (store.destroyedAll now r sids).strings (.session sid) = some e) :
    r.strings (.session sid) = some e := by
  by_cases hmem : sid ∈ sids
  · rw [store.destroyedAll_strings_of_mem now r hmem] at h
    cases h
  · rwa [store.destroyedAll_strings_of_notMem now r hmem] at h

theorem reissue_effect (now : Int) (r : Redis) {call : SessionCall} {sid fresh : String}
    {f : Session → Session} (hissued : ∀ issued out, issuedAfter issued call out =
      reissuedAs issued sid fresh out) (hborn : ∀ born, bornAfter born now call = born)
    (hdrawn : drawn call = some fresh) (hsid : ∀ session, (f session).sid = fresh)
    (hseen : ∀ session, (f session).lastSeenAt = now)
    (hkey : ∀ session, (f session).subjectKey = session.subjectKey)
    (hexpiry : ∀ session, (f session).absoluteExpiry = session.absoluteExpiry) :
    store.Effect now r call (Redis.run now (store.reissue sid f now) r).1
      (Redis.run now (store.reissue sid f now) r).2 := by
  rcases store.reissue_cases now r sid f with ⟨-, hrun⟩ | ⟨-, hrun⟩ | ⟨session, hlive, hrun⟩
  · rw [hrun]
    exact .dropped (fun issued => hissued issued none) hborn id (fun _ _ => id)
  · rw [hrun]
    exact .dropped (fun issued => hissued issued none) hborn (fun h => h.destroyedAt sid)
      store.strings_of_destroyedAt
  · rw [hrun]
    refine .moved (fun issued => ?_) hborn ?_ hlive (hseen _) (hkey _) (hexpiry _)
    · rw [hissued, hsid]
    · rw [hdrawn, hsid]

/-- **Every call does one of these.** -/
theorem program_effect (now : Int) (r : Redis) (call : SessionCall) :
    store.Effect now r call (Redis.run now (store.program now call) r).1
      (Redis.run now (store.program now call) r).2 := by
  cases call with
  | create login sid =>
    have hrun := store.run_create now r login sid
    simp only [Redis.run] at hrun
    simp only [program, Redis.run, Prog.bind_def, Prog.run_bind, hrun]
    exact .created login sid
  | load sid =>
    rcases store.load_cases now r sid with ⟨-, hrun⟩ | ⟨session, hlive, ⟨-, hrun⟩ | ⟨-, hrun⟩⟩
    · rw [program, hrun]
      exact .dropped (fun _ => rfl) (fun _ => rfl) id (fun _ _ => id)
    · rw [program, hrun]
      exact .dropped (fun _ => rfl) (fun _ => rfl) (fun h => h.destroyedAt sid)
        store.strings_of_destroyedAt
    · rw [program, hrun]
      exact .touched hlive
  | rotate sid fresh =>
    exact store.reissue_effect now r (fun _ _ => rfl) (fun _ => rfl) rfl (fun _ => rfl)
      (fun _ => rfl) (fun _ => rfl) (fun _ => rfl)
  | elevate sid acr amr fresh =>
    exact store.reissue_effect now r (fun _ _ => rfl) (fun _ => rfl) rfl (fun _ => rfl)
      (fun _ => rfl) (fun _ => rfl) (fun _ => rfl)
  | destroy sid =>
    have hrun := store.run_destroy now r sid
    simp only [Redis.run] at hrun
    simp only [program, Redis.run, Prog.bind_def, Prog.run_bind, hrun]
    exact .dropped (fun _ => rfl) (fun _ => rfl) (fun h => h.destroyedAt sid)
      store.strings_of_destroyedAt
  | terminateSubject subjectKey =>
    have hrest : Redis.run now (store.program now (.terminateSubject subjectKey)) r =
        (none, (Redis.run now (store.terminateSubject subjectKey) r).2) := by
      simp only [program, Redis.run, Prog.bind_def, Prog.run_bind]
      rfl
    rw [hrest]
    refine .dropped (fun _ => rfl) (fun _ => rfl) (fun h => h.terminated subjectKey) ?_
    intro sid e he
    rw [run_terminateSubject] at he
    exact store.strings_of_destroyedAll sid e he

/-! ## What is kept -/

/-- **The invariant of runs.** -/
structure Invariant (s : SessionState) : Prop where
  tracked : store.Tracked s.redis s.now
  lineages : Lineages s.redis s.now s.issued
  seen : ∀ sid (e : Entry Int Session), s.redis.strings (.session sid) = some e →
    e.value.lastSeenAt = s.seen sid
  born : ∀ sid (e : Entry Int Session), s.redis.strings (.session sid) = some e →
    ∀ a ∈ s.issued, a.sid = sid → e.value.absoluteExpiry = s.born a.origin + store.absolute

namespace Invariant

variable {store} {s : SessionState}

theorem fresh (now : Int) : store.Invariant (SessionStore.fresh now) where
  tracked := .empty now
  lineages := ⟨fun _ _ h => (by cases h), by simp [SessionStore.fresh],
    by simp [SessionStore.fresh], by simp [SessionStore.fresh], by simp [SessionStore.fresh]⟩
  seen := fun _ _ h => by cases h
  born := fun _ _ h => by cases h

theorem later (h : store.Invariant s) {now : Int} (hnow : s.now ≤ now) :
    store.Invariant { s with now := now } := by
  have heq : s.now + (now - s.now) = now := by omega
  refine ⟨?_, ?_, h.seen, h.born⟩
  · have htracked := h.tracked.later (d := now - s.now) (by omega)
    rwa [heq] at htracked
  · have hlineages := h.lineages.later (d := now - s.now) (by omega)
    rwa [heq] at hlineages

theorem created (h : store.Invariant s) {login : Login} {sid : String}
    (hfresh : ∀ a ∈ s.issued, a.sid ≠ sid) :
    store.Invariant
      { s with
        redis := store.writtenAt s.now s.redis (store.newSession login sid s.now)
        issued := ⟨sid, sid, (store.newSession login sid s.now).subjectKey⟩ :: s.issued
        born := Function.update s.born sid s.now
        seen := Function.update s.seen sid s.now } := by
  refine ⟨h.tracked.writtenAt (le_refl _), ?_, fun x e he => ?_, fun x e he a ha hax => ?_⟩
  · have hcarries : Carries s.now (some sid) s.redis
        (store.writtenAt s.now s.redis (store.newSession login sid s.now)) :=
      .added _ (store.newSession login sid s.now)
    refine h.lineages.handOut (some ⟨sid, sid, (store.newSession login sid s.now).subjectKey⟩)
      hcarries ?_ ?_ ?_
    · rintro a ⟨⟩ ⟨b, hb, hbsid⟩
      exact hfresh b hb hbsid
    · rintro a ⟨⟩ e he
      rw [writtenAt_strings] at he
      obtain rfl := Option.some.inj ((Table.put_self _ _ _ _).symm.trans he)
      rfl
    · rintro a ⟨⟩
      exact Or.inl rfl
  · simp only [writtenAt_strings] at he
    by_cases hx : x = sid
    · subst hx
      obtain rfl := Option.some.inj ((Table.put_self _ _ _ _).symm.trans he)
      simp [newSession]
    · rw [Table.put_of_ne _ (by simpa [newSession] using hx)] at he
      simpa [Function.update_of_ne hx] using h.seen x e he
  · simp only [writtenAt_strings] at he
    by_cases hx : x = sid
    · subst hx
      obtain rfl := Option.some.inj ((Table.put_self _ _ _ _).symm.trans he)
      rcases List.mem_cons.mp ha with rfl | hold
      · simp [newSession]
      · exact absurd hax (hfresh a hold)
    · rw [Table.put_of_ne _ (by simpa [newSession] using hx)] at he
      rcases List.mem_cons.mp ha with rfl | hold
      · exact absurd hax.symm hx
      · -- a lineage that was there started under another identifier
        obtain ⟨b, hb, hborigin⟩ := h.lineages.rooted a hold
        have hne : a.origin ≠ sid := fun heq => hfresh b hb (hborigin.trans heq)
        simpa [Function.update_of_ne hne] using h.born x e he a hold hax

theorem touched (h : store.Invariant s) {sid : String} {session : Session}
    (hlive : s.redis.strings.live s.now (.session sid) = some session) :
    store.Invariant
      { s with
        redis := store.writtenAt s.now s.redis { session with lastSeenAt := s.now }
        seen := Function.update s.seen session.sid s.now } := by
  obtain ⟨x, hx, -⟩ := Table.live_eq_some.mp hlive
  obtain ⟨hkeyed, hbounded, -⟩ := h.tracked sid _ hx
  obtain rfl : session.sid = sid := hkeyed
  refine ⟨h.tracked.writtenAt hbounded, ?_, fun x' e he => ?_, fun x' e he a ha hax => ?_⟩
  · exact h.lineages.carry (.touched session hlive rfl)
  · simp only [writtenAt_strings] at he
    by_cases hx' : x' = session.sid
    · subst hx'
      obtain rfl := Option.some.inj ((Table.put_self _ _ _ _).symm.trans he)
      simp
    · rw [Table.put_of_ne _ (by simpa using hx')] at he
      simpa [Function.update_of_ne hx'] using h.seen x' e he
  · simp only [writtenAt_strings] at he
    by_cases hx' : x' = session.sid
    · subst hx'
      obtain rfl := Option.some.inj ((Table.put_self _ _ _ _).symm.trans he)
      exact h.born session.sid _ hx a ha hax
    · rw [Table.put_of_ne _ (by simpa using hx')] at he
      exact h.born x' e he a ha hax

theorem moved (h : store.Invariant s) {sid : String} {session moved : Session}
    (hlive : s.redis.strings.live s.now (.session sid) = some session)
    (hfresh : ∀ a ∈ s.issued, a.sid ≠ moved.sid) (hseen : moved.lastSeenAt = s.now)
    (hkey : moved.subjectKey = session.subjectKey)
    (hexpiry : moved.absoluteExpiry = session.absoluteExpiry) :
    store.Invariant
      { s with
        redis := store.destroyedAt s.now (store.writtenAt s.now
          (store.writtenAt s.now s.redis { session with lastSeenAt := s.now }) moved) sid
        issued := reissuedAs s.issued sid moved.sid (some moved)
        seen := Function.update s.seen moved.sid s.now } := by
  obtain ⟨y, hy, -⟩ := Table.live_eq_some.mp hlive
  obtain ⟨hkeyed, -, -⟩ := h.tracked sid _ hy
  obtain ⟨old, hold, holdsid, holdsub, hreissued⟩ := h.lineages.reissuedAs_of_stored hy
  obtain ⟨htracked, hcarries, hgone, z, hthere⟩ := moved_summary h.tracked hlive hexpiry
    fun heq => hfresh old hold (holdsid.trans heq)
  -- what is stored afterwards: the moved session, and what was stored under other identifiers
  have hstored : ∀ x (e : Entry Int Session), (store.destroyedAt s.now (store.writtenAt s.now
      (store.writtenAt s.now s.redis { session with lastSeenAt := s.now }) moved) sid).strings
        (.session x) = some e →
      (x = moved.sid ∧ e.value = moved) ∨
        (x ≠ moved.sid ∧ s.redis.strings (.session x) = some e) := by
    intro x e he
    by_cases hx : x = moved.sid
    · subst hx
      obtain rfl := Option.some.inj (hthere.symm.trans he)
      exact Or.inl ⟨rfl, rfl⟩
    · have hxs : x ≠ sid := by
        rintro rfl
        rw [hgone] at he
        cases he
      rw [destroyedAt_strings, Table.erase_of_ne _ (by simpa using hxs), writtenAt_strings,
        Table.put_of_ne _ (by simpa using hx), writtenAt_strings,
        Table.put_of_ne _ (by simpa [show session.sid = sid from hkeyed] using hxs)] at he
      exact Or.inr ⟨hx, he⟩
  refine ⟨htracked, ?_, fun x e he => ?_, fun x e he a ha hax => ?_⟩
  · rw [hreissued]
    refine h.lineages.handOut (some ⟨moved.sid, old.origin, old.subject⟩) hcarries ?_ ?_ ?_
    · rintro a ⟨⟩ ⟨b, hb, hbsid⟩
      exact hfresh b hb hbsid
    · rintro a ⟨⟩ e he
      obtain rfl := Option.some.inj (hthere.symm.trans he)
      exact holdsub.trans hkey.symm
    · rintro a ⟨⟩
      refine Or.inr ⟨old, hold, rfl, rfl, ?_, ?_⟩
      · rw [holdsid, hlive]
        simp
      · rw [holdsid]
        exact Table.live_eq_none.mpr fun e he => by rw [hgone] at he; cases he
  · rcases hstored x e he with ⟨rfl, hvalue⟩ | ⟨hx, hsame⟩
    · rw [hvalue, hseen]
      simp
    · simpa [Function.update_of_ne hx] using h.seen x e hsame
  · rw [hreissued] at ha
    rcases hstored x e he with ⟨rfl, hvalue⟩ | ⟨hx, hsame⟩
    · rcases List.mem_cons.mp ha with rfl | hold'
      · rw [hvalue, hexpiry]
        exact h.born sid _ hy old hold holdsid
      · exact absurd hax (hfresh a hold')
    · rcases List.mem_cons.mp ha with rfl | hold'
      · exact absurd hax.symm hx
      · exact h.born x e hsame a hold' hax

theorem dropped (h : store.Invariant s) {r' : Redis} (htracked : store.Tracked r' s.now)
    (hstrings : ∀ sid e, r'.strings (.session sid) = some e →
      s.redis.strings (.session sid) = some e) :
    store.Invariant { s with redis := r' } := by
  refine ⟨htracked, h.lineages.carry fun sid _ e he => ⟨e, hstrings sid e he, rfl, id⟩, ?_, ?_⟩
  · exact fun sid e he => h.seen sid e (hstrings sid e he)
  · exact fun sid e he => h.born sid e (hstrings sid e he)

/-- **Every call keeps the invariant.** -/
theorem step (h : store.Invariant s) {op : DatedCall} (ha : Allowed s op) :
    store.Invariant (store.step s op) := by
  obtain ⟨now, call⟩ := op
  have hlater := h.later ha.1
  have heff := store.program_effect now s.redis call
  unfold SessionStore.step
  simp only
  generalize Redis.run now (store.program now call) s.redis = out at heff ⊢
  obtain ⟨result, r'⟩ := out
  cases heff with
  | created login sid => exact hlater.created (ha.2 sid rfl)
  | touched hlive => exact hlater.touched hlive
  | moved hissued hborn hdrawn hlive hseen hkey hexpiry =>
    rw [hissued, hborn]
    exact hlater.moved hlive (ha.2 _ hdrawn) hseen hkey hexpiry
  | dropped hissued hborn htracked hstrings =>
    rw [hissued, hborn]
    exact hlater.dropped (htracked hlater.tracked) hstrings

end Invariant

/-! ## After a termination -/

/-- No session of the subject is alive. -/
def Absent (subjectKey : String) (s : SessionState) : Prop :=
  ∀ sid session, s.redis.strings.live s.now (.session sid) = some session →
    session.subjectKey ≠ subjectKey

/-- The call starts a session of the subject. -/
def Starts (subjectKey : String) (op : DatedCall) : Prop :=
  ∃ login sid, op.call = .create login sid ∧
    (store.newSession login sid op.now).subjectKey = subjectKey

theorem absent_of_terminateSubject {s : SessionState} (h : store.Invariant s) {now : Int}
    (hnow : s.now ≤ now) (subjectKey : String) :
    Absent subjectKey (store.step s ⟨now, .terminateSubject subjectKey⟩) := by
  rintro sid session hlive rfl
  have hredis : (store.step s ⟨now, .terminateSubject session.subjectKey⟩).redis =
      (Redis.run now (store.terminateSubject session.subjectKey) s.redis).2 := by
    show (Redis.run now (store.program now (.terminateSubject session.subjectKey)) s.redis).2 = _
    simp only [program, Redis.run, Prog.bind_def, Prog.run_bind]
    rfl
  obtain ⟨x, hx, hl⟩ := Table.live_eq_some.mp hlive
  rw [hredis, run_terminateSubject] at hx
  -- whoever is still there was there before, alive, and so listed
  have hbefore := store.strings_of_destroyedAll sid _ hx
  have hlisted := (h.later hnow).tracked.mem_index (Table.live_eq_some.mpr ⟨x, hbefore, hl⟩)
  have hgone := store.destroyedAll_strings_of_mem now s.redis
    ((List.perm_insertionSort (· ≤ ·) _).mem_iff.mpr hlisted)
  exact absurd (hgone.symm.trans hx) (by simp)

theorem Absent.step {s : SessionState} {subjectKey : String} (habsent : Absent subjectKey s)
    {op : DatedCall} (ha : Allowed s op)
    (hstarts : ¬ store.Starts subjectKey op) : Absent subjectKey (store.step s op) := by
  obtain ⟨now, call⟩ := op
  have hlater : ∀ {sid session}, s.redis.strings.live now (.session sid) = some session →
      session.subjectKey ≠ subjectKey :=
    fun hlive => habsent _ _ (Table.live_antitone ha.1 hlive)
  have heff := store.program_effect now s.redis call
  intro sid session hlive
  have hlive' : (Redis.run now (store.program now call) s.redis).2.strings.live now
      (.session sid) = some session := hlive
  generalize Redis.run now (store.program now call) s.redis = out at heff hlive'
  obtain ⟨result, r'⟩ := out
  obtain ⟨x, hx, hl⟩ := Table.live_eq_some.mp hlive'
  have hold : s.redis.strings (.session sid) = some ⟨session, x⟩ →
      session.subjectKey ≠ subjectKey := fun hsame => hlater (Table.live_eq_some.mpr ⟨x, hsame, hl⟩)
  -- a session found after a write is the one written, or was there
  have hwritten : ∀ {r : Redis} {written : Session},
      (store.writtenAt now r written).strings (.session sid) = some ⟨session, x⟩ →
      written.subjectKey ≠ subjectKey →
      (r.strings (.session sid) = some ⟨session, x⟩ → session.subjectKey ≠ subjectKey) →
      session.subjectKey ≠ subjectKey := by
    intro r written hstr hkey hr
    rw [writtenAt_strings] at hstr
    by_cases hsid : sid = written.sid
    · subst hsid
      rw [Table.put_self] at hstr
      obtain rfl : written = session := congrArg Entry.value (Option.some.inj hstr)
      exact hkey
    · rw [Table.put_of_ne _ (by simpa using hsid)] at hstr
      exact hr hstr
  cases heff with
  | created login fresh =>
    exact hwritten hx (fun hkey => hstarts ⟨login, fresh, rfl, hkey⟩) hold
  | touched hlive₀ =>
    have hkey := hlater hlive₀
    exact hwritten hx hkey hold
  | moved _ _ _ hlive₀ _ hkey _ =>
    have hkey₀ := hlater hlive₀
    refine hwritten (store.strings_of_destroyedAt sid _ hx) (hkey ▸ hkey₀) fun hfirst => ?_
    exact hwritten hfirst hkey₀ hold
  | dropped _ _ _ hstrings => exact hold (hstrings sid _ hx)

/-! ## Runs -/

/-- **What holds after every call**: a live session is listed in the index of its subject,
which expires no earlier; its absolute expiry is the absolute timeout after the instant its
lineage was created; it is loaded only before that, and within the idle timeout of the last
load or write; and of one lineage at most one identifier is alive. -/
structure Kept (s : SessionState) : Prop where
  indexed : ∀ sid session, s.redis.strings.live s.now (.session sid) = some session →
    ∃ expires members until', s.redis.strings (.session sid) = some ⟨session, some expires⟩ ∧
      s.redis.sets (store.subjectIndex session.subjectKey) = some ⟨members, some until'⟩ ∧
      sid ∈ members ∧ expires ≤ until'
  bounded : ∀ sid (e : Entry Int Session), s.redis.strings (.session sid) = some e →
    ∃ a ∈ s.issued, a.sid = sid ∧ e.value.absoluteExpiry = s.born a.origin + store.absolute
  inTime : ∀ sid later session, s.now ≤ later →
    (Redis.run later (store.load sid later) s.redis).1 = some session →
      later < session.absoluteExpiry ∧ later < s.seen sid + store.idle
  single : ∀ a ∈ s.issued, ∀ b ∈ s.issued, a.origin = b.origin →
    s.redis.strings.live s.now (.session a.sid) ≠ none →
      s.redis.strings.live s.now (.session b.sid) ≠ none → a = b

theorem Invariant.kept {s : SessionState} (h : store.Invariant s) : store.Kept s := by
  refine ⟨fun sid session hlive => ?_, fun sid e he => ?_, fun sid later session hlater hload => ?_,
    h.lineages.single⟩
  · obtain ⟨x, hx, hl⟩ := Table.live_eq_some.mp hlive
    obtain ⟨-, -, t, rfl, -, hcov⟩ := h.tracked sid _ hx
    rw [Entry.live_some] at hl
    rcases hcov with hdead | ⟨members, u, hset, hmem, hle⟩
    · omega
    · exact ⟨t, members, u, hx, hset, hmem, hle⟩
  · obtain ⟨a, ha, hsid, -⟩ := h.lineages.stored sid e he
    exact ⟨a, ha, hsid, h.born sid e he a ha hsid⟩
  · obtain ⟨found, hlive, hintime, rfl⟩ := store.load_eq_some hload
    obtain ⟨x, hx, -⟩ := Table.live_eq_some.mp hlive
    have hseen : found.lastSeenAt = s.seen sid := h.seen sid _ hx
    unfold TimedOut at hintime
    rw [hseen] at hintime
    show later < found.absoluteExpiry ∧ _
    omega

/-- **The session store over every run**: what is kept after every call, and that once a
subject is terminated no session of theirs is loadable until one is started. -/
theorem kept_of_run {now : Int} {ops : List DatedCall} {s : SessionState}
    (h : Run Allowed store.step (fresh now) ops s) :
    store.Kept s ∧
      ∀ pre time subjectKey post, ops = pre ++ ⟨time, .terminateSubject subjectKey⟩ :: post →
        (∀ op ∈ post, ¬ store.Starts subjectKey op) →
        ∀ sid later session, s.now ≤ later →
          (Redis.run later (store.load sid later) s.redis).1 = some session →
            session.subjectKey ≠ subjectKey := by
  have hkeep : ∀ s op, store.Invariant s → Allowed s op → store.Invariant (store.step s op) :=
    fun s op hs ha => hs.step ha
  have hstart : store.Invariant (fresh now) := .fresh now
  refine ⟨(h.invariant hkeep hstart).kept, ?_⟩
  rintro pre time subjectKey post rfl hnone sid later session hlater hload
  obtain ⟨m, hpre, hrest⟩ := Run.append_iff.mp h
  obtain ⟨ha, hpost⟩ := Run.cons_iff.mp hrest
  have hm : store.Invariant m := hpre.invariant hkeep hstart
  have hboth := (hpost.and_of_forall fun op hop _ => hnone op hop).invariant
    (I := fun s => store.Invariant s ∧ Absent subjectKey s)
    (fun s op hs ha => ⟨hs.1.step ha.1, hs.2.step store ha.1 ha.2⟩)
    ⟨hm.step ha, store.absent_of_terminateSubject hm ha.1 subjectKey⟩
  obtain ⟨found, hlive, -, rfl⟩ := store.load_eq_some hload
  exact hboth.2 sid found (Table.live_antitone hlater hlive)

/-- A store with the default timeouts. -/
def plainSessions : SessionStore where
  sha256 := id

/-- The person `k` logs in. -/
def loginOfK : Login := { idpEntityId := "idp", nameId := "n", personUuid := some "k" }

/-- A session is created, loaded and rotated, and its person terminated. -/
def sessionOfK : List DatedCall :=
  [⟨0, .create loginOfK "s"⟩, ⟨second, .load "s"⟩, ⟨2 * second, .rotate "s" "t"⟩,
    ⟨3 * second, .terminateSubject "k"⟩]

theorem kept_of_sessionOfK : plainSessions.Kept (sessionOfK.foldl plainSessions.step (fresh 0)) := by
  have hrun : Run Allowed plainSessions.step (fresh 0) sessionOfK
      (sessionOfK.foldl plainSessions.step (fresh 0)) := by
    refine .cons ⟨by decide, fun _ _ => by simp [fresh]⟩ (.cons ⟨by decide, fun _ h => by cases h⟩
      (.cons ⟨by decide, ?_⟩ (.cons ⟨by decide, fun _ h => by cases h⟩ (.nil _))))
    rintro sid ⟨⟩ a ha
    obtain rfl := List.mem_singleton.mp ha
    decide
  exact (plainSessions.kept_of_run hrun).1

end SessionStore

end CampusID
