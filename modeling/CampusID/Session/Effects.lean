import CampusID.Session.Store
import Mathlib.Algebra.Order.Group.Int

/-!
# What the session store leaves behind

One lemma a method: the value it returns and the Redis it leaves, in terms of two
operations on Redis, `writtenAt` and `destroyedAt`.  Nothing after this module unfolds
a method of the store.

`Tracked` is what these keep.  A record lies under its own identifier and dies no later
than the index of its subject, in which its identifier is listed; so whoever reads the
index finds every session that is still alive.
-/

namespace CampusID

open Lib

theorem lifetime_mono {ttl ttl' : Int} (h : ttl ≤ ttl') : lifetime ttl ≤ lifetime ttl' := by
  have hs : (0 : Int) ≤ second := by decide
  have hdiv : ttl.tdiv second ≤ ttl'.tdiv second := Int.tdiv_le_tdiv (by decide) h
  exact Int.mul_le_mul_of_nonneg_right (max_le_max_right 1 hdiv) hs

namespace SessionStore

variable (store : SessionStore)

/-- How long the index of a subject lives. -/
def indexLife : Int := lifetime store.absolute

/-- Redis with a session written at `now`. -/
def writtenAt (now : Int) (r : Redis) (session : Session) : Redis :=
  ((r.write (.session session.sid) session
      (some (now + lifetime (min store.idle (session.absoluteExpiry - now))))).sadd now
    (store.subjectIndex session.subjectKey) session.sid).expire now
    (store.subjectIndex session.subjectKey) store.indexLife

/-- Redis with a session destroyed at `now`. -/
def destroyedAt (now : Int) (r : Redis) (sid : String) : Redis :=
  let r' := match r.strings.live now (.session sid) with
    | some session => r.srem now (store.subjectIndex session.subjectKey) sid
    | none => r
  { r' with strings := r'.strings.erase (.session sid) }

/-- Redis with a list of sessions destroyed at `now`. -/
def destroyedAll (now : Int) (r : Redis) (sids : List String) : Redis :=
  sids.foldl (store.destroyedAt now) r

/-! ## The methods -/

theorem run_write (now : Int) (r : Redis) (session : Session) :
    Redis.run now (store.write session now) r = ((), store.writtenAt now r session) := by
  simp [Redis.run, write, writtenAt, setAdd, expireKey, indexLife, lifetime]

theorem run_create (now : Int) (r : Redis) (login : Login) (sid : String) :
    Redis.run now (store.create login sid now) r =
      (store.newSession login sid now, store.writtenAt now r (store.newSession login sid now)) := by
  have h := store.run_write now r (store.newSession login sid now)
  simp only [Redis.run] at h
  simp [Redis.run, create, h]

theorem run_destroy (now : Int) (r : Redis) (sid : String) :
    Redis.run now (store.destroy sid) r = ((), store.destroyedAt now r sid) := by
  cases h : r.strings.live now (.session sid) with
  | none => simp [Redis.run, destroy, destroyedAt, h]
  | some session => simp [Redis.run, destroy, destroyedAt, h, setRemove]

theorem run_destroyAll (now : Int) (r : Redis) (sids : List String) :
    Redis.run now (Prog.forEach store.destroy sids) r = ((), store.destroyedAll now r sids) := by
  induction sids generalizing r with
  | nil => rfl
  | cons sid sids ih =>
    have h := store.run_destroy now r sid
    have hrest := ih (store.destroyedAt now r sid)
    simp only [Redis.run] at h hrest
    simp [Redis.run, Prog.forEach, h, hrest, destroyedAll]

/-- The session has idled or lived too long. -/
def TimedOut (session : Session) (now : Int) : Prop :=
  now ≥ session.absoluteExpiry ∨ now - session.lastSeenAt ≥ store.idle

/-- **How a load ends**: nothing there, timed out and destroyed, or touched and written
back. -/
theorem load_cases (now : Int) (r : Redis) (sid : String) :
    (r.strings.live now (.session sid) = none ∧
      Redis.run now (store.load sid now) r = (none, r)) ∨
    ∃ session : Session, r.strings.live now (.session sid) = some session ∧
      ((store.TimedOut session now ∧
          Redis.run now (store.load sid now) r = (none, store.destroyedAt now r sid)) ∨
        (¬ store.TimedOut session now ∧
          Redis.run now (store.load sid now) r = (some { session with lastSeenAt := now },
            store.writtenAt now r { session with lastSeenAt := now }))) := by
  cases h : r.strings.live now (.session sid) with
  | none =>
    refine Or.inl ⟨rfl, ?_⟩
    simp [Redis.run, load, h]
  | some session =>
    refine Or.inr ⟨session, rfl, ?_⟩
    by_cases ht : store.TimedOut session now
    · refine Or.inl ⟨ht, ?_⟩
      have hd := store.run_destroy now r sid
      simp only [Redis.run] at hd
      unfold TimedOut at ht
      simp only [Redis.run, load, Prog.bind_def, Prog.run_bind, Prog.run_send, Store.exec_get, h,
        if_pos ht, hd]
      rfl
    · refine Or.inr ⟨ht, ?_⟩
      have hw := store.run_write now r { session with lastSeenAt := now }
      simp only [Redis.run] at hw
      unfold TimedOut at ht
      simp only [Redis.run, load, Prog.bind_def, Prog.run_bind, Prog.run_send, Store.exec_get, h,
        if_neg ht, hw]
      rfl

/-- **A session that is loaded** is alive, has not timed out, and comes back touched. -/
theorem load_eq_some {now : Int} {r : Redis} {sid : String} {session : Session}
    (h : (Redis.run now (store.load sid now) r).1 = some session) :
    ∃ found : Session, r.strings.live now (.session sid) = some found ∧
      ¬ store.TimedOut found now ∧ session = { found with lastSeenAt := now } := by
  rcases store.load_cases now r sid with ⟨-, hrun⟩ | ⟨found, hlive, ⟨-, hrun⟩ | ⟨hintime, hrun⟩⟩
  · rw [hrun] at h
    cases h
  · rw [hrun] at h
    cases h
  · rw [hrun] at h
    exact ⟨found, hlive, hintime, (Option.some.inj h).symm⟩

theorem run_move (now : Int) (r : Redis) (sid : String) (moved : Session) :
    Redis.run now (store.move sid moved now) r =
      (some moved, store.destroyedAt now (store.writtenAt now r moved) sid) := by
  have hw := store.run_write now r moved
  have hd := store.run_destroy now (store.writtenAt now r moved) sid
  simp only [Redis.run] at hw hd
  simp [Redis.run, move, hw, hd]

/-- A method that loads a session and, if there is one, moves it. -/
def reissue (sid : String) (f : Session → Session) (now : Int) : RedisProg (Option Session) := do
  let session ← store.load sid now
  match session with
  | none => return none
  | some session => store.move sid (f session) now

theorem rotate_eq_reissue (sid fresh : String) (now : Int) :
    store.rotate sid fresh now =
      store.reissue sid (fun session => { session with sid := fresh, lastSeenAt := now }) now := rfl

theorem elevate_eq_reissue (sid acr : String) (amr : List String) (fresh : String) (now : Int) :
    store.elevate sid acr amr fresh now = store.reissue sid (fun session => { session with
      sid := fresh, acr := some acr, amr := amr, authTime := now, lastSeenAt := now }) now := rfl

theorem reissue_only (sid : String) (f : Session → Session) (now : Int) :
    Prog.Only SessionKeys (store.reissue sid f now) := by
  refine (store.load_only sid now).bind fun session => ?_
  cases session with
  | none => trivial
  | some session => exact store.move_only _ _ _

theorem load_of_intime {now : Int} {r : Redis} {sid : String} {session : Session}
    (hlive : r.strings.live now (.session sid) = some session)
    (hintime : ¬ store.TimedOut session now) :
    Redis.run now (store.load sid now) r = (some { session with lastSeenAt := now },
      store.writtenAt now r { session with lastSeenAt := now }) := by
  rcases store.load_cases now r sid with ⟨hnone, -⟩ | ⟨found, hfound, ⟨hlate, -⟩ | ⟨-, hrun⟩⟩
  · rw [hlive] at hnone
    cases hnone
  · rw [hlive] at hfound
    obtain rfl := Option.some.inj hfound
    exact absurd hlate hintime
  · rw [hlive] at hfound
    obtain rfl := Option.some.inj hfound
    exact hrun

theorem reissue_of_load {now : Int} {r r' : Redis} {sid : String} {session : Session}
    (h : Redis.run now (store.load sid now) r = (some session, r')) (f : Session → Session) :
    Redis.run now (store.reissue sid f now) r =
      (some (f session), store.destroyedAt now (store.writtenAt now r' (f session)) sid) := by
  have hm := store.run_move now r' sid (f session)
  simp only [Redis.run] at h hm
  simp [Redis.run, reissue, h, hm]

theorem reissue_of_load_none {now : Int} {r r' : Redis} {sid : String}
    (h : Redis.run now (store.load sid now) r = (none, r')) (f : Session → Session) :
    Redis.run now (store.reissue sid f now) r = (none, r') := by
  simp only [Redis.run] at h
  simp [Redis.run, reissue, h]

/-- **How a rotation or an elevation ends**: as a load that found nothing, or with the
session moved. -/
theorem reissue_cases (now : Int) (r : Redis) (sid : String) (f : Session → Session) :
    (r.strings.live now (.session sid) = none ∧
      Redis.run now (store.reissue sid f now) r = (none, r)) ∨
    (r.strings.live now (.session sid) ≠ none ∧
      Redis.run now (store.reissue sid f now) r = (none, store.destroyedAt now r sid)) ∨
    ∃ session : Session, r.strings.live now (.session sid) = some session ∧
      Redis.run now (store.reissue sid f now) r = (some (f { session with lastSeenAt := now }),
        store.destroyedAt now (store.writtenAt now
          (store.writtenAt now r { session with lastSeenAt := now })
          (f { session with lastSeenAt := now })) sid) := by
  rcases store.load_cases now r sid with ⟨hl, h⟩ | ⟨session, hl, ⟨-, h⟩ | ⟨-, h⟩⟩
  · refine Or.inl ⟨hl, ?_⟩
    simp only [Redis.run] at h
    simp [Redis.run, reissue, h]
  · refine Or.inr (Or.inl ⟨by simp [hl], ?_⟩)
    simp only [Redis.run] at h
    simp [Redis.run, reissue, h]
  · exact Or.inr (Or.inr ⟨session, hl, store.reissue_of_load h f⟩)

/-- **How a termination ends**: every session the index lists is destroyed, and the index
dropped. -/
theorem run_terminateSubject (now : Int) (r : Redis) (subjectKey : String) :
    Redis.run now (store.terminateSubject subjectKey) r =
      ((r.members now (store.subjectIndex subjectKey)).insertionSort (· ≤ ·),
        { store.destroyedAll now r
            ((r.members now (store.subjectIndex subjectKey)).insertionSort (· ≤ ·)) with
          sets := (store.destroyedAll now r
            ((r.members now (store.subjectIndex subjectKey)).insertionSort (· ≤ ·))).sets.erase
              (store.subjectIndex subjectKey) }) := by
  have h := store.run_destroyAll now r
    ((r.members now (store.subjectIndex subjectKey)).insertionSort (· ≤ ·))
  simp only [Redis.run] at h
  simp [Redis.run, terminateSubject, sidsFor, setMembers, h]

/-! ## What is kept -/

@[simp] theorem writtenAt_strings (now : Int) (r : Redis) (session : Session) :
    (store.writtenAt now r session).strings = r.strings.put (.session session.sid) session
      (some (now + lifetime (min store.idle (session.absoluteExpiry - now)))) := by
  simp [writtenAt]

theorem live_writtenAt (now : Int) (r : Redis) (session : Session) :
    (store.writtenAt now r session).strings.live now (.session session.sid) = some session := by
  rw [writtenAt_strings]
  exact Table.live_eq_some.mpr
    ⟨_, Table.put_self _ _ _ _, Entry.live_some.mpr (lt_add_of_pos_right _ (lifetime_pos _))⟩

@[simp] theorem destroyedAt_strings (now : Int) (r : Redis) (sid : String) :
    (store.destroyedAt now r sid).strings = r.strings.erase (.session sid) := by
  unfold destroyedAt
  cases r.strings.live now (.session sid) <;> simp

theorem destroyedAll_strings_of_notMem (now : Int) (r : Redis) {sids : List String} {sid : String}
    (h : sid ∉ sids) :
    (store.destroyedAll now r sids).strings (.session sid) = r.strings (.session sid) := by
  induction sids generalizing r with
  | nil => rfl
  | cons x sids ih =>
    have hx : sid ≠ x := fun hx => h (hx ▸ List.mem_cons_self)
    have hrest : sid ∉ sids := fun hrest => h (List.mem_cons_of_mem _ hrest)
    have hne : Key.session sid ≠ Key.session x := by simpa using hx
    have := ih (store.destroyedAt now r x) hrest
    rw [destroyedAt_strings, Table.erase_of_ne _ hne] at this
    exact this

theorem destroyedAll_strings_of_mem (now : Int) (r : Redis) {sids : List String} {sid : String}
    (h : sid ∈ sids) : (store.destroyedAll now r sids).strings (.session sid) = none := by
  induction sids generalizing r with
  | nil => simp at h
  | cons x sids ih =>
    by_cases hrest : sid ∈ sids
    · exact ih (store.destroyedAt now r x) hrest
    · obtain rfl : sid = x := (List.mem_cons.mp h).resolve_right hrest
      have := store.destroyedAll_strings_of_notMem now (store.destroyedAt now r sid) hrest
      rw [destroyedAt_strings, Table.erase_self] at this
      exact this

theorem mem_destroyedAt_sets (now : Int) {r : Redis} {key : SetKey} {ms : List String}
    {u : Option Int} {sid x : String} (h : r.sets key = some ⟨ms, u⟩) (hx : x ∈ ms) (hne : x ≠ sid) :
    ∃ ms', (store.destroyedAt now r sid).sets key = some ⟨ms', u⟩ ∧ x ∈ ms' := by
  unfold destroyedAt
  cases r.strings.live now (.session sid) with
  | none => exact ⟨ms, h, hx⟩
  | some session => exact Store.mem_srem_sets h hx hne now

/-- What holds of a stored session: it lies under its own identifier, it started no
earlier than the absolute window ago, and while it lives its subject's index lists
it. -/
structure TrackedRecord (r : Redis) (now : Int) (sid : String) (e : Entry Int Session) : Prop where
  keyed : e.value.sid = sid
  bounded : e.value.absoluteExpiry ≤ now + store.absolute
  dies : ∃ t, e.expiry = some t ∧ t ≤ now + store.indexLife ∧
    (t ≤ now ∨ ∃ ms u, r.sets (store.subjectIndex e.value.subjectKey) = some ⟨ms, some u⟩ ∧
      sid ∈ ms ∧ t ≤ u)

/-- **Every stored session is tracked.** -/
def Tracked (r : Redis) (now : Int) : Prop :=
  ∀ sid (e : Entry Int Session), r.strings (.session sid) = some e → store.TrackedRecord r now sid e

namespace Tracked

variable {store} {r : Redis} {now : Int}

theorem empty (now : Int) : store.Tracked Store.empty now := by
  intro sid e he
  cases he

theorem later (h : store.Tracked r now) {d : Int} (hd : 0 ≤ d) : store.Tracked r (now + d) := by
  intro sid e he
  obtain ⟨hk, hb, t, ht, hle, hcov⟩ := h sid e he
  refine ⟨hk, by omega, t, ht, by omega, ?_⟩
  rcases hcov with hdead | hcov
  · exact Or.inl (by omega)
  · exact Or.inr hcov

theorem mem_index (h : store.Tracked r now) {sid : String} {session : Session}
    (hl : r.strings.live now (.session sid) = some session) :
    sid ∈ r.members now (store.subjectIndex session.subjectKey) := by
  obtain ⟨x, hx, hlive⟩ := Table.live_eq_some.mp hl
  obtain ⟨-, -, t, rfl, -, hcov⟩ := h sid _ hx
  rw [Entry.live_some] at hlive
  rcases hcov with hdead | ⟨ms, u, hs, hmem, hle⟩
  · omega
  · exact Store.mem_members.mpr ⟨ms, Table.live_eq_some.mpr
      ⟨_, hs, Entry.live_some.mpr (by omega)⟩, hmem⟩

theorem congr (h : store.Tracked r now) {r' : Redis}
    (hstr : ∀ sid, r'.strings (.session sid) = r.strings (.session sid))
    (hset : ∀ d, r'.sets (.subjectIndex d) = r.sets (.subjectIndex d)) : store.Tracked r' now := by
  intro sid e he
  rw [hstr] at he
  obtain ⟨hk, hb, t, ht, hle, hcov⟩ := h sid e he
  refine ⟨hk, hb, t, ht, hle, hcov.imp_right ?_⟩
  rintro ⟨ms, u, hs, hrest⟩
  exact ⟨ms, u, (hset _).trans hs, hrest⟩

theorem writtenAt (h : store.Tracked r now) {session : Session}
    (hb : session.absoluteExpiry ≤ now + store.absolute) :
    store.Tracked (store.writtenAt now r session) now := by
  obtain ⟨ms, hms, hmem, hold⟩ := Store.sadd_expire_sets
    (r.write (.session session.sid) session
      (some (now + lifetime (min store.idle (session.absoluteExpiry - now))))) now
    (store.subjectIndex session.subjectKey) session.sid store.indexLife
  intro sid e he
  rw [writtenAt_strings] at he
  by_cases hsid : sid = session.sid
  · -- the record just written: its index was given the whole absolute window
    subst hsid
    rw [Table.put_self] at he
    obtain rfl := Option.some.inj he
    have hlife : lifetime (min store.idle (session.absoluteExpiry - now)) ≤ store.indexLife := by
      refine lifetime_mono (le_trans (min_le_right _ _) ?_)
      omega
    exact ⟨rfl, hb, _, rfl, by omega, Or.inr ⟨ms, _, hms, hmem, by omega⟩⟩
  · rw [Table.put_of_ne _ (by simpa using hsid)] at he
    obtain ⟨hk, hb', t, ht, hle, hcov⟩ := h sid e he
    refine ⟨hk, hb', t, ht, hle, ?_⟩
    rcases hcov with hdead | ⟨ms', u, hs, hin, hu⟩
    · exact Or.inl hdead
    · by_cases hidx : store.subjectIndex e.value.subjectKey = store.subjectIndex session.subjectKey
      · -- the shared index was extended, unless it had run out and the record with it
        by_cases hlive : now < u
        · refine Or.inr ⟨ms, _, by rw [hidx]; exact hms, hold sid ?_, hle⟩
          rw [hidx] at hs
          exact Store.mem_members.mpr ⟨ms', Table.live_eq_some.mpr
            ⟨_, hs, Entry.live_some.mpr hlive⟩, hin⟩
        · exact Or.inl (by omega)
      · refine Or.inr ⟨ms', u, ?_, hin, hu⟩
        unfold SessionStore.writtenAt
        rw [Store.expire_sets_of_ne _ _ hidx, Store.sadd_sets_of_ne _ _ hidx]
        exact hs

theorem destroyedAt (h : store.Tracked r now) (sid : String) :
    store.Tracked (store.destroyedAt now r sid) now := by
  intro sid' e he
  rw [destroyedAt_strings] at he
  by_cases hsid : sid' = sid
  · subst hsid
    rw [Table.erase_self] at he
    cases he
  · rw [Table.erase_of_ne _ (by simpa using hsid)] at he
    obtain ⟨hk, hb, t, ht, hle, hcov⟩ := h sid' e he
    refine ⟨hk, hb, t, ht, hle, hcov.imp_right ?_⟩
    rintro ⟨ms, u, hs, hin, hu⟩
    obtain ⟨ms', hs', hin'⟩ := store.mem_destroyedAt_sets now hs hin hsid
    exact ⟨ms', u, hs', hin', hu⟩

theorem destroyedAll (h : store.Tracked r now) (sids : List String) :
    store.Tracked (store.destroyedAll now r sids) now := by
  induction sids generalizing r with
  | nil => exact h
  | cons sid sids ih => exact ih (h.destroyedAt sid)

/-- Terminating a subject: whoever the dropped index listed is gone already, and whoever
it should have listed and did not is expired. -/
theorem terminated (h : store.Tracked r now) (subjectKey : String) :
    store.Tracked (Redis.run now (store.terminateSubject subjectKey) r).2 now := by
  rw [run_terminateSubject]
  intro sid e he
  by_cases hmem : sid ∈ (r.members now (store.subjectIndex subjectKey)).insertionSort (· ≤ ·)
  · replace he : (store.destroyedAll now r _).strings (.session sid) = some e := he
    rw [store.destroyedAll_strings_of_mem now r hmem] at he
    cases he
  · obtain ⟨hk, hb, t, ht, hle, hcov⟩ := (h.destroyedAll _) sid e he
    refine ⟨hk, hb, t, ht, hle, ?_⟩
    replace he : (store.destroyedAll now r _).strings (.session sid) = some e := he
    rw [store.destroyedAll_strings_of_notMem now r hmem] at he
    by_cases hidx : store.subjectIndex e.value.subjectKey = store.subjectIndex subjectKey
    · left
      by_contra hlive
      refine hmem ((List.perm_insertionSort _ _).mem_iff.mpr ?_)
      rw [← hidx]
      exact h.mem_index (Table.live_eq_some.mpr ⟨some t, by rw [he, ← ht],
        Entry.live_some.mpr (not_le.mp hlive)⟩)
    · refine hcov.imp_right ?_
      rintro ⟨ms, u, hs, hin, hu⟩
      exact ⟨ms, u, (Table.erase_of_ne _ hidx).trans hs, hin, hu⟩

end Tracked

/-! ## Which sessions are there afterwards -/

/-- Of the sessions other than `fresh`, none is new, none changed hands, and none came
back to life. -/
def Carries (now : Int) (fresh : Option String) (r r' : Redis) : Prop :=
  ∀ sid, some sid ≠ fresh → ∀ e' : Entry Int Session, r'.strings (.session sid) = some e' →
    ∃ e : Entry Int Session, r.strings (.session sid) = some e ∧
      e.value.subjectKey = e'.value.subjectKey ∧ (e'.Live now → e.Live now)

namespace Carries

variable {store} {now : Int} {fresh : Option String} {r r' r'' : Redis}

theorem of_eq (h : ∀ sid, r'.strings (.session sid) = r.strings (.session sid)) :
    Carries now fresh r r' := by
  intro sid _ e' he'
  exact ⟨e', (h sid).symm.trans he', rfl, id⟩

theorem refl (r : Redis) : Carries now fresh r r := of_eq fun _ => rfl

theorem trans (h : Carries now fresh r r') (h' : Carries now fresh r' r'') :
    Carries now fresh r r'' := by
  intro sid hsid e'' he''
  obtain ⟨e', he', hkey', hlive'⟩ := h' sid hsid e'' he''
  obtain ⟨e, he, hkey, hlive⟩ := h sid hsid e' he'
  exact ⟨e, he, hkey.trans hkey', hlive ∘ hlive'⟩

theorem destroyedAt (r : Redis) (sid : String) :
    Carries now fresh r (store.destroyedAt now r sid) := by
  intro sid' _ e' he'
  rw [destroyedAt_strings] at he'
  by_cases hsid : sid' = sid
  · subst hsid
    rw [Table.erase_self] at he'
    cases he'
  · rw [Table.erase_of_ne _ (by simpa using hsid)] at he'
    exact ⟨e', he', rfl, id⟩

theorem destroyedAll (r : Redis) (sids : List String) :
    Carries now fresh r (store.destroyedAll now r sids) := by
  induction sids generalizing r with
  | nil => exact refl r
  | cons sid sids ih => exact (destroyedAt r sid).trans (ih _)

theorem terminated (r : Redis) (subjectKey : String) :
    Carries now fresh r (Redis.run now (store.terminateSubject subjectKey) r).2 := by
  rw [run_terminateSubject]
  exact destroyedAll r _

theorem touched (session : Session) {session' : Session}
    (hl : r.strings.live now (.session session'.sid) = some session)
    (hkey : session'.subjectKey = session.subjectKey) :
    Carries now fresh r (store.writtenAt now r session') := by
  intro sid _ e' he'
  rw [writtenAt_strings] at he'
  by_cases hsid : sid = session'.sid
  · subst hsid
    rw [Table.put_self] at he'
    obtain rfl := Option.some.inj he'
    obtain ⟨x, hx, hlive⟩ := Table.live_eq_some.mp hl
    exact ⟨_, hx, hkey.symm, fun _ => hlive⟩
  · rw [Table.put_of_ne _ (by simpa using hsid)] at he'
    exact ⟨e', he', rfl, id⟩

theorem added (r : Redis) (session : Session) :
    Carries now (some session.sid) r (store.writtenAt now r session) := by
  intro sid hsid e' he'
  rw [writtenAt_strings, Table.put_of_ne _ (by simpa using hsid)] at he'
  exact ⟨e', he', rfl, id⟩

theorem live_eq_none (h : Carries now fresh r r') {sid : String} (hsid : some sid ≠ fresh)
    (hnone : r.strings.live now (.session sid) = none) :
    r'.strings.live now (.session sid) = none := by
  refine Table.live_eq_none.mpr fun e' he' hlive' => ?_
  obtain ⟨e, he, -, hlive⟩ := h sid hsid e' he'
  exact Table.live_eq_none.mp hnone e he (hlive hlive')

end Carries

/-- **A session moved**: tracked, nothing new but the fresh identifier, the old one gone
and the fresh one there. -/
theorem moved_summary {store : SessionStore} {r : Redis} {now : Int} {sid : String}
    {session moved : Session} (h : store.Tracked r now)
    (hl : r.strings.live now (.session sid) = some session)
    (hexp : moved.absoluteExpiry = session.absoluteExpiry) (hne : sid ≠ moved.sid) :
    let r' := store.destroyedAt now (store.writtenAt now
      (store.writtenAt now r { session with lastSeenAt := now }) moved) sid
    store.Tracked r' now ∧ Carries now (some moved.sid) r r' ∧
      r'.strings (.session sid) = none ∧ ∃ x, r'.strings (.session moved.sid) = some ⟨moved, x⟩ := by
  obtain ⟨x, hx, -⟩ := Table.live_eq_some.mp hl
  obtain ⟨hkeyed, hbounded, -⟩ := h sid _ hx
  have hbounded' : moved.absoluteExpiry ≤ now + store.absolute := hexp ▸ hbounded
  have hfirst : store.Tracked (store.writtenAt now r { session with lastSeenAt := now }) now :=
    h.writtenAt hbounded
  have htouch : Carries now (some moved.sid) r
      (store.writtenAt now r { session with lastSeenAt := now }) := by
    refine .touched session ?_ rfl
    show r.strings.live now (.session session.sid) = some session
    rw [show session.sid = sid from hkeyed]
    exact hl
  refine ⟨(hfirst.writtenAt hbounded').destroyedAt sid,
    (htouch.trans (.added _ moved)).trans (.destroyedAt _ sid), ?_, ?_⟩
  · rw [destroyedAt_strings, Table.erase_self]
  · rw [destroyedAt_strings, Table.erase_of_ne _ (by simpa using hne.symm), writtenAt_strings,
      Table.put_self]
    exact ⟨_, rfl⟩

end SessionStore

end CampusID
