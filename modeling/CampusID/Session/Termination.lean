import CampusID.Lib.Interleaving
import CampusID.Session.Invariant

/-!
# Terminating a person who is using the broker

`terminate_subject` reads the index of a subject once and then deletes key by key.  A
load, a rotation or an elevation reads a record and later writes it, or its successor,
without looking again.  Each Redis command is atomic; nothing else is.

So a call that read its record before the termination deleted it and writes it back
afterwards brings the session back to life, and a call that writes a successor the
termination did not list leaves it alive: see `not_terminated`.

`terminated_of_timely` is the other side.  Once the index is read, every session of the
subject that is alive is one that some call in progress --- the termination or another ---
is bound to delete.  Two things keep it so.  When the index is read, whoever is alive is
listed or about to be deleted anyway; and from then on a session is only written while
some call is still to delete it.
-/

namespace CampusID

open Lib

/-- A call on the session store.  `time` is the instant the call starts at, which it goes
on using; a fresh identifier is drawn by the caller. -/
inductive SessionRequest where
  | load (sid : String) (time : Int)
  | rotate (sid fresh : String) (time : Int)
  | elevate (sid acr : String) (amr : List String) (fresh : String) (time : Int)
  | terminate (subjectKey : String)
  deriving DecidableEq, Repr

/-- A call in progress. -/
abbrev SessionThread := Thread RedisCmd Reply SessionRequest Unit Int

/-- The calls in progress over one Redis. -/
abbrev SessionPool := Pool RedisCmd Reply SessionRequest Unit Int Redis

namespace SessionStore

variable (store : SessionStore)

/-- The program that serves a call. -/
def serve : SessionRequest → RedisProg Unit
  | .load sid time => do let _ ← store.load sid time
  | .rotate sid fresh time => do let _ ← store.rotate sid fresh time
  | .elevate sid acr amr fresh time => do let _ ← store.elevate sid acr amr fresh time
  | .terminate subjectKey => do let _ ← store.terminateSubject subjectKey

/-- One move of the pool. -/
def poolStep (p : SessionPool) (mv : Move SessionRequest Int) : SessionPool :=
  p.step Store.exec store.serve mv

/-- The moves that can happen: the clock does not run backwards, a call starts now, and
one termination is started, of this subject. -/
def Possible (subjectKey : String) (p : SessionPool) : Move SessionRequest Int → Prop
  | .tick elapsed => 0 ≤ elapsed
  | .spawn (.load _ time) => time = p.now
  | .spawn (.rotate _ _ time) => time = p.now
  | .spawn (.elevate _ _ _ _ time) => time = p.now
  | .spawn (.terminate key) =>
    key = subjectKey ∧ ∀ th ∈ p.threads, th.request ≠ .terminate subjectKey
  | .advance _ => True

/-- The termination has read the index. -/
def HasRead (subjectKey : String) (p : SessionPool) : Prop :=
  ∃ th ∈ p.threads, th.request = .terminate subjectKey ∧ th.history ≠ []

/-- Some call in progress is bound to delete this session. -/
def Doomed (p : SessionPool) (sid : String) : Prop :=
  ∃ th ∈ p.threads, Prog.Surely (· = .del (.session sid)) th.rest

/-- A session of the subject is alive under this identifier. -/
def AliveFor (subjectKey : String) (p : SessionPool) (sid : String) : Prop :=
  ∃ session : Session, p.store.strings.live p.now (.session sid) = some session ∧
    session.subjectKey = subjectKey

/-- A session of the subject is not written once the index is read, unless some call is
still to delete it. -/
def TimelyWrite (subjectKey : String) (p : SessionPool) : RedisCmd → Prop
  | .set (.session sid) session _ =>
    Session.subjectKey session = subjectKey → HasRead subjectKey p → Doomed p sid
  | _ => True

/-- Whoever is alive is listed when the index is read, or about to be deleted anyway. -/
def TimelyRead (subjectKey : String) (p : SessionPool) : Prop :=
  ∀ sid, AliveFor subjectKey p sid →
    sid ∈ p.store.members p.now (store.subjectIndex subjectKey) ∨ Doomed p sid

/-- **No call writes behind the termination's back.** -/
def Timely (subjectKey : String) (p : SessionPool) : Move SessionRequest Int → Prop
  | .advance i =>
    (∀ c, p.next i = some c → TimelyWrite subjectKey p c) ∧
      ∀ th, p.At i th → th.request = .terminate subjectKey → th.history = [] →
        store.TimelyRead subjectKey p
  | _ => True

/-! ## What calls are bound to delete -/

theorem destroy_surely (sid : String) :
    Prog.Surely (· = .del (.session sid)) (store.destroy sid) := by
  refine Or.inr fun raw => ?_
  cases raw with
  | none => exact Or.inl rfl
  | some session => exact Or.inr fun _ => Or.inl rfl

/-- **Once it has read the index, a termination is bound to delete whoever is listed.** -/
theorem terminate_surely (subjectKey : String) {members : List String} {sid : String}
    (h : sid ∈ members) {k : List String → RedisProg Unit}
    (hk : store.serve (.terminate subjectKey) =
      .call (.smembers (store.subjectIndex subjectKey)) k) :
    Prog.Surely (· = .del (.session sid)) (k members) := by
  have hsorted : sid ∈ members.insertionSort (· ≤ ·) :=
    (List.perm_insertionSort _ _).mem_iff.mpr h
  obtain rfl : _ = k := by
    injection hk
  exact ((Prog.Surely.forEach (store.destroy_surely sid) hsorted).bind_left _).bind_left _

theorem doomed_fire {p : SessionPool} {i : Nat} {th : SessionThread} {c : RedisCmd}
    {k : Reply c → RedisProg Unit} (hi : p.At i th) (hr : th.rest = .call c k) {sid : String}
    (h : Doomed p sid) : c = .del (.session sid) ∨ Doomed (p.fire Store.exec i th c k) sid := by
  obtain ⟨th₀, hmem, hsurely⟩ := h
  obtain ⟨j, hj⟩ := List.getElem?_of_mem hmem
  by_cases hij : j = i
  · subst hij
    obtain rfl : th₀ = th := Option.some.inj (hj.symm.trans hi)
    rw [hr] at hsurely
    refine hsurely.imp_right fun hrest => ?_
    exact ⟨_, List.mem_of_getElem? ((Pool.fire_threads hi).mpr (Or.inl ⟨rfl, rfl⟩)),
      hrest (Store.exec p.now c p.store).1⟩
  · refine Or.inr ⟨th₀, ?_, hsurely⟩
    exact List.mem_of_getElem? ((Pool.fire_threads hi).mpr (Or.inr ⟨hij, hj⟩))

/-! ## One command -/

/-- A session that is alive after a command was alive before it and is not the one it
deleted, or is the one it wrote. -/
theorem aliveFor_fire {subjectKey : String} {p : SessionPool} {i : Nat} {th : SessionThread}
    {c : RedisCmd} {k : Reply c → RedisProg Unit} (hc : SessionKeys c) {sid : String}
    (h : AliveFor subjectKey (p.fire Store.exec i th c k) sid) :
    (AliveFor subjectKey p sid ∧ c ≠ .del (.session sid)) ∨
      ∃ session ex, c = .set (.session sid) session ex ∧
        Session.subjectKey session = subjectKey := by
  obtain ⟨session, hlive, hkey⟩ := h
  -- a command that leaves the strings alone
  have hsame : (Store.exec p.now c p.store).2.strings = p.store.strings →
      AliveFor subjectKey p sid := by
    intro heq
    refine ⟨session, ?_, hkey⟩
    rw [← heq]
    exact hlive
  cases c with
  | set key value ex =>
    cases key with
    | session x =>
      by_cases hx : sid = x
      · subst hx
        obtain ⟨e, he, -⟩ := Table.live_eq_some.mp hlive
        have hput : (p.store.strings.put (.session sid) value (some (p.now + ex)))
            (.session sid) = some ⟨session, e⟩ := he
        rw [Table.put_self] at hput
        obtain rfl : value = session := congrArg Entry.value (Option.some.inj hput)
        exact Or.inr ⟨value, ex, rfl, hkey⟩
      · refine Or.inl ⟨⟨session, ?_, hkey⟩, by simp⟩
        rw [← hlive]
        exact (Table.live_put_of_ne _ (by simpa using hx) _ _ _).symm
    | _ => exact hc.elim
  | del key =>
    cases key with
    | session x =>
      obtain ⟨e, he, hl⟩ := Table.live_eq_some.mp hlive
      have herase : (p.store.strings.erase (.session x)) (.session sid) = some ⟨session, e⟩ := he
      have hx : sid ≠ x := by
        rintro rfl
        rw [Table.erase_self] at herase
        cases herase
      rw [Table.erase_of_ne _ (by simpa using hx)] at herase
      exact Or.inl ⟨⟨session, Table.live_eq_some.mpr ⟨e, herase, hl⟩, hkey⟩, by simpa using hx.symm⟩
    | _ => exact hc.elim
  | setNx key value ex => cases key <;> exact hc.elim
  | get key => exact Or.inl ⟨hsame rfl, by simp⟩
  | exist key => exact Or.inl ⟨hsame rfl, by simp⟩
  | smembers key => exact Or.inl ⟨hsame rfl, by simp⟩
  | sadd key m => exact Or.inl ⟨hsame (Store.sadd_strings _ _ _ _), by simp⟩
  | srem key m => exact Or.inl ⟨hsame (Store.srem_strings _ _ _ _), by simp⟩
  | expire key ex => exact Or.inl ⟨hsame (Store.expire_strings _ _ _ _), by simp⟩
  | delSet key => exact Or.inl ⟨hsame rfl, by simp⟩

theorem serve_only (q : SessionRequest) : Prog.Only SessionKeys (store.serve q) := by
  cases q with
  | load sid time => exact (store.load_only sid time).bind fun _ => trivial
  | rotate sid fresh time => exact (store.rotate_only sid fresh time).bind fun _ => trivial
  | elevate sid acr amr fresh time =>
    exact (store.elevate_only sid acr amr fresh time).bind fun _ => trivial
  | terminate subjectKey => exact (store.terminateSubject_only subjectKey).bind fun _ => trivial

/-- **The invariant of timely runs**: once the index is read, every session of the subject
that is alive is doomed. -/
structure Cornered (subjectKey : String) (p : SessionPool) : Prop where
  keys : ∀ th ∈ p.threads, Prog.Only SessionKeys th.rest
  unread : ∀ th ∈ p.threads, th.request = .terminate subjectKey → th.history = [] →
    th.rest = store.serve (.terminate subjectKey)
  doomed : HasRead subjectKey p → ∀ sid, AliveFor subjectKey p sid → Doomed p sid

namespace Cornered

variable {store} {subjectKey : String} {p : SessionPool}

theorem tick (h : store.Cornered subjectKey p) {elapsed : Int} (hd : 0 ≤ elapsed) :
    store.Cornered subjectKey { p with now := p.now + elapsed } := by
  refine ⟨h.keys, h.unread, fun hread sid halive => h.doomed hread sid ?_⟩
  obtain ⟨session, hlive, hkey⟩ := halive
  exact ⟨session, Table.live_antitone (le_add_of_nonneg_right hd) hlive, hkey⟩

theorem spawn (h : store.Cornered subjectKey p) (q : SessionRequest) :
    store.Cornered subjectKey { p with threads := p.threads ++ [⟨q, [], store.serve q⟩] } := by
  refine ⟨fun th hth => ?_, fun th hth hq hh => ?_, fun hread sid halive => ?_⟩
  · rcases List.mem_append.mp hth with hth | hth
    · exact h.keys th hth
    · obtain rfl := List.mem_singleton.mp hth
      exact store.serve_only q
  · rcases List.mem_append.mp hth with hth | hth
    · exact h.unread th hth hq hh
    · obtain rfl := List.mem_singleton.mp hth
      exact congrArg store.serve hq
  · have hread' : HasRead subjectKey p := by
      obtain ⟨th, hth, hq, hh⟩ := hread
      rcases List.mem_append.mp hth with hth | hth
      · exact ⟨th, hth, hq, hh⟩
      · obtain rfl := List.mem_singleton.mp hth
        exact absurd rfl hh
    obtain ⟨th, hth, hsurely⟩ := h.doomed hread' sid halive
    exact ⟨th, List.mem_append_left _ hth, hsurely⟩

theorem mem_fire {i : Nat} {th th' : SessionThread} {c : RedisCmd} {k : Reply c → RedisProg Unit}
    (hi : p.At i th) (h : th' ∈ (p.fire Store.exec i th c k).threads) :
    th' = th.advance p.now c (Store.exec p.now c p.store).1 (k (Store.exec p.now c p.store).1) ∨
      th' ∈ p.threads := by
  obtain ⟨j, hj⟩ := List.getElem?_of_mem h
  rcases (Pool.fire_threads hi).mp hj with ⟨-, hth⟩ | ⟨-, hold⟩
  · exact Or.inl hth
  · exact Or.inr (List.mem_of_getElem? hold)

/-- **One command keeps the invariant.** -/
theorem command (h : store.Cornered subjectKey p) {i : Nat} {th : SessionThread} {c : RedisCmd}
    {k : Reply c → RedisProg Unit} (hi : p.At i th) (hr : th.rest = .call c k)
    (htimely : store.Timely subjectKey p (.advance i)) :
    store.Cornered subjectKey (p.fire Store.exec i th c k) := by
  have hth : th ∈ p.threads := List.mem_of_getElem? hi
  have honly : Prog.Only SessionKeys (.call c k) := hr ▸ h.keys th hth
  refine ⟨fun th' hth' => ?_, fun th' hth' hq hh => ?_, fun hread sid halive => ?_⟩
  · rcases mem_fire hi hth' with rfl | hold
    · exact honly.2 _
    · exact h.keys th' hold
  · rcases mem_fire hi hth' with rfl | hold
    · simp at hh
    · exact h.unread th' hold hq hh
  · -- whoever is doomed before the command is doomed after it, or was just deleted
    have hstays : Doomed p sid → c ≠ .del (.session sid) →
        Doomed (p.fire Store.exec i th c k) sid :=
      fun hdoomed hne => (doomed_fire hi hr hdoomed).resolve_left hne
    by_cases hbefore : HasRead subjectKey p
    · rcases aliveFor_fire honly.1 halive with ⟨hold, hne⟩ | ⟨session, ex, rfl, hkey⟩
      · exact hstays (h.doomed hbefore sid hold) hne
      · exact hstays (htimely.1 _ (Pool.next_eq hi hr) hkey hbefore) (by simp)
    · -- this command is the one that reads the index
      obtain ⟨th', hth', hq, hh⟩ := hread
      rcases mem_fire hi hth' with rfl | hold
      · have hq' : th.request = .terminate subjectKey := hq
        have hempty : th.history = [] := by
          by_contra hne
          exact hbefore ⟨th, hth, hq', hne⟩
        have hrest : .call c k = store.serve (.terminate subjectKey) :=
          hr.symm.trans (h.unread th hth hq' hempty)
        obtain rfl : c = .smembers (store.subjectIndex subjectKey) := by
          injection hrest
        rcases aliveFor_fire honly.1 halive with ⟨hold, hne⟩ | ⟨session, ex, hset, -⟩
        · rcases htimely.2 th hi hq' hempty sid hold with hlisted | hdoomed
          · refine ⟨_, List.mem_of_getElem? ((Pool.fire_threads hi).mpr (Or.inl ⟨rfl, rfl⟩)), ?_⟩
            exact store.terminate_surely subjectKey hlisted hrest.symm
          · exact hstays hdoomed hne
        · cases hset
      · exact absurd ⟨th', hold, hq, hh⟩ hbefore

end Cornered

/-! ## Runs -/

/-- **A termination beats concurrent use, in every timely run.**  Any number of loads,
rotations and elevations, any order of their commands, any expiry: once every call has
finished, no session of the subject is loadable any more. -/
theorem terminated_of_timely {subjectKey : String} {r : Redis} {now : Int}
    {moves : List (Move SessionRequest Int)} {p : SessionPool}
    (h : Run (fun p mv => Possible subjectKey p mv ∧ store.Timely subjectKey p mv)
      store.poolStep ⟨r, now, []⟩ moves p)
    (hstarted : ∃ th ∈ p.threads, th.request = .terminate subjectKey)
    (hdone : ∀ th ∈ p.threads, th.rest = .pure ()) {sid : String} {later : Int}
    (hlater : p.now ≤ later) {session : Session}
    (hload : (Redis.run later (store.load sid later) p.store).1 = some session) :
    session.subjectKey ≠ subjectKey := by
  have hcornered : store.Cornered subjectKey p := by
    refine h.invariant (I := store.Cornered subjectKey) (fun p mv hp ha => ?_)
      ⟨by simp, by simp, by rintro ⟨th, hth, -⟩; cases hth⟩
    refine Pool.step_invariant Store.exec store.serve
      (A := fun p mv => Possible subjectKey p mv ∧ store.Timely subjectKey p mv) ?_ ?_ ?_ p mv hp ha
    · exact fun p elapsed hp ha => hp.tick ha.1
    · exact fun p q hp _ => hp.spawn q
    · exact fun p i th c k hp ha hi hr => hp.command hi hr ha.2
  -- a termination that has finished has read the index
  have hread : HasRead subjectKey p := by
    obtain ⟨th, hth, hq⟩ := hstarted
    refine ⟨th, hth, hq, fun hempty => ?_⟩
    have hrest := hcornered.unread th hth hq hempty
    rw [hdone th hth] at hrest
    cases hrest
  rintro rfl
  have halive : AliveFor session.subjectKey p sid := by
    obtain ⟨found, hlive, -, hfound⟩ := store.load_eq_some hload
    rw [hfound]
    exact ⟨found, Table.live_antitone hlater hlive, rfl⟩
  obtain ⟨th, hth, hsurely⟩ := hcornered.doomed hread sid halive
  rw [hdone th hth] at hsurely
  exact hsurely

theorem timelyRead_of_tracked {subjectKey : String} {p : SessionPool}
    (h : store.Tracked p.store p.now) : store.TimelyRead subjectKey p := by
  rintro sid ⟨session, hlive, rfl⟩
  exact Or.inl (h.mem_index hlive)

/-! ### A session that comes back -/

/-- Redis with one session, of the person `k`. -/
def oneSession : Redis :=
  plainSessions.writtenAt 0 Store.empty (plainSessions.newSession loginOfK "s" 0)

theorem oneSession_tracked : plainSessions.Tracked oneSession 0 :=
  (Tracked.empty 0).writtenAt (le_refl (0 + plainSessions.absolute))

/-- A load that finishes before the termination starts. -/
def loadedBefore : List (Move SessionRequest Int) :=
  [.spawn (.load "s" 0), .advance 0, .advance 0, .advance 0, .advance 0, .spawn (.terminate "k"),
    .advance 1, .advance 1, .advance 1, .advance 1, .advance 1]

theorem loadedBefore_tracked : plainSessions.Tracked
    ((loadedBefore.take 6).foldl plainSessions.poolStep ⟨oneSession, 0, []⟩).store 0 := by
  show plainSessions.Tracked
    (plainSessions.writtenAt 0 oneSession (plainSessions.newSession loginOfK "s" 0)) 0
  exact oneSession_tracked.writtenAt (le_refl (0 + plainSessions.absolute))

theorem not_loadable_of_loadedBefore :
    ((Redis.run 1 (plainSessions.load "s" 1)
      (loadedBefore.foldl plainSessions.poolStep ⟨oneSession, 0, []⟩).store).1.all
        fun session => session.subjectKey ≠ "k") = true := by
  have hrun : Run (fun p mv => Possible "k" p mv ∧ plainSessions.Timely "k" p mv)
      plainSessions.poolStep ⟨oneSession, 0, []⟩ loadedBefore
      (loadedBefore.foldl plainSessions.poolStep ⟨oneSession, 0, []⟩) := by
    have hquiet : ∀ {p : SessionPool} {i : Nat} {th : SessionThread} {c : RedisCmd}
        {k : Reply c → RedisProg Unit}, p.At i th → th.rest = .call c k →
        TimelyWrite "k" p c → (th.request = .terminate "k" → th.history ≠ []) →
        Possible "k" p (.advance i) ∧ plainSessions.Timely "k" p (.advance i) := by
      intro p i th c k hi hr hwrite hread
      refine ⟨trivial, fun c' hc' => ?_, fun th' hi' hq hh => ?_⟩
      · obtain rfl := Option.some.inj ((Pool.next_eq hi hr).symm.trans hc')
        exact hwrite
      · obtain rfl := Option.some.inj (hi.symm.trans hi')
        exact absurd hh (hread hq)
    refine .cons ⟨rfl, trivial⟩ (.cons (hquiet rfl rfl trivial (by simp)) (.cons
      (hquiet rfl rfl ?_ (by simp)) (.cons (hquiet rfl rfl trivial (by simp)) (.cons
      (hquiet rfl rfl trivial (by simp)) (.cons ⟨⟨rfl, ?_⟩, trivial⟩ (.cons ⟨trivial, ?_, ?_⟩
      (.cons (hquiet rfl rfl trivial (by simp)) (.cons (hquiet rfl rfl trivial (by simp)) (.cons
      (hquiet rfl rfl trivial (by simp)) (.cons (hquiet rfl rfl trivial (by simp)) (.nil _)))))))))))
    · rintro - ⟨th, hth, hq, -⟩
      obtain rfl := List.mem_singleton.mp hth
      cases hq
    · intro th hth hq
      obtain rfl := List.mem_singleton.mp hth
      cases hq
    · rintro c ⟨⟩
      trivial
    · exact fun _ _ _ _ => plainSessions.timelyRead_of_tracked loadedBefore_tracked
  rw [Option.all_eq_true]
  intro session hload
  have hdone : ∀ th ∈ (loadedBefore.foldl plainSessions.poolStep ⟨oneSession, 0, []⟩).threads,
      th.rest = .pure () := by
    intro th hth
    rcases List.mem_cons.mp hth with rfl | hth
    · rfl
    · obtain rfl := List.mem_singleton.mp hth
      rfl
  have hlater : (loadedBefore.foldl plainSessions.poolStep ⟨oneSession, 0, []⟩).now ≤ 1 := by
    decide
  have hother := plainSessions.terminated_of_timely hrun
    ⟨_, List.mem_cons_of_mem _ List.mem_cons_self, rfl⟩ hdone hlater hload
  simpa using hother

/-- A load that reads its record before the termination deletes it, and writes it back
afterwards. -/
def loadedAcross : List (Move SessionRequest Int) :=
  [.spawn (.load "s" 0), .advance 1, .advance 0, .advance 0, .advance 0, .advance 0, .advance 0,
    .advance 1, .advance 1, .advance 1]

/-- **A terminated session that is loadable again.** -/
theorem not_terminated :
    ¬ ∀ (store : SessionStore) (subjectKey : String) (r : Redis) (now : Int)
      (moves : List (Move SessionRequest Int)) (p : SessionPool), store.Tracked r now →
      Run (Possible subjectKey) store.poolStep ⟨r, now, []⟩
        (.spawn (.terminate subjectKey) :: moves) p →
      (∀ th ∈ p.threads, th.rest = .pure ()) →
      ∀ sid session, r.strings.live now (.session sid) = some session →
        session.subjectKey = subjectKey → ∀ later, p.now ≤ later →
        (Redis.run later (store.load sid later) p.store).1 = none := by
  intro h
  have hrun : Run (Possible "k") plainSessions.poolStep ⟨oneSession, 0, []⟩
      (.spawn (.terminate "k") :: loadedAcross)
      ((Move.spawn (.terminate "k") :: loadedAcross).foldl plainSessions.poolStep
        ⟨oneSession, 0, []⟩) := by
    refine .cons ⟨rfl, by simp⟩ (.cons rfl ?_)
    repeat' refine .cons trivial ?_
    exact .nil _
  have hfalse := h plainSessions "k" oneSession 0 loadedAcross _ oneSession_tracked hrun ?_ "s"
    (plainSessions.newSession loginOfK "s" 0) (by decide) (by decide) 0 (by decide)
  · exact absurd hfalse (by decide)
  · intro th hth
    rcases List.mem_cons.mp hth with rfl | hth
    · rfl
    · obtain rfl := List.mem_singleton.mp hth
      rfl

end SessionStore

end CampusID
