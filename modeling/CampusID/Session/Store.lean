import CampusID.Cache

/-!
# Browser sessions

`SessionStore`, as programs over the Redis commands.  A session is a record under its
identifier, living for the idle window and rewritten at every load, and a member of
the index of its subject, which lives for the absolute window.

A rotation and an elevation move a session to a fresh identifier: the new record is
written, the old one destroyed, and the index follows.  What else is keyed by the
identifier --- the token families a session produced --- does not.

`now` is the instant a method is called with; a fresh identifier is an argument.
The frame is that every method keeps to `SessionKeys` (`load_only` and its siblings): none touches
a key of the grant store.
-/

namespace CampusID

open Lib

/-- `IDLE_TIMEOUT`: thirty minutes. -/
def idleTimeoutDefault : Int := 30 * 60 * second

/-- `ABSOLUTE_TIMEOUT`: twelve hours. -/
def absoluteTimeoutDefault : Int := 12 * 3600 * second

/-- `SessionStore`: its two timeouts, and the hash of a subject. -/
structure SessionStore where
  idle : Int := idleTimeoutDefault
  absolute : Int := absoluteTimeoutDefault
  sha256 : String → String

/-- What a login supplies when a session is created. -/
structure Login where
  idpEntityId : String
  nameId : String
  nameIdFormat : Option String := none
  authTime : Option Int := none
  acr : Option String := none
  amr : List String := []
  sessionIndex : Option String := none
  attributes : List (String × List String) := []
  personUuid : Option String := none
  impersonatedBy : Option String := none
  deriving DecidableEq, Repr

namespace SessionStore

variable (store : SessionStore)

/-- `_subject_key`. -/
def subjectIndex (subjectKey : String) : SetKey := .subjectIndex (store.sha256 subjectKey)

/-- `_write`. -/
def write (session : Session) (now : Int) : RedisProg Unit := do
  let remaining := session.absoluteExpiry - now
  redis (.set (.session session.sid) session (lifetime (min store.idle remaining)))
  setAdd (store.subjectIndex session.subjectKey) session.sid
  expireKey (store.subjectIndex session.subjectKey) (seconds store.absolute)

/-- The session `create` starts. -/
def newSession (login : Login) (sid : String) (now : Int) : Session where
  sid := sid
  idpEntityId := login.idpEntityId
  nameId := login.nameId
  nameIdFormat := login.nameIdFormat
  authTime := login.authTime.getD now
  createdAt := now
  lastSeenAt := now
  absoluteExpiry := now + store.absolute
  acr := login.acr
  amr := login.amr
  sessionIndex := login.sessionIndex
  attributes := login.attributes
  personUuid := login.personUuid
  impersonatedBy := login.impersonatedBy

/-- `create`. -/
def create (login : Login) (sid : String) (now : Int) : RedisProg Session := do
  store.write (store.newSession login sid now) now
  return store.newSession login sid now

/-- `destroy`. -/
def destroy (sid : String) : RedisProg Unit := do
  let raw : Option Session ← redis (.get (.session sid))
  match raw with
  | some session => setRemove (store.subjectIndex session.subjectKey) sid
  | none => pure ()
  redis (.del (.session sid))

/-- `load`. -/
def load (sid : String) (now : Int) : RedisProg (Option Session) := do
  let raw : Option Session ← redis (.get (.session sid))
  match raw with
  | none => return none
  | some session =>
    if now ≥ session.absoluteExpiry ∨ now - session.lastSeenAt ≥ store.idle then do
      store.destroy sid
      return none
    else do
      let touched := { session with lastSeenAt := now }
      store.write touched now
      return some touched

/-- `rotate` and `elevate` once the session is loaded: write it under its fresh
identifier and destroy the old one. -/
def move (sid : String) (moved : Session) (now : Int) : RedisProg (Option Session) := do
  store.write moved now
  store.destroy sid
  return some moved

/-- `rotate`. -/
def rotate (sid fresh : String) (now : Int) : RedisProg (Option Session) := do
  let session ← store.load sid now
  match session with
  | none => return none
  | some session => store.move sid { session with sid := fresh, lastSeenAt := now } now

/-- `elevate`. -/
def elevate (sid : String) (acr : String) (amr : List String) (fresh : String) (now : Int) :
    RedisProg (Option Session) := do
  let session ← store.load sid now
  match session with
  | none => return none
  | some session =>
    store.move sid { session with
      sid := fresh, acr := some acr, amr := amr, authTime := now, lastSeenAt := now } now

/-- `sids_for`. -/
def sidsFor (subjectKey : String) : RedisProg (List String) :=
  setMembers (store.subjectIndex subjectKey)

/-- `terminate_subject`. -/
def terminateSubject (subjectKey : String) : RedisProg (List String) := do
  let sids ← store.sidsFor subjectKey
  Prog.forEach store.destroy sids
  redis (.delSet (store.subjectIndex subjectKey))
  return sids

/-! ## What the store may touch -/

/-- The commands on sessions and their indexes. -/
def SessionKeys : RedisCmd → Prop
  | .get (.session _) | .set (.session _) _ _ | .del (.session _) => True
  | .sadd (.subjectIndex _) _ | .srem (.subjectIndex _) _ => True
  | .smembers (.subjectIndex _) | .expire (.subjectIndex _) _ | .delSet (.subjectIndex _) => True
  | _ => False

theorem write_only (session : Session) (now : Int) :
    Prog.Only SessionKeys (store.write session now) :=
  ⟨trivial, fun _ => ⟨trivial, fun _ => ⟨trivial, fun _ => trivial⟩⟩⟩

theorem destroy_only (sid : String) : Prog.Only SessionKeys (store.destroy sid) := by
  refine ⟨trivial, fun raw => ?_⟩
  cases raw with
  | none => exact ⟨trivial, fun _ => trivial⟩
  | some session => exact ⟨trivial, fun _ => ⟨trivial, fun _ => trivial⟩⟩

theorem create_only (login : Login) (sid : String) (now : Int) :
    Prog.Only SessionKeys (store.create login sid now) :=
  (store.write_only _ now).bind fun _ => trivial

theorem load_only (sid : String) (now : Int) : Prog.Only SessionKeys (store.load sid now) := by
  refine ⟨trivial, fun raw => ?_⟩
  cases raw with
  | none => trivial
  | some session =>
    show Prog.Only SessionKeys (ite _ _ _)
    split_ifs
    · exact (store.destroy_only sid).bind fun _ => trivial
    · exact (store.write_only _ now).bind fun _ => trivial

theorem move_only (sid : String) (moved : Session) (now : Int) :
    Prog.Only SessionKeys (store.move sid moved now) :=
  (store.write_only moved now).bind fun _ => (store.destroy_only sid).bind fun _ => trivial

theorem rotate_only (sid fresh : String) (now : Int) :
    Prog.Only SessionKeys (store.rotate sid fresh now) := by
  refine (store.load_only sid now).bind fun session => ?_
  cases session with
  | none => trivial
  | some session => exact store.move_only _ _ _

theorem elevate_only (sid acr : String) (amr : List String) (fresh : String) (now : Int) :
    Prog.Only SessionKeys (store.elevate sid acr amr fresh now) := by
  refine (store.load_only sid now).bind fun session => ?_
  cases session with
  | none => trivial
  | some session => exact store.move_only _ _ _

theorem terminateSubject_only (subjectKey : String) :
    Prog.Only SessionKeys (store.terminateSubject subjectKey) := by
  refine Prog.Only.bind ⟨trivial, fun _ => trivial⟩ fun sids => ?_
  refine Prog.Only.bind (Prog.Only.forEach store.destroy_only sids) fun _ => ?_
  exact ⟨trivial, fun _ => trivial⟩

/-- A store that agrees on everything but sessions and their indexes. -/
structure SameGrants (r r' : Redis) : Prop where
  strings : ∀ k, (∀ sid, k ≠ .session sid) → r'.strings k = r.strings k
  sets : ∀ sid, r'.sets (.sessionFamilies sid) = r.sets (.sessionFamilies sid)

theorem SameGrants.refl (r : Redis) : SameGrants r r := ⟨fun _ _ => rfl, fun _ => rfl⟩

theorem exec_sameGrants {now : Int} {c : RedisCmd} (hc : SessionKeys c) {r₀ r : Redis}
    (h : SameGrants r₀ r) : SameGrants r₀ (Store.exec now c r).2 := by
  cases c with
  | get k => exact h
  | exist k => exact h
  | smembers s => exact h
  | set k v ex =>
    cases k with
    | session sid =>
      refine ⟨fun k' hk' => ?_, h.sets⟩
      rw [Store.exec_set, Store.write_strings, Table.put_of_ne _ (hk' sid)]
      exact h.strings k' hk'
    | _ => exact hc.elim
  | setNx k v ex => cases k <;> exact hc.elim
  | del k =>
    cases k with
    | session sid =>
      refine ⟨fun k' hk' => ?_, h.sets⟩
      rw [Store.exec_del]
      exact (Table.erase_of_ne _ (hk' sid)).trans (h.strings k' hk')
    | _ => exact hc.elim
  | sadd s m =>
    cases s with
    | sessionFamilies sid => exact hc.elim
    | subjectIndex d =>
      refine ⟨fun k' hk' => ?_, fun sid => ?_⟩
      · rw [Store.exec_sadd, Store.sadd_strings]
        exact h.strings k' hk'
      · rw [Store.exec_sadd, Store.sadd_sets_of_ne _ _ (by simp)]
        exact h.sets sid
  | srem s m =>
    cases s with
    | sessionFamilies sid => exact hc.elim
    | subjectIndex d =>
      refine ⟨fun k' hk' => ?_, fun sid => ?_⟩
      · rw [Store.exec_srem, Store.srem_strings]
        exact h.strings k' hk'
      · rw [Store.exec_srem, Store.srem_sets_of_ne _ _ (by simp)]
        exact h.sets sid
  | expire s ex =>
    cases s with
    | sessionFamilies sid => exact hc.elim
    | subjectIndex d =>
      refine ⟨fun k' hk' => ?_, fun sid => ?_⟩
      · rw [Store.exec_expire, Store.expire_strings]
        exact h.strings k' hk'
      · rw [Store.exec_expire, Store.expire_sets_of_ne _ _ (by simp)]
        exact h.sets sid
  | delSet s =>
    cases s with
    | sessionFamilies sid => exact hc.elim
    | subjectIndex d =>
      refine ⟨h.strings, fun sid => ?_⟩
      rw [Store.exec_delSet]
      have hne : SetKey.sessionFamilies sid ≠ .subjectIndex d := by simp
      exact (Table.erase_of_ne _ hne).trans (h.sets sid)

/-- **No method of the session store touches a key of the grant store.** -/
theorem run_sameGrants {α : Type} {p : RedisProg α} (hp : Prog.Only SessionKeys p) (now : Int)
    (r : Redis) : SameGrants r (Redis.run now p r).2 :=
  Prog.run_preserves (I := SameGrants r) (fun _ _ hc hs => exec_sameGrants hc hs) hp
    (SameGrants.refl r)

end SessionStore

end CampusID
