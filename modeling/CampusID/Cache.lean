import CampusID.Lib.Redis
import Mathlib.Data.List.Sort
import Mathlib.Data.String.Basic

/-!
# What the broker keeps in Redis

One Redis carries the authorization codes, the refresh tokens, the markers that
say a credential was spent or a family revoked, the browser sessions, and two
indexes: which families a session produced, and which sessions a person has.

The source addresses all of it by strings, a fixed text followed by a digest or
an identifier.  Here a key is its kind and its name kept apart, so that two keys
of different kinds are different by construction and each kind stores one type of
value.  Every text ends in a colon and the names the broker generates contain none.

Instants and durations are whole microseconds, which is what a `datetime` and a
`timedelta` hold.  Records are stored as values: their JSON form is written and
read back only by the code that owns them.
-/

namespace CampusID

open Lib

/-- One second, in the microseconds every instant and duration is counted in. -/
def second : Int := 1000000

/-- `_seconds`: a time to live as Redis takes it, whole seconds and at least one. -/
def seconds (ttl : Int) : Int := max (ttl.tdiv second) 1

/-- The duration a key written with `ex=_seconds(ttl)` lives. -/
def lifetime (ttl : Int) : Int := seconds ttl * second

theorem lifetime_pos (ttl : Int) : 0 < lifetime ttl := by
  have h1 : 1 ≤ seconds ttl := le_max_right _ _
  have h2 : (0 : Int) < second := by decide
  exact Int.mul_pos (lt_of_lt_of_le Int.zero_lt_one h1) h2

/-! ## The records -/

/-- `AuthorizationCode`: what was authorised, held between the authorization and
the token endpoint. -/
structure AuthorizationCode where
  clientId : String
  redirectUri : String
  codeChallenge : String
  scopes : List String
  subject : String
  sid : String
  familyId : String
  nonce : Option String := none
  authTime : Option Int := none
  acr : Option String := none
  amr : List String := []
  deriving DecidableEq, Repr

/-- `RefreshToken`: what it may be exchanged for, and its lineage. -/
structure RefreshToken where
  clientId : String
  scopes : List String
  subject : String
  sid : String
  familyId : String
  generation : Nat
  issuedAt : Int
  deriving DecidableEq, Repr

/-- `Session`: an authenticated browser session. -/
structure Session where
  sid : String
  idpEntityId : String
  nameId : String
  nameIdFormat : Option String
  authTime : Int
  createdAt : Int
  lastSeenAt : Int
  absoluteExpiry : Int
  acr : Option String := none
  amr : List String := []
  sessionIndex : Option String := none
  attributes : List (String × List String) := []
  personUuid : Option String := none
  impersonatedBy : Option String := none
  deriving DecidableEq, Repr

/-- `Session.subject_key`: the person when there is one, else the pair of IdP and
NameID.  An empty person is no person. -/
def Session.subjectKey (s : Session) : String :=
  match s.personUuid with
  | some p => if p = "" then s.idpEntityId ++ "|" ++ s.nameId else p
  | none => s.idpEntityId ++ "|" ++ s.nameId

/-! ## The keys -/

/-- A key holding one value.  The argument is the digest, family or session id
that follows the fixed text. -/
inductive Key where
  | code (digest : String)
  | codeSpent (digest : String)
  | refresh (digest : String)
  | refreshSpent (digest : String)
  | familyRevoked (familyId : String)
  | session (sid : String)
  deriving DecidableEq, Repr

/-- A key holding a set of strings. -/
inductive SetKey where
  | sessionFamilies (sid : String)
  | subjectIndex (digest : String)
  deriving DecidableEq, Repr

/-- What is stored under a key.  A marker is the string `"1"`, which carries no
information beyond being there. -/
abbrev Key.Value : Key → Type
  | .code _ => AuthorizationCode
  | .refresh _ => RefreshToken
  | .session _ => Session
  | .codeSpent _ => Unit
  | .refreshSpent _ => Unit
  | .familyRevoked _ => Unit

/-! ## The commands -/

/-- The broker's Redis. -/
abbrev Redis := Store Key Key.Value SetKey String Int

/-- The Redis commands. -/
abbrev RedisCmd := Cmd Key Key.Value SetKey String Int

/-- A program over the Redis commands. -/
abbrev RedisProg := Prog RedisCmd Reply

namespace Redis

/-- Run a program against Redis at the instant `now`. -/
def run {α : Type} (now : Int) (p : RedisProg α) (r : Redis) : α × Redis :=
  Prog.run (Store.exec now) p r

/-- The program executes this command when run at `now`. -/
def Issues {α : Type} (now : Int) (p : RedisProg α) (r : Redis) (c : RedisCmd) : Prop :=
  Prog.Issues (Store.exec now) p r c

end Redis

/-- One Redis command on its own. -/
abbrev redis (c : RedisCmd) : RedisProg (Reply c) := Prog.send c

/-- `set_add`. -/
def setAdd (key : SetKey) (member : String) : RedisProg Unit := redis (.sadd key member)

/-- `set_remove`. -/
def setRemove (key : SetKey) (member : String) : RedisProg Unit := redis (.srem key member)

/-- `set_members`: sorted, so callers get a stable order. -/
def setMembers (key : SetKey) : RedisProg (List String) :=
  (redis (.smembers key)).bind fun members : List String =>
    .pure (members.insertionSort (· ≤ ·))

/-- `expire_key`, in whole seconds. -/
def expireKey (key : SetKey) (secs : Int) : RedisProg Unit :=
  redis (.expire key (secs * second))

end CampusID
