import CampusID.Lib.AtomicPrograms
import CampusID.Lib.Expiry

/-!
# A Redis-like store and its commands

The part of Redis a client program rests on: string keys written with a time to
live, conditional writes, and sets with a time to live of their own.  Every
command is one atomic step at one instant.

Two details carry weight in arguments about time and are kept exactly.

* `SADD` creates a missing set *without* an expiry, and leaves the expiry of an
  existing one alone; only `EXPIRE` sets it.
* `SREM` of the last member deletes the set, and its expiry with it.

String keys and set keys are two types, and the value type of a string key
depends on the key, so a command can never meet a value of the wrong kind.
-/

namespace CampusID
namespace Lib

/-- The contents of the store: string keys and set keys, each with expiries. -/
structure Store (K : Type) (V : K → Type) (S M T : Type) where
  strings : Table K V T
  sets : Table S (fun _ => List M) T

/-- The commands.  A time to live is given as a duration. -/
inductive Cmd (K : Type) (V : K → Type) (S M T : Type) where
  | get (k : K)
  | set (k : K) (v : V k) (ex : T)
  | setNx (k : K) (v : V k) (ex : T)
  | exist (k : K)
  | del (k : K)
  | sadd (s : S) (m : M)
  | srem (s : S) (m : M)
  | smembers (s : S)
  | expire (s : S) (ex : T)
  | delSet (s : S)

/-- What a command answers. -/
abbrev Reply {K : Type} {V : K → Type} {S M T : Type} : Cmd K V S M T → Type
  | .get k => Option (V k)
  | .setNx _ _ _ => Bool
  | .exist _ => Bool
  | .smembers _ => List M
  | .set _ _ _ => Unit
  | .del _ => Unit
  | .sadd _ _ => Unit
  | .srem _ _ => Unit
  | .expire _ _ => Unit
  | .delSet _ => Unit

namespace Store

variable {K : Type} {V : K → Type} {S M T : Type}

/-- The empty store. -/
def empty : Store K V S M T := ⟨Table.empty, Table.empty⟩

section Reading

variable [LinearOrder T]

/-- The members of a set as a reader at `now` finds them. -/
def members (st : Store K V S M T) (now : T) (s : S) : List M := (st.sets.live now s).getD []

theorem mem_members {st : Store K V S M T} {now : T} {s : S} {m : M} :
    m ∈ st.members now s ↔ ∃ ms, st.sets.live now s = some ms ∧ m ∈ ms := by
  unfold members
  cases st.sets.live now s <;> simp

end Reading

section Writing

variable [DecidableEq K] [DecidableEq S]

/-- Write a string key. -/
def write (st : Store K V S M T) (k : K) (v : V k) (x : Option T) : Store K V S M T :=
  { st with strings := st.strings.put k v x }

/-- Write a set key. -/
def writeSet (st : Store K V S M T) (s : S) (ms : List M) (x : Option T) : Store K V S M T :=
  { st with sets := st.sets.put s ms x }

omit [DecidableEq S] in
@[simp] theorem write_strings (st : Store K V S M T) (k : K) (v : V k) (x : Option T) :
    (st.write k v x).strings = st.strings.put k v x := rfl

omit [DecidableEq S] in
@[simp] theorem write_sets (st : Store K V S M T) (k : K) (v : V k) (x : Option T) :
    (st.write k v x).sets = st.sets := rfl

omit [DecidableEq K] in
@[simp] theorem writeSet_strings (st : Store K V S M T) (s : S) (ms : List M) (x : Option T) :
    (st.writeSet s ms x).strings = st.strings := rfl

omit [DecidableEq K] in
@[simp] theorem writeSet_sets (st : Store K V S M T) (s : S) (ms : List M) (x : Option T) :
    (st.writeSet s ms x).sets = st.sets.put s ms x := rfl

variable [LinearOrder T] [Add T] [DecidableEq M]

/-- `SADD`: into a live set, keeping its expiry; otherwise into a new one that
has none. -/
def sadd (st : Store K V S M T) (now : T) (s : S) (m : M) : Store K V S M T :=
  match st.sets s with
  | some e =>
    if e.Live now then st.writeSet s (if m ∈ e.value then e.value else e.value ++ [m]) e.expiry
    else st.writeSet s [m] none
  | none => st.writeSet s [m] none

/-- `SREM`: out of a live set, deleting it when nothing is left. -/
def srem (st : Store K V S M T) (now : T) (s : S) (m : M) : Store K V S M T :=
  match st.sets s with
  | some e =>
    if e.Live now then
      if e.value.filter (· ≠ m) = [] then { st with sets := st.sets.erase s }
      else st.writeSet s (e.value.filter (· ≠ m)) e.expiry
    else st
  | none => st

/-- `EXPIRE`: on a live set only. -/
def expire (st : Store K V S M T) (now : T) (s : S) (ex : T) : Store K V S M T :=
  match st.sets s with
  | some e => if e.Live now then st.writeSet s e.value (some (now + ex)) else st
  | none => st

/-- One command, executed at the instant `now`. -/
def exec (now : T) : (c : Cmd K V S M T) → Store K V S M T → Reply c × Store K V S M T
  | .get k, st => (st.strings.live now k, st)
  | .set k v ex, st => ((), st.write k v (some (now + ex)))
  | .setNx k v ex, st =>
    if (st.strings.live now k).isNone then (true, st.write k v (some (now + ex)))
    else (false, st)
  | .exist k, st => ((st.strings.live now k).isSome, st)
  | .del k, st => ((), { st with strings := st.strings.erase k })
  | .sadd s m, st => ((), st.sadd now s m)
  | .srem s m, st => ((), st.srem now s m)
  | .smembers s, st => (st.members now s, st)
  | .expire s ex, st => ((), st.expire now s ex)
  | .delSet s, st => ((), { st with sets := st.sets.erase s })

@[simp] theorem exec_get (now : T) (k : K) (st : Store K V S M T) :
    exec now (.get k) st = (st.strings.live now k, st) := rfl

@[simp] theorem exec_set (now : T) (k : K) (v : V k) (ex : T) (st : Store K V S M T) :
    exec now (.set k v ex) st = ((), st.write k v (some (now + ex))) := rfl

@[simp] theorem exec_exist (now : T) (k : K) (st : Store K V S M T) :
    exec now (.exist k) st = ((st.strings.live now k).isSome, st) := rfl

@[simp] theorem exec_del (now : T) (k : K) (st : Store K V S M T) :
    exec now (.del k) st = ((), { st with strings := st.strings.erase k }) := rfl

@[simp] theorem exec_sadd (now : T) (s : S) (m : M) (st : Store K V S M T) :
    exec now (.sadd s m) st = ((), st.sadd now s m) := rfl

@[simp] theorem exec_srem (now : T) (s : S) (m : M) (st : Store K V S M T) :
    exec now (.srem s m) st = ((), st.srem now s m) := rfl

@[simp] theorem exec_smembers (now : T) (s : S) (st : Store K V S M T) :
    exec now (.smembers s) st = (st.members now s, st) := rfl

@[simp] theorem exec_expire (now : T) (s : S) (ex : T) (st : Store K V S M T) :
    exec now (.expire s ex) st = ((), st.expire now s ex) := rfl

@[simp] theorem exec_delSet (now : T) (s : S) (st : Store K V S M T) :
    exec now (.delSet s) st = ((), { st with sets := st.sets.erase s }) := rfl

/-- **`SET NX` on a key that is not there writes it.** -/
theorem exec_setNx_of_none {now : T} {k : K} {st : Store K V S M T}
    (h : st.strings.live now k = none) (v : V k) (ex : T) :
    exec now (.setNx k v ex) st = (true, st.write k v (some (now + ex))) := by
  show (if (st.strings.live now k).isNone then _ else _) = _
  rw [h]
  rfl

/-- **`SET NX` on a live key changes nothing.** -/
theorem exec_setNx_of_some {now : T} {k : K} {st : Store K V S M T} {w : V k}
    (h : st.strings.live now k = some w) (v : V k) (ex : T) :
    exec now (.setNx k v ex) st = (false, st) := by
  show (if (st.strings.live now k).isNone then _ else _) = _
  rw [h]
  rfl

omit [DecidableEq K] [Add T] in
@[simp] theorem sadd_strings (st : Store K V S M T) (now : T) (s : S) (m : M) :
    (st.sadd now s m).strings = st.strings := by
  unfold sadd
  split
  · split <;> rfl
  · rfl

omit [DecidableEq K] [Add T] in
@[simp] theorem srem_strings (st : Store K V S M T) (now : T) (s : S) (m : M) :
    (st.srem now s m).strings = st.strings := by
  unfold srem
  split
  · split_ifs <;> rfl
  · rfl

omit [DecidableEq K] [DecidableEq M] in
@[simp] theorem expire_strings (st : Store K V S M T) (now : T) (s : S) (ex : T) :
    (st.expire now s ex).strings = st.strings := by
  unfold expire
  split
  · split_ifs <;> rfl
  · rfl

omit [DecidableEq K] [Add T] in
theorem sadd_sets_of_ne (st : Store K V S M T) (now : T) {s s' : S} (h : s' ≠ s) (m : M) :
    (st.sadd now s m).sets s' = st.sets s' := by
  unfold sadd
  split
  · split_ifs <;> simp [Table.put_of_ne _ h]
  · simp [Table.put_of_ne _ h]

omit [DecidableEq K] [Add T] in
theorem srem_sets_of_ne (st : Store K V S M T) (now : T) {s s' : S} (h : s' ≠ s) (m : M) :
    (st.srem now s m).sets s' = st.sets s' := by
  unfold srem
  split
  · split_ifs <;> simp [Table.put_of_ne _ h, Table.erase_of_ne _ h]
  · rfl

omit [DecidableEq K] [DecidableEq M] in
theorem expire_sets_of_ne (st : Store K V S M T) (now : T) {s s' : S} (h : s' ≠ s) (ex : T) :
    (st.expire now s ex).sets s' = st.sets s' := by
  unfold expire
  split
  · split_ifs <;> simp [Table.put_of_ne _ h]
  · rfl

omit [DecidableEq K] in
/-- `SADD` followed by `EXPIRE`: the set is there until the new instant, with the new
member and whoever was in it. -/
theorem sadd_expire_sets (st : Store K V S M T) (now : T) (s : S) (m : M) (ex : T) :
    ∃ ms, ((st.sadd now s m).expire now s ex).sets s = some ⟨ms, some (now + ex)⟩ ∧ m ∈ ms ∧
      ∀ x ∈ st.members now s, x ∈ ms := by
  -- either way `SADD` leaves a live set
  have hadd : ∃ ms x, (st.sadd now s m).sets s = some ⟨ms, x⟩ ∧ (⟨ms, x⟩ : Entry T _).Live now ∧
      m ∈ ms ∧ ∀ x ∈ st.members now s, x ∈ ms := by
    unfold sadd
    cases hs : st.sets s with
    | none => exact ⟨[m], none, by simp, by simp, by simp, by simp [members, Table.live, hs]⟩
    | some e =>
      by_cases hl : e.Live now
      · refine ⟨if m ∈ e.value then e.value else e.value ++ [m], e.expiry, by simp [hl], hl, ?_,
          fun x hx => ?_⟩
        · split_ifs with hm
          · exact hm
          · simp
        · have hx' : x ∈ e.value := by simpa [members, Table.live, hs, hl] using hx
          split_ifs
          · exact hx'
          · exact List.mem_append_left _ hx'
      · exact ⟨[m], none, by simp [hl], by simp, by simp, by simp [members, Table.live, hs, hl]⟩
  obtain ⟨ms, x, hsets, hlive, hm, hmem⟩ := hadd
  exact ⟨ms, by simp [expire, hsets, hlive], hm, hmem⟩

omit [DecidableEq K] [Add T] in
/-- `SREM` keeps every other member of every set, and the set's expiry. -/
theorem mem_srem_sets {st : Store K V S M T} {s s' : S} {ms : List M} {u : Option T} {m x : M}
    (h : st.sets s' = some ⟨ms, u⟩) (hx : x ∈ ms) (hne : x ≠ m) (now : T) :
    ∃ ms', (st.srem now s m).sets s' = some ⟨ms', u⟩ ∧ x ∈ ms' := by
  by_cases hs : s' = s
  · subst hs
    have hf : x ∈ ms.filter (· ≠ m) := by simp [hx, hne]
    unfold srem
    rw [h]
    dsimp only
    split_ifs with hl hnil
    · rw [hnil] at hf
      cases hf
    · exact ⟨_, by simp, hf⟩
    · exact ⟨ms, h, hx⟩
  · exact ⟨ms, by rw [srem_sets_of_ne _ _ hs, h], hx⟩

end Writing

end Store

end Lib
end CampusID
