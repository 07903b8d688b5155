import CampusID.Lib.Expiry
import CampusID.Lib.Runs

/-!
# Values that a read takes away

A table whose calls make one access each, or none: a write with a time to live, or a read that
deletes what it finds.  `live_foldl_iff` says what is there after any calls: what the last call
about the key wrote, if it wrote and its time is not over.
-/

namespace CampusID
namespace Lib

/-- `SET key value EX ex` at an instant, or `GETDEL key`. -/
inductive Access (K V T : Type) where
  | put (now : T) (key : K) (value : V) (ex : T)
  | take (key : K)

namespace Access

variable {K V T : Type}

/-- The key of an access. -/
def key : Access K V T → K
  | .put _ key _ _ => key
  | .take key => key

/-- What an access leaves there. -/
def left [Add T] : Access K V T → Option (Entry T V)
  | .put now _ value ex => some ⟨value, some (now + ex)⟩
  | .take _ => none

end Access

namespace Table

variable {K V T O : Type} [DecidableEq K] (access : O → Option (Access K V T))

/-- The call is about this key. -/
def about (k : K) (o : O) : Bool := (access o).any (·.key = k)

variable [Add T]

/-- The table after a call. -/
def afterCall (m : Table K (fun _ => V) T) (o : O) : Table K (fun _ => V) T :=
  match access o with
  | none => m
  | some a => Function.update m a.key a.left

theorem afterCall_apply (m : Table K (fun _ => V) T) (o : O) (k : K) :
    afterCall access m o k =
      if about access k o then (access o).bind Access.left else m k := by
  unfold afterCall about
  cases access o with
  | none => simp
  | some a =>
    by_cases hkey : k = a.key
    · simp [hkey]
    · simp [hkey, Ne.symm hkey]

/-- **What is there after any calls.** -/
theorem live_foldl_iff [LinearOrder T] {calls : List O} {now : T} {k : K} {v : V} :
    (calls.foldl (afterCall access) empty).live now k = some v ↔
      ∃ o writtenAt ex, (calls.filter (about access k)).getLast? = some o ∧
        access o = some (.put writtenAt k v ex) ∧ now < writtenAt + ex := by
  have hread := Run.read_foldl (fun m => m k) (about access k) (fun o => (access o).bind Access.left)
    (fun m o => afterCall_apply access m o k) empty calls
  have habout : ∀ o ∈ (calls.filter (about access k)).getLast?, about access k o :=
    fun o ho => (List.mem_filter.mp (List.mem_of_getLast? ho)).2
  simp only [live, hread]
  generalize (calls.filter (about access k)).getLast? = last at habout ⊢
  cases last with
  | none => simp
  | some o =>
    have hkey := habout o rfl
    unfold about at hkey
    cases haccess : access o with
    | none => simp [haccess]
    | some a =>
      cases a with
      | take key => simp [haccess, Access.left]
      | put writtenAt key value ex =>
        rw [haccess] at hkey
        obtain rfl : key = k := of_decide_eq_true hkey
        simp [haccess, Access.left, and_comm]

end Table

end Lib
end CampusID
