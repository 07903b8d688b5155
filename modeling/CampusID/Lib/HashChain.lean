import Mathlib.Data.List.Induction
import Mathlib.Data.Set.Function

/-!
# What the head of a hash chain commits to

Bodies are chained by hashing each of them joined to the digest before it.  The head is the last
digest.  `eq_of_head_eq` is the commitment: two chains of one length with one head have the same
bodies, and started at the same digest, provided that the join is unambiguous and that no two of
the texts hashed on the way collide.  No function from texts to digests is without collisions on
all texts, which is why the texts hashed are named: `hashed`.
-/

namespace CampusID
namespace Lib
namespace HashChain

variable {D B M : Type*} (hash : M → D) (join : D → B → M)

/-- The digest a chain of bodies ends on. -/
def head (start : D) (bodies : List B) : D :=
  bodies.foldl (fun digest body => hash (join digest body)) start

/-- What is hashed on the way. -/
def hashed (start : D) : List B → List M
  | [] => []
  | body :: bodies => join start body :: hashed (hash (join start body)) bodies

@[simp] theorem head_nil (start : D) : head hash join start [] = start := rfl

@[simp] theorem head_cons (start : D) (body : B) (bodies : List B) :
    head hash join start (body :: bodies) = head hash join (hash (join start body)) bodies := rfl

theorem head_append_singleton (start : D) (bodies : List B) (body : B) :
    head hash join start (bodies ++ [body]) =
      hash (join (head hash join start bodies) body) := by
  simp [head]

theorem hashed_append_singleton (start : D) (bodies : List B) (body : B) :
    hashed hash join start (bodies ++ [body]) =
      hashed hash join start bodies ++ [join (head hash join start bodies) body] := by
  induction bodies generalizing start with
  | nil => rfl
  | cons b bodies ih => simp [hashed, ih]

variable {hash join}

/-- **The head commits to the chain.**  By induction from the last body: its digest gives it and
the digest before it. -/
theorem eq_of_head_eq (hjoin : Function.Injective2 join) {start start' : D} {as bs : List B}
    (hfree : Set.InjOn hash {m | m ∈ hashed hash join start as ∨ m ∈ hashed hash join start' bs})
    (hlength : as.length = bs.length) (hhead : head hash join start as = head hash join start' bs) :
    start = start' ∧ as = bs := by
  induction as using List.reverseRecOn generalizing bs with
  | nil =>
    obtain rfl := List.length_eq_zero_iff.mp hlength.symm
    exact ⟨hhead, rfl⟩
  | append_singleton as a ih =>
    cases bs using List.reverseRecOn with
    | nil => simp at hlength
    | append_singleton bs b =>
      simp only [List.length_append, List.length_singleton, Nat.add_right_cancel_iff] at hlength
      simp only [hashed_append_singleton, List.mem_append, List.mem_singleton] at hfree
      rw [head_append_singleton, head_append_singleton] at hhead
      have hlast := hfree (.inl (.inr rfl)) (.inr (.inr rfl)) hhead
      obtain ⟨hbefore, rfl⟩ := hjoin hlast
      obtain ⟨hstart, rfl⟩ := ih (hfree.mono fun m hm => hm.imp .inl .inl) hlength hbefore
      exact ⟨hstart, rfl⟩

end HashChain
end Lib
end CampusID
