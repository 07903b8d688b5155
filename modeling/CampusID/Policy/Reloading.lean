import CampusID.Policy.FileStore

/-!
# Does a store follow its file?

`reload` reads the file and takes its time afterwards, so a write that comes in between is marked as
loaded and never read (`ignores_write`): `PolicyStore` takes the time first.

`follows_of_undisturbed` says which runs are followed: those in which a reload that takes the time
finds nothing valid in the file but what the store holds, in which nothing makes the load raise, and
in which what is rejected comes after something that was loaded.
-/

namespace CampusID
namespace Policy

open Authz (PolicySet)
open Lib

variable {V C T : Type}

/-- What a step needs of the store. -/
def FileCmd.Undisturbed (parse : C → Loaded V) (s : FileStore V C T) : FileCmd C T → Prop
  | .mark =>
    match parse s.file.content with
    | .accepted value => s.current = value
    | _ => True
  | .load =>
    match parse s.file.content with
    | .accepted _ => True
    | .rejected => s.fingerprint ≠ none
    | .raised => False
  | _ => True

/-- **Nothing valid is written between a load and its mark**, and what is loaded is valid, or is
rejected after something was loaded. -/
def Undisturbed (parse : C → Loaded V) (p : FilePool V C T) : Move (FileCall C T) Int → Prop
  | .advance i => ∀ c ∈ p.next i, c.Dated p.store.file ∧ c.Undisturbed parse p.store
  | _ => True

section Decidable

variable [DecidableEq V] [DecidableEq T]

instance (parse : C → Loaded V) (s : FileStore V C T) :
    (c : FileCmd C T) → Decidable (c.Undisturbed parse s)
  | .mark =>
    match h : parse s.file.content with
    | .accepted value => decidable_of_iff (s.current = value) (by simp [FileCmd.Undisturbed, h])
    | .rejected => .isTrue (by simp [FileCmd.Undisturbed, h])
    | .raised => .isTrue (by simp [FileCmd.Undisturbed, h])
  | .load =>
    match h : parse s.file.content with
    | .accepted _ => .isTrue (by simp [FileCmd.Undisturbed, h])
    | .rejected => decidable_of_iff (s.fingerprint ≠ none) (by simp [FileCmd.Undisturbed, h])
    | .raised => .isFalse (by simp [FileCmd.Undisturbed, h])
  | .write _ _ => .isTrue trivial
  | .changed => .isTrue trivial
  | .answer => .isTrue trivial

instance (parse : C → Loaded V) (p : FilePool V C T) :
    (mv : Move (FileCall C T) Int) → Decidable (Undisturbed parse p mv)
  | .advance i => inferInstanceAs (Decidable
      (∀ c ∈ p.next i, c.Dated p.store.file ∧ c.Undisturbed parse p.store))
  | .tick _ => .isTrue trivial
  | .spawn _ => .isTrue trivial

end Decidable

/-! ## Where a call is -/

/-- What follows the reload of a call. -/
def FileCall.rest : FileCall C T → FileProgram V C T (FileOutcome V)
  | .current => answer
  | _ => return .done

/-- Where a call is: `loaded` if it is about to mark, `fresh` if it is about to answer, and with an
outcome that `Ends` admits if it has ended. -/
inductive Stage (loaded fresh : Prop) (Ends : FileOutcome V → Prop) (call : FileCall C T) :
    FileProgram V C T (FileOutcome V) → Prop
  | begun : Stage loaded fresh Ends call call.program
  | loading : Stage loaded fresh Ends call (reload call.rest)
  | marking (value : V) : loaded → Stage loaded fresh Ends call (afterLoad call.rest (.accepted value))
  | answering : fresh → Stage loaded fresh Ends call answer
  | ended (outcome : FileOutcome V) : Ends outcome → Stage loaded fresh Ends call (.pure outcome)

section Stages

variable {loaded fresh loaded' fresh' : Prop} {Ends Ends' : FileOutcome V → Prop}
  {call : FileCall C T} {program : FileProgram V C T (FileOutcome V)}

theorem Stage.mono (h : Stage loaded fresh Ends call program) (hloaded : loaded → loaded')
    (hfresh : fresh → fresh') (hends : ∀ outcome, Ends outcome → Ends' outcome) :
    Stage loaded' fresh' Ends' call program := by
  cases h with
  | begun => exact .begun
  | loading => exact .loading
  | marking value h => exact .marking value (hloaded h)
  | answering h => exact .answering (hfresh h)
  | ended outcome h => exact .ended outcome (hends outcome h)

theorem Stage.rest (hfresh : call = .current → fresh) (hdone : call ≠ .current → Ends .done) :
    Stage loaded fresh Ends call (call.rest : FileProgram V C T (FileOutcome V)) := by
  cases call with
  | write content mtime => exact .ended .done (hdone (by simp))
  | reload => exact .ended .done (hdone (by simp))
  | current => exact .answering (hfresh rfl)

/-- **What a step makes of where a call is.** -/
theorem Stage.step [DecidableEq T] {parse : C → Loaded V} {s : FileStore V C T} {now : Int}
    {c : FileCmd C T} {k : c.Reply V → FileProgram V C T (FileOutcome V)}
    (h : Stage loaded fresh Ends call program) (hc : program = .call c k)
    (hdone : call ≠ .current → Ends' .done)
    (hunchanged : c = .changed → some s.file.mtime = s.fingerprint → fresh')
    (hload : c = .load → ∀ value, parse s.file.content = .accepted value → loaded')
    (hrejected : c = .load → parse s.file.content = .rejected → call = .current → fresh')
    (hraised : c = .load → parse s.file.content = .raised → Ends' .raised)
    (hmark : c = .mark → loaded → call = .current → fresh')
    (hanswer : c = .answer → fresh → Ends' (.answered s.current)) :
    Stage loaded' fresh' Ends' call (k (s.exec parse now c).1) := by
  have hload' : ∀ {k : Loaded V → FileProgram V C T (FileOutcome V)},
      reload call.rest = .call .load k → c = .load →
        Stage loaded' fresh' Ends' call (k (parse s.file.content)) := by
    rintro k heq rfl
    cases heq
    change Stage _ _ _ _ (afterLoad call.rest (parse s.file.content))
    cases hparse : parse s.file.content with
    | accepted value => exact .marking value (hload rfl value hparse)
    | rejected => exact .rest (hrejected rfl hparse) hdone
    | raised => exact .ended .raised (hraised rfl hparse)
  cases h with
  | begun =>
    cases call with
    | write content mtime =>
      cases hc
      exact .ended .done (hdone (by simp))
    | reload =>
      cases hc
      exact hload' rfl rfl
    | current =>
      cases hc
      change Stage _ _ _ _ (if decide (some s.file.mtime ≠ s.fingerprint) = true then reload answer
        else answer)
      split_ifs with hchanged
      · exact .loading
      · exact .answering (hunchanged rfl (by simpa using hchanged))
  | loading =>
    cases hc
    exact hload' rfl rfl
  | marking value hloaded =>
    cases hc
    exact .rest (hmark rfl hloaded) hdone
  | answering hfresh =>
    cases hc
    exact .ended _ (hanswer rfl hfresh)
  | ended outcome h => cases hc

theorem Stage.loaded_of_mark {k : Unit → FileProgram V C T (FileOutcome V)}
    (h : Stage loaded fresh Ends call program) (hc : program = .call .mark k) : loaded := by
  cases h with
  | begun => cases call <;> cases hc
  | loading => cases hc
  | marking value hloaded => exact hloaded
  | answering hfresh => cases hc
  | ended outcome h => cases hc

theorem Stage.ends_of_pure {outcome : FileOutcome V} (h : Stage loaded fresh Ends call program)
    (hend : program = .pure outcome) : Ends outcome := by
  cases h with
  | begun => cases call <;> cases hend
  | loading => cases hend
  | marking value hloaded => cases hend
  | answering hfresh => cases hend
  | ended outcome h => cases hend; exact h

end Stages

/-! ## What the store holds -/

section Holds

variable (parse : C → Loaded V) (s : FileStore V C T)

/-- The store holds what its file contains or contained. -/
def FileStore.Held : Prop :=
  ∃ entry ∈ (s.file.content, s.file.mtime) :: s.file.earlier, parse entry.1 = .accepted s.current

/-- The store holds the latest. -/
def FileStore.Fresh : Prop := s.Latest parse (.answered s.current)

variable {parse s}

theorem FileStore.Held.fresh (h : s.Held parse)
    (hcurrent : ∀ value, parse s.file.content = .accepted value → s.current = value) :
    s.Fresh parse := by
  obtain ⟨entry, hentry, hparse⟩ := h
  unfold FileStore.Fresh FileStore.Latest
  split
  · rename_i value hvalue
    rw [hcurrent value hvalue]
  · rename_i hinvalid
    rcases List.mem_cons.mp hentry with rfl | hearlier
    · exact absurd hparse (hinvalid _)
    · exact ⟨entry, hearlier, s.current, hparse, rfl⟩

@[simp] theorem FileStore.take_file (loaded : Loaded V) : (s.take loaded).file = s.file := by
  cases loaded <;> rfl

@[simp] theorem FileStore.take_fingerprint (loaded : Loaded V) :
    (s.take loaded).fingerprint = s.fingerprint := by
  cases loaded <;> rfl

theorem FileStore.held_take {value : V} (h : parse s.file.content = .accepted value) :
    (s.take (parse s.file.content)).Held parse := by
  rw [h]
  exact ⟨_, List.mem_cons_self, h⟩

theorem FileStore.fresh_take {value : V} (h : parse s.file.content = .accepted value) :
    (s.take (parse s.file.content)).Fresh parse := by
  rw [h]
  change FileStore.Latest parse { s with current := value } (.answered value)
  simp [FileStore.Latest, h]

variable [DecidableEq T] {now : Int} {c : FileCmd C T}

theorem FileStore.Held.exec (h : s.Held parse) : (s.exec parse now c).2.Held parse := by
  cases c with
  | write content mtime =>
    obtain ⟨entry, hentry, hparse⟩ := h
    exact ⟨entry, List.mem_cons_of_mem _ hentry, hparse⟩
  | changed => exact h
  | load =>
    change (s.take (parse s.file.content)).Held parse
    cases hparse : parse s.file.content with
    | accepted value => exact hparse ▸ held_take hparse
    | rejected => exact h
    | raised => exact h
  | mark => exact h
  | answer => exact h

theorem FileStore.file_exec (hquiet : c.Quiet) : (s.exec parse now c).2.file = s.file := by
  cases c with
  | write content mtime => exact hquiet.elim
  | changed => rfl
  | load => exact take_file _
  | mark => rfl
  | answer => rfl

theorem FileStore.latest_exec (hquiet : c.Quiet) {outcome : FileOutcome V} :
    (s.exec parse now c).2.Latest parse outcome ↔ s.Latest parse outcome := by
  unfold FileStore.Latest
  rw [file_exec hquiet]

theorem FileStore.Fresh.exec (h : s.Fresh parse) (hquiet : c.Quiet) :
    (s.exec parse now c).2.Fresh parse := by
  cases c with
  | write content mtime => exact hquiet.elim
  | changed => exact h
  | load =>
    change (s.take (parse s.file.content)).Fresh parse
    cases hparse : parse s.file.content with
    | accepted value => exact hparse ▸ fresh_take hparse
    | rejected => exact h
    | raised => exact h
  | mark => exact h
  | answer => exact h

end Holds

/-! ## What the pool keeps -/

/-- What is noted of the file: a time that it had, under which the store holds what is valid in it.
Whoever is about to mark has loaded something. -/
structure Noted (parse : C → Loaded V) (p : FilePool V C T) : Prop where
  held : p.store.fingerprint ≠ none → p.store.Held parse
  latest : p.store.fingerprint = some p.store.file.mtime →
    ∀ value, parse p.store.file.content = .accepted value → p.store.current = value
  dated : ∀ mtime, p.store.fingerprint = some mtime →
    mtime = p.store.file.mtime ∨ ∃ entry ∈ p.store.file.earlier, mtime = entry.2
  stages : ∀ i th, p.At i th →
    Stage (p.store.Held parse) True (fun _ => True) th.request th.rest

section Steps

variable [DecidableEq T] {parse : C → Loaded V} {p : FilePool V C T} {i j : Nat}
  {th : Thread (FileCmd C T) (FileCmd.Reply V) (FileCall C T) (FileOutcome V) Int}
  {c : FileCmd C T} {k : c.Reply V → FileProgram V C T (FileOutcome V)}

theorem Noted.stages_fire (hp : Noted parse p) (hi : p.At i th) (hr : th.rest = .call c k) (j : Nat)
    (th' : Thread (FileCmd C T) (FileCmd.Reply V) (FileCall C T) (FileOutcome V) Int)
    (hj : (p.fire (FileStore.exec parse) i th c k).At j th') :
    Stage ((p.store.exec parse p.now c).2.Held parse) True (fun _ => True) th'.request th'.rest := by
  rcases (Pool.fire_threads hi).mp hj with ⟨rfl, rfl⟩ | ⟨-, hold⟩
  · refine (hp.stages j th hi).step hr (by simp) (by simp) ?_ (by simp) (by simp) (by simp) (by simp)
    rintro rfl value hvalue
    exact FileStore.held_take hvalue
  · exact (hp.stages j th' hold).mono FileStore.Held.exec id fun _ h => h

/-- **Every step keeps what is noted.** -/
theorem Noted.fire (hp : Noted parse p) (hi : p.At i th) (hr : th.rest = .call c k)
    (hdated : c.Dated p.store.file) (hgo : c.Undisturbed parse p.store) :
    Noted parse (p.fire (FileStore.exec parse) i th c k) := by
  have hstages := hp.stages_fire hi hr
  have hexec : p.store.Held parse → (p.store.exec parse p.now c).2.Held parse := FileStore.Held.exec
  cases c with
  | write content mtime =>
    refine ⟨fun h => hexec (hp.held h), fun h => ?_, fun m h => ?_, hstages⟩
    · -- the new time is not the one that was noted
      rcases hp.dated mtime h with heq | ⟨entry, hentry, heq⟩
      · exact absurd heq hdated.1
      · exact absurd heq (hdated.2 entry hentry)
    · rcases hp.dated m h with rfl | ⟨entry, hentry, rfl⟩
      · exact .inr ⟨_, List.mem_cons_self, rfl⟩
      · exact .inr ⟨entry, List.mem_cons_of_mem _ hentry, rfl⟩
  | changed => exact ⟨hp.held, hp.latest, hp.dated, hstages⟩
  | load =>
    refine ⟨fun h => hexec (hp.held ?_), fun h => ?_, ?_, hstages⟩
    · change (p.store.take (parse p.store.file.content)).fingerprint ≠ none at h
      rwa [FileStore.take_fingerprint] at h
    · change ∀ value, parse (p.store.take (parse p.store.file.content)).file.content =
        .accepted value → (p.store.take (parse p.store.file.content)).current = value
      change (p.store.take (parse p.store.file.content)).fingerprint =
        some (p.store.take (parse p.store.file.content)).file.mtime at h
      rw [FileStore.take_fingerprint, FileStore.take_file] at h
      intro value hvalue
      rw [FileStore.take_file] at hvalue
      rw [hvalue]
      rfl
    · change ∀ mtime, (p.store.take (parse p.store.file.content)).fingerprint = some mtime →
        mtime = (p.store.take (parse p.store.file.content)).file.mtime ∨
          ∃ entry ∈ (p.store.take (parse p.store.file.content)).file.earlier, mtime = entry.2
      rw [FileStore.take_fingerprint, FileStore.take_file]
      exact hp.dated
  | mark =>
    refine ⟨fun _ => (hp.stages i th hi).loaded_of_mark hr, fun _ value hvalue => ?_, ?_, hstages⟩
    · change parse p.store.file.content = .accepted value at hvalue
      change (match parse p.store.file.content with
        | .accepted value => p.store.current = value
        | _ => True) at hgo
      rw [hvalue] at hgo
      exact hgo
    · rintro mtime heq
      exact .inl (Option.some.inj heq).symm
  | answer => exact ⟨hp.held, hp.latest, hp.dated, hstages⟩

/-! ## A call while the file is not written -/

/-- The call of `current` is on its way to the latest. -/
def Follower (parse : C → Loaded V) (j : Nat) (p : FilePool V C T) : Prop :=
  ∃ th, p.At j th ∧ th.request = .current ∧
    Stage (p.store.Fresh parse) (p.store.Fresh parse) (p.store.Latest parse) .current th.rest

/-- **Its own steps and those of others bring it there.** -/
theorem Follower.fire (hp : Noted parse p) (hj : Follower parse j p) (hi : p.At i th)
    (hr : th.rest = .call c k) (hquiet : c.Quiet) (hgo : c.Undisturbed parse p.store) :
    Follower parse j (p.fire (FileStore.exec parse) i th c k) := by
  obtain ⟨th', hat, hrequest, hstage⟩ := hj
  by_cases hij : j = i
  · subst hij
    obtain rfl : th' = th := Option.some.inj (hat.symm.trans hi)
    refine ⟨_, (Pool.fire_threads hi).mpr (.inl ⟨rfl, rfl⟩), hrequest, ?_⟩
    refine hstage.step hr (fun h => absurd rfl h) ?_ ?_ ?_ ?_ ?_ ?_
    · rintro rfl hsame
      exact (hp.held (hsame ▸ by simp)).fresh (hp.latest hsame.symm)
    · rintro rfl value hvalue
      exact FileStore.fresh_take hvalue
    · rintro rfl hrejected -
      change (match parse p.store.file.content with
        | .accepted _ => True
        | .rejected => p.store.fingerprint ≠ none
        | .raised => False) at hgo
      rw [hrejected] at hgo
      refine FileStore.Fresh.exec ((hp.held hgo).fresh fun value hvalue => ?_) trivial
      rw [hrejected] at hvalue
      cases hvalue
    · rintro rfl hraised
      change (match parse p.store.file.content with
        | .accepted _ => True
        | .rejected => p.store.fingerprint ≠ none
        | .raised => False) at hgo
      rw [hraised] at hgo
      exact hgo.elim
    · rintro rfl hfresh -
      exact hfresh
    · rintro rfl hfresh
      exact hfresh
  · refine ⟨th', (Pool.fire_threads hi).mpr (.inr ⟨hij, hat⟩), hrequest, ?_⟩
    exact hstage.mono (·.exec hquiet) (·.exec hquiet)
      fun _ => (FileStore.latest_exec hquiet).mpr

omit [DecidableEq T] in
theorem Noted.spawn (hp : Noted parse p) (call : FileCall C T) :
    Noted parse { p with threads := p.threads ++ [⟨call, [], call.program⟩] } := by
  refine ⟨hp.held, hp.latest, hp.dated, fun j th hj => ?_⟩
  rcases Pool.spawn_threads hj with hold | ⟨-, rfl⟩
  · exact hp.stages j th hold
  · exact .begun

/-- **Every move keeps what is noted.** -/
theorem Noted.step {mv : Move (FileCall C T) Int} (hp : Noted parse p)
    (hgo : Undisturbed parse p mv) : Noted parse (fileStep parse p mv) := by
  refine Pool.step_invariant (I := Noted parse) (A := Undisturbed parse) (FileStore.exec parse)
    FileCall.program ?_ ?_ ?_ p mv hp hgo
  · intro p elapsed hp _
    exact ⟨hp.held, hp.latest, hp.dated, hp.stages⟩
  · exact fun p call hp _ => hp.spawn call
  · intro p i th c k hp hgo hi hr
    obtain ⟨hdated, hundisturbed⟩ := hgo c (Pool.next_eq hi hr)
    exact hp.fire hi hr hdated hundisturbed

/-- **Every move that does not write the file brings the call closer.** -/
theorem Follower.step {mv : Move (FileCall C T) Int} (hp : Noted parse p ∧ Follower parse j p)
    (hgo : Undisturbed parse p mv ∧ Quiet p mv) :
    Noted parse (fileStep parse p mv) ∧ Follower parse j (fileStep parse p mv) := by
  refine Pool.step_invariant (I := fun p => Noted parse p ∧ Follower parse j p)
    (A := fun p mv => Undisturbed parse p mv ∧ Quiet p mv) (FileStore.exec parse)
    FileCall.program ?_ ?_ ?_ p mv hp hgo
  · rintro p elapsed ⟨hp, hj⟩ -
    exact ⟨⟨hp.held, hp.latest, hp.dated, hp.stages⟩, hj⟩
  · rintro p call ⟨hp, th, hat, hrequest, hstage⟩ -
    exact ⟨hp.spawn call, th, Pool.spawn_keeps hat _, hrequest, hstage⟩
  · rintro p i th c k ⟨hp, hj⟩ ⟨hgo, hquiet⟩ hi hr
    obtain ⟨hdated, hundisturbed⟩ := hgo c (Pool.next_eq hi hr)
    exact ⟨hp.fire hi hr hdated hundisturbed,
      hj.fire hp hi hr (hquiet c (Pool.next_eq hi hr)) hundisturbed⟩

end Steps

/-! ## A call ends -/

theorem endsIn_current : Prog.EndsIn 4 (current : FileProgram V C T (FileOutcome V)) := by
  have hreload : Prog.EndsIn 3 (reload answer : FileProgram V C T (FileOutcome V)) := by
    intro loaded
    change Prog.EndsIn 2 (afterLoad answer loaded)
    cases loaded with
    | accepted value => exact fun _ _ => trivial
    | rejected => exact fun _ => trivial
    | raised => trivial
  intro changed
  change Prog.EndsIn 3 (if changed then reload answer else answer)
  split_ifs
  · exact hreload
  · exact fun _ => trivial

theorem noted_made (parse : C → Loaded V) (file : WatchedFile C T) (default : V) :
    Noted parse (FileStore.made file default) where
  held := fun h => absurd rfl h
  latest := fun h => by cases h
  dated := fun _ h => by cases h
  stages := fun _ _ h => by cases h

/-- **A store whose reloads are not disturbed follows its file.** -/
theorem follows_of_undisturbed [DecidableEq T] (parse : C → Loaded V) (file : WatchedFile C T)
    (default : V) (moves : List (Move (FileCall C T) Int)) (p : FilePool V C T)
    (hrun : Run (Undisturbed parse) (fileStep parse) (FileStore.made file default) moves p) :
    Follows parse p (Undisturbed parse) := by
  intro moves' q th hcall hat
  have hp : Noted parse p := hrun.invariant (fun _ _ hp hgo => hp.step hgo)
    (noted_made parse file default)
  obtain ⟨-, hmoves⟩ := Run.cons_iff.mp hcall
  have hspawned : Noted parse (fileStep parse p (.spawn .current)) ∧
      Follower parse p.threads.length (fileStep parse p (.spawn .current)) :=
    ⟨hp.spawn .current, _, List.getElem?_concat_length, rfl, .begun⟩
  obtain ⟨-, th', hat', hrequest, hstage⟩ := hmoves.invariant
    (I := fun p' => Noted parse p' ∧ Follower parse p.threads.length p')
    (fun _ _ hp hgo => Follower.step hp hgo) hspawned
  obtain rfl : th' = th := Option.some.inj (hat'.symm.trans hat)
  have hcoherent : q.Coherent FileCall.program := by
    refine hmoves.invariant (I := Pool.Coherent FileCall.program)
      (fun _ mv h _ => Pool.coherent_step h mv) (Pool.coherent_step ?_ _)
    exact hrun.invariant (I := Pool.Coherent FileCall.program)
      (fun _ mv h _ => Pool.coherent_step h mv) fun _ _ h => by cases h
  refine ⟨fun hlong => ?_, fun outcome hend => hstage.ends_of_pure hend⟩
  have hfollows := hcoherent _ _ hat
  rw [hrequest] at hfollows
  exact hfollows.returned endsIn_current (by simpa [Thread.replies] using hlong)

/-! ### A write that is never read -/

/-- Everybody is permitted. -/
def everybody : PolicySet := [{ id := "everybody", effect := .permit }]

/-- Nobody is. -/
def nobody : PolicySet := [{ id := "nobody", effect := .deny }]

/-- A store that is being made of a file that permits everybody.  What the file contains is named by
what loading makes of it. -/
def permitting : FilePool PolicySet (Loaded PolicySet) Nat :=
  FileStore.made ⟨.accepted everybody, 0, []⟩ []

/-- The store is made, and the file is written afterwards. -/
theorem follows_written_later : Follows id ([.spawn .reload, .advance 0, .advance 0,
    .spawn (.write (.accepted nobody) 1), .advance 1].foldl (fileStep id) permitting)
      (Undisturbed id) :=
  follows_of_undisturbed id _ _ _ _ (Run.of_admits (by decide +kernel))

/-- **A write is never read**: it comes between the load of the store and its mark. -/
theorem ignores_write : ¬ ∀ moves p, Run Dated (fileStep id) permitting moves p →
    Follows id p Dated := by
  intro h
  have hfollows := h [.spawn .reload, .advance 0, .spawn (.write (.accepted nobody) 1), .advance 1,
    .advance 0] _ (Run.of_admits (by decide +kernel))
  have hstale : FileOutcome.answered everybody = .answered nobody :=
    (hfollows [.advance 2, .advance 2] _ _ (Run.of_admits (by decide +kernel)) rfl).2 _ rfl
  exact absurd hstale (by decide)

end Policy
end CampusID
