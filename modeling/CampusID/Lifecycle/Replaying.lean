import CampusID.Lifecycle.DeadLetters

/-!
# Does the queue lose a letter?

`record` reads a letter and writes it in two statements, and a call may come in between; it
replaces the login by the one it is given; and `replay` marks the letter it dispatched whatever has
been written to it since.  Any of these loses something (`loses_letters`).

`losesNothing_of_undisturbed` says which runs lose nothing: those in which a write finds what its
call found, brings no other login, and comes at no letter that waits to be marked, and in which a
letter is dispatched with success only while it is what was read and does not wait to be marked.
That it is outstanding then is `replay`'s own check (`DispatchesOpen`).
-/

namespace CampusID

open Lib

/-! ## The moves -/

/-- A replay of the letter is about to mark it: its dispatch has succeeded. -/
def WaitsForMark (p : LetterPool) (id : Nat) : Prop :=
  ∃ i < p.threads.length, p.next i = some (.mark id)

instance (p : LetterPool) (id : Nat) : Decidable (WaitsForMark p id) :=
  inferInstanceAs (Decidable (∃ i < p.threads.length, _ = _))

/-- What a step needs of the queue. -/
def LetterCmd.Undisturbed (p : LetterPool) : LetterCmd → Prop
  | .file key _ _ => p.store.look key = none
  | .amend id found login _ =>
    p.store.look found.key = some (found, id) ∧ found.login = login ∧ ¬ WaitsForMark p id
  | .dispatch id item .succeeded => p.store.letters[id]? = some item ∧ ¬ WaitsForMark p id
  | _ => True

instance (p : LetterPool) : (c : LetterCmd) → Decidable (c.Undisturbed p)
  | .file key _ _ => inferInstanceAs (Decidable (p.store.look key = none))
  | .amend id found login _ => inferInstanceAs (Decidable
      (p.store.look found.key = some (found, id) ∧ found.login = login ∧ ¬ WaitsForMark p id))
  | .dispatch id item .succeeded => inferInstanceAs (Decidable
      (p.store.letters[id]? = some item ∧ ¬ WaitsForMark p id))
  | .dispatch _ _ (.exhausted _) => .isTrue trivial
  | .dispatch _ _ (.failed _) => .isTrue trivial
  | .look _ => .isTrue trivial
  | .read _ => .isTrue trivial
  | .mark _ => .isTrue trivial

/-- **Nothing comes between what a call reads and what it writes.** -/
def Undisturbed (p : LetterPool) : Move LetterCall Int → Prop
  | .advance i => ∀ c ∈ p.next i, c.Undisturbed p
  | _ => True

instance (p : LetterPool) : (mv : Move LetterCall Int) → Decidable (Undisturbed p mv)
  | .advance i => inferInstanceAs (Decidable (∀ c ∈ p.next i, c.Undisturbed p))
  | .tick _ => .isTrue trivial
  | .spawn _ => .isTrue trivial

/-! ## The programs -/

/-- A letter is marked right after a dispatch of it has succeeded, and only then. -/
def MarksDispatched {α : Type} : LetterProgram α → Prop
  | .pure _ => True
  | .call c k => ∀ r, MarksDispatched (k r) ∧
      ∀ id, (k r).head = .inl (.mark id) ↔ ∃ item, c = .dispatch id item .succeeded

/-- What is dispatched was read as outstanding. -/
def DispatchesOpen {α : Type} : LetterProgram α → Prop
  | .pure _ => True
  | .call c k => (∀ id item outcome, c = .dispatch id item outcome → item.replayedAt = none) ∧
      ∀ r, DispatchesOpen (k r)

theorem marksDispatched_record (key : LetterKey) (login : String) (attempts : List Attempt)
    (f : Nat → LetterOutcome) :
    MarksDispatched ((record key login attempts).bind fun id => .pure (f id)) := by
  intro existing
  cases existing with
  | none => exact ⟨fun _ => ⟨trivial, by simp⟩, by simp [letterCommand, Prog.send]⟩
  | some entry => exact ⟨fun _ => ⟨trivial, by simp⟩, by simp [letterCommand, Prog.send]⟩

theorem marksDispatched_afterDispatch (id : Nat) (item : DeadLetter) (outcome : DispatchOutcome) :
    MarksDispatched (afterDispatch id item outcome) ∧ ∀ id',
      (afterDispatch id item outcome).head = .inl (.mark id') ↔
        ∃ item', LetterCmd.dispatch id item outcome = .dispatch id' item' .succeeded := by
  cases outcome with
  | succeeded =>
    refine ⟨fun _ => ⟨trivial, by simp⟩, fun id' => ?_⟩
    change Sum.inl (LetterCmd.mark id) = _ ↔ _
    simp
  | exhausted attempts =>
    refine ⟨marksDispatched_record item.key item.login attempts fun _ => .replayed false,
      fun id' => ?_⟩
    change Sum.inl (LetterCmd.look item.key) = _ ↔ _
    simp
  | failed error =>
    refine ⟨marksDispatched_record item.key item.login [⟨1, error⟩] fun _ => .replayed false,
      fun id' => ?_⟩
    change Sum.inl (LetterCmd.look item.key) = _ ↔ _
    simp

theorem marksDispatched_program (call : LetterCall) :
    MarksDispatched call.program ∧ ∀ id, call.program.head ≠ .inl (.mark id) := by
  cases call with
  | record key login attempts =>
    refine ⟨marksDispatched_record key login attempts .recorded, fun id => ?_⟩
    change Sum.inl (LetterCmd.look key) ≠ _
    simp
  | replay id outcome =>
    refine ⟨fun row : Option DeadLetter => ?_, fun id' => ?_⟩
    · cases row with
      | none => exact ⟨trivial, by simp⟩
      | some item =>
        change MarksDispatched (ite _ _ _) ∧ ∀ id', (ite _ _ _ : LetterProgram _).head = _ ↔ _
        split_ifs
        · exact ⟨trivial, by simp⟩
        · refine ⟨fun _ => marksDispatched_afterDispatch id item outcome, fun id' => ?_⟩
          change Sum.inl (LetterCmd.dispatch id item outcome) = _ ↔ _
          simp
    · change Sum.inl (LetterCmd.read id) ≠ _
      simp

theorem dispatchesOpen_record (key : LetterKey) (login : String) (attempts : List Attempt)
    (f : Nat → LetterOutcome) :
    DispatchesOpen ((record key login attempts).bind fun id => .pure (f id)) := by
  refine And.intro (fun _ _ _ h => (nomatch h)) fun existing : Option (DeadLetter × Nat) => ?_
  cases existing with
  | none => exact ⟨fun _ _ _ h => (nomatch h), fun _ => trivial⟩
  | some entry => exact ⟨fun _ _ _ h => (nomatch h), fun _ => trivial⟩

theorem dispatchesOpen_program (call : LetterCall) : DispatchesOpen call.program := by
  cases call with
  | record key login attempts => exact dispatchesOpen_record key login attempts .recorded
  | replay id outcome =>
    refine And.intro (fun _ _ _ h => (nomatch h)) fun row : Option DeadLetter => ?_
    cases row with
    | none => exact trivial
    | some item =>
      change DispatchesOpen (ite _ _ _)
      split_ifs with hopen
      · exact trivial
      · refine ⟨fun _ _ _ h => ?_, fun _ => ?_⟩
        · cases h
          exact not_not.mp hopen
        · cases outcome with
          | succeeded => exact ⟨fun _ _ _ h => (nomatch h), fun _ => trivial⟩
          | exhausted attempts =>
            exact dispatchesOpen_record item.key item.login attempts fun _ => .replayed false
          | failed error =>
            exact dispatchesOpen_record item.key item.login [⟨1, error⟩] fun _ => .replayed false

/-! ## What the queue keeps -/

/-- Where the letters that were dispatched with success are: each is marked, or one replay is about
to mark it, and then its login is not waiting. -/
structure Orderly (p : LetterPool) : Prop where
  lossless : LosesNothing p.store
  marked : ∀ id, 0 < p.store.log.countP (LetterEvent.dispatches id) →
    (∃ letter : DeadLetter, p.store.letters[id]? = some letter ∧ letter.replayedAt ≠ none) ∨
      WaitsForMark p id
  unmarked : ∀ id, WaitsForMark p id → ∃ letter : DeadLetter, p.store.letters[id]? = some letter ∧
    letter.replayedAt = none ∧ waiting p.store.log letter.key letter.login = false
  alone : ∀ i j id, p.next i = some (.mark id) → p.next j = some (.mark id) → i = j
  programs : ∀ i th, p.At i th → MarksDispatched th.rest
  openly : ∀ i th, p.At i th → DispatchesOpen th.rest

section Steps

variable {p : LetterPool} {i id : Nat} {th : Thread LetterCmd LetterCmd.Reply LetterCall
  LetterOutcome Int} {c : LetterCmd} {k : c.Reply → LetterProgram LetterOutcome}
  {key : LetterKey} {login : String}

theorem waitsForMark_iff : WaitsForMark p id ↔ ∃ i, p.next i = some (.mark id) := by
  refine ⟨fun ⟨i, _, h⟩ => ⟨i, h⟩, fun ⟨i, h⟩ => ⟨i, ?_, h⟩⟩
  obtain ⟨th, -, hi, -⟩ := Pool.next_eq_some.mp h
  exact (List.getElem?_eq_some_iff.mp hi).1

theorem next_mark_fire (hprograms : MarksDispatched th.rest) (hi : p.At i th)
    (hr : th.rest = .call c k) (j : Nat) :
    (p.fire LetterQueue.exec i th c k).next j = some (.mark id) ↔
      (j = i ∧ ∃ item, c = .dispatch id item .succeeded) ∨
        (j ≠ i ∧ p.next j = some (.mark id)) := by
  rw [Pool.next_fire hi]
  refine or_congr_left (and_congr_right fun _ => ?_)
  rw [hr] at hprograms
  rw [← (hprograms (LetterQueue.exec p.now c p.store).1).2 id]
  cases k (LetterQueue.exec p.now c p.store).1 with
  | pure a => simp
  | call c' k' =>
    constructor
    · rintro ⟨k'', heq⟩
      rw [heq]
      rfl
    · intro hhead
      obtain rfl : c' = .mark id := Sum.inl.inj hhead
      exact ⟨k', rfl⟩

theorem Orderly.fire (hp : Orderly p) (hi : p.At i th) (hr : th.rest = .call c k)
    (hlossless : LosesNothing (LetterQueue.exec p.now c p.store).2)
    (hmarked : ∀ id, 0 < (LetterQueue.exec p.now c p.store).2.log.countP
        (LetterEvent.dispatches id) →
      (∃ letter : DeadLetter, (LetterQueue.exec p.now c p.store).2.letters[id]? = some letter ∧
        letter.replayedAt ≠ none) ∨ (∃ item, c = .dispatch id item .succeeded) ∨
          ∃ j, j ≠ i ∧ p.next j = some (.mark id))
    (hunmarked : ∀ id, (∃ item, c = .dispatch id item .succeeded) ∨
        (∃ j, j ≠ i ∧ p.next j = some (.mark id)) →
      ∃ letter : DeadLetter, (LetterQueue.exec p.now c p.store).2.letters[id]? = some letter ∧
        letter.replayedAt = none ∧
          waiting (LetterQueue.exec p.now c p.store).2.log letter.key letter.login = false)
    (halone : ∀ id item, c = .dispatch id item .succeeded → ¬ WaitsForMark p id) :
    Orderly (p.fire LetterQueue.exec i th c k) := by
  have hnext : ∀ id j, (p.fire LetterQueue.exec i th c k).next j = some (.mark id) ↔
      (j = i ∧ ∃ item, c = .dispatch id item .succeeded) ∨
        (j ≠ i ∧ p.next j = some (.mark id)) :=
    fun id j => next_mark_fire (hp.programs i th hi) hi hr j
  refine ⟨hlossless, fun id hdispatched => ?_, fun id hwaits => ?_, fun j j' id hj hj' => ?_,
    fun j th' hj => ?_, fun j th' hj => ?_⟩
  · refine (hmarked id hdispatched).imp_right fun h => waitsForMark_iff.mpr ?_
    rcases h with hnow | ⟨j, hne, hj⟩
    · exact ⟨i, (hnext id i).mpr (.inl ⟨rfl, hnow⟩)⟩
    · exact ⟨j, (hnext id j).mpr (.inr ⟨hne, hj⟩)⟩
  · obtain ⟨j, hj⟩ := waitsForMark_iff.mp hwaits
    rcases (hnext id j).mp hj with ⟨-, hnow⟩ | hold
    · exact hunmarked id (.inl hnow)
    · exact hunmarked id (.inr ⟨j, hold⟩)
  · rcases (hnext id j).mp hj with ⟨rfl, item, hnow⟩ | ⟨-, hold⟩ <;>
      rcases (hnext id j').mp hj' with ⟨rfl, item', hnow'⟩ | ⟨-, hold'⟩
    · rfl
    · exact absurd (waitsForMark_iff.mpr ⟨j', hold'⟩) (halone id item hnow)
    · exact absurd (waitsForMark_iff.mpr ⟨j, hold⟩) (halone id item' hnow')
    · exact hp.alone j j' id hold hold'
  · rcases (Pool.fire_threads hi).mp hj with ⟨rfl, rfl⟩ | ⟨-, hold⟩
    · have hrest := hp.programs _ th hi
      rw [hr] at hrest
      exact (hrest _).1
    · exact hp.programs j th' hold
  · rcases (Pool.fire_threads hi).mp hj with ⟨rfl, rfl⟩ | ⟨-, hold⟩
    · have hrest := hp.openly _ th hi
      rw [hr] at hrest
      exact hrest.2 _
    · exact hp.openly j th' hold

theorem Orderly.fire_other (hp : Orderly p) (hi : p.At i th) (hr : th.rest = .call c k)
    (hmark : ∀ id, c ≠ .mark id) (hdispatch : ∀ id item, c ≠ .dispatch id item .succeeded)
    (hlossless : LosesNothing (LetterQueue.exec p.now c p.store).2)
    (hmarked : ∀ id, 0 < (LetterQueue.exec p.now c p.store).2.log.countP
        (LetterEvent.dispatches id) →
      (∃ letter : DeadLetter, (LetterQueue.exec p.now c p.store).2.letters[id]? = some letter ∧
        letter.replayedAt ≠ none) ∨ WaitsForMark p id)
    (hunmarked : ∀ id, WaitsForMark p id →
      ∃ letter : DeadLetter, (LetterQueue.exec p.now c p.store).2.letters[id]? = some letter ∧
        letter.replayedAt = none ∧
          waiting (LetterQueue.exec p.now c p.store).2.log letter.key letter.login = false) :
    Orderly (p.fire LetterQueue.exec i th c k) := by
  have hnow : p.next i = some c := Pool.next_eq hi hr
  refine hp.fire hi hr hlossless (fun id hdispatched => ?_) (fun id hwaits => ?_)
    fun id item heq => absurd heq (hdispatch id item)
  · refine (hmarked id hdispatched).imp_right fun hwaits => .inr ?_
    obtain ⟨j, hj⟩ := waitsForMark_iff.mp hwaits
    refine ⟨j, ?_, hj⟩
    rintro rfl
    exact hmark id (Option.some.inj (hnow.symm.trans hj))
  · rcases hwaits with ⟨item, heq⟩ | ⟨j, -, hj⟩
    · exact absurd heq (hdispatch id item)
    · exact hunmarked id (waitsForMark_iff.mpr ⟨j, hj⟩)

theorem look_eq_some {q : LetterQueue} {found : DeadLetter} (h : q.look key = some (found, id)) :
    q.letters[id]? = some found ∧ found.key = key ∧ found.replayedAt = none := by
  have hfound := List.find?_some h
  simp only [decide_eq_true_eq] at hfound
  exact ⟨List.mk_mem_zipIdx_iff_getElem?.mp (List.mem_of_find?_eq_some h), hfound⟩

theorem ne_none_of_look {q : LetterQueue} {letter : DeadLetter} (h : q.look key = none)
    (hletter : q.letters[id]? = some letter) (hkey : letter.key = key) :
    letter.replayedAt ≠ none := by
  intro hnone
  rw [LetterQueue.look, List.find?_eq_none] at h
  exact h (letter, id) (List.mk_mem_zipIdx_iff_getElem?.mpr hletter) (by simp [hkey, hnone])

theorem waiting_append (log : List LetterEvent) (event : LetterEvent) :
    waiting (log ++ [event]) key login = event.leaves key login (waiting log key login) := by
  simp [waiting]

/-- **A failure that is recorded**: letters stay what they are, but for their histories, and the
failure is in one of them. -/
theorem Orderly.fire_recorded {attempts : List Attempt} (hp : Orderly p) (hi : p.At i th)
    (hr : th.rest = .call c k) (hmark : ∀ id, c ≠ .mark id)
    (hdispatch : ∀ id item, c ≠ .dispatch id item .succeeded)
    (hlog : (LetterQueue.exec p.now c p.store).2.log =
      p.store.log ++ [.recorded key login attempts])
    (hkept : ∀ (id : Nat) (letter : DeadLetter), p.store.letters[id]? = some letter →
      ∃ letter' : DeadLetter, (LetterQueue.exec p.now c p.store).2.letters[id]? = some letter' ∧
        letter'.key = letter.key ∧ letter'.login = letter.login ∧
        letter'.replayedAt = letter.replayedAt ∧ letter.attempts <+: letter'.attempts)
    (hnew : ∃ (id : Nat) (letter : DeadLetter),
      (LetterQueue.exec p.now c p.store).2.letters[id]? = some letter ∧ letter.key = key ∧
        letter.login = login ∧ letter.replayedAt = none ∧ attempts <:+: letter.attempts)
    (hone : ∀ (id id' : Nat) (letter other : DeadLetter),
      (LetterQueue.exec p.now c p.store).2.letters[id]? = some letter →
      (LetterQueue.exec p.now c p.store).2.letters[id']? = some other →
      letter.key = other.key → letter.replayedAt = none → other.replayedAt = none → id = id')
    (hclear : ∀ (id : Nat) (letter : DeadLetter), WaitsForMark p id →
      p.store.letters[id]? = some letter → letter.replayedAt = none → letter.key ≠ key) :
    Orderly (p.fire LetterQueue.exec i th c k) := by
  refine hp.fire_other hi hr hmark hdispatch ⟨hone, ?_, ?_, ?_⟩ ?_ ?_
  · intro key' login' attempts' hmem
    rw [hlog, List.mem_append, List.mem_singleton] at hmem
    rcases hmem with hold | heq
    · obtain ⟨id, letter, hletter, hkey, hinfix⟩ := hp.lossless.attempts key' login' attempts' hold
      obtain ⟨letter', hletter', hkey', -, -, hprefix⟩ := hkept id letter hletter
      exact ⟨id, letter', hletter', hkey'.trans hkey, hinfix.trans hprefix.isInfix⟩
    · cases heq
      obtain ⟨id, letter, hletter, hkey, -, -, hinfix⟩ := hnew
      exact ⟨id, letter, hletter, hkey, hinfix⟩
  · intro key' login' hwaiting
    rw [hlog, waiting_append, LetterEvent.leaves] at hwaiting
    split_ifs at hwaiting with hsame
    · obtain ⟨id, letter, hletter, hkey, hlogin, hnone, -⟩ := hnew
      exact ⟨id, letter, hletter, hkey.trans hsame.1, hlogin.trans hsame.2, hnone⟩
    · obtain ⟨id, letter, hletter, hkey, hlogin, hnone⟩ := hp.lossless.logins key' login' hwaiting
      obtain ⟨letter', hletter', hkey', hlogin', hreplayed, -⟩ := hkept id letter hletter
      exact ⟨id, letter', hletter', hkey'.trans hkey, hlogin'.trans hlogin, hreplayed.trans hnone⟩
  · intro id
    rw [hlog, List.countP_append]
    exact hp.lossless.once id
  · intro id hdispatched
    rw [hlog, List.countP_append] at hdispatched
    refine (hp.marked id hdispatched).imp_left ?_
    rintro ⟨letter, hletter, hreplayed⟩
    obtain ⟨letter', hletter', -, -, hsame, -⟩ := hkept id letter hletter
    exact ⟨letter', hletter', hsame ▸ hreplayed⟩
  · intro id hwaits
    obtain ⟨letter, hletter, hnone, hnot⟩ := hp.unmarked id hwaits
    obtain ⟨letter', hletter', hkey, hlogin, hsame, -⟩ := hkept id letter hletter
    refine ⟨letter', hletter', hsame.trans hnone, ?_⟩
    rw [hlog, waiting_append, LetterEvent.leaves, hkey, hlogin, if_neg, hnot]
    exact fun heq => hclear id letter hwaits hletter hnone heq.1.symm

theorem getElem?_filed {letters : List DeadLetter} {filed letter : DeadLetter}
    (h : (letters ++ [filed])[id]? = some letter) :
    letters[id]? = some letter ∨ (id = letters.length ∧ letter = filed) := by
  rcases Nat.lt_or_ge id letters.length with hlt | hge
  · rw [List.getElem?_append_left hlt] at h
    exact .inl h
  · rw [List.getElem?_append_right hge, List.getElem?_singleton] at h
    split_ifs at h with hzero
    exact .inr ⟨by omega, (Option.some.inj h).symm⟩

theorem getElem?_modified {letters : List DeadLetter} {f : DeadLetter → DeadLetter} {j : Nat}
    {letter : DeadLetter} : (letters.modify id f)[j]? = some letter ↔
      ∃ before, letters[j]? = some before ∧ letter = if id = j then f before else before := by
  rw [List.getElem?_modify]
  simp [eq_comm]

theorem Orderly.fire_file {attempts : List Attempt} {k : Nat → LetterProgram LetterOutcome}
    (hp : Orderly p) (hi : p.At i th) (hr : th.rest = .call (.file key login attempts) k)
    (hgo : p.store.look key = none) :
    Orderly (p.fire LetterQueue.exec i th (.file key login attempts) k) := by
  have hold : ∀ {id : Nat} {letter : DeadLetter}, p.store.letters[id]? = some letter →
      (p.store.letters ++ [⟨key.personUuid, key.target, key.operation, login, attempts,
        none⟩])[id]? = some letter := fun hletter =>
    List.getElem?_append_left (List.getElem?_eq_some_iff.mp hletter).1 ▸ hletter
  refine hp.fire_recorded hi hr (by simp) (by simp) rfl
    (fun id letter hletter => ⟨letter, hold hletter, rfl, rfl, rfl, List.prefix_rfl⟩) ?_ ?_ ?_
  · exact ⟨p.store.letters.length, _, List.getElem?_concat_length, rfl, rfl, rfl,
      List.infix_rfl⟩
  · intro id id' letter other hletter hother hkeys hnone hnone'
    rcases getElem?_filed hletter with hold | ⟨rfl, rfl⟩ <;>
      rcases getElem?_filed hother with hold' | ⟨rfl, rfl⟩
    · exact hp.lossless.one id id' letter other hold hold' hkeys hnone hnone'
    · exact absurd hnone (ne_none_of_look hgo hold hkeys)
    · exact absurd hnone' (ne_none_of_look hgo hold' hkeys.symm)
    · rfl
  · intro id letter _ hletter hnone hkey
    exact ne_none_of_look hgo hletter hkey hnone

theorem Orderly.fire_amend {attempts : List Attempt} {found : DeadLetter}
    {k : Unit → LetterProgram LetterOutcome} (hp : Orderly p) (hi : p.At i th)
    (hr : th.rest = .call (.amend id found login attempts) k)
    (hgo : (LetterCmd.amend id found login attempts).Undisturbed p) :
    Orderly (p.fire LetterQueue.exec i th (.amend id found login attempts) k) := by
  obtain ⟨hlook, hlogin, hclear⟩ := hgo
  obtain ⟨hfound, -, hnone⟩ := look_eq_some hlook
  refine hp.fire_recorded hi hr (by simp) (by simp) rfl (fun j letter hletter => ?_) ?_ ?_ ?_
  · refine ⟨_, getElem?_modified.mpr ⟨letter, hletter, rfl⟩, ?_⟩
    split_ifs with hsame
    · subst hsame
      obtain rfl := Option.some.inj (hfound.symm.trans hletter)
      exact ⟨rfl, hlogin.symm, rfl, List.prefix_append _ _⟩
    · exact ⟨rfl, rfl, rfl, List.prefix_rfl⟩
  · refine ⟨id, _, getElem?_modified.mpr ⟨found, hfound, (if_pos rfl).symm⟩, rfl, rfl, hnone, ?_⟩
    exact (List.suffix_append _ _).isInfix
  · intro j j' letter other hletter hother hkeys hnone hnone'
    obtain ⟨before, hbefore, rfl⟩ := getElem?_modified.mp hletter
    obtain ⟨before', hbefore', rfl⟩ := getElem?_modified.mp hother
    refine hp.lossless.one j j' before before' hbefore hbefore' ?_ ?_ ?_
    · split_ifs at hkeys <;> exact hkeys
    · split_ifs at hnone <;> exact hnone
    · split_ifs at hnone' <;> exact hnone'
  · intro j letter hwaits hletter hopen hkey
    obtain rfl : j = id := hp.lossless.one j id letter found hletter hfound hkey hopen hnone
    exact hclear hwaits

theorem Orderly.fire_dispatch {item : DeadLetter} {k : Unit → LetterProgram LetterOutcome}
    (hp : Orderly p) (hi : p.At i th) (hr : th.rest = .call (.dispatch id item .succeeded) k)
    (hgo : (LetterCmd.dispatch id item .succeeded).Undisturbed p) :
    Orderly (p.fire LetterQueue.exec i th (.dispatch id item .succeeded) k) := by
  obtain ⟨hitem, hclear⟩ := hgo
  have hrest := hp.openly i th hi
  rw [hr] at hrest
  have hnone : item.replayedAt = none := hrest.1 id item .succeeded rfl
  have hfresh : p.store.log.countP (LetterEvent.dispatches id) = 0 := by
    by_contra hpos
    rcases hp.marked id (Nat.pos_of_ne_zero hpos) with ⟨letter, hletter, hreplayed⟩ | hwaits
    · obtain rfl := Option.some.inj (hitem.symm.trans hletter)
      exact hreplayed hnone
    · exact hclear hwaits
  have hcount : ∀ id', (p.store.log ++ [LetterEvent.dispatched id item.key item.login]).countP
      (LetterEvent.dispatches id') =
        p.store.log.countP (LetterEvent.dispatches id') + if id = id' then 1 else 0 := by
    intro id'
    rw [List.countP_append, List.countP_singleton]
    simp [LetterEvent.dispatches]
  refine hp.fire hi hr ⟨hp.lossless.one, ?_, ?_, ?_⟩ ?_ ?_ ?_
  · intro key login attempts hmem
    refine hp.lossless.attempts key login attempts ?_
    simpa [LetterQueue.exec] using hmem
  · intro key login hwaiting
    change waiting (p.store.log ++ [_]) key login = true at hwaiting
    rw [waiting_append, LetterEvent.leaves] at hwaiting
    split_ifs at hwaiting
    exact hp.lossless.logins key login hwaiting
  · intro id'
    change (p.store.log ++ [_]).countP _ ≤ 1
    rw [hcount]
    split_ifs with hsame
    · rw [← hsame, hfresh]
    · exact hp.lossless.once id'
  · intro id' hdispatched
    change 0 < (p.store.log ++ [_]).countP _ at hdispatched
    rw [hcount] at hdispatched
    by_cases hsame : id = id'
    · exact .inr (.inl ⟨item, by rw [hsame]⟩)
    · rw [if_neg hsame, Nat.add_zero] at hdispatched
      refine (hp.marked id' hdispatched).imp_right fun hwaits => .inr ?_
      obtain ⟨j, hj⟩ := waitsForMark_iff.mp hwaits
      refine ⟨j, ?_, hj⟩
      rintro rfl
      exact absurd (hj.symm.trans (Pool.next_eq hi hr)) (by simp)
  · intro id' hwaits
    change ∃ letter : DeadLetter, p.store.letters[id']? = some letter ∧ _ ∧
      waiting (p.store.log ++ [_]) _ _ = false
    rcases hwaits with ⟨item', heq⟩ | ⟨j, -, hj⟩
    · cases heq
      refine ⟨item, hitem, hnone, ?_⟩
      rw [waiting_append, LetterEvent.leaves, if_pos ⟨rfl, rfl⟩]
    · obtain ⟨letter, hletter, hopen, hnot⟩ := hp.unmarked id' (waitsForMark_iff.mpr ⟨j, hj⟩)
      refine ⟨letter, hletter, hopen, ?_⟩
      rw [waiting_append, LetterEvent.leaves, hnot, ite_self]
  · intro id' item' heq
    cases heq
    exact hclear

theorem Orderly.fire_mark {k : Unit → LetterProgram LetterOutcome} (hp : Orderly p)
    (hi : p.At i th) (hr : th.rest = .call (.mark id) k) :
    Orderly (p.fire LetterQueue.exec i th (.mark id) k) := by
  have hnow : p.next i = some (.mark id) := Pool.next_eq hi hr
  obtain ⟨letter, hletter, hnone, hnot⟩ := hp.unmarked id (waitsForMark_iff.mpr ⟨i, hnow⟩)
  have hother : ∀ {j : Nat} {other : DeadLetter}, p.store.letters[j]? = some other → id ≠ j →
      (LetterQueue.exec p.now (.mark id) p.store).2.letters[j]? = some other :=
    fun hj hne => getElem?_modified.mpr ⟨_, hj, (if_neg hne).symm⟩
  refine hp.fire hi hr ⟨?_, ?_, ?_, hp.lossless.once⟩ ?_ ?_ (by simp)
  · intro j j' first second hfirst hsecond hkeys hopen hopen'
    obtain ⟨before, hbefore, rfl⟩ := getElem?_modified.mp hfirst
    obtain ⟨before', hbefore', rfl⟩ := getElem?_modified.mp hsecond
    by_cases hj : id = j
    · rw [if_pos hj] at hopen
      cases hopen
    by_cases hj' : id = j'
    · rw [if_pos hj'] at hopen'
      cases hopen'
    rw [if_neg hj] at hkeys hopen
    rw [if_neg hj'] at hkeys hopen'
    exact hp.lossless.one j j' before before' hbefore hbefore' hkeys hopen hopen'
  · intro key login attempts hmem
    obtain ⟨j, other, hj, hkey, hinfix⟩ := hp.lossless.attempts key login attempts hmem
    refine ⟨j, _, getElem?_modified.mpr ⟨other, hj, rfl⟩, ?_⟩
    split_ifs <;> exact ⟨hkey, hinfix⟩
  · intro key login hwaiting
    obtain ⟨j, other, hj, hkey, hlogin, hopen⟩ := hp.lossless.logins key login hwaiting
    refine ⟨j, other, hother hj ?_, hkey, hlogin, hopen⟩
    -- the login of the letter that is marked is not waiting
    rintro rfl
    obtain rfl := Option.some.inj (hletter.symm.trans hj)
    change waiting p.store.log key login = true at hwaiting
    rw [← hkey, ← hlogin, hnot] at hwaiting
    cases hwaiting
  · intro id' hdispatched
    by_cases hsame : id = id'
    · subst hsame
      exact .inl ⟨_, getElem?_modified.mpr ⟨letter, hletter, (if_pos rfl).symm⟩, by simp⟩
    · rcases hp.marked id' hdispatched with ⟨other, hj, hreplayed⟩ | hwaits
      · exact .inl ⟨other, hother hj hsame, hreplayed⟩
      · obtain ⟨j, hj⟩ := waitsForMark_iff.mp hwaits
        refine .inr (.inr ⟨j, ?_, hj⟩)
        rintro rfl
        exact hsame (by simpa using hnow.symm.trans hj)
  · intro id' hwaits
    rcases hwaits with ⟨item, heq⟩ | ⟨j, hne, hj⟩
    · cases heq
    · obtain ⟨other, hget, hopen, hnot'⟩ := hp.unmarked id' (waitsForMark_iff.mpr ⟨j, hj⟩)
      refine ⟨other, hother hget ?_, hopen, hnot'⟩
      rintro rfl
      exact hne (hp.alone j i id hj hnow)

/-- **Every step keeps the queue in order.** -/
theorem Orderly.command (hp : Orderly p) (hgo : Undisturbed p (.advance i)) (hi : p.At i th)
    (hr : th.rest = .call c k) : Orderly (p.fire LetterQueue.exec i th c k) := by
  have hundisturbed : c.Undisturbed p := hgo c (Pool.next_eq hi hr)
  cases c with
  | look key =>
    exact hp.fire_other hi hr (by simp) (by simp) hp.lossless hp.marked hp.unmarked
  | file key login attempts => exact hp.fire_file hi hr hundisturbed
  | amend id found login attempts => exact hp.fire_amend hi hr hundisturbed
  | read id => exact hp.fire_other hi hr (by simp) (by simp) hp.lossless hp.marked hp.unmarked
  | dispatch id item outcome =>
    cases outcome with
    | succeeded => exact hp.fire_dispatch hi hr hundisturbed
    | exhausted attempts =>
      exact hp.fire_other hi hr (by simp) (by simp) hp.lossless hp.marked hp.unmarked
    | failed error =>
      exact hp.fire_other hi hr (by simp) (by simp) hp.lossless hp.marked hp.unmarked
  | mark id => exact hp.fire_mark hi hr

theorem Orderly.spawn (hp : Orderly p) (call : LetterCall) :
    Orderly { p with threads := p.threads ++ [⟨call, [], call.program⟩] } := by
  obtain ⟨hprogram, hhead⟩ := marksDispatched_program call
  have hnext : ∀ {j id : Nat}, Pool.next { p with threads := p.threads ++ [⟨call, [],
      call.program⟩] } j = some (.mark id) → p.next j = some (.mark id) := by
    intro j id hj
    rcases Pool.next_spawn hj with hold | ⟨k, hrest⟩
    · exact hold
    · exact absurd (congrArg Prog.head hrest) (hhead id)
  refine ⟨hp.lossless, fun id hdispatched => ?_, fun id hwaits => ?_, fun j j' id hj hj' => ?_,
    fun j th hj => ?_, fun j th hj => ?_⟩
  · refine (hp.marked id hdispatched).imp_right fun hwaits => ?_
    obtain ⟨j, hj⟩ := waitsForMark_iff.mp hwaits
    obtain ⟨th, k, hth, hrest⟩ := Pool.next_eq_some.mp hj
    exact waitsForMark_iff.mpr ⟨j, Pool.next_eq_some.mpr ⟨th, k, Pool.spawn_keeps hth _, hrest⟩⟩
  · obtain ⟨j, hj⟩ := waitsForMark_iff.mp hwaits
    exact hp.unmarked id (waitsForMark_iff.mpr ⟨j, hnext hj⟩)
  · exact hp.alone j j' id (hnext hj) (hnext hj')
  · rcases Pool.spawn_threads hj with hold | ⟨-, rfl⟩
    · exact hp.programs j th hold
    · exact hprogram
  · rcases Pool.spawn_threads hj with hold | ⟨-, rfl⟩
    · exact hp.openly j th hold
    · exact dispatchesOpen_program call

/-- **Every move keeps the queue in order.** -/
theorem Orderly.step {mv : Move LetterCall Int} (hp : Orderly p) (hgo : Undisturbed p mv) :
    Orderly (letterStep p mv) := by
  refine Pool.step_invariant (I := Orderly) (A := Undisturbed) LetterQueue.exec LetterCall.program
    ?_ ?_ ?_ p mv hp hgo
  · intro p elapsed hp _
    exact ⟨hp.lossless, hp.marked, hp.unmarked, hp.alone, hp.programs, hp.openly⟩
  · exact fun p call hp _ => hp.spawn call
  · exact fun p i th c k hp hgo hi hr => hp.command hgo hi hr

end Steps

theorem orderly_noLetters : Orderly noLetters where
  lossless := {
    one := fun _ _ _ _ h => by simp [noLetters] at h
    attempts := fun _ _ _ h => by cases h
    logins := fun _ _ h => by cases h
    once := fun _ => Nat.zero_le 1 }
  marked := fun _ h => by cases h
  unmarked := fun _ h => by
    obtain ⟨i, hi⟩ := waitsForMark_iff.mp h
    cases hi
  alone := fun _ _ _ h => by cases h
  programs := fun _ _ h => by cases h
  openly := fun _ _ h => by cases h

/-- **A queue whose calls are not disturbed loses nothing.** -/
theorem losesNothing_of_undisturbed (moves : List (Move LetterCall Int)) (p : LetterPool)
    (hrun : Run Undisturbed letterStep noLetters moves p) : LosesNothing p.store :=
  (hrun.invariant (I := Orderly) (fun _ _ hp hgo => hp.step hgo) orderly_noLetters).lossless

/-! ### A failure that is marked away -/

/-- A write of Sam's that the directory refuses. -/
def samFails : LetterCall := .record ⟨"sam", "ldap", .disable⟩ "sam" [⟨1, "refused"⟩]

/-- The pool some moves lead to. -/
def lettersAfter (moves : List (Move LetterCall Int)) : LetterPool :=
  moves.foldl letterStep noLetters

/-- One after the other: two failures, and a replay of them. -/
theorem losesNothing_in_turn : LosesNothing (lettersAfter [.spawn samFails, .advance 0, .advance 0,
    .spawn samFails, .advance 1, .advance 1,
    .spawn (.replay 0 .succeeded), .advance 2, .advance 2, .advance 2]).store :=
  losesNothing_of_undisturbed _ _ (Run.of_admits (by decide +kernel))

/-- **A failure is marked away**: it is recorded between the dispatch of its letter and the mark. -/
theorem loses_letters : ¬ ∀ moves : List (Move LetterCall Int),
    LosesNothing (lettersAfter moves).store := by
  intro h
  obtain ⟨id, letter, hletter, -, -, hnone⟩ := (h [.spawn samFails, .advance 0, .advance 0,
    .spawn (.replay 0 .succeeded), .advance 1, .advance 1, .spawn samFails, .advance 2, .advance 2,
    .advance 1]).logins ⟨"sam", "ldap", .disable⟩ "sam" (by decide +kernel)
  have hmarked : ∀ letter ∈ (lettersAfter [.spawn samFails, .advance 0, .advance 0,
      .spawn (.replay 0 .succeeded), .advance 1, .advance 1, .spawn samFails, .advance 2,
      .advance 2, .advance 1]).store.letters, letter.replayedAt ≠ none := by decide +kernel
  exact hmarked letter (List.mem_of_getElem? hletter) hnone

end CampusID
