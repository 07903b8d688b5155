import CampusID.Authz.Materials

/-!
# What is remembered, and under which question

An invariant of the calls over the cache.  What is remembered was decided by the policies for a
request that asks the question it is remembered under, and stands under the key of that question.
A key has a digest of the question's material in it, and the material tells the question, so what
is found answers the question it is looked up for, as long as the digests of the two materials do
not collide (`Distinct`).

The epoch of that question need not be the one in which the policies were asked: an increment may
come between the evaluation and the second reading of the epoch.  `Clear` keeps increments out of
that gap, and in its runs the two are the same; the invariant says so where `inTime` holds.
-/

namespace CampusID
namespace Authz

open Lib

variable {d : Decider} {request : Request} {person who : String} {memory memory' : Memory}
  {inTime begun : Prop} {asked : Request → Prop} {least : Nat} {call : CacheCall} {q : Question}
  {evaluation : Evaluation}

/-! ## The programs -/

namespace Decider

/-- The end of `put`, and of `decide` behind it. -/
def remembering (d : Decider) (evaluation : Evaluation) (q : Question) :
    CacheProgram CacheOutcome :=
  .call (.remember (d.keyOf q) ⟨evaluation, q⟩) fun _ => .pure (.decided evaluation false)

/-- `decide` behind the evaluation. -/
def evaluated (d : Decider) (request : Request) (evaluation : Evaluation) :
    CacheProgram CacheOutcome :=
  (d.put request evaluation).bind fun _ => .pure (.decided evaluation false)

/-- `decide` behind the lookup. -/
def answered (d : Decider) (request : Request) : Option Remembered → CacheProgram CacheOutcome
  | some remembered => .pure (.decided remembered.evaluation true)
  | none => .call (.evaluate request) (d.evaluated request)

/-- `decide` behind the first epoch. -/
def looking (d : Decider) (request : Request) (q : Question) : CacheProgram CacheOutcome :=
  .call (.find (d.keyOf q) q) (d.answered request)

theorem decide_of_none (h : request.subject.personUuid = none) :
    d.decide request = .call (.evaluate request) (d.evaluated request) := by
  unfold decide get
  rw [h]
  rfl

theorem decide_of_some (h : request.subject.personUuid = some person) :
    d.decide request =
      .call (.epoch person) fun epoch : Nat => d.looking request (questionOf request person epoch) := by
  unfold decide get
  rw [h]
  refine congrArg (Prog.call (CacheCmd.epoch person)) (funext fun epoch : Nat => ?_)
  refine congrArg (Prog.call (CacheCmd.find _ _)) (funext fun found : Option Remembered => ?_)
  cases found with
  | none => rfl
  | some remembered => rfl

theorem evaluated_of_none (h : request.subject.personUuid = none) :
    d.evaluated request evaluation = .pure (.decided evaluation false) := by
  unfold evaluated put
  rw [h]
  rfl

theorem evaluated_of_some (h : request.subject.personUuid = some person) :
    d.evaluated request evaluation = .call (.epoch person) fun epoch : Nat =>
      d.remembering evaluation (questionOf request person epoch) := by
  unfold evaluated put
  rw [h]
  rfl

end Decider

/-! ## Where a call is -/

/-- The evaluation is the policies' answer to the request. -/
def Made (d : Decider) (request : Request) (evaluation : Evaluation) : Prop :=
  evaluation.request = request ∧ evaluation.decision = d.rules.decide request

/-- The evaluation is the policies' answer to a request that is asked, and that asks the
question. -/
structure Answers (d : Decider) (asked : Request → Prop) (q : Question)
    (evaluation : Evaluation) : Prop where
  asked : asked evaluation.request
  decision : evaluation.decision = d.rules.decide evaluation.request
  person : evaluation.request.subject.personUuid = some q.person
  question : questionOf evaluation.request q.person q.epoch = q

theorem Made.answers (h : Made d request evaluation) (hasked : asked request)
    (hperson : request.subject.personUuid = some person) (epoch : Nat) :
    Answers d asked (questionOf request person epoch) evaluation := by
  obtain ⟨rfl, hdecision⟩ := h
  exact ⟨hasked, hdecision, hperson, rfl⟩

/-- Where a call is, and what it knows there, where all requests are `asked`.  A call about `who` that
has begun late enough has read no epoch before `least`. -/
inductive Point (d : Decider) (asked : Request → Prop) (inTime : Prop) (memory : Memory)
    (who : String) (least : Nat) (begun : Prop) : CacheCall → CacheProgram CacheOutcome → Prop
  | start (call : CacheCall) : Point d asked inTime memory who least begun call (d.program call)
  | looking {request : Request} {person : String} {epoch : Nat}
      (hperson : request.subject.personUuid = some person) (hleast : person = who → least ≤ epoch) :
      Point d asked inTime memory who least begun (.decide request)
        (d.looking request (questionOf request person epoch))
  | missed {request : Request} :
      Point d asked inTime memory who least begun (.decide request)
        (.call (.evaluate request) (d.evaluated request))
  | storing {request : Request} {person : String} {evaluation : Evaluation}
      (hperson : request.subject.personUuid = some person) (hmade : Made d request evaluation)
      (hbegun : begun) (hfresh : inTime → evaluation.invalidations = memory.epochs person) :
      Point d asked inTime memory who least begun (.decide request) (d.evaluated request evaluation)
  | remembering {request : Request} {person : String} {evaluation : Evaluation} {epoch : Nat}
      (hperson : request.subject.personUuid = some person) (hmade : Made d request evaluation)
      (hfresh : inTime → evaluation.invalidations = epoch) :
      Point d asked inTime memory who least begun (.decide request)
        (d.remembering evaluation (questionOf request person epoch))
  | evaluated {request : Request} {evaluation : Evaluation} (hmade : Made d request evaluation) :
      Point d asked inTime memory who least begun (.decide request) (.pure (.decided evaluation false))
  | cached {request : Request} {person : String} {evaluation : Evaluation} {epoch : Nat}
      (hperson : request.subject.personUuid = some person)
      (hanswers : Answers d asked (questionOf request person epoch) evaluation)
      (hleast : inTime → person = who → least ≤ evaluation.invalidations) :
      Point d asked inTime memory who least begun (.decide request) (.pure (.decided evaluation true))
  | invalidated {person : String} :
      Point d asked inTime memory who least begun (.invalidate person) (.pure .invalidated)

/-! ## The moves -/

/-- The call is about to read its person's epoch a second time: it has evaluated, and not yet
decided under which epoch to remember. -/
def InGap (person : String) (th : CacheThread) : Prop :=
  th.rest.head = .inl (.epoch person) ∧ th.history ≠ []

instance (person : String) (th : CacheThread) : Decidable (InGap person th) :=
  inferInstanceAs (Decidable (_ ∧ ¬ _ = []))

/-- The question that is looked up and the one that the decision found was remembered under have
no digest in common, unless they have one material. -/
def CacheCmd.Tells (d : Decider) (p : CachePool) : CacheCmd → Prop
  | .find key question =>
    ∀ remembered ∈ p.store.entries.live p.now key, d.Apart remembered.question question
  | _ => True

/-- Nobody who is invalidated is in the gap. -/
def CacheCmd.KeepsClear (p : CachePool) : CacheCmd → Prop
  | .increment person => ∀ th ∈ p.threads, ¬ InGap person th
  | _ => True

instance (d : Decider) (p : CachePool) : (c : CacheCmd) → Decidable (c.Tells d p)
  | .find key question => inferInstanceAs (Decidable
      (∀ remembered ∈ p.store.entries.live p.now key, d.Apart remembered.question question))
  | .epoch _ => .isTrue trivial
  | .evaluate _ => .isTrue trivial
  | .remember _ _ => .isTrue trivial
  | .increment _ => .isTrue trivial

instance (p : CachePool) : (c : CacheCmd) → Decidable (c.KeepsClear p)
  | .increment person => inferInstanceAs (Decidable (∀ th ∈ p.threads, ¬ InGap person th))
  | .epoch _ => .isTrue trivial
  | .find _ _ => .isTrue trivial
  | .evaluate _ => .isTrue trivial
  | .remember _ _ => .isTrue trivial

/-- **No digest of the run collides** with that of another material. -/
def Distinct (d : Decider) (p : CachePool) : Move CacheCall Int → Prop
  | .advance i => ∀ c ∈ p.next i, c.Tells d p
  | _ => True

/-- **No person is invalidated while a call about them is in the gap.** -/
def Clear (p : CachePool) : Move CacheCall Int → Prop
  | .advance i => ∀ c ∈ p.next i, c.KeepsClear p
  | _ => True

instance (d : Decider) (p : CachePool) : (mv : Move CacheCall Int) → Decidable (Distinct d p mv)
  | .advance i => inferInstanceAs (Decidable (∀ c ∈ p.next i, c.Tells d p))
  | .tick _ => .isTrue trivial
  | .spawn _ => .isTrue trivial

instance (p : CachePool) : (mv : Move CacheCall Int) → Decidable (Clear p mv)
  | .advance i => inferInstanceAs (Decidable (∀ c ∈ p.next i, c.KeepsClear p))
  | .tick _ => .isTrue trivial
  | .spawn _ => .isTrue trivial

/-- The requests that are made are among those that are asked. -/
def Asks (asked : Request → Prop) : Move CacheCall Int → Prop
  | .spawn (.decide request) => asked request
  | _ => True

theorem asks_all : (mv : Move CacheCall Int) → Asks (fun _ => True) mv
  | .spawn (.decide _) => trivial
  | .spawn (.invalidate _) => trivial
  | .tick _ => trivial
  | .advance _ => trivial

/-- What the invariant needs of a move. -/
structure Allowed (d : Decider) (asked : Request → Prop) (inTime : Prop) (p : CachePool)
    (mv : Move CacheCall Int) : Prop where
  distinct : Distinct d p mv
  clear : inTime → Clear p mv
  asks : Asks asked mv

/-! ## The invariant -/

/-- **What the calls keep.**  From thread `from₀` on no call about `who` has read an epoch before
`least`. -/
structure Remembers (d : Decider) (asked : Request → Prop) (inTime : Prop) (who : String)
    (from₀ least : Nat) (p : CachePool) : Prop where
  floor : least ≤ p.store.epochs who
  asks : ∀ i th request, p.At i th → th.request = .decide request → asked request
  entries : ∀ key remembered expiry, p.store.entries key = some ⟨remembered, expiry⟩ →
    key = d.keyOf remembered.question ∧
      Answers d asked remembered.question remembered.evaluation ∧
      (inTime → remembered.evaluation.invalidations = remembered.question.epoch)
  threads : ∀ i th, p.At i th →
    Point d asked inTime p.store who (if from₀ ≤ i then least else 0) (th.history ≠ []) th.request th.rest

theorem Point.mono {rest : CacheProgram CacheOutcome}
    (h : Point d asked inTime memory who least begun call rest)
    (hepochs : inTime → ∀ person, rest.head = .inl (.epoch person) → begun →
      memory'.epochs person = memory.epochs person) :
    Point d asked inTime memory' who least begun call rest := by
  cases h with
  | start => exact .start _
  | looking hperson hleast => exact .looking hperson hleast
  | missed => exact .missed
  | storing hperson hmade hbegun hfresh =>
    refine .storing hperson hmade hbegun fun ht => (hfresh ht).trans ?_
    exact (hepochs ht _ (by rw [Decider.evaluated_of_some hperson]; rfl) hbegun).symm
  | remembering hperson hmade hfresh => exact .remembering hperson hmade hfresh
  | evaluated hmade => exact .evaluated hmade
  | cached hperson hanswers hleast => exact .cached hperson hanswers hleast
  | invalidated => exact .invalidated

section Steps

variable {p : CachePool} {i from₀ : Nat} {th : CacheThread} {c : CacheCmd}
  {k : c.Reply → CacheProgram CacheOutcome}

theorem Remembers.fire (hp : Remembers d asked inTime who from₀ least p) (hi : p.At i th)
    (hfloor : least ≤ (Memory.exec d.rules p.now c p.store).2.epochs who)
    (hentries : ∀ key remembered expiry,
      (Memory.exec d.rules p.now c p.store).2.entries key = some ⟨remembered, expiry⟩ →
        key = d.keyOf remembered.question ∧
          Answers d asked remembered.question remembered.evaluation ∧
          (inTime → remembered.evaluation.invalidations = remembered.question.epoch))
    (hothers : inTime → ∀ th' ∈ p.threads, ∀ person, InGap person th' →
      (Memory.exec d.rules p.now c p.store).2.epochs person = p.store.epochs person)
    (hpoint : Point d asked inTime (Memory.exec d.rules p.now c p.store).2 who
      (if from₀ ≤ i then least else 0) True th.request
      (k (Memory.exec d.rules p.now c p.store).1)) :
    Remembers d asked inTime who from₀ least (p.fire (Memory.exec d.rules) i th c k) := by
  refine ⟨hfloor, fun j th' request hj hcall => ?_, hentries, fun j th' hj => ?_⟩
  · rcases (Pool.fire_threads hi).mp hj with ⟨rfl, rfl⟩ | ⟨-, hj⟩
    · exact hp.asks _ th request hi hcall
    · exact hp.asks j th' request hj hcall
  rcases (Pool.fire_threads hi).mp hj with ⟨rfl, rfl⟩ | ⟨-, hj⟩
  · have hbegun : ((th.advance p.now c (Memory.exec d.rules p.now c p.store).1
        (k (Memory.exec d.rules p.now c p.store).1)).history ≠ []) = True :=
      eq_true (by simp)
    rw [hbegun]
    exact hpoint
  · refine (hp.threads j th' hj).mono fun ht person hhead hbegun => ?_
    exact hothers ht th' (List.mem_of_getElem? hj) person ⟨hhead, hbegun⟩

theorem Remembers.fire_read (hp : Remembers d asked inTime who from₀ least p) (hi : p.At i th)
    (hstore : (Memory.exec d.rules p.now c p.store).2 = p.store)
    (hpoint : Point d asked inTime p.store who (if from₀ ≤ i then least else 0) True th.request
      (k (Memory.exec d.rules p.now c p.store).1)) :
    Remembers d asked inTime who from₀ least (p.fire (Memory.exec d.rules) i th c k) := by
  refine hp.fire hi ?_ ?_ ?_ ?_
  · rw [hstore]
    exact hp.floor
  · rw [hstore]
    exact hp.entries
  · rw [hstore]
    exact fun _ _ _ _ _ => rfl
  · rw [hstore]
    exact hpoint

theorem Remembers.fire_evaluate (hp : Remembers d asked inTime who from₀ least p) (hi : p.At i th)
    (hcall : th.request = .decide request) :
    Remembers d asked inTime who from₀ least
      (p.fire (Memory.exec d.rules) i th (.evaluate request) (d.evaluated request)) := by
  refine hp.fire_read hi rfl ?_
  rw [hcall]
  have hmade : Made d request ⟨d.rules.decide request, request, p.store.invalidations request⟩ :=
    ⟨rfl, rfl⟩
  change Point d asked inTime p.store who _ True (.decide request) (d.evaluated request _)
  cases hperson : request.subject.personUuid with
  | none =>
    rw [Decider.evaluated_of_none hperson]
    exact .evaluated hmade
  | some person =>
    refine .storing hperson hmade trivial fun _ => ?_
    change p.store.invalidations request = p.store.epochs person
    rw [Memory.invalidations, hperson]
    rfl

theorem Remembers.fire_find {epoch : Nat} (hp : Remembers d asked inTime who from₀ least p)
    (hi : p.At i th) (hcall : th.request = .decide request)
    (hperson : request.subject.personUuid = some person)
    (hleast : person = who → (if from₀ ≤ i then least else 0) ≤ epoch)
    (hdistinct : CacheCmd.Tells d p
      (.find (d.keyOf (questionOf request person epoch)) (questionOf request person epoch))) :
    Remembers d asked inTime who from₀ least (p.fire (Memory.exec d.rules) i th
      (.find (d.keyOf (questionOf request person epoch)) (questionOf request person epoch))
      (d.answered request)) := by
  refine hp.fire_read hi rfl ?_
  rw [hcall]
  change Point d asked inTime p.store who _ True (.decide request) (d.answered request
    (p.store.entries.live p.now (d.keyOf (questionOf request person epoch))))
  cases hfound : p.store.entries.live p.now (d.keyOf (questionOf request person epoch)) with
  | none => exact .missed
  | some remembered =>
    obtain ⟨expiry, hentry, -⟩ := Table.live_eq_some.mp hfound
    obtain ⟨hkey, hanswers, hepoch⟩ := hp.entries _ _ _ hentry
    have hquestion : remembered.question = questionOf request person epoch :=
      d.question_of_keyOf hkey.symm (hdistinct remembered hfound)
    rw [hquestion] at hanswers hepoch
    refine .cached hperson hanswers fun ht hwho => ?_
    rw [hepoch ht]
    exact hleast hwho

theorem Remembers.fire_remember {epoch : Nat} (hp : Remembers d asked inTime who from₀ least p)
    (hi : p.At i th) (hcall : th.request = .decide request)
    (hperson : request.subject.personUuid = some person) (hmade : Made d request evaluation)
    (hfresh : inTime → evaluation.invalidations = epoch) :
    Remembers d asked inTime who from₀ least (p.fire (Memory.exec d.rules) i th
      (.remember (d.keyOf (questionOf request person epoch))
        ⟨evaluation, questionOf request person epoch⟩)
      fun _ => .pure (.decided evaluation false)) := by
  refine hp.fire hi hp.floor (fun key remembered expiry hentry => ?_) (fun _ _ _ _ _ => rfl) ?_
  · by_cases hkey : key = d.keyOf (questionOf request person epoch)
    · subst hkey
      change p.store.entries.put _ _ _ _ = _ at hentry
      rw [Table.put_self] at hentry
      obtain rfl := (Entry.mk.inj (Option.some.inj hentry)).1
      exact ⟨rfl, hmade.answers (hp.asks i th request hi hcall) hperson epoch, hfresh⟩
    · change p.store.entries.put _ _ _ _ = _ at hentry
      rw [Table.put_of_ne _ hkey] at hentry
      exact hp.entries _ _ _ hentry
  · rw [hcall]
    exact .evaluated hmade

theorem Remembers.fire_increment (hp : Remembers d asked inTime who from₀ least p) (hi : p.At i th)
    (hcall : th.request = .invalidate person)
    (hclear : inTime → ∀ th' ∈ p.threads, ¬ InGap person th') :
    Remembers d asked inTime who from₀ least (p.fire (Memory.exec d.rules) i th (.increment person)
      fun _ => .pure .invalidated) := by
  refine hp.fire hi ?_ hp.entries (fun ht th' hth' other hgap => ?_) ?_
  · change least ≤ Function.update p.store.epochs person (p.store.epochs person + 1) who
    by_cases hwho : who = person
    · subst hwho
      rw [Function.update_self]
      exact hp.floor.trans (Nat.le_succ _)
    · rw [Function.update_of_ne hwho]
      exact hp.floor
  · have hne : other ≠ person := by
      rintro rfl
      exact hclear ht th' hth' hgap
    exact Function.update_of_ne hne _ _
  · rw [hcall]
    exact .invalidated

/-- **Every command keeps the invariant.** -/
theorem Remembers.command (hp : Remembers d asked inTime who from₀ least p)
    (ha : Allowed d asked inTime p (.advance i)) (hi : p.At i th) (hr : th.rest = .call c k) :
    Remembers d asked inTime who from₀ least (p.fire (Memory.exec d.rules) i th c k) := by
  have hnext : p.next i = some c := Pool.next_eq hi hr
  have hpoint := hp.threads i th hi
  rw [hr] at hpoint
  generalize hcall : th.request = call at hpoint
  generalize hrest : Prog.call c k = rest at hpoint
  cases hpoint with
  | start =>
    cases call with
    | decide request =>
      cases hperson : request.subject.personUuid with
      | none =>
        rw [Decider.program, Decider.decide_of_none hperson] at hrest
        cases hrest
        exact hp.fire_evaluate hi hcall
      | some person =>
        rw [Decider.program, Decider.decide_of_some hperson] at hrest
        cases hrest
        refine hp.fire_read hi rfl ?_
        rw [hcall]
        refine .looking hperson fun hwho => ?_
        have hfloor := hp.floor
        rw [← hwho] at hfloor
        split_ifs
        · exact hfloor
        · exact Nat.zero_le _
    | invalidate person =>
      cases hrest
      exact hp.fire_increment hi hcall fun ht => ha.clear ht _ hnext
  | looking hperson hleast =>
    cases hrest
    exact hp.fire_find hi hcall hperson hleast (ha.distinct _ hnext)
  | missed =>
    cases hrest
    exact hp.fire_evaluate hi hcall
  | storing hperson hmade hbegun hfresh =>
    rw [Decider.evaluated_of_some hperson] at hrest
    cases hrest
    refine hp.fire_read hi rfl ?_
    rw [hcall]
    exact .remembering hperson hmade hfresh
  | remembering hperson hmade hfresh =>
    cases hrest
    exact hp.fire_remember hi hcall hperson hmade hfresh
  | evaluated hmade => cases hrest
  | cached hperson hanswers hleast => cases hrest
  | invalidated => cases hrest

/-- **Every move keeps the invariant.** -/
theorem Remembers.step {mv : Move CacheCall Int} (hp : Remembers d asked inTime who from₀ least p)
    (ha : Allowed d asked inTime p mv) : Remembers d asked inTime who from₀ least (d.step p mv) := by
  refine Pool.step_invariant (I := Remembers d asked inTime who from₀ least) (A := Allowed d asked inTime)
    (Memory.exec d.rules) d.program ?_ ?_ ?_ p mv hp ha
  · intro p elapsed hp _
    exact ⟨hp.floor, hp.asks, hp.entries, hp.threads⟩
  · intro p call hp ha
    refine ⟨hp.floor, fun j th request hj hcall => ?_, hp.entries, fun j th hj => ?_⟩
    · rcases Pool.spawn_threads hj with hj | ⟨-, rfl⟩
      · exact hp.asks j th request hj hcall
      · obtain rfl : call = .decide request := hcall
        exact ha.asks
    · rcases Pool.spawn_threads hj with hj | ⟨-, rfl⟩
      · exact hp.threads j th hj
      · exact .start call
  · intro p i th c k hp ha hi hr
    exact hp.command ha hi hr

end Steps

theorem Decider.head_program_ne (d : Decider) (call : CacheCall) (outcome : CacheOutcome) :
    (d.program call).head ≠ .inr outcome := by
  cases call with
  | decide request =>
    cases hperson : request.subject.personUuid with
    | none =>
      rw [Decider.program, Decider.decide_of_none hperson]
      exact Sum.inl_ne_inr
    | some person =>
      rw [Decider.program, Decider.decide_of_some hperson]
      exact Sum.inl_ne_inr
  | invalidate person => exact Sum.inl_ne_inr

theorem Point.of_cached {rest : CacheProgram CacheOutcome}
    (h : Point d asked inTime memory who least begun call rest)
    (hrest : rest.head = .inr (.decided evaluation true)) :
    ∃ request person epoch, call = .decide request ∧ request.subject.personUuid = some person ∧
      Answers d asked (questionOf request person epoch) evaluation ∧
      (inTime → person = who → least ≤ evaluation.invalidations) := by
  cases h with
  | start => exact absurd hrest (d.head_program_ne call _)
  | looking hperson hleast => cases hrest
  | missed => cases hrest
  | storing hperson hmade hbegun hfresh =>
    rw [Decider.evaluated_of_some hperson] at hrest
    cases hrest
  | remembering hperson hmade hfresh => cases hrest
  | evaluated hmade => cases hrest
  | cached hperson hanswers hleast =>
    cases hrest
    exact ⟨_, _, _, rfl, hperson, hanswers, hleast⟩
  | invalidated => cases hrest

theorem Point.of_evaluated {rest : CacheProgram CacheOutcome}
    (h : Point d asked inTime memory who least begun call rest)
    (hrest : rest.head = .inr (.decided evaluation false)) :
    ∃ request, call = .decide request ∧ Made d request evaluation := by
  cases h with
  | start => exact absurd hrest (d.head_program_ne call _)
  | looking hperson hleast => cases hrest
  | missed => cases hrest
  | storing hperson hmade hbegun hfresh =>
    rw [Decider.evaluated_of_some hperson] at hrest
    cases hrest
  | remembering hperson hmade hfresh => cases hrest
  | evaluated hmade =>
    cases hrest
    exact ⟨_, rfl, hmade⟩
  | cached hperson hanswers hleast => cases hrest
  | invalidated => cases hrest

theorem Remembers.noCalls (d : Decider) (asked : Request → Prop) (inTime : Prop) (who : String) :
    Remembers d asked inTime who 0 0 noCalls where
  floor := Nat.zero_le _
  asks := fun _ _ _ h => by cases h
  entries := fun _ _ _ h => by cases h
  threads := fun _ _ h => by cases h

/-- **What every run keeps.** -/
theorem Remembers.run {p p' : CachePool} {from₀ : Nat} {moves : List (Move CacheCall Int)}
    (hp : Remembers d asked inTime who from₀ least p)
    (hrun : Run (Allowed d asked inTime) d.step p moves p') : Remembers d asked inTime who from₀ least p' :=
  hrun.invariant (fun _ _ hp ha => hp.step ha) hp

end Authz
end CampusID
