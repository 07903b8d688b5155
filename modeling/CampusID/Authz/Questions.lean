import CampusID.Authz.Invalidation

/-!
# Is a remembered decision an answer to the same question?

A key names the resource, the action, the assurance and the network, and does not confuse any two
of them.  What the policies read of who asks besides --- entitlements, affiliations and roles --- it
does not name, and two sessions of one person may differ in them.  `same_question_iff` says that for
requests under one key nothing else can go wrong: they are decided alike by every set of policies
that does not look at the clock exactly where the three are the same.
-/

namespace CampusID
namespace Authz

open Lib

/-- No rule is bounded in time. -/
def Timeless (rules : PolicySet) : Prop := ∀ rule ∈ rules, rule.between = none

/-- The requests say the same of who asks. -/
def SameStanding (request other : Request) : Prop :=
  request.subject.entitlements = other.subject.entitlements ∧
    request.subject.affiliations = other.subject.affiliations ∧
    request.subject.roles = other.subject.roles

instance (rules : PolicySet) : Decidable (Timeless rules) :=
  inferInstanceAs (Decidable (∀ rule ∈ rules, _ = none))

instance (request other : Request) : Decidable (SameStanding request other) :=
  inferInstanceAs (Decidable (_ ∧ _ ∧ _))

/-- **Requests of a person that ask the same question say the same of who asks.** -/
def Agree (request other : Request) : Prop :=
  ∀ person, request.subject.personUuid = some person → other.subject.personUuid = some person →
    questionOf request person 0 = questionOf other person 0 → SameStanding request other

variable {rules : PolicySet} {request other : Request} {rule : Rule} {person : String}
  {epoch epoch' : Nat}

theorem questionOf_eq_iff : questionOf request person epoch = questionOf other person epoch' ↔
    epoch = epoch' ∧ request.resource = other.resource ∧ request.action = other.action ∧
      request.subject.assurance = other.subject.assurance ∧
      request.environment.network = other.environment.network := by
  obtain ⟨subject, ⟨id, classification, requiresAal2⟩, action, environment⟩ := request
  obtain ⟨subject', ⟨id', classification', requiresAal2'⟩, action', environment'⟩ := other
  simp [questionOf, and_assoc]

/-- **The same question is decided alike** where who asks stands the same. -/
theorem decide_eq_of_same (htimeless : Timeless rules)
    (hquestion : questionOf request person epoch = questionOf other person epoch')
    (hsame : SameStanding request other) : rules.decide request = rules.decide other := by
  obtain ⟨-, hresource, haction, hassurance, hnetwork⟩ := questionOf_eq_iff.mp hquestion
  obtain ⟨hentitlements, haffiliations, hroles⟩ := hsame
  refine PolicySet.decide_congr (fun rule hrule => ?_) hresource hassurance
  unfold Rule.matches
  rw [htimeless rule hrule, hentitlements, haffiliations, hroles, haction, hresource, hnetwork]

theorem decide_singleton (hpermit : rule.effect = .permit) :
    (PolicySet.decide [rule] request).effect = .deny ↔ rule.matches request = false := by
  cases hmatches : rule.matches request with
  | false => simp [PolicySet.decide, hmatches]
  | true =>
    refine iff_of_false ?_ (by simp)
    simp only [PolicySet.decide, List.filter_cons, hmatches, if_true, List.filter_nil,
      List.find?_cons, hpermit, reduceCtorEq, decide_false, List.find?_nil, decide_true]
    unfold Rule.permits
    dsimp only
    split_ifs
    · exact fun h => by cases h
    · exact fun h => by cases h

theorem eq_of_decided_alike {held held' : Finset String} (named : String → Rule)
    (hnamed : ∀ word, (named word).effect = .permit ∧ (named word).between = none ∧
      ((named word).matches request = true ↔ word ∈ held) ∧
      ((named word).matches other = true ↔ word ∈ held'))
    (h : ∀ rules, Timeless rules →
      (rules.decide request).effect = (rules.decide other).effect) : held = held' := by
  ext word
  obtain ⟨hpermit, htimeless, hheld, hheld'⟩ := hnamed word
  have halike := h [named word] (by simpa [Timeless] using htimeless)
  rw [← hheld, ← hheld', ← not_iff_not, Bool.not_eq_true, Bool.not_eq_true,
    ← decide_singleton hpermit, ← decide_singleton hpermit, halike]

/-- A rule that asks for an entitlement. -/
def entitled (word : String) : Rule := { id := "r", effect := .permit, entitlements := {word} }

/-- A rule that asks for an affiliation. -/
def affiliated (word : String) : Rule := { id := "r", effect := .permit, affiliations := {word} }

/-- A rule that asks for a role. -/
def inRole (word : String) : Rule := { id := "r", effect := .permit, roles := {word} }

/-- **What a key leaves out is what may differ**: requests are decided alike by all timeless
policies exactly where they say the same of who asks. -/
theorem decided_alike_iff
    (hquestion : questionOf request person epoch = questionOf other person epoch') :
    (∀ rules, Timeless rules → (rules.decide request).effect = (rules.decide other).effect) ↔
      SameStanding request other := by
  constructor
  · intro h
    refine ⟨eq_of_decided_alike entitled (fun word => ?_) h,
      eq_of_decided_alike affiliated (fun word => ?_) h,
      eq_of_decided_alike inRole (fun word => ?_) h⟩
    · simp [entitled, Rule.matches, anyHeld, isNamed, Finset.eq_empty_iff_forall_notMem]
    · simp [affiliated, Rule.matches, anyHeld, isNamed, Finset.eq_empty_iff_forall_notMem]
    · simp [inRole, Rule.matches, anyHeld, isNamed, Finset.eq_empty_iff_forall_notMem]
  · intro hsame rules htimeless
    rw [decide_eq_of_same htimeless hquestion hsame]

/-- **A finished call returned what the policies decide**, if requests that ask the same question
agree. -/
theorem decision_of_run {d : Decider} {moves : List (Move CacheCall Int)} {p : CachePool}
    (htimeless : Timeless d.rules) (hrun : Run (Distinct d) d.step noCalls moves p)
    (hagree : ∀ request other, .spawn (.decide request) ∈ moves →
      .spawn (.decide other) ∈ moves → Agree request other)
    {i : Nat} {th : CacheThread} {request : Request} {evaluation : Evaluation} {cached : Bool}
    (hi : p.At i th) (hcall : th.request = .decide request)
    (hhead : th.rest.head = .inr (.decided evaluation cached)) :
    evaluation.decision = d.rules.decide request := by
  have hallowed : Run (Allowed d (fun request => .spawn (.decide request) ∈ moves) False) d.step
      noCalls moves p := by
    have hasks : ∀ mv ∈ moves, ∀ _ : CachePool,
        Asks (fun request => .spawn (.decide request) ∈ moves) mv := by
      intro mv hmv _
      match mv with
      | .spawn (.decide request) => exact hmv
      | .spawn (.invalidate person) => trivial
      | .tick elapsed => trivial
      | .advance i => trivial
    exact (hrun.and_of_forall hasks).mono fun _ _ h => ⟨h.1, fun hfalse => hfalse.elim, h.2⟩
  have hkept := (Remembers.noCalls d _ False "").run hallowed
  have hpoint := hkept.threads i th hi
  cases cached with
  | false =>
    obtain ⟨request', hcall', -, hdecision⟩ := hpoint.of_evaluated hhead
    rw [hcall] at hcall'
    cases hcall'
    exact hdecision
  | true =>
    obtain ⟨request', person, epoch, hcall', hperson, hanswers, -⟩ := hpoint.of_cached hhead
    rw [hcall] at hcall'
    cases hcall'
    have hquestion : questionOf evaluation.request person epoch = questionOf request person epoch :=
      hanswers.question
    have hsame : questionOf evaluation.request person 0 = questionOf request person 0 :=
      questionOf_eq_iff.mpr ⟨rfl, (questionOf_eq_iff.mp hquestion).2⟩
    rw [hanswers.decision]
    refine decide_eq_of_same htimeless hquestion ?_
    exact hagree _ _ hanswers.asked (hkept.asks i th request hi hcall) person hanswers.person
      hperson hsame

/-- **A cached decision answers the same question exactly where the requests under one key agree**
on what the key leaves out: then they are decided alike by all timeless policies, and a call
returns what the policies decide. -/
theorem same_question_iff (d : Decider) :
    (∀ request other person epoch epoch', request.subject.personUuid = some person →
      other.subject.personUuid = some person →
      d.keyOf (questionOf request person epoch) = d.keyOf (questionOf other person epoch') →
      d.Apart (questionOf request person epoch) (questionOf other person epoch') →
      ((∀ rules, Timeless rules → (rules.decide request).effect = (rules.decide other).effect) ↔
        SameStanding request other)) ∧
    ∀ (moves : List (Move CacheCall Int)) (p : CachePool), Timeless d.rules →
      Run (Distinct d) d.step noCalls moves p →
      (∀ request other, .spawn (.decide request) ∈ moves → .spawn (.decide other) ∈ moves →
        Agree request other) →
      ∀ i th request evaluation cached, p.At i th → th.request = .decide request →
        th.rest.head = .inr (.decided evaluation cached) →
          evaluation.decision = d.rules.decide request :=
  ⟨fun _ _ _ _ _ _ _ hkey hapart => decided_alike_iff (d.question_of_keyOf hkey hapart),
    fun _ _ htimeless hrun hagree _ _ _ _ _ => decision_of_run htimeless hrun hagree⟩

/-- Sam, as an instructor, at another time of day. -/
def samLater : Request := { sam {"instructor"} with environment := { moment := some 1 } }

/-- Sam asks as an instructor, and again later from a session that says the same. -/
def askedTwice : List (Move CacheCall Int) :=
  [.spawn (.decide (sam {"instructor"})), .advance 0, .advance 0, .advance 0, .advance 0, .advance 0,
    .spawn (.decide samLater), .advance 1, .advance 1]

/-- A session that says nothing of Sam has the key of one that says that Sam is an instructor, and
some policies tell them apart; both calls of `askedTwice` return what the policies decide. -/
theorem same_question_settled :
    (¬ ∀ rules, Timeless rules →
      (rules.decide (sam {"instructor"})).effect = (rules.decide (sam ∅)).effect) ∧
    ∀ i th request evaluation cached, (instructors.after askedTwice).At i th →
      th.request = .decide request → th.rest.head = .inr (.decided evaluation cached) →
        evaluation.decision = instructors.rules.decide request := by
  refine ⟨fun h => ?_, (same_question_iff instructors).2 askedTwice _ (by decide +kernel)
    (Run.of_admits (by decide +kernel)) fun request other h h' => ?_⟩
  · obtain ⟨hentitlements, -⟩ := ((same_question_iff instructors).1 (sam {"instructor"}) (sam ∅)
      "sam" 0 0 rfl rfl rfl fun _ => rfl).mp h
    exact absurd hentitlements (by decide)
  · have hsam : ∀ request, .spawn (.decide request) ∈ askedTwice →
        request.subject = (sam {"instructor"}).subject := by
      intro request hmem
      have heither : request = sam {"instructor"} ∨ request = samLater := by
        simpa [askedTwice] using hmem
      rcases heither with rfl | rfl <;> rfl
    intro person _ _ _
    unfold SameStanding
    rw [hsam request h, hsam other h']
    exact ⟨rfl, rfl, rfl⟩

/-- **A session is answered for another one**: Sam asks as an instructor, then from a session that
says nothing of it. -/
theorem other_session : ¬ ((∀ (d : Decider) (request other : Request) (person : String)
    (epoch : Nat), request.subject.personUuid = some person →
      other.subject.personUuid = some person →
      d.keyOf (questionOf request person epoch) = d.keyOf (questionOf other person epoch) →
      ∀ rules, Timeless rules → (rules.decide request).effect = (rules.decide other).effect) ∨
    ∀ (d : Decider) (moves : List (Move CacheCall Int)) (p : CachePool), Timeless d.rules →
      (∀ person, .spawn (.invalidate person) ∉ moves) → Run (Distinct d) d.step noCalls moves p →
      ∀ i th request evaluation cached, p.At i th → th.request = .decide request →
        th.rest.head = .inr (.decided evaluation cached) →
          evaluation.decision = d.rules.decide request) := by
  rintro (hpair | hrun)
  · exact absurd (hpair instructors (sam {"instructor"}) (sam ∅) "sam" 0 rfl rfl rfl
      instructors.rules (by decide +kernel)) (by decide +kernel)
  · have hstale := hrun instructors ([.spawn (.decide (sam {"instructor"})), .advance 0, .advance 0,
      .advance 0, .advance 0, .advance 0] ++ askedAgain 1) _ (by decide +kernel) (by simp [askedAgain])
      (Run.of_admits (by decide +kernel)) 1 _ (sam ∅)
      ⟨instructors.rules.decide (sam {"instructor"}), sam {"instructor"}, 0⟩ true rfl rfl rfl
    exact absurd hstale (by decide +kernel)

end Authz
end CampusID
