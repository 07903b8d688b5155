import CampusID.Identity.Uniqueness
import CampusID.Lifecycle.FailureIsolation

/-!
# Does retrying a creation complete it?

The rows of a new person commit before the lifecycle hears of them.  If the lifecycle raises, the
client is told that the creation failed, and sends it again until it is told otherwise.

`UserStore.create` recognises the repetition by its external identifier and returns the person
who is already there, before it comes to the hook.  So the lifecycle is asked at most once: the
hook has completed for the person in the end exactly when it completed the first time
(`UserStore.completed_iff_hookReturns`).

A ledger beside the world (`UserStore.ledger`) says which calls of the hook completed; it changes
nothing else (`UserStore.run_ledger_create`).
-/

namespace CampusID

open Lib

/-! ## Calls that complete -/

/-- The world without the ledger. -/
def World.erase {Doc δ L : Type} (w : World Doc (δ × L)) : World Doc δ :=
  ⟨w.redis, w.now, w.today, w.rules, w.registry, w.lifecycle, w.audit, w.deadLetters,
    w.downstream.1, w.calls⟩

/-- A world and a ledger. -/
def World.withLedger {Doc δ L : Type} (w : World Doc δ) (entries : L) : World Doc (δ × L) :=
  ⟨w.redis, w.now, w.today, w.rules, w.registry, w.lifecycle, w.audit, w.deadLetters,
    (w.downstream, entries), w.calls⟩

/-- The world at a later time. -/
def World.later {Doc δ : Type} (w : World Doc δ) (now today : Int) : World Doc δ :=
  { w with now := now, today := today }

/-- Run an action beside a ledger it knows nothing of. -/
def Action.beside {Doc δ E α L : Type} (x : Action Doc δ E α) : Action Doc (δ × L) E α := fun w =>
  ((x.run w.erase).1, (x.run w.erase).2.withLedger w.downstream.2)

/-- Enter a call that completed. -/
def Action.enter {Doc δ E : Type} (delivery : Delivery) :
    Action Doc (δ × List Delivery) E Unit :=
  Eff.update fun w => w.erase.withLedger (w.downstream.2 ++ [delivery])

@[simp] theorem World.erase_withLedger {Doc δ L : Type} (w : World Doc δ) (entries : L) :
    (w.withLedger entries).erase = w := rfl

@[simp] theorem World.withLedger_erase {Doc δ L : Type} (w : World Doc (δ × L)) :
    w.erase.withLedger w.downstream.2 = w := rfl

namespace UserStore

variable {Doc δ E : Type} (store : UserStore Doc δ E)

/-- The store, with the calls of its hook that completed entered into a ledger. -/
def ledger : UserStore Doc (δ × List Delivery) E where
  toScim := store.toScim
  version := store.version
  lower := store.lower
  onTransition := store.onTransition.map fun hook personUuid before after => do
    let delta ← Action.beside (hook personUuid before after)
    Action.enter ⟨personUuid, before, after⟩
    return delta

/-- **Repeating a creation until it returns normally**: each attempt starts where the one before
it ended, at some later time, and the identifier it would give a new person is its own. -/
inductive Retried (parsed : ParsedUser) (raw : Doc) :
    String → World Doc (δ × List Delivery) → World Doc (δ × List Delivery) → Prop
  | returned {personUuid : String} {w w' : World Doc (δ × List Delivery)} {answer : Doc × Bool}
      (hreturned : (store.ledger.create parsed raw personUuid).run w = (.ok (.ok answer), w')) :
      Retried parsed raw personUuid w w'
  | again {personUuid personUuid' : String} {w w' : World Doc (δ × List Delivery)}
      (now today : Int)
      (hfailed : ∀ answer, ((store.ledger.create parsed raw personUuid).run w).1 ≠
        .ok (.ok answer))
      (hrest : Retried parsed raw personUuid'
        (((store.ledger.create parsed raw personUuid).run w).2.later now today) w') :
      Retried parsed raw personUuid w w'

/-- The consequences of a creation have been seen to: the hook has completed for the person with
what was created, if there are a hook and anything to tell it. -/
def Completed (personUuid : String) (values : Finset String) (deliveries : List Delivery) :
    Prop :=
  store.onTransition ≠ none → values ≠ ∅ →
    ∃ delivery ∈ deliveries, delivery.personUuid = personUuid ∧ delivery.after = values

/-- The hook does not raise when it is told of the new person, if there are a hook and anything
to tell it. -/
def HookReturns (personUuid : String) (values : Finset String) (w : World Doc δ) : Prop :=
  ∀ hook, store.onTransition = some hook → values ≠ ∅ →
    ∃ delta w', (hook personUuid ∅ values).run w = (.ok delta, w')

/-- The hook leaves the rows to the store, however it ends. -/
def KeepsRegistry : Prop :=
  ∀ hook, store.onTransition = some hook → ∀ personUuid before after w,
    ((hook personUuid before after).run w).2.registry = w.registry

theorem keepsRegistry_wire (o : Orchestrator δ E) : (store.wire o).KeepsRegistry := by
  intro hook hhook personUuid before after w
  cases hhook
  exact o.transitioned_registry personUuid before after .scim none w

/-! ## The ledger changes nothing else -/

/-- The calls of the hook that complete when it is told of a change. -/
def entered (personUuid : String) (before after : Finset String) (w : World Doc δ) :
    List Delivery :=
  match store.onTransition with
  | none => []
  | some hook =>
    match (hook personUuid before after).run w with
    | (.ok _, _) => [⟨personUuid, before, after⟩]
    | (.error _, _) => []

variable {parsed : ParsedUser} {raw : Doc} {personUuid : String} {before after : Finset String}
  {w : World Doc (δ × List Delivery)}

theorem run_ledger_tell : (store.ledger.tell personUuid before after).run w =
    (((store.tell personUuid before after).run w.erase).1,
      ((store.tell personUuid before after).run w.erase).2.withLedger
        (w.downstream.2 ++ store.entered personUuid before after w.erase)) := by
  unfold tell ledger entered
  cases store.onTransition with
  | none =>
    simp only [Option.map_none, List.append_nil]
    rfl
  | some hook =>
    simp only [Option.map_some]
    rcases hrun : (hook personUuid before after).run w.erase with ⟨e | delta, m⟩
    · have hbeside : (Action.beside (hook personUuid before after) :
          Action Doc (δ × List Delivery) E Delta).run w =
            (.error e, m.withLedger w.downstream.2) := by
        show ((_ : Except _ _), World.withLedger _ _) = _
        rw [hrun]
      rw [Eff.run_bind_of_error (Eff.run_bind_of_error hbeside), Eff.run_bind_of_error hrun,
        List.append_nil]
    · have hbeside : (Action.beside (hook personUuid before after) :
          Action Doc (δ × List Delivery) E Delta).run w =
            (.ok delta, m.withLedger w.downstream.2) := by
        show ((_ : Except _ _), World.withLedger _ _) = _
        rw [hrun]
      have hentered : (do
          let delta ← (Action.beside (hook personUuid before after) :
            Action Doc (δ × List Delivery) E Delta)
          Action.enter ⟨personUuid, before, after⟩
          return delta).run w =
            (.ok delta, m.withLedger (w.downstream.2 ++ [⟨personUuid, before, after⟩])) :=
        Eff.run_bind_of_ok hbeside
      rw [Eff.run_bind_of_ok hentered, Eff.run_bind_of_ok hrun]
      rfl

theorem run_ledger_transitioned : (store.ledger.transitioned personUuid before after).run w =
    (((store.transitioned personUuid before after).run w.erase).1,
      ((store.transitioned personUuid before after).run w.erase).2.withLedger
        (w.downstream.2 ++
          if before = after then [] else store.entered personUuid before after w.erase)) := by
  unfold transitioned
  by_cases hsame : before = after
  · simp only [if_pos hsame, List.append_nil]
    rfl
  · simp only [if_neg hsame]
    exact store.run_ledger_tell

/-! ## One attempt -/

variable {store} {registry : Registry Doc} {resource : Doc}

theorem run_create_of_error {w : World Doc δ} {e : StoreError}
    (h : store.createRows parsed raw personUuid w.now w.registry = .error e) :
    (store.create parsed raw personUuid).run w = (.ok (.error e), w) := by
  unfold create
  rw [Eff.run_bind_of_ok (run_transact_of_error h)]
  rfl

theorem run_create_of_replayed {w : World Doc δ}
    (h : store.createRows parsed raw personUuid w.now w.registry = .ok (registry, resource, false)) :
    (store.create parsed raw personUuid).run w =
      (.ok (.ok (resource, false)), { w with registry := registry }) := by
  unfold create
  rw [Eff.run_bind_of_ok (run_transact_of_ok h)]
  rfl

theorem run_create_of_created {w m : World Doc δ} {told : Except (Exn E) Unit}
    (h : store.createRows parsed raw personUuid w.now w.registry = .ok (registry, resource, true))
    (htold : (store.transitioned personUuid ∅ parsed.affiliationValues).run
      { w with registry := registry } = (told, m)) :
    (store.create parsed raw personUuid).run w = (told.map fun _ => .ok (resource, true), m) := by
  unfold create
  rw [Eff.run_bind_of_ok (run_transact_of_ok h)]
  cases told with
  | error e => exact Eff.run_bind_of_error htold
  | ok u => exact Eff.run_bind_of_ok htold

/-- **The ledger changes nothing else.** -/
theorem run_ledger_create : ∃ entries, (store.ledger.create parsed raw personUuid).run w =
    (((store.create parsed raw personUuid).run w.erase).1,
      ((store.create parsed raw personUuid).run w.erase).2.withLedger
        (w.downstream.2 ++ entries)) := by
  cases hrows : store.createRows parsed raw personUuid w.now w.registry with
  | error e =>
    refine ⟨[], ?_⟩
    rw [run_create_of_error (w := w) hrows, run_create_of_error (w := w.erase) hrows,
      List.append_nil]
    rfl
  | ok written =>
    obtain ⟨registry, resource, created⟩ := written
    cases created with
    | false =>
      refine ⟨[], ?_⟩
      rw [run_create_of_replayed (w := w) hrows, run_create_of_replayed (w := w.erase) hrows,
        List.append_nil]
      rfl
    | true =>
      rw [run_create_of_created (w := w) hrows store.run_ledger_transitioned,
        run_create_of_created (w := w.erase) hrows rfl]
      exact ⟨_, rfl⟩

/-! ## The attempts after a commit -/

theorem createRows_created {now : Int} {before : Registry Doc}
    (h : store.createRows parsed raw personUuid now before = .ok (registry, resource, true)) :
    before.knownSource parsed = none ∧ registry.liveEppn parsed.userName ≠ none := by
  have hnew : before.knownSource parsed = none := by
    by_contra hknown
    obtain ⟨-, hfalse⟩ := store.createRows_of_known hknown h
    exact absurd hfalse (by simp)
  refine ⟨hnew, fun hnone => ?_⟩
  obtain ⟨-, hids⟩ := Identity.Writers.createRows_identifiers hnew h
  rw [Registry.liveEppn, List.find?_eq_none] at hnone
  refine hnone (issueIdentifier store.lower personUuid now .eppn parsed.userName true) ?_
    (by simp [issueIdentifier, Identifier.Live])
  rw [(Identity.addIdentifiers_ok hids).1]
  simp

/-- **Nobody is created twice**: the name of a person who was created is taken. -/
theorem not_created_again {now now' : Int} {before registry' : Registry Doc} {resource' : Doc}
    {personUuid' : String}
    (h : store.createRows parsed raw personUuid now before = .ok (registry, resource, true)) :
    store.createRows parsed raw personUuid' now' registry ≠ .ok (registry', resource', true) := by
  intro hagain
  obtain ⟨hnew, -⟩ := createRows_created hagain
  obtain ⟨hfree, -⟩ := Identity.Writers.createRows_identifiers hnew hagain
  have htaken := (createRows_created h).2
  unfold assertUsernameFree at hfree
  cases hheld : registry.liveEppn parsed.userName with
  | none => exact htaken hheld
  | some row => simp [hheld] at hfree

theorem run_create_after {now : Int} {before : Registry Doc} {w : World Doc δ}
    {personUuid' : String}
    (h : store.createRows parsed raw personUuid now before = .ok (w.registry, resource, true)) :
    ∃ outcome, (store.create parsed raw personUuid').run w = (.ok outcome, w) := by
  cases hrows : store.createRows parsed raw personUuid' w.now w.registry with
  | error e => exact ⟨_, run_create_of_error hrows⟩
  | ok written =>
    obtain ⟨registry', resource', created⟩ := written
    cases created with
    | true => exact absurd hrows (not_created_again h)
    | false =>
      have hknown : w.registry.knownSource parsed ≠ none := by
        intro hnew
        exact absurd (store.createRows_of_new hnew hrows).1 (by simp)
      obtain ⟨hsame, -⟩ := store.createRows_of_known hknown hrows
      subst hsame
      exact ⟨_, run_create_of_replayed hrows⟩

/-- **Nothing is entered after the commit**, however often the creation is repeated. -/
theorem Retried.entries_eq {w' : World Doc (δ × List Delivery)} {personUuid' : String} {now : Int}
    {before : Registry Doc}
    (hcommits : store.createRows parsed raw personUuid now before = .ok (registry, resource, true))
    (hrun : store.Retried parsed raw personUuid' w w') (hregistry : w.registry = registry) :
    w'.downstream.2 = w.downstream.2 := by
  induction hrun with
  | @returned personUuid' w w' answer hreturned =>
    subst hregistry
    obtain ⟨outcome, hsame⟩ : ∃ outcome, (store.ledger.create parsed raw personUuid').run w =
      (.ok outcome, w) := run_create_after hcommits
    rw [hsame] at hreturned
    rw [(Prod.mk.inj hreturned).2]
  | @again personUuid' _ w w' now' today hfailed hrest ih =>
    subst hregistry
    obtain ⟨outcome, hsame⟩ : ∃ outcome, (store.ledger.create parsed raw personUuid').run w =
      (.ok outcome, w) := run_create_after hcommits
    rw [hsame] at ih
    exact ih rfl

/-! ## What retrying comes to -/

theorem completed_entered_iff (values : Finset String) (w : World Doc δ) :
    store.Completed personUuid values
        (if ∅ = values then [] else store.entered personUuid ∅ values w) ↔
      store.HookReturns personUuid values w := by
  unfold Completed HookReturns entered
  by_cases hnothing : ∅ = values
  · simp [hnothing]
  · rw [if_neg hnothing]
    cases hhook : store.onTransition with
    | none => simp
    | some hook =>
      simp only [Option.some.injEq, forall_eq']
      rcases (hook personUuid ∅ values).run w with ⟨e | delta, m⟩ <;> simp

theorem registry_transitioned (hkeeps : store.KeepsRegistry) (w : World Doc δ) :
    ((store.transitioned personUuid before after).run w).2.registry = w.registry := by
  unfold transitioned tell
  split_ifs
  · rfl
  · cases hhook : store.onTransition with
    | none => rfl
    | some hook =>
      have hkeep := hkeeps hook hhook personUuid before after w
      rw [← hkeep]
      exact congrArg World.registry (Eff.run_bind_pure_snd _ (fun _ => ()) w)

theorem run_create_committing (hkeeps : store.KeepsRegistry) (hstart : w.downstream.2 = [])
    (hcommits : store.createRows parsed raw personUuid w.now w.registry =
      .ok (registry, resource, true)) :
    ((store.ledger.create parsed raw personUuid).run w).2.registry = registry ∧
      ((store.ledger.create parsed raw personUuid).run w).2.downstream.2 =
        if ∅ = parsed.affiliationValues then []
        else store.entered personUuid ∅ parsed.affiliationValues
          { w.erase with registry := registry } := by
  have hfirst : (store.ledger.create parsed raw personUuid).run w = _ :=
    run_create_of_created hcommits store.run_ledger_transitioned
  rw [hfirst]
  refine ⟨registry_transitioned hkeeps { w.erase with registry := registry }, ?_⟩
  show w.downstream.2 ++ _ = _
  rw [hstart, List.nil_append]
  rfl

/-- **Retrying completes nothing.**  However often a creation that committed is repeated, the
hook has completed for the person in the end exactly when it completed the first time. -/
theorem completed_iff_hookReturns {w' : World Doc (δ × List Delivery)}
    (hkeeps : store.KeepsRegistry) (hstart : w.downstream.2 = [])
    (hcommits : store.createRows parsed raw personUuid w.now w.registry =
      .ok (registry, resource, true))
    (hrun : store.Retried parsed raw personUuid w w') :
    store.Completed personUuid parsed.affiliationValues w'.downstream.2 ↔
      store.HookReturns personUuid parsed.affiliationValues
        { w.erase with registry := registry } := by
  rw [← completed_entered_iff]
  obtain ⟨hregistry, hentries⟩ := run_create_committing hkeeps hstart hcommits
  have hlast : w'.downstream.2 =
      ((store.ledger.create parsed raw personUuid).run w).2.downstream.2 := by
    cases hrun with
    | returned hreturned => rw [hreturned]
    | again now today hfailed hrest =>
      have hsame := hrest.entries_eq hcommits hregistry
      exact hsame
  rw [hlast, hentries]

/-! ### A directory that is down -/

/-- A store whose lifecycle creates an account in a directory that refuses. -/
def refusedStore : UserStore Unit Unit Unit :=
  UserStore.wire ⟨fun _ => (), fun _ => "W/1", none, Text.lower⟩
    (Orchestrator.refusedOrchestrator false)

/-- A new student, with the key the sender knows them by. -/
def keyedAlice : ParsedUser :=
  { alice [⟨"student", true, none, 0, none⟩] with externalId := some "sis-1" }

theorem retried_keyedAlice : refusedStore.Retried keyedAlice () "p" (emptyWorld.withLedger [])
    ((refusedStore.ledger.create keyedAlice () "p").run (emptyWorld.withLedger [])).2 := by
  have hreplayed : (refusedStore.ledger.create keyedAlice () "q").run
      (((refusedStore.ledger.create keyedAlice () "p").run (emptyWorld.withLedger [])).2.later 0 0) =
        (.ok (.ok ((), false)), _) := rfl
  refine .again 0 0 (fun answer h => ?_) (.returned hreplayed)
  have hraised : ((refusedStore.ledger.create keyedAlice () "p").run
      (emptyWorld.withLedger [])).1 = .error (.downstream ()) := rfl
  rw [hraised] at h
  cases h

theorem not_hookReturns_keyedAlice :
    ¬ refusedStore.HookReturns "p" {"student"}
      { emptyWorld with
        registry := ((refusedStore.create keyedAlice () "p").run emptyWorld).2.registry } := by
  intro hreturns
  obtain ⟨unit, w', hrun⟩ := hreturns _ rfl (by decide)
  cases hrun

/-- The second attempt answers with the student, and nobody was told of them. -/
theorem unfinished_keyedAlice :
    ¬ refusedStore.Completed "p" {"student"}
      ((refusedStore.ledger.create keyedAlice () "p").run
        (emptyWorld.withLedger [])).2.downstream.2 :=
  (completed_iff_hookReturns (keepsRegistry_wire _ _) rfl rfl retried_keyedAlice).not.mpr
    not_hookReturns_keyedAlice

/-- **The student exists, and was never provisioned.** -/
theorem not_completed_of_keyedAlice :
    ¬ ∀ (store : UserStore Unit Unit Unit) (parsed : ParsedUser) (raw : Unit) (personUuid : String)
      (externalId : String) (w w' : World Unit (Unit × List Delivery)) (registry : Registry Unit)
      (resource : Unit),
      store.KeepsRegistry → w.downstream.2 = [] → parsed.externalId = some externalId →
      externalId ≠ "" →
      store.createRows parsed raw personUuid w.now w.registry = .ok (registry, resource, true) →
      (∀ answer, ((store.ledger.create parsed raw personUuid).run w).1 ≠ .ok (.ok answer)) →
      store.Retried parsed raw personUuid w w' →
      ∃ delivery ∈ w'.downstream.2, delivery.personUuid = personUuid ∧
        delivery.after = parsed.affiliationValues := by
  intro h
  have hraised : ((refusedStore.ledger.create keyedAlice () "p").run
      (emptyWorld.withLedger [])).1 = .error (.downstream ()) := rfl
  obtain ⟨delivery, hmem, -⟩ := h refusedStore keyedAlice () "p" "sis-1" _ _ _ _
    (keepsRegistry_wire _ _) rfl rfl (by decide) rfl
    (fun answer heq => by rw [hraised] at heq; cases heq) retried_keyedAlice
  exact List.not_mem_nil hmem

end UserStore

end CampusID
