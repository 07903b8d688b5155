import CampusID.Scim.Sorting

/-!
# References in a bulk request

`referenced_bulk_ids` collects the references of an operation when the request is read, and
`resolve_references` replaces them when the operation is run.  Both walk the whole document, and
between them stands `_ordered`: when an operation is reached, every operation it refers to has been
run.

So what a reference finds is what the operation that declares it has left, an identifier or
nothing (`resolved_of_reached`), and resolving fails for that reason only
(`references_resolved`).
-/

namespace CampusID
namespace Scim
namespace Bulk

open Lib
open Audit (Json)

/-! ## Replacing references -/

/-- A text with the reference in it replaced, if it is one. -/
def substituteText (ids : String → String) (text : String) : String :=
  match reference text with
  | none => text
  | some key => ids key

mutual

/-- A document with the references in it replaced, and nothing else. -/
def substitute (ids : String → String) : Json → Json
  | .str text => .str (substituteText ids text)
  | .list items => .list (substituteItems ids items)
  | .dict entries => .dict (substituteEntries ids entries)
  | value => value

/-- The items of a list with the references in them replaced. -/
def substituteItems (ids : String → String) : List Json → List Json
  | [] => []
  | item :: items => substitute ids item :: substituteItems ids items

/-- The values of an object with the references in them replaced. -/
def substituteEntries (ids : String → String) : List (String × Json) → List (String × Json)
  | [] => []
  | (key, item) :: entries => (key, substitute ids item) :: substituteEntries ids entries

end

/-- What is recorded under a `bulkId`. -/
def recordedAs (resolved : List (String × String)) (key : String) : String :=
  (resolved.lookup key).getD ""

variable {py : Readers} {resolved : List (String × String)}

theorem resolveText_iff {text result : String} :
    resolveText py resolved text = .ok result ↔
      (∀ key ∈ (reference text).toFinset, (resolved.lookup key).isSome) ∧
        substituteText (recordedAs resolved) text = result := by
  unfold resolveText substituteText
  cases reference text with
  | none => simp
  | some key =>
    simp only [Option.mem_toFinset, Option.mem_some_iff, forall_eq', recordedAs]
    cases resolved.lookup key with
    | none => simp
    | some id => simp

mutual

/-- **When references resolve, and to what**: when something is recorded for each of them, to the
document with the references replaced. -/
theorem resolveReferences_iff : ∀ {value result : Json},
    resolveReferences py resolved value = .ok result ↔
      (∀ key ∈ referencedBulkIds value, (resolved.lookup key).isSome) ∧
        substitute (recordedAs resolved) value = result
  | .str text, result => by
    rw [resolveReferences, referencedBulkIds, substitute, Eff.except_bind_eq_ok]
    simp only [resolveText_iff]
    constructor
    · rintro ⟨_, ⟨hknown, rfl⟩, heq⟩
      cases heq
      exact ⟨hknown, rfl⟩
    · rintro ⟨hknown, rfl⟩
      exact ⟨_, ⟨hknown, rfl⟩, rfl⟩
  | .list items, result => by
    rw [resolveReferences, referencedBulkIds, substitute, Eff.except_bind_eq_ok]
    simp only [resolveItems_iff]
    constructor
    · rintro ⟨_, ⟨hknown, rfl⟩, heq⟩
      cases heq
      exact ⟨hknown, rfl⟩
    · rintro ⟨hknown, rfl⟩
      exact ⟨_, ⟨hknown, rfl⟩, rfl⟩
  | .dict entries, result => by
    rw [resolveReferences, referencedBulkIds, substitute, Eff.except_bind_eq_ok]
    simp only [resolveEntries_iff]
    constructor
    · rintro ⟨_, ⟨hknown, rfl⟩, heq⟩
      cases heq
      exact ⟨hknown, rfl⟩
    · rintro ⟨hknown, rfl⟩
      exact ⟨_, ⟨hknown, rfl⟩, rfl⟩
  | .null, result => by simp [resolveReferences, referencedBulkIds, substitute]
  | .bool b, result => by simp [resolveReferences, referencedBulkIds, substitute]
  | .num n, result => by simp [resolveReferences, referencedBulkIds, substitute]

theorem resolveItems_iff : ∀ {items results : List Json},
    resolveItems py resolved items = .ok results ↔
      (∀ key ∈ referencedInItems items, (resolved.lookup key).isSome) ∧
        substituteItems (recordedAs resolved) items = results
  | [], results => by simp [resolveItems, referencedInItems, substituteItems]
  | item :: items, results => by
    rw [resolveItems, referencedInItems, substituteItems, Eff.except_bind_eq_ok]
    simp only [resolveReferences_iff, Eff.except_bind_eq_ok, resolveItems_iff, Finset.mem_union,
      or_imp, forall_and]
    constructor
    · rintro ⟨_, ⟨hfirst, rfl⟩, _, ⟨hothers, rfl⟩, heq⟩
      cases heq
      exact ⟨⟨hfirst, hothers⟩, rfl⟩
    · rintro ⟨⟨hfirst, hothers⟩, rfl⟩
      exact ⟨_, ⟨hfirst, rfl⟩, _, ⟨hothers, rfl⟩, rfl⟩

theorem resolveEntries_iff : ∀ {entries results : List (String × Json)},
    resolveEntries py resolved entries = .ok results ↔
      (∀ key ∈ referencedInEntries entries, (resolved.lookup key).isSome) ∧
        substituteEntries (recordedAs resolved) entries = results
  | [], results => by simp [resolveEntries, referencedInEntries, substituteEntries]
  | (name, item) :: entries, results => by
    rw [resolveEntries, referencedInEntries, substituteEntries, Eff.except_bind_eq_ok]
    simp only [resolveReferences_iff, Eff.except_bind_eq_ok, resolveEntries_iff, Finset.mem_union,
      or_imp, forall_and]
    constructor
    · rintro ⟨_, ⟨hfirst, rfl⟩, _, ⟨hothers, rfl⟩, heq⟩
      cases heq
      exact ⟨⟨hfirst, hothers⟩, rfl⟩
    · rintro ⟨⟨hfirst, hothers⟩, rfl⟩
      exact ⟨_, ⟨hfirst, rfl⟩, _, ⟨hothers, rfl⟩, rfl⟩

end

theorem resolveId_iff {resourceId result : Option String} (hne : resourceId ≠ some "") :
    resolveId py resolved resourceId = .ok result ↔
      (∀ key ∈ (resourceId.bind reference).toFinset, (resolved.lookup key).isSome) ∧
        resourceId.map (substituteText (recordedAs resolved)) = result := by
  cases resourceId with
  | none => simp [resolveId, truthy]
  | some id =>
    have htruthy : truthy (some id) = some id :=
      Patch.truthy_eq_some.mpr ⟨rfl, fun h => hne (congrArg some h)⟩
    unfold resolveId
    rw [htruthy, Option.bind_some, Option.map_some]
    dsimp only
    rw [Eff.except_bind_eq_ok]
    simp only [resolveText_iff]
    constructor
    · rintro ⟨_, ⟨hknown, rfl⟩, heq⟩
      cases heq
      exact ⟨hknown, rfl⟩
    · rintro ⟨hknown, rfl⟩
      exact ⟨_, ⟨hknown, rfl⟩, rfl⟩

theorem resolves_of_recorded {data : Json} {resourceId : Option String}
    (hne : resourceId ≠ some "")
    (h : ∀ id ∈ references data resourceId, (resolved.lookup id).isSome) :
    resolveReferences py resolved data = .ok (substitute (recordedAs resolved) data) ∧
      resolveId py resolved resourceId =
        .ok (resourceId.map (substituteText (recordedAs resolved))) := by
  constructor
  · exact resolveReferences_iff.mpr
      ⟨fun key hkey => h key (Finset.mem_union_left _ hkey), rfl⟩
  · exact (resolveId_iff hne).mpr
      ⟨fun key hkey => h key (Finset.mem_union_right _ hkey), rfl⟩

theorem referenced_substituteText {ids : String → String} {text : String}
    (h : ∀ key ∈ (reference text).toFinset, reference (ids key) = none) :
    reference (substituteText ids text) = none := by
  unfold substituteText
  cases hreference : reference text with
  | none => exact hreference
  | some key => exact h key (by simp [hreference])

mutual

/-- **No reference is left**, unless what one is replaced by is a reference itself. -/
theorem referenced_substitute {ids : String → String} : ∀ {value : Json},
    (∀ key ∈ referencedBulkIds value, reference (ids key) = none) →
      referencedBulkIds (substitute ids value) = ∅
  | .str text, h => by
    rw [substitute, referencedBulkIds, referenced_substituteText h]
    rfl
  | .list items, h => by
    rw [substitute, referencedBulkIds]
    exact referenced_substituteItems h
  | .dict entries, h => by
    rw [substitute, referencedBulkIds]
    exact referenced_substituteEntries h
  | .null, _ => rfl
  | .bool _, _ => rfl
  | .num _, _ => rfl

theorem referenced_substituteItems {ids : String → String} : ∀ {items : List Json},
    (∀ key ∈ referencedInItems items, reference (ids key) = none) →
      referencedInItems (substituteItems ids items) = ∅
  | [], _ => rfl
  | item :: items, h => by
    rw [substituteItems, referencedInItems,
      referenced_substitute fun key hkey => h key (Finset.mem_union_left _ hkey),
      referenced_substituteItems fun key hkey => h key (Finset.mem_union_right _ hkey),
      Finset.empty_union]

theorem referenced_substituteEntries {ids : String → String} : ∀ {entries : List (String × Json)},
    (∀ key ∈ referencedInEntries entries, reference (ids key) = none) →
      referencedInEntries (substituteEntries ids entries) = ∅
  | [], _ => rfl
  | (name, item) :: entries, h => by
    rw [substituteEntries, referencedInEntries,
      referenced_substitute fun key hkey => h key (Finset.mem_union_left _ hkey),
      referenced_substituteEntries fun key hkey => h key (Finset.mem_union_right _ hkey),
      Finset.empty_union]

end

/-! ## What a request declares and refers to -/

/-- The references of an operation are collected when it is read. -/
def Collected (operation : BulkOperation) : Prop :=
  operation.dependsOn = references operation.data operation.resourceId ∧
    operation.resourceId ≠ some ""

theorem parseOne_collected {entry : Json} {index : Nat} {operation : BulkOperation}
    (h : parseOne py entry index = .ok operation) : Collected operation := by
  unfold parseOne at h
  split at h
  · obtain ⟨method, -, h⟩ := Eff.except_bind_eq_ok.mp h
    obtain ⟨⟨resource, resourceId⟩, hpath, h⟩ := Eff.except_bind_eq_ok.mp h
    dsimp only at h
    obtain ⟨bulkId, -, h⟩ := Eff.except_bind_eq_ok.mp h
    obtain ⟨u, -, h⟩ := Eff.except_bind_eq_ok.mp h
    obtain ⟨version, -, h⟩ := Eff.except_bind_eq_ok.mp h
    obtain ⟨data, -, h⟩ := Eff.except_bind_eq_ok.mp h
    obtain ⟨u', -, h⟩ := Eff.except_bind_eq_ok.mp h
    cases h
    refine ⟨rfl, ?_⟩
    rintro rfl
    exact parsePath_ne_empty hpath rfl
  · cases h

theorem uniqueIds_of_assertUnique {index : Nat} {seen : Finset String}
    {operations : List BulkOperation} {u : Unit}
    (h : assertUnique py index seen operations = .ok u) :
    UniqueIds operations ∧ ∀ id ∈ operations.filterMap BulkOperation.bulkId, id ∉ seen := by
  induction operations generalizing index seen with
  | nil => exact ⟨List.nodup_nil, fun _ hid => absurd hid List.not_mem_nil⟩
  | cons operation operations ih =>
    unfold assertUnique at h
    unfold UniqueIds
    rw [List.filterMap_cons]
    split at h
    · rename_i hid
      rw [hid]
      exact ih h
    · rename_i id hid
      rw [hid]
      split at h
      · cases h
      · rename_i hseen
        obtain ⟨hunique, hfresh⟩ := ih h
        refine ⟨List.nodup_cons.mpr ⟨fun hmem => ?_, hunique⟩, fun other hother => ?_⟩
        · exact hfresh id hmem (Finset.mem_insert_self id seen)
        · rcases List.mem_cons.mp hother with rfl | hother
          · exact hseen
          · exact fun hold => hfresh other hother (Finset.mem_insert_of_mem hold)

theorem inOrder_of_ordered {operations result : List BulkOperation}
    (h : ordered py operations = .ok result) :
    Rounds.InOrder BulkOperation.dependsOn declares ∅ result := by
  by_cases hdeclared : AllDeclared operations
  · rw [ordered_eq hdeclared] at h
    split at h
    · cases h
      exact Rounds.inOrder_run
    · cases h
  · rw [ordered, if_pos] at h
    · cases h
    · exact Finset.sdiff_nonempty.mpr hdeclared

/-- **A request that was read** is in order, no `bulkId` is declared twice, and every operation
knows what it refers to. -/
structure Prepared (operations : List BulkOperation) : Prop where
  inOrder : Rounds.InOrder BulkOperation.dependsOn declares ∅ operations
  unique : UniqueIds operations
  collected : ∀ operation ∈ operations, Collected operation

theorem parseBulk_prepared {document : Json} {request : BulkRequest}
    (h : parseBulk py document = .ok request) : Prepared request.operations := by
  obtain ⟨-, entries, operations, -, hentries, hunique, hsorted⟩ := parts_of_parseBulk h
  have hperm := ordered_perm hsorted
  refine ⟨inOrder_of_ordered hsorted, ?_, fun operation hmem => ?_⟩
  · obtain ⟨hnodup, -⟩ := uniqueIds_of_assertUnique hunique
    exact ((hperm.filterMap _).nodup_iff).mpr hnodup
  · obtain ⟨entry, -, hentry⟩ := Eff.exists_of_mapM_eq_ok hentries (hperm.mem_iff.mp hmem)
    exact parseOne_collected hentry

theorem UniqueIds.declares_ne {done rest : List BulkOperation} {operation other : BulkOperation}
    (h : UniqueIds (done ++ operation :: rest)) (hother : other ∈ done) {id : String}
    (hid : declares other = some id) : declares operation ≠ some id := by
  intro hsame
  unfold UniqueIds at h
  rw [List.filterMap_append] at h
  refine (List.nodup_append.mp h).2.2 id ?_ id ?_ rfl
  · exact List.mem_filterMap.mpr ⟨other, hother, (Patch.truthy_eq_some.mp hid).1⟩
  · exact List.mem_filterMap.mpr
      ⟨operation, List.mem_cons_self, (Patch.truthy_eq_some.mp hsame).1⟩

/-! ## Runs -/

section Runs

variable {σ : Type} (py : Readers) (stores : Stores σ) (issuer : String)

/-- `_one` up to its entry: the references are resolved and the store is asked. -/
def carryOut (operation : BulkOperation) (resolved : List (String × String)) :
    Eff σ Raised (Option Resource × Nat) := do
  let data ← Eff.check ((resolveReferences py resolved operation.data).mapError .scim)
  let resourceId ← Eff.check ((resolveId py resolved operation.resourceId).mapError .scim)
  dispatch py stores operation resourceId data

/-- The identifier of the resource an operation returns, if it does not fail and returns one. -/
def producedId (operation : BulkOperation) (progress : Progress) (s : σ) : Option String :=
  match ((carryOut py stores operation progress.resolved).run s).1 with
  | .ok (resource, _) => resource.map Resource.id
  | .error _ => none

/-- **Where a run has come to**: the operations it has run, each with the identifier it produced,
what is recorded, and the operations that are left. -/
inductive Reached (request : BulkRequest) (s : σ) :
    List (BulkOperation × Option String) → Progress → σ → List BulkOperation → Prop
  | start : Reached request s [] {} s request.operations
  | next {history : List (BulkOperation × Option String)} {progress progress' : Progress}
      {s' s'' : σ} {operation : BulkOperation} {rest : List BulkOperation} {entry : Entry}
      (before : Reached request s history progress s' (operation :: rest))
      (answered : (answer py stores issuer operation progress).run s' =
        (.ok (entry, progress'), s''))
      (goesOn : stops request.failOnErrors progress'.errors = false) :
      Reached request s (history ++ [(operation, producedId py stores operation progress s')])
        progress' s'' rest

end Runs

variable {σ : Type} {stores : Stores σ} {issuer : String} {request : BulkRequest} {s s' : σ}
  {history : List (BulkOperation × Option String)} {progress progress' : Progress}
  {operation : BulkOperation} {rest : List BulkOperation} {entry : Entry}

theorem run_runFrom_cons {failOnErrors : Option Nat} {s'' : σ}
    (h : (answer py stores issuer operation progress).run s' = (.ok (entry, progress'), s''))
    (hgoes : stops failOnErrors progress'.errors = false) :
    (runFrom py stores issuer failOnErrors (operation :: rest) progress).run s' =
      (((runFrom py stores issuer failOnErrors rest progress').run s'').1.map (entry :: ·),
        ((runFrom py stores issuer failOnErrors rest progress').run s'').2) := by
  rw [runFrom, Eff.run_bind_of_ok h]
  simp only [hgoes, Bool.false_eq_true, if_false]
  rcases hrest : (runFrom py stores issuer failOnErrors rest progress').run s'' with ⟨e | a, s₁⟩
  · rw [Eff.run_bind_of_error hrest]
    rfl
  · rw [Eff.run_bind_of_ok hrest]
    rfl

/-- **What is reached is reached by the loop of `run`**, which goes on from there. -/
theorem runFrom_of_reached (h : Reached py stores issuer request s history progress s' rest) :
    ∃ entries : List Entry, entries.length = history.length ∧
      (runFrom py stores issuer request.failOnErrors request.operations {}).run s =
        (((runFrom py stores issuer request.failOnErrors rest progress).run s').1.map (entries ++ ·),
          ((runFrom py stores issuer request.failOnErrors rest progress).run s').2) := by
  induction h with
  | start =>
    refine ⟨[], rfl, ?_⟩
    rcases (runFrom py stores issuer request.failOnErrors request.operations {}).run s with
      ⟨e | entries, s₁⟩ <;> rfl
  | @next history progress progress' s' s'' operation rest entry before answered goesOn ih =>
    obtain ⟨entries, hlength, hrun⟩ := ih
    refine ⟨entries ++ [entry], by simp [hlength], ?_⟩
    rw [hrun, run_runFrom_cons answered goesOn]
    rcases (runFrom py stores issuer request.failOnErrors rest progress').run s'' with
      ⟨e | others, s₁⟩
    · rfl
    · simp [Except.map]

theorem reached_of_runFrom {left done : List BulkOperation} {entries : List Entry} {s'' : σ}
    (hreached : Reached py stores issuer request s history progress s' left)
    (hrun : (runFrom py stores issuer request.failOnErrors left progress).run s' =
      (.ok entries, s''))
    (hleft : left = done ++ operation :: rest) (hlength : done.length < entries.length) :
    ∃ history' progress' s₁, history'.map Prod.fst = done ∧
      Reached py stores issuer request s (history ++ history') progress' s₁ (operation :: rest) := by
  induction done generalizing history progress s' left entries with
  | nil =>
    subst hleft
    exact ⟨[], progress, s', rfl, by rwa [List.append_nil]⟩
  | cons first done ih =>
    subst hleft
    rw [List.cons_append, runFrom] at hrun
    obtain ⟨⟨entry, progress₁⟩, s₁, hanswer, hrest⟩ := Eff.run_bind_eq_ok.mp hrun
    cases hstops : stops request.failOnErrors progress₁.errors with
    | true =>
      -- the run ends with this entry
      simp only [hstops, if_true] at hrest
      cases hrest
      simp at hlength
    | false =>
      simp only [hstops, Bool.false_eq_true, if_false] at hrest
      obtain ⟨others, s₂, hothers, heq⟩ := Eff.run_bind_eq_ok.mp hrest
      cases heq
      obtain ⟨history', progress', s₃, rfl, hnext⟩ :=
        ih (hreached.next hanswer hstops) hothers rfl (Nat.lt_of_succ_lt_succ hlength)
      refine ⟨(first, producedId py stores first progress s') :: history', progress', s₃, rfl, ?_⟩
      rwa [List.append_assoc] at hnext

/-- What an operation leaves: the identifier it produced, under its `bulkId`. -/
theorem resolved_of_answer {s'' : σ}
    (h : (answer py stores issuer operation progress).run s' = (.ok (entry, progress'), s'')) :
    progress'.resolved = match declares operation, producedId py stores operation progress s' with
      | some bulkId, some id => assign progress.resolved bulkId id
      | _, _ => progress.resolved := by
  unfold answer at h
  rw [Eff.run_attempt_bind] at h
  unfold one at h
  unfold producedId carryOut
  rw [Eff.run_check_bind] at h ⊢
  cases hdata : resolveReferences py progress.resolved operation.data with
  | error e =>
    rw [hdata] at h
    cases h
    cases declares operation <;> rfl
  | ok data =>
    rw [hdata] at h
    dsimp only [Except.mapError] at h ⊢
    rw [Eff.run_check_bind] at h ⊢
    cases hid : resolveId py progress.resolved operation.resourceId with
    | error e =>
      rw [hid] at h
      cases h
      cases declares operation <;> rfl
    | ok resourceId =>
      rw [hid] at h
      dsimp only [Except.mapError] at h ⊢
      rcases hrun : (dispatch py stores operation resourceId data).run s' with ⟨raised | done, s₁⟩
      · rw [Eff.run_bind_of_error hrun] at h
        cases raised with
        | scim e =>
          cases h
          cases declares operation <;> rfl
        | patch e => cases h
        | overflow => cases h
        | assertion => cases h
      · rw [Eff.run_bind_of_ok hrun] at h
        cases h
        obtain ⟨resource, status⟩ := done
        unfold recorded declares
        cases truthy operation.bulkId <;> cases resource <;> rfl

/-- **What is recorded under a `bulkId`** is what the operation that declares it has produced. -/
theorem resolved_of_reached (hunique : UniqueIds request.operations)
    (h : Reached py stores issuer request s history progress s' rest) :
    history.map Prod.fst ++ rest = request.operations ∧
      (∀ other outcome, (other, outcome) ∈ history → ∀ id, declares other = some id →
        progress.resolved.lookup id = outcome) ∧
      ∀ id, (∀ other ∈ history.map Prod.fst, declares other ≠ some id) →
        progress.resolved.lookup id = none := by
  generalize hleft : rest = left at h
  induction h generalizing rest with
  | start => exact ⟨rfl, fun _ _ hmem => absurd hmem List.not_mem_nil, fun _ _ => rfl⟩
  | @next history progress progress' s' s'' operation rest' entry before answered goesOn ih =>
    obtain ⟨hoperations, hfound, hnone⟩ := ih rfl
    have hresolved := resolved_of_answer answered
    have hunique : UniqueIds (history.map Prod.fst ++ operation :: rest') := by rwa [hoperations]
    refine ⟨?_, fun other outcome hmem id hid => ?_, fun id hnobody => ?_⟩
    · rw [List.map_append, List.append_assoc]
      exact hoperations
    · rw [hresolved]
      rcases List.mem_append.mp hmem with hold | hnew
      · -- another `bulkId` was recorded, if any
        have hother : declares operation ≠ some id :=
          hunique.declares_ne (List.mem_map_of_mem hold) hid
        have hlookup := hfound other outcome hold id hid
        split
        · rename_i bulkId id' hbulkId _
          rw [lookup_assign, if_neg, hlookup]
          rintro rfl
          exact hother hbulkId
        · exact hlookup
      · obtain ⟨rfl, rfl⟩ := Prod.mk.inj (List.mem_singleton.mp hnew)
        rw [hid]
        cases producedId py stores other progress s' with
        | some id' =>
          dsimp only
          rw [lookup_assign, if_pos rfl]
        | none =>
          exact hnone id fun other' hold hsame => hunique.declares_ne hold hsame hid
    · rw [hresolved]
      have hearlier := hnone id fun other hother => hnobody other (by
        rw [List.map_append]
        exact List.mem_append_left _ hother)
      have hoperation : declares operation ≠ some id := hnobody operation (by
        rw [List.map_append]
        exact List.mem_append_right _ List.mem_cons_self)
      split
      · rename_i bulkId id' hbulkId _
        rw [lookup_assign, if_neg, hearlier]
        rintro rfl
        exact hoperation hbulkId
      · exact hearlier

theorem giver_of_reached (hprepared : Prepared request.operations)
    (h : Reached py stores issuer request s history progress s' (operation :: rest)) {id : String}
    (hid : id ∈ references operation.data operation.resourceId) :
    ∃ other outcome, declares other = some id ∧ (other, outcome) ∈ history ∧
      progress.resolved.lookup id = outcome := by
  obtain ⟨hoperations, hfound, -⟩ := resolved_of_reached hprepared.unique h
  obtain ⟨hcollected, -⟩ := hprepared.collected operation (by
    rw [← hoperations]
    exact List.mem_append_right _ List.mem_cons_self)
  have horder := hprepared.inOrder
  rw [← hoperations] at horder
  obtain ⟨-, hneeds, -⟩ := Rounds.inOrder_append.mp horder
  rw [← hcollected] at hid
  have hgiven := hneeds hid
  rw [Finset.empty_union] at hgiven
  obtain ⟨other, hother, hdeclares⟩ := Rounds.mem_given.mp hgiven
  obtain ⟨⟨_, outcome⟩, hmem, rfl⟩ := List.mem_map.mp hother
  exact ⟨_, outcome, hdeclares, hmem, hfound _ outcome hmem id hdeclares⟩

/-- **References are resolved when they are reached.**  Resolving them fails only where an
operation that declares one of them has failed or returned nothing.  Otherwise each is replaced by
what that operation produced, and nothing else is changed. -/
theorem references_resolved {document : Json} (hparse : parseBulk py document = .ok request)
    (h : Reached py stores issuer request s history progress s' (operation :: rest)) :
    ((∃ e, resolveReferences py progress.resolved operation.data = .error e) ∨
        (∃ e, resolveId py progress.resolved operation.resourceId = .error e) →
      ∃ id ∈ references operation.data operation.resourceId, ∃ other,
        declares other = some id ∧ (other, none) ∈ history) ∧
    ∀ data resourceId, resolveReferences py progress.resolved operation.data = .ok data →
      resolveId py progress.resolved operation.resourceId = .ok resourceId →
        ∃ ids : String → String,
          (∀ id ∈ references operation.data operation.resourceId, ∃ other,
            declares other = some id ∧ (other, some (ids id)) ∈ history) ∧
          data = substitute ids operation.data ∧
          resourceId = operation.resourceId.map (substituteText ids) ∧
          ((∀ other id, (other, some id) ∈ history → reference id = none) →
            references data resourceId = ∅) := by
  have hprepared := parseBulk_prepared hparse
  have hne : operation.resourceId ≠ some "" := (hprepared.collected operation (by
    rw [← (resolved_of_reached hprepared.unique h).1]
    exact List.mem_append_right _ List.mem_cons_self)).2
  constructor
  · intro hfails
    by_contra hnone
    have hrecorded : ∀ id ∈ references operation.data operation.resourceId,
        (progress.resolved.lookup id).isSome := by
      intro id hid
      obtain ⟨other, outcome, hdeclares, hmem, hlookup⟩ := giver_of_reached hprepared h hid
      rw [hlookup, Option.isSome_iff_ne_none]
      rintro rfl
      exact hnone ⟨id, hid, other, hdeclares, hmem⟩
    obtain ⟨hdata, hpath⟩ :
        resolveReferences py progress.resolved operation.data = .ok _ ∧
          resolveId py progress.resolved operation.resourceId = .ok _ :=
      resolves_of_recorded hne hrecorded
    rcases hfails with ⟨e, he⟩ | ⟨e, he⟩
    · rw [hdata] at he
      cases he
    · rw [hpath] at he
      cases he
  · intro data resourceId hdata hpath
    obtain ⟨hinData, rfl⟩ := resolveReferences_iff.mp hdata
    obtain ⟨hinPath, rfl⟩ := (resolveId_iff hne).mp hpath
    have hgiver : ∀ id ∈ references operation.data operation.resourceId, ∃ other,
        declares other = some id ∧ (other, some (recordedAs progress.resolved id)) ∈ history := by
      intro id hid
      obtain ⟨other, outcome, hdeclares, hmem, hlookup⟩ := giver_of_reached hprepared h hid
      have hknown : (progress.resolved.lookup id).isSome :=
        (Finset.mem_union.mp hid).elim (hinData id) (hinPath id)
      obtain ⟨value, hvalue⟩ := Option.isSome_iff_exists.mp hknown
      refine ⟨other, hdeclares, ?_⟩
      rw [recordedAs, hvalue, Option.getD_some, ← hvalue, hlookup]
      exact hmem
    refine ⟨recordedAs progress.resolved, hgiver, rfl, rfl, fun hplain => ?_⟩
    have hleft : ∀ id ∈ references operation.data operation.resourceId,
        reference (recordedAs progress.resolved id) = none := by
      intro id hid
      obtain ⟨other, -, hmem⟩ := hgiver id hid
      exact hplain other _ hmem
    rw [references, referenced_substitute fun id hid => hleft id (Finset.mem_union_left _ hid),
      Finset.empty_union]
    cases hid : operation.resourceId with
    | none => rfl
    | some text =>
      rw [Option.map_some, Option.bind_some, referenced_substituteText fun id hkey => hleft id (by
        rw [references, hid]
        exact Finset.mem_union_right _ hkey)]
      rfl

/-! ## A group that names the one made before it -/

/-- Make a group. -/
def makingGroup : BulkOperation where
  method := .post
  resource := .groups
  bulkId := some "a"
  data := .dict [("displayName", .str "chess")]

/-- Change another one, whose new name is a reference. -/
def naming : BulkOperation where
  method := .put
  resource := .groups
  resourceId := some "g2"
  data := .dict [("displayName", .str "bulkId:a")]
  dependsOn := references (.dict [("displayName", .str "bulkId:a")]) (some "g2")

/-- The request that does both, the change first. -/
def bothGroups : Json := .dict [("schemas", .list [.str bulkRequest]), ("Operations", .list [
  .dict [("method", .str "PUT"), ("path", .str "/Groups/g2"), ("data", naming.data)],
  .dict [("method", .str "POST"), ("path", .str "/Groups"), ("bulkId", .str "a"),
    ("data", makingGroup.data)]])]

theorem parseBulk_bothGroups :
    parseBulk asciiReaders bothGroups = .ok ⟨[makingGroup, naming], none⟩ := rfl

/-- Stores that give every group the same identifier. -/
def groupsNamed (id : String) : Stores Unit :=
  { oneUser with createGroup := fun _ => pure (resourceOf id "https://id.test/Groups", true) }

theorem reached_naming (id : String) :
    Reached asciiReaders (groupsNamed id) "https://id.test" ⟨[makingGroup, naming], none⟩ ()
      [(makingGroup, some id)] ⟨[("a", id)], 0⟩ () [naming] := by
  have hanswered : ∃ entry, (answer asciiReaders (groupsNamed id) "https://id.test" makingGroup
      {}).run () = (.ok (entry, ⟨[("a", id)], 0⟩), ()) := ⟨_, rfl⟩
  obtain ⟨entry, hentry⟩ := hanswered
  have hstart : Reached asciiReaders (groupsNamed id) "https://id.test"
      ⟨[makingGroup, naming], none⟩ () [] {} () [makingGroup, naming] := .start
  exact hstart.next hentry rfl

/-- The second one gets the identifier of the first. -/
theorem references_resolved_naming : ∃ ids : String → String,
    (∀ id ∈ references naming.data (some "g2"), ∃ other,
      declares other = some id ∧ (other, some (ids id)) ∈ [(makingGroup, some "g1")]) ∧
    Json.dict [("displayName", .str "g1")] = substitute ids naming.data ∧
    some "g2" = (some "g2").map (substituteText ids) ∧
    ((∀ other id, (other, some id) ∈ [(makingGroup, some "g1")] → reference id = none) →
      references (.dict [("displayName", .str "g1")]) (some "g2") = ∅) :=
  (references_resolved parseBulk_bothGroups (reached_naming "g1")).2 _ _ rfl rfl

/-- An identifier may look like a reference. -/
theorem not_references_resolved : ¬ ∀ (σ : Type) (py : Readers) (stores : Stores σ)
    (issuer : String) (document : Json) (request : BulkRequest),
      parseBulk py document = .ok request →
      ∀ (s s' : σ) (history : List (BulkOperation × Option String)) (progress : Progress)
        (operation : BulkOperation) (rest : List BulkOperation),
        Reached py stores issuer request s history progress s' (operation :: rest) →
        ∀ data resourceId, resolveReferences py progress.resolved operation.data = .ok data →
          resolveId py progress.resolved operation.resourceId = .ok resourceId →
            references data resourceId = ∅ := by
  intro h
  have hnone := h Unit asciiReaders (groupsNamed "bulkId:b") "https://id.test" bothGroups _
    parseBulk_bothGroups () () _ _ naming [] (reached_naming "bulkId:b")
    (.dict [("displayName", .str "bulkId:b")]) (some "g2") rfl rfl
  have hmem : "b" ∈ references (.dict [("displayName", .str "bulkId:b")]) (some "g2") := by decide
  rw [hnone] at hmem
  exact absurd hmem (Finset.notMem_empty "b")

end Bulk
end Scim
end CampusID
