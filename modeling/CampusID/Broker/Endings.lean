import CampusID.Broker.System

/-!
# Do tokens end with their session?

A token family is indexed under the session identifier its code was issued with, and
every elevation gives a session a new one.  A logout revokes what is indexed under the
identifier it is handed; the leaver sequence, what is indexed under the identifiers
still listed for the person; the administrator's console revokes nothing at all.  A
family none of these finds keeps rotating for fourteen days.

For both endings the argument is the same.  `Closed` says that of a group of lineages
no identifier is alive any more, so nothing can be issued under them again; `Barred`
adds that every family issued under them is dead.  The step that ends the sessions
establishes it, if it covers every family, and every later step keeps it.
-/

namespace CampusID

open Lib

namespace Broker

variable {Doc δ E : Type}

/-! ## Families -/

/-- No token of the family can be rotated. -/
def NoRotation (o : Orchestrator δ E) (s : Broker Doc δ) (F : String) : Prop :=
  ∀ token clientId time fresh,
    ¬ o.grants.SucceedsFor s.grantState F (.rotateRefreshToken token clientId time fresh)

/-- The family is dead. -/
def DeadIn (s : Broker Doc δ) (F : String) : Prop :=
  GrantStore.Dead F s.redis.strings s.now s.pending s.named

/-- Nothing is left of the family: no redeemed grant, no unexpired code and no unexpired
refresh token. -/
def Over (s : Broker Doc δ) (F : String) : Prop :=
  (∀ g ∈ s.pending, g.familyId ≠ F) ∧
    (∀ d (g : AuthorizationCode), s.redis.strings.live s.now (.code d) = some g →
      g.familyId ≠ F) ∧
    ∀ d (x : RefreshToken), s.redis.strings.live s.now (.refresh d) = some x → x.familyId ≠ F

/-- Something of the family is on its way to becoming a refresh token. -/
def Underway (s : Broker Doc δ) (F : String) : Prop :=
  (∃ d, ∃ g : AuthorizationCode, s.redis.strings.live s.now (.code d) = some g ∧
    g.familyId = F ∧ s.redis.strings.live s.now (.codeSpent d) = none) ∨
  ∃ g ∈ s.pending, g.familyId = F

/-- The family is over, or was revoked for good. -/
def Finished (s : Broker Doc δ) (F : String) : Prop := s.Over F ∨ s.DeadIn F

/-- The family is indexed under this identifier, and nothing of it is underway. -/
def Listed (s : Broker Doc δ) (sid F : String) : Prop :=
  F ∈ s.redis.members s.now (.sessionFamilies sid) ∧ ¬ s.Underway F

section Families

variable {o : Orchestrator δ E} {s s' : Broker Doc δ} {F : String}

theorem deadIn_of_over (hF : F ∈ s.named) (hover : s.Over F) : s.DeadIn F := by
  obtain ⟨hpending, hcode, hrefresh⟩ := hover
  refine ⟨Or.inl hF, hpending, fun d g t hx hgF => Or.inl ?_, fun d x t hx hxF => Or.inl ?_⟩
  · by_contra hlive
    exact hcode d g (Table.live_eq_some.mpr ⟨_, hx, Entry.live_some.mpr (not_le.mp hlive)⟩) hgF
  · by_contra hlive
    exact hrefresh d x (Table.live_eq_some.mpr ⟨_, hx, Entry.live_some.mpr (not_le.mp hlive)⟩) hxF

theorem deadIn_of_finished (hF : F ∈ s.named) (hfin : s.Finished F) : s.DeadIn F := by
  rcases hfin with hover | hdead
  · exact deadIn_of_over hF hover
  · exact hdead

/-- **Nothing of a dead family rotates.** -/
theorem noRotation_of_deadIn (h : Sound o s) (hdead : s.DeadIn F) : NoRotation o s F :=
  fun _ _ _ _ => GrantStore.not_succeedsFor_of_dead (s := s.grantState) h.expiries hdead _

theorem DeadIn.of_summary (h : s.DeadIn F) {new : Option SidRecord}
    (hs : Summary o s s' new) : s'.DeadIn F := by
  unfold DeadIn
  rw [hs.now, hs.pending, hs.named]
  exact h.congr (fun _ => hs.grants.strings _ (by simp)) (fun _ => hs.grants.strings _ (by simp))
    (fun _ => hs.grants.strings _ (by simp)) (hs.grants.strings _ (by simp))

theorem Listed.of_summary {sid : String} (h : s.Listed sid F) {new : Option SidRecord}
    (hs : Summary o s s' new) : s'.Listed sid F := by
  have hlive : ∀ k : Key, (∀ x, k ≠ .session x) →
      s'.redis.strings.live s'.now k = s.redis.strings.live s.now k := by
    intro k hk
    unfold Table.live
    rw [hs.now, hs.grants.strings k hk]
  refine ⟨?_, ?_⟩
  · unfold Store.members Table.live
    rw [hs.now, hs.grants.sets]
    exact h.1
  · rintro (⟨d, g, hg, hgF, hspent⟩ | hpending)
    · rw [hlive _ (by simp)] at hg hspent
      exact h.2 (Or.inl ⟨d, g, hg, hgF, hspent⟩)
    · rw [hs.pending] at hpending
      exact h.2 (Or.inr hpending)

theorem DeadIn.call (h : s.DeadIn F) (hs : Sound o s) {c : GrantCall}
    (ha : Allowed o s (.call c)) : (step o s (.call c)).DeadIn F :=
  GrantStore.step_dead ha.grants hs.expiries h

/-- **Revoking the families of a session** kills those that are listed. -/
theorem deadIn_revoke (h : Sound o s) {sid : String} (hlisted : s.Listed sid F) :
    (step o s (.call (.revokeSessionFamilies sid))).DeadIn F := by
  obtain ⟨families, hmem, hends⟩ := o.grants.revokeSessionFamilies_ends s.now s.redis sid
  have hrev : o.grants.Revokes s.grantState F (.call (.revokeSessionFamilies sid)) :=
    ((hends.map GrantOutcome.revoked).revokes F).mpr ((hmem F).mpr hlisted.1)
  refine GrantStore.step_kills_of_not_inFlight (s := s.grantState) trivial h.expiries hrev ?_
  rintro (⟨d, g, -, hg, hgF, hspent⟩ | hpending)
  · exact hlisted.2 (Or.inl ⟨d, g, hg, hgF, hspent⟩)
  · exact hlisted.2 (Or.inr hpending)

theorem Listed.revoke_of_ne {sid sid' : String} (h : s.Listed sid F) (hne : sid ≠ sid') :
    (step o s (.call (.revokeSessionFamilies sid'))).Listed sid F := by
  obtain ⟨families, -, hends⟩ := o.grants.revokeSessionFamilies_ends s.now s.redis sid'
  rw [step_revokeSessionFamilies, hends.run]
  have hcode : ∀ k : Key, (∀ G, k ≠ .familyRevoked G) →
      (o.grants.markedAll s.now s.redis families).strings.live s.now k =
        s.redis.strings.live s.now k := by
    intro k hk
    unfold Table.live
    rw [o.grants.markedAll_strings_of_ne _ _ _ hk]
  refine ⟨?_, ?_⟩
  · have hkey : SetKey.sessionFamilies sid ≠ .sessionFamilies sid' := by simpa using hne
    have hset : ((o.grants.markedAll s.now s.redis families).sets.erase (.sessionFamilies sid'))
        (.sessionFamilies sid) = s.redis.sets (.sessionFamilies sid) := by
      rw [Table.erase_of_ne _ hkey, o.grants.markedAll_sets]
    obtain ⟨ms, hms, hF⟩ := Store.mem_members.mp h.1
    refine Store.mem_members.mpr ⟨ms, ?_, hF⟩
    unfold Table.live at hms ⊢
    rw [← hset] at hms
    exact hms
  · rintro (⟨d, g, hg, hgF, hspent⟩ | hpending)
    · replace hg := (hcode _ (by simp)).symm.trans hg
      replace hspent := (hcode _ (by simp)).symm.trans hspent
      exact h.2 (Or.inl ⟨d, g, hg, hgF, hspent⟩)
    · exact h.2 (Or.inr hpending)

/-- **Revoking the families of a list of sessions** kills those listed under one of
them. -/
theorem deadIn_revokeAll (h : Sound o s) {sids : List String}
    (hF : s.DeadIn F ∨ ∃ sid ∈ sids, s.Listed sid F) :
    ((sids.map fun sid => BrokerOp.call (.revokeSessionFamilies sid)).foldl (step o) s).DeadIn
      F := by
  induction sids generalizing s with
  | nil =>
    rcases hF with hdead | ⟨sid, hsid, -⟩
    · exact hdead
    · cases hsid
  | cons x sids ih =>
    have hs' : Sound o (step o s (.call (.revokeSessionFamilies x))) := h.call trivial
    refine ih hs' ?_
    rcases hF with hdead | ⟨sid, hsid, hlisted⟩
    · exact Or.inl (hdead.call h trivial)
    · by_cases hx : sid = x
      · subst hx
        exact Or.inl (deadIn_revoke h hlisted)
      · refine Or.inr ⟨sid, ?_, hlisted.revoke_of_ne hx⟩
        exact (List.mem_cons.mp hsid).resolve_left hx

end Families

/-! ## Groups of lineages -/

/-- Of these lineages no identifier is alive, and none will be: they have all begun. -/
structure Closed (O : String → Prop) (s : Broker Doc δ) : Prop where
  known : ∀ x, O x → s.Known x
  closed : ∀ a ∈ s.issued, O a.origin → ¬ s.Alive a.sid

/-- The family's code was issued under an identifier of one of these lineages. -/
def Below (O : String → Prop) (s : Broker Doc δ) (F : String) : Prop :=
  ∃ b ∈ s.issued, O b.origin ∧ (F, b.sid) ∈ s.families

/-- The lineages are closed, and their families dead. -/
structure Barred (O : String → Prop) (s : Broker Doc δ) : Prop extends Closed O s where
  dead : ∀ F, Below O s F → s.DeadIn F

section Lineages

variable {o : Orchestrator δ E} {s s' : Broker Doc δ} {O : String → Prop}

theorem Summary.not_alive {new : Option SidRecord} (hs : Summary o s s' new) {a : SidRecord}
    (ha : a ∈ s.issued) (hdead : ¬ s.Alive a.sid) : ¬ s'.Alive a.sid := by
  unfold Alive at hdead ⊢
  rw [not_not] at hdead ⊢
  rw [hs.now]
  refine hs.carries.live_eq_none ?_ hdead
  cases new with
  | none => simp
  | some b => exact fun heq => hs.fresh b rfl ⟨a, ha, Option.some.inj heq⟩

theorem Closed.mem_issued (h : Closed O s) {new : Option SidRecord} (hs : Summary o s s' new)
    {a : SidRecord} (ha : a ∈ s'.issued) (hO : O a.origin) : a ∈ s.issued := by
  rw [hs.issued] at ha
  rcases List.mem_append.mp ha with hnew | hold
  · obtain rfl : new = some a := Option.mem_toList.mp hnew
    rcases hs.origin a rfl with hself | ⟨old, hmem, horigin, -, halive, -⟩
    · -- a lineage starts here, and those of the group have all begun
      exact absurd (h.known _ (hself ▸ hO)) (hs.fresh a rfl)
    · exact absurd halive (h.closed old hmem (horigin ▸ hO))
  · exact hold

theorem Closed.of_summary (h : Closed O s) {new : Option SidRecord}
    (hs : Summary o s s' new) : Closed O s' := by
  refine ⟨fun x hx => ?_, fun a ha hO => ?_⟩
  · obtain ⟨b, hb, hsid⟩ := h.known x hx
    exact ⟨b, hs.issued ▸ List.mem_append_right _ hb, hsid⟩
  · have hold := h.mem_issued hs ha hO
    exact hs.not_alive hold (h.closed a hold hO)

theorem Barred.of_summary (h : Barred O s) {new : Option SidRecord}
    (hs : Summary o s s' new) : Barred O s' := by
  refine ⟨h.toClosed.of_summary hs, fun F hF => ?_⟩
  obtain ⟨b, hb, hO, hfam⟩ := hF
  rw [hs.families] at hfam
  exact (h.dead F ⟨b, h.toClosed.mem_issued hs hb hO, hO, hfam⟩).of_summary hs

theorem alive_call (s : Broker Doc δ) (c : GrantCall) (sid : String) :
    (step o s (.call c)).Alive sid ↔ s.Alive sid := by
  unfold Alive Table.live
  rw [show (step o s (.call c)).redis.strings (.session sid) = s.redis.strings (.session sid) from
    (call_sameSessions o.grants s.now s.redis c).1 sid]
  rfl

theorem Closed.call (h : Closed O s) (c : GrantCall) : Closed O (step o s (.call c)) :=
  ⟨h.known, fun a ha hO => (alive_call s c a.sid).not.mpr (h.closed a ha hO)⟩

theorem Closed.below_of_call (h : Closed O s) {c : GrantCall} (ha : Allowed o s (.call c))
    {F : String} (hF : Below O (step o s (.call c)) F) : Below O s F := by
  obtain ⟨b, hb, hO, hfam⟩ := hF
  refine ⟨b, hb, hO, ?_⟩
  cases c with
  | issueCode g code =>
    rcases List.mem_cons.mp hfam with heq | hfam
    · obtain ⟨-, hsid⟩ := Prod.mk.inj heq
      exact absurd (hsid ▸ ha.2) (h.closed b hb hO)
    · exact hfam
  | _ => exact hfam

theorem Barred.call (h : Barred O s) (hs : Sound o s) {c : GrantCall}
    (ha : Allowed o s (.call c)) : Barred O (step o s (.call c)) :=
  ⟨h.toClosed.call c, fun F hF => (h.dead F (h.toClosed.below_of_call ha hF)).call hs ha⟩

/-- **A primitive step keeps lineages barred.** -/
theorem Barred.primitive (h : Barred O s) (hs : Sound o s) {op : BrokerOp Doc δ}
    (hprim : Primitive op) (ha : Allowed o s op) : Barred O (step o s op) := by
  by_cases hop : OnSessions op
  · obtain ⟨new, hsum⟩ := step_summary hop ha hs
    exact h.of_summary hsum
  · cases op with
    | tick elapsed =>
      refine ⟨⟨h.known, fun a ham hO halive => h.closed a ham hO ?_⟩, fun F hF => ?_⟩
      · obtain ⟨session, hl⟩ := Option.ne_none_iff_exists'.mp halive
        have hearlier : s.redis.strings.live s.now (.session a.sid) = some session :=
          Table.live_antitone (le_add_of_nonneg_right ha) hl
        unfold Alive
        rw [hearlier]
        simp
      · exact (h.dead F hF).tick ha
    | elsewhere world => exact ⟨⟨h.known, h.closed⟩, h.dead⟩
    | abandon g =>
      refine ⟨⟨h.known, h.closed⟩, fun F hF => ?_⟩
      exact (h.dead F hF).pending_mono fun g' hg' =>
        (h.dead F hF).pending g' (List.mem_of_mem_erase hg')
    | call c => exact h.call hs ha
    | logout sid => exact hprim.elim
    | deprovision personUuid before source on => exact hprim.elim
    | _ => exact absurd trivial hop

/-- **Every step keeps lineages barred.** -/
theorem Barred.step (h : Barred O s) (hs : Sound o s) {op : BrokerOp Doc δ}
    (ha : Allowed o s op) : Barred O (step o s op) := by
  obtain ⟨ops, hrun⟩ := step_primitive ha
  have hboth : Sound o (Broker.step o s op) ∧ Barred O (Broker.step o s op) := by
    refine hrun.invariant (I := fun t => Sound o t ∧ Barred O t) ?_ ⟨hs, h⟩
    rintro t op' ⟨hst, hbt⟩ ⟨hprim, hallowed⟩
    exact ⟨hst.primitive hprim hallowed, hbt.primitive hst hprim hallowed⟩
  exact hboth.2

theorem Barred.noRotation (h : Barred O s) (hs : Sound o s) {F : String} (hF : Below O s F) :
    NoRotation o s F :=
  noRotation_of_deadIn hs (h.dead F hF)

end Lineages

/-! ## The steps that end sessions -/

/-- The step ends the session under this identifier: a logout with it, or the console's
termination of its person, of every session or of those a handle names. -/
def Ends (s : Broker Doc δ) : BrokerOp Doc δ → SidRecord → Prop
  | .logout sid, a => a.sid = sid
  | .terminate personUuid none, a => a.subject = personUuid ∧ s.Alive a.sid
  | .terminate personUuid (some handle), a =>
    a.subject = personUuid ∧ s.Alive a.sid ∧ handle.toList <+: a.sid.toList
  | _, _ => False

/-- The family's code was issued under an identifier of the session's lineage. -/
def DescendsFrom (s : Broker Doc δ) (F : String) (a : SidRecord) : Prop :=
  Below (· = a.origin) s F

/-- The family's code was issued under a session of the person. -/
def DescendsFromPerson (s : Broker Doc δ) (F personUuid : String) : Prop :=
  ∃ b ∈ s.issued, b.subject = personUuid ∧ (F, b.sid) ∈ s.families

/-- The step revokes the families indexed under one identifier, and this is one of
them. -/
def LoggedOut (s : Broker Doc δ) : BrokerOp Doc δ → String → Prop
  | .logout sid, F => s.Listed sid F
  | _, _ => False

/-- **A covered ending**: every family of the lineage is finished, or the step is a
logout that finds it. -/
def Covered (s : Broker Doc δ) (op : BrokerOp Doc δ) : Prop :=
  ∀ a ∈ s.issued, s.Ends op a → ∀ F, s.DescendsFrom F a → s.Finished F ∨ s.LoggedOut op F

section Endings

variable {o : Orchestrator δ E} {s : Broker Doc δ}

theorem mem_index_of_alive (h : Sound o s) {a : SidRecord} (ha : a ∈ s.issued)
    (halive : s.Alive a.sid) :
    a.sid ∈ s.redis.members s.now (o.sessions.subjectIndex a.subject) := by
  obtain ⟨session, hl⟩ := Option.ne_none_iff_exists'.mp halive
  obtain ⟨x, hx, -⟩ := Table.live_eq_some.mp hl
  obtain ⟨b, hb, hsid, hsub⟩ := h.lineages.stored a.sid _ hx
  obtain rfl : a = b := h.lineages.unique a ha b hb hsid.symm
  rw [hsub]
  exact h.tracked.mem_index hl

theorem closed_of_ended {s' : Broker Doc δ} (h : Sound o s) {a : SidRecord} (ha : a ∈ s.issued)
    (halive : s.Alive a.sid) (hs : Summary o s s' none) (hended : ¬ s'.Alive a.sid) :
    Closed (· = a.origin) s' := by
  have hissued : s'.issued = s.issued := hs.issued
  refine ⟨?_, fun b hb hO => ?_⟩
  · rintro x rfl
    unfold Known
    rw [hissued]
    exact h.lineages.rooted a ha
  · rw [hissued] at hb
    by_cases hba : b = a
    · rwa [hba]
    · refine hs.not_alive hb fun hbalive => hba ?_
      exact h.lineages.single b hb a ha hO hbalive halive

theorem not_alive_of_strings {s' : Broker Doc δ} {sid : String}
    (h : s'.redis.strings (.session sid) = none) : ¬ s'.Alive sid := by
  unfold Alive
  rw [not_not]
  exact Table.live_eq_none.mpr fun e he => by rw [h] at he; cases he

theorem not_alive_destroy (s : Broker Doc δ) (sid : String) :
    ¬ (step o s (.destroy sid)).Alive sid := by
  refine not_alive_of_strings ?_
  show (Redis.run s.now (o.sessions.destroy sid) s.redis).2.strings (.session sid) = none
  rw [o.sessions.run_destroy, SessionStore.destroyedAt_strings, Table.erase_self]

theorem not_alive_terminate (h : Sound o s) {personUuid : String} {handle : Option String}
    {a : SidRecord} (ha : a ∈ s.issued) (hends : s.Ends (.terminate personUuid handle) a) :
    ¬ (step o s (.terminate personUuid handle)).Alive a.sid := by
  cases handle with
  | none =>
    obtain ⟨rfl, halive⟩ := hends
    have hmem := mem_index_of_alive h ha halive
    refine not_alive_of_strings ?_
    show (Redis.run s.now (terminatePerson o.sessions a.subject none) s.redis).2.strings
      (.session a.sid) = none
    rw [run_terminatePerson_none, SessionStore.run_terminateSubject]
    exact o.sessions.destroyedAll_strings_of_mem s.now s.redis
      ((List.mem_insertionSort _).mpr hmem)
  | some handle =>
    obtain ⟨rfl, halive, hhandle⟩ := hends
    have hmem := mem_index_of_alive h ha halive
    refine not_alive_of_strings ?_
    show (Redis.run s.now (terminatePerson o.sessions a.subject (some handle)) s.redis).2.strings
      (.session a.sid) = none
    rw [run_terminatePerson_some]
    refine o.sessions.destroyedAll_strings_of_mem s.now s.redis ?_
    unfold matching
    rw [List.mem_filter, List.mem_insertionSort]
    exact ⟨hmem, List.isPrefixOf_iff_prefix.mpr hhandle⟩

theorem Ends.alive {op : BrokerOp Doc δ} {a : SidRecord} (h : s.Ends op a)
    (hallowed : Allowed o s op) : s.Alive a.sid := by
  cases op with
  | logout sid =>
    obtain rfl : a.sid = sid := h
    exact hallowed
  | terminate personUuid handle =>
    cases handle with
    | none => exact h.2
    | some handle => exact h.2.1
  | _ => exact h.elim

/-- **A covered ending bars the lineage.** -/
theorem barred_of_covered (h : Sound o s) {op : BrokerOp Doc δ} (hallowed : Allowed o s op)
    (hcovered : s.Covered op) {a : SidRecord} (ha : a ∈ s.issued) (hends : s.Ends op a) :
    Barred (· = a.origin) (step o s op) := by
  have halive := hends.alive hallowed
  have hcovers := hcovered a ha hends
  have hfinished : ∀ F, s.DescendsFrom F a → s.Finished F → s.DeadIn F := by
    rintro F ⟨b, -, -, hfam⟩ hfin
    exact deadIn_of_finished (h.named _ hfam) hfin
  cases op with
  | logout sid =>
    obtain rfl : a.sid = sid := hends
    have hsum := summary_destroy h a.sid
    have hclosed := closed_of_ended h ha halive hsum (not_alive_destroy s a.sid)
    have hsound := h.of_summary hsum
    rw [step_logout]
    refine ⟨hclosed.call _, fun F hF => ?_⟩
    have hbelow : s.DescendsFrom F a := hclosed.below_of_call (o := o)
      (c := .revokeSessionFamilies a.sid) trivial hF
    rcases hcovers F hbelow with hfin | hlisted
    · exact ((hfinished F hbelow hfin).of_summary hsum).call hsound trivial
    · exact deadIn_revoke hsound (Listed.of_summary hlisted hsum)
  | terminate personUuid handle =>
    have hsum := summary_terminate h personUuid handle
    refine ⟨closed_of_ended h ha halive hsum (not_alive_terminate h ha hends), fun F hF => ?_⟩
    -- the console revokes nothing, so nothing may have been left
    have hbelow : s.DescendsFrom F a := hF
    exact (hfinished F hbelow ((hcovers F hbelow).resolve_right id)).of_summary hsum
  | _ => exact hends.elim

/-- **Ending a session ends its tokens**, in every run whose endings are covered: after
the logout, or the console's termination, nothing descending from a code of the
session's lineage is rotated. -/
theorem tokens_end_with_session {world : World Doc δ} {pre post : List (BrokerOp Doc δ)}
    {op : BrokerOp Doc δ} {t : Broker Doc δ}
    (hrun : Run (fun s op => Allowed o s op ∧ s.Covered op) (step o) (initial world)
      (pre ++ op :: post) t)
    {a : SidRecord} (ha : a ∈ (pre.foldl (step o) (initial world)).issued)
    (hends : (pre.foldl (step o) (initial world)).Ends op a)
    {F : String} (hF : t.DescendsFrom F a) : NoRotation o t F := by
  obtain ⟨hsound, hbarred⟩ : Sound o t ∧ Barred (· = a.origin) t := by
    refine hrun.after (fun _ _ hs hop => hs.step hop.1)
      (fun _ _ hs hb hop => hb.step hs hop.1) (fun m hm hpre hop => ?_) (sound_initial o world)
    obtain rfl := hpre.eq_foldl
    exact barred_of_covered hm hop.1 hop.2 ha hends
  exact hbarred.noRotation hsound hF

end Endings

/-! ### A session that was elevated -/

/-- A broker without downstream systems. -/
def sampleOrchestrator : Orchestrator Unit Empty where
  sessions := { sha256 := id }
  grants := GrantStore.sampleStore
  targets := []
  retry := ⟨fun _ => true, fun _ => ""⟩

/-- Nobody is known yet. -/
def sampleWorld : World Unit Unit where
  redis := Store.empty
  now := 0
  today := 0
  rules := {}
  registry := {}
  lifecycle := {}
  downstream := ()

/-- Where a run of the sample broker leads. -/
def sampleRun (ops : List (BrokerOp Unit Unit)) : Broker Unit Unit :=
  ops.foldl (step sampleOrchestrator) (initial sampleWorld)

/-- A person logs in, and an application obtains a refresh token. -/
def authorised : List (BrokerOp Unit Unit) :=
  [.create { idpEntityId := "idp", nameId := "alice", personUuid := some "p" } "s1",
    .call (.issueCode GrantStore.sampleGrant "c1"),
    .call (.redeemCode "c1" "app" "https://app/cb"),
    .call (.issueRefreshToken (GrantStore.firstRefresh GrantStore.sampleGrant 0) "r1")]

theorem authorised_run : Run (Allowed sampleOrchestrator) (step sampleOrchestrator)
    (initial sampleWorld) authorised (sampleRun authorised) := by
  refine .cons ?_ (.cons ⟨⟨⟨"c1", rfl, rfl, rfl⟩, ?_, rfl⟩, ?_⟩ (.cons trivial
    (.cons ⟨⟨"r1", rfl, rfl, rfl⟩, GrantStore.sampleGrant, .head _, 0, rfl⟩ (.nil _))))
  · simp [Allowed, Known, initial]
  · exact List.not_mem_nil
  · exact Option.some_ne_none _

/-- The family is listed under the identifier its code was issued with, and its code is
spent. -/
theorem authorised_listed : (sampleRun authorised).Listed "s1" "f1" := by
  refine ⟨by decide, ?_⟩
  rintro (⟨d, g, hg, -, hspent⟩ | ⟨g, hg, -⟩)
  · by_cases hd : d = "c1"
    · subst hd
      exact absurd (show some () = none from hspent) (by simp)
    · have hnone : (sampleRun authorised).redis.strings.live 0 (.code d) = none := by
        have hstrings : (sampleRun authorised).redis.strings =
            ((((Table.empty.put (.session "s1") (sampleOrchestrator.sessions.newSession
              { idpEntityId := "idp", nameId := "alice", personUuid := some "p" } "s1" 0)
                (some (30 * 60 * second))).put (.code "c1") GrantStore.sampleGrant
              (some (60 * second))).put (.codeSpent "c1") () (some (60 * second))).put
              (.refresh "r1") (GrantStore.firstRefresh GrantStore.sampleGrant 0)
              (some (14 * 86400 * second))) := rfl
        rw [hstrings, Table.live_put_of_ne _ (by simp), Table.live_put_of_ne _ (by simp),
          Table.live_put_of_ne _ (by simpa using hd), Table.live_put_of_ne _ (by simp)]
        rfl
      exact absurd (hnone.symm.trans hg) (by simp)
  · cases hg

theorem authorised_families {F sid : String} (h : (F, sid) ∈ (sampleRun authorised).families) :
    F = "f1" ∧ sid = "s1" := by
  have hmem : (F, sid) ∈ [("f1", "s1")] := h
  simpa using hmem

/-- A logout with the identifier the code was issued under. -/
theorem tokens_end_with_first_session :
    NoRotation sampleOrchestrator (sampleRun (authorised ++ [.logout "s1"])) "f1" := by
  have hrun : Run (fun s op => Allowed sampleOrchestrator s op ∧ s.Covered op)
      (step sampleOrchestrator) (initial sampleWorld) (authorised ++ [.logout "s1"])
      (sampleRun (authorised ++ [.logout "s1"])) := by
    refine Run.append_iff.mpr ⟨_, authorised_run.and_of_forall ?_,
      .cons ⟨Option.some_ne_none _, ?_⟩ (.nil _)⟩
    · intro op hop s a _ hends
      simp only [authorised, List.mem_cons, List.not_mem_nil, or_false] at hop
      rcases hop with rfl | rfl | rfl | rfl <;> exact hends.elim
    · rintro a - - F ⟨b, -, -, hfam⟩
      obtain ⟨rfl, -⟩ := authorised_families hfam
      exact Or.inr authorised_listed
  exact tokens_end_with_session hrun (a := ⟨"s1", "s1", "p"⟩) (.head _) rfl
    ⟨⟨"s1", "s1", "p"⟩, .head _, rfl, .head _⟩

/-- An elevation in between. -/
def elevated : List (BrokerOp Unit Unit) :=
  authorised ++ [.elevate "s1" "mfa" ["otp"] "s2"]

theorem elevated_run : Run (Allowed sampleOrchestrator) (step sampleOrchestrator)
    (initial sampleWorld) elevated (sampleRun elevated) := by
  refine Run.append_iff.mpr ⟨_, authorised_run, .cons ?_ (.nil _)⟩
  rintro ⟨a, ha, hsid⟩
  obtain rfl : a = ⟨"s1", "s1", "p"⟩ := List.mem_singleton.mp ha
  exact absurd hsid (by decide)

/-- **A refresh token that survives the logout.**  Its family is indexed under the
identifier the session had before it was elevated. -/
theorem token_survives_logout :
    ¬ ∀ (o : Orchestrator Unit Empty) (world : World Unit Unit)
      (pre post : List (BrokerOp Unit Unit)) (op : BrokerOp Unit Unit) (t : Broker Unit Unit),
      Run (Allowed o) (step o) (initial world) (pre ++ op :: post) t →
      ∀ a ∈ (pre.foldl (step o) (initial world)).issued,
        (pre.foldl (step o) (initial world)).Ends op a →
        ∀ F, t.DescendsFrom F a → NoRotation o t F := by
  intro h
  have hrun : Run (Allowed sampleOrchestrator) (step sampleOrchestrator) (initial sampleWorld)
      (elevated ++ [.logout "s2"]) (sampleRun (elevated ++ [.logout "s2"])) :=
    Run.append_iff.mpr ⟨_, elevated_run, .cons (Option.some_ne_none _) (.nil _)⟩
  refine h sampleOrchestrator sampleWorld elevated [] (.logout "s2") _ hrun ⟨"s2", "s1", "p"⟩
    (.head _) rfl "f1" ⟨⟨"s1", "s1", "p"⟩, .tail _ (.head _), rfl, .head _⟩ "r1" "app" 0 "r2" ?_
  rfl

/-! ## The leaver sequence -/

/-- **A covered leaver**: every family of the person is finished, or indexed under an
identifier that is still listed for the person. -/
def LeaverCovered (o : Orchestrator δ E) (s : Broker Doc δ) : BrokerOp Doc δ → Prop
  | .deprovision personUuid _ _ _ => ∀ F, s.DescendsFromPerson F personUuid →
      s.Finished F ∨
        ∃ sid ∈ s.redis.members s.now (o.sessions.subjectIndex personUuid), s.Listed sid F
  | _ => True

section Leavers

variable {o : Orchestrator δ E} {s : Broker Doc δ}

/-- The lineages of a person. -/
def LineageOf (s : Broker Doc δ) (personUuid x : String) : Prop :=
  ∃ a ∈ s.issued, a.subject = personUuid ∧ a.origin = x

theorem subject_of_lineageOf (h : Sound o s) {personUuid : String} {b : SidRecord}
    (hb : b ∈ s.issued) (hO : s.LineageOf personUuid b.origin) : b.subject = personUuid := by
  obtain ⟨a, ha, hsub, horigin⟩ := hO
  exact (h.lineages.subject b hb a ha horigin.symm).trans hsub

theorem closed_of_terminate (h : Sound o s) (personUuid : String) :
    Closed (s.LineageOf personUuid) (step o s (.terminate personUuid none)) := by
  have hsum := summary_terminate h personUuid none
  have hissued : (step o s (.terminate personUuid none)).issued = s.issued := rfl
  refine ⟨?_, fun b hb hO => ?_⟩
  · rintro x ⟨a, ha, -, rfl⟩
    exact h.lineages.rooted a ha
  · rw [hissued] at hb
    by_cases halive : s.Alive b.sid
    · exact not_alive_terminate h hb ⟨subject_of_lineageOf h hb hO, halive⟩
    · exact hsum.not_alive hb halive

theorem foldl_revoke_closed {O : String → Prop} (h : Closed O s) (sids : List String) :
    let s' := (sids.map fun sid => BrokerOp.call (.revokeSessionFamilies sid)).foldl (step o) s
    Closed O s' ∧ ∀ F, Below O s' F → Below O s F := by
  induction sids generalizing s with
  | nil => exact ⟨h, fun _ hF => hF⟩
  | cons sid sids ih =>
    obtain ⟨hclosed, hbelow⟩ := ih (h.call (o := o) (.revokeSessionFamilies sid))
    refine ⟨hclosed, fun F hF => ?_⟩
    exact h.below_of_call (o := o) (c := .revokeSessionFamilies sid) trivial (hbelow F hF)

/-- **A covered leaver bars every lineage of the person.** -/
theorem barred_of_leaverCovered (h : Sound o s) {personUuid : String} {before : Finset String}
    {source : Source} {on : Option Int} {delta : Delta} {world : World Doc δ}
    (hcovered : LeaverCovered o s (.deprovision personUuid before source on))
    (hrun : (o.deprovision personUuid before source on : Action Doc δ E _).run s.world =
      (.ok delta, world)) :
    Barred (s.LineageOf personUuid) (step o s (.deprovision personUuid before source on)) := by
  have hsum := summary_terminate h personUuid none
  have hsound := h.of_summary hsum
  rw [step_deprovision_of_ok hrun]
  unfold leaverOps
  rw [List.cons_append, List.foldl_cons, List.foldl_append, List.foldl_cons, List.foldl_nil]
  obtain ⟨hclosed, hbelow⟩ := foldl_revoke_closed (o := o) (closed_of_terminate h personUuid)
    (o.leaverSids personUuid s.world)
  refine ⟨⟨hclosed.known, hclosed.closed⟩, fun F hF => ?_⟩
  obtain ⟨b, hb, hO, hfam⟩ : Below (s.LineageOf personUuid) s F := hbelow F hF
  have hperson : s.DescendsFromPerson F personUuid :=
    ⟨b, hb, subject_of_lineageOf h hb hO, hfam⟩
  refine deadIn_revokeAll hsound ?_
  rcases hcovered F hperson with hfin | ⟨sid, hsid, hlisted⟩
  · exact Or.inl ((deadIn_of_finished (h.named _ hfam) hfin).of_summary hsum)
  · refine Or.inr ⟨sid, ?_, hlisted.of_summary hsum⟩
    unfold Orchestrator.leaverSids
    rw [SessionStore.run_terminateSubject]
    exact (List.mem_insertionSort _).mpr hsid

/-- **Deprovisioning a person ends their tokens**, in every run whose leavers are
covered: once the leaver sequence returned, nothing descending from a code issued under
a session of the person is rotated. -/
theorem tokens_end_with_person {world : World Doc δ} {pre post : List (BrokerOp Doc δ)}
    {personUuid : String} {before : Finset String} {source : Source} {on : Option Int}
    {t : Broker Doc δ}
    (hrun : Run (fun s op => Allowed o s op ∧ LeaverCovered o s op) (step o) (initial world)
      (pre ++ .deprovision personUuid before source on :: post) t)
    {delta : Delta} {world' : World Doc δ}
    (hreturned : (o.deprovision personUuid before source on : Action Doc δ E _).run
      (pre.foldl (step o) (initial world)).world = (.ok delta, world'))
    {b : SidRecord} (hb : b ∈ (pre.foldl (step o) (initial world)).issued)
    (hperson : b.subject = personUuid) {F : String} (hF : t.DescendsFrom F b) :
    NoRotation o t F := by
  obtain ⟨hsound, hbarred⟩ : Sound o t ∧
      Barred ((pre.foldl (step o) (initial world)).LineageOf personUuid) t := by
    refine hrun.after (fun _ _ hs hop => hs.step hop.1)
      (fun _ _ hs hb hop => hb.step hs hop.1) (fun m hm hpre hop => ?_) (sound_initial o world)
    obtain rfl := hpre.eq_foldl
    exact barred_of_leaverCovered hm hop.2 hreturned
  refine hbarred.noRotation hsound ?_
  obtain ⟨c, hc, horigin, hfam⟩ := hF
  exact ⟨c, hc, ⟨b, hb, hperson, horigin.symm⟩, hfam⟩

end Leavers

/-! ### Sessions that are gone already -/

/-- The person leaves while the session the code was issued under is still there. -/
theorem tokens_end_with_listed_person :
    NoRotation sampleOrchestrator
      (sampleRun (authorised ++ [.deprovision "p" {"student"} .scim none])) "f1" := by
  have hrun : Run (fun s op => Allowed sampleOrchestrator s op ∧
        LeaverCovered sampleOrchestrator s op) (step sampleOrchestrator) (initial sampleWorld)
      (authorised ++ [.deprovision "p" {"student"} .scim none])
      (sampleRun (authorised ++ [.deprovision "p" {"student"} .scim none])) := by
    refine Run.append_iff.mpr ⟨_, authorised_run.and_of_forall ?_, .cons ⟨trivial, ?_⟩ (.nil _)⟩
    · intro op hop s
      simp only [authorised, List.mem_cons, List.not_mem_nil, or_false] at hop
      rcases hop with rfl | rfl | rfl | rfl <;> exact trivial
    · rintro F ⟨b, -, -, hfam⟩
      obtain ⟨rfl, -⟩ := authorised_families hfam
      exact Or.inr ⟨"s1", by decide, authorised_listed⟩
  exact tokens_end_with_person hrun rfl (b := ⟨"s1", "s1", "p"⟩) (.head _) rfl
    ⟨⟨"s1", "s1", "p"⟩, .head _, rfl, .head _⟩

/-- **A refresh token that survives its person.**  The session was elevated, so the
identifier its family is indexed under is no longer listed. -/
theorem token_survives_deprovision :
    ¬ ∀ (o : Orchestrator Unit Empty) (world : World Unit Unit)
      (pre post : List (BrokerOp Unit Unit)) (personUuid : String) (before : Finset String)
      (source : Source) (on : Option Int) (t : Broker Unit Unit) (delta : Delta)
      (world' : World Unit Unit),
      Run (Allowed o) (step o) (initial world)
        (pre ++ .deprovision personUuid before source on :: post) t →
      (o.deprovision personUuid before source on : Action Unit Unit Empty _).run
        (pre.foldl (step o) (initial world)).world = (.ok delta, world') →
      ∀ b ∈ (pre.foldl (step o) (initial world)).issued, b.subject = personUuid →
        ∀ F, t.DescendsFrom F b → NoRotation o t F := by
  intro h
  have hrun : Run (Allowed sampleOrchestrator) (step sampleOrchestrator) (initial sampleWorld)
      (elevated ++ [.deprovision "p" {"student"} .scim none])
      (sampleRun (elevated ++ [.deprovision "p" {"student"} .scim none])) :=
    Run.append_iff.mpr ⟨_, elevated_run, .cons trivial (.nil _)⟩
  refine h sampleOrchestrator sampleWorld elevated [] "p" {"student"} .scim none _ _ _ hrun rfl
    ⟨"s1", "s1", "p"⟩ (.tail _ (.head _)) rfl "f1" ⟨⟨"s1", "s1", "p"⟩, .tail _ (.head _), rfl,
      .head _⟩ "r1" "app" 0 "r2" ?_
  rfl

end Broker

end CampusID
