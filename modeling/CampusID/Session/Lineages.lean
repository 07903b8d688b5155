import CampusID.Session.Effects

/-!
# Lineages of session identifiers

A session keeps its subject and its absolute expiry when it is rotated or elevated, and
changes its identifier.  The identifiers one session has had are a *lineage*, named by the
one it started under.

The program does not keep lineages.  A statement about runs records every identifier that
was ever handed out, and `Lineages` is what holds of that record: the store knows no other
identifiers, and of one lineage at most one is alive.
-/

namespace CampusID

open Lib
open SessionStore (Carries)

/-- A session identifier that was handed out. -/
structure SidRecord where
  sid : String
  origin : String
  subject : String
  deriving DecidableEq, Repr

/-- The identifiers handed out once a session was reissued, or not. -/
def reissuedAs (issued : List SidRecord) (sid fresh : String) : Option Session → List SidRecord
  | none => issued
  | some _ =>
    match issued.find? (·.sid = sid) with
    | some old => ⟨fresh, old.origin, old.subject⟩ :: issued
    | none => issued

/-- What holds of the identifiers handed out: every stored session was handed out to its
subject, an identifier once only; a lineage starts under an identifier that was handed
out and stays with its subject; and of one lineage at most one identifier is alive. -/
structure Lineages (r : Redis) (now : Int) (issued : List SidRecord) : Prop where
  stored : ∀ sid (e : Entry Int Session), r.strings (.session sid) = some e →
    ∃ a ∈ issued, a.sid = sid ∧ a.subject = e.value.subjectKey
  unique : ∀ a ∈ issued, ∀ b ∈ issued, a.sid = b.sid → a = b
  rooted : ∀ a ∈ issued, ∃ b ∈ issued, b.sid = a.origin
  subject : ∀ a ∈ issued, ∀ b ∈ issued, a.origin = b.origin → a.subject = b.subject
  single : ∀ a ∈ issued, ∀ b ∈ issued, a.origin = b.origin →
    r.strings.live now (.session a.sid) ≠ none → r.strings.live now (.session b.sid) ≠ none →
      a = b

namespace Lineages

variable {r r' : Redis} {now : Int} {issued : List SidRecord}

theorem later (h : Lineages r now issued) {d : Int} (hd : 0 ≤ d) :
    Lineages r (now + d) issued := by
  have hearlier : ∀ sid, r.strings.live (now + d) (.session sid) ≠ none →
      r.strings.live now (.session sid) ≠ none := by
    intro sid hl
    obtain ⟨session, hs⟩ := Option.ne_none_iff_exists'.mp hl
    rw [Table.live_antitone (le_add_of_nonneg_right hd) hs]
    simp
  exact ⟨h.stored, h.unique, h.rooted, h.subject, fun a ha b hb hab hla hlb =>
    h.single a ha b hb hab (hearlier _ hla) (hearlier _ hlb)⟩

theorem carry (h : Lineages r now issued) (hc : Carries now none r r') :
    Lineages r' now issued := by
  refine ⟨fun sid e' he' => ?_, h.unique, h.rooted, h.subject, fun a ha b hb hab hla hlb => ?_⟩
  · obtain ⟨e, he, hkey, -⟩ := hc sid (by simp) e' he'
    obtain ⟨a, ha, hsid, hsub⟩ := h.stored sid e he
    exact ⟨a, ha, hsid, hsub.trans hkey⟩
  · exact h.single a ha b hb hab (fun hn => hla (hc.live_eq_none (by simp) hn))
      (fun hn => hlb (hc.live_eq_none (by simp) hn))

/-- A fresh identifier was handed out: to a lineage of its own, or to one of which no
other identifier is alive any more. -/
theorem add (h : Lineages r now issued) {new : SidRecord}
    (hfresh : ∀ a ∈ issued, a.sid ≠ new.sid)
    (hc : Carries now (some new.sid) r r')
    (hsub : ∀ e : Entry Int Session, r'.strings (.session new.sid) = some e →
      new.subject = e.value.subjectKey)
    (hroot : new.origin = new.sid ∨ ∃ b ∈ issued, b.sid = new.origin)
    (hline : ∀ a ∈ issued, a.origin = new.origin →
      a.subject = new.subject ∧ r'.strings.live now (.session a.sid) = none) :
    Lineages r' now (new :: issued) := by
  refine ⟨fun sid e' he' => ?_, fun a ha b hb hab => ?_, fun a ha => ?_,
    fun a ha b hb hab => ?_, fun a ha b hb hab hla hlb => ?_⟩
  · by_cases hsid : sid = new.sid
    · subst hsid
      exact ⟨new, List.mem_cons_self, rfl, hsub e' he'⟩
    · obtain ⟨e, he, hkey, -⟩ := hc sid (by simpa using hsid) e' he'
      obtain ⟨a, ha, hasid, hasub⟩ := h.stored sid e he
      exact ⟨a, List.mem_cons_of_mem _ ha, hasid, hasub.trans hkey⟩
  · rcases List.mem_cons.mp ha with rfl | ha₁ <;> rcases List.mem_cons.mp hb with rfl | hb₁
    · rfl
    · exact absurd hab.symm (hfresh b hb₁)
    · exact absurd hab (hfresh a ha₁)
    · exact h.unique a ha₁ b hb₁ hab
  · rcases List.mem_cons.mp ha with rfl | ha₁
    · rcases hroot with hself | ⟨b, hb, hbsid⟩
      · exact ⟨a, List.mem_cons_self, hself.symm⟩
      · exact ⟨b, List.mem_cons_of_mem _ hb, hbsid⟩
    · obtain ⟨b, hb, hbsid⟩ := h.rooted a ha₁
      exact ⟨b, List.mem_cons_of_mem _ hb, hbsid⟩
  · rcases List.mem_cons.mp ha with rfl | ha₁ <;> rcases List.mem_cons.mp hb with rfl | hb₁
    · rfl
    · exact (hline b hb₁ hab.symm).1.symm
    · exact (hline a ha₁ hab).1
    · exact h.subject a ha₁ b hb₁ hab
  · rcases List.mem_cons.mp ha with rfl | ha₁ <;> rcases List.mem_cons.mp hb with rfl | hb₁
    · rfl
    · exact absurd (hline b hb₁ hab.symm).2 hlb
    · exact absurd (hline a ha₁ hab).2 hla
    · have hold : ∀ x ∈ issued, r'.strings.live now (.session x.sid) ≠ none →
          r.strings.live now (.session x.sid) ≠ none :=
        fun x hx hl hn => hl (hc.live_eq_none (by simpa using hfresh x hx) hn)
      exact h.single a ha₁ b hb₁ hab (hold a ha₁ hla) (hold b hb₁ hlb)

/-- **Reissuing a stored session** hands its lineage on. -/
theorem reissuedAs_of_stored (h : Lineages r now issued) {sid : String} {e : Entry Int Session}
    (he : r.strings (.session sid) = some e) :
    ∃ old ∈ issued, old.sid = sid ∧ old.subject = e.value.subjectKey ∧
      ∀ fresh session, reissuedAs issued sid fresh (some session) =
        ⟨fresh, old.origin, old.subject⟩ :: issued := by
  obtain ⟨old, hold, holdsid, holdsub⟩ := h.stored sid e he
  refine ⟨old, hold, holdsid, holdsub, fun fresh session => ?_⟩
  obtain ⟨found, hfound⟩ : ∃ found, issued.find? (·.sid = sid) = some found := by
    rw [← Option.isSome_iff_exists, List.find?_isSome]
    exact ⟨old, hold, by simpa using holdsid⟩
  have hfsid : found.sid = sid := by simpa using List.find?_some hfound
  obtain rfl := h.unique found (List.mem_of_find?_eq_some hfound) old hold
    (hfsid.trans holdsid.symm)
  simp [reissuedAs, hfound]

/-- **Handing out at most one identifier**, a fresh one, that starts a lineage or takes over
from the one that was alive. -/
theorem handOut (h : Lineages r now issued) (new : Option SidRecord)
    (hcarries : Carries now (new.map SidRecord.sid) r r')
    (hfresh : ∀ a, new = some a → ¬ ∃ b ∈ issued, b.sid = a.sid)
    (hsubject : ∀ a, new = some a → ∀ e : Entry Int Session,
      r'.strings (.session a.sid) = some e → a.subject = e.value.subjectKey)
    (horigin : ∀ a, new = some a → a.origin = a.sid ∨ ∃ old ∈ issued, old.origin = a.origin ∧
      old.subject = a.subject ∧ r.strings.live now (.session old.sid) ≠ none ∧
        r'.strings.live now (.session old.sid) = none) :
    Lineages r' now (new.toList ++ issued) := by
  cases new with
  | none => exact h.carry hcarries
  | some a =>
    refine h.add (fun b hb hsid => hfresh a rfl ⟨b, hb, hsid⟩) hcarries
      (hsubject a rfl) ?_ fun b hb hborigin => ?_
    · rcases horigin a rfl with hself | ⟨old, hold, holdorigin, -⟩
      · exact Or.inl hself
      · exact Or.inr (holdorigin ▸ h.rooted old hold)
    · rcases horigin a rfl with hself | ⟨old, hold, holdorigin, holdsub, halive, hdead⟩
      · -- no lineage starts under an identifier nobody was given
        obtain ⟨c, hc, hcsid⟩ := h.rooted b hb
        exact absurd ⟨c, hc, hcsid.trans (hborigin.trans hself)⟩ (hfresh a rfl)
      · have hbold : b.origin = old.origin := hborigin.trans holdorigin.symm
        refine ⟨(h.subject b hb old hold hbold).trans holdsub, ?_⟩
        -- of this lineage only the old identifier was alive, and that one is gone
        by_cases hb' : b = old
        · rw [hb']
          exact hdead
        · refine hcarries.live_eq_none ?_ ?_
          · exact fun heq => hfresh a rfl ⟨b, hb, Option.some.inj heq⟩
          · by_contra hbalive
            exact hb' (h.single b hb old hold hbold hbalive halive)

end Lineages

end CampusID
