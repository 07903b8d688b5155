import CampusID.Lib.HashChain
import CampusID.Audit.Batches
import CampusID.Audit.Retention
import CampusID.Audit.Unambiguous

/-!
# Tampering is evident from the head

Two accepted lists of rows, of one length and with one last hash, agree on every covered field:
`evident_from_head`.  The rows are a hash chain (`chain_of_continues`), whose head commits to the
texts hashed, because the hash before a text has a length of its own; and the text of a row
commits to its fields, as they are rendered (`agreeOn_of_canonical_eq`).

That no two texts collide is assumed of the texts the two walks hash.  Of all texts it holds of
no function into 64 characters.
-/

namespace CampusID
namespace Audit

open Lib

/-! ## The covered fields -/

/-- `FIELDS`. -/
def fields : List String :=
  ["event_id", "event_type", "outcome", "occurred_at", "correlation_id", "actor", "subject",
    "target", "reason", "source_ip", "user_agent", "session_id", "detail"]

/-- `_render(event.get(name))`, of a covered field. -/
def renderField (columns : Columns) (name : String) : Except WriteError Json :=
  match name with
  | "event_id" => .ok (.str columns.eventId)
  | "event_type" => .ok (.str columns.eventType)
  | "outcome" => .ok (.str columns.outcome)
  | "occurred_at" => .ok (.str (utcText columns.occurredAt))
  | "correlation_id" => .ok (.str columns.correlationId)
  | "actor" => .ok (renderText columns.actor)
  | "subject" => .ok (renderText columns.subject)
  | "target" => .ok (renderText columns.target)
  | "reason" => .ok (renderText columns.reason)
  | "source_ip" => .ok (renderText columns.sourceIp)
  | "user_agent" => .ok (renderText columns.userAgent)
  | "session_id" => .ok (renderText columns.sessionId)
  | "detail" => render columns.detail
  | _ => .ok .null

/-- Both have the field, and rendered it is the same, but for the order of dictionaries. -/
def AgreeOn (columns columns' : Columns) (name : String) : Prop :=
  ∃ j j', renderField columns name = .ok j ∧ renderField columns' name = .ok j' ∧
    j.normal = j'.normal

/-- The payload of `canonical`. -/
def payload (columns : Columns) (detail : Json) : List (String × Json) :=
  [("event_id", .str columns.eventId),
    ("event_type", .str columns.eventType),
    ("outcome", .str columns.outcome),
    ("occurred_at", .str (utcText columns.occurredAt)),
    ("correlation_id", .str columns.correlationId),
    ("actor", renderText columns.actor),
    ("subject", renderText columns.subject),
    ("target", renderText columns.target),
    ("reason", renderText columns.reason),
    ("source_ip", renderText columns.sourceIp),
    ("user_agent", renderText columns.userAgent),
    ("session_id", renderText columns.sessionId),
    ("detail", detail)]

theorem canonical_eq_ok {columns : Columns} {t : String} (h : canonical columns = .ok t) :
    ∃ detail, render columns.detail = .ok detail ∧ dumps (.dict (payload columns detail)) = .ok t :=
  Eff.except_bind_eq_ok.mp h

theorem nodup_payload (columns : Columns) (detail : Json) :
    ((payload columns detail).map Prod.fst).Nodup := by
  have hkeys : (payload columns detail).map Prod.fst = fields := rfl
  rw [hkeys]
  decide

theorem mem_payload {columns : Columns} {detail : Json} (h : render columns.detail = .ok detail) :
    ∀ name ∈ fields, ∃ j, renderField columns name = .ok j ∧ (name, j) ∈ payload columns detail := by
  intro name hname
  simp only [fields, List.mem_cons, List.not_mem_nil, or_false] at hname
  rcases hname with rfl | rfl | rfl | rfl | rfl | rfl | rfl | rfl | rfl | rfl | rfl | rfl | rfl
  case inr.inr.inr.inr.inr.inr.inr.inr.inr.inr.inr.inr => exact ⟨detail, h, by simp [payload]⟩
  all_goals exact ⟨_, rfl, by simp [payload]⟩

/-- **The text of a row commits to its fields.** -/
theorem agreeOn_of_canonical_eq {columns columns' : Columns} {t : String}
    (h : canonical columns = .ok t) (h' : canonical columns' = .ok t) :
    ∀ name ∈ fields, AgreeOn columns columns' name := by
  obtain ⟨detail, hdetail, htext⟩ := canonical_eq_ok h
  obtain ⟨detail', hdetail', htext'⟩ := canonical_eq_ok h'
  have hnormal := normal_eq_of_dumps_eq htext htext'
  intro name hname
  obtain ⟨j, hj, hmem⟩ := mem_payload hdetail name hname
  obtain ⟨j', hj', hmem'⟩ := mem_payload hdetail' name hname
  exact ⟨j, j', hj, hj', normal_eq_of_mem hnormal (nodup_payload _ _) hmem hmem'⟩

/-! ## The chain -/

/-- A hash, by its length. -/
def Digest : Type := {s : String // s.length = 64}

/-- `f"{previous}{canonical(event)}"`. -/
def Digest.join (previous : Digest) (text : String) : String := previous.1 ++ text

/-- **The hash and the text behind it are told apart**, by the length of the hash. -/
theorem Digest.join_injective2 : Function.Injective2 Digest.join := by
  intro d d' t t' h
  have hchars : d.1.toList ++ t.toList = d'.1.toList ++ t'.toList := by
    rw [← String.toList_append, ← String.toList_append]
    exact congrArg String.toList h
  have hlength : d.1.toList.length = d'.1.toList.length := by
    rw [String.length_toList, String.length_toList, d.2, d'.2]
  obtain ⟨hdigest, htext⟩ := List.append_inj hchars hlength
  exact ⟨Subtype.ext (String.toList_inj.mp hdigest), String.toList_inj.mp htext⟩

/-- What is hashed for these rows: the hash a row links to, with its covered text. -/
def hashedOf (rows : List Row) : Set String :=
  {text | ∃ row ∈ rows, ∃ t, canonical row.columns = .ok t ∧ text = row.prevHash ++ t}

section Hash

variable {sha256 : String → String}

/-- The digest of a text. -/
def digest (hsha : ∀ s, (sha256 s).length = 64) (s : String) : Digest := ⟨sha256 s, hsha s⟩

/-- **What is accepted is in order and continues the chain.** -/
theorem continues_of_verifyRows {expected : String} {lastSeq : Option Int} {rows : List Row}
    (h : verifyRows sha256 expected lastSeq rows = .ok none) :
    (∀ last ∈ lastSeq, ∀ row ∈ rows, last < row.seq) ∧ (rows.Pairwise fun a b => a.seq < b.seq) ∧
      Continues sha256 expected rows := by
  induction rows generalizing expected lastSeq with
  | nil => exact ⟨by simp, .nil, trivial⟩
  | cons row rows ih =>
    rw [verifyRows] at h
    split_ifs at h with horder hprev
    · cases h
    · cases h
    · obtain ⟨computed, hlink, h⟩ := Eff.except_bind_eq_ok.mp h
      split_ifs at h with hhash
      · cases h
      · obtain rfl : computed = row.hash := by simpa using hhash
        obtain ⟨hlater, hsorted, hcontinues⟩ := ih h
        have hrows : ∀ other ∈ rows, row.seq < other.seq := hlater row.seq rfl
        have hfirst : ∀ last ∈ lastSeq, last < row.seq := by
          rintro last ⟨⟩
          simpa using horder
        refine ⟨fun last hlast other hother => ?_, List.pairwise_cons.mpr ⟨hrows, hsorted⟩,
          by simpa using hprev, hlink, hcontinues⟩
        rcases List.mem_cons.mp hother with rfl | hother
        · exact hfirst last hlast
        · exact (hfirst last hlast).trans (hrows other hother)

/-- **Rows that continue a chain are a hash chain** of their texts. -/
theorem chain_of_continues (hsha : ∀ s, (sha256 s).length = 64) {start : Digest} {rows : List Row}
    (h : Continues sha256 start.1 rows) :
    ∃ texts, List.Forall₂ (fun row text => canonical row.columns = .ok text) rows texts ∧
      (HashChain.head (digest hsha) Digest.join start texts).1 = headFrom start.1 rows ∧
      ∀ m ∈ HashChain.hashed (digest hsha) Digest.join start texts, m ∈ hashedOf rows := by
  induction rows generalizing start with
  | nil => exact ⟨[], .nil, rfl, by simp [HashChain.hashed]⟩
  | cons row rows ih =>
    obtain ⟨hprev, hlink, hrest⟩ := h
    obtain ⟨text, htext, hhash⟩ := Eff.except_bind_eq_ok.mp hlink
    have hdigest : row.hash = (digest hsha (Digest.join start text)).1 := (Except.ok.inj hhash).symm
    rw [hdigest] at hrest
    obtain ⟨texts, htexts, hhead, hhashed⟩ := ih hrest
    refine ⟨text :: texts, .cons htext htexts, ?_, ?_⟩
    · rw [headFrom_cons, hdigest]
      exact hhead
    · intro m hm
      rcases List.mem_cons.mp hm with rfl | hm
      · exact ⟨row, List.mem_cons_self, text, htext, by rw [hprev]; rfl⟩
      · obtain ⟨other, hother, hmaterial⟩ := hhashed m hm
        exact ⟨other, List.mem_cons_of_mem _ hother, hmaterial⟩

theorem agreeOn_of_texts {rows rows' : List Row} {texts : List String}
    (h : List.Forall₂ (fun row text => canonical row.columns = .ok text) rows texts)
    (h' : List.Forall₂ (fun row text => canonical row.columns = .ok text) rows' texts) :
    List.Forall₂ (fun row row' => ∀ name ∈ fields, AgreeOn row.columns row'.columns name)
      rows rows' := by
  induction h generalizing rows' with
  | nil =>
    cases h'
    exact .nil
  | cons hrow _ ih =>
    cases h' with
    | cons hrow' hrest => exact .cons (agreeOn_of_canonical_eq hrow hrow') (ih hrest)

theorem headFrom_eq (expected : String) (rows : List Row) :
    headFrom expected rows = (rows.getLast?.map Row.hash).getD expected := by
  unfold headFrom
  cases rows.getLast? <;> rfl

/-! ## Two accepted lists -/

/-- A covered field of some row is not what it is in the row at the same place, be it edited, or
be another row there. -/
def Alters (rows rows' : List Row) : Prop :=
  ∃ (i : Nat) (row row' : Row), rows[i]? = some row ∧ rows'[i]? = some row' ∧
    ∃ name ∈ fields, ¬ AgreeOn row.columns row'.columns name

/-- Two rows stand in each other's place. -/
def Swaps (rows rows' : List Row) : Prop :=
  ∃ (i j : Nat) (row other : Row), i < j ∧ rows[i]? = some row ∧ rows[j]? = some other ∧
    rows' = (rows.set i other).set j row

theorem not_alters {rows rows' : List Row}
    (h : List.Forall₂ (fun row row' => ∀ name ∈ fields, AgreeOn row.columns row'.columns name)
      rows rows') : ¬ Alters rows rows' := by
  rintro ⟨i, row, row', hrow, hrow', name, hname, hdiffers⟩
  induction h generalizing i with
  | nil => cases hrow
  | cons hagree _ ih =>
    cases i with
    | zero =>
      obtain rfl := Option.some.inj hrow
      obtain rfl := Option.some.inj hrow'
      exact hdiffers (hagree name hname)
    | succ i => exact ih i hrow hrow'

theorem seq_lt_of_getElem? {rows : List Row} (hsorted : rows.Pairwise fun a b => a.seq < b.seq)
    {i j : Nat} {row other : Row} (hij : i < j) (hrow : rows[i]? = some row)
    (hother : rows[j]? = some other) : row.seq < other.seq := by
  obtain ⟨hi, rfl⟩ := List.getElem?_eq_some_iff.mp hrow
  obtain ⟨hj, rfl⟩ := List.getElem?_eq_some_iff.mp hother
  exact List.pairwise_iff_getElem.mp hsorted i j hi hj hij

theorem not_sorted_of_swaps {rows rows' : List Row}
    (hsorted : rows.Pairwise fun a b => a.seq < b.seq) (h : Swaps rows rows') :
    ¬ rows'.Pairwise fun a b => a.seq < b.seq := by
  obtain ⟨i, j, row, other, hij, hrow, hother, rfl⟩ := h
  intro hsorted'
  have hlt := seq_lt_of_getElem? hsorted hij hrow hother
  obtain ⟨hj, -⟩ := List.getElem?_eq_some_iff.mp hother
  have hlt' := seq_lt_of_getElem? hsorted' hij
    (show ((rows.set i other).set j row)[i]? = some other by
      rw [List.getElem?_set_ne (by omega), List.getElem?_set_self (by omega)])
    (show ((rows.set i other).set j row)[j]? = some row by
      rw [List.getElem?_set_self (by rwa [List.length_set])])
  omega

/-- **Tampering is evident from the head.**  Of two lists of rows of one length and with one last
hash, the first accepted: where the second is accepted, it agrees with the first on every covered
field of every row; so it is not accepted where it alters one, nor where two rows are swapped. -/
theorem evident_from_head (sha256 : String → String) (hsha : ∀ s, (sha256 s).length = 64)
    {start : String} (hstart : start.length = 64) {rows rows' : List Row}
    (hfree : Set.InjOn sha256 (hashedOf rows ∪ hashedOf rows'))
    (hrows : verifyFrom sha256 start rows = .ok none) (hlength : rows.length = rows'.length)
    (hhead : rows.getLast?.map Row.hash = rows'.getLast?.map Row.hash) :
    (verifyFrom sha256 start rows' = .ok none →
      List.Forall₂ (fun row row' => ∀ name ∈ fields, AgreeOn row.columns row'.columns name)
        rows rows') ∧
      (Alters rows rows' → verifyFrom sha256 start rows' ≠ .ok none) ∧
      (Swaps rows rows' → verifyFrom sha256 start rows' ≠ .ok none) := by
  obtain ⟨-, hsorted, hcontinues⟩ := continues_of_verifyRows hrows
  have hagree : verifyFrom sha256 start rows' = .ok none →
      List.Forall₂ (fun row row' => ∀ name ∈ fields, AgreeOn row.columns row'.columns name)
        rows rows' := by
    intro hrows'
    obtain ⟨-, -, hcontinues'⟩ := continues_of_verifyRows hrows'
    obtain ⟨texts, htexts, hend, hhashed⟩ :=
      @chain_of_continues _ hsha ⟨start, hstart⟩ rows hcontinues
    obtain ⟨texts', htexts', hend', hhashed'⟩ :=
      @chain_of_continues _ hsha ⟨start, hstart⟩ rows' hcontinues'
    have hends : headFrom start rows = headFrom start rows' := by
      rw [headFrom_eq, headFrom_eq, hhead]
    have hinj : Set.InjOn (digest hsha)
        {m | m ∈ HashChain.hashed (digest hsha) Digest.join ⟨start, hstart⟩ texts ∨
          m ∈ HashChain.hashed (digest hsha) Digest.join ⟨start, hstart⟩ texts'} := by
      intro m hm m' hm' heq
      refine hfree (hm.imp (hhashed m) (hhashed' m)) (hm'.imp (hhashed m') (hhashed' m')) ?_
      exact congrArg Subtype.val heq
    obtain ⟨-, rfl⟩ := HashChain.eq_of_head_eq Digest.join_injective2 hinj
      (by rw [← htexts.length_eq, ← htexts'.length_eq, hlength])
      (Subtype.ext (hend.trans (hends.trans hend'.symm)))
    exact agreeOn_of_texts htexts htexts'
  refine ⟨hagree, fun halters hrows' => not_alters (hagree hrows') halters, fun hswaps hrows' => ?_⟩
  obtain ⟨-, hsorted', -⟩ := continues_of_verifyRows hrows'
  exact not_sorted_of_swaps hsorted hswaps hsorted'

end Hash

/-! ### Two rows -/

/-- The digests of the January event and of the May event behind it. -/
def evidentSha256 : String → String :=
  tabulated [(genesis, januaryCall 1, januaryHash), (januaryHash, mayCall 2, mayHash)]

/-- The January event as a row, and the May event behind it. -/
def januaryRow : Row := ⟨1, genesis, januaryHash, row (januaryCall 1).event⟩

/-- The May event, linked to the January event. -/
def mayRow : Row := ⟨2, januaryHash, mayHash, row (mayCall 2).event⟩

/-- The January event, if it had been somebody else's. -/
def malloryCall : RecordCall := { januaryCall 1 with actor := some "mallory" }

/-- The January row with that actor, and the hash it had. -/
def malloryRow : Row := ⟨1, genesis, januaryHash, row malloryCall.event⟩

theorem canonical_eq_okD {call : RecordCall} (hkeeps : call.keeps = true)
    (hid : fits 64 call.eventId = true) :
    canonical (row call.event) = .ok (okD (canonical (row call.event)) "") := by
  obtain ⟨-, hstorable⟩ := RecordCall.fits_of_keeps hkeeps hid
  obtain ⟨w, t, -, ht, -⟩ := survives_of_storable (fun l => List.Perm.refl l) _ hstorable
  rw [canonical_eq ht]
  rfl

/-- The text that is hashed for an event behind a hash. -/
def hashedText (previous : String) (call : RecordCall) : String :=
  previous ++ okD (canonical (row call.event)) ""

theorem link_hashedText {sha256 : String → String} {previous : String} {call : RecordCall}
    (hkeeps : call.keeps = true) (hid : fits 64 call.eventId = true) :
    link sha256 previous (row call.event) = .ok (sha256 (hashedText previous call)) := by
  rw [link, canonical_eq_okD hkeeps hid]
  rfl

theorem hashedOf_subset {texts : Set String} {rows : List Row}
    (h : ∀ found ∈ rows, ∃ call : RecordCall, call.keeps = true ∧ fits 64 call.eventId = true ∧
      found.columns = row call.event ∧ hashedText found.prevHash call ∈ texts) :
    hashedOf rows ⊆ texts := by
  rintro _ ⟨found, hfound, t, ht, rfl⟩
  obtain ⟨call, hkeeps, hid, hcolumns, hmem⟩ := h found hfound
  rw [hcolumns, canonical_eq_okD hkeeps hid] at ht
  rwa [← Except.ok.inj ht]

theorem verifyFrom_january_may :
    verifyFrom evidentSha256 genesis [januaryRow, mayRow] = .ok none := by
  rw [verifyFrom_eq_none_iff (by simp [januaryRow, mayRow])]
  refine ⟨rfl, ?_, rfl, ?_, trivial⟩
  · refine (link_hashedText january_may.keeps.1 january_may.fits.1).trans ?_
    exact congrArg Except.ok (by decide +kernel)
  · refine (link_hashedText january_may.keeps.2 january_may.fits.2).trans ?_
    exact congrArg Except.ok (by decide +kernel)

theorem length_evidentSha256 (s : String) : (evidentSha256 s).length = 64 := by
  refine tabulated_of (P := fun digest => digest.length = 64) ?_ (by decide) s
  decide +kernel

/-- **The altered row is not accepted** under the hash of the last one. -/
theorem evident_from_head_mallory :
    verifyFrom evidentSha256 genesis [malloryRow, mayRow] ≠ .ok none := by
  obtain ⟨hjanuary, hmay⟩ := january_may.keeps
  obtain ⟨hid, hid'⟩ := january_may.fits
  let texts : List String := [hashedText genesis (januaryCall 1), hashedText genesis malloryCall,
    hashedText januaryHash (mayCall 2)]
  have hkept : hashedText januaryHash (mayCall 2) ∈ texts := by simp [texts]
  have hhashed : hashedOf [januaryRow, mayRow] ∪ hashedOf [malloryRow, mayRow] ⊆
      {text | text ∈ texts} := by
    refine Set.union_subset (hashedOf_subset ?_) (hashedOf_subset ?_)
    · rintro found hfound
      rcases List.mem_pair.mp hfound with rfl | rfl
      · exact ⟨_, hjanuary, hid, rfl, List.mem_cons_self⟩
      · exact ⟨_, hmay, hid', rfl, hkept⟩
    · rintro found hfound
      rcases List.mem_pair.mp hfound with rfl | rfl
      · exact ⟨malloryCall, by decide +kernel, hid, rfl, by simp [texts, malloryRow]⟩
      · exact ⟨_, hmay, hid', rfl, hkept⟩
  -- the altered row is hashed to another digest
  have hdigests : texts.map evidentSha256 = [januaryHash, genesis, mayHash] := by decide +kernel
  have hapart : (texts.map evidentSha256).Nodup := by
    rw [hdigests]
    decide
  refine (evident_from_head evidentSha256 length_evidentSha256 (by decide)
    (fun _ ha _ hb => List.inj_on_of_nodup_map hapart (hhashed ha) (hhashed hb))
    verifyFrom_january_may rfl rfl).2.1
      ⟨0, januaryRow, malloryRow, rfl, rfl, "actor", by decide, ?_⟩
  rintro ⟨_, _, hj, hj', hsame⟩
  cases hj
  cases hj'
  exact absurd (Json.str.inj hsame) (by decide)

end Audit
end CampusID
