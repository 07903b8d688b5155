import CampusID.Audit.Log

/-!
# What redaction hides

Two details that are equal but for what is recorded under a secret key, or under `attributes` for
an attribute that is not public, wherever in them that is (`AgreeEntries`).  `redact` looks at the
keys of the detail itself and at the names right under its `attributes`, and at nothing deeper, so
it makes them equal where they differ there and nowhere else (`hides_iff`).
-/

namespace CampusID
namespace Audit

open Lib

/-- The name of no public attribute. -/
def NotPublic (key : Key) : Prop := ∀ name ∈ publicAttributes, key ≠ .str name

mutual

/-- Equal but for secrets. -/
inductive Agree : Value → Value → Prop
  | same (v : Value) : Agree v v
  | list {items items' : List Value} (h : AgreeItems items items') :
      Agree (.list items) (.list items')
  | tuple {items items' : List Value} (h : AgreeItems items items') :
      Agree (.tuple items) (.tuple items')
  | dict {entries entries' : List (Key × Value)} (h : AgreeEntries entries entries') :
      Agree (.dict entries) (.dict entries')

/-- Item by item. -/
inductive AgreeItems : List Value → List Value → Prop
  | nil : AgreeItems [] []
  | cons {v w : Value} {items items' : List Value} (head : Agree v w)
      (tail : AgreeItems items items') : AgreeItems (v :: items) (w :: items')

/-- Entry by entry, under the same keys. -/
inductive AgreeEntries : List (Key × Value) → List (Key × Value) → Prop
  | nil : AgreeEntries [] []
  | secret {name : String} {v w : Value} {entries entries' : List (Key × Value)}
      (h : isSecret name = true) (tail : AgreeEntries entries entries') :
      AgreeEntries ((.str name, v) :: entries) ((.str name, w) :: entries')
  | attributes {names names' entries entries' : List (Key × Value)}
      (h : AgreeAttributes names names') (tail : AgreeEntries entries entries') :
      AgreeEntries ((.str "attributes", .dict names) :: entries)
        ((.str "attributes", .dict names') :: entries')
  | cons {key : Key} {v w : Value} {entries entries' : List (Key × Value)} (head : Agree v w)
      (tail : AgreeEntries entries entries') :
      AgreeEntries ((key, v) :: entries) ((key, w) :: entries')

/-- Attribute by attribute, under the same names. -/
inductive AgreeAttributes : List (Key × Value) → List (Key × Value) → Prop
  | nil : AgreeAttributes [] []
  | hidden {key : Key} {v w : Value} {names names' : List (Key × Value)} (h : NotPublic key)
      (tail : AgreeAttributes names names') :
      AgreeAttributes ((key, v) :: names) ((key, w) :: names')
  | cons {key : Key} {v w : Value} {names names' : List (Key × Value)} (head : Agree v w)
      (tail : AgreeAttributes names names') :
      AgreeAttributes ((key, v) :: names) ((key, w) :: names')

end

/-- A detail as the value that is recorded. -/
def asEntries (detail : List (String × Value)) : List (Key × Value) :=
  detail.map fun entry => (.str entry.1, entry.2)

/-- The two details are redacted to the same, and any call leaves the same trail with either. -/
def Hides (detail detail' : List (String × Value)) : Prop :=
  redact detail = redact detail' ∧
    ∀ (sha256 : String → String) (trail : Trail) (call : RecordCall),
      record sha256 trail { call with detail := some detail } =
        record sha256 trail { call with detail := some detail' }

/-- Two attributes under one name, equal or not public. -/
def SameAttribute (attr attr' : Key × Value) : Prop :=
  attr.1 = attr'.1 ∧ (NotPublic attr.1 ∨ attr.2 = attr'.2)

/-- Two values under one key of the detail: equal, or secret, or the attributes of a release,
equal but for those that are not public. -/
def SameEntry (entry entry' : String × Value) : Prop :=
  entry.1 = entry'.1 ∧ (isSecret entry.1 = true ∨ entry.2 = entry'.2 ∨
    entry.1 = "attributes" ∧ ∃ names names', entry.2 = .dict names ∧ entry'.2 = .dict names' ∧
      List.Forall₂ SameAttribute names names')

/-- The details differ on top only: in the values of their own secret keys, and of the attributes
under their own `attributes` that are not public. -/
def DifferOnTop (detail detail' : List (String × Value)) : Prop :=
  List.Forall₂ SameEntry detail detail'

/-! ## What is redacted to the same -/

section Redact

variable {key : String} {v w : Value} {detail detail' : List (String × Value)}
  {attr attr' : Key × Value} {names names' : List (Key × Value)}

theorem map_eq_map_iff_forall₂ {α β : Type} {f : α → β} {l l' : List α} :
    l.map f = l'.map f ↔ List.Forall₂ (fun a a' => f a = f a') l l' := by
  rw [← List.forall₂_eq_eq_eq, List.forall₂_map_left_iff, List.forall₂_map_right_iff]

/-- What stands for an attribute. -/
def redactAttribute (attr : Key × Value) : Key × Value :=
  match attr.1 with
  | .str name => if name ∈ publicAttributes then attr else (attr.1, .str redacted)
  | _ => (attr.1, .str redacted)

theorem redactAttribute_of_notPublic (h : NotPublic attr.1) :
    redactAttribute attr = (attr.1, .str redacted) := by
  unfold redactAttribute
  cases hkey : attr.1 with
  | str name =>
    have hname : name ∉ publicAttributes := fun hmem => h name hmem hkey
    simp [hname]
  | num n => rfl
  | bool b => rfl
  | none => rfl

theorem redactAttribute_of_public (h : ¬ NotPublic attr.1) : redactAttribute attr = attr := by
  unfold NotPublic at h
  push Not at h
  obtain ⟨name, hname, hkey⟩ := h
  unfold redactAttribute
  rw [hkey]
  exact if_pos hname

theorem redactAttribute_eq_iff :
    redactAttribute attr = redactAttribute attr' ↔ SameAttribute attr attr' := by
  by_cases hpublic : NotPublic attr.1
  · rw [redactAttribute_of_notPublic hpublic]
    by_cases hpublic' : NotPublic attr'.1
    · rw [redactAttribute_of_notPublic hpublic']
      simp [SameAttribute, hpublic]
    · rw [redactAttribute_of_public hpublic']
      refine iff_of_false (fun h => hpublic' ?_) fun h => hpublic' (h.1 ▸ hpublic)
      rw [← h]
      exact hpublic
  · rw [redactAttribute_of_public hpublic]
    by_cases hpublic' : NotPublic attr'.1
    · rw [redactAttribute_of_notPublic hpublic']
      refine iff_of_false (fun h => hpublic ?_) fun h => hpublic (h.1 ▸ hpublic')
      rw [h]
      exact hpublic'
    · rw [redactAttribute_of_public hpublic']
      simp [SameAttribute, hpublic, Prod.ext_iff]

theorem redactAttributes_eq_iff : redactAttributes names = redactAttributes names' ↔
    List.Forall₂ SameAttribute names names' := by
  change names.map redactAttribute = names'.map redactAttribute ↔ _
  rw [map_eq_map_iff_forall₂]
  simp only [redactAttribute_eq_iff]

theorem redactValue_attributes : redactValue "attributes" v =
    match v with
    | .dict names => .dict (redactAttributes names)
    | v => v := by
  have hopen : isSecret "attributes" = false := by decide +kernel
  unfold redactValue
  rw [hopen]
  cases v <;> rfl

theorem redactValue_of_ne (hopen : isSecret key = false) (hkey : key ≠ "attributes") :
    redactValue key v = v := by
  unfold redactValue
  rw [hopen]
  simp only [Bool.false_eq_true, if_false]
  split
  · exact absurd rfl hkey
  · rfl

/-- **Which values one key redacts to the same.** -/
theorem redactValue_eq_iff : redactValue key v = redactValue key w ↔ SameEntry (key, v) (key, w) := by
  cases hsecret : isSecret key with
  | true => simp [redactValue, SameEntry, hsecret]
  | false =>
    by_cases hkey : key = "attributes"
    · subst hkey
      rw [redactValue_attributes, redactValue_attributes]
      cases v with
      | dict names =>
        cases w with
        | dict names' =>
          simp only [SameEntry, Value.dict.injEq, redactAttributes_eq_iff, hsecret,
            Bool.false_eq_true, false_or, true_and]
          constructor
          · exact fun hsame => .inr ⟨names, names', rfl, rfl, hsame⟩
          · rintro (rfl | ⟨_, _, rfl, rfl, hsame⟩)
            · exact redactAttributes_eq_iff.mp rfl
            · exact hsame
        | _ => simp [SameEntry, hsecret]
      | _ => cases w <;> simp [SameEntry, hsecret]
    · rw [redactValue_of_ne hsecret hkey, redactValue_of_ne hsecret hkey]
      simp [SameEntry, hsecret, hkey]

/-- **Which details are redacted to the same.** -/
theorem redact_eq_iff : redact detail = redact detail' ↔ DifferOnTop detail detail' := by
  unfold redact DifferOnTop
  rw [map_eq_map_iff_forall₂]
  have hentry : ∀ entry entry' : String × Value, ((entry.1, redactValue entry.1 entry.2) =
      (entry'.1, redactValue entry'.1 entry'.2)) ↔ SameEntry entry entry' := by
    rintro ⟨key, v⟩ ⟨key', w⟩
    by_cases hkey : key = key'
    · subst hkey
      rw [← redactValue_eq_iff]
      simp
    · simp [SameEntry, hkey]
  simp only [hentry]

end Redact

/-! ## What is recorded -/

section Record

variable {detail detail' : List (String × Value)}

theorem redact_assign (key : String) (value : Value) : redact (assign detail key value) =
    assign (redact detail) key (redactValue key value) := by
  have hany : (redact detail).any (·.1 = key) = detail.any (·.1 = key) := by
    simp [redact, Function.comp_def]
  unfold assign
  rw [hany]
  split_ifs
  · simp only [redact, List.map_map]
    refine List.map_congr_left fun entry _ => ?_
    dsimp only [Function.comp_apply]
    split_ifs with hkey
    · rfl
    · rfl
  · simp [redact]

/-- **The event is the same** when the details are redacted to the same, marks and all. -/
theorem event_eq (h : redact detail = redact detail') (call : RecordCall) :
    { call with detail := some detail }.event = { call with detail := some detail' }.event := by
  have hmarked : redact { call with detail := some detail }.markedDetail =
      redact { call with detail := some detail' }.markedDetail := by
    unfold RecordCall.markedDetail
    cases call.impersonator with
    | none => exact h
    | some actingAs =>
      simp only [Option.getD_some, redact_assign]
      rw [h]
  unfold RecordCall.event
  rw [hmarked]

theorem hides_of_redact_eq (h : redact detail = redact detail') : Hides detail detail' := by
  refine ⟨h, fun sha256 trail call => ?_⟩
  unfold record
  rw [event_eq h]

theorem agree_of_differOnTop (h : DifferOnTop detail detail') :
    AgreeEntries (asEntries detail) (asEntries detail') := by
  have hnames : ∀ {names names' : List (Key × Value)}, List.Forall₂ SameAttribute names names' →
      AgreeAttributes names names' := by
    intro names names' hsame
    induction hsame with
    | nil => exact .nil
    | @cons attr attr' names names' hattr _ ih =>
      obtain ⟨key, v⟩ := attr
      obtain ⟨key', w⟩ := attr'
      obtain ⟨rfl, hhidden | rfl⟩ := hattr
      · exact .hidden hhidden ih
      · exact .cons (.same _) ih
  induction h with
  | nil => exact .nil
  | @cons entry entry' detail detail' hentry _ ih =>
    obtain ⟨key, v⟩ := entry
    obtain ⟨key', w⟩ := entry'
    obtain ⟨rfl, hsecret | rfl | ⟨rfl, names, names', rfl, rfl, hsame⟩⟩ := hentry
    · exact .secret hsecret ih
    · exact .cons (.same _) ih
    · exact .attributes (hnames hsame) ih

end Record

/-- **Redaction hides what two details differ in exactly where they differ on top only.** -/
theorem hides_iff (detail detail' : List (String × Value)) :
    AgreeEntries (asEntries detail) (asEntries detail') ∧ Hides detail detail' ↔
      DifferOnTop detail detail' := by
  constructor
  · rintro ⟨-, hredact, -⟩
    exact redact_eq_iff.mp hredact
  · intro htop
    exact ⟨agree_of_differOnTop htop, hides_of_redact_eq (redact_eq_iff.mpr htop)⟩

/-- A request that carried a password, inside what is recorded of it. -/
def requested (password : String) : List (String × Value) :=
  [("request", .dict [(.str "password", .str password)])]

/-- **The password is recorded**: it is one level down. -/
theorem not_hides : ¬ ∀ detail detail' : List (String × Value),
    AgreeEntries (asEntries detail) (asEntries detail') → Hides detail detail' := by
  intro h
  have hagree : AgreeEntries (asEntries (requested "hunter2")) (asEntries (requested "letmein")) :=
    .cons (.dict (.secret (by decide +kernel) .nil)) .nil
  obtain ⟨hredact, -⟩ := h _ _ hagree
  have hopen : isSecret "request" = false := by decide +kernel
  rw [requested, requested, redact, redact, List.map_singleton, List.map_singleton,
    redactValue_of_ne hopen (by decide), redactValue_of_ne hopen (by decide)] at hredact
  simp at hredact

end Audit
end CampusID
