import CampusID.Audit.Query
import CampusID.Audit.Unambiguous

/-!
# The text of a value in ASCII

`json.dumps` writes ASCII unless it is told not to: it is the text of `dumps` with every
character from the delete character on written as an escape, and one beyond the basic plane as
two, a surrogate pair.

The escapes add no ambiguity.  A backslash in the text of `dumps` opens an escape of its own, and
none of these reads like one of the new ones, so the text is a sequence of words that can be read
off its front (`readWord_ascii`), and what it was made from comes back (`asciiText_inj`).
-/

namespace CampusID
namespace Audit

open Lib

/-- The text with `ensure_ascii=True`, from the one without. -/
def asciiText (text : String) : String := String.ofList (text.toList.flatMap asciiChar)

/-! ## Words -/

/-- What the text of `dumps` is made of: a character, or an escape. -/
inductive Word where
  | plain (c : Char)
  | escape (c : Char)
  | control (c : Char)

namespace Word

/-- How it is written. -/
def chars : Word → List Char
  | plain c => [c]
  | escape c => ['\\', c]
  | control c => unitEscape c.toNat

/-- The words there are. -/
def Ok : Word → Prop
  | plain c => c ≠ '\\'
  | escape c => c ≠ 'u' ∧ c.toNat < 127
  | control c => c.toNat < 32

/-- How it is written in ASCII. -/
def ascii (w : Word) : List Char := w.chars.flatMap asciiChar

end Word

/-- The code unit four digits are. -/
def quadValue (a b c d : Char) : Nat :=
  4096 * hexValue a + 256 * hexValue b + 16 * hexValue c + hexValue d

/-- What an escape stands for: a high surrogate together with the escape that follows it. -/
def readUnit (unit : Nat) (rest : List Char) : Option (Word × List Char) :=
  if unit < 32 then some (.control (Char.ofNat unit), rest)
  else if 55296 ≤ unit ∧ unit < 56320 then
    match rest with
    | _ :: _ :: a :: b :: c :: d :: rest =>
      some (.plain (Char.ofNat (65536 + (unit - 55296) * 1024 + (quadValue a b c d - 56320))), rest)
    | _ => none
  else some (.plain (Char.ofNat unit), rest)

/-- The first word of an ASCII text, and what follows it. -/
def readWord : List Char → Option (Word × List Char)
  | [] => none
  | c :: rest =>
    if c = '\\' then
      match rest with
      | [] => none
      | e :: rest =>
        if e = 'u' then
          match rest with
          | a :: b :: c :: d :: rest => readUnit (quadValue a b c d) rest
          | _ => none
        else some (.escape e, rest)
    else some (.plain c, rest)

theorem quadValue_hexQuad {n : Nat} (h : n < 65536) :
    quadValue (hexDigit (n / 4096 % 16)) (hexDigit (n / 256 % 16)) (hexDigit (n / 16 % 16))
      (hexDigit (n % 16)) = n := by
  unfold quadValue
  rw [hexValue_hexDigit _ (by omega), hexValue_hexDigit _ (by omega),
    hexValue_hexDigit _ (by omega), hexValue_hexDigit _ (by omega)]
  omega

theorem readWord_unitEscape {n : Nat} (h : n < 65536) (rest : List Char) :
    readWord (unitEscape n ++ rest) = readUnit n rest := by
  simp only [unitEscape, List.cons_append, List.nil_append, readWord, if_true,
    quadValue_hexQuad h]

theorem asciiChar_of_lt {c : Char} (h : c.toNat < 127) : asciiChar c = [c] := by
  rw [asciiChar, if_pos h]

theorem hexDigit_ascii : ∀ n < 16, (hexDigit n).toNat < 127 := by decide

theorem flatMap_ascii_of_lt {l : List Char} (h : ∀ c ∈ l, c.toNat < 127) :
    l.flatMap asciiChar = l := by
  induction l with
  | nil => rfl
  | cons c l ih =>
    rw [List.flatMap_cons, asciiChar_of_lt (h c List.mem_cons_self),
      ih fun c hc => h c (List.mem_cons_of_mem _ hc)]
    rfl

theorem flatMap_ascii_unitEscape (n : Nat) :
    (unitEscape n).flatMap asciiChar = unitEscape n := by
  refine flatMap_ascii_of_lt fun c hc => ?_
  simp only [unitEscape, List.mem_cons, List.not_mem_nil, or_false] at hc
  rcases hc with rfl | rfl | rfl | rfl | rfl | rfl
  · decide
  · decide
  all_goals exact hexDigit_ascii _ (by omega)

theorem not_surrogate (c : Char) : c.toNat < 55296 ∨ (57343 < c.toNat ∧ c.toNat < 1114112) :=
  c.valid

/-- **A word is read off the front of an ASCII text.** -/
theorem readWord_ascii (w : Word) (hw : w.Ok) (rest : List Char) :
    readWord (w.ascii ++ rest) = some (w, rest) := by
  cases w with
  | plain c =>
    have hchars : Word.ascii (.plain c) = asciiChar c := by simp [Word.ascii, Word.chars]
    rw [hchars, asciiChar]
    split_ifs with hascii hplane
    · have hc : c ≠ '\\' := hw
      simp [readWord, hc]
    · have hrange := not_surrogate c
      rw [readWord_unitEscape hplane]
      unfold readUnit
      rw [if_neg (by omega), if_neg (by omega), Char.ofNat_toNat]
    · -- beyond the basic plane: the pair is put together again
      have hrange := not_surrogate c
      have hhigh : 55296 + (c.toNat - 65536) / 1024 < 65536 := by omega
      rw [List.append_assoc, readWord_unitEscape hhigh]
      unfold readUnit
      rw [if_neg (by omega), if_pos (by omega)]
      simp only [unitEscape, List.cons_append, List.nil_append,
        quadValue_hexQuad (show 56320 + (c.toNat - 65536) % 1024 < 65536 by omega)]
      have hvalue : 65536 + (55296 + (c.toNat - 65536) / 1024 - 55296) * 1024 +
          (56320 + (c.toNat - 65536) % 1024 - 56320) = c.toNat := by omega
      rw [hvalue, Char.ofNat_toNat]
  | escape c =>
    obtain ⟨hu, hascii⟩ := hw
    have hchars : Word.ascii (.escape c) = ['\\', c] := by
      simp [Word.ascii, Word.chars, asciiChar_of_lt hascii, asciiChar_of_lt (c := '\\') (by decide)]
    simp [hchars, readWord, hu]
  | control c =>
    have hc : c.toNat < 32 := hw
    rw [Word.ascii, Word.chars, flatMap_ascii_unitEscape,
      readWord_unitEscape (by omega)]
    unfold readUnit
    rw [if_pos hc, Char.ofNat_toNat]

/-! ## The text of `dumps` in words -/

/-- The text is a sequence of words. -/
def Worded (l : List Char) : Prop := ∃ ws : List Word, (∀ w ∈ ws, w.Ok) ∧ l = ws.flatMap Word.chars

theorem worded_nil : Worded [] := ⟨[], by simp, rfl⟩

theorem worded_word {w : Word} (h : w.Ok) : Worded w.chars :=
  ⟨[w], by simpa using h, by simp⟩

theorem Worded.append {l l' : List Char} (h : Worded l) (h' : Worded l') : Worded (l ++ l') := by
  obtain ⟨ws, hok, rfl⟩ := h
  obtain ⟨ws', hok', rfl⟩ := h'
  refine ⟨ws ++ ws', fun w hw => ?_, by rw [List.flatMap_append]⟩
  exact (List.mem_append.mp hw).elim (hok w) (hok' w)

theorem Worded.cons {c : Char} (hc : c ≠ '\\') {l : List Char} (h : Worded l) : Worded (c :: l) :=
  (worded_word (w := .plain c) hc).append h

theorem worded_of_plain {l : List Char} (h : ∀ c ∈ l, c ≠ '\\') : Worded l := by
  induction l with
  | nil => exact worded_nil
  | cons c l ih =>
    exact .cons (h c List.mem_cons_self) (ih fun c hc => h c (List.mem_cons_of_mem _ hc))

theorem worded_flatMap {β : Type} {code : β → List Char} {bs : List β}
    (h : ∀ b ∈ bs, Worded (code b)) : Worded (bs.flatMap code) := by
  induction bs with
  | nil => exact worded_nil
  | cons b bs ih =>
    rw [List.flatMap_cons]
    exact (h b List.mem_cons_self).append (ih fun b hb => h b (List.mem_cons_of_mem _ hb))

theorem worded_itemsTail {β : Type} {close : Char} (hclose : close ≠ '\\') {text : β → List Char}
    {as : List β} (h : ∀ a ∈ as, Worded (text a)) :
    Worded (Delimited.itemsTail ',' close text as) := by
  induction as with
  | nil => exact .cons hclose worded_nil
  | cons a as ih =>
    exact .cons (by decide) ((h a List.mem_cons_self).append
      (ih fun a ha => h a (List.mem_cons_of_mem _ ha)))

theorem worded_items {β : Type} {close : Char} (hclose : close ≠ '\\') {text : β → List Char}
    {as : List β} (h : ∀ a ∈ as, Worded (text a)) :
    Worded (Delimited.items ',' close text as) := by
  cases as with
  | nil => exact .cons hclose worded_nil
  | cons a as =>
    exact (h a List.mem_cons_self).append
      (worded_itemsTail hclose fun a ha => h a (List.mem_cons_of_mem _ ha))

theorem worded_jsonChar (c : Char) : Worded (jsonChar c) := by
  unfold jsonChar
  split_ifs with hquote hslash hn hr ht hb hf hcontrol
  · exact worded_word (w := .escape '"') ⟨by decide, by decide⟩
  · exact worded_word (w := .escape '\\') ⟨by decide, by decide⟩
  · exact worded_word (w := .escape 'n') ⟨by decide, by decide⟩
  · exact worded_word (w := .escape 'r') ⟨by decide, by decide⟩
  · exact worded_word (w := .escape 't') ⟨by decide, by decide⟩
  · exact worded_word (w := .escape 'b') ⟨by decide, by decide⟩
  · exact worded_word (w := .escape 'f') ⟨by decide, by decide⟩
  · have hzero : c.toNat / 4096 % 16 = 0 ∧ c.toNat / 256 % 16 = 0 ∧ c.toNat / 16 % 16 = c.toNat / 16 := by
      omega
    have hchars : Word.chars (.control c) =
        ['\\', 'u', '0', '0', hexDigit (c.toNat / 16), hexDigit (c.toNat % 16)] := by
      rw [Word.chars, unitEscape, hzero.1, hzero.2.1, hzero.2.2]
      rfl
    rw [← hchars]
    exact worded_word (w := .control c) hcontrol
  · exact worded_word (w := .plain c) hslash

theorem worded_jsonString (s : String) : Worded (jsonString s).toList := by
  rw [toList_jsonString]
  exact .cons (by decide) ((worded_flatMap fun c _ => worded_jsonChar c).append
    (.cons (by decide) worded_nil))

theorem plain_of_isSymbol {c : Char} (h : Numeral.isSymbol c = true) : c ≠ '\\' := by
  rintro rfl
  exact absurd h (by decide)

theorem worded_number {n : Number} {t : String} (h : n.json = .ok t) : Worded t.toList := by
  have hnumeral : ∀ m : Numeral, t.toList = m.chars → Worded t.toList := fun m hm =>
    worded_of_plain fun c hc => plain_of_isSymbol (Numeral.isSymbol_of_mem_chars (hm ▸ hc))
  rcases Number.json_cases h with ⟨k, rfl, hk⟩ | ⟨d, rfl, rfl⟩ | ⟨hin, -⟩
  · exact hnumeral _ hk
  · obtain ⟨m, hm, -⟩ := d.spells_repr
    exact hnumeral m hm
  · simp only [List.mem_cons, List.not_mem_nil, or_false] at hin
    rcases hin with rfl | rfl | rfl <;> exact worded_of_plain (by simp)

/-- **The text of a value is a sequence of words**, by induction on the value. -/
theorem worded_dumped (j : Json) (hj : Dumps j) : Worded (dumped j) := by
  induction j using Json.induct with
  | null => exact worded_of_plain (show ∀ c ∈ "null".toList, c ≠ '\\' by simp)
  | bool b =>
    cases b with
    | false => exact worded_of_plain (show ∀ c ∈ "false".toList, c ≠ '\\' by simp)
    | true => exact worded_of_plain (show ∀ c ∈ "true".toList, c ≠ '\\' by simp)
  | num n =>
    obtain ⟨t, ht⟩ := hj
    rw [dumped, ht, okD_ok]
    exact worded_number ht
  | str s => exact worded_jsonString s
  | list items ih =>
    rw [dumped_list hj.of_list]
    exact .cons (by decide) (worded_items (by decide) fun j h => ih j h (hj.of_list j h))
  | dict entries ih =>
    rw [dumped_dict hj.of_dict]
    refine .cons (by decide) (worded_items (by decide) fun e he => ?_)
    have hmem := mem_byKey.mp he
    exact (worded_jsonString e.1).append (.cons (by decide) (ih e hmem (hj.of_dict e hmem)))

/-- **Nothing is lost in ASCII**: sequences of words that are one in ASCII are one. -/
theorem Worded.ascii_inj {l l' : List Char} (h : Worded l) (h' : Worded l')
    (heq : l.flatMap asciiChar = l'.flatMap asciiChar) : l = l' := by
  obtain ⟨ws, hws, rfl⟩ := h
  obtain ⟨ws', hws', rfl⟩ := h'
  rw [List.flatMap_assoc, List.flatMap_assoc] at heq
  have hsame : ws = ws' := Delimited.codes_inj_of_forall readWord_ascii rfl hws hws' heq
  rw [hsame]

theorem asciiText_inj {j j' : Json} {t t' : String} (h : dumps j = .ok t) (h' : dumps j' = .ok t')
    (heq : asciiText t = asciiText t') : t = t' := by
  have hwords : ∀ {j : Json} {t : String}, dumps j = .ok t → Worded t.toList := by
    intro j t ht
    have := worded_dumped j ⟨t, ht⟩
    rwa [dumped, ht, okD_ok] at this
  have hlists := congrArg String.toList heq
  rw [asciiText, asciiText, String.toList_ofList, String.toList_ofList] at hlists
  exact String.toList_inj.mp ((hwords h).ascii_inj (hwords h') hlists)

/-! ## Which values have a text -/

theorem Dumps.list {items : List Json} (h : ∀ j ∈ items, Dumps j) : Dumps (.list items) := by
  rw [Dumps, dumps, dumpsAll_eq h]
  exact ⟨_, rfl⟩

theorem Dumps.dict {entries : List (String × Json)} (h : ∀ e ∈ entries, Dumps e.2) :
    Dumps (.dict entries) := by
  rw [Dumps, dumps, dumpsEntries_eq h]
  exact ⟨_, rfl⟩

theorem dumps_str (s : String) : Dumps (.str s) := ⟨_, rfl⟩

theorem dumps_bool (b : Bool) : Dumps (.bool b) := ⟨_, rfl⟩

end Audit
end CampusID
