import Mathlib.Data.List.Sort
import CampusID.Lib.Effects
import CampusID.Audit.Numerals
import CampusID.Audit.RoundTrip

/-!
# The text of a value is unambiguous

`dumps` makes one text of a value, and the text is of no other: `normal_eq_of_dumps_eq`.  A
dictionary has no order, so values are compared in their normal form, in which the entries of
every dictionary are sorted by key.  Everything else is told apart: an `int` from a whole
`float`, zero from minus zero, a number from the string that reads like it.

* A string ends at the first quotation mark that is not escaped (`jsonString_tells`).
* A number or a keyword ends where something follows that can stand in neither (`tells_atom`).
* A list and a dictionary tell their items, by induction on the value (`tells`).
-/

namespace CampusID
namespace Audit

open Lib

/-! ## Strings -/

/-- The number a hexadecimal digit is. -/
def hexValue (c : Char) : Nat := if c.isDigit then c.toNat - 48 else c.toNat - 87

/-- What an escape stands for, behind its backslash. -/
def readEscape : List Char → Option (Char × List Char)
  | [] => none
  | c :: rest =>
    if c = 'n' then some ('\n', rest)
    else if c = 'r' then some ('\r', rest)
    else if c = 't' then some ('\t', rest)
    else if c = 'b' then some (Char.ofNat 8, rest)
    else if c = 'f' then some (Char.ofNat 12, rest)
    else if c = 'u' then
      match rest with
      | _ :: _ :: high :: low :: rest =>
        some (Char.ofNat (16 * hexValue high + hexValue low), rest)
      | _ => none
    else some (c, rest)

/-- The first character of the rest of a JSON string, and what follows it. -/
def readChar : List Char → Option (Char × List Char)
  | [] => none
  | c :: rest =>
    if c = '"' then none else if c = '\\' then readEscape rest else some (c, rest)

theorem hexValue_hexDigit : ∀ n < 16, hexValue (hexDigit n) = n := by decide

theorem eq_ofNat_of_toNat {c : Char} {n : Nat} (h : c.toNat = n) : c = Char.ofNat n := by
  rw [← h, Char.ofNat_toNat]

theorem readChar_jsonChar (c : Char) (rest : List Char) :
    readChar (jsonChar c ++ rest) = some (c, rest) := by
  unfold jsonChar
  split_ifs with hquote hslash hn hr ht hb hf hcontrol
  · simp [readChar, readEscape, hquote]
  · simp [readChar, readEscape, hslash]
  · simp [readChar, readEscape, hn]
  · simp [readChar, readEscape, hr]
  · simp [readChar, readEscape, ht]
  · simp [readChar, readEscape, eq_ofNat_of_toNat hb]
  · simp [readChar, readEscape, eq_ofNat_of_toNat hf]
  · have hhigh := hexValue_hexDigit (c.toNat / 16) (by omega)
    have hlow := hexValue_hexDigit (c.toNat % 16) (by omega)
    have hvalue : 16 * (c.toNat / 16) + c.toNat % 16 = c.toNat := Nat.div_add_mod _ _
    simp [readChar, readEscape, hhigh, hlow, hvalue]
  · simp [readChar, hquote, hslash]

theorem toList_jsonString (s : String) :
    (jsonString s).toList = '"' :: (s.toList.flatMap jsonChar ++ ['"']) := by
  rw [jsonString, String.toList_ofList]
  rfl

/-- **A string is told from any other, whatever follows.** -/
theorem jsonString_tells {s s' : String} {rest rest' : List Char}
    (h : (jsonString s).toList ++ rest = (jsonString s').toList ++ rest') :
    s = s' ∧ rest = rest' := by
  simp only [toList_jsonString, List.cons_append, List.append_assoc, List.nil_append,
    List.cons.injEq, true_and] at h
  obtain ⟨hchars, hrest⟩ := Delimited.codes_inj readChar_jsonChar (fun _ => rfl) h
  exact ⟨String.toList_inj.mp hchars, hrest⟩

/-! ## Values -/

mutual

/-- The value with the entries of every dictionary sorted by key. -/
def Json.normal : Json → Json
  | .null => .null
  | .bool b => .bool b
  | .num n => .num n
  | .str s => .str s
  | .list items => .list (normalAll items)
  | .dict entries => .dict ((normalEntries entries).insertionSort fun a b => a.1 ≤ b.1)

/-- Every item in normal form. -/
def normalAll : List Json → List Json
  | [] => []
  | j :: js => j.normal :: normalAll js

/-- The values of a dictionary in normal form. -/
def normalEntries : List (String × Json) → List (String × Json)
  | [] => []
  | (k, j) :: entries => (k, j.normal) :: normalEntries entries

end

theorem normalAll_eq (items : List Json) : normalAll items = items.map Json.normal := by
  induction items with
  | nil => rfl
  | cons j js ih => rw [normalAll, ih, List.map_cons]

theorem normalEntries_eq (entries : List (String × Json)) :
    normalEntries entries = entries.map fun e => (e.1, e.2.normal) := by
  induction entries with
  | nil => rfl
  | cons e entries ih => rw [normalEntries, ih, List.map_cons]

section Sorting

variable {β γ : Type}

/-- The entries in the order of their keys. -/
def byKey (entries : List (String × β)) : List (String × β) :=
  entries.insertionSort fun a b => a.1 ≤ b.1

theorem byKey_map (f : β → γ) (entries : List (String × β)) :
    byKey (entries.map fun e => (e.1, f e.2)) = (byKey entries).map fun e => (e.1, f e.2) :=
  (List.map_insertionSort (fun a b : String × β => a.1 ≤ b.1)
    (fun a b : String × γ => a.1 ≤ b.1) (fun e => (e.1, f e.2)) entries
    fun _ _ _ _ => Iff.rfl).symm

end Sorting

theorem normal_list (items : List Json) :
    (Json.list items).normal = .list (items.map Json.normal) := by
  rw [Json.normal, normalAll_eq]

theorem normal_dict (entries : List (String × Json)) :
    (Json.dict entries).normal = .dict ((byKey entries).map fun e => (e.1, e.2.normal)) := by
  rw [Json.normal, normalEntries_eq]
  exact congrArg Json.dict (byKey_map Json.normal entries)

mutual

theorem Json.induct {P : Json → Prop} (null : P .null) (bool : ∀ b, P (.bool b))
    (num : ∀ n, P (.num n)) (str : ∀ s, P (.str s))
    (list : ∀ items, (∀ j ∈ items, P j) → P (.list items))
    (dict : ∀ entries, (∀ e ∈ entries, P e.2) → P (.dict entries)) : ∀ j, P j
  | .null => null
  | .bool b => bool b
  | .num n => num n
  | .str s => str s
  | .list items => list items (Json.inductAll null bool num str list dict items)
  | .dict entries => dict entries (Json.inductEntries null bool num str list dict entries)

theorem Json.inductAll {P : Json → Prop} (null : P .null) (bool : ∀ b, P (.bool b))
    (num : ∀ n, P (.num n)) (str : ∀ s, P (.str s))
    (list : ∀ items, (∀ j ∈ items, P j) → P (.list items))
    (dict : ∀ entries, (∀ e ∈ entries, P e.2) → P (.dict entries)) :
    ∀ (items : List Json), ∀ j ∈ items, P j
  | [], _, h => by cases h
  | i :: is, j, h =>
    (List.mem_cons.mp h).elim (fun heq => heq ▸ Json.induct null bool num str list dict i)
      (Json.inductAll null bool num str list dict is j)

theorem Json.inductEntries {P : Json → Prop} (null : P .null) (bool : ∀ b, P (.bool b))
    (num : ∀ n, P (.num n)) (str : ∀ s, P (.str s))
    (list : ∀ items, (∀ j ∈ items, P j) → P (.list items))
    (dict : ∀ entries, (∀ e ∈ entries, P e.2) → P (.dict entries)) :
    ∀ (entries : List (String × Json)), ∀ e ∈ entries, P e.2
  | [], _, h => by cases h
  | (_, i) :: entries, e, h =>
    (List.mem_cons.mp h).elim (fun heq => heq ▸ Json.induct null bool num str list dict i)
      (Json.inductEntries null bool num str list dict entries e)

end

/-- The value has a text. -/
def Dumps (j : Json) : Prop := ∃ t, dumps j = .ok t

/-- Its characters. -/
def dumped (j : Json) : List Char := (okD (dumps j) "").toList

theorem dumps_of_dumpsAll {items : List Json} {ts : List String} (h : dumpsAll items = .ok ts) :
    ∀ j ∈ items, Dumps j := by
  induction items generalizing ts with
  | nil => simp
  | cons j js ih =>
    rw [dumpsAll] at h
    obtain ⟨t, ht, h⟩ := Eff.except_bind_eq_ok.mp h
    obtain ⟨rest, hrest, -⟩ := Eff.except_bind_eq_ok.mp h
    exact List.forall_mem_cons.mpr ⟨⟨t, ht⟩, ih hrest⟩

theorem dumps_of_dumpsEntries {entries : List (String × Json)} {ms : List (String × String)}
    (h : dumpsEntries entries = .ok ms) : ∀ e ∈ entries, Dumps e.2 := by
  induction entries generalizing ms with
  | nil => simp
  | cons e entries ih =>
    obtain ⟨k, j⟩ := e
    rw [dumpsEntries] at h
    obtain ⟨t, ht, h⟩ := Eff.except_bind_eq_ok.mp h
    obtain ⟨rest, hrest, -⟩ := Eff.except_bind_eq_ok.mp h
    exact List.forall_mem_cons.mpr ⟨⟨t, ht⟩, ih hrest⟩

theorem Dumps.of_list {items : List Json} (h : Dumps (.list items)) : ∀ j ∈ items, Dumps j := by
  obtain ⟨t, ht⟩ := h
  obtain ⟨ts, hts, -⟩ := Eff.except_bind_eq_ok.mp ht
  exact dumps_of_dumpsAll hts

theorem Dumps.of_dict {entries : List (String × Json)} (h : Dumps (.dict entries)) :
    ∀ e ∈ entries, Dumps e.2 := by
  obtain ⟨t, ht⟩ := h
  obtain ⟨ms, hms, -⟩ := Eff.except_bind_eq_ok.mp ht
  exact dumps_of_dumpsEntries hms

theorem toList_join {β : Type} (text : β → String) (close : Char) (as : List β) :
    (join "," (as.map text)).toList ++ [close] =
      Delimited.items ',' close (fun a => (text a).toList) as := by
  cases as with
  | nil => rfl
  | cons a as =>
    induction as generalizing a with
    | nil => rfl
    | cons b as ih =>
      have hb := ih b
      rw [List.map_cons] at hb
      simp only [List.map_cons, join, String.toList_append, List.append_assoc, hb]
      rfl

theorem dumped_list {items : List Json} (h : ∀ j ∈ items, Dumps j) :
    dumped (.list items) = '[' :: Delimited.items ',' ']' dumped items := by
  have htext : dumps (.list items) =
      .ok ("[" ++ join "," (items.map fun j => okD (dumps j) "") ++ "]") := by
    rw [dumps, dumpsAll_eq h]
    rfl
  have hitems := toList_join (fun j => okD (dumps j) "") ']' items
  rw [dumped, htext, okD_ok, String.toList_append, String.toList_append]
  exact congrArg ('[' :: ·) hitems

/-- An entry of a dictionary, as it is written. -/
def member (e : String × Json) : List Char := (jsonString e.1).toList ++ ':' :: dumped e.2

theorem dumped_dict {entries : List (String × Json)} (h : ∀ e ∈ entries, Dumps e.2) :
    dumped (.dict entries) = '{' :: Delimited.items ',' '}' member (byKey entries) := by
  have hsorted := byKey_map (fun j => okD (dumps j) "") entries
  unfold byKey at hsorted
  have htext : dumps (.dict entries) = .ok ("\x7b" ++ join "," ((byKey entries).map fun e =>
      jsonString e.1 ++ ":" ++ okD (dumps e.2) "") ++ "\x7d") := by
    rw [dumps, dumpsEntries_eq h, ok_bind, membersText, hsorted, List.map_map]
    rfl
  have hmembers : (fun e : String × Json =>
      (jsonString e.1 ++ ":" ++ okD (dumps e.2) "").toList) = member := by
    funext e
    simp [member, dumped]
  have hitems := toList_join (fun e : String × Json =>
    jsonString e.1 ++ ":" ++ okD (dumps e.2) "") '}' (byKey entries)
  rw [hmembers] at hitems
  rw [dumped, htext, okD_ok, String.toList_append, String.toList_append]
  exact congrArg ('{' :: ·) hitems

/-! ### Telling values apart -/

/-- What can stand in a number or a name: anything but what ends it. -/
def inside (c : Char) : Bool := c ≠ ',' && c ≠ ']' && c ≠ '}'

/-- What a text that starts so is the text of: a string, a list, a dictionary or none of
these. -/
def kindOf (c : Char) : Option Char := if c = '"' ∨ c = '[' ∨ c = '{' then some c else none

/-- The character that opens a value which is not a number or a name. -/
def kind : Json → Option Char
  | .str _ => some '"'
  | .list _ => some '['
  | .dict _ => some '{'
  | _ => none

/-- What a keyword is written for. -/
def keyword (t : String) : Json := if t = "null" then .null else .bool (t = "true")

/-- **A keyword or a number.** -/
theorem atom_cases {j : Json} {t : String} (hj : kind j = none) (h : dumps j = .ok t) :
    (t ∈ ["null", "true", "false"] ∧ j = keyword t) ∨ ∃ n, j = .num n ∧ n.json = .ok t := by
  cases j with
  | null =>
    obtain rfl := Except.ok.inj h
    exact .inl ⟨by decide, by simp [keyword]⟩
  | bool b =>
    obtain rfl := Except.ok.inj h
    cases b <;> exact .inl ⟨by decide, by simp [keyword]⟩
  | num n => exact .inr ⟨n, rfl, h⟩
  | str s => cases hj
  | list items => cases hj
  | dict entries => cases hj

theorem inside_of_isSymbol {c : Char} (h : Numeral.isSymbol c = true) :
    inside c = true ∧ kindOf c = none := by
  simp only [Numeral.isSymbol, Bool.or_eq_true, decide_eq_true_eq] at h
  have hdigit : ∀ d : Char, d.isDigit = false → c.isDigit = true → c ≠ d := by
    rintro d hd hc rfl
    rw [hc] at hd
    cases hd
  rcases h with (((h | rfl) | rfl) | rfl) | rfl
  · have hcomma := hdigit ',' (by decide) h
    have hbracket := hdigit ']' (by decide) h
    have hbrace := hdigit '}' (by decide) h
    have hquote := hdigit '"' (by decide) h
    have hlist := hdigit '[' (by decide) h
    have hdict := hdigit '{' (by decide) h
    simp [inside, kindOf, hcomma, hbracket, hbrace, hquote, hlist, hdict]
  all_goals decide

theorem inside_of_mem_json {n : Number} {t : String} (h : n.json = .ok t) :
    (∀ c ∈ t.toList, inside c = true ∧ kindOf c = none) ∧ t.toList ≠ [] ∧
      t ∉ ["null", "true", "false"] := by
  have hnumeral : ∀ m : Numeral, t.toList = m.chars → (∀ c ∈ t.toList, inside c = true ∧
      kindOf c = none) ∧ t.toList ≠ [] ∧ t ∉ ["null", "true", "false"] := by
    intro m hm
    refine ⟨fun c hc => inside_of_isSymbol (Numeral.isSymbol_of_mem_chars (hm ▸ hc)), ?_, ?_⟩
    · rw [hm, Numeral.chars]
      simp [m.whole_ne]
    · have hname := Number.isName_of_numeral hm
      simp only [List.mem_cons, List.not_mem_nil, or_false]
      rintro (rfl | rfl | rfl) <;> exact absurd hname (by decide)
  rcases Number.json_cases h with ⟨k, rfl, hk⟩ | ⟨d, rfl, rfl⟩ | ⟨hin, -⟩
  · exact hnumeral _ hk
  · obtain ⟨m, hm, -⟩ := d.spells_repr
    exact hnumeral m hm
  · simp only [List.mem_cons, List.not_mem_nil, or_false] at hin
    rcases hin with rfl | rfl | rfl <;> simp [inside, kindOf]

theorem inside_of_mem_atom {j : Json} {t : String} (hj : kind j = none) (h : dumps j = .ok t) :
    (∀ c ∈ t.toList, inside c = true ∧ kindOf c = none) ∧ t.toList ≠ [] := by
  rcases atom_cases hj h with ⟨hin, -⟩ | ⟨n, -, hn⟩
  · simp only [List.mem_cons, List.not_mem_nil, or_false] at hin
    rcases hin with rfl | rfl | rfl <;> simp [inside, kindOf]
  · obtain ⟨hinside, hne, -⟩ := inside_of_mem_json hn
    exact ⟨hinside, hne⟩

theorem atom_injective {j j' : Json} {t : String} (hj : kind j = none) (hj' : kind j' = none)
    (h : dumps j = .ok t) (h' : dumps j' = .ok t) : j = j' := by
  rcases atom_cases hj h with ⟨hin, hj⟩ | ⟨n, rfl, hn⟩
  · rcases atom_cases hj' h' with ⟨-, hj'⟩ | ⟨n', -, hn'⟩
    · rw [hj, hj']
    · exact absurd hin (inside_of_mem_json hn').2.2
  · rcases atom_cases hj' h' with ⟨hin, -⟩ | ⟨n', rfl, hn'⟩
    · exact absurd hin (inside_of_mem_json hn).2.2
    · rw [Number.json_injective hn hn']

theorem dumped_eq_cons {j : Json} (h : Dumps j) :
    ∃ c l, dumped j = c :: l ∧ kindOf c = kind j ∧ c ≠ ']' ∧ c ≠ '}' := by
  cases hj : kind j with
  | none =>
    obtain ⟨t, ht⟩ := h
    obtain ⟨hinside, hne⟩ := inside_of_mem_atom hj ht
    obtain ⟨c, l, hc⟩ := List.exists_cons_of_ne_nil hne
    have htext : dumped j = t.toList := by rw [dumped, ht, okD_ok]
    obtain ⟨hstop, hkind⟩ := hinside c (hc ▸ List.mem_cons_self)
    simp only [inside, Bool.and_eq_true, decide_eq_true_eq] at hstop
    exact ⟨c, l, htext.trans hc, hkind, hstop.1.2, hstop.2⟩
  | some k =>
    cases j with
    | null => cases hj
    | bool b => cases hj
    | num n => cases hj
    | str s => exact ⟨'"', _, toList_jsonString s, hj, by decide, by decide⟩
    | list items => exact ⟨'[', _, dumped_list h.of_list, hj, by decide, by decide⟩
    | dict entries => exact ⟨'{', _, dumped_dict h.of_dict, hj, by decide, by decide⟩

theorem map_eq_map_of_forall₂ {β γ : Type} {f : β → γ} {as bs : List β}
    (h : List.Forall₂ (fun a b => f a = f b) as bs) : as.map f = bs.map f := by
  induction h with
  | nil => rfl
  | cons hab _ ih => rw [List.map_cons, List.map_cons, hab, ih]

theorem mem_byKey {β : Type} {entries : List (String × β)} {e : String × β} :
    e ∈ byKey entries ↔ e ∈ entries := (List.perm_insertionSort _ _).mem_iff

theorem kind_eq_of_append_eq {j j' : Json} (hj : Dumps j) (hj' : Dumps j') {rest rest' : List Char}
    (h : dumped j ++ rest = dumped j' ++ rest') : kind j = kind j' := by
  obtain ⟨c, l, hc, hkind, -⟩ := dumped_eq_cons hj
  obtain ⟨c', l', hc', hkind', -⟩ := dumped_eq_cons hj'
  rw [hc, hc', List.cons_append, List.cons_append] at h
  rw [← hkind, ← hkind', (List.cons.inj h).1]

theorem tells_atom {j j' : Json} (hj : Dumps j) (hj' : Dumps j') (hatom : kind j = none) :
    Delimited.Tells inside dumped (fun j j' => j.normal = j'.normal) j j' := by
  intro rest rest' hrest hrest' h
  have hatom' : kind j' = none := (kind_eq_of_append_eq hj hj' h).symm.trans hatom
  obtain ⟨t, ht⟩ := hj
  obtain ⟨t', ht'⟩ := hj'
  rw [dumped, dumped, ht, ht', okD_ok, okD_ok] at h
  obtain ⟨htext, hfollow⟩ := Delimited.token (fun c hc => ((inside_of_mem_atom hatom ht).1 c hc).1)
    (fun c hc => ((inside_of_mem_atom hatom' ht').1 c hc).1) hrest hrest' h
  rw [String.toList_inj.mp htext] at ht
  exact ⟨by rw [atom_injective hatom hatom' ht ht'], hfollow⟩

theorem tells_member {e e' : String × Json}
    (h : Delimited.Tells inside dumped (fun j j' => j.normal = j'.normal) e.2 e'.2) :
    Delimited.Tells inside member (fun e e' => (e.1, e.2.normal) = (e'.1, e'.2.normal)) e e' := by
  intro rest rest' hrest hrest' heq
  simp only [member, List.append_assoc, List.cons_append] at heq
  obtain ⟨hkey, hvalue⟩ := jsonString_tells heq
  obtain ⟨hnormal, hfollow⟩ := h hrest hrest' (List.cons.inj hvalue).2
  exact ⟨Prod.ext hkey hnormal, hfollow⟩

theorem opens_member (e : String × Json) : Delimited.Opens '}' member e :=
  ⟨'"', _, by rw [member, toList_jsonString, List.cons_append], by decide⟩

/-- **Values are told apart**, up to the order of dictionaries, whatever follows them.  By
induction on the first: the first character tells what the second is, and a sequence its
items. -/
theorem tells (j : Json) (hj : Dumps j) (j' : Json) (hj' : Dumps j') :
    Delimited.Tells inside dumped (fun j j' => j.normal = j'.normal) j j' := by
  induction j using Json.induct generalizing j' with
  | null => exact tells_atom hj hj' rfl
  | bool b => exact tells_atom hj hj' rfl
  | num n => exact tells_atom hj hj' rfl
  | str s =>
    intro rest rest' hrest hrest' h
    have hkind := kind_eq_of_append_eq hj hj' h
    cases j' with
    | str s' =>
      obtain ⟨rfl, hfollow⟩ := jsonString_tells h
      exact ⟨rfl, hfollow⟩
    | null => cases hkind
    | bool b => cases hkind
    | num n => cases hkind
    | list items => simp [kind] at hkind
    | dict entries => simp [kind] at hkind
  | list items ih =>
    intro rest rest' hrest hrest' h
    have hkind := kind_eq_of_append_eq hj hj' h
    cases j' with
    | list items' =>
      have hitems := hj.of_list
      have hitems' := hj'.of_list
      have hopens : ∀ {j : Json}, Dumps j → Delimited.Opens ']' dumped j := fun hj => by
        obtain ⟨c, l, hc, -, hne, -⟩ := dumped_eq_cons hj
        exact ⟨c, l, hc, hne⟩
      rw [dumped_list hitems, dumped_list hitems', List.cons_append, List.cons_append] at h
      obtain ⟨heach, hfollow⟩ := Delimited.tells_items (by decide) (by decide) (by decide)
        (fun j hj => hopens (hitems j hj)) (fun j hj => hopens (hitems' j hj))
        (fun j hj j' hj' => ih j hj (hitems j hj) j' (hitems' j' hj')) (List.cons.inj h).2
      have hnormal : (Json.list items).normal = (Json.list items').normal := by
        rw [normal_list, normal_list, map_eq_map_of_forall₂ heach]
      exact ⟨hnormal, hfollow⟩
    | null => cases hkind
    | bool b => cases hkind
    | num n => cases hkind
    | str s => simp [kind] at hkind
    | dict entries => simp [kind] at hkind
  | dict entries ih =>
    intro rest rest' hrest hrest' h
    have hkind := kind_eq_of_append_eq hj hj' h
    cases j' with
    | dict entries' =>
      have hvalues := hj.of_dict
      have hvalues' := hj'.of_dict
      rw [dumped_dict hvalues, dumped_dict hvalues', List.cons_append, List.cons_append] at h
      obtain ⟨heach, hfollow⟩ := Delimited.tells_items (by decide) (by decide) (by decide)
        (fun e _ => opens_member e) (fun e _ => opens_member e)
        (fun e he e' he' => tells_member (ih e (mem_byKey.mp he) (hvalues e (mem_byKey.mp he)) e'.2
          (hvalues' e' (mem_byKey.mp he')))) (List.cons.inj h).2
      have hnormal : (Json.dict entries).normal = (Json.dict entries').normal := by
        rw [normal_dict, normal_dict, map_eq_map_of_forall₂ heach]
      exact ⟨hnormal, hfollow⟩
    | null => cases hkind
    | bool b => cases hkind
    | num n => cases hkind
    | str s => simp [kind] at hkind
    | list items => simp [kind] at hkind

/-- **The text is unambiguous**: values with one text have one normal form. -/
theorem normal_eq_of_dumps_eq {j j' : Json} {t : String} (h : dumps j = .ok t)
    (h' : dumps j' = .ok t) : j.normal = j'.normal := by
  have htexts : dumped j ++ [] = dumped j' ++ [] := by rw [dumped, dumped, h, h']
  exact (tells j ⟨t, h⟩ j' ⟨t, h'⟩ (Delimited.stops_nil _) (Delimited.stops_nil _) htexts).1

/-- **Dictionaries of one normal form** have one value under each key, as long as a key stands
in them once. -/
theorem normal_eq_of_mem {entries entries' : List (String × Json)}
    (h : (Json.dict entries).normal = (Json.dict entries').normal)
    (hnodup : (entries'.map Prod.fst).Nodup) {key : String} {j j' : Json}
    (hmem : (key, j) ∈ entries) (hmem' : (key, j') ∈ entries') : j.normal = j'.normal := by
  rw [normal_dict, normal_dict, Json.dict.injEq] at h
  have hsame : (key, j.normal) ∈ (byKey entries').map fun e => (e.1, e.2.normal) :=
    h ▸ List.mem_map.mpr ⟨(key, j), mem_byKey.mpr hmem, rfl⟩
  obtain ⟨e, he, hkey⟩ := List.mem_map.mp hsame
  obtain ⟨rfl, hvalue⟩ := Prod.mk.inj hkey
  have hentry : e = (e.1, j') :=
    List.inj_on_of_nodup_map hnodup (mem_byKey.mp he) hmem' rfl
  rw [← hvalue, hentry]

end Audit
end CampusID
