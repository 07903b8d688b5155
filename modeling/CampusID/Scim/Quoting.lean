import CampusID.Scim.Printing

/-!
# String literals

`_unquote` undoes the escapes of a literal one kind after the other, each on the whole text.  On the
literal of a text (`quote`) the first two replacements do what they should.  The last four also meet
what the text itself has: a backslash in front of one of four letters.  So they do to the literal
what they would do to the text (`unquote_quote`), and a text survives exactly if it has no such pair
(`survives_quoting_iff`).
-/

namespace CampusID
namespace Scim

open Audit (Json)

/-! ## The literal of a text -/

/-- The letter that stands for a character in a literal, behind a backslash. -/
def letterOf (c : Char) : Option Char :=
  if c = '"' then some '"'
  else if c = '\\' then some '\\'
  else if c = '\n' then some 'n'
  else if c = '\r' then some 'r'
  else if c = '\t' then some 't'
  else none

/-- The characters of a text, those with a letter as a backslash and that letter. -/
def escaped (letters : Char → Option Char) (text : List Char) : List Char :=
  text.flatMap fun c => match letters c with
    | some letter => ['\\', letter]
    | none => [c]

/-- The literal of a text. -/
def quote (s : String) : String := String.ofList ('"' :: (escaped letterOf s.toList ++ ['"']))

section Replacing

variable {a b c d : Char} {letters : Char → Option Char} {text rest : List Char}

@[simp] theorem escaped_nil : escaped letters [] = [] := rfl

theorem escaped_cons_some {letter : Char} (h : letters c = some letter) :
    escaped letters (c :: rest) = '\\' :: letter :: escaped letters rest := by
  simp [escaped, h]

theorem escaped_cons_none (h : letters c = none) :
    escaped letters (c :: rest) = c :: escaped letters rest := by
  simp [escaped, h]

theorem head?_escaped (h : (escaped letters text).head? = some d) :
    d = '\\' ∨ (letters d = none ∧ text.head? = some d) := by
  cases text with
  | nil => cases h
  | cons c text =>
    cases hc : letters c with
    | some letter =>
      rw [escaped_cons_some hc] at h
      cases h
      exact .inl rfl
    | none =>
      rw [escaped_cons_none hc] at h
      cases h
      exact .inr ⟨hc, rfl⟩

theorem replacePair_pair : replacePair a b c (a :: b :: rest) = c :: replacePair a b c rest := by
  conv_lhs => unfold replacePair
  rw [if_pos ⟨rfl, rfl⟩]

theorem replacePair_cons (h : ¬ (d = a ∧ rest.head? = some b)) :
    replacePair a b c (d :: rest) = d :: replacePair a b c rest := by
  cases rest with
  | nil => rfl
  | cons e rest =>
    conv_lhs => unfold replacePair
    exact if_neg fun hpair => h ⟨hpair.1, congrArg some hpair.2⟩

theorem length_replacePair_le : (replacePair a b c text).length ≤ text.length := by
  fun_induction replacePair a b c text with
  | case1 x y rest hpair ih => simp only [List.length_cons]; omega
  | case2 x y rest hpair ih => simpa using ih
  | case3 rest hshort => exact le_rfl

theorem replacePair_eq_self_of_length (h : text.length ≤ (replacePair a b c text).length) :
    replacePair a b c text = text := by
  fun_induction replacePair a b c text with
  | case1 x y rest hpair ih =>
    have hle : (replacePair a b c rest).length ≤ rest.length := length_replacePair_le
    simp only [List.length_cons] at h
    omega
  | case2 x y rest hpair ih => rw [ih (by simpa using h)]
  | case3 rest hshort => rfl

/-- **A text without the pair stays**, and one with it gets shorter. -/
theorem replacePair_eq_self_iff : replacePair a b c text = text ↔ ¬ [a, b] <:+: text := by
  fun_induction replacePair a b c text with
  | case1 x y rest hpair ih =>
    obtain ⟨rfl, rfl⟩ := hpair
    refine iff_of_false (fun heq => ?_) (not_not_intro ⟨[], rest, rfl⟩)
    have hlength := congrArg List.length heq
    have hle : (replacePair x y c rest).length ≤ rest.length := length_replacePair_le
    simp only [List.length_cons] at hlength
    omega
  | case2 x y rest hpair ih =>
    have hsplit : [a, b] <:+: x :: y :: rest ↔ [a, b] <+: x :: y :: rest ∨ [a, b] <:+: y :: rest :=
      List.infix_cons_iff
    rw [List.cons_inj_right, ih, hsplit, not_or, iff_and_self]
    rintro - hprefix
    obtain ⟨hx, hy⟩ := List.cons_prefix_cons.mp hprefix
    exact hpair ⟨hx.symm, (List.cons_prefix_cons.mp hy).1.symm⟩
  | case3 rest hshort =>
    refine iff_of_true rfl fun hinfix => ?_
    have hlength := hinfix.length_le
    rcases rest with _ | ⟨x, _ | ⟨y, rest⟩⟩
    · simp at hlength
    · simp at hlength
    · exact hshort x y rest rfl

/-! ## The first two replacements -/

/-- The letters of a table without those of a character. -/
abbrev without (letters : Char → Option Char) (c : Char) : Char → Option Char :=
  Function.update letters c none

theorem replacePair_quote (hquote : letters '"' = some '"') (hbackslash : letters '\\' = some '\\')
    (hother : ∀ d, letters d = some '"' → d = '"') :
    replacePair '\\' '"' '"' (escaped letters text) = escaped (without letters '"') text := by
  induction text with
  | nil => rfl
  | cons d text ih =>
    by_cases hd : d = '"'
    · subst hd
      rw [escaped_cons_some hquote, replacePair_pair, ih,
        escaped_cons_none (Function.update_self ..)]
    · have hsame : without letters '"' d = letters d := Function.update_of_ne hd ..
      cases hletter : letters d with
      | none =>
        rw [escaped_cons_none hletter, escaped_cons_none (hsame.trans hletter),
          replacePair_cons fun h => ?_, ih]
        rw [h.1, hbackslash] at hletter
        cases hletter
      | some letter =>
        have hletter' : letter ≠ '"' := fun h => hd (hother d (by rw [hletter, h]))
        have hstay : replacePair '\\' '"' '"' (letter :: escaped letters text) =
            letter :: replacePair '\\' '"' '"' (escaped letters text) := by
          refine replacePair_cons fun h => ?_
          -- what follows an escape is no quote
          rcases head?_escaped h.2 with hhead | ⟨hhead, -⟩
          · exact absurd hhead (by decide)
          · rw [hquote] at hhead
            cases hhead
        rw [escaped_cons_some hletter, escaped_cons_some (hsame.trans hletter), replacePair_cons,
          hstay, ih]
        exact fun h => hletter' (Option.some.inj h.2)

theorem replacePair_backslash (hbackslash : letters '\\' = some '\\')
    (hother : ∀ d, letters d = some '\\' → d = '\\') :
    replacePair '\\' '\\' '\\' (escaped letters text) = escaped (without letters '\\') text := by
  induction text with
  | nil => rfl
  | cons d text ih =>
    by_cases hd : d = '\\'
    · subst hd
      rw [escaped_cons_some hbackslash, replacePair_pair, ih,
        escaped_cons_none (Function.update_self ..)]
    · have hsame : without letters '\\' d = letters d := Function.update_of_ne hd ..
      cases hletter : letters d with
      | none =>
        rw [escaped_cons_none hletter, escaped_cons_none (hsame.trans hletter),
          replacePair_cons fun h => hd h.1, ih]
      | some letter =>
        have hletter' : letter ≠ '\\' := fun h => hd (hother d (by rw [hletter, h]))
        have hstay : replacePair '\\' '\\' '\\' (letter :: escaped letters text) =
            letter :: replacePair '\\' '\\' '\\' (escaped letters text) :=
          replacePair_cons fun h => hletter' h.1
        rw [escaped_cons_some hletter, escaped_cons_some (hsame.trans hletter), replacePair_cons,
          hstay, ih]
        exact fun h => hletter' (Option.some.inj h.2)

/-! ## The others -/

/-- **Where backslashes are not escaped**, a letter is restored in the literal and read out of the
text as well. -/
theorem replacePair_letter {letter : Char} (hletter : letters c = some letter)
    (hbackslash : letters '\\' = none) (hplain : letters letter = none)
    (hother : ∀ d, letters d = some letter → d = c) (himage : ∀ d, letters d ≠ some '\\')
    (hne : letter ≠ '\\') :
    replacePair '\\' letter c (escaped letters text) =
      escaped (without letters c) (replacePair '\\' letter c text) := by
  have hc : c ≠ '\\' := by
    rintro rfl
    rw [hbackslash] at hletter
    cases hletter
  have hrestored : without letters c c = none := Function.update_self ..
  have hkept : ∀ {d}, d ≠ c → without letters c d = letters d := fun hd =>
    Function.update_of_ne hd ..
  induction text with
  | nil => rfl
  | cons d text ih =>
    by_cases hpair : d = '\\' ∧ text.head? = some letter
    · -- the text has the pair
      obtain ⟨rfl, hhead⟩ := hpair
      obtain ⟨rest, rfl⟩ := List.head?_eq_some_iff.mp hhead
      have hletterc : letter ≠ c := by
        rintro rfl
        rw [hplain] at hletter
        cases hletter
      rw [escaped_cons_none hplain, replacePair_cons fun h => hne h.1,
        replacePair_cons fun h => hne h.1, escaped_cons_none ((hkept hletterc).trans hplain)] at ih
      rw [escaped_cons_none hbackslash, escaped_cons_none hplain, replacePair_pair,
        replacePair_pair, escaped_cons_none hrestored, (List.cons.inj ih).2]
    · rw [replacePair_cons hpair]
      cases hd : letters d with
      | none =>
        have hdc : d ≠ c := by
          rintro rfl
          rw [hd] at hletter
          cases hletter
        rw [escaped_cons_none hd, escaped_cons_none ((hkept hdc).trans hd), replacePair_cons, ih]
        rintro ⟨rfl, hhead⟩
        rcases head?_escaped hhead with rfl | ⟨-, hhead⟩
        · exact hne rfl
        · exact hpair ⟨rfl, hhead⟩
      | some other =>
        rw [escaped_cons_some hd]
        by_cases hsame : other = letter
        · -- the escape of the character
          rw [hsame] at hd ⊢
          obtain rfl := hother d hd
          rw [replacePair_pair, ih, escaped_cons_none hrestored]
        · have hdc : d ≠ c := by
            rintro rfl
            exact hsame (Option.some.inj (hd.symm.trans hletter))
          have hstay : replacePair '\\' letter c (other :: escaped letters text) =
              other :: replacePair '\\' letter c (escaped letters text) :=
            replacePair_cons fun h => himage d (by rw [hd, h.1])
          rw [escaped_cons_some ((hkept hdc).trans hd), replacePair_cons, hstay, ih]
          exact fun h => hsame (Option.some.inj h.2)

/-! ## All of them -/

/-- The table without quotes and backslashes. -/
abbrev controls : Char → Option Char := without (without letterOf '"') '\\'

theorem letterOf_eq_some {letter : Char} (h : letterOf c = some letter) :
    (c = '"' ∧ letter = '"') ∨ (c = '\\' ∧ letter = '\\') ∨ (c = '\n' ∧ letter = 'n') ∨
      (c = '\r' ∧ letter = 'r') ∨ (c = '\t' ∧ letter = 't') := by
  unfold letterOf at h
  split_ifs at h <;> cases h <;> simp [*]

theorem without_eq_some {letter : Char} (h : without letters c d = some letter) :
    d ≠ c ∧ letters d = some letter := by
  by_cases hd : d = c
  · rw [hd, without, Function.update_self] at h
    cases h
  · rw [without, Function.update_of_ne hd] at h
    exact ⟨hd, h⟩

theorem escaped_of_none (h : ∀ c ∈ text, letters c = none) : escaped letters text = text := by
  induction text with
  | nil => rfl
  | cons c text ih =>
    obtain ⟨hc, hothers⟩ := List.forall_mem_cons.mp h
    rw [escaped_cons_none hc, ih hothers]

/-- A table with some of the letters, without those of quotes and backslashes. -/
structure IsControls (letters : Char → Option Char) : Prop where
  letter : ∀ {c letter}, letters c = some letter → letterOf c = some letter
  quote : letters '"' = none
  backslash : letters '\\' = none

theorem isControls_controls : IsControls controls where
  letter h := (without_eq_some (without_eq_some h).2).2
  quote := by decide
  backslash := by decide

theorem without_of_none (h : letters d = none) : without letters c d = none := by
  by_cases hd : d = c
  · rw [hd, without, Function.update_self]
  · rw [without, Function.update_of_ne hd, h]

theorem IsControls.without (h : IsControls letters) (c : Char) :
    IsControls (Scim.without letters c) where
  letter hletter := h.letter (without_eq_some hletter).2
  quote := without_of_none h.quote
  backslash := without_of_none h.backslash

theorem IsControls.eq_none (h : IsControls letters) (hc : letterOf c = none) :
    letters c = none := by
  cases hletter : letters c with
  | none => rfl
  | some letter =>
    rw [h.letter hletter] at hc
    cases hc

theorem letterOf_injective {letter : Char} (h : letterOf c = some letter)
    (h' : letterOf d = some letter) : d = c := by
  rcases letterOf_eq_some h with ⟨rfl, rfl⟩ | ⟨rfl, rfl⟩ | ⟨rfl, rfl⟩ | ⟨rfl, rfl⟩ | ⟨rfl, rfl⟩ <;>
    rcases letterOf_eq_some h' with ⟨rfl, hd⟩ | ⟨rfl, hd⟩ | ⟨rfl, hd⟩ | ⟨rfl, hd⟩ | ⟨rfl, hd⟩ <;>
      first | rfl | exact absurd hd (by decide)

theorem IsControls.replacePair {letter : Char} (h : IsControls letters)
    (hletter : letters c = some letter) :
    Scim.replacePair '\\' letter c (escaped letters text) =
      escaped (Scim.without letters c) (Scim.replacePair '\\' letter c text) := by
  have himage : ∀ d, letters d ≠ some '\\' := by
    intro d hd
    obtain rfl : d = '\\' := letterOf_injective (c := '\\') rfl (h.letter hd)
    rw [h.backslash] at hd
    cases hd
  have hne : letter ≠ '\\' := by
    rintro rfl
    exact himage c hletter
  have hquote : letter ≠ '"' := by
    rintro rfl
    obtain rfl : c = '"' := letterOf_injective (c := '"') rfl (h.letter hletter)
    rw [h.quote] at hletter
    cases hletter
  have hplain : letters letter = none := by
    refine h.eq_none ?_
    rcases letterOf_eq_some (h.letter hletter) with ⟨-, rfl⟩ | ⟨-, rfl⟩ | ⟨-, rfl⟩ | ⟨-, rfl⟩ | ⟨-, rfl⟩
    · exact absurd rfl hquote
    · exact absurd rfl hne
    · decide
    · decide
    · decide
  exact replacePair_letter hletter h.backslash hplain
    (fun d hd => letterOf_injective (h.letter hletter) (h.letter hd)) himage hne

/-- What the last four replacements do to a text. -/
def unescaped (text : List Char) : List Char :=
  replacePair '\\' '/' '/' (replacePair '\\' 't' '\t' (replacePair '\\' 'r' '\r'
    (replacePair '\\' 'n' '\n' text)))

/-- **What is read of the literal of a text**: the text, with its own escapes undone. -/
theorem unquote_quote (s : String) : unquote (quote s) = String.ofList (unescaped s.toList) := by
  have hbody : ((quote s).toList.drop 1).dropLast = escaped letterOf s.toList := by
    rw [quote, String.toList_ofList, List.drop_one, List.tail_cons, List.dropLast_concat]
  have hquote : replacePair '\\' '"' '"' (escaped letterOf s.toList) =
      escaped (without letterOf '"') s.toList :=
    replacePair_quote rfl rfl fun d hd => letterOf_injective (c := '"') rfl hd
  have hbackslash : replacePair '\\' '\\' '\\' (escaped (without letterOf '"') s.toList) =
      escaped controls s.toList :=
    replacePair_backslash (by decide) fun d hd =>
      letterOf_injective (c := '\\') rfl (without_eq_some hd).2
  have hlineFeed := isControls_controls.without '\n'
  have hreturn := hlineFeed.without '\r'
  have hnone : ∀ c, without (without (without controls '\n') '\r') '\t' c = none := by
    intro c
    refine Option.eq_none_iff_forall_ne_some.mpr fun letter hletter => ?_
    obtain ⟨htab, hletter⟩ := without_eq_some hletter
    obtain ⟨hreturn, hletter⟩ := without_eq_some hletter
    obtain ⟨hlineFeed, hletter⟩ := without_eq_some hletter
    obtain ⟨hbackslash, hletter⟩ := without_eq_some hletter
    obtain ⟨hquote, hletter⟩ := without_eq_some hletter
    rcases letterOf_eq_some hletter with ⟨h, -⟩ | ⟨h, -⟩ | ⟨h, -⟩ | ⟨h, -⟩ | ⟨h, -⟩
    · exact hquote h
    · exact hbackslash h
    · exact hlineFeed h
    · exact hreturn h
    · exact htab h
  unfold unquote unescaped
  rw [hbody]
  dsimp only
  rw [hquote, hbackslash, isControls_controls.replacePair (by decide),
    hlineFeed.replacePair (by decide), hreturn.replacePair (by decide),
    escaped_of_none fun c _ => hnone c]

/-- A text has no escape of its own: no backslash in front of one of the four letters. -/
def Unambiguous (text : List Char) : Prop :=
  ∀ letter ∈ ['n', 'r', 't', '/'], ¬ ['\\', letter] <:+: text

instance (text : List Char) : Decidable (Unambiguous text) :=
  List.decidableBAll (fun letter => ¬ ['\\', letter] <:+: text) ['n', 'r', 't', '/']

theorem unescaped_eq_self_iff : unescaped text = text ↔ Unambiguous text := by
  unfold Unambiguous unescaped
  constructor
  · intro heq
    -- no replacement has made the text shorter
    have hlength := (congrArg List.length heq).ge
    have hslash := hlength.trans length_replacePair_le
    have htab := hslash.trans length_replacePair_le
    have hreturn := htab.trans length_replacePair_le
    have hn : replacePair '\\' 'n' '\n' text = text := replacePair_eq_self_of_length hreturn
    rw [hn] at htab hslash hlength
    have hr : replacePair '\\' 'r' '\r' text = text := replacePair_eq_self_of_length htab
    rw [hr] at hslash hlength
    have ht : replacePair '\\' 't' '\t' text = text := replacePair_eq_self_of_length hslash
    rw [ht] at hlength
    have hs : replacePair '\\' '/' '/' text = text := replacePair_eq_self_of_length hlength
    intro letter hletter
    simp only [List.mem_cons, List.not_mem_nil, or_false] at hletter
    rcases hletter with rfl | rfl | rfl | rfl
    · exact replacePair_eq_self_iff.mp hn
    · exact replacePair_eq_self_iff.mp hr
    · exact replacePair_eq_self_iff.mp ht
    · exact replacePair_eq_self_iff.mp hs
  · intro h
    rw [replacePair_eq_self_iff.mpr (h 'n' (by decide)), replacePair_eq_self_iff.mpr
      (h 'r' (by decide)), replacePair_eq_self_iff.mpr (h 't' (by decide)),
      replacePair_eq_self_iff.mpr (h '/' (by decide))]

theorem stringBody_escaped : stringBody (escaped letterOf text ++ '"' :: rest) =
    some (escaped letterOf text ++ ['"']) := by
  induction text with
  | nil => exact stringBody_quote
  | cons c text ih =>
    cases hc : letterOf c with
    | some letter =>
      have hletter : letter ≠ '\n' := by
        rintro rfl
        rcases letterOf_eq_some hc with ⟨-, h⟩ | ⟨-, h⟩ | ⟨-, h⟩ | ⟨-, h⟩ | ⟨-, h⟩ <;>
          exact absurd h (by decide)
      rw [escaped_cons_some hc, List.cons_append, List.cons_append, stringBody_escape hletter, ih]
      rfl
    | none =>
      have hquote : c ≠ '"' := by
        rintro rfl
        cases hc
      have hbackslash : c ≠ '\\' := by
        rintro rfl
        cases hc
      rw [escaped_cons_none hc, List.cons_append, stringBody_cons hquote hbackslash, ih]
      rfl

end Replacing

/-! ## Filters with the literal of a text -/

/-- A value is a text, or has a text among its items, that is another one up to case. -/
def EqualUpToCase (py : Builtins) (value : Json) (s : String) : Prop :=
  match value with
  | .list items => ∃ t, .str t ∈ items ∧ py.lower t = py.lower s
  | .str t => py.lower t = py.lower s
  | _ => False

/-- **A text survives quoting**: its literal is one string token, whatever follows it, and read as
the text, so that a filter for it finds the documents that have it up to case. -/
structure Survives (py : Builtins) (s : String) : Prop where
  token : ∀ rest, matchToken py ((quote s).toList ++ rest) = some (some .string, (quote s).toList)
  value : unquote (quote s) = s
  filter : ∀ path : AttrPath, path.Legal →
    (path.text ++ " eq " ++ quote s).length ≤ maxFilterLength →
      ∃ node, parseFilter py (path.text ++ " eq " ++ quote s) = .ok node ∧
        ∀ document, node.matchesIn py document = true ↔
          EqualUpToCase py (readPath py document path) s

variable {py : Builtins} {s : String}

theorem toList_quote (s : String) :
    (quote s).toList = '"' :: (escaped letterOf s.toList ++ ['"']) := String.toList_ofList

theorem matchToken_quote (rest : List Char) :
    matchToken py ((quote s).toList ++ rest) = some (some .string, (quote s).toList) := by
  rw [toList_quote]
  show (stringBody (escaped letterOf s.toList ++ ['"'] ++ rest)).map
    (fun body => (some TokenKind.string, '"' :: body)) = _
  rw [List.append_assoc, List.singleton_append, stringBody_escaped]
  rfl

theorem parseFilter_quote (hpy : py.Decimal) {path : AttrPath} (hpath : path.Legal)
    (hlength : (path.text ++ " eq " ++ quote s).length ≤ maxFilterLength) :
    parseFilter py (path.text ++ " eq " ++ quote s) =
      .ok (.comparison path .eq (.str (unquote (quote s)))) := by
  have hlexes : Lexes py (path.text ++ " eq " ++ quote s).toList
      [(.word, path.text), (.word, Operator.eq.word), (.string, quote s)] := by
    have hquote : Lexes py ((quote s).toList ++ []) [(.string, String.ofList (quote s).toList)] :=
      lexes_nil.token (matchToken_quote []) (by simp [toList_quote])
    have heq := (hquote.space.text hpy (isWord_operator .eq) delimited_space).space
    have hpath := heq.text hpy hpath.word delimited_space
    simpa [Operator.word, String.ofList_toList] using hpath
  obtain ⟨tokens, htokens, hlexemes⟩ := tokenize_of_lexes hlength hlexes
  obtain ⟨first, others, rfl, hfirst, hothers⟩ := List.map_eq_cons_iff.mp hlexemes
  obtain ⟨second, others, rfl, hsecond, hothers⟩ := List.map_eq_cons_iff.mp hothers
  obtain ⟨third, rfl, hthird⟩ := List.map_eq_singleton_iff.mp hothers
  obtain ⟨hkind, htext⟩ := lexeme_eq.mp hthird
  have hvalue : tokenValue py third = some (.str (unquote (quote s))) := by
    unfold tokenValue
    rw [hkind, htext]
  have hconjunction : conjunction py (path.text ++ " eq " ++ quote s) maxDepth
      [first, second, third] = .ok (.comparison path .eq (.str (unquote (quote s))), []) :=
    (Joins.single (operand_of_value hpath hfirst hsecond hvalue)).joined rfl
  exact parseFilter_of_joins htokens (.single hconjunction)

theorem matchesIn_eq_iff {path : AttrPath} {document : Object} :
    (Node.comparison path .eq (.str s)).matchesIn py document = true ↔
      EqualUpToCase py (readPath py document path) s := by
  have hone : ∀ actual, compareOne py actual .eq (.str s) = true ↔
      ∃ t, actual = .str t ∧ py.lower t = py.lower s := by
    intro actual
    cases actual <;> simp [compareOne, isEqual]
  rw [Node.matchesIn, compare]
  cases readPath py document path with
  | list items =>
    simp only [List.any_eq_true, hone, EqualUpToCase]
    constructor
    · rintro ⟨_, hmem, t, rfl, ht⟩
      exact ⟨t, hmem, ht⟩
    · rintro ⟨t, hmem, ht⟩
      exact ⟨_, hmem, t, rfl, ht⟩
  | str t => simp [hone, EqualUpToCase]
  | null => simp [hone, EqualUpToCase]
  | bool b => simp [hone, EqualUpToCase]
  | num n => simp [hone, EqualUpToCase]
  | dict entries => simp [hone, EqualUpToCase]

/-- **When a text survives quoting**: when it has no backslash in front of an `n`, an `r`, a `t` or
a slash. -/
theorem survives_quoting_iff (hpy : py.Decimal) (s : String) :
    Survives py s ↔ ∀ letter ∈ ['n', 'r', 't', '/'], ¬ ['\\', letter] <:+: s.toList := by
  have hvalue : unquote (quote s) = s ↔ Unambiguous s.toList := by
    rw [unquote_quote, ← unescaped_eq_self_iff, ← String.toList_inj, String.toList_ofList]
  constructor
  · exact fun h => hvalue.mp h.value
  · intro h
    have hread := hvalue.mpr h
    refine ⟨matchToken_quote, hread, fun path hpath hlength => ?_⟩
    refine ⟨_, parseFilter_quote hpy hpath hlength, fun document => ?_⟩
    rw [hread]
    exact matchesIn_eq_iff

/-- A text with quotes, and with a backslash before a letter that is none of the four. -/
theorem survives_path : Survives Builtins.ascii "\"C:\\data\"" :=
  (survives_quoting_iff decimal_ascii _).mpr (show Unambiguous _ by decide)

/-- The folder `new` of a drive does not survive: its name starts with an `n`. -/
theorem not_survives : ¬ ∀ (py : Builtins) (s : String), py.Decimal → Survives py s := by
  intro h
  have hread := (h Builtins.ascii "C:\\new" decimal_ascii).value
  exact absurd hread (by decide)

end Scim
end CampusID
