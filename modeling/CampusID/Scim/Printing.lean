import Mathlib.Data.List.TakeWhile
import CampusID.Scim.Lexing
import CampusID.Scim.Matching
import CampusID.Scim.Etags
import CampusID.Lib.Effects

/-!
# Printing a filter

A filter is printed with parentheses only where it would be read as another one without them:
`not` binds closer than `and`, `and` closer than `or`, and a chain of either is read from the left.
What is printed is read back as the filter it was printed from (`parseFilter_print`).

The proof has two halves.  The tokenizer makes of the printed text the tokens the printer had in
mind (`lexes_printAt`), and the parser makes of these tokens the filter (`reads_node`), whatever
follows them.
-/

namespace CampusID
namespace Scim

open Lib

/-! ## The printer -/

/-- The word of an operator. -/
def Operator.word : Operator → String
  | .eq => "eq"
  | .ne => "ne"
  | .co => "co"
  | .sw => "sw"
  | .ew => "ew"
  | .gt => "gt"
  | .ge => "ge"
  | .lt => "lt"
  | .le => "le"

/-- A literal as a filter writes it. -/
def Literal.print : Literal → String
  | .null => "null"
  | .bool b => if b then "true" else "false"
  | .num (.int n) => toString n
  | .num (.float d) => d.repr
  | .num .nan => "NaN"
  | .num (.inf negative) => if negative then "-Infinity" else "Infinity"
  | .str s => "\"" ++ s ++ "\""

/-- A text in parentheses, where they are needed. -/
def enclosed (needed : Bool) (text : String) : String :=
  if needed then "(" ++ text ++ ")" else text

/-- A filter where a filter (`0`), an operand of `or` (`1`) or an operand of `and` (`2`) is
expected. -/
def Node.printAt : Node → Nat → String
  | .comparison path operator value, _ => path.text ++ " " ++ operator.word ++ " " ++ value.print
  | .present path, _ => path.text ++ " pr"
  | .valuePath path predicate, _ => path.text ++ "[" ++ predicate.printAt 0 ++ "]"
  | .not inner, _ => "not (" ++ inner.printAt 0 ++ ")"
  | .and left right, level => enclosed (1 < level) (left.printAt 1 ++ " and " ++ right.printAt 2)
  | .or left right, level => enclosed (0 < level) (left.printAt 0 ++ " or " ++ right.printAt 1)

/-- The text of a filter. -/
def Node.print (node : Node) : String := node.printAt 0

/-- How deep the brackets and parentheses of the printed filter nest. -/
def Node.nestingAt : Node → Nat → Nat
  | .comparison _ _ _, _ => 0
  | .present _, _ => 0
  | .valuePath _ predicate, _ => predicate.nestingAt 0 + 1
  | .not inner, _ => inner.nestingAt 0 + 1
  | .and left right, level =>
    max (left.nestingAt 1) (right.nestingAt 2) + if 1 < level then 1 else 0
  | .or left right, level =>
    max (left.nestingAt 0) (right.nestingAt 1) + if 0 < level then 1 else 0

/-! ## What can be printed -/

/-- An attribute name: not empty, and without the signs that separate names. -/
def IsName (name : String) : Prop := name ≠ "" ∧ '.' ∉ name.toList ∧ ':' ∉ name.toList

/-- A path whose text is one word other than `not`, and whose parts are names. -/
structure AttrPath.Legal (path : AttrPath) : Prop where
  word : IsWord path.text.toList
  attributeName : IsName path.attributeName
  subAttribute : ∀ sub ∈ path.subAttribute, IsName sub
  not_not : Text.lower path.text ≠ "not"

/-- A literal that has a plain text: no number but an integer, and no text with a quote or a
backslash. -/
def Literal.Plain : Literal → Prop
  | .num (.int _) => True
  | .num _ => False
  | .str s => '"' ∉ s.toList ∧ '\\' ∉ s.toList
  | _ => True

/-- A filter with legal paths and plain literals. -/
def Node.Legal : Node → Prop
  | .comparison path _ value => path.Legal ∧ value.Plain
  | .present path => path.Legal
  | .valuePath path predicate => path.Legal ∧ predicate.Legal
  | .not inner => inner.Legal
  | .and left right => left.Legal ∧ right.Legal
  | .or left right => left.Legal ∧ right.Legal

instance (name : String) : Decidable (IsName name) :=
  inferInstanceAs (Decidable (name ≠ "" ∧ '.' ∉ name.toList ∧ ':' ∉ name.toList))

instance (path : AttrPath) : Decidable path.Legal :=
  decidable_of_iff (IsWord path.text.toList ∧ IsName path.attributeName ∧
      (∀ sub ∈ path.subAttribute, IsName sub) ∧ Text.lower path.text ≠ "not")
    ⟨fun ⟨hword, hname, hsub, hnot⟩ => ⟨hword, hname, hsub, hnot⟩,
      fun h => ⟨h.word, h.attributeName, h.subAttribute, h.not_not⟩⟩

instance : ∀ value : Literal, Decidable value.Plain
  | .null => isTrue trivial
  | .bool _ => isTrue trivial
  | .num (.int _) => isTrue trivial
  | .num (.float _) => isFalse not_false
  | .num .nan => isFalse not_false
  | .num (.inf _) => isFalse not_false
  | .str s => inferInstanceAs (Decidable ('"' ∉ s.toList ∧ '\\' ∉ s.toList))

/-- A filter can be tested for what it may contain. -/
def Node.decideLegal : ∀ node : Node, Decidable node.Legal
  | .comparison path _ value => inferInstanceAs (Decidable (path.Legal ∧ value.Plain))
  | .present path => inferInstanceAs (Decidable path.Legal)
  | .valuePath path predicate =>
    have := predicate.decideLegal
    inferInstanceAs (Decidable (path.Legal ∧ predicate.Legal))
  | .not inner => inner.decideLegal
  | .and left right =>
    have := left.decideLegal
    have := right.decideLegal
    inferInstanceAs (Decidable (left.Legal ∧ right.Legal))
  | .or left right =>
    have := left.decideLegal
    have := right.decideLegal
    inferInstanceAs (Decidable (left.Legal ∧ right.Legal))

instance (node : Node) : Decidable node.Legal := node.decideLegal

/-! ## Paths -/

theorem partitionDot_append {name sub : String} (h : '.' ∉ name.toList) :
    partitionDot (name ++ "." ++ sub) = (name, sub) := by
  have hchars : (name ++ "." ++ sub).toList = name.toList ++ ('.' :: sub.toList) := by
    simp
  have hkeep : ∀ c ∈ name.toList, decide (c ≠ '.') = true := by
    intro c hc
    refine decide_eq_true fun hdot => h ?_
    rwa [← hdot]
  unfold partitionDot Text.beforeFirst
  rw [hchars, takeWhile_append_stop hkeep (by rintro _ ⟨⟩; decide),
    List.dropWhile_append_of_pos hkeep, List.dropWhile_cons_of_neg (by decide)]
  simp

theorem partitionDot_of_notMem {name : String} (h : '.' ∉ name.toList) :
    partitionDot name = (name, "") := by
  have hkeep : ∀ c ∈ name.toList, decide (c ≠ '.') = true := by
    intro c hc
    refine decide_eq_true fun hdot => h ?_
    rwa [← hdot]
  unfold partitionDot Text.beforeFirst
  rw [List.takeWhile_eq_self_iff.mpr hkeep, List.dropWhile_eq_nil_iff.mpr hkeep]
  simp

/-- The text of a path without its URN. -/
def AttrPath.localName (path : AttrPath) : String :=
  match path.subAttribute with
  | some sub => path.attributeName ++ "." ++ sub
  | none => path.attributeName

theorem AttrPath.Legal.localName {path : AttrPath} (h : path.Legal) :
    ':' ∉ path.localName.toList ∧ path.localName ≠ "" := by
  obtain ⟨attributeName, subAttribute, urn⟩ := path
  obtain ⟨-, ⟨hne, -, hcolon⟩, hsub, -⟩ := h
  cases subAttribute with
  | none => exact ⟨hcolon, hne⟩
  | some sub =>
    obtain ⟨-, -, hsubcolon⟩ := hsub sub rfl
    refine ⟨?_, fun hempty => ?_⟩
    · show ':' ∉ (attributeName ++ "." ++ sub).toList
      simpa [hsubcolon] using hcolon
    · have hchars := congrArg String.toList
        (show attributeName ++ "." ++ sub = "" from hempty)
      simp at hchars

theorem splitName_of_parts {text name attributeName sub : String} {urn : Option String}
    {position : Nat} (h : partitionDot name = (attributeName, sub)) (hne : attributeName ≠ "")
    (hsub : '.' ∉ sub.toList) : splitName text urn name position =
      .ok ⟨attributeName, if sub = "" then none else some sub, urn⟩ := by
  unfold splitName
  rw [h]
  dsimp only
  rw [if_neg hne, if_neg hsub]

theorem AttrPath.Legal.splitName {path : AttrPath} (h : path.Legal) (text : String)
    (position : Nat) : Scim.splitName text path.urn path.localName position = .ok path := by
  obtain ⟨attributeName, subAttribute, urn⟩ := path
  obtain ⟨-, ⟨hne, hdot, -⟩, hsub, -⟩ := h
  cases subAttribute with
  | none => exact splitName_of_parts (partitionDot_of_notMem hdot) hne (by simp)
  | some sub =>
    obtain ⟨hsubne, hsubdot, -⟩ := hsub sub rfl
    refine (splitName_of_parts (partitionDot_append hdot) hne hsubdot).trans ?_
    rw [if_neg hsubne]

/-- **A legal path is read back.** -/
theorem AttrPath.Legal.parse {path : AttrPath} (h : path.Legal) (position : Nat) :
    parseAttrPath path.text position = .ok path := by
  have hsplit := h.splitName path.text position
  obtain ⟨hcolon, hne⟩ := h.localName
  obtain ⟨attributeName, subAttribute, urn⟩ := path
  unfold parseAttrPath
  cases urn with
  | none =>
    have hpartition : Text.rpartition ':' (AttrPath.text ⟨attributeName, subAttribute, none⟩) =
        none := Text.rpartition_of_notMem hcolon
    rw [hpartition]
    exact hsplit
  | some urn =>
    have hpartition : Text.rpartition ':' (AttrPath.text ⟨attributeName, subAttribute, some urn⟩) =
        some (urn, AttrPath.localName ⟨attributeName, subAttribute, some urn⟩) := by
      show Text.rpartition ':'
        (urn ++ ":" ++ AttrPath.localName ⟨attributeName, subAttribute, some urn⟩) = _
      exact Text.rpartition_eq_some_iff.mpr ⟨by simp, hcolon⟩
    rw [hpartition]
    exact (if_neg hne).trans hsplit

/-! ## The printed text has the tokens it should have -/

/-- The token of a literal. -/
def Literal.lexeme (value : Literal) : Lexeme :=
  match value with
  | .str _ => (.string, value.print)
  | .num _ => (.number, value.print)
  | _ => (.word, value.print)

/-- Some tokens in parentheses, where they are needed. -/
def enclosedLexemes (needed : Bool) (lexemes : List Lexeme) : List Lexeme :=
  if needed then (.lparen, "(") :: lexemes ++ [(.rparen, ")")] else lexemes

/-- The tokens of a filter. -/
def Node.lexemesAt : Node → Nat → List Lexeme
  | .comparison path operator value, _ =>
    [(.word, path.text), (.word, operator.word), value.lexeme]
  | .present path, _ => [(.word, path.text), (.word, "pr")]
  | .valuePath path predicate, _ =>
    (.word, path.text) :: (.lbracket, "[") :: predicate.lexemesAt 0 ++ [(.rbracket, "]")]
  | .not inner, _ =>
    (.word, "not") :: (.lparen, "(") :: inner.lexemesAt 0 ++ [(.rparen, ")")]
  | .and left right, level =>
    enclosedLexemes (1 < level) (left.lexemesAt 1 ++ (.word, "and") :: right.lexemesAt 2)
  | .or left right, level =>
    enclosedLexemes (0 < level) (left.lexemesAt 0 ++ (.word, "or") :: right.lexemesAt 1)

variable {py : Builtins} {rest : List Char} {lexemes : List Lexeme}

theorem Lexes.text (hpy : py.Decimal) {word : String} (h : Lexes py rest lexemes)
    (hword : IsWord word.toList) (hrest : Delimited rest) :
    Lexes py (word.toList ++ rest) ((.word, word) :: lexemes) := by
  have hlexes := h.word hpy hword hrest
  rwa [String.ofList_toList] at hlexes

theorem delimited_space : Delimited (' ' :: rest) := delimited_cons (.inl rfl)

theorem delimited_rparen : Delimited (')' :: rest) := delimited_cons (.inr (.inl rfl))

theorem isWord_operator (operator : Operator) : IsWord operator.word.toList := by
  cases operator <;> decide

theorem lexes_literal (hpy : py.Decimal) {value : Literal} (hvalue : value.Plain)
    (h : Lexes py rest lexemes) (hrest : Delimited rest) :
    Lexes py (value.print.toList ++ rest) (value.lexeme :: lexemes) := by
  cases value with
  | null => exact h.text hpy (by decide) hrest
  | bool b => cases b <;> exact h.text hpy (by decide) hrest
  | num n =>
    cases n with
    | int n => exact h.int hpy n hrest
    | float d => exact hvalue.elim
    | nan => exact hvalue.elim
    | inf negative => exact hvalue.elim
  | str s =>
    have hchars : (Literal.str s).print.toList = '"' :: (s.toList ++ ['"']) := by
      simp [Literal.print]
    have htext : (Literal.str s).print = String.ofList ('"' :: (s.toList ++ ['"'])) := by
      rw [← hchars, String.ofList_toList]
    have hbody : stringBody (s.toList ++ ['"'] ++ rest) = some (s.toList ++ ['"']) := by
      rw [List.append_assoc]
      exact stringBody_of_plain hvalue.1 hvalue.2
    rw [Literal.lexeme, hchars, htext]
    exact h.string hbody

theorem lexes_enclosed {needed : Bool} {text : String} {inner : List Lexeme}
    (h : ∀ {rest lexemes}, Lexes py rest lexemes → Delimited rest →
      Lexes py (text.toList ++ rest) (inner ++ lexemes))
    (hrest : Lexes py rest lexemes) (hdelimited : Delimited rest) :
    Lexes py ((enclosed needed text).toList ++ rest) (enclosedLexemes needed inner ++ lexemes) := by
  cases needed with
  | false => exact h hrest hdelimited
  | true =>
    have hlexes := (h hrest.rparen delimited_rparen).lparen
    simpa [enclosed, enclosedLexemes] using hlexes

/-- **The printed text has the tokens of the filter.** -/
theorem lexes_printAt (hpy : py.Decimal) {node : Node} (hlegal : node.Legal) (level : Nat)
    {rest : List Char} {lexemes : List Lexeme} (hrest : Lexes py rest lexemes)
    (hdelimited : Delimited rest) :
    Lexes py ((node.printAt level).toList ++ rest) (node.lexemesAt level ++ lexemes) := by
  induction node generalizing level rest lexemes with
  | comparison path operator value =>
    have hvalue := (lexes_literal hpy hlegal.2 hrest hdelimited).space
    have hoperator := (hvalue.text hpy (isWord_operator operator) delimited_space).space
    have hpath := hoperator.text hpy hlegal.1.word delimited_space
    simpa [Node.printAt, Node.lexemesAt] using hpath
  | present path =>
    have hpr := (hrest.text hpy (show IsWord "pr".toList by decide) hdelimited).space
    have hpath := hpr.text hpy (AttrPath.Legal.word hlegal) delimited_space
    simpa [Node.printAt, Node.lexemesAt] using hpath
  | valuePath path predicate ih =>
    have hpredicate := ih hlegal.2 0 hrest.rbracket (delimited_cons (.inr (.inr (.inr rfl))))
    have hpath := hpredicate.lbracket.text hpy hlegal.1.word
      (delimited_cons (.inr (.inr (.inl rfl))))
    simpa [Node.printAt, Node.lexemesAt] using hpath
  | not inner ih =>
    have hinner := (ih hlegal 0 hrest.rparen delimited_rparen).lparen.space
    have hnot := hinner.text hpy (show IsWord "not".toList by decide) delimited_space
    simpa [Node.printAt, Node.lexemesAt] using hnot
  | and left right ihl ihr =>
    refine lexes_enclosed (fun {rest lexemes} hrest hdelimited => ?_) hrest hdelimited
    have hright := (ihr hlegal.2 2 hrest hdelimited).space
    have hand := (hright.text hpy (show IsWord "and".toList by decide) delimited_space).space
    have hleft := ihl hlegal.1 1 hand delimited_space
    simpa using hleft
  | or left right ihl ihr =>
    refine lexes_enclosed (fun {rest lexemes} hrest hdelimited => ?_) hrest hdelimited
    have hright := (ihr hlegal.2 1 hrest hdelimited).space
    have hor := (hright.text hpy (show IsWord "or".toList by decide) delimited_space).space
    have hleft := ihl hlegal.1 0 hor delimited_space
    simpa using hleft

/-! ## The parser on these tokens -/

section Parser

variable {source : String} {tokens others : List Token} {path : AttrPath}

theorem lower_of_isWord {word : String} (h : IsWord word.toList) :
    py.lower word = Text.lower word :=
  py.lower_ascii word (List.all_eq_true.mpr fun c hc =>
    decide_eq_true (toNat_of_isWordChar (h.isWordChar c hc)))

theorem acceptWord_of_kind {word : String} {token : Token} (h : token.kind ≠ .word) :
    acceptWord py word (token :: others) = none := by
  exact if_neg fun hword => h hword.1

theorem acceptWord_of_ne {word : String} {token : Token} (h : py.lower token.text ≠ word) :
    acceptWord py word (token :: others) = none := by
  exact if_neg fun hword => h hword.2

theorem acceptWord_of_eq {word : String} {token : Token} (hkind : token.kind = .word)
    (h : py.lower token.text = word) :
    acceptWord py word (token :: others) = some others := by
  exact if_pos ⟨hkind, h⟩

theorem expectKind_of_kind {kind : TokenKind} {token : Token} (h : token.kind = kind) :
    expectKind source kind (token :: others) = .ok (token, others) := by
  exact if_pos h

end Parser

/-! ### Chains -/

section Chains

variable {item : FilterParser} {word : String} {join : Node → Node → Node} {tokens rest : List Token}
  {node left right : Node}

/-- A chain of items is read as a filter, up to some tokens that are left: its first item is, and
as many rounds of the loop as it has other items. -/
def Joins (py : Builtins) (item : FilterParser) (word : String) (join : Node → Node → Node)
    (tokens : List Token) (node : Node) (rest : List Token) : Prop :=
  ∃ first after rounds, item tokens = .ok (first, after) ∧ rounds + rest.length ≤ after.length ∧
    ∀ more, chain py item word join (rounds + more) first after =
      chain py item word join more node rest

theorem Joins.single (h : item tokens = .ok (node, rest)) :
    Joins py item word join tokens node rest :=
  ⟨node, rest, 0, h, by omega, fun more => by rw [Nat.zero_add]⟩

theorem Joins.step {sep : Token} {operand : List Token}
    (h : Joins py item word join tokens left (sep :: operand)) (hkind : sep.kind = .word)
    (hword : py.lower sep.text = word) (hitem : item operand = .ok (right, rest))
    (hlength : rest.length ≤ operand.length) :
    Joins py item word join tokens (join left right) rest := by
  obtain ⟨first, after, rounds, hfirst, hafter, hchain⟩ := h
  rw [List.length_cons] at hafter
  refine ⟨first, after, rounds + 1, hfirst, by omega, fun more => ?_⟩
  rw [Nat.add_assoc, hchain, Nat.add_comm 1 more, chain, acceptWord_of_eq hkind hword]
  dsimp only
  rw [hitem]
  rfl

theorem Joins.joined (h : Joins py item word join tokens node rest)
    (hstop : acceptWord py word rest = none) :
    joined py item word join tokens = .ok (node, rest) := by
  obtain ⟨first, after, rounds, hfirst, hafter, hchain⟩ := h
  have hloop : chain py item word join after.length first after = .ok (node, rest) := by
    obtain ⟨more, hmore⟩ := Nat.exists_eq_add_of_le (show rounds ≤ after.length by omega)
    rw [hmore, hchain]
    cases more with
    | zero => rfl
    | succ more => rw [chain, hstop]
  unfold Scim.joined
  rw [hfirst]
  exact hloop

end Chains

/-! ### Expressions -/

section Expressions

variable {source : String} {nested : FilterParser} {token next : Token} {others : List Token}
  {path : AttrPath} {value : Literal}

theorem lexeme_eq {kind : TokenKind} {text : String} :
    token.lexeme = (kind, text) ↔ token.kind = kind ∧ token.text = text := Prod.mk_inj

theorem attrPathToken_of_legal (hpath : path.Legal) (h : token.lexeme = (.word, path.text)) :
    attrPathToken source (token :: others) = .ok (path, others) := by
  obtain ⟨hkind, htext⟩ := lexeme_eq.mp h
  unfold attrPathToken
  show (if token.kind = .word then _ else _) = _
  rw [if_pos hkind, htext, hpath.parse]
  rfl

theorem parseUnary_of_legal (hpath : path.Legal) (h : token.lexeme = (.word, path.text)) :
    parseUnary py source nested (token :: others) =
      attributeExpression py source nested (token :: others) := by
  obtain ⟨hkind, htext⟩ := lexeme_eq.mp h
  have hnot : py.lower token.text ≠ "not" := by
    rw [htext, lower_of_isWord hpath.word]
    exact hpath.not_not
  unfold parseUnary
  rw [acceptWord_of_ne hnot]
  dsimp only
  rw [if_neg (by simp [hkind])]

theorem attributeExpression_of_word (hpath : path.Legal) (h : token.lexeme = (.word, path.text))
    (hnext : next.kind = .word) :
    attributeExpression py source nested (token :: next :: others) =
      parseComparison py source path (next :: others) := by
  unfold attributeExpression
  rw [attrPathToken_of_legal hpath h]
  show (if next.kind = .lbracket then _ else _) = _
  rw [if_neg (by simp [hnext])]

theorem replacePair_of_notMem {a b c : Char} {text : List Char} (h : a ∉ text) :
    replacePair a b c text = text := by
  fun_induction replacePair a b c text with
  | case1 x y rest hpair ih => exact absurd List.mem_cons_self (hpair.1 ▸ h)
  | case2 x y rest hpair ih => rw [ih fun hmem => h (List.mem_cons_of_mem _ hmem)]
  | case3 rest hshort => rfl

theorem unquote_of_plain {s : String} (h : '\\' ∉ s.toList) : unquote ("\"" ++ s ++ "\"") = s := by
  have hbody : ((("\"" ++ s ++ "\"").toList.drop 1).dropLast) = s.toList := by
    simp
  unfold unquote
  rw [hbody]
  simp only [replacePair_of_notMem h, String.ofList_toList]

theorem toLower_of_isDigit {c : Char} (h : c.isDigit = true) : c.toLower = c := by
  have hrange := toNat_of_isDigit h
  unfold Char.toLower
  refine dif_neg fun hupper => ?_
  have hlarge : 65 ≤ c.toNat := UInt32.le_iff_toNat_le.mp hupper.1
  omega

theorem isDecimal_toString (n : Int) : isDecimal py (toString n) = false := by
  have hchars : ∀ c ∈ (toString n).toList, c = '-' ∨ c.isDigit = true := by
    intro c hc
    rcases toList_toString n with ⟨-, h⟩ | ⟨-, h⟩
    · rw [h] at hc
      exact .inr (Nat.isDigit_of_mem_toDigits (by decide) (by decide) hc)
    · rw [h, List.mem_cons] at hc
      exact hc.imp_right fun hc => Nat.isDigit_of_mem_toDigits (by decide) (by decide) hc
  have hascii : py.lower (toString n) = Text.lower (toString n) := by
    refine py.lower_ascii _ (List.all_eq_true.mpr fun c hc => decide_eq_true ?_)
    rcases hchars c hc with rfl | hdigit
    · decide
    · exact toNat_of_isWordChar (by simp [isWordChar, Char.isAlphanum, hdigit])
  have hdot : '.' ∉ (toString n).toList := fun hmem =>
    (hchars '.' hmem).elim (by decide) (by decide)
  have hexponent : 'e' ∉ (Text.lower (toString n)).toList := by
    rw [Text.lower, String.toList_ofList, List.mem_map]
    rintro ⟨c, hc, hlower⟩
    rcases hchars c hc with rfl | hdigit
    · exact absurd hlower (by decide)
    · rw [toLower_of_isDigit hdigit] at hlower
      rw [hlower] at hdigit
      exact absurd hdigit (by decide)
  unfold isDecimal
  rw [hascii, decide_eq_false hdot, decide_eq_false hexponent]
  rfl

theorem tokenValue_of_lexeme (hpy : py.Decimal) (hvalue : value.Plain)
    (h : token.lexeme = value.lexeme) (hlength : token.text.length ≤ maxFilterLength) :
    tokenValue py token = some value := by
  unfold tokenValue
  cases value with
  | null =>
    obtain ⟨hkind, htext⟩ := lexeme_eq.mp h
    rw [hkind, htext]
    show literalWord (py.lower "null") = _
    rw [lower_of_isWord (by decide)]
    decide
  | bool b =>
    obtain ⟨hkind, htext⟩ := lexeme_eq.mp h
    rw [hkind, htext]
    cases b with
    | true =>
      show literalWord (py.lower "true") = _
      rw [lower_of_isWord (by decide)]
      decide
    | false =>
      show literalWord (py.lower "false") = _
      rw [lower_of_isWord (by decide)]
      decide
  | num n =>
    obtain ⟨hkind, htext⟩ := lexeme_eq.mp h
    cases n with
    | int n =>
      rw [htext] at hlength
      rw [hkind, htext]
      show some (Literal.num (if isDecimal py (toString n) then py.toFloat (toString n)
        else .int (py.toInt (toString n)))) = _
      rw [isDecimal_toString, hpy.toInt_toString n hlength]
      rfl
    | float d => exact hvalue.elim
    | nan => exact hvalue.elim
    | inf negative => exact hvalue.elim
  | str s =>
    obtain ⟨hkind, htext⟩ := lexeme_eq.mp h
    rw [hkind, htext]
    exact congrArg (fun text => some (Literal.str text)) (unquote_of_plain hvalue.2)

theorem lower_of_lexeme {word : String} (h : token.lexeme = (.word, word))
    (hword : IsWord word.toList) (hlower : Text.lower word = word) :
    token.kind = .word ∧ py.lower token.text = word := by
  obtain ⟨hkind, htext⟩ := lexeme_eq.mp h
  rw [htext, lower_of_isWord hword, hlower]
  exact ⟨hkind, rfl⟩

theorem ok_bind {α β ε : Type} (a : α) (f : α → Except ε β) : (Except.ok a >>= f) = f a := rfl

theorem parseComparison_of_value {operator : Operator}
    (htoken : token.lexeme = (.word, operator.word)) (hnext : tokenValue py next = some value) :
    parseComparison py source path (token :: next :: others) =
      .ok (.comparison path operator value, others) := by
  obtain ⟨hkind, hlower⟩ : token.kind = .word ∧ py.lower token.text = operator.word :=
    lower_of_lexeme htoken (isWord_operator operator) (by cases operator <;> decide)
  have hread : parseValue py source (next :: others) = .ok (value, others) := by
    simp only [parseValue, nextToken, ok_bind, hnext]
    rfl
  have hword : Operator.ofWord (py.lower token.text) = some operator := by
    rw [hlower]
    cases operator <;> decide
  have hpr : py.lower token.text ≠ "pr" := by
    rw [hlower]
    cases operator <;> decide
  simp only [parseComparison, nextToken, ok_bind]
  rw [if_neg (by simp [hkind]), if_neg hpr]
  simp only [hword, hread, ok_bind]
  rfl

theorem parseComparison_pr (htoken : token.lexeme = (.word, "pr")) :
    parseComparison py source path (token :: others) = .ok (.present path, others) := by
  obtain ⟨hkind, hlower⟩ : token.kind = .word ∧ py.lower token.text = "pr" :=
    lower_of_lexeme htoken (by decide) (by decide)
  unfold parseComparison
  show (if token.kind ≠ .word then _ else if py.lower token.text = "pr" then _ else _) = _
  rw [if_neg (by simp [hkind]), if_pos hlower]
  rfl

end Expressions

/-! ### Filters -/

section Reads

variable (py) (source : String)

/-- The operands of `and`, below so many levels. -/
abbrev operand (levels : Nat) : FilterParser := parseUnary py source (parseNested py source levels)

/-- The operands of `or`. -/
abbrev conjunction (levels : Nat) : FilterParser := joined py (operand py source levels) "and" .and

/-- The tokens of a filter are read as that filter, whatever follows them, where a filter, an
operand of `or` or an operand of `and` is expected. -/
structure Reads (node : Node) : Prop where
  asOperand : ∀ {levels : Nat} {tokens rest : List Token},
    tokens.map Token.lexeme = node.lexemesAt 2 → node.nestingAt 2 ≤ levels →
    (∀ token ∈ tokens, token.text.length ≤ maxFilterLength) →
      operand py source levels (tokens ++ rest) = .ok (node, rest)
  asConjunction : ∀ {levels : Nat} {tokens rest : List Token},
    tokens.map Token.lexeme = node.lexemesAt 1 → node.nestingAt 1 ≤ levels →
    (∀ token ∈ tokens, token.text.length ≤ maxFilterLength) →
      Joins py (operand py source levels) "and" .and (tokens ++ rest) node rest
  asFilter : ∀ {levels : Nat} {tokens rest : List Token},
    tokens.map Token.lexeme = node.lexemesAt 0 → node.nestingAt 0 ≤ levels →
    (∀ token ∈ tokens, token.text.length ≤ maxFilterLength) → acceptWord py "and" rest = none →
      Joins py (conjunction py source levels) "or" .or (tokens ++ rest) node rest

variable {py} {source} {levels : Nat} {tokens rest : List Token} {node left right : Node}

theorem parseNested_of_joins
    (h : Joins py (conjunction py source levels) "or" .or (tokens ++ rest) node rest)
    (hor : acceptWord py "or" rest = none) :
    parseNested py source (levels + 1) (tokens ++ rest) = .ok (node, rest) :=
  h.joined hor

theorem parenthesised_of_joins {close : Token} (hclose : close.lexeme = (.rparen, ")"))
    (h : Joins py (conjunction py source levels) "or" .or (tokens ++ close :: rest) node
      (close :: rest)) :
    parenthesised source (parseNested py source (levels + 1)) (tokens ++ close :: rest) =
      .ok (node, rest) := by
  have hkind : close.kind = .rparen := (lexeme_eq.mp hclose).1
  unfold parenthesised
  rw [parseNested_of_joins h (acceptWord_of_kind (by simp [hkind]))]
  simp only [ok_bind, expectKind_of_kind hkind]
  rfl

theorem exists_enclosed {inner : List Lexeme}
    (h : tokens.map Token.lexeme = (.lparen, "(") :: inner ++ [(.rparen, ")")]) :
    ∃ opening middle close, tokens = opening :: middle ++ [close] ∧
      opening.kind = .lparen ∧ middle.map Token.lexeme = inner ∧
        close.lexeme = (.rparen, ")") := by
  obtain ⟨front, last, rfl, hfront, hlast⟩ := List.map_eq_append_iff.mp h
  obtain ⟨close, rfl, hclose⟩ := List.map_eq_singleton_iff.mp hlast
  obtain ⟨opening, middle, rfl, hopening, hmiddle⟩ := List.map_eq_cons_iff.mp hfront
  exact ⟨opening, middle, close, rfl, (lexeme_eq.mp hopening).1, hmiddle, hclose⟩

theorem operand_of_enclosed {inner : List Lexeme}
    (h : tokens.map Token.lexeme = (.lparen, "(") :: inner ++ [(.rparen, ")")])
    (hinner : ∀ {middle : List Token} {close : Token}, middle.map Token.lexeme = inner →
      (∀ token ∈ middle, token ∈ tokens) → close.kind = .rparen →
      Joins py (conjunction py source levels) "or" .or (middle ++ close :: rest) node
        (close :: rest)) :
    operand py source (levels + 1) (tokens ++ rest) = .ok (node, rest) := by
  obtain ⟨opening, middle, close, rfl, hopening, hmiddle, hclose⟩ := exists_enclosed h
  have hjoins := hinner hmiddle (fun token hmem => List.mem_append_left _
    (List.mem_cons_of_mem _ hmem)) (lexeme_eq.mp hclose).1
  rw [List.append_assoc, List.cons_append]
  unfold operand parseUnary
  rw [acceptWord_of_kind (by simp [hopening])]
  dsimp only
  rw [if_pos hopening]
  exact parenthesised_of_joins hclose hjoins

theorem Reads.of_operand (hlexemes : ∀ level, node.lexemesAt level = node.lexemesAt 2)
    (hnesting : ∀ level, node.nestingAt level = node.nestingAt 2)
    (h : ∀ {levels : Nat} {tokens rest : List Token},
      tokens.map Token.lexeme = node.lexemesAt 2 → node.nestingAt 2 ≤ levels →
      (∀ token ∈ tokens, token.text.length ≤ maxFilterLength) →
        operand py source levels (tokens ++ rest) = .ok (node, rest)) :
    Reads py source node where
  asOperand := h
  asConjunction htokens hlevels hlength := by
    rw [hlexemes] at htokens
    rw [hnesting] at hlevels
    exact .single (h htokens hlevels hlength)
  asFilter htokens hlevels hlength hand := by
    rw [hlexemes] at htokens
    rw [hnesting] at hlevels
    exact .single ((Joins.single (h htokens hlevels hlength)).joined hand)

theorem exists_joined {word : String} {before after : List Lexeme}
    (h : tokens.map Token.lexeme = before ++ (.word, word) :: after) :
    ∃ first sep second, tokens = first ++ sep :: second ∧ first.map Token.lexeme = before ∧
      sep.lexeme = (.word, word) ∧ second.map Token.lexeme = after := by
  obtain ⟨first, others, rfl, hfirst, hothers⟩ := List.map_eq_append_iff.mp h
  obtain ⟨sep, second, rfl, hsep, hsecond⟩ := List.map_eq_cons_iff.mp hothers
  exact ⟨first, sep, second, rfl, hfirst, hsep, hsecond⟩

theorem Reads.and (hleft : Reads py source left) (hright : Reads py source right) :
    Reads py source (.and left right) := by
  have hchain : ∀ {levels : Nat} {tokens rest : List Token},
      tokens.map Token.lexeme = left.lexemesAt 1 ++ (.word, "and") :: right.lexemesAt 2 →
      max (left.nestingAt 1) (right.nestingAt 2) ≤ levels →
      (∀ token ∈ tokens, token.text.length ≤ maxFilterLength) →
        Joins py (operand py source levels) "and" .and (tokens ++ rest) (.and left right) rest := by
    intro levels tokens rest htokens hlevels hlength
    obtain ⟨first, sep, second, rfl, hfirst, hsep, hsecond⟩ := exists_joined htokens
    obtain ⟨hfits, hfits'⟩ := List.forall_mem_append.mp hlength
    obtain ⟨hlevelsLeft, hlevelsRight⟩ := max_le_iff.mp hlevels
    obtain ⟨hkind, hword⟩ : sep.kind = .word ∧ py.lower sep.text = "and" :=
      lower_of_lexeme hsep (by decide) (by decide)
    rw [List.append_assoc, List.cons_append]
    refine (hleft.asConjunction hfirst hlevelsLeft hfits).step hkind hword ?_ (by simp)
    exact hright.asOperand hsecond hlevelsRight (List.forall_mem_cons.mp hfits').2
  refine ⟨?_, fun htokens hlevels hlength => ?_, fun htokens hlevels hlength hand => ?_⟩
  · intro levels tokens rest htokens hlevels hlength
    obtain ⟨below, rfl⟩ : ∃ below, levels = below + 1 :=
      Nat.exists_eq_add_of_le' (Nat.le_of_add_left_le hlevels)
    refine operand_of_enclosed htokens fun {middle close} hmiddle hsub hclose => ?_
    have hand : acceptWord py "and" (close :: rest) = none :=
      acceptWord_of_kind (by simp [hclose])
    exact .single ((hchain hmiddle (Nat.le_of_add_le_add_right hlevels)
      fun token hmem => hlength token (hsub token hmem)).joined hand)
  · exact hchain htokens hlevels hlength
  · exact .single ((hchain htokens hlevels hlength).joined hand)

theorem Reads.or (hleft : Reads py source left) (hright : Reads py source right) :
    Reads py source (.or left right) := by
  have hchain : ∀ {levels : Nat} {tokens rest : List Token},
      tokens.map Token.lexeme = left.lexemesAt 0 ++ (.word, "or") :: right.lexemesAt 1 →
      max (left.nestingAt 0) (right.nestingAt 1) ≤ levels →
      (∀ token ∈ tokens, token.text.length ≤ maxFilterLength) → acceptWord py "and" rest = none →
        Joins py (conjunction py source levels) "or" .or (tokens ++ rest) (.or left right)
          rest := by
    intro levels tokens rest htokens hlevels hlength hand
    obtain ⟨first, sep, second, rfl, hfirst, hsep, hsecond⟩ := exists_joined htokens
    obtain ⟨hfits, hfits'⟩ := List.forall_mem_append.mp hlength
    obtain ⟨hlevelsLeft, hlevelsRight⟩ := max_le_iff.mp hlevels
    obtain ⟨hkind, hword⟩ : sep.kind = .word ∧ py.lower sep.text = "or" :=
      lower_of_lexeme hsep (by decide) (by decide)
    have hsecond := (hright.asConjunction hsecond hlevelsRight (List.forall_mem_cons.mp hfits').2
      ).joined hand
    rw [List.append_assoc, List.cons_append]
    refine (hleft.asFilter hfirst hlevelsLeft hfits ?_).step hkind hword hsecond (by simp)
    exact acceptWord_of_ne (by simp [hword])
  have henclosed : ∀ {levels : Nat} {tokens rest : List Token},
      tokens.map Token.lexeme = (Node.or left right).lexemesAt 2 →
      (Node.or left right).nestingAt 2 ≤ levels →
      (∀ token ∈ tokens, token.text.length ≤ maxFilterLength) →
        operand py source levels (tokens ++ rest) = .ok (.or left right, rest) := by
    intro levels tokens rest htokens hlevels hlength
    obtain ⟨below, rfl⟩ : ∃ below, levels = below + 1 :=
      Nat.exists_eq_add_of_le' (Nat.le_of_add_left_le hlevels)
    refine operand_of_enclosed htokens fun hmiddle hsub hclose => ?_
    exact hchain hmiddle (Nat.le_of_add_le_add_right hlevels)
      (fun token hmem => hlength token (hsub token hmem))
      (acceptWord_of_kind (by simp [hclose]))
  refine ⟨henclosed, fun htokens hlevels hlength => ?_, fun htokens hlevels hlength hand => ?_⟩
  · exact .single (henclosed htokens hlevels hlength)
  · exact hchain htokens hlevels hlength hand

theorem operand_of_value {path : AttrPath} {operator : Operator} {value : Literal}
    {first second third : Token} (hpath : path.Legal) (hfirst : first.lexeme = (.word, path.text))
    (hsecond : second.lexeme = (.word, operator.word)) (hthird : tokenValue py third = some value) :
    operand py source levels (first :: second :: third :: rest) =
      .ok (.comparison path operator value, rest) := by
  calc operand py source levels (first :: second :: third :: rest)
      = attributeExpression py source (parseNested py source levels)
          (first :: second :: third :: rest) := parseUnary_of_legal hpath hfirst
    _ = parseComparison py source path (second :: third :: rest) :=
        attributeExpression_of_word hpath hfirst (lexeme_eq.mp hsecond).1
    _ = .ok (.comparison path operator value, rest) := parseComparison_of_value hsecond hthird

theorem operand_comparison (hpy : py.Decimal) {path : AttrPath} {operator : Operator}
    {value : Literal} (hpath : path.Legal) (hvalue : value.Plain)
    (htokens : tokens.map Token.lexeme = (Node.comparison path operator value).lexemesAt 2)
    (hlength : ∀ token ∈ tokens, token.text.length ≤ maxFilterLength) :
    operand py source levels (tokens ++ rest) = .ok (.comparison path operator value, rest) := by
  obtain ⟨first, others, rfl, hfirst, hothers⟩ := List.map_eq_cons_iff.mp htokens
  obtain ⟨second, others, rfl, hsecond, hothers⟩ := List.map_eq_cons_iff.mp hothers
  obtain ⟨third, rfl, hthird⟩ := List.map_eq_singleton_iff.mp hothers
  exact operand_of_value hpath hfirst hsecond
    (tokenValue_of_lexeme hpy hvalue hthird (hlength third (by simp)))

theorem operand_present {path : AttrPath} (hpath : path.Legal)
    (htokens : tokens.map Token.lexeme = (Node.present path).lexemesAt 2) :
    operand py source levels (tokens ++ rest) = .ok (.present path, rest) := by
  obtain ⟨first, others, rfl, hfirst, hothers⟩ := List.map_eq_cons_iff.mp htokens
  obtain ⟨second, rfl, hsecond⟩ := List.map_eq_singleton_iff.mp hothers
  calc operand py source levels ([first, second] ++ rest)
      = attributeExpression py source (parseNested py source levels) (first :: second :: rest) :=
        parseUnary_of_legal hpath hfirst
    _ = parseComparison py source path (second :: rest) :=
        attributeExpression_of_word hpath hfirst (lexeme_eq.mp hsecond).1
    _ = .ok (.present path, rest) := parseComparison_pr hsecond

theorem operand_valuePath {path : AttrPath} {predicate : Node} (hpath : path.Legal)
    (hpredicate : Reads py source predicate)
    (htokens : tokens.map Token.lexeme = (Node.valuePath path predicate).lexemesAt 2)
    (hlevels : (Node.valuePath path predicate).nestingAt 2 ≤ levels)
    (hlength : ∀ token ∈ tokens, token.text.length ≤ maxFilterLength) :
    operand py source levels (tokens ++ rest) = .ok (.valuePath path predicate, rest) := by
  obtain ⟨below, rfl⟩ : ∃ below, levels = below + 1 :=
    Nat.exists_eq_add_of_le' (Nat.le_of_add_left_le hlevels)
  obtain ⟨first, others, rfl, hfirst, hothers⟩ := List.map_eq_cons_iff.mp htokens
  obtain ⟨opening, others, rfl, hopening, hothers⟩ := List.map_eq_cons_iff.mp hothers
  obtain ⟨middle, last, rfl, hmiddle, hlast⟩ := List.map_eq_append_iff.mp hothers
  obtain ⟨close, rfl, hclose⟩ := List.map_eq_singleton_iff.mp hlast
  have hkind : close.kind = .rbracket := (lexeme_eq.mp hclose).1
  have hjoins : Joins py (conjunction py source below) "or" .or (middle ++ close :: rest) predicate
      (close :: rest) :=
    hpredicate.asFilter hmiddle (Nat.le_of_add_le_add_right hlevels)
      (fun token hmem => hlength token (by simp [hmem])) (acceptWord_of_kind (by simp [hkind]))
  have hnested := parseNested_of_joins hjoins (acceptWord_of_kind (by simp [hkind]))
  have htail : first :: opening :: (middle ++ [close]) ++ rest =
      first :: opening :: (middle ++ close :: rest) := by simp
  rw [htail]
  refine (parseUnary_of_legal hpath hfirst).trans ?_
  simp only [attributeExpression, attrPathToken_of_legal hpath hfirst, ok_bind]
  rw [if_pos (lexeme_eq.mp hopening).1, hnested]
  simp only [ok_bind, expectKind_of_kind hkind]
  rfl

theorem operand_not {inner : Node} (hinner : Reads py source inner)
    (htokens : tokens.map Token.lexeme = (Node.not inner).lexemesAt 2)
    (hlevels : (Node.not inner).nestingAt 2 ≤ levels)
    (hlength : ∀ token ∈ tokens, token.text.length ≤ maxFilterLength) :
    operand py source levels (tokens ++ rest) = .ok (.not inner, rest) := by
  obtain ⟨below, rfl⟩ : ∃ below, levels = below + 1 :=
    Nat.exists_eq_add_of_le' (Nat.le_of_add_left_le hlevels)
  obtain ⟨first, others, rfl, hfirst, hothers⟩ := List.map_eq_cons_iff.mp htokens
  obtain ⟨opening, middle, close, rfl, hopening, hmiddle, hclose⟩ := exists_enclosed hothers
  have hkind : close.kind = .rparen := (lexeme_eq.mp hclose).1
  have hjoins : Joins py (conjunction py source below) "or" .or (middle ++ close :: rest) inner
      (close :: rest) :=
    hinner.asFilter hmiddle (Nat.le_of_add_le_add_right hlevels)
      (fun token hmem => hlength token (by simp [hmem])) (acceptWord_of_kind (by simp [hkind]))
  have hnested := parenthesised_of_joins hclose hjoins
  obtain ⟨hword, hnot⟩ : first.kind = .word ∧ py.lower first.text = "not" :=
    lower_of_lexeme hfirst (by decide) (by decide)
  have htail : first :: (opening :: middle ++ [close]) ++ rest =
      first :: opening :: (middle ++ close :: rest) := by simp
  rw [htail]
  unfold operand parseUnary
  rw [acceptWord_of_eq hword hnot]
  simp only [expectKind_of_kind hopening, ok_bind, hnested]
  rfl

/-- **The tokens of a legal filter are read as that filter.** -/
theorem reads_node (hpy : py.Decimal) (hlegal : node.Legal) : Reads py source node := by
  induction node with
  | comparison path operator value =>
    exact .of_operand (fun _ => rfl) (fun _ => rfl) fun htokens _ hlength =>
      operand_comparison hpy hlegal.1 hlegal.2 htokens hlength
  | present path =>
    exact .of_operand (fun _ => rfl) (fun _ => rfl) fun htokens _ _ =>
      operand_present hlegal htokens
  | valuePath path predicate ih =>
    exact .of_operand (fun _ => rfl) (fun _ => rfl) fun htokens hlevels hlength =>
      operand_valuePath hlegal.1 (ih hlegal.2) htokens hlevels hlength
  | not inner ih =>
    exact .of_operand (fun _ => rfl) (fun _ => rfl) fun htokens hlevels hlength =>
      operand_not (ih hlegal) htokens hlevels hlength
  | and left right ihl ihr => exact (ihl hlegal.1).and (ihr hlegal.2)
  | or left right ihl ihr => exact (ihl hlegal.1).or (ihr hlegal.2)

end Reads

/-! ## Round trip -/

theorem parseFilter_of_joins {source : String} {tokens : List Token} {node : Node}
    (htokens : tokenize py source = .ok tokens)
    (h : Joins py (conjunction py source maxDepth) "or" .or (tokens ++ []) node []) :
    parseFilter py source = .ok node := by
  have hparse := parseNested_of_joins h rfl
  rw [List.append_nil] at hparse
  exact Eff.except_bind_eq_ok.mpr ⟨tokens, htokens,
    Eff.except_bind_eq_ok.mpr ⟨(node, []), hparse, rfl⟩⟩

theorem tokenize_of_lexes {source : String} {lexemes : List Lexeme}
    (hlength : source.length ≤ maxFilterLength) (h : Lexes py source.toList lexemes) :
    ∃ tokens, tokenize py source = .ok tokens ∧ tokens.map Token.lexeme = lexemes := by
  obtain ⟨tokens, htokens, hlexemes⟩ := h 0
  refine ⟨tokens, ?_, hlexemes⟩
  unfold tokenize
  rw [if_neg (Nat.not_lt.mpr hlength), htokens]

/-- **Filters are read back as they were printed**, and reading one ends with a filter or with a
`ScimFilterError`: what `int` and `float` are asked to read they can read. -/
theorem parseFilter_print (hpy : py.Decimal) :
    (∀ node : Node, node.Legal → node.print.length ≤ maxFilterLength →
      node.nestingAt 0 ≤ maxDepth → parseFilter py node.print = .ok node) ∧
    ∀ source, ((∃ node, parseFilter py source = .ok node) ∨ ∃ e : ScimFilterError,
        parseFilter py source = .error e) ∧
      ∀ tokens, tokenize py source = .ok tokens → ∀ token ∈ tokens, token.kind = .number →
        token.text.length ≤ maxFilterLength ∧
          if isDecimal py token.text then IsFloat py token.text.toList
            else IsInt py token.text.toList := by
  constructor
  · intro node hlegal hlength hnesting
    have hlexes : Lexes py node.print.toList (node.lexemesAt 0) := by
      have hprinted := lexes_printAt hpy hlegal 0 lexes_nil delimited_nil
      rwa [List.append_nil, List.append_nil] at hprinted
    obtain ⟨tokens, htokens, hlexemes⟩ := tokenize_of_lexes hlength hlexes
    refine parseFilter_of_joins htokens ?_
    exact (reads_node hpy hlegal).asFilter hlexemes hnesting (length_le_of_tokenize htokens) rfl
  · intro source
    refine ⟨?_, fun tokens htokens token hmem hkind => ?_⟩
    · cases parseFilter py source with
      | ok node => exact .inl ⟨node, rfl⟩
      | error e => exact .inr ⟨e, rfl⟩
    · exact ⟨length_le_of_tokenize htokens token hmem,
        isInt_or_isFloat hpy htokens token hmem hkind⟩

/-! ### On ASCII text -/

theorem digitsFrom_of_digits {value : Nat} {started : Bool} {digits : List Char}
    (hdigits : ∀ c ∈ digits, c.isDigit = true) (h : started = true ∨ digits ≠ []) :
    Text.digitsFrom value started digits = some (Nat.ofDigitChars 10 digits value) := by
  induction digits generalizing value started with
  | nil => simp [Text.digitsFrom, h.resolve_right (not_not_intro rfl)]
  | cons c digits ih =>
    obtain ⟨hc, hothers⟩ := List.forall_mem_cons.mp hdigits
    unfold Text.digitsFrom
    rw [if_pos hc, ih hothers (.inl rfl), Nat.ofDigitChars_cons, Nat.mul_comm]

theorem pyInt_toString (n : Int) : Text.pyInt (toString n) = some n := by
  have hdigits : ∀ c ∈ Nat.toDigits 10 n.natAbs, c.isDigit = true := fun c hc =>
    Nat.isDigit_of_mem_toDigits (by decide) (by decide) hc
  have hvalue : Text.digitsFrom 0 false (Nat.toDigits 10 n.natAbs) = some n.natAbs := by
    rw [digitsFrom_of_digits hdigits (.inr Nat.toDigits_ne_nil), Nat.ofDigitChars_ten_toDigits]
  have hchars : ∀ c ∈ (toString n).toList, Text.isSpace c = false := by
    intro c hc
    rcases toList_toString n with ⟨-, h⟩ | ⟨-, h⟩
    · rw [h] at hc
      exact isSpace_of_isDigit (hdigits c hc)
    · rw [h] at hc
      rcases List.mem_cons.mp hc with rfl | hc
      · decide
      · exact isSpace_of_isDigit (hdigits c hc)
  have hstrip : Text.strip (toString n) = toString n :=
    Text.strip_of_ends (fun c hc => hchars c (List.mem_of_mem_head? hc))
      fun c hc => hchars c (List.mem_of_getLast? hc)
  unfold Text.pyInt
  rw [hstrip]
  rcases toList_toString n with ⟨hn, h⟩ | ⟨hn, h⟩
  · rw [h]
    obtain ⟨c, cs, hcs⟩ := List.exists_cons_of_ne_nil
      (Nat.toDigits_ne_nil : Nat.toDigits 10 n.natAbs ≠ [])
    have hc : c.isDigit = true := hdigits c (by
      rw [hcs]
      exact List.mem_cons_self)
    split
    · rename_i heq
      rw [hcs] at heq
      rw [(List.cons.inj heq).1] at hc
      exact absurd hc (by decide)
    · rename_i heq
      rw [hcs] at heq
      rw [(List.cons.inj heq).1] at hc
      exact absurd hc (by decide)
    · rw [hvalue]
      exact congrArg some (Int.natAbs_of_nonneg hn)
  · rw [h]
    split
    · rename_i heq
      rw [← (List.cons.inj heq).2, hvalue]
      show some (-(n.natAbs : Int)) = some n
      rw [show (-(n.natAbs : Int)) = n by omega]
    · rename_i heq
      exact absurd (List.cons.inj heq).1 (by decide)
    · rename_i hminus _
      exact absurd rfl (hminus _)

theorem toInt_ascii (text : String) : Builtins.ascii.toInt text = (Text.pyInt text).getD 0 := by
  simp only [Builtins.ascii]

theorem decimal_ascii : Builtins.ascii.Decimal where
  isDigit_ascii _ _ := rfl
  toInt_toString n _ := by rw [toInt_ascii, pyInt_toString, Option.getD_some]
  lower_exponent text h := by
    have hlower : (Builtins.ascii.lower text).toList = text.toList.map Char.toLower :=
      String.toList_ofList
    rw [hlower, List.mem_map]
    exact h.elim (fun h => ⟨'e', h, rfl⟩) fun h => ⟨'E', h, rfl⟩

/-- A filter with every connective. -/
def everyConnective : Node :=
  .and
    (.or (.comparison ⟨"age", none, none⟩ .gt (.num (.int (-5))))
      (.present ⟨"name", some "familyName", none⟩))
    (.not (.valuePath ⟨"emails", none, none⟩
      (.comparison ⟨"type", none, none⟩ .eq (.str "work"))))

example : everyConnective.print =
    "(age gt -5 or name.familyName pr) and not (emails[type eq \"work\"])" := by decide +kernel

/-- It is printed and read back. -/
theorem parseFilter_everyConnective :
    parseFilter Builtins.ascii everyConnective.print = .ok everyConnective :=
  (parseFilter_print decimal_ascii).1 everyConnective (by decide) (by decide) (by decide)

end Scim
end CampusID
