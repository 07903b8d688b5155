import Mathlib.Data.List.TakeWhile
import CampusID.Scim.Filters
import CampusID.Lib.Effects

/-!
# Reading tokens back

What the tokenizer makes of text that was put together from tokens: a word, an integer, a string
literal or a bracket at the front of a text is read as that token, provided that what follows does
not continue it (`Delimited`).  Where a token stands matters for the texts of errors only, so
tokens are compared by kind and text.
-/

namespace CampusID
namespace Scim

open Lib

/-- A token without its place. -/
abbrev Lexeme := TokenKind × String

/-- What a token is, wherever it stands. -/
def Token.lexeme (token : Token) : Lexeme := (token.kind, token.text)

/-- What the language does with the signs of decimal numbers: the digits among the ASCII
characters, `int` of an integer that was written with them (a text much longer than a filter is
refused), and the lower case of the sign of an exponent. -/
structure Builtins.Decimal (py : Builtins) : Prop where
  isDigit_ascii : ∀ c : Char, c.toNat < 128 → py.isDigit c = c.isDigit
  toInt_toString : ∀ n : Int, (toString n).length ≤ maxFilterLength → py.toInt (toString n) = n
  lower_exponent : ∀ text : String, 'e' ∈ text.toList ∨ 'E' ∈ text.toList →
    'e' ∈ (py.lower text).toList

/-- What may follow a token without becoming part of it. -/
def Delimited (rest : List Char) : Prop :=
  ∀ c ∈ rest.head?, c = ' ' ∨ c = ')' ∨ c = '[' ∨ c = ']'

theorem delimited_nil : Delimited [] := nofun

theorem delimited_cons {c : Char} {cs : List Char} (h : c = ' ' ∨ c = ')' ∨ c = '[' ∨ c = ']') :
    Delimited (c :: cs) := by
  rintro _ ⟨⟩
  exact h

theorem takeWhile_append_stop {p : Char → Bool} {text rest : List Char}
    (htext : ∀ c ∈ text, p c = true) (hrest : ∀ c ∈ rest.head?, p c = false) :
    (text ++ rest).takeWhile p = text := by
  rw [List.takeWhile_append_of_pos htext]
  cases rest with
  | nil => simp
  | cons c rest => simp [hrest c rfl]

section Lexes

variable (py : Builtins)

/-- Some characters are read as some lexemes, wherever they stand. -/
def Lexes (cs : List Char) (lexemes : List Lexeme) : Prop :=
  ∀ position, ∃ tokens, tokenizeFrom py 0 position cs = .ok tokens ∧
    tokens.map Token.lexeme = lexemes

variable {py} {text rest : List Char} {lexemes : List Lexeme}

@[simp] theorem tokenizeFrom_nil (skip position : Nat) : tokenizeFrom py skip position [] = .ok [] := by
  cases skip <;> rfl

theorem tokenizeFrom_succ (skip position : Nat) (c : Char) (cs : List Char) :
    tokenizeFrom py (skip + 1) position (c :: cs) = tokenizeFrom py skip (position + 1) cs := rfl

theorem tokenizeFrom_cons (position : Nat) (c : Char) (cs : List Char) :
    tokenizeFrom py 0 position (c :: cs) =
      match matchToken py (c :: cs) with
      | none => .error ⟨"unexpected character " ++ Text.pyRepr (String.singleton c) ++ " at " ++
          toString position⟩
      | some (kind, text) => do
        let tokens ← tokenizeFrom py (text.length - 1) (position + 1) cs
        return (kind.map fun kind => ⟨kind, String.ofList text, position⟩).toList ++ tokens := by
  rfl

theorem tokenizeFrom_of_match {kind : Option TokenKind} {c : Char} {cs : List Char}
    (h : matchToken py (c :: cs) = some (kind, text)) (position : Nat) :
    tokenizeFrom py 0 position (c :: cs) = do
      let tokens ← tokenizeFrom py (text.length - 1) (position + 1) cs
      return (kind.map fun kind => ⟨kind, String.ofList text, position⟩).toList ++ tokens := by
  rw [tokenizeFrom_cons, h]

theorem tokenizeFrom_of_none {c : Char} {cs : List Char} (h : matchToken py (c :: cs) = none)
    (position : Nat) : tokenizeFrom py 0 position (c :: cs) =
      .error ⟨"unexpected character " ++ Text.pyRepr (String.singleton c) ++ " at " ++
        toString position⟩ := by
  rw [tokenizeFrom_cons, h]

theorem tokenizeFrom_skip (position : Nat) :
    tokenizeFrom py text.length position (text ++ rest) =
      tokenizeFrom py 0 (position + text.length) rest := by
  induction text generalizing position with
  | nil => rfl
  | cons c text ih =>
    rw [List.length_cons, List.cons_append, tokenizeFrom_succ, ih, Nat.add_right_comm,
      Nat.add_assoc]

theorem lexes_nil : Lexes py [] [] := fun _ => ⟨[], rfl, rfl⟩

theorem Lexes.token {kind : TokenKind} (hrest : Lexes py rest lexemes)
    (h : matchToken py (text ++ rest) = some (some kind, text)) (hne : text ≠ []) :
    Lexes py (text ++ rest) ((kind, String.ofList text) :: lexemes) := by
  intro position
  cases text with
  | nil => exact absurd rfl hne
  | cons c text =>
    obtain ⟨tokens, htokens, hlexemes⟩ := hrest (position + 1 + text.length)
    refine ⟨⟨kind, String.ofList (c :: text), position⟩ :: tokens, ?_, ?_⟩
    · rw [List.cons_append] at h ⊢
      rw [tokenizeFrom_of_match h, List.length_cons, Nat.add_sub_cancel, tokenizeFrom_skip, htokens]
      rfl
    · rw [List.map_cons, hlexemes]
      rfl

theorem tokenizeFrom_space {c : Char} (hc : Text.isSpace c = true) (position : Nat) :
    tokenizeFrom py 0 position (c :: rest) = tokenizeFrom py 0 (position + 1) rest := by
  cases rest with
  | nil =>
    have hmatch : matchToken py [c] = some (none, [c]) := by
      rw [matchToken, if_pos hc, List.takeWhile_cons_of_pos hc, List.takeWhile_nil]
    rw [tokenizeFrom_of_match hmatch]
    rfl
  | cons c' cs =>
    have hmatch : matchToken py (c :: c' :: cs) =
        some (none, c :: (c' :: cs).takeWhile Text.isSpace) := by
      rw [matchToken, if_pos hc, List.takeWhile_cons_of_pos hc]
    rw [tokenizeFrom_of_match hmatch, List.length_cons, Nat.add_sub_cancel]
    by_cases hc' : Text.isSpace c' = true
    · have hmatch' : matchToken py (c' :: cs) =
          some (none, (c' :: cs).takeWhile Text.isSpace) := by
        rw [matchToken, if_pos hc']
      rw [tokenizeFrom_of_match hmatch', List.takeWhile_cons_of_pos hc', List.length_cons,
        tokenizeFrom_succ, Nat.add_sub_cancel]
      rfl
    · rw [List.takeWhile_cons_of_neg hc']
      exact bind_pure _

theorem Lexes.space (h : Lexes py rest lexemes) : Lexes py (' ' :: rest) lexemes := by
  intro position
  obtain ⟨tokens, htokens, hlexemes⟩ := h (position + 1)
  exact ⟨tokens, (tokenizeFrom_space (by decide) position).trans htokens, hlexemes⟩

/-! ## One rule for each token -/

theorem Lexes.lparen (h : Lexes py rest lexemes) :
    Lexes py ('(' :: rest) ((.lparen, "(") :: lexemes) := by
  show Lexes py (['('] ++ rest) _
  exact h.token rfl (by decide)

theorem Lexes.rparen (h : Lexes py rest lexemes) :
    Lexes py (')' :: rest) ((.rparen, ")") :: lexemes) := by
  show Lexes py ([')'] ++ rest) _
  exact h.token rfl (by decide)

theorem Lexes.lbracket (h : Lexes py rest lexemes) :
    Lexes py ('[' :: rest) ((.lbracket, "[") :: lexemes) := by
  show Lexes py (['['] ++ rest) _
  exact h.token rfl (by decide)

theorem Lexes.rbracket (h : Lexes py rest lexemes) :
    Lexes py (']' :: rest) ((.rbracket, "]") :: lexemes) := by
  show Lexes py ([']'] ++ rest) _
  exact h.token rfl (by decide)

/-! ### String literals -/

theorem stringBody_quote : stringBody ('"' :: rest) = some ['"'] := by
  unfold stringBody
  rfl

theorem stringBody_cons {c : Char} (hquote : c ≠ '"') (hbackslash : c ≠ '\\') :
    stringBody (c :: rest) = (stringBody rest).map fun body => c :: body := by
  conv_lhs => unfold stringBody
  rw [if_neg hquote, if_neg hbackslash]

theorem stringBody_escape {c : Char} (h : c ≠ '\n') :
    stringBody ('\\' :: c :: rest) = (stringBody rest).map fun body => '\\' :: c :: body := by
  conv_lhs => unfold stringBody
  simp [h]

theorem stringBody_of_plain (hquote : '"' ∉ text) (hbackslash : '\\' ∉ text) :
    stringBody (text ++ '"' :: rest) = some (text ++ ['"']) := by
  induction text with
  | nil => exact stringBody_quote
  | cons c text ih =>
    rw [List.mem_cons, not_or] at hquote hbackslash
    rw [List.cons_append, stringBody_cons (Ne.symm hquote.1) (Ne.symm hbackslash.1),
      ih hquote.2 hbackslash.2]
    rfl

theorem Lexes.string (h : Lexes py rest lexemes) (hbody : stringBody (text ++ rest) = some text) :
    Lexes py ('"' :: text ++ rest) ((.string, String.ofList ('"' :: text)) :: lexemes) := by
  refine h.token ?_ (List.cons_ne_nil _ _)
  show (stringBody (text ++ rest)).map (fun body => (some TokenKind.string, '"' :: body)) = _
  rw [hbody]
  rfl

/-! ### Words -/

/-- The characters of a word: a letter, and others that may follow. -/
def IsWord : List Char → Prop
  | [] => False
  | c :: cs => c.isAlpha = true ∧ ∀ c' ∈ c :: cs, isWordChar c' = true

instance : ∀ text : List Char, Decidable (IsWord text)
  | [] => isFalse not_false
  | c :: cs => decidable_of_iff (c.isAlpha = true ∧ (c :: cs).all isWordChar = true)
      (and_congr_right fun _ => List.all_eq_true)

theorem toNat_of_isAlpha {c : Char} (h : c.isAlpha = true) :
    (65 ≤ c.toNat ∧ c.toNat ≤ 90) ∨ (97 ≤ c.toNat ∧ c.toNat ≤ 122) := by
  have hcases : c.isUpper = true ∨ c.isLower = true := by rwa [← Bool.or_eq_true]
  rcases hcases with h | h
  · exact .inl (of_decide_eq_true h)
  · obtain ⟨hlow, hhigh⟩ := Bool.and_eq_true_iff.mp h
    exact .inr ⟨of_decide_eq_true hlow, of_decide_eq_true hhigh⟩

theorem toNat_of_isDigit {c : Char} (h : c.isDigit = true) : 48 ≤ c.toNat ∧ c.toNat ≤ 57 := by
  simpa [Char.isDigit, UInt32.le_iff_toNat_le] using h

theorem IsWord.isWordChar (h : IsWord text) : ∀ c ∈ text, isWordChar c = true := by
  cases text with
  | nil => exact nofun
  | cons c cs => exact h.2

theorem toNat_of_isWordChar {c : Char} (h : isWordChar c = true) : c.toNat < 128 := by
  by_contra hlarge
  have hne : ∀ sign : Char, sign.toNat < 128 → c ≠ sign := by
    rintro sign hsign rfl
    exact hlarge hsign
  simp only [Scim.isWordChar, hne '_' (by decide), hne ':' (by decide), hne '.' (by decide),
    hne '$' (by decide), hne '-' (by decide), decide_false, Bool.or_false, Char.isAlphanum,
    Bool.or_eq_true] at h
  rcases h with h | h
  · have hrange := toNat_of_isAlpha h
    omega
  · have hrange := toNat_of_isDigit h
    omega

theorem Delimited.isWordChar (h : Delimited rest) : ∀ c ∈ rest.head?, isWordChar c = false := by
  intro c hc
  rcases h c hc with rfl | rfl | rfl | rfl <;> decide

theorem Delimited.isDigit (hpy : py.Decimal) (h : Delimited rest) :
    ∀ c ∈ rest.head?, py.isDigit c = false := by
  intro c hc
  rcases h c hc with rfl | rfl | rfl | rfl <;>
    rw [hpy.isDigit_ascii _ (by decide)] <;> decide

theorem isSpace_of_isAlpha {c : Char} (h : c.isAlpha = true) : Text.isSpace c = false := by
  have hrange := toNat_of_isAlpha h
  simp only [Text.isSpace, Bool.or_eq_false_iff, Bool.and_eq_false_iff, decide_eq_false_iff_not]
  omega

theorem isSpace_of_isDigit {c : Char} (h : c.isDigit = true) : Text.isSpace c = false := by
  have hrange := toNat_of_isDigit h
  simp only [Text.isSpace, Bool.or_eq_false_iff, Bool.and_eq_false_iff, decide_eq_false_iff_not]
  omega

theorem not_isDigit_of_isAlpha {c : Char} (h : c.isAlpha = true) : c.isDigit = false := by
  have hrange := toNat_of_isAlpha h
  simp only [Char.isDigit, UInt32.le_iff_toNat_le, Bool.and_eq_false_iff, decide_eq_false_iff_not,
    ge_iff_le]
  show ¬ 48 ≤ c.toNat ∨ ¬ c.toNat ≤ 57
  omega

theorem number_minus (cs : List Char) : number py ('-' :: cs) =
    if (unsigned py cs).isEmpty then [] else '-' :: unsigned py cs := rfl

theorem number_of_ne_minus {cs : List Char} (h : cs.head? ≠ some '-') :
    number py cs = unsigned py cs := by
  unfold number
  split
  · exact absurd rfl h
  · rfl

theorem number_of_isAlpha (hpy : py.Decimal) {c : Char} {cs : List Char} (hc : c.isAlpha = true) :
    number py (c :: cs) = [] := by
  have hrange := toNat_of_isAlpha hc
  have hdigit : py.isDigit c = false :=
    (hpy.isDigit_ascii c (by omega)).trans (not_isDigit_of_isAlpha hc)
  have hminus : (c :: cs).head? ≠ some '-' := by
    rintro ⟨⟩
    exact absurd hc (by decide)
  rw [number_of_ne_minus hminus, unsigned, List.takeWhile_cons_of_neg (by simp [hdigit])]
  rfl

theorem matchToken_of_isAlpha (hpy : py.Decimal) {c : Char} {cs : List Char}
    (hc : c.isAlpha = true) :
    matchToken py (c :: cs) = some (some .word, (c :: cs).takeWhile Scim.isWordChar) := by
  have hsign : ∀ sign : Char, sign.isAlpha = false → c ≠ sign := by
    rintro sign hsign rfl
    rw [hc] at hsign
    cases hsign
  rw [matchToken, if_neg (by simp [isSpace_of_isAlpha hc]), if_neg (hsign '(' rfl),
    if_neg (hsign ')' rfl), if_neg (hsign '[' rfl), if_neg (hsign ']' rfl),
    if_neg (hsign '"' rfl), number_of_isAlpha hpy hc, if_neg (by simp), if_pos hc]

theorem Lexes.word (hpy : py.Decimal) (h : Lexes py rest lexemes) (hword : IsWord text)
    (hrest : Delimited rest) :
    Lexes py (text ++ rest) ((.word, String.ofList text) :: lexemes) := by
  cases text with
  | nil => exact hword.elim
  | cons c cs =>
    obtain ⟨hc, hchars⟩ := hword
    refine h.token ?_ (List.cons_ne_nil _ _)
    rw [List.cons_append, matchToken_of_isAlpha hpy hc, ← List.cons_append,
      takeWhile_append_stop hchars hrest.isWordChar]

/-! ### Integers -/

theorem unsigned_append (hpy : py.Decimal) (hdigits : ∀ c ∈ text, py.isDigit c = true)
    (hne : text ≠ []) (hrest : Delimited rest) : unsigned py (text ++ rest) = text := by
  have hfraction : fraction py rest = [] := by
    unfold fraction
    split
    · exact absurd (hrest '.' rfl) (by decide)
    · rfl
  have hexponent : exponent py rest = [] := by
    cases rest with
    | nil => rfl
    | cons c cs =>
      unfold exponent
      refine if_neg fun h => ?_
      rcases hrest c rfl with rfl | rfl | rfl | rfl <;> exact absurd h.1 (by decide)
  unfold unsigned
  rw [takeWhile_append_stop hdigits (hrest.isDigit hpy)]
  dsimp only
  rw [if_neg (by simpa using hne), List.drop_left, hfraction, List.length_nil, Nat.add_zero,
    List.drop_left, hexponent, List.append_nil, List.append_nil]

theorem Lexes.number {c : Char} (h : Lexes py rest lexemes) (hc : c = '-' ∨ c.isDigit = true)
    (hnumber : Scim.number py (c :: text ++ rest) = c :: text) :
    Lexes py (c :: text ++ rest) ((.number, String.ofList (c :: text)) :: lexemes) := by
  have hsign : ∀ sign : Char, sign ≠ '-' → sign.isDigit = false → c ≠ sign := by
    rintro sign hminus hdigit rfl
    rcases hc with rfl | hc
    · exact hminus rfl
    · rw [hdigit] at hc
      cases hc
  have hspace : Text.isSpace c = false := by
    rcases hc with rfl | hc
    · decide
    · exact isSpace_of_isDigit hc
  refine h.token ?_ (List.cons_ne_nil _ _)
  rw [List.cons_append] at hnumber ⊢
  rw [matchToken, if_neg (by simp [hspace]), if_neg (hsign '(' (by decide) rfl),
    if_neg (hsign ')' (by decide) rfl), if_neg (hsign '[' (by decide) rfl),
    if_neg (hsign ']' (by decide) rfl), if_neg (hsign '"' (by decide) rfl), hnumber,
    if_pos (by simp)]

theorem isDigit_of_mem_toDigits (hpy : py.Decimal) {n : Nat} :
    ∀ c ∈ Nat.toDigits 10 n, c.isDigit = true ∧ py.isDigit c = true := by
  intro c hc
  have hdigit : c.isDigit = true := Nat.isDigit_of_mem_toDigits (by decide) (by decide) hc
  have hrange := toNat_of_isDigit hdigit
  exact ⟨hdigit, (hpy.isDigit_ascii c (by omega)).trans hdigit⟩

theorem toList_toString (n : Int) :
    (0 ≤ n ∧ (toString n).toList = Nat.toDigits 10 n.natAbs) ∨
      (n < 0 ∧ (toString n).toList = '-' :: Nat.toDigits 10 n.natAbs) := by
  cases n with
  | ofNat m =>
    refine .inl ⟨Int.natCast_nonneg m, ?_⟩
    show (String.ofList (Nat.toDigits 10 m)).toList = _
    rw [String.toList_ofList]
    rfl
  | negSucc m =>
    refine .inr ⟨Int.negSucc_lt_zero m, ?_⟩
    show ("-" ++ String.ofList (Nat.toDigits 10 (m + 1))).toList = _
    rw [String.toList_append, String.toList_ofList, String.toList_ofList]
    rfl

theorem Lexes.int (hpy : py.Decimal) (h : Lexes py rest lexemes) (n : Int)
    (hrest : Delimited rest) :
    Lexes py ((toString n).toList ++ rest) ((.number, toString n) :: lexemes) := by
  have hdigits : ∀ c ∈ Nat.toDigits 10 n.natAbs, c.isDigit = true ∧ py.isDigit c = true :=
    isDigit_of_mem_toDigits hpy
  have hunsigned : unsigned py (Nat.toDigits 10 n.natAbs ++ rest) = Nat.toDigits 10 n.natAbs :=
    unsigned_append hpy (fun c hc => (hdigits c hc).2) Nat.toDigits_ne_nil hrest
  have htext : toString n = String.ofList (toString n).toList := String.ofList_toList.symm
  rcases toList_toString n with ⟨-, hchars⟩ | ⟨-, hchars⟩
  · obtain ⟨c, cs, hcs⟩ := List.exists_cons_of_ne_nil
      (Nat.toDigits_ne_nil : Nat.toDigits 10 n.natAbs ≠ [])
    have hdigit : c.isDigit = true := (hdigits c (by
      rw [hcs]
      exact List.mem_cons_self)).1
    rw [hcs] at hunsigned hchars
    rw [hchars] at htext
    rw [hchars, htext]
    have hminus : (c :: cs ++ rest).head? ≠ some '-' := by
      rintro ⟨⟩
      exact absurd hdigit (by decide)
    exact h.number (.inr hdigit) ((number_of_ne_minus hminus).trans hunsigned)
  · rw [hchars] at htext
    rw [hchars, htext]
    refine h.number (.inl rfl) ?_
    rw [List.cons_append, number_minus, hunsigned, if_neg (by simp)]

/-! ## What a token can be -/

theorem prefix_append_drop {a b cs : List Char} (ha : a <+: cs) (hb : b <+: cs.drop a.length) :
    a ++ b <+: cs := by
  obtain ⟨after, rfl⟩ := ha
  rw [List.drop_left] at hb
  exact (List.prefix_append_right_inj a).mpr hb

theorem fraction_isPrefix (cs : List Char) : fraction py cs <+: cs := by
  unfold fraction
  split
  · split
    · exact List.nil_prefix
    · exact (List.prefix_cons_inj _).mpr (List.takeWhile_prefix _)
  · exact List.nil_prefix

theorem signedDigits_isPrefix (cs : List Char) : signedDigits py cs <+: cs := by
  unfold signedDigits
  split
  · split
    · split
      · exact List.nil_prefix
      · exact (List.prefix_cons_inj _).mpr (List.takeWhile_prefix _)
    · exact List.takeWhile_prefix _
  · exact List.nil_prefix

theorem exponent_isPrefix (cs : List Char) : exponent py cs <+: cs := by
  unfold exponent
  split
  · split
    · exact (List.prefix_cons_inj _).mpr (signedDigits_isPrefix _)
    · exact List.nil_prefix
  · exact List.nil_prefix

theorem unsigned_isPrefix (cs : List Char) : unsigned py cs <+: cs := by
  unfold unsigned
  dsimp only
  split
  · exact List.nil_prefix
  · have hfraction : fraction py (cs.drop (cs.takeWhile py.isDigit).length) <+:
        cs.drop (cs.takeWhile py.isDigit).length := fraction_isPrefix _
    have hwhole := prefix_append_drop (List.takeWhile_prefix py.isDigit) hfraction
    refine prefix_append_drop hwhole ?_
    rw [List.length_append]
    exact exponent_isPrefix _

theorem number_isPrefix (cs : List Char) : number py cs <+: cs := by
  unfold number
  split
  · split
    · exact List.nil_prefix
    · exact (List.prefix_cons_inj _).mpr (unsigned_isPrefix _)
  · exact unsigned_isPrefix _

theorem stringBody_isPrefix : ∀ {cs body : List Char}, stringBody cs = some body → body <+: cs
  | [], body, h => by
    unfold stringBody at h
    cases h
  | c :: cs, body, h => by
    unfold stringBody at h
    split at h
    · cases h
      exact (List.prefix_cons_inj _).mpr List.nil_prefix
    · split at h
      · cases cs with
        | nil => cases h
        | cons c' cs' =>
          dsimp only at h
          split at h
          · cases h
          · obtain ⟨rest, hrest, rfl⟩ := Option.map_eq_some_iff.mp h
            exact (List.prefix_cons_inj _).mpr ((List.prefix_cons_inj _).mpr
              (stringBody_isPrefix hrest))
      · obtain ⟨rest, hrest, rfl⟩ := Option.map_eq_some_iff.mp h
        exact (List.prefix_cons_inj _).mpr (stringBody_isPrefix hrest)

/-- **A token is the front of what is left, and not empty**: so the loop over the text ends. -/
theorem matchToken_isPrefix {cs : List Char} {kind : Option TokenKind}
    (h : matchToken py cs = some (kind, text)) : text <+: cs ∧ text ≠ [] := by
  cases cs with
  | nil => cases h
  | cons c cs =>
    have hsingle : [c] <+: c :: cs ∧ [c] ≠ [] :=
      ⟨(List.prefix_cons_inj _).mpr List.nil_prefix, List.cons_ne_nil _ _⟩
    have hrun : ∀ {p : Char → Bool}, p c = true →
        (c :: cs).takeWhile p <+: c :: cs ∧ (c :: cs).takeWhile p ≠ [] := by
      intro p hp
      refine ⟨List.takeWhile_prefix p, ?_⟩
      rw [List.takeWhile_cons_of_pos hp]
      exact List.cons_ne_nil _ _
    unfold matchToken at h
    dsimp only at h
    split_ifs at h with hspace _ _ _ _ _ hnumber hword
    · cases h
      exact hrun hspace
    · cases h
      exact hsingle
    · cases h
      exact hsingle
    · cases h
      exact hsingle
    · cases h
      exact hsingle
    · obtain ⟨body, hbody, heq⟩ := Option.map_eq_some_iff.mp h
      cases heq
      exact ⟨(List.prefix_cons_inj _).mpr (stringBody_isPrefix hbody), List.cons_ne_nil _ _⟩
    · cases h
      exact hrun (by simp [Scim.isWordChar, Char.isAlphanum, hword])
    · cases h
      exact hsingle
    · cases h
      exact ⟨number_isPrefix _, by simpa using hnumber⟩

theorem exists_match {skip position : Nat} {cs : List Char} {tokens : List Token}
    (h : tokenizeFrom py skip position cs = .ok tokens) : ∀ token ∈ tokens, ∃ cs', cs' <:+ cs ∧
      matchToken py cs' = some (some token.kind, token.text.toList) := by
  induction cs generalizing skip position tokens with
  | nil =>
    rw [tokenizeFrom_nil] at h
    cases h
    exact nofun
  | cons c cs ih =>
    intro token hmem
    cases skip with
    | succ skip =>
      obtain ⟨cs', hsuffix, hmatch⟩ := ih h token hmem
      exact ⟨cs', hsuffix.trans (List.suffix_cons c cs), hmatch⟩
    | zero =>
      rcases hfirst : matchToken py (c :: cs) with _ | ⟨kind, text⟩
      · rw [tokenizeFrom_of_none hfirst] at h
        cases h
      · rw [tokenizeFrom_of_match hfirst] at h
        obtain ⟨others, hothers, heq⟩ := Eff.except_bind_eq_ok.mp h
        cases heq
        rcases List.mem_append.mp hmem with hnew | hold
        · cases kind with
          | none => cases hnew
          | some kind =>
            obtain rfl := List.mem_singleton.mp hnew
            refine ⟨c :: cs, List.suffix_refl _, ?_⟩
            rw [hfirst, String.toList_ofList]
        · obtain ⟨cs', hsuffix, hmatch⟩ := ih hothers token hold
          exact ⟨cs', hsuffix.trans (List.suffix_cons c cs), hmatch⟩

theorem length_le_of_tokenize {source : String} {tokens : List Token}
    (h : tokenize py source = .ok tokens) :
    ∀ token ∈ tokens, token.text.length ≤ maxFilterLength := by
  unfold tokenize at h
  split at h
  · cases h
  · rename_i hlength
    intro token hmem
    obtain ⟨cs', hsuffix, hmatch⟩ := exists_match h token hmem
    have htext := (matchToken_isPrefix hmatch).1.length_le
    have hcs := hsuffix.length_le
    rw [String.length_toList] at htext hcs
    omega

/-! ### Numbers -/

/-- Some decimal digits. -/
def IsDigits (py : Builtins) (text : List Char) : Prop :=
  text ≠ [] ∧ ∀ c ∈ text, py.isDigit c = true

/-- What `int` reads: digits, after a minus sign or none. -/
def IsInt (py : Builtins) (text : List Char) : Prop :=
  IsDigits py text ∨ ∃ digits, text = '-' :: digits ∧ IsDigits py digits

/-- Decimals, or none. -/
def IsFraction (py : Builtins) (text : List Char) : Prop :=
  text = [] ∨ ∃ digits, text = '.' :: digits ∧ IsDigits py digits

/-- Digits, after a sign or none. -/
def IsSigned (py : Builtins) (text : List Char) : Prop :=
  IsDigits py text ∨ ∃ sign digits, text = sign :: digits ∧ (sign = '-' ∨ sign = '+') ∧
    IsDigits py digits

/-- An exponent, or none. -/
def IsExponent (py : Builtins) (text : List Char) : Prop :=
  text = [] ∨ ∃ e digits, text = e :: digits ∧ (e = 'e' ∨ e = 'E') ∧ IsSigned py digits

/-- What `float` reads: an integer, then decimals, then an exponent. -/
def IsFloat (py : Builtins) (text : List Char) : Prop :=
  ∃ whole decimals exponent, text = whole ++ decimals ++ exponent ∧ IsInt py whole ∧
    IsFraction py decimals ∧ IsExponent py exponent

theorem isDigits_takeWhile {cs : List Char} (h : ¬ (cs.takeWhile py.isDigit).isEmpty = true) :
    IsDigits py (cs.takeWhile py.isDigit) :=
  ⟨by simpa using h, fun _ hc => List.mem_takeWhile_imp hc⟩

theorem isFraction_fraction (cs : List Char) : IsFraction py (fraction py cs) := by
  unfold fraction
  split
  · split
    · exact .inl rfl
    · rename_i hdigits
      exact .inr ⟨_, rfl, isDigits_takeWhile hdigits⟩
  · exact .inl rfl

theorem isSigned_signedDigits {cs : List Char} (h : ¬ (signedDigits py cs).isEmpty = true) :
    IsSigned py (signedDigits py cs) := by
  unfold signedDigits at h ⊢
  cases cs with
  | nil => exact absurd rfl h
  | cons c cs =>
    dsimp only at h ⊢
    split_ifs at h ⊢ with hsign hempty
    · exact absurd rfl h
    · exact .inr ⟨_, _, rfl, hsign, isDigits_takeWhile hempty⟩
    · exact .inl (isDigits_takeWhile h)

theorem isExponent_exponent (cs : List Char) : IsExponent py (exponent py cs) := by
  unfold exponent
  split
  · split
    · rename_i h
      exact .inr ⟨_, _, rfl, h.1, isSigned_signedDigits h.2⟩
    · exact .inl rfl
  · exact .inl rfl

theorem isFloat_number {cs : List Char} (h : ¬ (Scim.number py cs).isEmpty = true) :
    IsFloat py (Scim.number py cs) := by
  have hunsigned : ∀ cs, ¬ (unsigned py cs).isEmpty = true → ∃ whole decimals exponent,
      unsigned py cs = whole ++ decimals ++ exponent ∧ IsDigits py whole ∧
        IsFraction py decimals ∧ IsExponent py exponent := by
    intro cs hcs
    unfold unsigned at hcs ⊢
    dsimp only at hcs ⊢
    split
    · rename_i hempty
      rw [if_pos hempty] at hcs
      exact absurd rfl hcs
    · rename_i hwhole
      exact ⟨_, _, _, rfl, isDigits_takeWhile hwhole, isFraction_fraction _,
        isExponent_exponent _⟩
  by_cases hminus : cs.head? = some '-'
  · obtain ⟨cs, rfl⟩ := List.head?_eq_some_iff.mp hminus
    rw [number_minus] at h ⊢
    split_ifs at h ⊢ with hempty
    · exact absurd rfl h
    · obtain ⟨whole, decimals, exponent, heq, hwhole, hdecimals, hexponent⟩ := hunsigned cs hempty
      rw [heq]
      exact ⟨'-' :: whole, decimals, exponent, rfl, .inr ⟨whole, rfl, hwhole⟩, hdecimals,
        hexponent⟩
  · rw [number_of_ne_minus hminus] at h ⊢
    obtain ⟨whole, decimals, exponent, heq, hwhole, hdecimals, hexponent⟩ := hunsigned cs h
    exact ⟨whole, decimals, exponent, heq, .inl hwhole, hdecimals, hexponent⟩

theorem eq_number_of_match {cs : List Char} (h : matchToken py cs = some (some .number, text)) :
    text = Scim.number py cs ∧ ¬ (Scim.number py cs).isEmpty = true := by
  cases cs with
  | nil => cases h
  | cons c cs =>
    unfold matchToken at h
    dsimp only at h
    split_ifs at h with _ _ _ _ _ _ hnumber
    · cases h
    · cases h
    · cases h
    · cases h
    · cases h
    · obtain ⟨body, -, heq⟩ := Option.map_eq_some_iff.mp h
      cases heq
    · cases h
    · cases h
    · cases h
      exact ⟨rfl, hnumber⟩

theorem IsFloat.isInt (hpy : py.Decimal) {token : String} (h : IsFloat py token.toList)
    (hdecimal : isDecimal py token = false) : IsInt py token.toList := by
  obtain ⟨whole, decimals, exponent, hparts, hwhole, hdecimals, hexponent⟩ := h
  unfold isDecimal at hdecimal
  obtain ⟨hdot, hlower⟩ := Bool.or_eq_false_iff.mp hdecimal
  have hdot := of_decide_eq_false hdot
  have hlower := of_decide_eq_false hlower
  rcases hdecimals with rfl | ⟨digits, rfl, -⟩
  · rcases hexponent with rfl | ⟨e, digits, rfl, he, -⟩
    · rw [hparts, List.append_nil, List.append_nil]
      exact hwhole
    · refine absurd (hpy.lower_exponent token ?_) hlower
      rw [hparts]
      rcases he with rfl | rfl <;> simp
  · refine absurd ?_ hdot
    rw [hparts]
    simp

/-- **A number token is read by `int` or `float`**, whichever it is given to. -/
theorem isInt_or_isFloat (hpy : py.Decimal) {source : String} {tokens : List Token}
    (h : tokenize py source = .ok tokens) : ∀ token ∈ tokens, token.kind = .number →
      if isDecimal py token.text then IsFloat py token.text.toList
        else IsInt py token.text.toList := by
  intro token hmem hkind
  unfold tokenize at h
  split at h
  · cases h
  · obtain ⟨cs', -, hmatch⟩ := exists_match h token hmem
    rw [hkind] at hmatch
    obtain ⟨htext, hne⟩ := eq_number_of_match hmatch
    have hfloat : IsFloat py token.text.toList := by
      rw [htext]
      exact isFloat_number hne
    split
    · exact hfloat
    · rename_i hdecimal
      exact hfloat.isInt hpy (by simpa using hdecimal)

end Lexes

end Scim
end CampusID
