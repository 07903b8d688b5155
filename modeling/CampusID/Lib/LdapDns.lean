import CampusID.Lib.Delimited
import CampusID.Lib.Hexadecimal
import CampusID.Lib.LdapNames
import CampusID.Lib.Utf8

/-!
# Distinguished names

The string form of a relative distinguished name, as RFC 4514 defines it.  A value is a run of
symbols, plain characters and pairs behind a backslash; it goes on as far as symbols go, and begins
and ends with a plain space in no case.  A value that begins with a number sign is an encoding in
hexadecimal.

A text of symbols is given by its characters and by which of them stand behind a backslash: its
`render`.  `readValue_render` says when such a text is the value of those characters.
-/

namespace CampusID
namespace Lib
namespace Ldap

open Delimited

/-! ## The reader -/

/-- A symbol of a value. -/
inductive Symbol where
  | plain (c : Char)
  | pair (value : List UInt8)
  deriving DecidableEq, Repr

/-- What a symbol stands for. -/
def Symbol.octets : Symbol → List UInt8
  | .plain c => String.utf8EncodeChar c
  | .pair value => value

/-- A value: text, or the encoding of something else. -/
inductive DnValue where
  | string (value : List UInt8)
  | encoded (value : List UInt8)
  deriving DecidableEq, Repr

/-- `stringchar`. -/
def isStringChar (c : Char) : Bool :=
  ! (c.toNat = 0 || c = '"' || c = '+' || c = ',' || c = ';' || c = '<' || c = '>' || c = '\\')

/-- `ESC` or `special`: what stands for itself behind a backslash. -/
def isPairChar (c : Char) : Bool :=
  c = '\\' || c = '"' || c = '+' || c = ',' || c = ';' || c = '<' || c = '>' || c = ' ' ||
    c = '#' || c = '='

/-- The symbols a text begins with, and what follows them. -/
def readSymbols : List Char → List Symbol × List Char
  | [] => ([], [])
  | c :: rest =>
    if isStringChar c then (.plain c :: (readSymbols rest).1, (readSymbols rest).2)
    else if c = '\\' then
      match rest with
      | [] => ([], [c])
      | d :: rest' =>
        if isPairChar d then
          (.pair (String.utf8EncodeChar d) :: (readSymbols rest').1, (readSymbols rest').2)
        else
          match rest' with
          | [] => ([], [c, d])
          | e :: rest'' =>
            match hexOctet d e with
            | some octet => (.pair [octet] :: (readSymbols rest'').1, (readSymbols rest'').2)
            | none => ([], c :: d :: e :: rest'')
    else ([], c :: rest)

/-- The pairs of hexadecimal digits a text begins with, and what follows them. -/
def readHexPairs : List Char → List UInt8 × List Char
  | hi :: lo :: rest =>
    match hexOctet hi lo with
    | some octet => (octet :: (readHexPairs rest).1, (readHexPairs rest).2)
    | none => ([], hi :: lo :: rest)
  | rest => ([], rest)

/-- `attributeValue`, and what follows it. -/
def readValue (text : List Char) : Option (DnValue × List Char) :=
  if text.head? = some '#' then
    match readHexPairs text.tail with
    | ([], _) => none
    | (value, rest) => some (.encoded value, rest)
  else
    let symbols := (readSymbols text).1
    if symbols.head? = some (.plain ' ') ∨ symbols.getLast? = some (.plain ' ') then none
    else some (.string (symbols.flatMap Symbol.octets), (readSymbols text).2)

/-- `attributeTypeAndValue`, and what follows it. -/
def readTypeAndValue (text : List Char) : Option ((String × DnValue) × List Char) :=
  let type := text.takeWhile isAttributeChar
  match text.dropWhile isAttributeChar with
  | [] => none
  | c :: value =>
    if c = '=' ∧ isOid type = true then
      (readValue value).map fun read => ((String.ofList type, read.1), read.2)
    else none

/-- `relativeDistinguishedName`, and what follows it. -/
def readRdn : (fuel : Nat) → List Char → Option (List (String × DnValue) × List Char)
  | 0, _ => none
  | fuel + 1, text =>
    match readTypeAndValue text with
    | none => none
    | some (read, rest) =>
      if rest.head? = some '+' then
        (readRdn fuel rest.tail).map fun others => (read :: others.1, others.2)
      else some ([read], rest)

/-- **The first name of a distinguished name**, and what follows it. -/
def firstRdn (text : String) : Option (List (String × DnValue) × List Char) :=
  readRdn text.toList.length text.toList

/-! ## Texts of symbols -/

section Symbols

variable {text rest : List Char} {c : Char} {marks : List (Char × Bool)}

/-- Characters, those that are marked behind a backslash. -/
def render (marks : List (Char × Bool)) : List Char :=
  marks.flatMap fun mark => if mark.2 then ['\\', mark.1] else [mark.1]

/-- A character can stand as it is marked. -/
def Renders (mark : Char × Bool) : Prop :=
  if mark.2 then isPairChar mark.1 = true else isStringChar mark.1 = true

/-- The symbol of a character. -/
def symbolOf (mark : Char × Bool) : Symbol :=
  if mark.2 then .pair (String.utf8EncodeChar mark.1) else .plain mark.1

/-- What is left when every backslash is taken for the mark of what follows it. -/
def unrender : List Char → List Char
  | [] => []
  | c :: rest =>
    if c = '\\' then
      match rest with
      | [] => [c]
      | d :: rest' => d :: unrender rest'
    else c :: unrender rest

theorem render_cons (mark : Char × Bool) (marks : List (Char × Bool)) :
    render (mark :: marks) = (if mark.2 then ['\\', mark.1] else [mark.1]) ++ render marks := rfl

theorem render_append (marks marks' : List (Char × Bool)) :
    render (marks ++ marks') = render marks ++ render marks' := List.flatMap_append

theorem octets_symbolOf (mark : Char × Bool) :
    (symbolOf mark).octets = String.utf8EncodeChar mark.1 := by
  unfold symbolOf
  split_ifs <;> rfl

theorem readSymbols_render (h : ∀ mark ∈ marks, Renders mark) (rest : List Char) :
    readSymbols (render marks ++ rest) =
      (marks.map symbolOf ++ (readSymbols rest).1, (readSymbols rest).2) := by
  induction marks with
  | nil => rfl
  | cons mark marks ih =>
    obtain ⟨hmark, hothers⟩ := List.forall_mem_cons.mp h
    obtain ⟨c, marked⟩ := mark
    cases marked with
    | true =>
      have hpair : isPairChar c = true := hmark
      show readSymbols ('\\' :: c :: (render marks ++ rest)) = _
      rw [readSymbols.eq_def]
      dsimp only
      rw [if_neg (by decide), if_pos rfl, if_pos hpair, ih hothers]
      rfl
    | false =>
      have hplain : isStringChar c = true := hmark
      show readSymbols (c :: (render marks ++ rest)) = _
      rw [readSymbols.eq_def]
      dsimp only
      rw [if_pos hplain, ih hothers]
      rfl

/-- **A text of symbols is the value of its characters**, unless it begins or ends with a plain
space or begins with a plain number sign. -/
theorem readValue_render (h : ∀ mark ∈ marks, Renders mark)
    (hfirst : ∀ mark ∈ marks.head?, mark ≠ (' ', false) ∧ mark ≠ ('#', false))
    (hstops : readSymbols rest = ([], rest)) (hhead : rest.head? ≠ some '#') :
    readValue (render marks ++ rest) =
      if marks.getLast? = some (' ', false) then none
      else some (.string ((marks.map Prod.fst).flatMap String.utf8EncodeChar), rest) := by
  have hsymbols : readSymbols (render marks ++ rest) = (marks.map symbolOf, rest) := by
    rw [readSymbols_render h, hstops, List.append_nil]
  have hnumber : (render marks ++ rest).head? ≠ some '#' := by
    cases marks with
    | nil => exact hhead
    | cons mark marks =>
      obtain ⟨c, marked⟩ := mark
      cases marked with
      | true => simp [render_cons]
      | false =>
        have hne := (hfirst (c, false) rfl).2
        simpa [render_cons] using fun hc : c = '#' => hne (by rw [hc])
  have hspace : ∀ mark : Char × Bool, symbolOf mark = .plain ' ' ↔ mark = (' ', false) := by
    rintro ⟨c, _ | _⟩ <;> simp [symbolOf]
  have hlead : (marks.map symbolOf).head? ≠ some (.plain ' ') := by
    cases marks with
    | nil => simp
    | cons mark marks =>
      rw [List.map_cons, List.head?_cons]
      exact fun hspaced => (hfirst mark rfl).1 ((hspace mark).mp (Option.some.inj hspaced))
  have hlast : (marks.map symbolOf).getLast? = some (.plain ' ') ↔
      marks.getLast? = some (' ', false) := by
    rw [List.getLast?_map, Option.map_eq_some_iff]
    constructor
    · rintro ⟨mark, hmark, hsymbol⟩
      rw [hmark, (hspace mark).mp hsymbol]
    · exact fun hmark => ⟨_, hmark, rfl⟩
  have hvalue : (marks.map symbolOf).flatMap Symbol.octets =
      (marks.map Prod.fst).flatMap String.utf8EncodeChar := by
    rw [List.flatMap_map, List.flatMap_map]
    exact List.flatMap_congr fun mark _ => octets_symbolOf mark
  unfold readValue
  rw [if_neg hnumber, hsymbols]
  dsimp only
  rw [hvalue]
  exact if_congr ((or_iff_right hlead).trans hlast) rfl rfl

theorem readSymbols_comma (rest : List Char) : readSymbols (',' :: rest) = ([], ',' :: rest) := by
  rw [readSymbols.eq_def]
  dsimp only
  rw [if_neg (by decide), if_neg (by decide)]

theorem rest_of_readValue {value : List UInt8}
    (h : readValue text = some (.string value, rest)) : rest = (readSymbols text).2 := by
  unfold readValue at h
  dsimp only at h
  split_ifs at h
  · split at h
    · cases h
    · simp at h
  · exact (Prod.mk.inj (Option.some.inj h)).2.symm

theorem nul_mem_readSymbols (h : '\x00' ∈ text) : '\x00' ∈ (readSymbols text).2 := by
  fun_induction readSymbols text with
  | case1 => cases h
  | case2 c rest hplain ih =>
    rcases List.mem_cons.mp h with rfl | hrest
    · cases hplain
    · exact ih hrest
  | case3 => exact h
  | case4 d rest' hpair _ ih =>
    simp only [List.mem_cons] at h
    rcases h with hbackslash | rfl | hrest
    · cases hbackslash
    · exact absurd hpair (by decide)
    · exact ih hrest
  | case5 => exact h
  | case6 d _ e rest'' octet hoctet _ ih =>
    obtain ⟨hd, he⟩ := hexValue_of_hexOctet hoctet
    simp only [List.mem_cons] at h
    rcases h with hbackslash | rfl | rfl | hrest
    · cases hbackslash
    · exact absurd rfl hd
    · exact absurd rfl he
    · exact ih hrest
  | case7 => exact h
  | case8 => exact h

/-- Marks say where the backslashes are, as long as no backslash is without one. -/
theorem unrender_render (h : ∀ mark ∈ marks, mark.2 = false → mark.1 ≠ '\\') :
    unrender (render marks) = marks.map Prod.fst := by
  induction marks with
  | nil => rfl
  | cons mark marks ih =>
    obtain ⟨hmark, hothers⟩ := List.forall_mem_cons.mp h
    obtain ⟨c, marked⟩ := mark
    cases marked with
    | true =>
      show unrender ('\\' :: c :: render marks) = _
      rw [unrender.eq_def]
      dsimp only
      rw [if_pos rfl, ih hothers]
      rfl
    | false =>
      show unrender (c :: render marks) = _
      rw [unrender.eq_def]
      dsimp only
      rw [if_neg (hmark rfl), ih hothers]
      rfl

end Symbols

end Ldap
end Lib
end CampusID
