import CampusID.Lib.Delimited
import CampusID.Lib.Hexadecimal
import CampusID.Lib.LdapNames
import CampusID.Lib.Utf8

/-!
# Search filters

The string form of a search filter, as RFC 4515 defines it.  `readFilter` goes by the grammar: conjunctions, disjunctions and negations, and items of
all kinds.  What is before the first `=` of an item is its attribute; what is behind is cut at the
stars, and the pieces between them are octets in which an escape stands for one.  So a value with a
star in it is no equality.

`Reads text filter` says that a reader takes the text for the filter whatever follows it, and
`Denotes text value` says that a text is the inside of a value.  There is one rule for each way in
which the texts of this development are built.
-/

namespace CampusID
namespace Lib
namespace Ldap

open Delimited

/-- How an item compares. -/
inductive Comparison where
  | equality
  | approx
  | greaterOrEqual
  | lessOrEqual
  deriving DecidableEq, Repr

/-- A search filter. -/
inductive SearchFilter where
  | all (filters : List SearchFilter)
  | any (filters : List SearchFilter)
  | not (filter : SearchFilter)
  | simple (attr : String) (comparison : Comparison) (value : List UInt8)
  | present (attr : String)
  | substring (attr : String) (pieces : List (List UInt8))
  | extensible (attr : Option String) (dn : Bool) (rule : Option String) (value : List UInt8)

/-! ## The reader -/

/-- `normal`: what stands for itself in a value. -/
def isNormal (c : Char) : Bool :=
  ! (c.toNat = 0 || c = '(' || c = ')' || c = '*' || c = '\\')

/-- Octets in front of what has been read. -/
def glue (value : List UInt8) : List (List UInt8) × List Char → List (List UInt8) × List Char
  | ([], rest) => ([value], rest)
  | (piece :: pieces, rest) => ((value ++ piece) :: pieces, rest)

/-- The pieces of a value between its stars, and what follows the value. -/
def readPieces : List Char → List (List UInt8) × List Char
  | [] => ([[]], [])
  | c :: rest =>
    if c = '*' then ([] :: (readPieces rest).1, (readPieces rest).2)
    else if isNormal c then glue (String.utf8EncodeChar c) (readPieces rest)
    else if c = '\\' then
      match rest with
      | hi :: lo :: rest' =>
        match hexOctet hi lo with
        | some octet => glue [octet] (readPieces rest')
        | none => ([[]], c :: rest)
      | _ => ([[]], c :: rest)
    else ([[]], c :: rest)

/-- A value without a star. -/
def readSimple (attr : String) (comparison : Comparison) (text : List Char) :
    Option (SearchFilter × List Char) :=
  match readPieces text with
  | ([value], rest) => some (.simple attr comparison value, rest)
  | _ => none

/-- `present`, `substring` or an equality. -/
def readEqual (attr : String) (text : List Char) : SearchFilter × List Char :=
  match readPieces text with
  | ([value], rest) => (.simple attr .equality value, rest)
  | ([[], []], rest) => (.present attr, rest)
  | (pieces, rest) => (.substring attr pieces, rest)

/-- `extensible`, from the first colon on. -/
def readExtensible (attr : Option String) (text : List Char) :
    Option (SearchFilter × List Char) :=
  let dn := ":dn:".toList <+: text
  let text := if dn then text.drop 3 else text
  match text with
  | ':' :: '=' :: text =>
    match attr, readPieces text with
    | some attr, ([value], rest) => some (.extensible (some attr) dn none value, rest)
    | _, _ => none
  | ':' :: text =>
    let rule := text.takeWhile isAttributeChar
    match text.dropWhile isAttributeChar with
    | ':' :: '=' :: text =>
      match isOid rule, readPieces text with
      | true, ([value], rest) =>
        some (.extensible attr dn (some (String.ofList rule)) value, rest)
      | _, _ => none
    | _ => none
  | _ => none

/-- `item`. -/
def readItem (text : List Char) : Option (SearchFilter × List Char) :=
  let attr := text.takeWhile isAttributeChar
  let name := String.ofList attr
  match text.dropWhile isAttributeChar with
  | '=' :: text => if isAttributeDescription attr then some (readEqual name text) else none
  | '~' :: '=' :: text =>
    if isAttributeDescription attr then readSimple name .approx text else none
  | '>' :: '=' :: text =>
    if isAttributeDescription attr then readSimple name .greaterOrEqual text else none
  | '<' :: '=' :: text =>
    if isAttributeDescription attr then readSimple name .lessOrEqual text else none
  | ':' :: text =>
    if attr = [] then readExtensible none (':' :: text)
    else if isAttributeDescription attr then readExtensible (some name) (':' :: text)
    else none
  | _ => none

mutual

/-- `filter`.  Every turn takes a character, so that the length of the text is fuel enough. -/
def readFilter : (fuel : Nat) → List Char → Option (SearchFilter × List Char)
  | 0, _ => none
  | _, [] => none
  | fuel + 1, c :: text =>
    if c = '(' then
      match readComponent fuel text with
      | some (filter, c :: rest) => if c = ')' then some (filter, rest) else none
      | _ => none
    else none

/-- `filtercomp`. -/
def readComponent : (fuel : Nat) → List Char → Option (SearchFilter × List Char)
  | 0, _ => none
  | _, [] => none
  | fuel + 1, c :: text =>
    if c = '&' then (readFilters fuel text).map fun read => (.all read.1, read.2)
    else if c = '|' then (readFilters fuel text).map fun read => (.any read.1, read.2)
    else if c = '!' then (readFilter fuel text).map fun read => (.not read.1, read.2)
    else readItem (c :: text)

/-- `filterlist`. -/
def readFilters : (fuel : Nat) → List Char → Option (List SearchFilter × List Char)
  | 0, _ => none
  | fuel + 1, text =>
    match readFilter fuel text with
    | some (filter, rest) =>
      if rest.head? = some '(' then
        (readFilters fuel rest).map fun read => (filter :: read.1, read.2)
      else some ([filter], rest)
    | none => none

end

/-- **The filter that a text is**, if it is one. -/
def parseFilter (text : String) : Option SearchFilter :=
  match readFilter text.toList.length text.toList with
  | some (filter, []) => some filter
  | _ => none

/-! ## Values -/

section Values

variable {text text' rest : List Char} {value value' : List UInt8} {c hi lo : Char} {octet : UInt8}

/-- The text is the inside of the value, wherever it stands. -/
def Denotes (text : List Char) (value : List UInt8) : Prop :=
  ∀ rest, readPieces (text ++ rest) = glue value (readPieces rest)

theorem glue_glue (value value' : List UInt8) (read : List (List UInt8) × List Char) :
    glue value (glue value' read) = glue (value ++ value') read := by
  obtain ⟨pieces, rest⟩ := read
  cases pieces with
  | nil => rfl
  | cons piece pieces => simp [glue]

theorem readPieces_ne_nil (text : List Char) : (readPieces text).1 ≠ [] := by
  have hglue : ∀ (value : List UInt8) (read : List (List UInt8) × List Char),
      (glue value read).1 ≠ [] := by
    rintro value ⟨pieces, rest⟩
    cases pieces <;> simp [glue]
  fun_cases readPieces text with
  | case1 => simp
  | case2 => simp
  | case3 => exact hglue _ _
  | case4 => exact hglue _ _
  | case5 => simp
  | case6 => simp
  | case7 => simp

theorem Denotes.nil : Denotes [] [] := by
  intro rest
  obtain ⟨piece, pieces, hpieces⟩ := List.exists_cons_of_ne_nil (readPieces_ne_nil rest)
  rcases hread : readPieces rest with ⟨read, rest'⟩
  rw [hread] at hpieces
  obtain rfl : read = piece :: pieces := hpieces
  simp [glue, hread]

theorem Denotes.append (h : Denotes text value) (h' : Denotes text' value') :
    Denotes (text ++ text') (value ++ value') := by
  intro rest
  rw [List.append_assoc, h, h', glue_glue]

theorem Denotes.normal (h : isNormal c = true) : Denotes [c] (String.utf8EncodeChar c) := by
  intro rest
  have hstar : c ≠ '*' := by
    rintro rfl
    cases h
  rw [List.singleton_append, readPieces.eq_def]
  dsimp only
  rw [if_neg hstar, if_pos h]

theorem Denotes.escape (h : hexOctet hi lo = some octet) : Denotes ['\\', hi, lo] [octet] := by
  intro rest
  rw [List.cons_append, List.cons_append, List.singleton_append, readPieces.eq_def]
  dsimp only
  rw [if_neg (by decide), if_neg (by decide), if_pos rfl, h]

/-- A text of which every character is denoted by its own. -/
theorem Denotes.flatMap {code : Char → List Char}
    (h : ∀ c, Denotes (code c) (String.utf8EncodeChar c)) (chars : List Char) :
    Denotes (chars.flatMap code) (chars.flatMap String.utf8EncodeChar) := by
  induction chars with
  | nil => exact .nil
  | cons c chars ih => exact (h c).append ih

theorem readPieces_close (rest : List Char) : readPieces (')' :: rest) = ([[]], ')' :: rest) := by
  rw [readPieces.eq_def]
  dsimp only
  rw [if_neg (by decide), if_neg (by decide), if_neg (by decide)]

/-- **An equality has the value its text denotes**, and nothing is left of it. -/
theorem Denotes.readEqual (h : Denotes text value) (attr : String) (rest : List Char) :
    Ldap.readEqual attr (text ++ ')' :: rest) =
      (.simple attr .equality value, ')' :: rest) := by
  rw [Ldap.readEqual, h, readPieces_close]
  simp [glue]

end Values

/-! ## Filters -/

section Filters

variable {text : List Char} {filter : SearchFilter}

/-- A reader takes the text for the filter, whatever follows. -/
structure Reads (text : List Char) (filter : SearchFilter) : Prop where
  opens : ∃ tail, text = '(' :: tail
  reads : ∀ fuel, text.length ≤ fuel → ∀ rest,
    readFilter fuel (text ++ rest) = some (filter, rest)

/-- **An equality.** -/
theorem Reads.equality {attr value : List Char} {assertion : List UInt8}
    (hattr : isAttributeDescription attr = true) (hvalue : Denotes value assertion) :
    Reads ('(' :: (attr ++ '=' :: (value ++ [')'])))
      (.simple (String.ofList attr) .equality assertion) where
  opens := ⟨_, rfl⟩
  reads := by
    intro fuel hfuel rest
    simp only [List.length_cons, List.length_append] at hfuel
    obtain ⟨fuel, rfl⟩ : ∃ n, fuel = n + 2 := ⟨fuel - 2, by omega⟩
    have hitem : readItem (attr ++ '=' :: (value ++ ')' :: rest)) =
        some (.simple (String.ofList attr) .equality assertion, ')' :: rest) := by
      have hall : ∀ c ∈ attr, isAttributeChar c = true := fun c hc =>
        isAttributeChar_of_isAttributeDescription hattr hc
      have hstop : Stops isAttributeChar ('=' :: (value ++ ')' :: rest)) :=
        stops_cons (by decide) _
      unfold readItem
      simp only [takeWhile_token hall hstop, dropWhile_token hall hstop, hattr, if_true,
        hvalue.readEqual]
    -- an attribute does not begin as a list or a negation does
    have hcomponent : readComponent (fuel + 1) (attr ++ '=' :: (value ++ ')' :: rest)) =
        readItem (attr ++ '=' :: (value ++ ')' :: rest)) := by
      obtain ⟨c, cs, rfl, hc⟩ := head_of_isAttributeDescription hattr
      have hne : ∀ d, isAttributeChar d = false → c ≠ d := by
        rintro d hd rfl
        rw [hd] at hc
        cases hc
      rw [List.cons_append, readComponent, if_neg (hne _ (by decide)), if_neg (hne _ (by decide)),
        if_neg (hne _ (by decide))]
    simp only [List.cons_append, List.append_assoc, List.nil_append]
    rw [readFilter, if_pos rfl, hcomponent, hitem]
    rfl

/-- **A list** of texts that are filters, up to the parenthesis that closes it. -/
theorem readFilters_of_reads {texts : List (List Char)} {filters : List SearchFilter}
    (h : List.Forall₂ Reads texts filters) (hne : texts ≠ []) {fuel : Nat}
    (hfuel : texts.flatten.length + 1 ≤ fuel) (rest : List Char) :
    readFilters fuel (texts.flatten ++ ')' :: rest) = some (filters, ')' :: rest) := by
  induction h generalizing fuel with
  | nil => exact absurd rfl hne
  | @cons text filter texts filters hfirst hothers ih =>
    obtain ⟨fuel, rfl⟩ : ∃ n, fuel = n + 1 := ⟨fuel - 1, by omega⟩
    rw [List.flatten_cons, List.length_append] at hfuel
    obtain ⟨tail, htail⟩ := hfirst.opens
    have hlength : 1 ≤ text.length := by rw [htail]; exact Nat.le_add_left 1 _
    rw [readFilters, List.flatten_cons, List.append_assoc, hfirst.reads fuel (by omega)]
    cases hothers with
    | nil => rfl
    | @cons next filter' texts filters hnext hothers =>
      have hlater : readFilters fuel _ = _ := ih (by simp) (by omega)
      have hopen : ((next :: texts).flatten ++ ')' :: rest).head? = some '(' := by
        obtain ⟨tail, rfl⟩ := hnext.opens
        rfl
      dsimp only
      rw [if_pos hopen, hlater]
      rfl

/-- **A conjunction.** -/
theorem Reads.all {texts : List (List Char)} {filters : List SearchFilter}
    (h : List.Forall₂ Reads texts filters) (hne : texts ≠ []) :
    Reads ('(' :: '&' :: (texts.flatten ++ [')'])) (.all filters) where
  opens := ⟨_, rfl⟩
  reads := by
    intro fuel hfuel rest
    simp only [List.length_cons, List.length_append] at hfuel
    obtain ⟨fuel, rfl⟩ : ∃ n, fuel = n + 2 := ⟨fuel - 2, by omega⟩
    simp only [List.cons_append, List.append_assoc, List.nil_append]
    rw [readFilter, if_pos rfl, readComponent, if_pos rfl, readFilters_of_reads h hne (by omega)]
    rfl

/-- **A disjunction.** -/
theorem Reads.any {texts : List (List Char)} {filters : List SearchFilter}
    (h : List.Forall₂ Reads texts filters) (hne : texts ≠ []) :
    Reads ('(' :: '|' :: (texts.flatten ++ [')'])) (.any filters) where
  opens := ⟨_, rfl⟩
  reads := by
    intro fuel hfuel rest
    simp only [List.length_cons, List.length_append] at hfuel
    obtain ⟨fuel, rfl⟩ : ∃ n, fuel = n + 2 := ⟨fuel - 2, by omega⟩
    simp only [List.cons_append, List.append_assoc, List.nil_append]
    rw [readFilter, if_pos rfl, readComponent, if_neg (by decide), if_pos rfl,
      readFilters_of_reads h hne (by omega)]
    rfl

/-- **A whole text.** -/
theorem Reads.parseFilter {text : String} (h : Reads text.toList filter) :
    Ldap.parseFilter text = some filter := by
  have hread := h.reads _ le_rfl []
  rw [List.append_nil] at hread
  rw [Ldap.parseFilter, hread]

end Filters

end Ldap
end Lib
end CampusID
