import Mathlib.Data.Finset.Basic
import Mathlib.Data.List.DropRight
import Mathlib.Data.List.Sort
import Mathlib.Data.String.Basic

/-!
# Text as the source writes it

The handful of string operations the modelled functions use, where Lean's own
either behave differently or do not compute by reduction.  All of them work on
the list of characters.
-/

namespace CampusID
namespace Text

/-- `s.encode("ascii")` succeeds. -/
def isAscii (s : String) : Bool := s.toList.all fun c => c.toNat < 128

/-- The part before the first occurrence of `sep`, or the whole string:
`s.split(sep, 1)[0]` for a one-character separator. -/
def beforeFirst (sep : Char) (s : String) : String :=
  String.ofList (s.toList.takeWhile (· ≠ sep))

/-- `s.replace(c, text)` for a one-character `c`. -/
def replaceChar (c : Char) (text : String) (s : String) : String :=
  String.ofList (s.toList.flatMap fun x => if x = c then text.toList else [x])

/-- `s.rpartition(sep)[2]` when the separator occurs: the part after its last
occurrence. -/
def afterLast (sep : Char) (s : String) : Option String :=
  if sep ∈ s.toList then
    some (String.ofList (s.toList.reverse.takeWhile (· ≠ sep)).reverse)
  else none

/-- `s.rpartition(sep)` when the separator occurs: what is before and after its last
occurrence. -/
def rpartition (sep : Char) (s : String) : Option (String × String) :=
  match s.toList.reverse.dropWhile (· ≠ sep) with
  | [] => none
  | _ :: front =>
    some (String.ofList front.reverse,
      String.ofList (s.toList.reverse.takeWhile (· ≠ sep)).reverse)

/-- `s.lower()` of ASCII text. -/
def lower (s : String) : String := String.ofList (s.toList.map Char.toLower)

/-- What `str.strip` removes. -/
def isSpace (c : Char) : Bool :=
  (9 ≤ c.toNat && c.toNat ≤ 13) || (28 ≤ c.toNat && c.toNat ≤ 32) || c.toNat = 133 ||
    c.toNat = 160 || c.toNat = 5760 || (8192 ≤ c.toNat && c.toNat ≤ 8202) || c.toNat = 8232 ||
    c.toNat = 8233 || c.toNat = 8239 || c.toNat = 8287 || c.toNat = 12288

/-- `s.strip()`. -/
def strip (s : String) : String :=
  String.ofList ((s.toList.dropWhile isSpace).reverse.dropWhile isSpace).reverse

/-- `s.split(sep)` for a one-character separator, on characters. -/
def splitChars (sep : Char) : List Char → List (List Char)
  | [] => [[]]
  | c :: cs =>
    if c = sep then [] :: splitChars sep cs
    else
      match splitChars sep cs with
      | [] => [[c]]
      | word :: words => (c :: word) :: words

/-- `s.split(sep)`. -/
def split (sep : Char) (s : String) : List String :=
  (splitChars sep s.toList).map String.ofList

/-- `s.removeprefix(text)`. -/
def dropText (text s : String) : String :=
  if text.toList <+: s.toList then String.ofList (s.toList.drop text.length) else s

/-- Decimal digits, with single underscores between them. -/
def digitsFrom : (value : Nat) → (started : Bool) → List Char → Option Nat
  | value, started, [] => if started then some value else none
  | value, started, c :: cs =>
    if c.isDigit then digitsFrom (value * 10 + (c.toNat - '0'.toNat)) true cs
    else if c = '_' ∧ started then
      match cs with
      | [] => none
      | c' :: _ => if c'.isDigit then digitsFrom value true cs else none
    else none

/-- `int(s)` of ASCII text, where it does not raise. -/
def pyInt (s : String) : Option Int :=
  match (strip s).toList with
  | '-' :: cs => (digitsFrom 0 false cs).map fun n => -(n : Int)
  | '+' :: cs => (digitsFrom 0 false cs).map Int.ofNat
  | cs => (digitsFrom 0 false cs).map Int.ofNat

/-- `repr(s)` of a printable string: single quotes, unless the string holds a
single quote and no double quote. -/
def pyRepr (s : String) : String :=
  let quote := if '\'' ∈ s.toList ∧ '"' ∉ s.toList then '"' else '\''
  let body := s.toList.flatMap fun c =>
    if c = quote ∨ c = '\\' then ['\\', c]
    else if c = '\n' then ['\\', 'n']
    else if c = '\r' then ['\\', 'r']
    else if c = '\t' then ['\\', 't']
    else [c]
  String.ofList (quote :: body ++ [quote])

/-! ## The first and the last character -/

theorem strip_of_ends {s : String} (hfirst : ∀ c ∈ s.toList.head?, isSpace c = false)
    (hlast : ∀ c ∈ s.toList.getLast?, isSpace c = false) : strip s = s := by
  have hkeep : ∀ l : List Char, (∀ c ∈ l.head?, isSpace c = false) → l.dropWhile isSpace = l := by
    intro l hl
    cases l with
    | nil => rfl
    | cons c l => rw [List.dropWhile_cons_of_neg (by simp [hl c rfl])]
  rw [strip, hkeep _ hfirst, hkeep _ (by rwa [List.head?_reverse]), List.reverse_reverse,
    String.ofList_toList]

theorem head_strip (s : String) : ∀ c ∈ (strip s).toList.head?, isSpace c = false := by
  intro c hc
  rw [strip, String.toList_ofList] at hc
  obtain ⟨rest, hrest⟩ := List.rdropWhile_prefix isSpace (l := s.toList.dropWhile isSpace)
  have hhead := List.head?_dropWhile_not isSpace s.toList
  -- what is left begins where the text does without the white space before it
  have hsame : (s.toList.dropWhile isSpace).head? = some c := by
    rw [← hrest]
    exact List.mem_head?_append_of_mem_head? hc
  rw [hsame] at hhead
  exact hhead

theorem getLast_strip (s : String) : ∀ c ∈ (strip s).toList.getLast?, isSpace c = false := by
  intro c hc
  rw [strip, String.toList_ofList, List.getLast?_reverse] at hc
  have hhead := List.head?_dropWhile_not isSpace (s.toList.dropWhile isSpace).reverse
  rw [Option.mem_def.mp hc] at hhead
  exact hhead

@[simp] theorem strip_strip (s : String) : strip (strip s) = strip s :=
  strip_of_ends (head_strip s) (getLast_strip s)

theorem mem_dropWhile_of_neg {α : Type} {p : α → Bool} {l : List α} {a : α} (h : a ∈ l)
    (hp : p a = false) : a ∈ l.dropWhile p := by
  rw [← List.takeWhile_append_dropWhile (p := p) (l := l)] at h
  rcases List.mem_append.mp h with hfirst | hlast
  · rw [List.mem_takeWhile_imp hfirst] at hp
    cases hp
  · exact hlast

theorem mem_strip {s : String} {c : Char} (h : c ∈ s.toList) (hc : isSpace c = false) :
    c ∈ (strip s).toList := by
  rw [strip, String.toList_ofList, List.mem_reverse]
  exact mem_dropWhile_of_neg (List.mem_reverse.mpr (mem_dropWhile_of_neg h hc)) hc

/-! ## The last separator -/

/-- **Where a text is cut**: at its last separator. -/
theorem rpartition_eq_some_iff {sep : Char} {s front back : String} :
    rpartition sep s = some (front, back) ↔
      s.toList = front.toList ++ sep :: back.toList ∧ sep ∉ back.toList := by
  unfold rpartition
  constructor
  · intro h
    have hsplit := List.takeWhile_append_dropWhile (p := (· ≠ sep)) (l := s.toList.reverse)
    have hhead := List.head?_dropWhile_not (· ≠ sep) s.toList.reverse
    split at h
    · cases h
    · rename_i c rest hdrop
      obtain ⟨rfl, rfl⟩ := Prod.mk.inj (Option.some.inj h)
      rw [hdrop] at hsplit hhead
      obtain rfl : c = sep := by simpa using hhead
      refine ⟨?_, fun hmem => ?_⟩
      · have hreverse := congrArg List.reverse hsplit
        simpa using hreverse.symm
      · rw [String.toList_ofList, List.mem_reverse] at hmem
        have hne := List.mem_takeWhile_imp hmem
        simp at hne
  · rintro ⟨hs, hback⟩
    have hkeep : ∀ c ∈ back.toList.reverse, decide (c ≠ sep) = true := by
      intro c hc
      refine decide_eq_true fun hsep => hback ?_
      rw [← hsep]
      exact List.mem_reverse.mp hc
    have hreverse : s.toList.reverse = back.toList.reverse ++ (sep :: front.toList.reverse) := by
      simp [hs]
    rw [hreverse, List.dropWhile_append_of_pos hkeep, List.dropWhile_cons_of_neg (by simp),
      List.takeWhile_append_of_pos hkeep, List.takeWhile_cons_of_neg (by simp)]
    simp

theorem rpartition_of_notMem {sep : Char} {s : String} (h : sep ∉ s.toList) :
    rpartition sep s = none := by
  have hall : ∀ c ∈ s.toList.reverse, decide (c ≠ sep) = true := by
    intro c hc
    refine decide_eq_true fun hsep => h ?_
    rw [← hsep]
    exact List.mem_reverse.mp hc
  unfold rpartition
  rw [List.dropWhile_eq_nil_iff.mpr hall]

/-! ## Lower case of ASCII text -/

theorem toNat_toLower (c : Char) :
    c.toLower.toNat = if 65 ≤ c.toNat ∧ c.toNat ≤ 90 then c.toNat + 32 else c.toNat := by
  have hupper : (c.val ≥ 'A'.val ∧ c.val ≤ 'Z'.val) ↔ 65 ≤ c.toNat ∧ c.toNat ≤ 90 := by
    rw [ge_iff_le, UInt32.le_iff_toNat_le, UInt32.le_iff_toNat_le]
    exact Iff.rfl
  unfold Char.toLower
  split
  · next h =>
    rw [if_pos (hupper.mp h)]
    have hbound := (hupper.mp h).2
    show (c.val + ('a'.val - 'A'.val)).toNat = c.val.toNat + 32
    rw [UInt32.toNat_add]
    show (c.toNat + 32) % 2 ^ 32 = c.toNat + 32
    omega
  · next h => rw [if_neg fun hc => h (hupper.mpr hc)]

theorem isSpace_toLower (c : Char) : isSpace c.toLower = isSpace c := by
  unfold isSpace
  rw [toNat_toLower]
  split
  · rw [Bool.eq_iff_iff]
    simp only [Bool.or_eq_true, Bool.and_eq_true, decide_eq_true_eq]
    omega
  · rfl

theorem toLower_toLower (c : Char) : c.toLower.toLower = c.toLower := by
  refine Char.ext (UInt32.toNat_inj.mp ?_)
  show c.toLower.toLower.toNat = c.toLower.toNat
  rw [toNat_toLower c.toLower, toNat_toLower c]
  split_ifs <;> omega

theorem lower_lower (s : String) : lower (lower s) = lower s := by
  rw [lower, lower, String.toList_ofList, List.map_map]
  exact congrArg String.ofList (List.map_congr_left fun c _ => toLower_toLower c)

/-! ## Sets of text -/

/-- `sorted(s)` of a set of strings. -/
def sorted (s : Finset String) : List String :=
  s.val.liftOn (·.insertionSort (· ≤ ·)) fun _ _ h => by
    refine List.Perm.eq_of_sortedLE List.sortedLE_insertionSort List.sortedLE_insertionSort ?_
    exact (List.perm_insertionSort _ _).trans (h.trans (List.perm_insertionSort _ _).symm)

@[simp] theorem sorted_empty : sorted ∅ = [] := rfl

@[simp] theorem mem_sorted {s : Finset String} {a : String} : a ∈ sorted s ↔ a ∈ s := by
  obtain ⟨m, hm⟩ := s
  induction m using Quot.inductionOn with
  | h l => exact (List.perm_insertionSort _ _).mem_iff

end Text
end CampusID
