import CampusID.Directory.Ldap

/-!
# Escaping values

`escape_filter` and `escape_dn` replace one character after the other in the whole text.  As long as
no replacement has a later character in it, that is one substitution, character by character
(`toList_replaceTable`), and the backslash, which every replacement has in it, comes first.
-/

namespace CampusID

open Lib

/-- `FILTER_ESCAPES`. -/
def filterEscapes : List (Char × String) :=
  [('\\', "\\5c"), ('*', "\\2a"), ('(', "\\28"), (')', "\\29"), ('\x00', "\\00")]

/-- Replace the characters of a table, one after the other. -/
def replaceTable (table : List (Char × String)) (value : String) : String :=
  table.foldl (fun text entry => Text.replaceChar entry.1 entry.2 text) value

/-- `escape_filter`. -/
def escapeFilter (value : String) : String := replaceTable filterEscapes value

/-- What a table makes of one character. -/
def escapeChar (table : List (Char × String)) (c : Char) : List Char :=
  match table.lookup c with
  | some text => text.toList
  | none => [c]

/-- **One replacement after the other is a substitution**, if none has a later character in it. -/
theorem toList_replaceTable {table : List (Char × String)}
    (h : table.Pairwise fun entry later => later.1 ∉ entry.2.toList) (value : String) :
    (replaceTable table value).toList = value.toList.flatMap (escapeChar table) := by
  induction table generalizing value with
  | nil =>
    show value.toList = value.toList.flatMap fun c => [c]
    rw [List.flatMap_singleton']
  | cons entry table ih =>
    obtain ⟨hlater, hrest⟩ := List.pairwise_cons.mp h
    -- what has been put in is not replaced again
    have hkept : ∀ chars : List Char, (∀ e ∈ table, e.1 ∉ chars) →
        chars.flatMap (escapeChar table) = chars := by
      intro chars hchars
      conv_rhs => rw [← List.flatMap_singleton' chars]
      refine List.flatMap_congr fun c hc => ?_
      have hnone : table.lookup c = none := by
        rw [List.lookup_eq_none_iff]
        intro e he
        have hne : c ≠ e.1 := by
          rintro rfl
          exact hchars e he hc
        simpa using hne
      rw [escapeChar, hnone]
    show (replaceTable table (Text.replaceChar entry.1 entry.2 value)).toList = _
    rw [ih hrest, Text.replaceChar, String.toList_ofList, List.flatMap_assoc]
    refine List.flatMap_congr fun c _ => ?_
    by_cases hc : c = entry.1
    · rw [if_pos hc, hkept _ hlater, escapeChar, hc, List.lookup_cons_self]
    · rw [if_neg hc, List.flatMap_singleton, escapeChar, escapeChar, List.lookup_cons,
        beq_eq_false_iff_ne.mpr hc]

end CampusID
