import CampusID.Directory.Escaping
import CampusID.Lib.LdapDns

/-!
# The names of people

`dn_for` puts an escaped uid in front of the people container.  `escape_dn` goes through its table
and then looks at the ends of what it has: a number sign or a space at the start gets a backslash,
and so does a space at the end, unless there is a backslash before it already.  That backslash may
be half of an escaped one.

`dnMarks` says which characters have a backslash in the end.  From it come both: no two uids have
one name (`dnFor_inj`), and which uids are read back (`keepsUid_iff`).
-/

namespace CampusID

open Lib Ldap

/-! ## Which characters are escaped -/

/-- The character is in the table. -/
def inDnTable (c : Char) : Bool := (dnEscapes.lookup c).isSome

/-- The first character of a value: a number sign and a space are escaped as well. -/
def leadsEscaped (c : Char) : Bool := inDnTable c || c = '#' || c = ' '

/-- A value before its last character is looked at. -/
def leadMarks : List Char → List (Char × Bool)
  | [] => []
  | c :: chars => (c, leadsEscaped c) :: chars.map fun d => (d, inDnTable d)

/-- The last character: a space is escaped unless there is a backslash before it. -/
def endsEscaped (before : List Char) (c : Char) : Bool :=
  inDnTable c || (c = ' ' && before.getLast? ≠ some '\\')

/-- What `escape_dn` escapes. -/
def dnMarks (chars : List Char) : List (Char × Bool) :=
  match chars.getLast? with
  | none => []
  | some c =>
    if chars.length = 1 then leadMarks chars
    else leadMarks chars.dropLast ++ [(c, endsEscaped chars.dropLast c)]

/-- The rules for the start of a value. -/
def escapeStart (escaped : String) : String :=
  let escaped := if "#".toList <+: escaped.toList then "\\" ++ escaped else escaped
  if " ".toList <+: escaped.toList then "\\" ++ escaped else escaped

/-- The rule for the end of a value. -/
def escapeEnd (escaped : String) : String :=
  if " ".toList <:+ escaped.toList ∧ ¬ "\\ ".toList <:+ escaped.toList then
    String.ofList (escaped.toList.dropLast) ++ "\\ "
  else escaped

section Marks

variable {c : Char} {chars : List Char} {value : String}

theorem inDnTable_iff : inDnTable c = true ↔ c = '\\' ∨ c = ',' ∨ c = '+' ∨ c = '"' ∨ c = '<' ∨
    c = '>' ∨ c = ';' ∨ c = '=' := by
  unfold inDnTable
  rw [← not_iff_not, Bool.not_eq_true, Option.isSome_eq_false_iff, Option.isNone_iff_eq_none,
    List.lookup_eq_none_iff]
  simp [dnEscapes]

theorem escapeChar_dnEscapes (c : Char) :
    escapeChar dnEscapes c = if inDnTable c then ['\\', c] else [c] := by
  unfold escapeChar inDnTable
  cases hlookup : dnEscapes.lookup c with
  | none => rfl
  | some text =>
    have hentry : (c, text) ∈ dnEscapes := mem_of_lookup hlookup
    simp only [dnEscapes, List.mem_cons, Prod.mk.injEq, List.not_mem_nil, or_false] at hentry
    rcases hentry with ⟨rfl, rfl⟩ | ⟨rfl, rfl⟩ | ⟨rfl, rfl⟩ | ⟨rfl, rfl⟩ | ⟨rfl, rfl⟩ |
      ⟨rfl, rfl⟩ | ⟨rfl, rfl⟩ | ⟨rfl, rfl⟩ <;> rfl

theorem eq_of_inDnTable {d : Char} (hbackslash : '\\' ≠ d) (hd : inDnTable d = false) :
    (if inDnTable c then '\\' else c) = d ↔ c = d := by
  split_ifs with hc
  · refine ⟨fun h => absurd h hbackslash, ?_⟩
    rintro rfl
    rw [hc] at hd
    cases hd
  · exact Iff.rfl

theorem toList_table (value : String) : (replaceTable dnEscapes value).toList =
    render (value.toList.map fun c => (c, inDnTable c)) := by
  rw [toList_replaceTable (by decide), render, List.flatMap_map]
  exact List.flatMap_congr fun c _ => escapeChar_dnEscapes c

theorem toList_escapeStart (value : String) :
    (escapeStart (replaceTable dnEscapes value)).toList = render (leadMarks value.toList) := by
  unfold escapeStart
  dsimp only
  cases hvalue : value.toList with
  | nil =>
    obtain rfl : value = "" := String.toList_eq_nil_iff.mp hvalue
    decide
  | cons c chars =>
    have htable : (replaceTable dnEscapes value).toList =
        (if inDnTable c then ['\\', c] else [c]) ++
          render (chars.map fun d => (d, inDnTable d)) := by
      rw [toList_table, hvalue]
      rfl
    have hrender : render (leadMarks (c :: chars)) =
        (if leadsEscaped c then ['\\', c] else [c]) ++
          render (chars.map fun d => (d, inDnTable d)) := rfl
    have hlead : ∀ d : Char, [d] <+: (replaceTable dnEscapes value).toList ↔
        (if inDnTable c then '\\' else c) = d := by
      intro d
      rw [htable]
      split_ifs <;> simp [eq_comm]
    have hnumber : "#".toList <+: (replaceTable dnEscapes value).toList ↔ c = '#' :=
      (hlead '#').trans (eq_of_inDnTable (by decide) (by decide))
    have hspace : " ".toList <+: (replaceTable dnEscapes value).toList ↔ c = ' ' :=
      (hlead ' ').trans (eq_of_inDnTable (by decide) (by decide))
    rw [hrender]
    by_cases hc : c = '#'
    · rw [if_pos (hnumber.mpr hc), String.toList_append, if_neg (by simp), String.toList_append,
        htable, hc]
      rfl
    · rw [if_neg (mt hnumber.mp hc)]
      by_cases hc' : c = ' '
      · rw [if_pos (hspace.mpr hc'), String.toList_append, htable, hc']
        rfl
      · rw [if_neg (mt hspace.mp hc'), htable]
        simp [leadsEscaped, hc, hc']

theorem getLast?_render (marks : List (Char × Bool)) :
    (render marks).getLast? = marks.getLast?.map Prod.fst := by
  induction marks using List.reverseRecOn with
  | nil => rfl
  | append_singleton marks mark ih =>
    obtain ⟨c, marked⟩ := mark
    rw [render_append, List.getLast?_append, List.getLast?_append]
    cases marked <;> rfl

@[simp] theorem map_fst_leadMarks (chars : List Char) : (leadMarks chars).map Prod.fst = chars := by
  cases chars with
  | nil => rfl
  | cons c chars => simp [leadMarks, Function.comp_def]

theorem leadMarks_concat (hne : chars ≠ []) (c : Char) :
    leadMarks (chars ++ [c]) = leadMarks chars ++ [(c, inDnTable c)] := by
  cases chars with
  | nil => exact absurd rfl hne
  | cons d chars => simp [leadMarks]

theorem suffix_singleton_iff {α : Type} {a : α} {l : List α} : [a] <:+ l ↔ l.getLast? = some a := by
  rw [List.getLast?_eq_some_iff]
  constructor
  · rintro ⟨t, rfl⟩
    exact ⟨t, rfl⟩
  · rintro ⟨t, rfl⟩
    exact ⟨t, rfl⟩

theorem escapeEnd_of_ne {text : String} (h : text.toList.getLast? ≠ some ' ') :
    escapeEnd text = text :=
  if_neg fun hends => h (suffix_singleton_iff.mp hends.1)

theorem toList_escapeEnd {text : String} {front : List Char} (h : text.toList = front ++ [' ']) :
    (escapeEnd text).toList =
      front ++ if front.getLast? = some '\\' then [' '] else ['\\', ' '] := by
  have hspace : " ".toList <:+ text.toList := ⟨front, h.symm⟩
  have hbackslash : "\\ ".toList <:+ text.toList ↔ front.getLast? = some '\\' := by
    rw [h, List.getLast?_eq_some_iff]
    constructor
    · rintro ⟨t, ht⟩
      refine ⟨t, (List.append_left_inj [' ']).mp ?_⟩
      rw [← ht, List.append_assoc]
      rfl
    · rintro ⟨t, rfl⟩
      exact ⟨t, by simp⟩
  unfold escapeEnd
  by_cases hend : front.getLast? = some '\\'
  · rw [if_neg fun hboth => hboth.2 (hbackslash.mpr hend), if_pos hend, h]
  · rw [if_pos ⟨hspace, mt hbackslash.mp hend⟩, if_neg hend, String.toList_append,
      String.toList_ofList, h, List.dropLast_concat]
    rfl

/-- **What `escape_dn` returns**: the value with its marks. -/
theorem toList_escapeDn (value : String) :
    (escapeDn value).toList = render (dnMarks value.toList) := by
  have hstart := toList_escapeStart value
  show (escapeEnd (escapeStart (replaceTable dnEscapes value))).toList = _
  generalize escapeStart (replaceTable dnEscapes value) = text at hstart ⊢
  rcases List.eq_nil_or_concat' value.toList with hnil | ⟨before, c, hvalue⟩
  · rw [hnil] at hstart ⊢
    rw [escapeEnd_of_ne (by rw [hstart]; decide), hstart]
    rfl
  · rw [hvalue] at hstart ⊢
    by_cases hbefore : before = []
    · -- the only character: a space has its backslash already
      subst hbefore
      have hmarks : dnMarks [c] = leadMarks [c] := rfl
      rw [List.nil_append] at hstart ⊢
      rw [hmarks, ← hstart]
      by_cases hc : c = ' '
      · subst hc
        have hfront : text.toList = ['\\'] ++ [' '] := hstart
        rw [toList_escapeEnd hfront, hfront]
        rfl
      · rw [escapeEnd_of_ne]
        rw [hstart, getLast?_render]
        simpa [leadMarks] using hc
    · have hlength : (before ++ [c]).length ≠ 1 := by
        simpa using hbefore
      have hmarks : dnMarks (before ++ [c]) = leadMarks before ++ [(c, endsEscaped before c)] := by
        unfold dnMarks
        rw [List.getLast?_concat]
        dsimp only
        rw [if_neg hlength, List.dropLast_concat]
      rw [leadMarks_concat hbefore, render_append] at hstart
      rw [hmarks, render_append]
      by_cases hc : c = ' '
      · subst hc
        have hlast : (render (leadMarks before)).getLast? = before.getLast? := by
          rw [getLast?_render, ← List.getLast?_map, map_fst_leadMarks]
        rw [toList_escapeEnd hstart, hlast]
        by_cases hend : before.getLast? = some '\\'
        · rw [if_pos hend]
          simp [endsEscaped, hend, render]
          decide
        · rw [if_neg hend]
          simp [endsEscaped, hend, render]
      · rw [escapeEnd_of_ne]
        · rw [hstart]
          simp [endsEscaped, hc]
        · rw [hstart, ← render_append, getLast?_render, List.getLast?_concat]
          simpa using hc

@[simp] theorem map_fst_dnMarks (chars : List Char) : (dnMarks chars).map Prod.fst = chars := by
  unfold dnMarks
  rcases List.eq_nil_or_concat' chars with rfl | ⟨before, c, rfl⟩
  · rfl
  · rw [List.getLast?_concat]
    dsimp only
    split_ifs
    · exact map_fst_leadMarks _
    · rw [List.map_append, List.dropLast_concat, map_fst_leadMarks]
      rfl

theorem inDnTable_of_dnMarks {mark : Char × Bool} (h : mark ∈ dnMarks chars)
    (hplain : mark.2 = false) : inDnTable mark.1 = false := by
  have hlead : ∀ {chars}, mark ∈ leadMarks chars → inDnTable mark.1 = false := by
    intro chars hmark
    cases chars with
    | nil => cases hmark
    | cons d chars =>
      rcases List.mem_cons.mp hmark with rfl | hmark
      · simp only [leadsEscaped, Bool.or_eq_false_iff] at hplain
        exact hplain.1.1
      · obtain ⟨e, -, rfl⟩ := List.mem_map.mp hmark
        exact hplain
  unfold dnMarks at h
  split at h
  · cases h
  · split_ifs at h
    · exact hlead h
    · rcases List.mem_append.mp h with hmark | hmark
      · exact hlead hmark
      · obtain rfl := List.mem_singleton.mp hmark
        simp only [endsEscaped, Bool.or_eq_false_iff] at hplain
        exact hplain.1

theorem isPairChar_of_dnMarks {mark : Char × Bool} (h : mark ∈ dnMarks chars)
    (hmarked : mark.2 = true) : isPairChar mark.1 = true := by
  have htable : ∀ {c}, inDnTable c = true → isPairChar c = true := by
    intro c hc
    rcases inDnTable_iff.mp hc with rfl | rfl | rfl | rfl | rfl | rfl | rfl | rfl <;> decide
  have hlead : ∀ {chars}, mark ∈ leadMarks chars → isPairChar mark.1 = true := by
    intro chars hmark
    cases chars with
    | nil => cases hmark
    | cons d chars =>
      rcases List.mem_cons.mp hmark with rfl | hmark
      · simp only [leadsEscaped, Bool.or_eq_true, decide_eq_true_eq] at hmarked
        rcases hmarked with (hd | rfl) | rfl
        · exact htable hd
        · rfl
        · rfl
      · obtain ⟨e, -, rfl⟩ := List.mem_map.mp hmark
        exact htable hmarked
  unfold dnMarks at h
  split at h
  · cases h
  · split_ifs at h
    · exact hlead h
    · rcases List.mem_append.mp h with hmark | hmark
      · exact hlead hmark
      · obtain rfl := List.mem_singleton.mp hmark
        simp only [endsEscaped, Bool.or_eq_true, Bool.and_eq_true, decide_eq_true_eq] at hmarked
        rcases hmarked with hc | ⟨rfl, -⟩
        · exact htable hc
        · rfl

theorem renders_of_dnMarks (hnul : '\x00' ∉ chars) {mark : Char × Bool}
    (h : mark ∈ dnMarks chars) : Renders mark := by
  have hmem : mark.1 ∈ chars := by
    rw [← map_fst_dnMarks chars]
    exact List.mem_map_of_mem h
  unfold Renders
  split_ifs with hmarked
  · exact isPairChar_of_dnMarks h hmarked
  · have htable := inDnTable_of_dnMarks h (Bool.eq_false_iff.mpr hmarked)
    have hzero : mark.1.toNat ≠ 0 := by
      intro hzero
      have hchar : mark.1 = '\x00' := Char.toNat_inj.mp hzero
      exact hnul (hchar ▸ hmem)
    rw [← Bool.not_eq_true, inDnTable_iff] at htable
    push Not at htable
    obtain ⟨h1, h2, h3, h4, h5, h6, h7, -⟩ := htable
    simp [isStringChar, hzero, h1, h2, h3, h4, h5, h6, h7]

theorem head_dnMarks {mark : Char × Bool} (h : mark ∈ (dnMarks chars).head?) :
    mark ≠ (' ', false) ∧ mark ≠ ('#', false) := by
  have hlead : ∀ {chars}, mark ∈ (leadMarks chars).head? →
      mark ≠ (' ', false) ∧ mark ≠ ('#', false) := by
    intro chars hmark
    cases chars with
    | nil => cases hmark
    | cons d chars =>
      obtain rfl : (d, leadsEscaped d) = mark := Option.some.inj hmark
      constructor
      · intro hspace
        obtain ⟨rfl, hplain⟩ := Prod.mk.inj hspace
        cases hplain
      · intro hnumber
        obtain ⟨rfl, hplain⟩ := Prod.mk.inj hnumber
        cases hplain
  rcases List.eq_nil_or_concat' chars with rfl | ⟨before, c, rfl⟩
  · cases h
  · unfold dnMarks at h
    rw [List.getLast?_concat] at h
    dsimp only at h
    split_ifs at h with hlength
    · exact hlead h
    · rw [List.dropLast_concat] at h
      cases before with
      | nil => exact absurd rfl hlength
      | cons d before => exact @hlead (d :: before) h

/-- **The one plain space at the end** is behind a backslash of the value. -/
theorem getLast?_dnMarks : (dnMarks chars).getLast? = some (' ', false) ↔
    "\\ ".toList <:+ chars := by
  rcases List.eq_nil_or_concat' chars with rfl | ⟨before, c, rfl⟩
  · decide
  · have hsuffix : "\\ ".toList <:+ before ++ [c] ↔ c = ' ' ∧ before.getLast? = some '\\' := by
      rw [List.getLast?_eq_some_iff]
      constructor
      · rintro ⟨t, ht⟩
        have hsplit : (t ++ ['\\']) ++ [' '] = before ++ [c] := by
          rw [← ht, List.append_assoc]
          rfl
        obtain ⟨hbefore, hc⟩ := List.append_inj' hsplit rfl
        exact ⟨(List.cons.inj hc).1.symm, t, hbefore.symm⟩
      · rintro ⟨rfl, t, rfl⟩
        exact ⟨t, by simp⟩
    rw [hsuffix]
    unfold dnMarks
    rw [List.getLast?_concat]
    dsimp only
    split_ifs with hlength
    · obtain rfl : before = [] := by simpa using hlength
      constructor
      · intro hlast
        obtain ⟨rfl, hplain⟩ := Prod.mk.inj (Option.some.inj hlast)
        cases hplain
      · rintro ⟨-, hlast⟩
        cases hlast
    · rw [List.dropLast_concat, List.getLast?_concat, Option.some_inj, Prod.mk.injEq]
      refine and_congr_right ?_
      rintro rfl
      have hspace : inDnTable ' ' = false := rfl
      simp [endsEscaped, hspace]

end Marks

/-! ## Names that are read back -/

theorem escapeDn_injective : Function.Injective escapeDn := by
  intro u v h
  have hread : ∀ value : String, unrender (escapeDn value).toList = value.toList := by
    intro value
    rw [toList_escapeDn, unrender_render, map_fst_dnMarks]
    intro mark hmark hplain hbackslash
    have htable := inDnTable_of_dnMarks hmark hplain
    rw [hbackslash] at htable
    cases htable
  exact String.toList_inj.mp (by rw [← hread u, h, hread v])

/-- **No two people have one name.** -/
theorem LdapTarget.dnFor_inj (ldap : LdapTarget) : Function.Injective ldap.dnFor := by
  intro u v h
  refine escapeDn_injective (String.toList_inj.mp ?_)
  have htext := congrArg String.toList h
  simp only [LdapTarget.dnFor, String.toList_append, List.append_assoc] at htext
  exact List.append_cancel_right (List.append_cancel_left htext)

/-- The uid is the value that is read of its escaped text, and the one value of the name that is
first in front of the people container. -/
structure KeepsUid (ldap : LdapTarget) (uid : String) : Prop where
  value : readValue (escapeDn uid).toList = some (.string (octets uid), [])
  name : firstRdn (ldap.dnFor uid) = some ([("uid", .string (octets uid))],
    ',' :: (ldap.peopleOu ++ "," ++ ldap.baseDn).toList)

theorem readValue_escapeDn {uid : String} (hnul : '\x00' ∉ uid.toList) {rest : List Char}
    (hstops : readSymbols rest = ([], rest)) (hhead : rest.head? ≠ some '#') :
    readValue ((escapeDn uid).toList ++ rest) =
      if "\\ ".toList <:+ uid.toList then none else some (.string (octets uid), rest) := by
  rw [toList_escapeDn, readValue_render (fun mark hmark => renders_of_dnMarks hnul hmark)
    (fun mark hmark => head_dnMarks hmark) hstops hhead, map_fst_dnMarks, octets_eq]
  exact if_congr getLast?_dnMarks rfl rfl

/-- **Which uids are read back**: those without NUL that do not end with a backslash and a space. -/
theorem keepsUid_iff (ldap : LdapTarget) : Function.Injective ldap.dnFor ∧ ∀ uid,
    KeepsUid ldap uid ↔ '\x00' ∉ uid.toList ∧ ¬ "\\ ".toList <:+ uid.toList := by
  refine ⟨ldap.dnFor_inj, fun uid => ⟨fun h => ?_, fun h => ?_⟩⟩
  · have hvalue := h.value
    have hnul : '\x00' ∉ uid.toList := by
      intro hmem
      -- NUL is still there when the symbols end
      have htext : '\x00' ∈ (escapeDn uid).toList := by
        rw [toList_escapeDn]
        rw [← map_fst_dnMarks uid.toList] at hmem
        obtain ⟨mark, hmark, hfst⟩ := List.mem_map.mp hmem
        refine List.mem_flatMap.mpr ⟨mark, hmark, ?_⟩
        rw [hfst]
        split_ifs <;> simp
      have hleft := nul_mem_readSymbols htext
      rw [← rest_of_readValue hvalue] at hleft
      cases hleft
    refine ⟨hnul, fun hends => ?_⟩
    have hread := @readValue_escapeDn _ hnul [] rfl (by simp)
    rw [List.append_nil, hvalue, if_pos hends] at hread
    cases hread
  · have hvalue := @readValue_escapeDn _ h.1 [] rfl (by simp)
    rw [List.append_nil, if_neg h.2] at hvalue
    refine ⟨hvalue, ?_⟩
    have hpeople := @readValue_escapeDn _ h.1
      (',' :: (ldap.peopleOu ++ "," ++ ldap.baseDn).toList) (readSymbols_comma _) (by simp)
    rw [if_neg h.2] at hpeople
    have htext : (ldap.dnFor uid).toList = "uid".toList ++ '=' :: ((escapeDn uid).toList ++
        ',' :: (ldap.peopleOu ++ "," ++ ldap.baseDn).toList) := by
      simp [LdapTarget.dnFor, String.toList_append]
    have hread : readTypeAndValue (ldap.dnFor uid).toList = some (("uid", .string (octets uid)),
        ',' :: (ldap.peopleOu ++ "," ++ ldap.baseDn).toList) := by
      have hall : ∀ c ∈ "uid".toList, isAttributeChar c = true :=
        List.all_eq_true.mp (by decide)
      have hstop : Delimited.Stops isAttributeChar ('=' :: ((escapeDn uid).toList ++
          ',' :: (ldap.peopleOu ++ "," ++ ldap.baseDn).toList)) :=
        Delimited.stops_cons (by decide) _
      unfold readTypeAndValue
      rw [htext, Delimited.takeWhile_token hall hstop, Delimited.dropWhile_token hall hstop]
      dsimp only
      rw [if_pos ⟨rfl, by decide +kernel⟩, hpeople]
      rfl
    unfold firstRdn
    obtain ⟨fuel, hfuel⟩ : ∃ n, (ldap.dnFor uid).toList.length = n + 1 := by
      rw [htext]
      exact ⟨_, rfl⟩
    rw [hfuel, readRdn, hread]
    dsimp only
    rw [if_neg (by simp)]

/-- **A backslash before the last space.**  The space is left as it is, and a name does not end
with a plain space. -/
theorem not_keepsUid : ¬ ∀ (ldap : LdapTarget) (uid : String), KeepsUid ldap uid := by
  intro h
  have hvalue := (h { profile := openLdap, baseDn := "dc=campus,dc=test" } "sam\\ ").value
  have hread : readValue (escapeDn "sam\\ ").toList = none := by decide +kernel
  rw [hread] at hvalue
  cases hvalue

end CampusID
