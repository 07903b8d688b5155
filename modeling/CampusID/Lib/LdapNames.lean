import CampusID.Lib.Separated

/-!
# Names of a directory schema

The attribute types and attribute descriptions of RFC 4512: a word or a dotted number, and options.
-/

namespace CampusID
namespace Lib
namespace Ldap

/-- `keychar`. -/
def isKeyChar (c : Char) : Bool := c.isAlphanum || c = '-'

/-- `descr`. -/
def isDescr : List Char → Bool
  | [] => false
  | c :: cs => c.isAlpha && cs.all isKeyChar

/-- `number`. -/
def isNumber : List Char → Bool
  | [] => false
  | [c] => c.isDigit
  | c :: cs => c.isDigit && c ≠ '0' && cs.all Char.isDigit

/-- `oid`. -/
def isOid (text : List Char) : Bool :=
  isDescr text || (2 ≤ (text.splitOn '.').length && (text.splitOn '.').all isNumber)

/-- `attributedescription`: an `oid` and its options. -/
def isAttributeDescription (text : List Char) : Bool :=
  match text.splitOn ';' with
  | [] => false
  | oid :: options => isOid oid && options.all fun option => option ≠ [] && option.all isKeyChar

/-- What an attribute description is made of. -/
def isAttributeChar (c : Char) : Bool := isKeyChar c || c = '.' || c = ';'

/-! ## What they are made of -/

section Attributes

variable {text rest : List Char} {c : Char}

theorem isAttributeChar_of_isKeyChar (h : isKeyChar c = true) : isAttributeChar c = true := by
  simp [isAttributeChar, h]

theorem isAttributeChar_of_isDigit (h : c.isDigit = true) : isAttributeChar c = true :=
  isAttributeChar_of_isKeyChar (by simp [isKeyChar, Char.isAlphanum, h])

theorem isAttributeChar_of_isNumber (h : isNumber text = true) (hc : c ∈ text) :
    isAttributeChar c = true := by
  fun_cases isNumber text with
  | case1 => cases h
  | case2 d =>
    obtain rfl := List.mem_singleton.mp hc
    exact isAttributeChar_of_isDigit h
  | case3 d ds _ =>
    simp only [isNumber, Bool.and_eq_true, List.all_eq_true] at h
    rcases List.mem_cons.mp hc with rfl | hmem
    · exact isAttributeChar_of_isDigit h.1.1
    · exact isAttributeChar_of_isDigit (h.2 c hmem)

theorem isAttributeChar_of_isDescr (h : isDescr text = true) (hc : c ∈ text) :
    isAttributeChar c = true := by
  cases text with
  | nil => cases hc
  | cons d ds =>
    simp only [isDescr, Bool.and_eq_true, List.all_eq_true] at h
    rcases List.mem_cons.mp hc with rfl | hmem
    · exact isAttributeChar_of_isKeyChar (by simp [isKeyChar, Char.isAlphanum, h.1])
    · exact isAttributeChar_of_isKeyChar (h.2 c hmem)

theorem isAttributeChar_of_isOid (h : isOid text = true) (hc : c ∈ text) :
    isAttributeChar c = true := by
  rw [isOid, Bool.or_eq_true, Bool.and_eq_true, List.all_eq_true] at h
  rcases h with hdescr | ⟨-, hnumbers⟩
  · exact isAttributeChar_of_isDescr hdescr hc
  · rcases (mem_splitOn hc : c = '.' ∨ _) with rfl | ⟨word, hword, hmem⟩
    · rfl
    · exact isAttributeChar_of_isNumber (hnumbers word hword) hmem

/-- An attribute description has attribute characters only, so that it is read to its end. -/
theorem isAttributeChar_of_isAttributeDescription (h : isAttributeDescription text = true)
    (hc : c ∈ text) : isAttributeChar c = true := by
  unfold isAttributeDescription at h
  rcases (mem_splitOn hc : c = ';' ∨ _) with rfl | ⟨word, hword, hmem⟩
  · rfl
  · split at h
    · cases h
    · rename_i oid options hsplit
      rw [Bool.and_eq_true, List.all_eq_true] at h
      rw [hsplit] at hword
      rcases List.mem_cons.mp hword with rfl | hoption
      · exact isAttributeChar_of_isOid h.1 hmem
      · have hkeys := h.2 word hoption
        rw [Bool.and_eq_true, List.all_eq_true] at hkeys
        exact isAttributeChar_of_isKeyChar (hkeys.2 c hmem)

/-- No attribute description begins as a list or a negation does. -/
theorem head_of_isAttributeDescription (h : isAttributeDescription text = true) :
    ∃ c cs, text = c :: cs ∧ isAttributeChar c = true := by
  cases text with
  | nil => cases h
  | cons c cs =>
    exact ⟨c, cs, rfl, isAttributeChar_of_isAttributeDescription h List.mem_cons_self⟩

end Attributes

end Ldap
end Lib
end CampusID
