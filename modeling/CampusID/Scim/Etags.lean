import CampusID.Scim.Resources

/-!
# The version of a document

`etag`: a digest of the document, as a weak tag.  What a client sends back in `If-Match` is a list
of tags, each with or without its `W/`.  A version sent back as it is names itself and no other
version (`etag_mem_candidates`), so whether it is accepted is whether it is the version that is
stored.

The digest is 32 hexadecimal digits of a SHA-256.  That it tells two documents apart is an
assumption on these two: no function from texts to digests tells all of them apart.
-/

namespace CampusID
namespace Scim

open Audit (Json Dumps dumps okD okD_ok asciiText asciiText_inj normal_eq_of_dumps_eq)

/-- `hashlib.sha256(...).hexdigest()[:32]`. -/
structure HexDigest where
  text : String → String
  hex : ∀ s, ∀ c ∈ (text s).toList, c ∈ "0123456789abcdef".toList

/-- `json.dumps(document, sort_keys=True, separators=(",", ":"))`. -/
def canonical (document : Json) : String := asciiText (okD (dumps document) "")

/-- `etag` of a document without its `meta`. -/
def HexDigest.etag (digest : HexDigest) (document : Json) : String :=
  "W/\"" ++ digest.text (canonical document) ++ "\""

/-- The digest tells the two documents apart, if their texts differ. -/
def HexDigest.Separates (digest : HexDigest) (document document' : Json) : Prop :=
  digest.text (canonical document) = digest.text (canonical document') →
    canonical document = canonical document'

/-! ## Tags -/

theorem splitChars_of_notMem {sep : Char} {l : List Char} (h : sep ∉ l) :
    Text.splitChars sep l = [l] := by
  induction l with
  | nil => rfl
  | cons c l ih =>
    rw [List.mem_cons, not_or] at h
    rw [Text.splitChars, if_neg (Ne.symm h.1), ih h.2]

theorem toList_etag (digest : HexDigest) (document : Json) :
    (digest.etag document).toList =
      'W' :: '/' :: '"' :: ((digest.text (canonical document)).toList ++ ['"']) := by
  simp [HexDigest.etag]

theorem candidates_etag (digest : HexDigest) (document : Json) :
    candidates (digest.etag document) =
      [digest.etag document, "W/" ++ digest.etag document,
        Text.dropText "W/" (digest.etag document)] := by
  have hchars := toList_etag digest document
  have hstrip : Text.strip (digest.etag document) = digest.etag document := by
    refine Text.strip_of_ends ?_ ?_
    · rw [hchars]
      rintro c ⟨⟩
      decide
    · rw [hchars, ← List.cons_append, ← List.cons_append, ← List.cons_append, List.getLast?_concat]
      rintro c ⟨⟩
      decide
  have hcomma : ',' ∉ (digest.etag document).toList := by
    rw [hchars]
    simp only [List.mem_cons, List.mem_append, List.not_mem_nil, or_false, not_or]
    refine ⟨by decide, by decide, by decide, fun hmem => ?_, by decide⟩
    exact absurd (digest.hex _ _ hmem) (by decide)
  have hstar : digest.etag document ≠ "*" := by
    intro heq
    rw [heq] at hchars
    exact absurd hchars (by simp)
  unfold candidates
  rw [hstrip, if_neg hstar, Text.split, splitChars_of_notMem hcomma]
  simp [hstrip]

/-- **A version names itself and no other.** -/
theorem etag_mem_candidates (digest : HexDigest) (document document' : Json) :
    digest.etag document' ∈ candidates (digest.etag document) ↔
      digest.etag document' = digest.etag document := by
  have hchars := toList_etag digest document
  have hchars' := toList_etag digest document'
  rw [candidates_etag]
  constructor
  · intro hmem
    simp only [List.mem_cons, List.not_mem_nil, or_false] at hmem
    rcases hmem with heq | heq | heq
    · exact heq
    · -- a version prefixed once more
      have hlists := congrArg String.toList heq
      rw [hchars', String.toList_append, hchars] at hlists
      simp at hlists
    · -- a version without its prefix
      have hlists := congrArg String.toList heq
      have hdrop : Text.dropText "W/" (digest.etag document) =
          String.ofList ('"' :: ((digest.text (canonical document)).toList ++ ['"'])) := by
        rw [Text.dropText, if_pos ⟨'"' :: ((digest.text (canonical document)).toList ++ ['"']), by
          rw [hchars]; rfl⟩, hchars]
        rfl
      rw [hchars', hdrop, String.toList_ofList] at hlists
      exact absurd (List.cons.inj hlists).1 (by decide)
  · intro heq
    rw [heq]
    exact List.mem_cons_self

/-- **Documents of one version are one**, where the digest tells them apart. -/
theorem normal_eq_of_etag_eq {digest : HexDigest} {document document' : Json}
    (hseparates : digest.Separates document document') (hdumps : Dumps document)
    (hdumps' : Dumps document') (h : digest.etag document = digest.etag document') :
    document.normal = document'.normal := by
  have hdigest : digest.text (canonical document) = digest.text (canonical document') := by
    have hlists := congrArg String.toList h
    rw [toList_etag, toList_etag] at hlists
    exact String.toList_inj.mp (by simpa using hlists)
  obtain ⟨t, ht⟩ := hdumps
  obtain ⟨t', ht'⟩ := hdumps'
  have hcanonical := hseparates hdigest
  rw [canonical, canonical, ht, ht', okD_ok, okD_ok] at hcanonical
  obtain rfl := asciiText_inj ht ht' hcanonical
  exact normal_eq_of_dumps_eq ht ht'

end Scim
end CampusID
