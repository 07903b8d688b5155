import CampusID.Scim.Etags
import CampusID.Scim.Groups

/-!
# One header, two readings

`If-Match` is compared with the version of a user in one way, `_assert_version` with
`_candidates`, and with the version of a group in another, `matches_version`.  The first adds the
prefix of a weak version to what the client sent, the second takes it off the version it compares
with; for a weak version that comes to the same.

What differs is the wildcard.  A group takes `*` for every version.  A user takes it for a version
that is called `*`, and no version is (`ifMatch_agrees_iff`).
-/

namespace CampusID
namespace Scim

variable {Doc : Type}

/-- A weak version. -/
def weakVersion (v : String) : String := "W/\"" ++ v ++ "\""

theorem toList_weakVersion (v : String) :
    (weakVersion v).toList = 'W' :: '/' :: '"' :: (v.toList ++ ['"']) := by
  simp [weakVersion]

theorem dropText_append (text s : String) : Text.dropText text (text ++ s) = s := by
  have hprefix : text.toList <+: (text ++ s).toList := ⟨s.toList, by simp⟩
  rw [Text.dropText, if_pos hprefix, String.toList_append, ← String.length_toList,
    List.drop_left, String.ofList_toList]

theorem dropText_of_not_isPrefix {text s : String} (h : ¬ text.toList <+: s.toList) :
    Text.dropText text s = s := if_neg h

theorem dropText_eq_iff {text s result : String} : Text.dropText text s = result ↔
    s = text ++ result ∨ (¬ text.toList <+: s.toList ∧ s = result) := by
  by_cases h : text.toList <+: s.toList
  · obtain ⟨rest, hrest⟩ := h
    obtain rfl : s = text ++ String.ofList rest := by
      rw [← String.toList_inj, ← hrest, String.toList_append, String.toList_ofList]
    rw [dropText_append, String.append_right_inj]
    refine ⟨Or.inl, fun h => h.resolve_right fun hnot => hnot.1 ⟨rest, by simp⟩⟩
  · rw [dropText_of_not_isPrefix h]
    refine ⟨fun heq => Or.inr ⟨h, heq⟩, fun hor => hor.elim (fun heq => ?_) And.right⟩
    exact absurd ⟨result.toList, by rw [heq, String.toList_append]⟩ h

theorem weakVersion_eq (v : String) : weakVersion v = "W/" ++ ("\"" ++ v ++ "\"") := by
  rw [← String.toList_inj, toList_weakVersion]
  simp

theorem dropText_weakVersion (v : String) :
    Text.dropText "W/" (weakVersion v) = "\"" ++ v ++ "\"" := by
  rw [weakVersion_eq, dropText_append]

/-- A tag gives the quoted text when the prefix is taken off it: it is the quoted text, or the
weak version. -/
theorem dropText_eq_quoted {tag v : String} : Text.dropText "W/" tag = "\"" ++ v ++ "\"" ↔
    tag = weakVersion v ∨ tag = "\"" ++ v ++ "\"" := by
  rw [dropText_eq_iff, ← weakVersion_eq]
  refine or_congr_right ⟨And.right, fun heq => ⟨?_, heq⟩⟩
  rintro ⟨rest, hrest⟩
  rw [heq] at hrest
  simp at hrest

theorem weakVersion_ne_star (v : String) : weakVersion v ≠ "*" := by
  intro heq
  have hlists := congrArg String.toList heq
  rw [toList_weakVersion] at hlists
  simp at hlists

/-- **The tags that name a weak version**, as users read them. -/
theorem weakVersion_mem_candidates {v ifMatch : String} (hstar : Text.strip ifMatch ≠ "*") :
    weakVersion v ∈ candidates ifMatch ↔ ∃ tag ∈ (Text.split ',' ifMatch).map Text.strip,
      tag = weakVersion v ∨ tag = "\"" ++ v ++ "\"" ∨
        Text.dropText "W/" tag = weakVersion v := by
  unfold candidates
  rw [if_neg hstar]
  simp only [List.mem_append, List.mem_map (f := ("W/" ++ ·)), List.mem_map (f := Text.dropText "W/")]
  constructor
  · rintro ((h | ⟨tag, htag, heq⟩) | ⟨tag, htag, heq⟩)
    · exact ⟨_, h, .inl rfl⟩
    · rw [weakVersion_eq, String.append_right_inj] at heq
      exact ⟨tag, htag, .inr (.inl heq)⟩
    · exact ⟨tag, htag, .inr (.inr heq)⟩
  · rintro ⟨tag, htag, rfl | rfl | heq⟩
    · exact .inl (.inl htag)
    · exact .inl (.inr ⟨_, htag, (weakVersion_eq v).symm⟩)
    · exact .inr ⟨tag, htag, heq⟩

/-- **The same tags name it**, as groups read them. -/
theorem matchesVersion_weakVersion {v ifMatch : String} (hstar : Text.strip ifMatch ≠ "*") :
    matchesVersion (weakVersion v) ifMatch = true ↔
      ∃ tag ∈ (Text.split ',' ifMatch).map Text.strip,
        tag = weakVersion v ∨ tag = "\"" ++ v ++ "\"" ∨
          Text.dropText "W/" tag = weakVersion v := by
  unfold matchesVersion
  simp only [hstar, decide_false, Bool.false_or, Bool.or_eq_true, List.contains_iff_mem,
    List.mem_append, List.mem_map (f := Text.dropText "W/"), dropText_weakVersion,
    dropText_eq_quoted]
  constructor
  · rintro ((h | ⟨tag, htag, heq⟩) | (h | ⟨tag, htag, rfl | rfl⟩))
    · exact ⟨_, h, .inl rfl⟩
    · exact ⟨tag, htag, .inr (.inr heq)⟩
    · exact ⟨_, h, .inr (.inl rfl)⟩
    · exact ⟨_, htag, .inl rfl⟩
    · exact ⟨_, htag, .inr (.inl rfl)⟩
  · rintro ⟨tag, htag, rfl | rfl | heq⟩
    · exact .inl (.inl htag)
    · exact .inr (.inl htag)
    · exact .inl (.inr ⟨tag, htag, heq⟩)

theorem assertVersion_eq_ok {source : ScimSourceRecord Doc} {ifMatch : String} :
    assertVersion (some source) (some ifMatch) = .ok () ↔ source.version ∈ candidates ifMatch := by
  unfold assertVersion
  by_cases h : source.version ∈ candidates ifMatch
  · simp [h]
  · simp [h]

/-- **Users and groups read `If-Match` the same way, except for the wildcard.** -/
theorem ifMatch_agrees_iff (source : ScimSourceRecord Doc) (v ifMatch : String) :
    (assertVersion (some { source with version := weakVersion v }) (some ifMatch) = .ok () ↔
      matchesVersion (weakVersion v) ifMatch = true) ↔ Text.strip ifMatch ≠ "*" := by
  rw [assertVersion_eq_ok]
  by_cases hstar : Text.strip ifMatch = "*"
  · have hgroups : matchesVersion (weakVersion v) ifMatch = true := by
      unfold matchesVersion
      rw [hstar]
      rfl
    have husers : weakVersion v ∉ candidates ifMatch := by
      unfold candidates
      rw [if_pos hstar, List.mem_singleton]
      exact weakVersion_ne_star v
    simp [hgroups, husers, hstar]
  · rw [weakVersion_mem_candidates hstar, matchesVersion_weakVersion hstar]
    simp [hstar]

/-- `*` is any version of a group, and none of a user. -/
theorem not_ifMatch_agrees : ¬ ∀ (source : ScimSourceRecord Unit) (v ifMatch : String),
    assertVersion (some { source with version := weakVersion v }) (some ifMatch) = .ok () ↔
      matchesVersion (weakVersion v) ifMatch = true := by
  intro h
  have hstar := h ⟨"p1", none, (), "W/\"1\""⟩ "1" "*"
  revert hstar
  decide

end Scim
end CampusID
