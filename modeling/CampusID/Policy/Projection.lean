import CampusID.Policy.Normalize

/-!
# Normalisation is a projection

What normalisation keeps it keeps again (`normalizeValue_again`), and what it does not keep it
lists: `normalizes` is the whole of what `normalize` promises of any attributes and any scope.

Of `str.lower` it needs `LowerLaws`: that it is done once, and leaves the white space at the ends
and the separator alone.
-/

namespace CampusID
namespace Policy

/-- What `str.lower` does not do: it does nothing the second time, it makes no white space at
either end and takes none away there, and it makes no `@`. -/
structure LowerLaws (lower : String → String) : Prop where
  again : ∀ s, lower (lower s) = lower s
  first : ∀ s, (lower s).toList.head?.map Text.isSpace = s.toList.head?.map Text.isSpace
  last : ∀ s, (lower s).toList.getLast?.map Text.isSpace = s.toList.getLast?.map Text.isSpace
  separator : ∀ s, '@' ∉ s.toList → '@' ∉ (lower s).toList

/-- Normalised attributes, and what becomes of every value. -/
structure Normalizes (lower : String → String) (attributes : Attributes) (scope : String)
    (result : NormalizationResult) : Prop where
  /-- Normalising again drops nothing and changes nothing. -/
  again : normalize lower result.attributes scope = ⟨result.attributes, []⟩
  /-- A principal name is scoped to the deployment. -/
  principal : ∀ value, result.attributes.Carries eppn value →
    ∃ front, Text.rpartition '@' value = some (front, scope)
  /-- So is a scoped affiliation, which is one of the vocabulary. -/
  affiliated : ∀ value, result.attributes.Carries scopedAffiliation value →
    ∃ word ∈ affiliationVocabulary, Text.rpartition '@' value = some (word, scope)
  /-- And so is an affiliation without a scope. -/
  vocabulary : ∀ name value, name = affiliation ∨ name = primaryAffiliation →
    result.attributes.Carries name value → value ∈ affiliationVocabulary
  /-- Every value is there in its normalised form and not dropped, or dropped as often as it was
  given. -/
  accounted : ∀ name values, (name, values) ∈ attributes → ∀ raw ∈ values,
    (∃ value, normalizeValue lower name (Text.strip raw) scope = .ok value ∧
      result.attributes.Carries name value ∧
        result.dropped.countP (fun d => d.attr = name ∧ d.value = raw) = 0) ∨
    ∃ reason, normalizeValue lower name (Text.strip raw) scope = .error reason ∧
      result.dropped.countP (fun d => d.attr = name ∧ d.value = raw) = values.count raw ∧
        result.dropped.count ⟨name, raw, reason⟩ = values.count raw
  /-- No attribute has a value twice. -/
  distinct : ∀ name values, (name, values) ∈ result.attributes → values.Nodup

section Values

variable {lower : String → String} {name scope value raw : String} {values : List String}
  {out : List String × List DroppedValue}

theorem LowerLaws.eq_empty_iff (h : LowerLaws lower) (s : String) : lower s = "" ↔ s = "" := by
  have hhead := h.first s
  constructor
  · intro hempty
    rw [hempty] at hhead
    cases hs : s.toList with
    | nil => exact String.toList_eq_nil_iff.mp hs
    | cons c cs =>
      rw [hs] at hhead
      cases hhead
  · rintro rfl
    cases hs : (lower "").toList with
    | nil => exact String.toList_eq_nil_iff.mp hs
    | cons c cs =>
      rw [hs] at hhead
      cases hhead

theorem LowerLaws.strip_lower (h : LowerLaws lower) (s : String) :
    Text.strip (lower (Text.strip s)) = lower (Text.strip s) := by
  refine Text.strip_of_ends (fun c hc => ?_) fun c hc => ?_
  · have hfirst := h.first (Text.strip s)
    rw [Option.mem_def.mp hc, Option.map_some] at hfirst
    obtain ⟨c', hc', hspace⟩ := Option.map_eq_some_iff.mp hfirst.symm
    rw [← hspace]
    exact Text.head_strip s c' hc'
  · have hlast := h.last (Text.strip s)
    rw [Option.mem_def.mp hc, Option.map_some] at hlast
    obtain ⟨c', hc', hspace⟩ := Option.map_eq_some_iff.mp hlast.symm
    rw [← hspace]
    exact Text.getLast_strip s c' hc'

/-! ## One value -/

theorem scopedValue_ok {vocabulary : Option (List String)} {kept : String}
    (h : scopedValue value scope vocabulary = .ok kept) : kept = value ∧
      ∃ front, front ≠ "" ∧ Text.rpartition '@' value = some (front, scope) ∧
        ∀ words ∈ vocabulary, front ∈ words := by
  unfold scopedValue at h
  split at h
  · cases h
  · rename_i front assertedScope hsplit
    split_ifs at h with hfront hscope hwords
    obtain rfl := Except.ok.inj h
    obtain rfl := not_not.mp hscope
    exact ⟨rfl, front, hfront, hsplit, by simpa using hwords⟩

theorem mailValue_ok {kept : String} (h : mailValue lower value = .ok kept) :
    ∃ front domain, front ≠ "" ∧ domain ≠ "" ∧
      Text.rpartition '@' value = some (front, domain) ∧ kept = front ++ "@" ++ lower domain := by
  unfold mailValue at h
  split at h
  · cases h
  · rename_i front domain hsplit
    split_ifs at h with hempty
    obtain rfl := Except.ok.inj h
    push Not at hempty
    exact ⟨front, domain, hempty.1, hempty.2, hsplit, rfl⟩

theorem rpartition_mail (h : LowerLaws lower) {front domain : String}
    (hsplit : Text.rpartition '@' value = some (front, domain)) :
    Text.rpartition '@' (front ++ "@" ++ lower domain) = some (front, lower domain) := by
  obtain ⟨-, hdomain⟩ := Text.rpartition_eq_some_iff.mp hsplit
  exact Text.rpartition_eq_some_iff.mpr ⟨by simp, h.separator domain hdomain⟩

theorem strip_mail (h : LowerLaws lower) {front domain : String} (hfront : front ≠ "")
    (hdomain : domain ≠ "")
    (hsplit : Text.rpartition '@' (Text.strip raw) = some (front, domain)) :
    Text.strip (front ++ "@" ++ lower domain) = front ++ "@" ++ lower domain := by
  obtain ⟨hchars, -⟩ := Text.rpartition_eq_some_iff.mp hsplit
  refine Text.strip_of_ends (fun c hc => ?_) fun c hc => ?_
  · -- the first character is that of the part before the separator
    obtain ⟨c', cs, hcs⟩ := List.exists_cons_of_ne_nil (mt String.toList_eq_nil_iff.mp hfront)
    refine Text.head_strip raw c ?_
    rw [hchars]
    simpa [hcs] using hc
  · -- the last one is that of the domain
    have hlower : lower domain ≠ "" := mt (h.eq_empty_iff domain).mp hdomain
    have hends : ∀ s : String, s ≠ "" →
        (front.toList ++ '@' :: s.toList).getLast? = s.toList.getLast? := by
      intro s hs
      obtain ⟨c', cs, hcs⟩ := List.exists_cons_of_ne_nil (mt String.toList_eq_nil_iff.mp hs)
      rw [hcs, List.getLast?_append_of_ne_nil _ (List.cons_ne_nil _ _), List.getLast?_cons_cons]
    have hc' : c ∈ (lower domain).toList.getLast? := by
      rw [← hends _ hlower]
      simpa using hc
    have hlast := h.last domain
    rw [Option.mem_def.mp hc', Option.map_some] at hlast
    obtain ⟨d, hd, hspace⟩ := Option.map_eq_some_iff.mp hlast.symm
    rw [← hspace]
    refine Text.getLast_strip raw d ?_
    rw [hchars, hends _ hdomain]
    exact hd

/-- **What is kept is kept again**, as it is. -/
theorem normalizeValue_again (h : LowerLaws lower)
    (hok : normalizeValue lower name (Text.strip raw) scope = .ok value) :
    normalizeValue lower name (Text.strip value) scope = .ok value := by
  unfold normalizeValue at hok
  split_ifs at hok with hempty heppn hscoped hbare hword hmail
  · obtain ⟨rfl, -⟩ := scopedValue_ok hok
    rw [h.strip_lower]
    unfold normalizeValue
    rw [if_neg (mt (h.eq_empty_iff _).mp hempty), if_pos heppn, h.again]
    exact hok
  · obtain ⟨rfl, -⟩ := scopedValue_ok hok
    rw [h.strip_lower]
    unfold normalizeValue
    rw [if_neg (mt (h.eq_empty_iff _).mp hempty), if_neg heppn, if_pos hscoped, h.again]
    exact hok
  · obtain rfl := Except.ok.inj hok
    rw [h.strip_lower]
    unfold normalizeValue
    rw [if_neg (mt (h.eq_empty_iff _).mp hempty), if_neg heppn, if_neg hscoped, if_pos hbare,
      h.again, if_neg (not_not.mpr hword)]
  · obtain ⟨front, domain, hfront, hdomain, hsplit, rfl⟩ := mailValue_ok hok
    have hlower : lower domain ≠ "" := mt (h.eq_empty_iff domain).mp hdomain
    have hthere : front ++ "@" ++ lower domain ≠ "" := by simp
    rw [strip_mail h hfront hdomain hsplit]
    unfold normalizeValue mailValue
    rw [if_neg hthere, if_neg heppn, if_neg hscoped, if_neg hbare, if_pos hmail,
      rpartition_mail h hsplit]
    dsimp only
    rw [if_neg (by simp [hfront, hlower]), h.again]
  · obtain rfl := Except.ok.inj hok
    rw [Text.strip_strip]
    unfold normalizeValue
    rw [if_neg hempty, if_neg heppn, if_neg hscoped, if_neg hbare, if_neg hmail]

/-! ## The values of an attribute -/

theorem nodup_normalizeValues (h : out.1.Nodup) :
    (normalizeValues lower name scope values out).1.Nodup := by
  induction values generalizing out with
  | nil => exact h
  | cons raw rest ih =>
    obtain ⟨kept, dropped⟩ := out
    rw [normalizeValues]
    refine ih ?_
    cases normalizeValue lower name (Text.strip raw) scope with
    | error reason => exact h
    | ok value =>
      dsimp only
      split_ifs with hthere
      · exact h
      · exact h.append (List.nodup_singleton _) (List.disjoint_singleton.mpr hthere)

theorem normalizeValues_of_fixed
    (hfixed : ∀ v ∈ values, normalizeValue lower name (Text.strip v) scope = .ok v)
    (hnodup : (out.1 ++ values).Nodup) :
    normalizeValues lower name scope values out = (out.1 ++ values, out.2) := by
  induction values generalizing out with
  | nil => rw [normalizeValues, List.append_nil]
  | cons v rest ih =>
    obtain ⟨kept, dropped⟩ := out
    have hnew : v ∉ kept := fun hmem => List.disjoint_of_nodup_append hnodup hmem List.mem_cons_self
    rw [normalizeValues, hfixed v List.mem_cons_self]
    dsimp only
    rw [if_neg hnew, ih (fun w hw => hfixed w (List.mem_cons_of_mem _ hw)) (by simpa using hnodup)]
    simp

/-- **What is dropped of the values of an attribute**: those that cannot be normalised, each as
often as it is given. -/
theorem count_dropped (p : DroppedValue → Bool) :
    (normalizeValues lower name scope values out).2.countP p = out.2.countP p +
      values.countP fun raw => match normalizeValue lower name (Text.strip raw) scope with
        | .error reason => p ⟨name, raw, reason⟩
        | .ok _ => false := by
  induction values generalizing out with
  | nil => rfl
  | cons raw rest ih =>
    obtain ⟨kept, dropped⟩ := out
    rw [normalizeValues, ih, List.countP_cons]
    cases normalizeValue lower name (Text.strip raw) scope with
    | error reason =>
      simp only [List.countP_append, List.countP_singleton]
      omega
    | ok value => simp

end Values

/-! ## The attributes -/

section Attributes

variable {lower : String → String} {attributes : Attributes} {name scope value : String}
  {values : List String}

theorem mem_normalize : (name, values) ∈ (normalize lower attributes scope).attributes ↔
    values ≠ [] ∧ ∃ given, (name, given) ∈ attributes ∧
      values = (normalizeValues lower name scope given ([], [])).1 := by
  simp only [normalize, List.mem_map, List.mem_filter]
  constructor
  · rintro ⟨_, ⟨⟨⟨other, given⟩, hgiven, rfl⟩, hkept⟩, heq⟩
    obtain ⟨rfl, rfl⟩ := Prod.mk.inj heq
    exact ⟨by simpa using hkept, given, hgiven, rfl⟩
  · rintro ⟨hkept, given, hgiven, rfl⟩
    exact ⟨_, ⟨⟨(name, given), hgiven, rfl⟩, by simpa using hkept⟩, rfl⟩

theorem normalize_of_fixed (hkept : ∀ name values, (name, values) ∈ attributes → values ≠ [])
    (hfixed : ∀ name values, (name, values) ∈ attributes →
      normalizeValues lower name scope values ([], []) = (values, [])) :
    normalize lower attributes scope = ⟨attributes, []⟩ := by
  have hall : (attributes.map fun entry =>
      (entry.1, normalizeValues lower entry.1 scope entry.2 ([], []))) =
        attributes.map fun entry => (entry.1, (entry.2, [])) :=
    List.map_congr_left fun ⟨name, values⟩ hentry => by rw [hfixed name values hentry]
  have hthere : (attributes.map fun entry => (entry.1, (entry.2, ([] : List DroppedValue)))).filter
      (fun entry => entry.2.1 ≠ []) =
        attributes.map fun entry => (entry.1, (entry.2, [])) := by
    refine List.filter_eq_self.mpr fun entry hentry => ?_
    obtain ⟨⟨name, values⟩, hmem, rfl⟩ := List.mem_map.mp hentry
    simpa using hkept name values hmem
  unfold normalize
  simp only [hall]
  rw [hthere]
  simp [List.map_map, Function.comp_def]

theorem count_normalize {given : List String} (hdict : (attributes.map Prod.fst).Nodup)
    (hgiven : (name, given) ∈ attributes) {p : DroppedValue → Bool}
    (hp : ∀ d, p d = true → d.attr = name) :
    (normalize lower attributes scope).dropped.countP p =
      (normalizeValues lower name scope given ([], [])).2.countP p := by
  have hother : ∀ entry ∈ attributes, entry.1 ≠ name →
      (normalizeValues lower entry.1 scope entry.2 ([], [])).2.countP p = 0 := by
    intro entry _ hne
    rw [count_dropped, List.countP_nil, Nat.zero_add]
    refine List.countP_eq_zero.mpr fun raw _ => ?_
    split
    · exact fun hd => hne (hp _ hd)
    · simp
  unfold normalize
  dsimp only
  rw [List.flatMap_map]
  induction attributes with
  | nil => cases hgiven
  | cons entry rest ih =>
    obtain ⟨hfirst, hrest⟩ := List.nodup_cons.mp hdict
    rw [List.flatMap_cons, List.countP_append]
    rcases List.mem_cons.mp hgiven with rfl | hmem
    · have hzero : (rest.flatMap fun entry =>
          (normalizeValues lower entry.1 scope entry.2 ([], [])).2).countP p = 0 := by
        rw [List.countP_flatMap]
        refine List.sum_eq_zero_iff_forall_eq_nat.mpr fun n hn => ?_
        obtain ⟨entry, hentry, rfl⟩ := List.mem_map.mp hn
        refine hother entry (List.mem_cons_of_mem _ hentry) fun heq => hfirst ?_
        exact List.mem_map.mpr ⟨entry, hentry, heq⟩
      exact (congrArg _ hzero).trans (Nat.add_zero _)
    · have hne : entry.1 ≠ name := fun heq => hfirst (List.mem_map.mpr ⟨_, hmem, heq.symm⟩)
      rw [hother entry List.mem_cons_self hne, Nat.zero_add]
      exact ih hrest hmem fun e he => hother e (List.mem_cons_of_mem _ he)

end Attributes

/-- **Normalisation is a projection, and accounts for everything.** -/
theorem normalizes (lower : String → String) (h : LowerLaws lower) (attributes : Attributes)
    (hdict : (attributes.map Prod.fst).Nodup) (scope : String) :
    Normalizes lower attributes scope (normalize lower attributes scope) where
  again := by
    refine normalize_of_fixed (fun name values hmem => (mem_normalize.mp hmem).1)
      fun name values hmem => ?_
    obtain ⟨-, given, -, rfl⟩ := mem_normalize.mp hmem
    refine normalizeValues_of_fixed (fun value hvalue => ?_) ?_
    · rcases mem_normalizeValues.mp hvalue with hnone | ⟨raw, -, hok⟩
      · cases hnone
      · exact normalizeValue_again h hok
    · rw [List.nil_append]
      exact nodup_normalizeValues List.nodup_nil
  principal := by
    intro value hvalue
    obtain ⟨raw, -, hok⟩ := carries_normalize.mp hvalue
    rw [normalizeValue, if_pos rfl] at hok
    split_ifs at hok with hempty
    obtain ⟨rfl, front, -, hsplit, -⟩ := scopedValue_ok hok
    exact ⟨front, hsplit⟩
  affiliated := by
    intro value hvalue
    obtain ⟨raw, -, hok⟩ := carries_normalize.mp hvalue
    obtain ⟨-, rfl, word, hword, hsplit⟩ := normalizeValue_scopedAffiliation.mp hok
    exact ⟨word, hword, hsplit⟩
  vocabulary := by
    intro name value hname hvalue
    obtain ⟨raw, -, hok⟩ := carries_normalize.mp hvalue
    obtain ⟨-, rfl, hword⟩ := (normalizeValue_bare hname).mp hok
    exact hword
  accounted := by
    intro name values hmem raw hraw
    have hcount : ∀ p : DroppedValue → Bool, (∀ d, p d = true → d.attr = name) →
        (normalize lower attributes scope).dropped.countP p = values.countP fun raw =>
          match normalizeValue lower name (Text.strip raw) scope with
          | .error reason => p ⟨name, raw, reason⟩
          | .ok _ => false := by
      intro p hp
      rw [count_normalize hdict hmem hp, count_dropped, List.countP_nil, Nat.zero_add]
    cases hok : normalizeValue lower name (Text.strip raw) scope with
    | ok value =>
      refine .inl ⟨value, rfl, carries_normalize.mpr ⟨raw, ⟨values, hmem, hraw⟩, hok⟩, ?_⟩
      rw [hcount _ fun d hd => (of_decide_eq_true hd).1]
      refine List.countP_eq_zero.mpr fun other _ => ?_
      split
      · rename_i reason hother
        simp only [true_and, decide_eq_true_eq]
        rintro rfl
        rw [hok] at hother
        cases hother
      · simp
    | error reason =>
      refine .inr ⟨reason, rfl, ?_, ?_⟩
      · rw [hcount _ fun d hd => (of_decide_eq_true hd).1, List.count]
        refine List.countP_congr fun other _ => ?_
        by_cases hsame : other = raw
        · subst hsame
          simp [hok]
        · split <;> simp [hsame]
      · rw [List.count, hcount _ fun d hd => congrArg DroppedValue.attr (eq_of_beq hd), List.count]
        refine List.countP_congr fun other _ => ?_
        by_cases hsame : other = raw
        · subst hsame
          simp [hok]
        · split <;> simp [hsame]
  distinct := by
    intro name values hmem
    obtain ⟨-, given, -, rfl⟩ := mem_normalize.mp hmem
    exact nodup_normalizeValues List.nodup_nil

/-! ### ASCII text -/

theorem lowerLaws_ascii : LowerLaws Text.lower where
  again := Text.lower_lower
  first := by
    intro s
    simp [Text.lower, Function.comp_def, Text.isSpace_toLower]
  last := by
    intro s
    simp [Text.lower, Function.comp_def, Text.isSpace_toLower]
  separator := by
    intro s hs hmem
    rw [Text.lower, String.toList_ofList, List.mem_map] at hmem
    obtain ⟨c, hc, hat⟩ := hmem
    have hcode := Text.toNat_toLower c
    rw [hat] at hcode
    have hc' : c.toNat = 64 := by
      have h64 : '@'.toNat = 64 := rfl
      split_ifs at hcode <;> omega
    have hsame : c = '@' := Char.ext (UInt32.toNat_inj.mp hc')
    exact hs (hsame ▸ hc)

/-- What Sam's directory holds is normalised. -/
theorem normalizes_sam : Normalizes Text.lower
    [(eppn, [" Sam@CAMPUS.edu", "sam@elsewhere.edu"]), (affiliation, ["Student", "student", "sage"])]
    "campus.edu" (normalize Text.lower
      [(eppn, [" Sam@CAMPUS.edu", "sam@elsewhere.edu"]),
        (affiliation, ["Student", "student", "sage"])] "campus.edu") :=
  normalizes Text.lower lowerLaws_ascii _ (by decide) _

end Policy
end CampusID
