import CampusID.Lib.Runs
import CampusID.Keys.Rotation

/-!
# What a crash in the middle of a key operation leaves

The key directory is changed by whole operations, one after another, until one of them is
cut after some of its file steps.  The broker then starts again and reads the set of the
role.  What should survive the cut: every certificate that was published and is not the one
being retired is still published, and every published certificate has its own private key.

* `Keys.Sound` is what whole operations keep (`Sound.after`): a pair is there with both
  its files or not at all, the key in it is the certificate's, an additional pair is filed
  under its fingerprint, and the active one is not filed at all.
* `Keys.Plan` says, in a sound directory, which steps each operation takes.
* `Keys.survives_iff` is the result: a cut is survived exactly when it is not in the middle
  of a swap.  `promote` unlinks the incoming pair before it writes it over the active one,
  so from the first `unlink` to the last `write` the incoming certificate is nowhere, and
  after the active key is overwritten the old certificate stands beside the new key.
-/

namespace CampusID
namespace Keys

open Lib

/-! ## Pairs in the directory -/

theorem pairAt_eq_some {files : KeyFiles} {folder : KeyFolder} {stem : String}
    {material : SigningMaterial} :
    pairAt files folder stem = some material ↔
      files.read ⟨folder, stem, .key⟩ = some material.privatePem ∧
        files.read ⟨folder, stem, .crt⟩ = some material.certificatePem := by
  obtain ⟨privatePem, certificatePem⟩ := material
  unfold pairAt
  cases hkey : files.read ⟨folder, stem, .key⟩ with
  | none => simp
  | some k =>
    cases hcrt : files.read ⟨folder, stem, .crt⟩ with
    | none => simp
    | some c => simp

theorem pairAt_of_none {files : KeyFiles} {folder : KeyFolder} {stem : String}
    (suffix : KeySuffix) (h : files.read ⟨folder, stem, suffix⟩ = none) :
    pairAt files folder stem = none := by
  unfold pairAt
  cases suffix with
  | key => simp [h]
  | crt => cases files.read ⟨folder, stem, .key⟩ <;> simp [h]

theorem mem_keyStems {files : KeyFiles} {folder : KeyFolder} {stem : String} :
    stem ∈ keyStems files folder ↔ ∃ content, files.read ⟨folder, stem, .key⟩ = some content := by
  unfold keyStems
  rw [List.mem_insertionSort, List.mem_map, ← Files.mem_paths]
  constructor
  · rintro ⟨⟨f, st, suffix⟩, hmem, rfl⟩
    obtain ⟨hpath, hcond⟩ := List.mem_filter.mp hmem
    obtain ⟨rfl, rfl⟩ : f = folder ∧ suffix = .key := by simpa using hcond
    exact hpath
  · intro hpath
    exact ⟨⟨folder, stem, .key⟩, List.mem_filter.mpr ⟨hpath, by simp⟩, rfl⟩

/-- **What is loaded from the folder**: the whole pairs in it. -/
theorem mem_loadAdditional {files : KeyFiles} {name : String} {material : SigningMaterial} :
    material ∈ loadAdditional name files ↔
      ∃ stem, pairAt files (.additional name) stem = some material := by
  unfold loadAdditional
  rw [List.mem_filterMap]
  constructor
  · rintro ⟨stem, -, hpair⟩
    exact ⟨stem, hpair⟩
  · rintro ⟨stem, hpair⟩
    exact ⟨stem, mem_keyStems.mpr ⟨_, (pairAt_eq_some.mp hpair).1⟩, hpair⟩

/-- Every certificate on file that would be published. -/
def published (name : String) (files : KeyFiles) : List String :=
  ((pairAt files .root name).toList ++ loadAdditional name files).map (·.certificatePem)

theorem mem_published {files : KeyFiles} {name certificate : String} :
    certificate ∈ published name files ↔
      ∃ material, (pairAt files .root name = some material ∨
        ∃ stem, pairAt files (.additional name) stem = some material) ∧
        material.certificatePem = certificate := by
  unfold published
  rw [List.mem_map]
  refine exists_congr fun material => and_congr_left fun _ => ?_
  rw [List.mem_append, Option.mem_toList, mem_loadAdditional]

/-! ## The steps of writing and of unlinking a pair -/

/-- The steps of writing a pair. -/
def pairSteps (folder : KeyFolder) (stem : String) (material : SigningMaterial) :
    List (FileStep KeyPath String) :=
  [.touch ⟨folder, stem, .key⟩, .write ⟨folder, stem, .key⟩ material.privatePem,
    .write ⟨folder, stem, .crt⟩ material.certificatePem]

/-- The steps of unlinking a pair. -/
def dropSteps (folder : KeyFolder) (stem : String) : List (FileStep KeyPath String) :=
  [.unlink ⟨folder, stem, .key⟩, .unlink ⟨folder, stem, .crt⟩]

theorem writePair_apply (folder : KeyFolder) (stem : String) (material : SigningMaterial)
    (files : KeyFiles) :
    writePair ⟨folder, stem, .key⟩ ⟨folder, stem, .crt⟩ material files =
      (pairSteps folder stem material, .ok ()) := by
  simp [writePair, pairSteps]

theorem unlinkPair_apply (folder : KeyFolder) (stem : String) (files : KeyFiles) :
    unlinkPair ⟨folder, stem, .key⟩ ⟨folder, stem, .crt⟩ files =
      (dropSteps folder stem, .ok ()) := by
  simp [unlinkPair, dropSteps]

/-- Every step is on one pair. -/
def OnPair (folder : KeyFolder) (stem : String) (steps : List (FileStep KeyPath String)) : Prop :=
  ∀ step ∈ steps, step.path.folder = folder ∧ step.path.stem = stem

theorem onPair_pairSteps (folder : KeyFolder) (stem : String) (material : SigningMaterial) :
    OnPair folder stem (pairSteps folder stem material) := by
  simp [OnPair, pairSteps, FileStep.path]

theorem onPair_dropSteps (folder : KeyFolder) (stem : String) :
    OnPair folder stem (dropSteps folder stem) := by
  simp [OnPair, dropSteps, FileStep.path]

theorem OnPair.take {folder : KeyFolder} {stem : String} {steps : List (FileStep KeyPath String)}
    (h : OnPair folder stem steps) (k : Nat) : OnPair folder stem (steps.take k) :=
  fun step hstep => h step (List.mem_of_mem_take hstep)

theorem OnPair.read_of_ne {folder folder' : KeyFolder} {stem stem' : String}
    {steps : List (FileStep KeyPath String)} (h : OnPair folder stem steps)
    (hne : ¬ (folder' = folder ∧ stem' = stem)) (files : KeyFiles) (suffix : KeySuffix) :
    (files.applyAll steps).read ⟨folder', stem', suffix⟩ =
      files.read ⟨folder', stem', suffix⟩ := by
  refine Files.read_applyAll_of_forall fun step hstep heq => hne ?_
  obtain ⟨hf, hs⟩ := h step hstep
  exact ⟨by rw [← hf, ← heq], by rw [← hs, ← heq]⟩

theorem OnPair.pairAt_of_ne {folder folder' : KeyFolder} {stem stem' : String}
    {steps : List (FileStep KeyPath String)} (h : OnPair folder stem steps)
    (hne : ¬ (folder' = folder ∧ stem' = stem)) (files : KeyFiles) :
    pairAt (files.applyAll steps) folder' stem' = pairAt files folder' stem' := by
  unfold pairAt
  rw [h.read_of_ne hne, h.read_of_ne hne]

theorem read_pairSteps (folder : KeyFolder) (stem : String) (material : SigningMaterial)
    (files : KeyFiles) :
    (files.applyAll (pairSteps folder stem material)).read ⟨folder, stem, .key⟩ =
        some material.privatePem ∧
      (files.applyAll (pairSteps folder stem material)).read ⟨folder, stem, .crt⟩ =
        some material.certificatePem := by
  simp [pairSteps, Files.apply]

theorem pairAt_pairSteps (folder : KeyFolder) (stem : String) (material : SigningMaterial)
    (files : KeyFiles) :
    pairAt (files.applyAll (pairSteps folder stem material)) folder stem = some material :=
  pairAt_eq_some.mpr (read_pairSteps folder stem material files)

theorem pairAt_applyAll_pairSteps (folder folder' : KeyFolder) (stem stem' : String)
    (material : SigningMaterial) (files : KeyFiles) :
    pairAt (files.applyAll (pairSteps folder stem material)) folder' stem' =
      if folder' = folder ∧ stem' = stem then some material else pairAt files folder' stem' := by
  by_cases h : folder' = folder ∧ stem' = stem
  · obtain ⟨rfl, rfl⟩ := h
    rw [if_pos ⟨rfl, rfl⟩, pairAt_pairSteps]
  · rw [if_neg h, (onPair_pairSteps folder stem material).pairAt_of_ne h]

/-- The pairs when the writing of one that was not there is cut: it appears with the last
step. -/
theorem pairAt_take_pairSteps {folder : KeyFolder} {stem : String} (material : SigningMaterial)
    {files : KeyFiles} (hnone : pairAt files folder stem = none)
    (hcrt : files.read ⟨folder, stem, .crt⟩ = none) (k : Nat) (folder' : KeyFolder)
    (stem' : String) :
    pairAt (files.applyAll ((pairSteps folder stem material).take k)) folder' stem' =
      if folder' = folder ∧ stem' = stem ∧ 3 ≤ k then some material
      else pairAt files folder' stem' := by
  by_cases h : folder' = folder ∧ stem' = stem
  · obtain ⟨rfl, rfl⟩ := h
    by_cases hk : 3 ≤ k
    · rw [if_pos ⟨rfl, rfl, hk⟩, List.take_of_length_le hk, pairAt_pairSteps]
    · rw [if_neg (fun hc => hk hc.2.2), hnone]
      refine pairAt_of_none .crt ?_
      obtain rfl | rfl | rfl : k = 0 ∨ k = 1 ∨ k = 2 := by omega
      · simpa [pairSteps] using hcrt
      · simpa [pairSteps, Files.apply] using hcrt
      · simpa [pairSteps, Files.apply] using hcrt
  · rw [if_neg (fun hc => h ⟨hc.1, hc.2.1⟩),
      ((onPair_pairSteps folder stem material).take k).pairAt_of_ne h]

/-- When the writing over a pair is cut before its last step, the old certificate still
stands there, beside some key. -/
theorem pairAt_take_overwrite {folder : KeyFolder} {stem : String} (material : SigningMaterial)
    {files : KeyFiles} {old : SigningMaterial} (hold : pairAt files folder stem = some old) {k : Nat}
    (hk : k < 3) :
    ∃ privatePem, pairAt (files.applyAll ((pairSteps folder stem material).take k)) folder stem =
      some ⟨privatePem, old.certificatePem⟩ := by
  obtain ⟨hkey, hcrt⟩ := pairAt_eq_some.mp hold
  obtain rfl | rfl | rfl : k = 0 ∨ k = 1 ∨ k = 2 := by omega
  · refine ⟨old.privatePem, pairAt_eq_some.mpr ?_⟩
    simpa [pairSteps] using ⟨hkey, hcrt⟩
  · refine ⟨old.privatePem, pairAt_eq_some.mpr ?_⟩
    simpa [pairSteps, Files.apply, hkey] using hcrt
  · refine ⟨material.privatePem, pairAt_eq_some.mpr ?_⟩
    simpa [pairSteps, Files.apply] using hcrt

theorem pairAt_take_dropSteps (folder folder' : KeyFolder) (stem stem' : String) {k : Nat}
    (hk : 0 < k) (files : KeyFiles) :
    pairAt (files.applyAll ((dropSteps folder stem).take k)) folder' stem' =
      if folder' = folder ∧ stem' = stem then none else pairAt files folder' stem' := by
  by_cases h : folder' = folder ∧ stem' = stem
  · obtain ⟨rfl, rfl⟩ := h
    rw [if_pos ⟨rfl, rfl⟩]
    refine pairAt_of_none .key ?_
    rcases k with _ | _ | j
    · omega
    · simp [dropSteps, Files.apply]
    · simp [dropSteps, Files.apply]
  · rw [if_neg h, ((onPair_dropSteps folder stem).take k).pairAt_of_ne h]

theorem pairAt_applyAll_dropSteps (folder folder' : KeyFolder) (stem stem' : String)
    (files : KeyFiles) :
    pairAt (files.applyAll (dropSteps folder stem)) folder' stem' =
      if folder' = folder ∧ stem' = stem then none else pairAt files folder' stem' :=
  pairAt_take_dropSteps folder folder' stem stem' (show 0 < 2 by omega) files

theorem read_dropSteps (folder : KeyFolder) (stem : String) (suffix : KeySuffix)
    (files : KeyFiles) :
    (files.applyAll (dropSteps folder stem)).read ⟨folder, stem, suffix⟩ = none := by
  cases suffix <;> simp [dropSteps, Files.apply]

/-! ## What whole operations keep -/

section Operations

variable {Seed : Type} (x : X509 Seed) (directory : String)

/-- Pairs are whole, hold matching files and are filed under their fingerprints. -/
structure Tidy (files : KeyFiles) : Prop where
  /-- a pair is there with both its files, or with neither -/
  whole : ∀ folder stem, (∃ material, pairAt files folder stem = some material) ∨
    ∀ suffix, files.read ⟨folder, stem, suffix⟩ = none
  /-- the key of a pair is the key of its certificate -/
  owned : ∀ folder stem material, pairAt files folder stem = some material →
    x.owns material.privatePem material.certificatePem
  /-- additional pairs are filed under their fingerprint -/
  named : ∀ name stem material, pairAt files (.additional name) stem = some material →
    x.fingerprint material.certificatePem = stem

/-- What holds of a directory that whole operations have made: it is tidy, and the active
pair of a role is not filed. -/
structure Sound (files : KeyFiles) : Prop extends Tidy x files where
  apart : ∀ name material, pairAt files .root name = some material →
    pairAt files (.additional name) (x.fingerprint material.certificatePem) = none

theorem sound_empty : Sound x Files.empty where
  whole _ _ := Or.inr fun _ => rfl
  owned _ _ _ h := by cases h
  named _ _ _ h := by cases h
  apart _ _ h := by cases h

/-- The operations on the keys of a role.  A seed is for a pair the operation may mint. -/
inductive Op (Seed : Type) where
  | loadOrCreate (commonName : String) (generateMissing : Bool) (seed : Seed)
  | stage (commonName : String) (seed : Seed)
  | promote (certificateFingerprint : String) (seed seed' : Seed)
  | retire (certificateFingerprint : String) (seed seed' : Seed)

/-- The file steps of an operation. -/
def steps (name : String) (files : KeyFiles) : Op Seed → List (FileStep KeyPath String)
  | .loadOrCreate commonName generateMissing seed =>
    (loadOrCreate x directory name commonName generateMissing seed).steps files
  | .stage commonName seed => (stage x name commonName seed).steps files
  | .promote certificateFingerprint seed seed' =>
    (promote x directory name certificateFingerprint seed seed').steps files
  | .retire certificateFingerprint seed seed' =>
    (retire x directory name certificateFingerprint seed seed').steps files

/-- The pair an operation mints. -/
def minted : Op Seed → Option SigningMaterial
  | .loadOrCreate commonName _ seed => some (x.generateSelfSigned commonName seed)
  | .stage commonName seed => some (x.generateSelfSigned commonName seed)
  | _ => none

/-- What an operation mints has a fingerprint no certificate on file has. -/
def Fresh (files : KeyFiles) (op : Op Seed) : Prop :=
  ∀ material, minted x op = some material → ∀ folder stem other,
    pairAt files folder stem = some other →
    x.fingerprint other.certificatePem ≠ x.fingerprint material.certificatePem

/-- The operation swaps the active pair: it is a promotion, of a pair that is filed, in a
role that has an active one. -/
def Swaps (name : String) (files : KeyFiles) : Op Seed → Prop
  | .promote certificateFingerprint _ _ =>
    (∃ active, pairAt files .root name = some active) ∧
      ∃ material ∈ loadAdditional name files,
        x.fingerprint material.certificatePem = certificateFingerprint
  | _ => False

/-! ### What each script does in a sound directory -/

variable {x} {name : String} {files : KeyFiles}

theorem safe_apply {stem : String} (h : IsHex stem) (files : KeyFiles) :
    safe stem files = ([], .ok stem) := by
  obtain ⟨hne, hall⟩ := h
  have hslash : '/' ∉ stem.toList := fun hc => absurd (hall _ hc) (by decide)
  have hback : '\\' ∉ stem.toList := fun hc => absurd (hall _ hc) (by decide)
  have hdot : '.' ∉ stem.toList := fun hc => absurd (hall _ hc) (by decide)
  have hdots : stem ∉ ["", ".", ".."] := by
    intro hmem
    simp only [List.mem_cons, List.not_mem_nil, or_false] at hmem
    rcases hmem with rfl | rfl | rfl
    · exact hne rfl
    · exact hdot (by decide)
    · exact hdot (by decide)
  unfold safe
  rw [if_neg (by simp [hslash, hback, hdots])]
  rfl

theorem additionalPaths_apply (hx : x.Lawful) (material : SigningMaterial) (files : KeyFiles) :
    additionalPaths x name material files =
      ([], .ok (⟨.additional name, x.fingerprint material.certificatePem, .key⟩,
        ⟨.additional name, x.fingerprint material.certificatePem, .crt⟩)) := by
  unfold additionalPaths
  rw [Script.bind_of_ok (safe_apply (hx.hex _) files)]
  simp

theorem loadOrCreate_of_some {active : SigningMaterial}
    (h : pairAt files .root name = some active) (commonName : String) (generateMissing : Bool)
    (seed : Seed) :
    loadOrCreate x directory name commonName generateMissing seed files = ([], .ok active) := by
  simp [loadOrCreate, h]

theorem loadOrCreate_of_none (h : pairAt files .root name = none) (commonName : String)
    (seed : Seed) :
    loadOrCreate x directory name commonName true seed files =
      (pairSteps .root name (x.generateSelfSigned commonName seed),
        .ok (x.generateSelfSigned commonName seed)) := by
  simp only [loadOrCreate, Script.look_bind, h, if_true]
  rw [Script.bind_of_ok (writePair_apply _ _ _ _)]
  simp

theorem loadOrCreate_of_missing (h : pairAt files .root name = none) (commonName : String)
    (seed : Seed) :
    ∃ e, loadOrCreate x directory name commonName false seed files = ([], .error e) := by
  simp [loadOrCreate, h]

theorem loadOrCreateSet_of_some {active : SigningMaterial}
    (h : pairAt files .root name = some active) (commonName : String) (generateMissing : Bool)
    (seed : Seed) :
    loadOrCreateSet x directory name commonName generateMissing seed files =
      ([], .ok ⟨active, loadAdditional name files⟩) := by
  unfold loadOrCreateSet
  rw [Script.bind_of_ok (loadOrCreate_of_some directory h commonName generateMissing seed)]
  simp

theorem currentSet_of_some {active : SigningMaterial} (h : pairAt files .root name = some active)
    (seed : Seed) :
    currentSet x directory name seed files = ([], .ok ⟨active, loadAdditional name files⟩) := by
  have hsubject : subjectOf x directory name files =
      ([], .ok (x.commonName active.certificatePem)) := by
    simp [subjectOf, (pairAt_eq_some.mp h).2]
  unfold currentSet
  rw [Script.bind_of_ok hsubject, Files.applyAll_nil, loadOrCreateSet_of_some directory h]
  rfl

theorem currentSet_of_none (h : files.read ⟨.root, name, .crt⟩ = none) (seed : Seed) :
    ∃ e, currentSet x directory name seed files = ([], .error e) := by
  have hsubject : ∃ e, subjectOf x directory name files = ([], .error e) := by
    simp [subjectOf, h]
  obtain ⟨e, he⟩ := hsubject
  exact ⟨e, Script.bind_of_error he⟩

theorem find_eq_some {materials : List SigningMaterial} {certificateFingerprint : String}
    {material : SigningMaterial} (h : find x materials certificateFingerprint = some material) :
    material ∈ materials ∧ x.fingerprint material.certificatePem = certificateFingerprint :=
  ⟨List.mem_of_find?_eq_some h, by simpa using List.find?_some h⟩

theorem find_eq_none {materials : List SigningMaterial} {certificateFingerprint : String}
    (h : find x materials certificateFingerprint = none) :
    ¬ ∃ material ∈ materials, x.fingerprint material.certificatePem = certificateFingerprint := by
  rintro ⟨material, hmem, hfp⟩
  exact absurd hfp (by simpa using List.find?_eq_none.mp h material hmem)

/-- The steps of a swap. -/
def swapSteps (x : X509 Seed) (name : String) (outgoing incoming : SigningMaterial) :
    List (FileStep KeyPath String) :=
  pairSteps (.additional name) (x.fingerprint outgoing.certificatePem) outgoing ++
    (dropSteps (.additional name) (x.fingerprint incoming.certificatePem) ++
      pairSteps .root name incoming)

/-- **Which steps an operation takes** in a sound directory. -/
inductive Plan (x : X509 Seed) (name : String) (files : KeyFiles) :
    Op Seed → List (FileStep KeyPath String) → Prop
  | nothing {op : Op Seed} (h : ¬ Swaps x name files op) : Plan x name files op []
  | created {commonName : String} {seed : Seed} (h : pairAt files .root name = none) :
      Plan x name files (.loadOrCreate commonName true seed)
        (pairSteps .root name (x.generateSelfSigned commonName seed))
  | staged {commonName : String} {seed : Seed} :
      Plan x name files (.stage commonName seed)
        (pairSteps (.additional name)
          (x.fingerprint (x.generateSelfSigned commonName seed).certificatePem)
          (x.generateSelfSigned commonName seed))
  | swapped {seed seed' : Seed} {outgoing incoming : SigningMaterial}
      (hout : pairAt files .root name = some outgoing)
      (hin : pairAt files (.additional name) (x.fingerprint incoming.certificatePem) =
        some incoming) :
      Plan x name files (.promote (x.fingerprint incoming.certificatePem) seed seed')
        (swapSteps x name outgoing incoming)
  | retired {seed seed' : Seed} {material : SigningMaterial}
      (hin : pairAt files (.additional name) (x.fingerprint material.certificatePem) =
        some material) :
      Plan x name files (.retire (x.fingerprint material.certificatePem) seed seed')
        (dropSteps (.additional name) (x.fingerprint material.certificatePem))

theorem Sound.pairAt_fingerprint (hs : Sound x files) {material : SigningMaterial}
    (h : material ∈ loadAdditional name files) :
    pairAt files (.additional name) (x.fingerprint material.certificatePem) = some material := by
  obtain ⟨stem, hpair⟩ := mem_loadAdditional.mp h
  rwa [hs.named name stem material hpair]

theorem Tidy.read_of_pairAt (hs : Tidy x files) {folder : KeyFolder} {stem : String}
    (h : pairAt files folder stem = none) (suffix : KeySuffix) :
    files.read ⟨folder, stem, suffix⟩ = none := by
  rcases hs.whole folder stem with ⟨material, hpair⟩ | hnone
  · rw [h] at hpair
    cases hpair
  · exact hnone suffix

theorem plan_loadOrCreate (commonName : String) (generateMissing : Bool) (seed : Seed) :
    Plan x name files (.loadOrCreate commonName generateMissing seed)
      (steps x directory name files (.loadOrCreate commonName generateMissing seed)) := by
  simp only [steps, Script.steps]
  cases h : pairAt files .root name with
  | some active =>
    rw [loadOrCreate_of_some directory h]
    exact .nothing fun hswap => hswap
  | none =>
    cases generateMissing with
    | true =>
      rw [loadOrCreate_of_none directory h]
      exact .created h
    | false =>
      obtain ⟨e, he⟩ := loadOrCreate_of_missing (x := x) directory h commonName seed
      rw [he]
      exact .nothing fun hswap => hswap

theorem plan_stage (hx : x.Lawful) (commonName : String) (seed : Seed) :
    Plan x name files (.stage commonName seed)
      (steps x directory name files (.stage commonName seed)) := by
  have hstage : (stage x name commonName seed files).1 = pairSteps (.additional name)
      (x.fingerprint (x.generateSelfSigned commonName seed).certificatePem)
      (x.generateSelfSigned commonName seed) := by
    unfold stage
    rw [Script.bind_of_ok (additionalPaths_apply hx _ _),
      Script.bind_of_ok (writePair_apply _ _ _ _)]
    simp
  simp only [steps, Script.steps]
  rw [hstage]
  exact .staged

theorem plan_promote (hx : x.Lawful) (hs : Sound x files) (certificateFingerprint : String)
    (seed seed' : Seed) :
    Plan x name files (.promote certificateFingerprint seed seed')
      (steps x directory name files (.promote certificateFingerprint seed seed')) := by
  simp only [steps, Script.steps, promote]
  cases hout : pairAt files .root name with
  | none =>
    obtain ⟨e, he⟩ := currentSet_of_none (x := x) directory (hs.read_of_pairAt hout .crt) seed
    rw [Script.bind_of_error he]
    refine .nothing ?_
    rintro ⟨⟨active, hactive⟩, -⟩
    rw [hout] at hactive
    cases hactive
  | some outgoing =>
    rw [Script.bind_of_ok (currentSet_of_some directory hout seed)]
    simp only [Files.applyAll_nil, List.nil_append]
    cases hfind : find x (loadAdditional name files) certificateFingerprint with
    | none => exact .nothing fun hswap => find_eq_none hfind hswap.2
    | some incoming =>
      obtain ⟨hmem, rfl⟩ := find_eq_some hfind
      have hroot : pairAt ((files.applyAll (pairSteps (.additional name)
          (x.fingerprint outgoing.certificatePem) outgoing)).applyAll
          (dropSteps (.additional name) (x.fingerprint incoming.certificatePem)) |>.applyAll
          (pairSteps .root name incoming)) .root name = some incoming := pairAt_pairSteps _ _ _ _
      simp only [Script.bind_of_ok (additionalPaths_apply hx _ _),
        Script.bind_of_ok (writePair_apply _ _ _ _),
        Script.bind_of_ok (unlinkPair_apply _ _ _), Files.applyAll_nil, List.nil_append,
        currentSet_of_some directory hroot, List.append_nil]
      exact .swapped hout (hs.pairAt_fingerprint hmem)

theorem plan_retire (hx : x.Lawful) (hs : Sound x files) (certificateFingerprint : String)
    (seed seed' : Seed) :
    Plan x name files (.retire certificateFingerprint seed seed')
      (steps x directory name files (.retire certificateFingerprint seed seed')) := by
  simp only [steps, Script.steps, retire]
  cases hout : pairAt files .root name with
  | none =>
    obtain ⟨e, he⟩ := currentSet_of_none (x := x) directory (hs.read_of_pairAt hout .crt) seed
    rw [Script.bind_of_error he]
    exact .nothing fun hswap => hswap
  | some active =>
    rw [Script.bind_of_ok (currentSet_of_some directory hout seed)]
    simp only [Files.applyAll_nil, List.nil_append]
    by_cases hactive : x.fingerprint active.certificatePem = certificateFingerprint
    · rw [if_pos hactive]
      exact .nothing fun hswap => hswap
    rw [if_neg hactive]
    cases hfind : find x (loadAdditional name files) certificateFingerprint with
    | none => exact .nothing fun hswap => hswap
    | some material =>
      obtain ⟨hmem, rfl⟩ := find_eq_some hfind
      have hroot : pairAt (files.applyAll (dropSteps (.additional name)
          (x.fingerprint material.certificatePem))) .root name = some active := by
        rw [(onPair_dropSteps _ _).pairAt_of_ne (by simp), hout]
      simp only [Script.bind_of_ok (additionalPaths_apply hx _ _),
        Script.bind_of_ok (unlinkPair_apply _ _ _), Files.applyAll_nil, List.nil_append,
        currentSet_of_some directory hroot, List.append_nil]
      exact .retired (hs.pairAt_fingerprint hmem)

theorem plan_of_sound (hx : x.Lawful) (hs : Sound x files) (op : Op Seed) :
    Plan x name files op (steps x directory name files op) := by
  cases op with
  | loadOrCreate commonName generateMissing seed => exact plan_loadOrCreate directory _ _ _
  | stage commonName seed => exact plan_stage directory hx _ _
  | promote certificateFingerprint seed seed' => exact plan_promote directory hx hs _ _ _
  | retire certificateFingerprint seed seed' => exact plan_retire directory hx hs _ _ _

/-! ### What a whole operation keeps -/

theorem Tidy.written (ht : Tidy x files) {folder : KeyFolder} {stem : String}
    {material : SigningMaterial} (hown : x.owns material.privatePem material.certificatePem)
    (hname : ∀ name, folder = .additional name → x.fingerprint material.certificatePem = stem) :
    Tidy x (files.applyAll (pairSteps folder stem material)) := by
  refine ⟨fun folder' stem' => ?_, fun folder' stem' other h => ?_, fun name stem' other h => ?_⟩
  · by_cases hsame : folder' = folder ∧ stem' = stem
    · rw [pairAt_applyAll_pairSteps, if_pos hsame]
      exact Or.inl ⟨material, rfl⟩
    · rw [pairAt_applyAll_pairSteps, if_neg hsame]
      simp only [(onPair_pairSteps folder stem material).read_of_ne hsame]
      exact ht.whole folder' stem'
  · rw [pairAt_applyAll_pairSteps] at h
    split_ifs at h with hsame
    · obtain rfl := Option.some.inj h
      exact hown
    · exact ht.owned _ _ _ h
  · rw [pairAt_applyAll_pairSteps] at h
    split_ifs at h with hsame
    · obtain rfl := Option.some.inj h
      rw [hname name hsame.1.symm, hsame.2]
    · exact ht.named _ _ _ h

theorem Tidy.dropped (ht : Tidy x files) (folder : KeyFolder) (stem : String) :
    Tidy x (files.applyAll (dropSteps folder stem)) := by
  refine ⟨fun folder' stem' => ?_, fun folder' stem' other h => ?_, fun name stem' other h => ?_⟩
  · by_cases hsame : folder' = folder ∧ stem' = stem
    · obtain ⟨rfl, rfl⟩ := hsame
      exact Or.inr fun suffix => read_dropSteps _ _ suffix files
    · rw [pairAt_applyAll_dropSteps, if_neg hsame]
      simp only [(onPair_dropSteps folder stem).read_of_ne hsame]
      exact ht.whole folder' stem'
  · rw [pairAt_applyAll_dropSteps] at h
    split_ifs at h with hsame
    exact ht.owned _ _ _ h
  · rw [pairAt_applyAll_dropSteps] at h
    split_ifs at h with hsame
    exact ht.named _ _ _ h

theorem Fresh.pairAt_additional {op : Op Seed} (hf : Fresh x files op) (ht : Tidy x files)
    {material : SigningMaterial} (hm : minted x op = some material) (name : String) :
    pairAt files (.additional name) (x.fingerprint material.certificatePem) = none := by
  cases h : pairAt files (.additional name) (x.fingerprint material.certificatePem) with
  | none => rfl
  | some other => exact absurd (ht.named _ _ _ h) (hf material hm _ _ other h)

/-- **Whole operations keep the directory sound.** -/
theorem Sound.after (hx : x.Lawful) (hs : Sound x files) {op : Op Seed} (hf : Fresh x files op) :
    Sound x (files.applyAll (steps x directory name files op)) := by
  have hplan : Plan x name files op _ := plan_of_sound directory hx hs op
  generalize steps x directory name files op = ss at hplan
  cases hplan with
  | nothing => exact hs
  | @created commonName seed h =>
    refine ⟨hs.written (hx.own commonName seed) (by simp), fun name' material hpair => ?_⟩
    rw [pairAt_applyAll_pairSteps] at hpair
    rw [pairAt_applyAll_pairSteps, if_neg (by simp)]
    split_ifs at hpair with hsame
    · obtain rfl := Option.some.inj hpair
      exact hf.pairAt_additional hs.toTidy rfl name'
    · exact hs.apart _ _ hpair
  | @staged commonName seed =>
    refine ⟨hs.written (hx.own commonName seed) (by simp), fun name' material hpair => ?_⟩
    rw [pairAt_applyAll_pairSteps, if_neg (by simp)] at hpair
    rw [pairAt_applyAll_pairSteps, if_neg (fun hsame => hf _ rfl _ _ _ hpair hsame.2)]
    exact hs.apart _ _ hpair
  | @swapped _ _ outgoing incoming hout hin =>
    have hout' := hs.owned _ _ _ hout
    have hin' := hs.owned _ _ _ hin
    unfold swapSteps
    rw [Files.applyAll_append, Files.applyAll_append]
    refine ⟨((hs.written hout' (by simp)).dropped _ _).written hin' (by simp),
      fun name' material hpair => ?_⟩
    simp only [pairAt_applyAll_pairSteps, pairAt_applyAll_dropSteps, KeyFolder.additional.injEq,
      reduceCtorEq, false_and, if_false, true_and] at hpair ⊢
    split_ifs at hpair with hsame
    · obtain rfl := Option.some.inj hpair
      rw [if_pos ⟨hsame, rfl⟩]
    · rw [if_neg (fun h => hsame h.1), if_neg (fun h => hsame h.1)]
      exact hs.apart _ _ hpair
  | @retired _ _ material hin =>
    refine ⟨hs.dropped _ _, fun name' other hpair => ?_⟩
    rw [pairAt_applyAll_dropSteps, if_neg (by simp)] at hpair
    rw [pairAt_applyAll_dropSteps]
    split_ifs
    · rfl
    · exact hs.apart _ _ hpair

/-! ## Cuts -/

/-- The certificate is the one the operation retires. -/
def Retires (x : X509 Seed) (certificatePem : String) : Op Seed → Prop
  | .retire certificateFingerprint _ _ => x.fingerprint certificatePem = certificateFingerprint
  | _ => False

/-- **The cut is survived.**  When the operation has taken `k` of its steps and the set of
the role is then read, whatever it is read with, every certificate that was published and
is not being retired is in it, and every certificate in it has its own key.  Nothing is
read only where there was no pair in use and none may be minted. -/
def Survives (x : X509 Seed) (directory name : String) (files : KeyFiles) (op : Op Seed)
    (k : Nat) : Prop :=
  ∀ commonName generateMissing seed,
    match (loadOrCreateSet x directory name commonName generateMissing seed).result
      (files.applyAll ((steps x directory name files op).take k)) with
    | .ok keys => (∀ c ∈ published name files, ¬ Retires x c op → c ∈ keys.certificates) ∧
        ∀ material ∈ keys.active :: keys.additional,
          x.owns material.privatePem material.certificatePem
    | .error _ => generateMissing = false ∧ pairAt files .root name = none

/-- What is left of the pairs of a role: those that were published still are, they match,
and the active one is not lost. -/
structure Intact (x : X509 Seed) (name : String) (files : KeyFiles) (op : Op Seed)
    (left : KeyFiles) : Prop where
  kept : ∀ c ∈ published name files, ¬ Retires x c op → c ∈ published name left
  owned : ∀ folder stem material, pairAt left folder stem = some material →
    x.owns material.privatePem material.certificatePem
  active : pairAt left .root name = none → pairAt files .root name = none

theorem survives_of_intact (hx : x.Lawful) {op : Op Seed} {k : Nat}
    (h : Intact x name files op (files.applyAll ((steps x directory name files op).take k))) :
    Survives x directory name files op k := by
  intro commonName generateMissing seed
  generalize files.applyAll ((steps x directory name files op).take k) = left at h
  unfold Script.result
  cases hroot : pairAt left .root name with
  | some active =>
    rw [loadOrCreateSet_of_some directory hroot]
    refine ⟨fun c hc hr => ?_, fun material hmem => ?_⟩
    · have hpub := h.kept c hc hr
      unfold published at hpub
      rw [hroot] at hpub
      simpa [KeySet.certificates] using hpub
    · rcases List.mem_cons.mp hmem with rfl | hmem
      · exact h.owned _ _ _ hroot
      · obtain ⟨stem, hpair⟩ := mem_loadAdditional.mp hmem
        exact h.owned _ _ _ hpair
  | none =>
    cases generateMissing with
    | false =>
      obtain ⟨e, he⟩ := loadOrCreate_of_missing (x := x) directory hroot commonName seed
      unfold loadOrCreateSet
      rw [Script.bind_of_error he]
      exact ⟨rfl, h.active hroot⟩
    | true =>
      -- a pair is minted beside the additional ones
      have hset : (loadOrCreateSet x directory name commonName true seed left).2 =
          .ok ⟨x.generateSelfSigned commonName seed, loadAdditional name (left.applyAll
            (pairSteps .root name (x.generateSelfSigned commonName seed)))⟩ := by
        unfold loadOrCreateSet
        rw [Script.bind_of_ok (loadOrCreate_of_none directory hroot commonName seed)]
        simp
      rw [hset]
      have hadd : ∀ stem, pairAt (left.applyAll (pairSteps .root name
          (x.generateSelfSigned commonName seed))) (.additional name) stem =
          pairAt left (.additional name) stem := fun stem =>
        (onPair_pairSteps _ _ _).pairAt_of_ne (by simp) left
      refine ⟨fun c hc hr => ?_, fun material hmem => ?_⟩
      · obtain ⟨material, hat, rfl⟩ := mem_published.mp (h.kept c hc hr)
        rcases hat with hat | ⟨stem, hat⟩
        · rw [hroot] at hat
          cases hat
        · refine List.mem_cons_of_mem _ (List.mem_map.mpr ⟨material, ?_, rfl⟩)
          exact mem_loadAdditional.mpr ⟨stem, by rw [hadd, hat]⟩
      · rcases List.mem_cons.mp hmem with rfl | hmem
        · exact hx.own commonName seed
        · obtain ⟨stem, hpair⟩ := mem_loadAdditional.mp hmem
          rw [hadd] at hpair
          exact h.owned _ _ _ hpair

/-! ### Where a cut does no harm -/

theorem Tidy.intact_refl (ht : Tidy x files) (op : Op Seed) : Intact x name files op files :=
  ⟨fun _ hc _ => hc, ht.owned, id⟩

theorem Tidy.intact_pairSteps (ht : Tidy x files) (op : Op Seed) {folder : KeyFolder}
    {stem : String} {material : SigningMaterial}
    (hown : x.owns material.privatePem material.certificatePem)
    (hnone : pairAt files folder stem = none) (k : Nat) :
    Intact x name files op (files.applyAll ((pairSteps folder stem material).take k)) := by
  have hpairs := pairAt_take_pairSteps material hnone (ht.read_of_pairAt hnone .crt) k
  have hkeep : ∀ folder' stem' other, pairAt files folder' stem' = some other →
      pairAt (files.applyAll ((pairSteps folder stem material).take k)) folder' stem' =
        some other := by
    intro folder' stem' other h
    rw [hpairs, if_neg, h]
    rintro ⟨rfl, rfl, -⟩
    rw [hnone] at h
    cases h
  refine ⟨fun c hc _ => ?_, fun folder' stem' other h => ?_, fun h => ?_⟩
  · obtain ⟨other, hat, rfl⟩ := mem_published.mp hc
    refine mem_published.mpr ⟨other, ?_, rfl⟩
    exact hat.imp (hkeep _ _ _) fun ⟨stem', hat⟩ => ⟨stem', hkeep _ _ _ hat⟩
  · rw [hpairs] at h
    split_ifs at h
    · obtain rfl := Option.some.inj h
      exact hown
    · exact ht.owned _ _ _ h
  · cases hroot : pairAt files .root name with
    | none => rfl
    | some other =>
      rw [hkeep _ _ _ hroot] at h
      cases h

theorem Tidy.intact_dropSteps (ht : Tidy x files) {op : Op Seed} {material : SigningMaterial}
    (hin : pairAt files (.additional name) (x.fingerprint material.certificatePem) =
      some material) (hretires : Retires x material.certificatePem op) (k : Nat) :
    Intact x name files op (files.applyAll ((dropSteps (.additional name)
      (x.fingerprint material.certificatePem)).take k)) := by
  rcases Nat.eq_zero_or_pos k with rfl | hk
  · exact ht.intact_refl op
  have hpairs := fun folder stem => pairAt_take_dropSteps (.additional name) folder
    (x.fingerprint material.certificatePem) stem hk files
  refine ⟨fun c hc hr => ?_, fun folder stem other h => ?_, fun h => ?_⟩
  · obtain ⟨other, hat, rfl⟩ := mem_published.mp hc
    refine mem_published.mpr ⟨other, ?_, rfl⟩
    rcases hat with hat | ⟨stem, hat⟩
    · exact Or.inl (by rw [hpairs, if_neg (by simp), hat])
    · refine Or.inr ⟨stem, ?_⟩
      rw [hpairs, if_neg, hat]
      rintro ⟨-, rfl⟩
      obtain rfl : material = other := Option.some.inj (hin.symm.trans hat)
      exact hr hretires
  · rw [hpairs] at h
    split_ifs at h
    exact ht.owned _ _ _ h
  · rwa [hpairs, if_neg (by simp)] at h

theorem Sound.intact_swapSteps (hs : Sound x files) (op : Op Seed)
    {outgoing incoming : SigningMaterial} (hout : pairAt files .root name = some outgoing)
    (hin : pairAt files (.additional name) (x.fingerprint incoming.certificatePem) =
      some incoming) :
    Intact x name files op (files.applyAll (swapSteps x name outgoing incoming)) := by
  have hne : x.fingerprint outgoing.certificatePem ≠ x.fingerprint incoming.certificatePem := by
    intro heq
    have := hs.apart _ _ hout
    rw [heq, hin] at this
    cases this
  have hpairs : ∀ folder stem, pairAt (files.applyAll (swapSteps x name outgoing incoming)) folder
      stem = if folder = .root ∧ stem = name then some incoming
        else if folder = .additional name ∧ stem = x.fingerprint incoming.certificatePem then none
        else if folder = .additional name ∧ stem = x.fingerprint outgoing.certificatePem then
          some outgoing
        else pairAt files folder stem := by
    intro folder stem
    unfold swapSteps
    rw [Files.applyAll_append, Files.applyAll_append, pairAt_applyAll_pairSteps,
      pairAt_applyAll_dropSteps, pairAt_applyAll_pairSteps]
  refine ⟨fun c hc _ => ?_, fun folder stem other h => ?_, fun h => ?_⟩
  · obtain ⟨other, hat, rfl⟩ := mem_published.mp hc
    refine mem_published.mpr ⟨other, ?_, rfl⟩
    rcases hat with hat | ⟨stem, hat⟩
    · -- the outgoing pair is filed
      obtain rfl : outgoing = other := Option.some.inj (hout.symm.trans hat)
      refine Or.inr ⟨x.fingerprint outgoing.certificatePem, ?_⟩
      rw [hpairs, if_neg (by simp), if_neg (by simpa using hne), if_pos ⟨rfl, rfl⟩]
    · have hstem := hs.named _ _ _ hat
      by_cases hsame : stem = x.fingerprint incoming.certificatePem
      · -- the incoming pair is in use
        subst hsame
        obtain rfl : incoming = other := Option.some.inj (hin.symm.trans hat)
        exact Or.inl (by rw [hpairs, if_pos ⟨rfl, rfl⟩])
      · refine Or.inr ⟨stem, ?_⟩
        rw [hpairs, if_neg (by simp), if_neg (by simpa using hsame), if_neg, hat]
        rintro ⟨-, rfl⟩
        rw [hs.apart _ _ hout] at hat
        cases hat
  · rw [hpairs] at h
    split_ifs at h
    · obtain rfl := Option.some.inj h
      exact hs.owned _ _ _ hin
    · obtain rfl := Option.some.inj h
      exact hs.owned _ _ _ hout
    · exact hs.owned _ _ _ h
  · rw [hpairs, if_pos ⟨rfl, rfl⟩] at h
    cases h

/-! ### Where it does -/

/-- **In the middle of a swap the incoming certificate is not published.**  From the first
`unlink` to the last `write` it is neither filed nor in use. -/
theorem Sound.not_survives (hs : Sound x files) {seed seed' : Seed}
    {outgoing incoming : SigningMaterial} (hout : pairAt files .root name = some outgoing)
    (hin : pairAt files (.additional name) (x.fingerprint incoming.certificatePem) = some incoming)
    (hsteps : steps x directory name files
      (.promote (x.fingerprint incoming.certificatePem) seed seed') =
        swapSteps x name outgoing incoming) {k : Nat} (h3 : 3 < k) (h8 : k < 8) :
    ¬ Survives x directory name files
      (.promote (x.fingerprint incoming.certificatePem) seed seed') k := by
  have hne : incoming.certificatePem ≠ outgoing.certificatePem := by
    intro heq
    have := hs.apart _ _ hout
    rw [← heq, hin] at this
    cases this
  -- the cut falls after the outgoing pair is filed
  obtain ⟨j, rfl⟩ : ∃ j, k = 3 + j := ⟨k - 3, by omega⟩
  have htake : (swapSteps x name outgoing incoming).take (3 + j) =
      pairSteps (.additional name) (x.fingerprint outgoing.certificatePem) outgoing ++
        ((dropSteps (.additional name) (x.fingerprint incoming.certificatePem)).take j ++
          (pairSteps .root name incoming).take (j - 2)) := by
    unfold swapSteps
    rw [show 3 + j = (pairSteps (.additional name) (x.fingerprint outgoing.certificatePem)
      outgoing).length + j from rfl, List.take_length_add_append, List.take_append]
    rfl
  intro hsurvives
  have h := hsurvives "" true seed
  rw [hsteps, htake, Files.applyAll_append, Files.applyAll_append] at h
  generalize hfiled : files.applyAll (pairSteps (.additional name)
    (x.fingerprint outgoing.certificatePem) outgoing) = filed at h
  generalize hdropped : filed.applyAll ((dropSteps (.additional name)
    (x.fingerprint incoming.certificatePem)).take j) = dropped at h
  have hroot : pairAt dropped .root name = some outgoing := by
    rw [← hdropped, pairAt_take_dropSteps _ _ _ _ (by omega), if_neg (by simp), ← hfiled,
      pairAt_applyAll_pairSteps, if_neg (by simp), hout]
  obtain ⟨privatePem, hactive⟩ := pairAt_take_overwrite incoming hroot (show j - 2 < 3 by omega)
  unfold Script.result at h
  rw [loadOrCreateSet_of_some directory hactive] at h
  have hpub : incoming.certificatePem ∈ published name files :=
    mem_published.mpr ⟨incoming, Or.inr ⟨_, hin⟩, rfl⟩
  rcases List.mem_cons.mp (h.1 _ hpub id) with heq | hmem
  · exact hne heq
  · obtain ⟨material, hmem, heq⟩ := List.mem_map.mp hmem
    obtain ⟨stem, hpair⟩ := mem_loadAdditional.mp hmem
    rw [((onPair_pairSteps .root name incoming).take _).pairAt_of_ne (by simp), ← hdropped,
      pairAt_take_dropSteps _ _ _ _ (by omega)] at hpair
    split_ifs at hpair with hstem
    rw [← hfiled, pairAt_applyAll_pairSteps] at hpair
    split_ifs at hpair with hstem'
    · obtain rfl := Option.some.inj hpair
      exact hne heq.symm
    · exact hstem ⟨rfl, by rw [← hs.named _ _ _ hpair, heq]⟩

/-! ## Whole runs -/

/-- A whole operation on the keys of a role. -/
def wholeStep (x : X509 Seed) (directory : String) (files : KeyFiles) (op : String × Op Seed) :
    KeyFiles :=
  files.applyAll (steps x directory op.1 files op.2)

/-- **When a cut is survived.**  In a directory that whole operations have made, whichever
roles they were on, an operation cut after `k` steps is survived exactly when it is not a
swap cut between its first `unlink` and its last `write`. -/
theorem survives_iff (hx : x.Lawful) {ops : List (String × Op Seed)}
    (hrun : Run (fun files op => Fresh x files op.2) (wholeStep x directory) Files.empty ops files)
    (name : String) {op : Op Seed} (hf : Fresh x files op) (k : Nat) :
    Survives x directory name files op k ↔ ¬ (Swaps x name files op ∧ 3 < k ∧ k < 8) := by
  have hs : Sound x files :=
    hrun.invariant (fun _ _ hs hf => hs.after directory hx hf) (sound_empty x)
  have hplan : Plan x name files op _ := plan_of_sound directory hx hs op
  generalize hss : steps x directory name files op = ss at hplan
  cases hplan with
  | nothing hswap =>
    refine iff_of_true (survives_of_intact directory hx ?_) fun h => hswap h.1
    rw [hss, List.take_nil]
    exact hs.intact_refl op
  | @created commonName seed hnone =>
    refine iff_of_true (survives_of_intact directory hx ?_) fun h => h.1
    rw [hss]
    exact hs.intact_pairSteps _ (hx.own commonName seed) hnone k
  | @staged commonName seed =>
    refine iff_of_true (survives_of_intact directory hx ?_) fun h => h.1
    rw [hss]
    exact hs.intact_pairSteps _ (hx.own commonName seed)
      (hf.pairAt_additional hs.toTidy rfl name) k
  | @swapped seed seed' outgoing incoming hout hin =>
    by_cases hk : 3 < k ∧ k < 8
    · refine iff_of_false (hs.not_survives directory hout hin hss hk.1 hk.2) fun h => h ⟨?_, hk⟩
      exact ⟨⟨outgoing, hout⟩, incoming, mem_loadAdditional.mpr ⟨_, hin⟩, rfl⟩
    · refine iff_of_true (survives_of_intact directory hx ?_) fun h => hk h.2
      rw [hss]
      by_cases h3 : k ≤ 3
      · unfold swapSteps
        rw [List.take_append_of_le_length h3]
        exact hs.intact_pairSteps _ (hs.owned _ _ _ hout) (hs.apart _ _ hout) k
      · rw [List.take_of_length_le (show 8 ≤ k by omega)]
        exact hs.intact_swapSteps _ hout hin
  | @retired seed seed' material hin =>
    refine iff_of_true (survives_of_intact directory hx ?_) fun h => h.1
    rw [hss]
    have hretires : Retires x material.certificatePem
        (.retire (x.fingerprint material.certificatePem) seed seed') := rfl
    exact hs.intact_dropSteps hin hretires k

end Operations

/-! ### A swap that is cut -/

/-- Certificates that carry a number, and are told apart by it. -/
def numbered : X509 String where
  generateSelfSigned _ number := ⟨"private key " ++ number, "certificate " ++ number⟩
  fingerprint certificatePem := String.ofList ('0' :: certificatePem.toList.filter Char.isDigit)
  commonName _ := "campusid"
  owns privatePem certificatePem :=
    privatePem.toList.filter Char.isDigit = certificatePem.toList.filter Char.isDigit

theorem numbered_lawful : numbered.Lawful where
  own commonName number := by
    have hkey : "private key ".toList.filter Char.isDigit = [] := by decide
    have hcrt : "certificate ".toList.filter Char.isDigit = [] := by decide
    show ("private key " ++ number).toList.filter Char.isDigit =
      ("certificate " ++ number).toList.filter Char.isDigit
    rw [String.toList_append, String.toList_append, List.filter_append, List.filter_append, hkey,
      hcrt]
  hex certificatePem := by
    refine ⟨fun h => ?_, fun c hc => ?_⟩
    · have := congrArg String.toList h
      simp [numbered] at this
    · simp only [numbered, String.toList_ofList, List.mem_cons, List.mem_filter] at hc
      rcases hc with rfl | ⟨-, hc⟩
      · exact Or.inl rfl
      · exact Or.inl hc

/-- A role with a pair in use and its staged successor. -/
def stagedOps : List (String × Op String) :=
  [("sp", .loadOrCreate "campusid" true "1"), ("sp", .stage "campusid" "2")]

/-- The directory they make. -/
def stagedFiles : KeyFiles := stagedOps.foldl (wholeStep numbered "keys") Files.empty

theorem run_stagedOps :
    Run (fun files op => Fresh numbered files op.2) (wholeStep numbered "keys") Files.empty
      stagedOps stagedFiles := by
  refine .cons (fun _ _ _ _ _ h => by cases h) (.cons ?_ (.nil _))
  rintro material hm folder stem other hpair
  obtain rfl : _ = material := Option.some.inj hm
  have hfiles : wholeStep numbered "keys" Files.empty
      ("sp", .loadOrCreate "campusid" true "1") = Files.empty.applyAll
        (pairSteps .root "sp" (numbered.generateSelfSigned "campusid" "1")) := rfl
  rw [hfiles, pairAt_applyAll_pairSteps] at hpair
  split_ifs at hpair
  · obtain rfl := Option.some.inj hpair
    decide
  · cases hpair

/-- Cut after its seventh step, the promotion of the successor leaves the old certificate
beside the new key, and the new certificate nowhere. -/
theorem not_survives_overwritten :
    ∃ ops files op k,
      Run (fun files op => Fresh numbered files op.2) (wholeStep numbered "keys") Files.empty ops
          files ∧
        Fresh numbered files op ∧ ¬ Survives numbered "keys" "sp" files op k := by
  refine ⟨stagedOps, stagedFiles, .promote "02" "3" "4", 7, run_stagedOps,
    (fun _ h => by cases h), fun h => ?_⟩
  have hcut := (h "campusid" true "5").1 "certificate 2" (by decide) id
  exact absurd hcut (by decide)

/-- Cut after its third step, it is survived. -/
theorem survives_filed :
    Survives numbered "keys" "sp" stagedFiles (.promote "02" "3" "4") 3 :=
  (survives_iff "keys" numbered_lawful run_stagedOps "sp" (fun _ h => by cases h) 3).mpr
    fun h => absurd h.2.1 (by decide)

end Keys
end CampusID
