import CampusID.Text
import CampusID.Lib.Files

/-!
# SP key material and its rotation

A key directory holds, for every role, the pair in use beside a folder of the pairs that
are published without being used.  A pair is two files, `.key` and `.crt`, and the folder
names its pairs by fingerprint.

`loadOrCreate`, `stage`, `promote` and `retire` are scripts over the directory
(`Lib.Files`): each `touch`, `write` and `unlink` is a step of its own, in the order of the
source.  A folder that is not there lists nothing, so `mkdir` is no step.

What `cryptography` does is a parameter, `X509`: minting a self-signed pair from a seed,
reading the fingerprint and the common name off a certificate, and which private key a
certificate belongs to.
-/

namespace CampusID

open Lib

/-- A private key and its certificate. -/
structure SigningMaterial where
  privatePem : String
  certificatePem : String
  deriving DecidableEq

/-- Where the files of a pair are: beside each other in the directory, or in the folder of
additional pairs of a role. -/
inductive KeyFolder where
  | root
  | additional (name : String)
  deriving DecidableEq

/-- The two files of a pair. -/
inductive KeySuffix where
  | key
  | crt
  deriving DecidableEq

/-- A path in the key directory. -/
structure KeyPath where
  folder : KeyFolder
  stem : String
  suffix : KeySuffix
  deriving DecidableEq

/-- The suffix as it is written. -/
def KeySuffix.text : KeySuffix → String
  | .key => ".key"
  | .crt => ".crt"

/-- `str(path)`. -/
def KeyPath.text (directory : String) (path : KeyPath) : String :=
  match path.folder with
  | .root => directory ++ "/" ++ path.stem ++ path.suffix.text
  | .additional name =>
    directory ++ "/" ++ name ++ "-additional/" ++ path.stem ++ path.suffix.text

/-- What the key functions raise. -/
inductive KeyFailure where
  | keyMaterialMissing (text : String)
  | fileNotFoundError (text : String)
  | keyError (text : String)
  | valueError (text : String)
  deriving DecidableEq

/-- What the `cryptography` package does. -/
structure X509 (Seed : Type) where
  generateSelfSigned : (commonName : String) → Seed → SigningMaterial
  fingerprint : (certificatePem : String) → String
  commonName : (certificatePem : String) → String
  owns : (privatePem certificatePem : String) → Prop

/-- Lowercase hexadecimal, and not empty. -/
def IsHex (s : String) : Prop :=
  s ≠ "" ∧ ∀ c ∈ s.toList, c.isDigit ∨ ('a' ≤ c ∧ c ≤ 'f')

/-- What the code relies on: a minted certificate is the certificate of the key it was
minted with, and a fingerprint is hexadecimal. -/
structure X509.Lawful {Seed : Type} (x : X509 Seed) : Prop where
  own : ∀ commonName seed, x.owns (x.generateSelfSigned commonName seed).privatePem
    (x.generateSelfSigned commonName seed).certificatePem
  hex : ∀ certificatePem, IsHex (x.fingerprint certificatePem)

/-- The keys of one role: the one in use, and everything published beside it. -/
structure KeySet where
  active : SigningMaterial
  additional : List SigningMaterial
  deriving DecidableEq

/-- Every certificate to publish, the active one first. -/
def KeySet.certificates (keys : KeySet) : List String :=
  keys.active.certificatePem :: keys.additional.map (·.certificatePem)

/-- The key directory. -/
abbrev KeyFiles : Type := Files KeyPath String

/-- Code over the key directory. -/
abbrev KeyScript (α : Type) : Type := Script KeyPath String KeyFailure α

namespace Keys

/-! ## Reading pairs -/

/-- The pair with this stem, when both of its files are there. -/
def pairAt (files : KeyFiles) (folder : KeyFolder) (stem : String) : Option SigningMaterial := do
  let privatePem ← files.read ⟨folder, stem, .key⟩
  let certificatePem ← files.read ⟨folder, stem, .crt⟩
  return ⟨privatePem, certificatePem⟩

/-- The stems of `sorted(folder.glob("*.key"))`. -/
def keyStems (files : KeyFiles) (folder : KeyFolder) : List String :=
  ((files.paths.filter fun path => path.folder = folder ∧ path.suffix = .key).map
    (·.stem)).insertionSort fun a b => a ++ ".key" ≤ b ++ ".key"

/-- `_load_additional`. -/
def loadAdditional (name : String) (files : KeyFiles) : List SigningMaterial :=
  -- a key with no certificate is skipped
  (keyStems files (.additional name)).filterMap (pairAt files (.additional name))

/-! ## The scripts -/

section Scripts

variable {Seed : Type} (x : X509 Seed) (directory : String)

/-- `_write`. -/
def writePair (keyPath certificatePath : KeyPath) (material : SigningMaterial) :
    KeyScript Unit := do
  Script.step (.touch keyPath)
  Script.step (.write keyPath material.privatePem)
  Script.step (.write certificatePath material.certificatePem)

/-- `_unlink` of a pair. -/
def unlinkPair (keyPath certificatePath : KeyPath) : KeyScript Unit := do
  Script.step (.unlink keyPath)
  Script.step (.unlink certificatePath)

/-- `_safe`. -/
def safe (stem : String) : KeyScript String :=
  if '/' ∈ stem.toList ∨ '\\' ∈ stem.toList ∨ stem ∈ ["", ".", ".."] then
    Script.raise (.valueError ("refusing to use " ++ Text.pyRepr stem ++ " as a filename"))
  else return stem

/-- `_additional_paths`: where one published pair that is not in use lives. -/
def additionalPaths (name : String) (material : SigningMaterial) :
    KeyScript (KeyPath × KeyPath) := do
  let stem ← safe (x.fingerprint material.certificatePem)
  return (⟨.additional name, stem, .key⟩, ⟨.additional name, stem, .crt⟩)

/-- `_find`. -/
def find (materials : List SigningMaterial) (certificateFingerprint : String) :
    Option SigningMaterial :=
  materials.find? fun material => x.fingerprint material.certificatePem = certificateFingerprint

/-- `load_or_create`. -/
def loadOrCreate (name commonName : String) (generateMissing : Bool) (seed : Seed) :
    KeyScript SigningMaterial := do
  let found ← Script.look fun files => pairAt files .root name
  match found with
  | some material => return material
  | none =>
    if generateMissing then
      let material := x.generateSelfSigned commonName seed
      writePair ⟨.root, name, .key⟩ ⟨.root, name, .crt⟩ material
      return material
    else
      Script.raise (.keyMaterialMissing (KeyPath.text directory ⟨.root, name, .key⟩ ++
        " is absent and this deployment does not generate keys. " ++
        "Provision the key material before starting, or every node will publish " ++
        "a different identity. See docs/runbooks/key-rotation.md."))

/-- `load_or_create_set`. -/
def loadOrCreateSet (name commonName : String) (generateMissing : Bool) (seed : Seed) :
    KeyScript KeySet := do
  let active ← loadOrCreate x directory name commonName generateMissing seed
  let additional ← Script.look (loadAdditional name)
  return ⟨active, additional⟩

/-- `_subject_of`: the common name on the active certificate. -/
def subjectOf (name : String) : KeyScript String := do
  let certificate ← Script.look fun files => files.read ⟨.root, name, .crt⟩
  match certificate with
  | none => Script.raise (.fileNotFoundError
      (KeyPath.text directory ⟨.root, name, .crt⟩ ++ " does not exist; there is nothing to rotate"))
  | some certificatePem => return x.commonName certificatePem

/-- The set of a role whose active pair is already there: `load_or_create_set` under the
subject of the active certificate. -/
def currentSet (name : String) (seed : Seed) : KeyScript KeySet := do
  let commonName ← subjectOf x directory name
  loadOrCreateSet x directory name commonName true seed

/-- `stage`. -/
def stage (name commonName : String) (seed : Seed) : KeyScript SigningMaterial := do
  let material := x.generateSelfSigned commonName seed
  let paths ← additionalPaths x name material
  writePair paths.1 paths.2 material
  return material

/-- `promote`.  The seeds are for the pair it would mint if the active one were gone. -/
def promote (name certificateFingerprint : String) (seed seed' : Seed) : KeyScript KeySet := do
  let current ← currentSet x directory name seed
  match find x current.additional certificateFingerprint with
  | none => Script.raise (.keyError ("no published key with fingerprint " ++ certificateFingerprint))
  | some incoming =>
    let outgoingPaths ← additionalPaths x name current.active
    writePair outgoingPaths.1 outgoingPaths.2 current.active
    let incomingPaths ← additionalPaths x name incoming
    unlinkPair incomingPaths.1 incomingPaths.2
    writePair ⟨.root, name, .key⟩ ⟨.root, name, .crt⟩ incoming
    currentSet x directory name seed'

/-- `retire`. -/
def retire (name certificateFingerprint : String) (seed seed' : Seed) : KeyScript KeySet := do
  let current ← currentSet x directory name seed
  if x.fingerprint current.active.certificatePem = certificateFingerprint then
    Script.raise (.valueError
      (certificateFingerprint ++ " is the active key; promote another one first"))
  else
    match find x current.additional certificateFingerprint with
    | none =>
      Script.raise (.keyError ("no published key with fingerprint " ++ certificateFingerprint))
    | some material =>
      let paths ← additionalPaths x name material
      unlinkPair paths.1 paths.2
      currentSet x directory name seed'

end Scripts

end Keys
end CampusID
