import CampusID.Lib.Dict
import CampusID.Lib.Effects
import CampusID.Lib.Utf8
import CampusID.Saml.Stores

/-!
# Metadata and its expiry

`metadata_idp.py` takes one entity out of a document, single or aggregate, and refuses it once its
`validUntil` has passed; the registry parses a stored document again on every call.

What is asked of both is that nothing is trusted past a `validUntil` above it either, and a document
does keep that exactly when the entity carries a `validUntil` of its own that is not later
(`stale_metadata_iff`): the code looks at the entity alone, and it walks away from the
`EntitiesDescriptor`s when it flattens an aggregate (`stale_metadata`).

Parsing XML, the schema, dates, durations and certificates are arguments.
-/

namespace CampusID
namespace Saml
namespace Metadata

open Lib Element Eff

/-! ## What is used from outside -/

/-- What `validate_metadata` raises. -/
inductive SchemaError where
  | documentInvalid (text : String)
  | xmlSyntaxError (text : String)

/-- A `datetime` with a timezone: its instant, and `isoformat()`. -/
structure Datetime where
  instant : Int
  isoformat : String
  deriving DecidableEq, Repr

/-- What `datetime.fromisoformat` makes of a text. -/
inductive IsoText where
  | invalid
  | naive
  | aware (parsed : Datetime)
  deriving DecidableEq, Repr

/-- What is used from outside: the schema, the hardened parser, `fromisoformat`,
`textwrap.wrap(·, 64)`, loading a certificate or the text of its `ValueError`, the digits of `\d`, and
`timedelta` of the texts of a match in microseconds (`none` is an `OverflowError`). -/
structure MetadataLibrary where
  validateMetadata : Bytes → Except SchemaError Unit
  fromstring : Bytes → Except String Element
  fromisoformat : String → IsoText
  wrap : String → List String
  loadCertificate : String → Except String Unit
  isDecimal : Char → Bool
  timedelta : (days hours minutes seconds : String) → Option Int

/-- `ReasonCode`, as far as it is about metadata. -/
inductive MetadataReason where
  | metadataInvalid
  | metadataExpired
  deriving DecidableEq, Repr

/-- What is raised: a `MetadataRejected`, or the `OverflowError` of a duration. -/
inductive MetadataRaised where
  | rejected (reason : MetadataReason) (detail : String)
  | overflowError
  deriving DecidableEq, Repr

/-- `raise MetadataRejected(ReasonCode.METADATA_INVALID, detail)`. -/
def invalid {α : Type} (detail : String) : Except MetadataRaised α :=
  .error (.rejected .metadataInvalid detail)

/-! ## Names -/

/-- `MD`. -/
def md : String := "urn:oasis:names:tc:SAML:2.0:metadata"

/-- `Q_ENTITY_DESCRIPTOR`. -/
def qEntityDescriptor : QName := ⟨md, "EntityDescriptor"⟩

/-- `Q_ENTITIES_DESCRIPTOR`. -/
def qEntitiesDescriptor : QName := ⟨md, "EntitiesDescriptor"⟩

/-- `Q_IDP_SSO_DESCRIPTOR`. -/
def qIdpSsoDescriptor : QName := ⟨md, "IDPSSODescriptor"⟩

/-- `Q_KEY_DESCRIPTOR`. -/
def qKeyDescriptor : QName := ⟨md, "KeyDescriptor"⟩

/-- `Q_SSO_SERVICE`. -/
def qSsoService : QName := ⟨md, "SingleSignOnService"⟩

/-- `Q_SLO_SERVICE`. -/
def qSloService : QName := ⟨md, "SingleLogoutService"⟩

/-- `Q_X509_CERTIFICATE`. -/
def qX509Certificate : QName := ⟨ds, "X509Certificate"⟩

/-- `IdentityProviderDescriptor`. -/
structure IdentityProviderDescriptor where
  entityId : String
  ssoBindings : List (String × String)
  signingCertificates : List String
  sloUrl : Option String := none
  wantAuthnRequestsSigned : Bool := false
  validUntil : Option Datetime := none
  cacheDuration : Option Int := none
  deriving DecidableEq, Repr

/-! ## One entity of a document -/

/-- The entities of a document, in document order. -/
def candidates (root : Element) : Except MetadataRaised (List Element) :=
  if root.tag = qEntityDescriptor then .ok [root]
  else if root.tag = qEntitiesDescriptor then .ok (root.iterTag qEntityDescriptor)
  else invalid s!"root element is {Text.pyRepr root.tag.localName}, expected EntityDescriptor or EntitiesDescriptor"

/-- The one that is used. -/
def pick (entityId : Option String) (found : List Element) : Except MetadataRaised Element :=
  match entityId with
  | some entityId =>
    match found.find? fun candidate => candidate.get "entityID" = some entityId with
    | some candidate => .ok candidate
    | none => invalid s!"does not describe the requested entity {Text.pyRepr entityId}"
  | none =>
    match found with
    | [candidate] => .ok candidate
    | found => invalid s!"describes {found.length} entities; name the one to use"

/-- `_select_entity`. -/
def selectEntity (root : Element) (entityId : Option String) : Except MetadataRaised Element := do
  pick entityId (← candidates root)

section Library

variable (lib : MetadataLibrary)

/-- `_valid_until`. -/
def validUntil (entity : Element) : Except MetadataRaised (Option Datetime) :=
  match entity.get "validUntil" with
  | none => .ok none
  | some raw =>
    match lib.fromisoformat raw with
    | .invalid => invalid s!"validUntil={Text.pyRepr raw} is not a valid xs:dateTime"
    | .naive => invalid s!"validUntil={Text.pyRepr raw} has no timezone"
    | .aware parsed => .ok (some parsed)

/-- `_assert_not_expired`, when the date has been read. -/
def refuseExpired (now : Int) (until? : Option Datetime) : Except MetadataRaised Unit :=
  match until? with
  | some parsed =>
    if parsed.instant ≤ now then
      .error (.rejected .metadataExpired s!"validUntil {parsed.isoformat} has passed")
    else .ok ()
  | none => .ok ()

/-- `_assert_not_expired`. -/
def assertNotExpired (entity : Element) (now : Int) : Except MetadataRaised Unit := do
  refuseExpired now (← validUntil lib entity)

/-! ## Certificates -/

/-- `_to_pem`. -/
def toPem (base64Der : String) : Except MetadataRaised String :=
  let pem := "-----BEGIN CERTIFICATE-----\n" ++ "\n".intercalate (lib.wrap base64Der) ++
    "\n-----END CERTIFICATE-----\n"
  match lib.loadCertificate pem with
  | .ok () => .ok pem
  | .error text => invalid s!"X509Certificate is not a valid certificate: {text}"

/-- `"".join(text_of(element).split())`. -/
def body (element : Element) : String :=
  String.ofList ((textOf (some element)).toList.filter (! Text.isSpace ·))

/-- The texts of the certificates of a key, when it is one for signing. -/
def bodies (keyDescriptor : Element) : List String :=
  match keyDescriptor.get "use" with
  | none | some "signing" =>
    ((keyDescriptor.iterTag qX509Certificate).map body).filter (· ≠ "")
  | some _ => []

/-- `_signing_certificates`. -/
def signingCertificates (descriptor : Element) : Except MetadataRaised (List String) :=
  ((descriptor.findall qKeyDescriptor).flatMap bodies).mapM (toPem lib)

/-! ## Endpoints and durations -/

/-- The `Binding` and the `Location` of a service, when it has both. -/
def endpoint (service : Element) : Option (String × String) :=
  match service.get "Binding", service.get "Location" with
  | some binding, some location =>
    if binding = "" ∨ location = "" then none else some (binding, location)
  | _, _ => none

/-- The dictionary of the bindings. -/
def ssoBindings (descriptor : Element) : List (String × String) :=
  assignAll Prod.fst Prod.snd ((descriptor.findall qSsoService).filterMap endpoint)

/-- An optional `(\d+)` with a letter after it; `"0"` when it is not there. -/
def amount (unit : Char) (text : List Char) : String × List Char :=
  match text.takeWhile lib.isDecimal, text.dropWhile lib.isDecimal with
  | digit :: digits, c :: rest => if c = unit then (String.ofList (digit :: digits), rest)
    else ("0", text)
  | _, _ => ("0", text)

/-- The optional `(\d+(?:\.\d+)?)S`. -/
def amountOfSeconds (text : List Char) : String × List Char :=
  match text.takeWhile lib.isDecimal, text.dropWhile lib.isDecimal with
  | digit :: digits, '.' :: fraction =>
    match fraction.takeWhile lib.isDecimal, fraction.dropWhile lib.isDecimal with
    | first :: others, 'S' :: rest =>
      (String.ofList (digit :: digits ++ '.' :: first :: others), rest)
    | _, _ => ("0", text)
  | _, _ => amount lib 'S' text

/-- `$`: the end of a text, or a newline that ends it. -/
def isEnd (text : List Char) : Bool := text = [] ∨ text = ['\n']

/-- `_DURATION.match(text).groupdict(default="0")`: days, hours, minutes and seconds. -/
def matchDuration (text : List Char) : Option (String × String × String × String) :=
  match text with
  | 'P' :: text =>
    let (days, text) := amount lib 'D' text
    match text with
    | 'T' :: text =>
      let (hours, text) := amount lib 'H' text
      let (minutes, text) := amount lib 'M' text
      let (seconds, text) := amountOfSeconds lib text
      if isEnd text then some (days, hours, minutes, seconds) else none
    | text => if isEnd text then some (days, "0", "0", "0") else none
  | _ => none

/-- `_cache_duration`. -/
def cacheDuration (entity : Element) : Except MetadataRaised (Option Int) :=
  match entity.get "cacheDuration" with
  | none => .ok none
  | some raw =>
    match matchDuration lib raw.toList with
    | none => invalid s!"cacheDuration={Text.pyRepr raw} is not a supported xs:duration"
    | some (days, hours, minutes, seconds) =>
      match lib.timedelta days hours minutes seconds with
      | none => .error .overflowError
      | some duration => .ok (some duration)

/-! ## The descriptor -/

/-- What `parse_idp_metadata` makes of an entity with a role, an identifier and certificates. -/
def describeRole (entity descriptor : Element) (resolvedEntityId : String)
    (certificates : List String) : Except MetadataRaised IdentityProviderDescriptor :=
  if certificates = [] then
    invalid s!"{Text.pyRepr resolvedEntityId} publishes no usable signing certificate"
  else if ssoBindings descriptor = [] then
    invalid s!"{Text.pyRepr resolvedEntityId} publishes no SingleSignOnService endpoint"
  else do
    return {
      entityId := resolvedEntityId
      ssoBindings := ssoBindings descriptor
      signingCertificates := certificates
      sloUrl := (descriptor.find qSloService).bind (·.get "Location")
      wantAuthnRequestsSigned := descriptor.get "WantAuthnRequestsSigned" = some "true"
      validUntil := ← validUntil lib entity
      cacheDuration := ← cacheDuration lib entity }

/-- The end of `parse_idp_metadata`, when the entity is known not to have expired. -/
def readEntity (entity : Element) : Except MetadataRaised IdentityProviderDescriptor :=
  match entity.find qIdpSsoDescriptor with
  | none => invalid "contains no IDPSSODescriptor role"
  | some descriptor =>
    match entity.get "entityID" with
    | none | some "" => invalid "EntityDescriptor has no entityID"
    | some resolvedEntityId => do
      describeRole lib entity descriptor resolvedEntityId (← signingCertificates lib descriptor)

/-- The start of `parse_idp_metadata`: the root of the document. -/
def readRoot (document : Bytes) (validateSchema : Bool) : Except MetadataRaised Element := do
  if validateSchema then
    match lib.validateMetadata document with
    | .ok () => .ok ()
    | .error (.documentInvalid text) => invalid s!"does not satisfy the metadata schema: {text}"
    | .error (.xmlSyntaxError text) => invalid s!"is not well-formed XML: {text}"
  match lib.fromstring document with
  | .ok root => .ok root
  | .error text => invalid s!"is not well-formed XML: {text}"

/-- `parse_idp_metadata`. -/
def parseIdpMetadata (document : Bytes) (entityId : Option String) (now : Int)
    (validateSchema : Bool := true) : Except MetadataRaised IdentityProviderDescriptor := do
  let root ← readRoot lib document validateSchema
  let entity ← selectEntity root entityId
  assertNotExpired lib entity now
  readEntity lib entity

/-! ## The registry -/

/-- `FederationEntity`, as far as it is read here. -/
structure FederationEntity where
  entityId : String
  metadataDocument : String
  enabled : Bool
  deriving DecidableEq, Repr

/-- The row that `describe` selects. -/
def registered (rows : List FederationEntity) (entityId : String) : Option FederationEntity :=
  rows.find? fun row => row.entityId = entityId ∧ row.enabled = true

/-- `describe`. -/
def describe (rows : List FederationEntity) (entityId : String) (now : Int) :
    Except MetadataRaised (Option IdentityProviderDescriptor) :=
  match registered rows entityId with
  | none => .ok none
  | some row => do
    return some (← parseIdpMetadata lib (octets row.metadataDocument) (some entityId) now)

/-- `resolve_trusted_idp`. -/
def resolveTrustedIdp (rows : List FederationEntity) (entityId : String) (now : Int) :
    Except MetadataRaised (Option TrustedIdP) :=
  match describe lib rows entityId now with
  | .error (.rejected _ _) => .ok none
  | .error raised => .error raised
  | .ok none => .ok none
  | .ok (some descriptor) => .ok (some {
      entityId := descriptor.entityId
      signingCertificates := descriptor.signingCertificates })

end Library

/-! ## Where the entity stands -/

/-- The entities of a document with their paths, in document order. -/
def positions (root : Element) : List (List Nat × Element) :=
  if root.tag = qEntityDescriptor then [([], root)]
  else if root.tag = qEntitiesDescriptor then root.located.filter (·.2.tag = qEntityDescriptor)
  else []

/-- The one of them that is used. -/
def choose (entityId : Option String) (found : List (List Nat × Element)) :
    Option (List Nat × Element) :=
  match entityId with
  | some entityId => found.find? fun candidate => candidate.2.get "entityID" = some entityId
  | none =>
    match found with
    | [candidate] => some candidate
    | _ => none

/-- The entity that is used, with its path in the document. -/
def standing (root : Element) (entityId : Option String) : Option (List Nat × Element) :=
  choose entityId (positions root)

/-- The `EntitiesDescriptor`s around what stands at a path. -/
def enclosing (root : Element) (path : List Nat) : List Element :=
  (root.located.filter fun entry =>
    entry.1 <+: path ∧ entry.1 ≠ path ∧ entry.2.tag = qEntitiesDescriptor).map Prod.snd

section Standing

variable {root entity : Element} {entityId : Option String}

theorem pick_eq_ok {found : List (List Nat × Element)} :
    pick entityId (found.map Prod.snd) = .ok entity ↔
      ∃ path, choose entityId found = some (path, entity) := by
  cases entityId with
  | some entityId =>
    simp only [pick, choose, List.find?_map, Function.comp_def]
    cases hfind : found.find? fun candidate =>
        decide (candidate.2.get "entityID" = some entityId) with
    | none => simp [invalid]
    | some candidate =>
      obtain ⟨path, candidate⟩ := candidate
      simp
  | none =>
    match found with
    | [] => simp [pick, choose, invalid]
    | [(path, candidate)] => simp [pick, choose]
    | _ :: _ :: _ => simp [pick, choose, invalid]

/-- **What is selected stands somewhere in the document.** -/
theorem selectEntity_eq_ok :
    selectEntity root entityId = .ok entity ↔ ∃ path, standing root entityId = some (path, entity) := by
  unfold selectEntity standing candidates positions
  split_ifs with hone hmany
  · exact @pick_eq_ok _ _ [([], root)]
  · have hiter : root.iterTag qEntityDescriptor =
        (root.located.filter (·.2.tag = qEntityDescriptor)).map Prod.snd := by
      rw [iterTag, ← map_snd_located, List.filter_map]
      rfl
    rw [hiter]
    exact pick_eq_ok
  · refine ⟨fun h => (nomatch h), fun h => ?_⟩
    obtain ⟨path, h⟩ := h
    cases entityId <;> cases h

end Standing

/-! ## What is never trusted -/

section Expiry

variable (lib : MetadataLibrary)

/-- An instant is before the `validUntil` of an element, when it has one. -/
def Alive (now : Int) (e : Element) : Prop :=
  ∀ raw, e.get "validUntil" = some raw →
    ∃ parsed, lib.fromisoformat raw = .aware parsed ∧ now < parsed.instant

/-- The `validUntil` of an element, when it has one, is not before that of the entity, which has one
then. -/
def Bounded (entity e : Element) : Prop :=
  ∀ raw, e.get "validUntil" = some raw →
    ∃ parsed own, lib.fromisoformat raw = .aware parsed ∧
      validUntil lib entity = .ok (some own) ∧ own.instant ≤ parsed.instant

/-- A document can be used for an entity that stands in it: nothing but the time speaks against it. -/
structure Usable (document : Bytes) (entityId : Option String) (validateSchema : Bool)
    (root : Element) (path : List Nat) (entity : Element) : Prop where
  read : readRoot lib document validateSchema = .ok root
  stands : standing root entityId = some (path, entity)
  dated : ∃ own, validUntil lib entity = .ok own
  described : ∃ descriptor, readEntity lib entity = .ok descriptor

/-- At an instant, a document that is accepted has not expired, nor has anything around the entity. -/
def NotStale (document : Bytes) (entityId : Option String) (validateSchema : Bool) (now : Int) :
    Prop :=
  ∀ descriptor, parseIdpMetadata lib document entityId now validateSchema = .ok descriptor →
    ∀ root path entity, readRoot lib document validateSchema = .ok root →
      standing root entityId = some (path, entity) →
        ∀ e ∈ entity :: enclosing root path, Alive lib now e

/-- The same of an entity that the registry trusts. -/
def TrustedNotStale (rows : List FederationEntity) (entityId : String) (now : Int) : Prop :=
  ∀ idp, resolveTrustedIdp lib rows entityId now = .ok (some idp) →
    ∀ row root path entity, registered rows entityId = some row →
      readRoot lib (octets row.metadataDocument) true = .ok root →
        standing root (some entityId) = some (path, entity) →
          ∀ e ∈ entity :: enclosing root path, Alive lib now e

variable {lib} {document : Bytes} {entityId : Option String} {validateSchema : Bool} {now : Int}
  {root entity : Element} {path : List Nat}

theorem readRoot_of_valid (hvalid : lib.validateMetadata document = .ok ())
    (hparsed : lib.fromstring document = .ok root) :
    readRoot lib document validateSchema = .ok root := by
  unfold readRoot
  rw [hvalid, hparsed]
  cases validateSchema <;> rfl

theorem refuseExpired_eq_ok {own : Option Datetime} :
    refuseExpired now own = .ok () ↔ ∀ parsed ∈ own, now < parsed.instant := by
  cases own with
  | none => simp [refuseExpired]
  | some parsed =>
    simp only [refuseExpired, Option.mem_some_iff, forall_eq']
    split_ifs with h
    · simpa using h
    · simpa using h

/-- **When a document is accepted**: when it can be used and the entity has not expired. -/
theorem parseIdpMetadata_eq_ok {descriptor : IdentityProviderDescriptor} :
    parseIdpMetadata lib document entityId now validateSchema = .ok descriptor ↔
      ∃ root path entity own, readRoot lib document validateSchema = .ok root ∧
        standing root entityId = some (path, entity) ∧ validUntil lib entity = .ok own ∧
          (∀ parsed ∈ own, now < parsed.instant) ∧ readEntity lib entity = .ok descriptor := by
  unfold parseIdpMetadata
  constructor
  · intro h
    obtain ⟨root, hroot, h⟩ := except_bind_eq_ok.mp h
    obtain ⟨entity, hentity, h⟩ := except_bind_eq_ok.mp h
    obtain ⟨⟨⟩, hfresh, h⟩ := except_bind_eq_ok.mp h
    obtain ⟨path, hstanding⟩ := selectEntity_eq_ok.mp hentity
    obtain ⟨own, hown, hfresh⟩ := except_bind_eq_ok.mp hfresh
    exact ⟨root, path, entity, own, hroot, hstanding, hown, refuseExpired_eq_ok.mp hfresh, h⟩
  · rintro ⟨root, path, entity, own, hroot, hstanding, hown, hfresh, h⟩
    refine except_bind_eq_ok.mpr ⟨root, hroot, except_bind_eq_ok.mpr ⟨entity, ?_, ?_⟩⟩
    · exact selectEntity_eq_ok.mpr ⟨path, hstanding⟩
    · refine except_bind_eq_ok.mpr ⟨(), except_bind_eq_ok.mpr ⟨own, hown, ?_⟩, h⟩
      exact refuseExpired_eq_ok.mpr hfresh

theorem exists_parse_of_usable (h : Usable lib document entityId validateSchema root path entity)
    {own : Option Datetime} (hown : validUntil lib entity = .ok own)
    (hfresh : ∀ parsed ∈ own, now < parsed.instant) :
    ∃ descriptor, parseIdpMetadata lib document entityId now validateSchema = .ok descriptor := by
  obtain ⟨descriptor, hdescriptor⟩ := h.described
  exact ⟨descriptor, parseIdpMetadata_eq_ok.mpr
    ⟨root, path, entity, own, h.read, h.stands, hown, hfresh, hdescriptor⟩⟩

theorem alive_of_fresh {own : Option Datetime} (hown : validUntil lib entity = .ok own)
    (hfresh : ∀ parsed ∈ own, now < parsed.instant) : Alive lib now entity := by
  intro raw hraw
  unfold validUntil at hown
  rw [hraw] at hown
  dsimp only at hown
  cases hparsed : lib.fromisoformat raw with
  | invalid =>
    rw [hparsed] at hown
    cases hown
  | naive =>
    rw [hparsed] at hown
    cases hown
  | aware parsed =>
    rw [hparsed] at hown
    obtain rfl := Except.ok.inj hown
    exact ⟨parsed, rfl, hfresh parsed rfl⟩

/-- **When a document is never stale**, at any instant. -/
theorem forall_notStale_iff :
    (∀ now, NotStale lib document entityId validateSchema now) ↔
      ∀ root path entity, Usable lib document entityId validateSchema root path entity →
        ∀ e ∈ enclosing root path, Bounded lib entity e := by
  constructor
  · intro hnever root path entity husable e he raw hraw
    obtain ⟨own, hown⟩ := husable.dated
    -- At an instant before the entity's own end the document is accepted.
    have halive : ∀ now, (∀ parsed ∈ own, now < parsed.instant) → Alive lib now e := by
      intro now hfresh
      obtain ⟨descriptor, hdescriptor⟩ := exists_parse_of_usable husable hown hfresh
      exact hnever now descriptor hdescriptor root path entity husable.read husable.stands e
        (List.mem_cons_of_mem _ he)
    cases own with
    | none =>
      obtain ⟨parsed, hparsed, -⟩ := halive 0 (fun _ h => (nomatch h)) raw hraw
      obtain ⟨again, hagain, hlt⟩ := halive parsed.instant (fun _ h => (nomatch h)) raw hraw
      obtain rfl : parsed = again := IsoText.aware.inj (hparsed.symm.trans hagain)
      exact absurd hlt (lt_irrefl _)
    | some own =>
      have hbefore : ∀ now, now < own.instant → Alive lib now e := by
        intro now hlt
        refine halive now fun parsed hparsed => ?_
        rw [← Option.some.inj hparsed]
        exact hlt
      obtain ⟨parsed, hparsed, -⟩ := hbefore (own.instant - 1) (by omega) raw hraw
      refine ⟨parsed, own, hparsed, hown, ?_⟩
      by_contra hlater
      obtain ⟨again, hagain, hlt⟩ := hbefore parsed.instant (by omega) raw hraw
      obtain rfl : parsed = again := IsoText.aware.inj (hparsed.symm.trans hagain)
      exact lt_irrefl _ hlt
  · intro hbounded now descriptor hparse root path entity hroot hstanding e he
    obtain ⟨root', path', entity', own, hroot', hstanding', hown, hfresh, hread⟩ :=
      parseIdpMetadata_eq_ok.mp hparse
    obtain rfl : root' = root := Except.ok.inj (hroot'.symm.trans hroot)
    obtain ⟨rfl, rfl⟩ := Prod.mk.inj (Option.some.inj (hstanding'.symm.trans hstanding))
    rcases List.mem_cons.mp he with rfl | he
    · exact alive_of_fresh hown hfresh
    · intro raw hraw
      obtain ⟨parsed, bound, hparsed, hbound, hle⟩ :=
        hbounded _ _ _ ⟨hroot, hstanding, ⟨own, hown⟩, ⟨descriptor, hread⟩⟩ e he raw hraw
      obtain rfl : own = some bound := Except.ok.inj (hown.symm.trans hbound)
      exact ⟨parsed, hparsed, lt_of_lt_of_le (hfresh bound rfl) hle⟩

theorem resolveTrustedIdp_eq_some {rows : List FederationEntity} {entityId : String} :
    (∃ idp, resolveTrustedIdp lib rows entityId now = .ok (some idp)) ↔
      ∃ row descriptor, registered rows entityId = some row ∧
        parseIdpMetadata lib (octets row.metadataDocument) (some entityId) now = .ok descriptor := by
  unfold resolveTrustedIdp describe
  cases hrow : registered rows entityId with
  | none => simp
  | some row =>
    cases hparse : parseIdpMetadata lib (octets row.metadataDocument) (some entityId) now with
    | error raised => cases raised <;> simp [Bind.bind, Except.bind, hparse]
    | ok descriptor => simp [Bind.bind, Except.bind, hparse, Pure.pure, Except.pure]

/-- **What is trusted is never stale, exactly when the entity's own `validUntil` is the first one**: of
a document, for every instant, and of an entity that is registered. -/
theorem stale_metadata_iff :
    ((∀ now, NotStale lib document entityId validateSchema now) ↔
      ∀ root path entity, Usable lib document entityId validateSchema root path entity →
        ∀ e ∈ enclosing root path, Bounded lib entity e) ∧
    ∀ (rows : List FederationEntity) (entityId : String),
      (∀ now, TrustedNotStale lib rows entityId now) ↔
        ∀ row root path entity, registered rows entityId = some row →
          Usable lib (octets row.metadataDocument) (some entityId) true root path entity →
            ∀ e ∈ enclosing root path, Bounded lib entity e := by
  refine ⟨forall_notStale_iff, fun rows entityId => ?_⟩
  have hrow : (∀ now, TrustedNotStale lib rows entityId now) ↔
      ∀ row, registered rows entityId = some row →
        ∀ now, NotStale lib (octets row.metadataDocument) (some entityId) true now := by
    constructor
    · intro h row hrow now descriptor hparse root path entity
      obtain ⟨idp, hidp⟩ := resolveTrustedIdp_eq_some.mpr ⟨row, descriptor, hrow, hparse⟩
      exact h now idp hidp row root path entity hrow
    · intro h now idp hidp row root path entity hrow
      obtain ⟨row', descriptor, hrow', hparse⟩ := resolveTrustedIdp_eq_some.mp ⟨idp, hidp⟩
      obtain rfl : row' = row := Option.some.inj (hrow'.symm.trans hrow)
      exact h row' hrow' now descriptor hparse root path entity
  rw [hrow]
  constructor
  · intro h row root path entity hrow
    exact forall_notStale_iff.mp (h row hrow) root path entity
  · intro h row hrow
    exact forall_notStale_iff.mpr fun root path entity => h row root path entity hrow

/-- The certificate stands in the role, in a key for signing, and can be loaded. -/
def Published (lib : MetadataLibrary) (role : Element) (pem : String) : Prop :=
  ∃ keyDescriptor ∈ role.findall qKeyDescriptor,
    (keyDescriptor.get "use" = none ∨ keyDescriptor.get "use" = some "signing") ∧
      ∃ certificate ∈ keyDescriptor.iterTag qX509Certificate, toPem lib (body certificate) = .ok pem

theorem exists_of_mem_bodies {keyDescriptor : Element} {text : String}
    (h : text ∈ bodies keyDescriptor) :
    (keyDescriptor.get "use" = none ∨ keyDescriptor.get "use" = some "signing") ∧
      ∃ certificate ∈ keyDescriptor.iterTag qX509Certificate, body certificate = text := by
  unfold bodies at h
  split at h
  · exact ⟨.inl ‹_›, List.mem_map.mp (List.mem_filter.mp h).1⟩
  · exact ⟨.inr ‹_›, List.mem_map.mp (List.mem_filter.mp h).1⟩
  · cases h

/-- **Whose certificates are trusted**: some that the entity asked for publishes for signing, in
its own role, and none of another entity of the document. -/
theorem published_of_trusted {rows : List FederationEntity} {entityId : String} {idp : TrustedIdP}
    (h : resolveTrustedIdp lib rows entityId now = .ok (some idp)) :
    idp.entityId = entityId ∧ idp.signingCertificates ≠ [] ∧
      ∃ row root path entity role, registered rows entityId = some row ∧
        readRoot lib (octets row.metadataDocument) true = .ok root ∧
          standing root (some entityId) = some (path, entity) ∧
            entity.find qIdpSsoDescriptor = some role ∧
              ∀ pem ∈ idp.signingCertificates, Published lib role pem := by
  obtain ⟨row, descriptor, hrow, hparse⟩ := resolveTrustedIdp_eq_some.mp ⟨idp, h⟩
  obtain rfl : idp = {
      entityId := descriptor.entityId
      signingCertificates := descriptor.signingCertificates } := by
    unfold resolveTrustedIdp describe at h
    rw [hrow] at h
    simpa [Bind.bind, Except.bind, hparse, Pure.pure, Except.pure, eq_comm] using h
  obtain ⟨root, path, entity, own, hroot, hstanding, -, -, hread⟩ := parseIdpMetadata_eq_ok.mp hparse
  have hasked : entity.get "entityID" = some entityId := by
    unfold standing choose at hstanding
    simpa using List.find?_some hstanding
  unfold readEntity at hread
  rw [hasked] at hread
  split at hread
  · cases hread
  · rename_i role hrole
    split at hread
    · cases hread
    · cases hread
    · rename_i resolved _ hresolved
      obtain rfl := Option.some.inj hresolved
      obtain ⟨certificates, hcertificates, hrest⟩ := except_bind_eq_ok.mp hread
      unfold describeRole at hrest
      split_ifs at hrest with hnone hendpoints
      · cases hrest
      · cases hrest
      obtain ⟨until?, -, hrest⟩ := except_bind_eq_ok.mp hrest
      obtain ⟨duration, -, hrest⟩ := except_bind_eq_ok.mp hrest
      cases hrest
      refine ⟨rfl, hnone, row, root, path, entity, role, hrow, hroot, hstanding, hrole, ?_⟩
      intro pem hpem
      obtain ⟨text, htext, hload⟩ := Eff.exists_of_mapM_eq_ok hcertificates hpem
      obtain ⟨keyDescriptor, hkey, hbody⟩ := List.mem_flatMap.mp htext
      obtain ⟨huse, certificate, hmem, rfl⟩ := exists_of_mem_bodies hbody
      exact ⟨keyDescriptor, hkey, huse, certificate, hmem, hload⟩

end Expiry

/-! ## An aggregate that has expired -/

namespace Sample

/-- A certificate, without the lines around it. -/
def certificate : String :=
  "MIHUMIGHAhRzNzKPeZDGY+NhkYwE+5U07QEyDTAFBgMrZXAwDDEKMAgGA1UEAwwB\n" ++
    "czAgFw0yNjExMTkxMDA5MTRaGA8yMTI2MTAyNjEwMDkxNFowDDEKMAgGA1UEAwwB\n" ++
    "czAqMAUGAytlcAMhAIzY4E2mXnf/6LcQnyga7aCfkYM2GYnQWCTh6UmAHX+BMAUG\n" ++
    "AytlcANBAFfCq1uvPA6mDnuX62KlLmzg+ZX/NYEFtZpoCrXIA3tUAkM3JY9I0gHh\n" ++
    "1nvBTunmaXAefZk07wyvOklQ4Qg/WgY="

/-- The certificate in the document. -/
def x509 : Element := .mk qX509Certificate [] certificate []

/-- The key of the identity provider. -/
def key : Element :=
  .mk qKeyDescriptor [] "" [
    (.mk ⟨ds, "KeyInfo"⟩ [] "" [(.mk ⟨ds, "X509Data"⟩ [] "" [(x509, "")], "")], "")]

/-- The role of the identity provider. -/
def role : Element :=
  .mk qIdpSsoDescriptor
    [("protocolSupportEnumeration", "urn:oasis:names:tc:SAML:2.0:protocol")] "" [
      (key, ""),
      (.mk qSsoService
        [("Binding", "urn:oasis:names:tc:SAML:2.0:bindings:HTTP-Redirect"),
          ("Location", "https://idp.test/sso")] "" [], "")]

/-- The identity provider of the aggregate. -/
def entity : Element :=
  .mk qEntityDescriptor [("entityID", "https://idp.test")] "" [(role, "")]

/-- The aggregate, which carries the end of its validity. -/
def aggregate : Element :=
  .mk qEntitiesDescriptor [("validUntil", "2020-01-01T00:00:00Z")] "" [(entity, "")]

/-- The aggregate as it is published. -/
def document : String :=
  "<md:EntitiesDescriptor xmlns:md=\"urn:oasis:names:tc:SAML:2.0:metadata\" " ++
    "xmlns:ds=\"http://www.w3.org/2000/09/xmldsig#\" validUntil=\"2020-01-01T00:00:00Z\">" ++
    "<md:EntityDescriptor entityID=\"https://idp.test\"><md:IDPSSODescriptor " ++
    "protocolSupportEnumeration=\"urn:oasis:names:tc:SAML:2.0:protocol\"><md:KeyDescriptor>" ++
    "<ds:KeyInfo><ds:X509Data><ds:X509Certificate>" ++ certificate ++ "</ds:X509Certificate>" ++
    "</ds:X509Data></ds:KeyInfo></md:KeyDescriptor><md:SingleSignOnService " ++
    "Binding=\"urn:oasis:names:tc:SAML:2.0:bindings:HTTP-Redirect\" " ++
    "Location=\"https://idp.test/sso\"/></md:IDPSSODescriptor></md:EntityDescriptor>" ++
    "</md:EntitiesDescriptor>"

/-- The functions from outside, as far as the aggregate goes. -/
def library : MetadataLibrary where
  validateMetadata _ := .ok ()
  fromstring data := if data = octets document then .ok aggregate else .error "not here"
  fromisoformat raw :=
    if raw = "2020-01-01T00:00:00Z" then
      .aware ⟨1577836800000000, "2020-01-01T00:00:00+00:00"⟩
    else .invalid
  wrap text := (text.toList.toChunks 64).map String.ofList
  loadCertificate _ := .ok ()
  isDecimal c := c.isDigit
  timedelta _ _ _ _ := none

/-- The first instant of 2026. -/
def now : Int := 1767225600000000

/-- The row of the aggregate. -/
def rows : List FederationEntity := [⟨"https://idp.test", document, true⟩]

theorem mem_certificate : 'M' ∈ certificate.toList := by
  unfold certificate
  rw [String.toList_append, String.toList_append, String.toList_append, String.toList_append,
    List.mem_append, List.mem_append, List.mem_append, List.mem_append]
  exact .inl (.inl (.inl (.inl (by decide +kernel))))

theorem body_ne_empty {e : Element} {c : Char} (hc : c ∈ (textOf (some e)).toList)
    (hspace : Text.isSpace c = false) : body e ≠ "" := by
  intro h
  have hnil := congrArg String.toList h
  rw [body, String.toList_ofList, String.toList_empty, List.filter_eq_nil_iff] at hnil
  exact hnil c hc (by rw [hspace]; rfl)

theorem bodies_key : bodies key = [body x509] := by
  have hmem : 'M' ∈ (textOf (some x509)).toList := by
    rw [textOf, x509, itertext, itertextAll, String.append_empty]
    exact mem_certificate
  have hkeep := body_ne_empty hmem (by decide)
  have hiter : key.iterTag qX509Certificate = [x509] := by
    simp [iterTag, key, x509, iter, iterAll, qX509Certificate, qKeyDescriptor, md, ds]
  have huse : key.get "use" = none := rfl
  unfold bodies
  rw [huse, hiter]
  simp [hkeep]

/-- The functions from outside, where the parser knows one document. -/
def libraryOf (document : String) (root : Element) : MetadataLibrary :=
  { library with
    fromstring := fun data => if data = octets document then .ok root else .error "not here" }

theorem exists_readEntity (document : String) (root : Element) :
    ∃ descriptor, readEntity (libraryOf document root) entity = .ok descriptor := by
  have hfind : role.findall qKeyDescriptor = [key] := by
    simp [findall, elements, role, key, qKeyDescriptor, qSsoService]
  have hcertificates : ∃ pem, signingCertificates (libraryOf document root) role = .ok [pem] := by
    unfold signingCertificates
    rw [hfind]
    simp only [List.flatMap_cons, List.flatMap_nil, List.append_nil, bodies_key]
    exact ⟨_, rfl⟩
  obtain ⟨pem, hpem⟩ := hcertificates
  refine ⟨⟨"https://idp.test", [("urn:oasis:names:tc:SAML:2.0:bindings:HTTP-Redirect",
    "https://idp.test/sso")], [pem], none, false, none, none⟩, ?_⟩
  have hrole : entity.find qIdpSsoDescriptor = some role := by
    simp [find, elements, entity, role]
  have hid : entity.get "entityID" = some "https://idp.test" := rfl
  unfold readEntity
  rw [hrole, hid]
  dsimp only
  rw [hpem]
  rfl

theorem standing_aggregate :
    standing aggregate (some "https://idp.test") = some ([0], entity) := by
  simp [standing, choose, positions, aggregate, entity, located, locatedFrom, locatedAll, role, key,
    x509, Element.get, qEntityDescriptor, qEntitiesDescriptor, qIdpSsoDescriptor, qKeyDescriptor,
    qSsoService, qX509Certificate]

theorem mem_enclosing : aggregate ∈ enclosing aggregate [0] := by
  refine List.mem_map.mpr ⟨([], aggregate), List.mem_filter.mpr ⟨?_, ?_⟩, rfl⟩
  · exact self_mem_locatedFrom [] aggregate
  · simp [aggregate]

theorem readRoot_document : readRoot library (octets document) true = .ok aggregate := by
  have hparsed : library.fromstring (octets document) = .ok aggregate := by
    simp only [library, if_true]
  exact readRoot_of_valid rfl hparsed

theorem exists_parse :
    ∃ descriptor, parseIdpMetadata library (octets document) (some "https://idp.test") now =
      .ok descriptor := by
  obtain ⟨descriptor, hdescriptor⟩ := exists_readEntity document aggregate
  exact ⟨descriptor, parseIdpMetadata_eq_ok.mpr ⟨aggregate, [0], entity, none, readRoot_document,
    standing_aggregate, rfl, fun _ h => (nomatch h), hdescriptor⟩⟩

/-- The certificate of another identity provider. -/
def otherCertificate : String :=
  "MIHUMIGHAhRJcy+btZxemRZjorJi6dFzKfJVdTAFBgMrZXAwDDEKMAgGA1UEAwwB\n" ++
    "bzAgFw0yNjExMTkxOTM5MzlaGA8yMTI2MTAyNjE5MzkzOVowDDEKMAgGA1UEAwwB\n" ++
    "bzAqMAUGAytlcAMhAA8X4/ESCvOo7Sd2j08GdJHUs4Kp9YTuXdHMWQBH9bppMAUG\n" ++
    "AytlcANBAK90rpPusXhQfqaL5NiGT0L8/uKg7tlqjVQ0b3DyB+GQcpGEB7gYaVRf\n" ++
    "SHsnchr1TUT2cyqSk6xcmeeL2fcGVAc="

/-- The other identity provider. -/
def otherEntity : Element :=
  .mk qEntityDescriptor [("entityID", "https://other.test")] "" [
    (.mk qIdpSsoDescriptor
      [("protocolSupportEnumeration", "urn:oasis:names:tc:SAML:2.0:protocol")] "" [
        (.mk qKeyDescriptor [] "" [
          (.mk ⟨ds, "KeyInfo"⟩ [] "" [
            (.mk ⟨ds, "X509Data"⟩ [] "" [
              (.mk qX509Certificate [] otherCertificate [], "")], "")], "")], ""),
        (.mk qSsoService
          [("Binding", "urn:oasis:names:tc:SAML:2.0:bindings:HTTP-Redirect"),
            ("Location", "https://other.test/sso")] "" [], "")], "")]

/-- An aggregate of both. -/
def federation : Element := .mk qEntitiesDescriptor [] "" [(otherEntity, ""), (entity, "")]

/-- An identity provider as it is published. -/
def entityText (host certificate : String) : String :=
  "<md:EntityDescriptor entityID=\"https://" ++ host ++ "\"><md:IDPSSODescriptor " ++
    "protocolSupportEnumeration=\"urn:oasis:names:tc:SAML:2.0:protocol\"><md:KeyDescriptor>" ++
    "<ds:KeyInfo><ds:X509Data><ds:X509Certificate>" ++ certificate ++ "</ds:X509Certificate>" ++
    "</ds:X509Data></ds:KeyInfo></md:KeyDescriptor><md:SingleSignOnService " ++
    "Binding=\"urn:oasis:names:tc:SAML:2.0:bindings:HTTP-Redirect\" " ++
    "Location=\"https://" ++ host ++ "/sso\"/></md:IDPSSODescriptor></md:EntityDescriptor>"

/-- The aggregate of both as it is published. -/
def federationText : String :=
  "<md:EntitiesDescriptor xmlns:md=\"urn:oasis:names:tc:SAML:2.0:metadata\" " ++
    "xmlns:ds=\"http://www.w3.org/2000/09/xmldsig#\">" ++ entityText "other.test" otherCertificate ++
    entityText "idp.test" certificate ++ "</md:EntitiesDescriptor>"

theorem standing_federation :
    standing federation (some "https://idp.test") = some ([1], entity) := by
  simp [standing, choose, positions, federation, otherEntity, entity, located, locatedFrom,
    locatedAll, role, key, x509, Element.get, qEntityDescriptor, qEntitiesDescriptor,
    qIdpSsoDescriptor, qKeyDescriptor, qSsoService, qX509Certificate]

theorem not_alive : ¬ Alive library now aggregate := by
  intro h
  obtain ⟨parsed, hparsed, hlt⟩ := h "2020-01-01T00:00:00Z" rfl
  obtain rfl := IsoText.aware.inj hparsed
  exact absurd hlt (by decide)

end Sample

open Sample in
/-- Of an aggregate of two, the identity provider asked for is trusted with its own keys. -/
theorem published_of_trusted_second : ∃ idp,
    resolveTrustedIdp (libraryOf federationText federation)
        [⟨"https://idp.test", federationText, true⟩] "https://idp.test" now = .ok (some idp) ∧
      idp.entityId = "https://idp.test" ∧ idp.signingCertificates ≠ [] ∧
      ∀ pem ∈ idp.signingCertificates, Published (libraryOf federationText federation) role pem := by
  obtain ⟨descriptor, hdescriptor⟩ := exists_readEntity federationText federation
  have hrow : registered [⟨"https://idp.test", federationText, true⟩] "https://idp.test" =
      some ⟨"https://idp.test", federationText, true⟩ := by
    simp [registered]
  have hparsed : (libraryOf federationText federation).fromstring (octets federationText) =
      .ok federation := by
    simp only [libraryOf, if_true]
  have hroot : readRoot (libraryOf federationText federation) (octets federationText) true =
      .ok federation := readRoot_of_valid rfl hparsed
  have hparse : parseIdpMetadata (libraryOf federationText federation) (octets federationText)
      (some "https://idp.test") now = .ok descriptor :=
    parseIdpMetadata_eq_ok.mpr ⟨federation, [1], entity, none, hroot, standing_federation, rfl,
      fun _ h => (nomatch h), hdescriptor⟩
  obtain ⟨idp, hidp⟩ := resolveTrustedIdp_eq_some.mpr ⟨_, descriptor, hrow, hparse⟩
  obtain ⟨hid, hnone, row, root, path, chosen, own, hrow', hroot', hstanding, hown, hpublished⟩ :=
    published_of_trusted hidp
  -- the row, the document and the entity are the ones above
  obtain rfl := Option.some.inj (hrow.symm.trans hrow')
  dsimp only at hroot'
  rw [hroot] at hroot'
  obtain rfl := Except.ok.inj hroot'
  obtain ⟨-, rfl⟩ := Prod.mk.inj (Option.some.inj (standing_federation.symm.trans hstanding))
  have hrole : entity.find qIdpSsoDescriptor = some role := by
    simp [find, elements, entity, role]
  obtain rfl := Option.some.inj (hrole.symm.trans hown)
  exact ⟨idp, hidp, hid, hnone, hpublished⟩

open Sample in
/-- **An aggregate is trusted after it has expired**, by the parser and by the registry. -/
theorem stale_metadata :
    ¬ NotStale library (octets document) (some "https://idp.test") true now ∧
      ¬ TrustedNotStale library rows "https://idp.test" now := by
  obtain ⟨descriptor, hparse⟩ := exists_parse
  have hmem := List.mem_cons_of_mem entity mem_enclosing
  refine ⟨fun h => not_alive ?_, fun h => not_alive ?_⟩
  · exact h descriptor hparse aggregate [0] entity readRoot_document standing_aggregate _ hmem
  · have hrow : registered rows "https://idp.test" = some ⟨"https://idp.test", document, true⟩ := by
      simp [registered, rows]
    obtain ⟨idp, hidp⟩ := resolveTrustedIdp_eq_some.mpr ⟨_, descriptor, hrow, hparse⟩
    exact h idp hidp _ aggregate [0] entity hrow readRoot_document standing_aggregate _ hmem

end Metadata
end Saml
end CampusID
