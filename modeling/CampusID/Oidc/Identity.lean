import CampusID.Policy.Normalize
import CampusID.Session.Effects

/-!
# What one client learns about the person in a session

Released attributes become claims, as far as the scopes ask for them (`claimsFor`), and
`releaseTo` is the one place where a session is normalised, released and mapped.

Three routes call it: the authorization endpoint when it issues a code, the token endpoint when
the code is redeemed, and the userinfo endpoint.  None of them hands it the registry's flag
(`Disclosure.identity_eq`).

The signatures of access tokens are left out: what a token says, or why it is refused, is an
argument of `userinfo`.
-/

namespace CampusID
namespace Oidc

open Lib Policy

/-! ## Claims -/

/-- `SCOPE_PROFILE`. -/
def scopeProfile : String := "profile"

/-- `SCOPE_EMAIL`. -/
def scopeEmail : String := "email"

/-- `SCOPE_AFFILIATION`. -/
def scopeAffiliation : String := "campus:affiliation"

/-- `SCOPE_ENTITLEMENT`. -/
def scopeEntitlement : String := "campus:entitlement"

/-- `ClaimMapping`. -/
structure ClaimMapping where
  attr : String
  claim : String
  scope : String
  multivalued : Bool := false
  deriving DecidableEq, Repr

/-- `CLAIMS`. -/
def claimMappings : List ClaimMapping := [
  { attr := eppn, claim := "preferred_username", scope := scopeProfile },
  { attr := displayName, claim := "name", scope := scopeProfile },
  { attr := givenName, claim := "given_name", scope := scopeProfile },
  { attr := surname, claim := "family_name", scope := scopeProfile },
  { attr := orcid, claim := "orcid", scope := scopeProfile },
  { attr := mail, claim := "email", scope := scopeEmail },
  { attr := orgUnit, claim := "campus_org_unit", scope := scopeProfile, multivalued := true },
  { attr := scopedAffiliation, claim := "campus_scoped_affiliation", scope := scopeAffiliation,
    multivalued := true },
  { attr := affiliation, claim := "campus_affiliation", scope := scopeAffiliation,
    multivalued := true },
  { attr := primaryAffiliation, claim := "campus_primary_affiliation", scope := scopeAffiliation },
  { attr := entitlement, claim := "campus_entitlement", scope := scopeEntitlement,
    multivalued := true }]

/-- `BY_ATTRIBUTE.get`. -/
def byAttribute (name : String) : Option ClaimMapping := claimMappings.find? (·.attr = name)

/-- The value of a claim. -/
inductive ClaimValue where
  | one (value : String)
  | many (values : List String)
  deriving DecidableEq, Repr

/-- The values of a claim. -/
def ClaimValue.values : ClaimValue → List String
  | .one value => [value]
  | .many values => values

/-- The claim an attribute becomes, if the scopes ask for it. -/
def claimOf (scopes : List String) (entry : String × List String) :
    Option (String × ClaimValue) :=
  match byAttribute entry.1, entry.2 with
  | some mapping, value :: rest =>
    if mapping.scope ∈ scopes then
      some (mapping.claim, if mapping.multivalued then .many (value :: rest) else .one value)
    else none
  | _, _ => none

/-- `claims_for`. -/
def claimsFor (scopes : List String) (released : Attributes) : List (String × ClaimValue) :=
  (released.insertionSort (·.1 ≤ ·.1)).filterMap (claimOf scopes)

/-! ## The identity -/

/-- `ReleasedIdentity`. -/
structure ReleasedIdentity where
  subject : String
  claims : List (String × ClaimValue)
  decisions : List Decision
  deriving DecidableEq, Repr

/-- What the routes read of the application: the settings, with `pairwise_id` under their salt,
the loaded policies, and the session store. -/
structure Provider where
  scope : String
  pairwiseId : (personKey spEntityId scope : String) → String
  policies : List (String × ReleasePolicy)
  fullmatch : FullMatch
  lower : String → String
  sessions : SessionStore

/-- `PolicySet.get`. -/
def Provider.policy (provider : Provider) (spEntityId : String) : ReleasePolicy :=
  (provider.policies.lookup spEntityId).getD { spEntityId := spEntityId }

/-- `subject_id`. -/
def sharedId (personKey scope : String) : String := personKey ++ "@" ++ scope

section Release

variable (provider : Provider)

/-- `_subject_identifier`. -/
def Provider.subjectIdentifier (policy : ReleasePolicy) (subject : Subject) : String :=
  match policy.subjectIdMode with
  | .shared => sharedId subject.personKey provider.scope
  | .pairwise => provider.pairwiseId subject.personKey policy.spEntityId provider.scope

/-- `release_to`. -/
def Provider.releaseTo (session : Session) (policy : ReleasePolicy) (scopes : List String)
    (ferpaDirectorySuppressed : Bool := false) (consented : List String := []) :
    ReleasedIdentity :=
  let subject : Subject := ⟨session.subjectKey, ferpaDirectorySuppressed⟩
  let normalised := normalize provider.lower session.attributes provider.scope
  let result := evaluate provider.fullmatch policy subject normalised.attributes consented
  { subject := provider.subjectIdentifier policy subject
    claims := claimsFor scopes result.attributes
    decisions := result.decisions }

/-! ## The routes -/

/-- `_issue_code` up to the code: the identity that is recorded. -/
def Provider.issueCode (session : Session) (clientId : String) (scopes : List String) :
    ReleasedIdentity :=
  provider.releaseTo session (provider.policy clientId) scopes

/-- `_claims_for`: the identity, where the session of the grant is still there. -/
def Provider.claimsOfGrant (clientId : String) (grant : AuthorizationCode) (now : Int) :
    RedisProg (Option (Session × ReleasedIdentity)) := do
  let session : Option Session ← provider.sessions.load grant.sid now
  match session with
  | none => return none
  | some session =>
    return some (session, provider.releaseTo session (provider.policy clientId) grant.scopes)

/-- `BearerToken`. -/
structure BearerToken where
  subject : String
  clientId : String
  scopes : List String
  sid : String
  familyId : String
  deriving DecidableEq, Repr

/-- `userinfo`: the identity, where the token is one and its session still there. -/
def Provider.userinfo (verified : Option BearerToken) (now : Int) :
    RedisProg (Option (Session × ReleasedIdentity)) :=
  match verified with
  | none => return none
  | some token => do
    let session : Option Session ← provider.sessions.load token.sid now
    match session with
    | none => return none
    | some session =>
      let identity := provider.releaseTo session (provider.policy token.clientId) token.scopes
      return if identity.subject ≠ token.subject then none else some (session, identity)

end Release

/-! ### Which claims there are -/

theorem values_claimsFor {scopes : List String} {released : Attributes} {claim : String}
    {value : ClaimValue} (h : (claim, value) ∈ claimsFor scopes released) :
    ∃ mapping ∈ claimMappings, mapping.claim = claim ∧ mapping.scope ∈ scopes ∧
      ∃ kept, (mapping.attr, kept) ∈ released ∧ value.values ⊆ kept := by
  obtain ⟨⟨name, kept⟩, hentry, hclaim⟩ := List.mem_filterMap.mp h
  rw [List.mem_insertionSort] at hentry
  unfold claimOf at hclaim
  split at hclaim
  · rename_i mapping first rest hmapping hvalues
    obtain rfl : kept = first :: rest := hvalues
    have hname : mapping.attr = name := by simpa using List.find?_some hmapping
    have hmem := List.mem_of_find?_eq_some hmapping
    split_ifs at hclaim with hscope
    · obtain ⟨rfl, rfl⟩ := Prod.mk.inj (Option.some.inj hclaim)
      exact ⟨mapping, hmem, rfl, hscope, first :: rest, hname ▸ hentry, List.Subset.refl _⟩
    · obtain ⟨rfl, rfl⟩ := Prod.mk.inj (Option.some.inj hclaim)
      refine ⟨mapping, hmem, rfl, hscope, first :: rest, hname ▸ hentry, ?_⟩
      simp [ClaimValue.values]
  · cases hclaim

theorem mem_claimsFor {scopes : List String} {released : Attributes} {claim : String}
    {value : ClaimValue} (h : (claim, value) ∈ claimsFor scopes released) :
    ∃ mapping ∈ claimMappings, mapping.claim = claim ∧ mapping.scope ∈ scopes ∧
      ∃ values, (mapping.attr, values) ∈ released := by
  obtain ⟨mapping, hmapping, hclaim, hscope, kept, hkept, -⟩ := values_claimsFor h
  exact ⟨mapping, hmapping, hclaim, hscope, kept, hkept⟩

theorem exists_mem_claimsFor {scopes : List String} {released : Attributes}
    {mapping : ClaimMapping} (hmapping : mapping ∈ claimMappings) (hscope : mapping.scope ∈ scopes)
    {values : List String} (hreleased : (mapping.attr, values) ∈ released) (hvalues : values ≠ []) :
    ∃ value, (mapping.claim, value) ∈ claimsFor scopes released := by
  have hfind : byAttribute mapping.attr = some mapping := by
    have hall : ∀ m ∈ claimMappings, byAttribute m.attr = some m := by decide
    exact hall mapping hmapping
  obtain ⟨first, rest, rfl⟩ := List.exists_cons_of_ne_nil hvalues
  refine ⟨if mapping.multivalued then .many (first :: rest) else .one first,
    List.mem_filterMap.mpr ⟨(mapping.attr, first :: rest), ?_, ?_⟩⟩
  · rw [List.mem_insertionSort]
    exact hreleased
  · simp [claimOf, hfind, hscope]

/-- One disclosure: which of the three routes makes it, and for what. -/
inductive Disclosure where
  | authorization (session : Session) (clientId : String) (scopes : List String)
  | redemption (clientId : String) (grant : AuthorizationCode)
  | userinfo (verified : Option BearerToken)
  deriving DecidableEq, Repr

namespace Disclosure

/-- The client that learns something. -/
def clientId : Disclosure → String
  | authorization _ clientId _ => clientId
  | redemption clientId _ => clientId
  | userinfo verified => (verified.map BearerToken.clientId).getD ""

/-- What the client asks for. -/
def scopes : Disclosure → List String
  | authorization _ _ scopes => scopes
  | redemption _ grant => grant.scopes
  | userinfo verified => (verified.map BearerToken.scopes).getD []

/-- The session a disclosure is about and the identity it discloses, if it gets that far. -/
def identity (provider : Provider) (now : Int) (r : Redis) :
    Disclosure → Option (Session × ReleasedIdentity)
  | authorization session clientId scopes =>
    some (session, provider.issueCode session clientId scopes)
  | redemption clientId grant =>
    (Redis.run now (provider.claimsOfGrant clientId grant now) r).1
  | userinfo verified => (Redis.run now (provider.userinfo verified now) r).1

/-- **Every disclosure is the same call** of `release_to`, without the flag. -/
theorem identity_eq {provider : Provider} {now : Int} {r : Redis} {d : Disclosure}
    {session : Session} {identity : ReleasedIdentity}
    (h : d.identity provider now r = some (session, identity)) :
    identity = provider.releaseTo session (provider.policy d.clientId) d.scopes := by
  cases d with
  | authorization s clientId scopes =>
    obtain ⟨rfl, rfl⟩ := Prod.mk.inj (Option.some.inj h)
    rfl
  | redemption clientId grant =>
    simp only [Disclosure.identity, Provider.claimsOfGrant, Redis.run, Prog.bind_def,
      Prog.run_bind] at h
    split at h
    · cases h
    · obtain ⟨rfl, rfl⟩ := Prod.mk.inj (Option.some.inj h)
      rfl
  | userinfo verified =>
    cases verified with
    | none => cases h
    | some token =>
      simp only [Disclosure.identity, Provider.userinfo, Redis.run, Prog.bind_def,
        Prog.run_bind] at h
      split at h
      · cases h
      · dsimp only [Prog.pure_def, Prog.run_pure] at h
        split at h
        · cases h
        · obtain ⟨rfl, rfl⟩ := Prod.mk.inj (Option.some.inj h)
          rfl

end Disclosure

end Oidc
end CampusID
