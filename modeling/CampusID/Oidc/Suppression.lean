import CampusID.Identity.Registry
import CampusID.Oidc.Identity

/-!
# Directory information of suppressed persons

The release engine withholds the directory items of a suppressed subject from every service that
is no school official (`not_released_of_suppressed`).  The flag reaches the engine through an
argument of `release_to` that no route passes, so on the OIDC paths the engine never sees it.

`honoured_iff` says for which disclosures the flag of the registry is honoured all the same:
those in which the policy passes no directory item that the scopes ask for.
-/

namespace CampusID
namespace Oidc

open Lib Policy

/-- No claim is that of a directory item. -/
def Withheld (claims : List (String × ClaimValue)) : Prop :=
  ∀ mapping ∈ claimMappings, DirectoryItem mapping.attr → ∀ value, (mapping.claim, value) ∉ claims

/-- The policy passes some of these values: its first rule about the attribute allows them, or
some of them, or there is no rule and the attribute is in the bundle of its category. -/
def Passes (fullmatch : FullMatch) (policy : ReleasePolicy) (name : String)
    (values : List String) : Prop :=
  match policy.ordered.find? (·.attr = name) with
  | none => inEntityCategoryBundle policy name = true ∧ values ≠ []
  | some rule =>
    match rule.effect with
    | .allow => values ≠ []
    | .allowValue => ∃ value ∈ values, rule.matches fullmatch value = true
    | .deny => False
    | .requireConsent => False

/-- The policy passes no directory item of the session that the scopes ask for. -/
def Closed (provider : Provider) (session : Session) (policy : ReleasePolicy)
    (scopes : List String) : Prop :=
  ∀ mapping ∈ claimMappings, DirectoryItem mapping.attr → mapping.scope ∈ scopes →
    ¬ Passes provider.fullmatch policy mapping.attr
      ((normalize provider.lower session.attributes provider.scope).attributes.values mapping.attr)

section

variable {Doc : Type} (registry : Registry Doc) (provider : Provider)

/-- The session is that of a person whose record is suppressed, and the client is no school
official. -/
def Spared (session : Session) (clientId : String) : Prop :=
  (∃ uuid ∈ session.personUuid, ∃ person ∈ registry.get uuid,
      person.ferpaDirectorySuppressed = true) ∧
    (provider.policy clientId).internalSchoolOfficial = false

/-- **What the flag promises** of a disclosure. -/
def Honoured (d : Disclosure) (session : Session) (identity : ReleasedIdentity) : Prop :=
  Spared registry provider session d.clientId → Withheld identity.claims

end

theorem eq_of_claim {m m' : ClaimMapping} (h : m ∈ claimMappings) (h' : m' ∈ claimMappings)
    (hclaim : m.claim = m'.claim) : m = m' := by
  have hall : ∀ m ∈ claimMappings, ∀ m' ∈ claimMappings, m.claim = m'.claim → m = m' := by
    decide
  exact hall m h m' h' hclaim

/-! ## What a policy passes -/

section Passes

variable {fullmatch : FullMatch} {policy : ReleasePolicy} {name : String} {values : List String}

theorem passes_iff : Passes fullmatch policy name values ↔
    (decideByRules fullmatch policy name values []).released = true ∧
      (decideByRules fullmatch policy name values []).values ≠ [] := by
  unfold Passes decideByRules
  cases policy.ordered.find? (·.attr = name) with
  | none =>
    dsimp only
    split_ifs with hbundle
    · simp [hbundle]
    · simp [hbundle]
  | some rule =>
    unfold ReleaseRule.decide
    dsimp only
    cases rule.effect with
    | allow => simp
    | allowValue => simp [List.filter_eq_nil_iff]
    | deny => simp
    | requireConsent => simp

instance : Decidable (Passes fullmatch policy name values) := decidable_of_iff _ passes_iff.symm

theorem ne_nil_of_passes (h : Passes fullmatch policy name values) : values ≠ [] := by
  unfold Passes at h
  split at h
  · exact h.2
  · split at h
    · exact h
    · obtain ⟨value, hvalue, -⟩ := h
      exact List.ne_nil_of_mem hvalue
    · exact h.elim
    · exact h.elim

theorem mem_keys_of_values {attributes : Attributes} (h : attributes.values name ≠ []) :
    name ∈ attributes.map Prod.fst := by
  unfold Attributes.values at h
  cases hl : attributes.lookup name with
  | none =>
    rw [hl] at h
    exact absurd rfl h
  | some values =>
    obtain ⟨front, back, rfl, -⟩ := List.lookup_eq_some_iff.mp hl
    simp

end Passes

/-- **With the flag**, no directory item is in the claims of a service that is no school
official. -/
theorem withheld_of_flag {provider : Provider} {session : Session} {policy : ReleasePolicy}
    {scopes consented : List String} (hofficial : policy.internalSchoolOfficial = false) :
    Withheld (provider.releaseTo session policy scopes true consented).claims := by
  intro mapping hmapping hitem value hclaim
  obtain ⟨other, hother, hname, -, values, hvalues⟩ := mem_claimsFor hclaim
  obtain rfl := eq_of_claim hother hmapping hname
  obtain ⟨-, -, hreleased, -⟩ := mem_evaluate.mp hvalues
  rw [not_released_of_suppressed rfl hofficial hitem] at hreleased
  cases hreleased

/-- **Without the flag, the policy decides**: nothing of a directory item is in the claims
exactly when the policy passes none that the scopes ask for. -/
theorem withheld_iff {provider : Provider} {session : Session} {policy : ReleasePolicy}
    {scopes : List String} :
    Withheld (provider.releaseTo session policy scopes).claims ↔
      Closed provider session policy scopes := by
  constructor
  · intro h mapping hmapping hitem hscope hpasses
    obtain ⟨hreleased, hvalues⟩ := passes_iff.mp hpasses
    let values := (normalize provider.lower session.attributes
      provider.scope).attributes.values mapping.attr
    have hdecide : decideAttribute provider.fullmatch policy ⟨session.subjectKey, false⟩
        mapping.attr values [] = decideByRules provider.fullmatch policy mapping.attr values [] :=
      decideAttribute_of_directoryItem rfl hitem
    have hentry := mem_evaluate.mpr ⟨mem_keys_of_values (ne_nil_of_passes hpasses), hvalues,
      (congrArg Decision.released hdecide).trans hreleased, congrArg Decision.values hdecide⟩
    obtain ⟨value, hclaim⟩ := exists_mem_claimsFor hmapping hscope hentry hvalues
    exact h mapping hmapping hitem value hclaim
  · intro h mapping hmapping hitem value hclaim
    obtain ⟨other, hother, hclaimName, hscope, values, hvalues⟩ := mem_claimsFor hclaim
    obtain rfl := eq_of_claim hother hmapping hclaimName
    obtain ⟨-, hne, hreleased, hkept⟩ := mem_evaluate.mp hvalues
    rw [decideAttribute_of_directoryItem rfl hitem] at hreleased hkept
    refine h other hmapping hitem hscope (passes_iff.mpr ⟨hreleased, ?_⟩)
    rw [hkept]
    exact hne

/-- **When the flag of the registry is honoured.** -/
theorem honoured_iff {Doc : Type} (registry : Registry Doc) (provider : Provider) (now : Int)
    (r : Redis) (d : Disclosure) {session : Session} {identity : ReleasedIdentity}
    (h : d.identity provider now r = some (session, identity)) :
    Honoured registry provider d session identity ↔
      (Spared registry provider session d.clientId →
        Closed provider session (provider.policy d.clientId) d.scopes) := by
  unfold Honoured
  rw [Disclosure.identity_eq h, withheld_iff]

/-! ### A student who has opted out -/

/-- A service with one rule about mail addresses. -/
def mailRule (effect : Effect) : ReleasePolicy where
  spEntityId := "https://portal.partner.example"
  rules := [{ id := "mail", effect := effect, attr := mail }]

/-- A deployment with that service.  No value filter is asked for. -/
def sampleProvider (effect : Effect) : Provider where
  scope := "campus.example"
  pairwiseId personKey spEntityId scope := personKey ++ "|" ++ spEntityId ++ "@" ++ scope
  policies := [("portal", mailRule effect)]
  fullmatch _ _ := false
  lower := Text.lower
  sessions := { sha256 := id }

/-- A student whose record is suppressed. -/
def sampleRegistry : Registry Unit where
  persons := [{ personUuid := "p1", ferpaDirectorySuppressed := true }]

/-- The student's session. -/
def sampleSession : Session where
  sid := "s1"
  idpEntityId := "https://idp.campus.example"
  nameId := "n1"
  nameIdFormat := none
  authTime := 0
  createdAt := 0
  lastSeenAt := 0
  absoluteExpiry := 43200 * second
  attributes := [(mail, ["sam@campus.example"])]
  personUuid := some "p1"

/-- Where the rule denies mail addresses, none is disclosed. -/
theorem honoured_iff_denied : Withheld ((sampleProvider .deny).issueCode sampleSession "portal"
    [scopeEmail]).claims := by
  refine (honoured_iff sampleRegistry (sampleProvider .deny) 0 Store.empty
    (.authorization sampleSession "portal" [scopeEmail]) rfl).mpr (fun _ => ?_) ⟨?_, rfl⟩
  · unfold Closed
    decide +kernel
  · exact ⟨"p1", rfl, _, rfl, rfl⟩

/-- With the flag, none is disclosed where the rule allows them either. -/
theorem withheld_of_flag_allowed : Withheld ((sampleProvider .allow).releaseTo sampleSession
    (mailRule .allow) [scopeEmail] true []).claims :=
  withheld_of_flag rfl

/-- **The flag is not honoured** where the rule allows them. -/
theorem not_honoured : ¬ ∀ (registry : Registry Unit) (provider : Provider) (now : Int) (r : Redis)
    (d : Disclosure) (session : Session) (identity : ReleasedIdentity),
    d.identity provider now r = some (session, identity) →
      Honoured registry provider d session identity := by
  intro h
  have hhonoured := h sampleRegistry (sampleProvider .allow) 0 Store.empty
    (.authorization sampleSession "portal" [scopeEmail]) _ _ rfl
  have hspared : Spared sampleRegistry (sampleProvider .allow) sampleSession "portal" :=
    ⟨⟨"p1", rfl, _, rfl, rfl⟩, rfl⟩
  have hclaim : ("email", ClaimValue.one "sam@campus.example") ∈
      ((sampleProvider .allow).issueCode sampleSession "portal" [scopeEmail]).claims := by
    decide +kernel
  exact hhonoured hspared { attr := mail, claim := "email", scope := scopeEmail } (by decide)
    (by decide) _ hclaim

end Oidc
end CampusID
