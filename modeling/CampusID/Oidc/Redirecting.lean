import CampusID.Lib.Urls
import CampusID.Oidc.Registering

/-!
# Redirect URIs

A candidate is accepted if it is registered, and a native client's also if it has the scheme, the
host, the path and the query of a registered loopback URI.

The comparison is of parts, and the candidate is what is redirected to.  `keepsToRegistered_iff` says
where that makes a difference: a candidate that cannot be split is answered with a `ValueError`, and
one that can be is accepted whatever it has in the places the comparison does not read, such as
before the host (`not_keepsToRegistered`).
-/

namespace CampusID
namespace Clients

open Lib Lib.Urls

/-- What a redirect URI raises. -/
inductive Refusal where
  | value (message : String)
  | oauth (error : OAuthError)
  deriving DecidableEq, Repr

/-- The registry's builtins, with this splitter. -/
def splitting (py : Tables) (hashSecret : String → String) : Builtins where
  urlsplit uri := (urlsplit py uri.toList).map fun parsed =>
    { scheme := String.ofList parsed.scheme
      netloc := String.ofList parsed.netloc
      fragment := String.ofList parsed.fragment
      hostname := (hostname py parsed.netloc).map String.ofList }
  hashSecret := hashSecret

variable (py : Tables)

/-- `_bracketed(parsed.hostname or "")`. -/
def hostText (parsed : Urls.SplitResult) : String :=
  bracketed (((hostname py parsed.netloc).map String.ofList).getD "")

/-- The registered URIs, one after the other. -/
def anyMatches (parsed : Urls.SplitResult) : List String → Except String Bool
  | [] => .ok false
  | uri :: uris => do
    let registered ← urlsplit py uri.toList
    if registered.scheme = "http".toList ∧ hostText py registered = hostText py parsed ∧
        registered.path = parsed.path ∧ registered.query = parsed.query then
      return true
    else anyMatches parsed uris

/-- `_matches_loopback`. -/
def OidcClient.matchesLoopback (client : OidcClient) (candidate : String) : Except String Bool := do
  let parsed ← urlsplit py candidate.toList
  if parsed.scheme ≠ "http".toList ∨ parsed.fragment ≠ [] then return false
  else if hostText py parsed ∉ loopbackHosts then return false
  else anyMatches py parsed client.redirectUris

/-- `validated_redirect_uri`. -/
def OidcClient.validatedRedirectUri (client : OidcClient) (candidate : Option String) :
    Except Refusal String :=
  match truthy candidate with
  | none => .error (.oauth ⟨"invalid_request", "redirect_uri_mismatch", "redirect_uri is required"⟩)
  | some uri =>
    let refusal := OAuthError.mk "invalid_request" "redirect_uri_mismatch"
      (Text.pyRepr uri ++ " is not registered for " ++ Text.pyRepr client.clientId)
    if uri ∈ client.redirectUris then .ok uri
    else if client.clientType = .native then
      match client.matchesLoopback py uri with
      | .error message => .error (.value message)
      | .ok true => .ok uri
      | .ok false => .error (.oauth refusal)
    else .error (.oauth refusal)

/-! ## Registered up to a port -/

/-- An http URI of a loopback address. -/
def HttpLoopback (uri : String) : Prop :=
  ∃ parsed, urlsplit py uri.toList = .ok parsed ∧ parsed.scheme = "http".toList ∧
    hostText py parsed ∈ loopbackHosts

/-- **A redirect URI is registered, up to a loopback port.** -/
structure KeepsToRegistered (client : OidcClient) (candidate : Option String) : Prop where
  answered : ∀ message, client.validatedRedirectUri py candidate ≠ .error (.value message)
  returned : ∀ uri, client.validatedRedirectUri py candidate = .ok uri → candidate = some uri
  registered : ∀ uri, client.validatedRedirectUri py candidate = .ok uri →
    uri ∈ client.redirectUris ∨ client.clientType = .native ∧
      ∃ registered ∈ client.redirectUris, HttpLoopback py registered ∧
        OnlyPort registered.toList uri.toList

/-- The parts that are compared are those of a registered URI. -/
def SameParts (parsed : Urls.SplitResult) (registered : String) : Prop :=
  ∃ parts, urlsplit py registered.toList = .ok parts ∧ parts.scheme = "http".toList ∧
    parsed.scheme = "http".toList ∧ parsed.fragment = [] ∧ hostText py parsed ∈ loopbackHosts ∧
    hostText py parts = hostText py parsed ∧ parts.path = parsed.path ∧ parts.query = parsed.query

/-- So is what is not compared: the text up to the port and the text behind it, and ports are
digits. -/
def SameAround (uri registered : String) : Prop :=
  (cut registered.toList).front = (cut uri.toList).front ∧
    (cut registered.toList).rest = (cut uri.toList).rest ∧
    IsPort (cut registered.toList).port ∧ IsPort (cut uri.toList).port

/-- **What the candidate of a native client has to be**, if it is not registered: it can be split,
and where it has the parts of registered URIs, it is like one of them in the rest. -/
def Spelled (client : OidcClient) (candidate : Option String) : Prop :=
  ∀ uri ∈ truthy candidate, client.clientType = .native → uri ∉ client.redirectUris →
    ∃ parsed, urlsplit py uri.toList = .ok parsed ∧
      ((∃ registered ∈ client.redirectUris, SameParts py parsed registered) →
        ∃ registered ∈ client.redirectUris, SameParts py parsed registered ∧
          SameAround uri registered)

variable {py} {client : OidcClient} {candidate : Option String} {uri : String}
  {uris : List String} {parsed : Urls.SplitResult} {hashSecret : String → String}

/-! ## The loopback allowance -/

theorem assertRegistrable_of_mem {py : Builtins} {clientType : ClientType}
    (h : assertAllRegistrable py clientType uris = .ok ()) (huri : uri ∈ uris) :
    assertRegistrable py clientType uri = .ok () := by
  induction uris with
  | nil => cases huri
  | cons first uris ih =>
    obtain ⟨⟨⟩, hfirst, hrest⟩ := Eff.except_bind_eq_ok.mp h
    rcases List.mem_cons.mp huri with rfl | huri
    · exact hfirst
    · exact ih hrest huri

theorem fragment_of_assertRegistrable {py : Builtins} {clientType : ClientType}
    (h : assertRegistrable py clientType uri = .ok ()) :
    ∃ parts, py.urlsplit uri = .ok parts ∧ parts.fragment = "" := by
  unfold assertRegistrable at h
  split at h
  · cases h
  · next parts hparts =>
    refine ⟨parts, hparts, ?_⟩
    by_contra hfragment
    dsimp only at h
    split_ifs at h

theorem urlsplit_registered (hmake : Makeable (splitting py hashSecret) client)
    (huri : uri ∈ client.redirectUris) :
    ∃ parts, urlsplit py uri.toList = .ok parts ∧ parts.fragment = [] := by
  obtain ⟨result, hresult, hfragment⟩ :=
    fragment_of_assertRegistrable (assertRegistrable_of_mem hmake.registrable huri)
  have hmap : (urlsplit py uri.toList).map _ = .ok result := hresult
  cases hsplit : urlsplit py uri.toList with
  | error message =>
    rw [hsplit] at hmap
    cases hmap
  | ok parts =>
    rw [hsplit] at hmap
    cases hmap
    exact ⟨parts, rfl, by simpa using hfragment⟩

theorem anyMatches_eq (parsed : Urls.SplitResult)
    (h : ∀ uri ∈ uris, ∃ parts, urlsplit py uri.toList = .ok parts) :
    ∃ found, anyMatches py parsed uris = .ok found ∧ (found = true ↔
      ∃ registered ∈ uris, ∃ parts, urlsplit py registered.toList = .ok parts ∧
        parts.scheme = "http".toList ∧ hostText py parts = hostText py parsed ∧
        parts.path = parsed.path ∧ parts.query = parsed.query) := by
  induction uris with
  | nil => exact ⟨false, rfl, by simp⟩
  | cons first uris ih =>
    obtain ⟨parts, hparts⟩ := h first List.mem_cons_self
    obtain ⟨found, hfound, hiff⟩ := ih fun uri huri => h uri (List.mem_cons_of_mem _ huri)
    by_cases hsame : parts.scheme = "http".toList ∧ hostText py parts = hostText py parsed ∧
        parts.path = parsed.path ∧ parts.query = parsed.query
    · refine ⟨true, ?_, by simpa using .inl ⟨parts, hparts, hsame⟩⟩
      show (urlsplit py first.toList >>= _) = _
      rw [hparts]
      exact if_pos hsame
    · refine ⟨found, ?_, ?_⟩
      · show (urlsplit py first.toList >>= _) = _
        rw [hparts]
        exact (if_neg hsame).trans hfound
      · rw [hiff]
        constructor
        · rintro ⟨registered, hmem, hregistered⟩
          exact ⟨registered, List.mem_cons_of_mem _ hmem, hregistered⟩
        · rintro ⟨registered, hmem, parts', hparts', hsame'⟩
          rcases List.mem_cons.mp hmem with rfl | hmem
          · rw [hparts] at hparts'
            cases hparts'
            exact absurd hsame' hsame
          · exact ⟨registered, hmem, parts', hparts', hsame'⟩

/-- **The loopback allowance is about parts.** -/
theorem matchesLoopback_eq (hmake : Makeable (splitting py hashSecret) client)
    (hparsed : urlsplit py uri.toList = .ok parsed) :
    ∃ found, client.matchesLoopback py uri = .ok found ∧
      (found = true ↔ ∃ registered ∈ client.redirectUris, SameParts py parsed registered) := by
  have hsplit : ∀ uri ∈ client.redirectUris, ∃ parts, urlsplit py uri.toList = .ok parts := by
    intro uri huri
    obtain ⟨parts, hparts, -⟩ := urlsplit_registered hmake huri
    exact ⟨parts, hparts⟩
  obtain ⟨found, hfound, hiff⟩ := anyMatches_eq parsed hsplit
  have hunfold : client.matchesLoopback py uri =
      if parsed.scheme ≠ "http".toList ∨ parsed.fragment ≠ [] then .ok false
      else if hostText py parsed ∉ loopbackHosts then .ok false
      else anyMatches py parsed client.redirectUris := by
    unfold OidcClient.matchesLoopback
    rw [hparsed]
    rfl
  rw [hunfold]
  split_ifs with hscheme hhost
  · refine ⟨false, rfl, by simp, ?_⟩
    rintro ⟨_, -, _, -, -, hhttp, hfragment, -⟩
    exact absurd hscheme (by simp [hhttp, hfragment])
  · refine ⟨found, hfound, hiff.trans ?_⟩
    simp only [not_or, not_not] at hscheme
    constructor
    · rintro ⟨registered, hmem, parts, hparts, hhttp, hsame⟩
      exact ⟨registered, hmem, parts, hparts, hhttp, hscheme.1, hscheme.2, hhost, hsame⟩
    · rintro ⟨registered, hmem, parts, hparts, hhttp, -, -, -, hsame⟩
      exact ⟨registered, hmem, parts, hparts, hhttp, hsame⟩
  · refine ⟨false, rfl, by simp, ?_⟩
    rintro ⟨_, -, _, -, -, -, -, hloopback, -⟩
    exact absurd hloopback hhost

theorem netloc_ne_nil (h : hostText py parsed ∈ loopbackHosts) : parsed.netloc ≠ [] := by
  intro hnil
  have hname : hostname py [] = none := by
    unfold hostname
    rw [if_pos (by decide)]
  unfold hostText at h
  rw [hnil, hname] at h
  exact absurd h (by decide)

/-- **The port is not compared**: what differs from a registered URI in the port only has its
parts. -/
theorem sameParts_of_onlyPort {registered : String}
    (hmake : Makeable (splitting py hashSecret) client) (hmem : registered ∈ client.redirectUris)
    (hloopback : HttpLoopback py registered) (honly : OnlyPort registered.toList uri.toList)
    (hparsed : urlsplit py uri.toList = .ok parsed) : SameParts py parsed registered := by
  obtain ⟨parts, hparts, hscheme, hhost⟩ := hloopback
  obtain ⟨parts', hparts', hfragment⟩ := urlsplit_registered hmake hmem
  rw [hparts] at hparts'
  cases hparts'
  obtain ⟨hscheme', hpath, hquery, hfragment', hname⟩ :=
    honly.parts hparts (netloc_ne_nil hhost) hparsed
  have hhost' : hostText py parsed = hostText py parts := by
    unfold hostText
    rw [hname]
  refine ⟨parts, hparts, hscheme, hscheme'.trans hscheme, hfragment'.trans hfragment, ?_,
    hhost'.symm, hpath.symm, hquery.symm⟩
  rw [hhost']
  exact hhost

theorem SameParts.httpLoopback {registered : String} (h : SameParts py parsed registered) :
    HttpLoopback py registered := by
  obtain ⟨parts, hparts, hscheme, -, -, hloopback, hhost, -⟩ := h
  refine ⟨parts, hparts, hscheme, ?_⟩
  rw [hhost]
  exact hloopback

/-- **What has the parts of a registered URI** differs from it in the port only if it is like it in
what is not compared. -/
theorem SameParts.onlyPort_iff {registered : String} (h : SameParts py parsed registered)
    (hparsed : urlsplit py uri.toList = .ok parsed) (hne : registered ≠ uri) :
    OnlyPort registered.toList uri.toList ↔ SameAround uri registered := by
  obtain ⟨parts, hparts, hscheme, hhost⟩ := h.httpLoopback
  obtain ⟨-, -, -, -, -, hloopback, -⟩ := h
  exact onlyPort_iff_cut hparts (netloc_ne_nil hhost) hparsed (netloc_ne_nil hloopback)
    fun heq => hne (String.toList_injective heq)

theorem exists_onlyPort_iff (hmake : Makeable (splitting py hashSecret) client)
    (hparsed : urlsplit py uri.toList = .ok parsed) (hnot : uri ∉ client.redirectUris) :
    (∃ registered ∈ client.redirectUris, HttpLoopback py registered ∧
        OnlyPort registered.toList uri.toList) ↔
      ∃ registered ∈ client.redirectUris, SameParts py parsed registered ∧
        SameAround uri registered := by
  have hne : ∀ registered ∈ client.redirectUris, registered ≠ uri := by
    rintro registered hmem rfl
    exact hnot hmem
  constructor
  · rintro ⟨registered, hmem, hloopback, honly⟩
    have hsame := sameParts_of_onlyPort hmake hmem hloopback honly hparsed
    exact ⟨registered, hmem, hsame, (hsame.onlyPort_iff hparsed (hne _ hmem)).mp honly⟩
  · rintro ⟨registered, hmem, hsame, haround⟩
    exact ⟨registered, hmem, hsame.httpLoopback,
      (hsame.onlyPort_iff hparsed (hne _ hmem)).mpr haround⟩

/-! ## Answers -/

theorem validatedRedirectUri_some (py : Tables) (client : OidcClient)
    (hcandidate : truthy candidate = some uri) :
    client.validatedRedirectUri py candidate =
      if uri ∈ client.redirectUris then .ok uri
      else if client.clientType = .native then
        match client.matchesLoopback py uri with
        | .error message => .error (.value message)
        | .ok true => .ok uri
        | .ok false => .error (.oauth ⟨"invalid_request", "redirect_uri_mismatch",
            Text.pyRepr uri ++ " is not registered for " ++ Text.pyRepr client.clientId⟩)
      else .error (.oauth ⟨"invalid_request", "redirect_uri_mismatch",
        Text.pyRepr uri ++ " is not registered for " ++ Text.pyRepr client.clientId⟩) := by
  unfold OidcClient.validatedRedirectUri
  rw [hcandidate]

theorem KeepsToRegistered.of_oauth {error : OAuthError}
    (h : client.validatedRedirectUri py candidate = .error (.oauth error)) :
    KeepsToRegistered py client candidate where
  answered message hmessage := by
    rw [h] at hmessage
    cases hmessage
  returned uri huri := by
    rw [h] at huri
    cases huri
  registered uri huri := by
    rw [h] at huri
    cases huri

theorem keepsToRegistered_of_ok (hcandidate : candidate = some uri)
    (h : client.validatedRedirectUri py candidate = .ok uri) :
    KeepsToRegistered py client candidate ↔
      (uri ∈ client.redirectUris ∨ client.clientType = .native ∧
        ∃ registered ∈ client.redirectUris, HttpLoopback py registered ∧
          OnlyPort registered.toList uri.toList) := by
  constructor
  · exact fun hkeeps => hkeeps.registered uri h
  · intro hregistered
    refine ⟨fun message hmessage => ?_, fun uri' huri' => ?_, fun uri' huri' => ?_⟩
    · rw [h] at hmessage
      cases hmessage
    · rw [h] at huri'
      cases huri'
      exact hcandidate
    · rw [h] at huri'
      cases huri'
      exact hregistered

/-- **When a redirect URI is registered up to a loopback port.** -/
theorem keepsToRegistered_iff (py : Tables) (hashSecret : String → String) (client : OidcClient)
    (candidate : Option String) (hmade : client.make (splitting py hashSecret) = .ok client) :
    KeepsToRegistered py client candidate ↔ Spelled py client candidate := by
  obtain ⟨-, hmake⟩ := make_eq_ok.mp hmade
  cases hcandidate : truthy candidate with
  | none =>
    have hvalidated : client.validatedRedirectUri py candidate =
        .error (.oauth ⟨"invalid_request", "redirect_uri_mismatch", "redirect_uri is required"⟩) := by
      unfold OidcClient.validatedRedirectUri
      rw [hcandidate]
    refine iff_of_true (.of_oauth hvalidated) fun uri huri => ?_
    rw [hcandidate] at huri
    cases huri
  | some uri =>
    have hsome : candidate = some uri := (Option.filter_eq_some_iff.mp hcandidate).1
    have hvalidated := validatedRedirectUri_some py client hcandidate
    have hspelled : Spelled py client candidate ↔ (client.clientType = .native →
        uri ∉ client.redirectUris → ∃ parsed, urlsplit py uri.toList = .ok parsed ∧
          ((∃ registered ∈ client.redirectUris, SameParts py parsed registered) →
            ∃ registered ∈ client.redirectUris, SameParts py parsed registered ∧
              SameAround uri registered)) := by
      unfold Spelled
      rw [hcandidate]
      simp only [Option.mem_some_iff, forall_eq']
    rw [hspelled]
    by_cases hregistered : uri ∈ client.redirectUris
    · rw [if_pos hregistered] at hvalidated
      rw [keepsToRegistered_of_ok hsome hvalidated]
      exact iff_of_true (.inl hregistered) fun _ hnot => absurd hregistered hnot
    rw [if_neg hregistered] at hvalidated
    by_cases hnative : client.clientType = .native
    · rw [if_pos hnative] at hvalidated
      cases hparsed : urlsplit py uri.toList with
      | error message =>
        -- a text that cannot be split is not answered
        have hmatches : client.matchesLoopback py uri = .error message := by
          unfold OidcClient.matchesLoopback
          rw [hparsed]
          rfl
        rw [hmatches] at hvalidated
        refine iff_of_false (fun hkeeps => hkeeps.answered _ hvalidated) fun h => ?_
        obtain ⟨_, ⟨⟩, -⟩ := h hnative hregistered
      | ok parsed =>
        obtain ⟨found, hmatches, hfound⟩ := matchesLoopback_eq hmake hparsed
        rw [hmatches] at hvalidated
        cases found with
        | false =>
          refine iff_of_true (.of_oauth hvalidated) fun _ _ => ⟨parsed, rfl, fun hsame => ?_⟩
          exact absurd (hfound.mpr hsame) (by decide)
        | true =>
          rw [keepsToRegistered_of_ok hsome hvalidated,
            exists_onlyPort_iff hmake hparsed hregistered]
          constructor
          · rintro (hmem | ⟨-, hsame⟩)
            · exact absurd hmem hregistered
            · exact fun _ _ => ⟨parsed, rfl, fun _ => hsame⟩
          · intro h
            obtain ⟨_, ⟨⟩, haround⟩ := h hnative hregistered
            exact .inr ⟨hnative, haround (hfound.mp rfl)⟩
    · rw [if_neg hnative] at hvalidated
      exact iff_of_true (.of_oauth hvalidated) fun h => absurd h hnative

/-! ### A desktop application -/

/-- Tables of ASCII text, and no address but one in brackets. -/
def asciiTables : Tables where
  lower text := text.map Char.toLower
  nfkc text := text
  checkBracketed netloc :=
    if hostOf netloc = "::1".toList then none else some "Invalid IPv6 URL"

/-- An application that is installed, and listens on a port of its own. -/
def desktop : OidcClient where
  clientId := "campus-desktop"
  clientType := .native
  redirectUris := ["http://127.0.0.1/cb"]
  allowedScopes := {"openid"}

theorem desktop_make : desktop.make (splitting asciiTables id) = .ok desktop :=
  make_eq_ok.mpr ⟨rfl, by decide, by decide +kernel, by decide, by decide, by decide⟩

/-- Another port. -/
theorem keepsToRegistered_port :
    KeepsToRegistered asciiTables desktop (some "http://127.0.0.1:49152/cb") := by
  refine (keepsToRegistered_iff asciiTables id desktop _ desktop_make).mpr ?_
  intro uri huri hnative hnot
  obtain rfl : "http://127.0.0.1:49152/cb" = uri := Option.some.inj huri
  have hport : IsPort ":49152".toList :=
    .inr ⟨"49152".toList, by decide +kernel, List.all_eq_true.mp (by decide +kernel)⟩
  refine ⟨⟨"http".toList, "127.0.0.1:49152".toList, "/cb".toList, [], []⟩, by decide +kernel,
    fun _ => ⟨"http://127.0.0.1/cb", by decide, ?_, ?_⟩⟩
  · exact ⟨⟨"http".toList, "127.0.0.1".toList, "/cb".toList, [], []⟩, by decide +kernel⟩
  · exact ⟨by decide +kernel, by decide +kernel, .inl (by decide +kernel), hport⟩

/-- **An open bracket is not answered, and a userinfo is let through.** -/
theorem not_keepsToRegistered : desktop.make (splitting asciiTables id) = .ok desktop ∧
    ¬ KeepsToRegistered asciiTables desktop (some "http://[") ∧
    ¬ KeepsToRegistered asciiTables desktop (some "http://evil@127.0.0.1/cb") := by
  refine ⟨desktop_make, fun h => ?_, fun h => ?_⟩
  · exact h.answered "Invalid IPv6 URL" (by decide +kernel)
  · have hreturned : desktop.validatedRedirectUri asciiTables (some "http://evil@127.0.0.1/cb") =
        .ok "http://evil@127.0.0.1/cb" := by decide +kernel
    rcases h.registered _ hreturned with hmem | ⟨-, registered, hmem, -, honly⟩
    · exact absurd hmem (by decide)
    · obtain rfl := List.mem_singleton.mp hmem
      exact absurd honly.cut.1 (by decide +kernel)

end Clients
end CampusID
