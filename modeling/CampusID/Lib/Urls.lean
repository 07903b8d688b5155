import CampusID.Lib.Delimited
import Mathlib.Data.List.DropRight
import Mathlib.Data.List.TakeWhile

/-!
# Locators and their parts

`urlsplit` drops what it does not read and cuts the rest into a scheme, an authority, a path, a
query and a fragment; `hostname` reads the host off the authority.  All of them work on characters.

`OnlyPort` says of the texts themselves that they differ in the port and nowhere else: that is read
off the three pieces of `cut` (`onlyPort_iff_cut`).  Texts that differ so have the same parts, the
authority apart, and the same host (`OnlyPort.parts`).  The converse fails: a scheme, a host, a path
and a query say little about the text they have been read from.
-/

namespace CampusID
namespace Lib
namespace Urls

open Delimited

/-! ## Separators -/

section Separators

variable {α : Type*} [DecidableEq α]

/-- `text.partition(sep)[0]`. -/
def before (sep : α) (text : List α) : List α := text.takeWhile (· ≠ sep)

/-- `text.partition(sep)[2]`. -/
def after (sep : α) (text : List α) : List α := (text.dropWhile (· ≠ sep)).tail

variable {sep : α} {a b text : List α}

theorem ne_of_notMem (h : sep ∉ a) : ∀ c ∈ a, decide (c ≠ sep) = true := by
  intro c hc
  exact decide_eq_true fun hsep => h (hsep ▸ hc)

theorem dropWhile_cut (h : sep ∉ a) : (a ++ sep :: b).dropWhile (· ≠ sep) = sep :: b := by
  rw [List.dropWhile_append_of_pos (ne_of_notMem h), List.dropWhile_cons_of_neg (by simp)]

theorem before_cut (h : sep ∉ a) : before sep (a ++ sep :: b) = a :=
  takeWhile_token (ne_of_notMem h) (stops_cons (by simp) b)

theorem after_cut (h : sep ∉ a) : after sep (a ++ sep :: b) = b := by
  rw [after, dropWhile_cut h]
  rfl

theorem before_of_notMem (h : sep ∉ text) : before sep text = text :=
  List.takeWhile_eq_self_iff.mpr (ne_of_notMem h)

theorem after_of_notMem (h : sep ∉ text) : after sep text = [] := by
  rw [after, List.dropWhile_eq_nil_iff.mpr (ne_of_notMem h)]
  rfl

theorem notMem_before : sep ∉ before sep text := by
  intro h
  have hne := List.mem_takeWhile_imp h
  simp at hne

theorem eq_before_after (h : sep ∈ text) : text = before sep text ++ sep :: after sep text := by
  obtain ⟨a, b, rfl, ha⟩ := List.eq_append_cons_of_mem h
  rw [before_cut ha, after_cut ha]

theorem before_append (h : sep ∈ a) : before sep (a ++ b) = before sep a := by
  obtain ⟨x, y, rfl, hx⟩ := List.eq_append_cons_of_mem h
  rw [List.append_assoc, List.cons_append, before_cut hx, before_cut hx]

theorem after_suffix : after sep text <:+ text :=
  (List.tail_suffix _).trans (List.dropWhile_suffix _)

end Separators

/-! ## The splitter -/

/-- What is looked up elsewhere. -/
structure Tables where
  /-- `str.lower`. -/
  lower : List Char → List Char
  /-- `unicodedata.normalize("NFKC", ·)`. -/
  nfkc : List Char → List Char
  /-- The message that refuses an authority with brackets. -/
  checkBracketed : List Char → Option String

/-- `_WHATWG_C0_CONTROL_OR_SPACE`. -/
def isControlOrSpace (c : Char) : Bool := c.toNat ≤ 32

/-- `_UNSAFE_URL_BYTES_TO_REMOVE`. -/
def isUnsafe (c : Char) : Bool := c = '\t' ∨ c = '\r' ∨ c = '\n'

/-- `scheme_chars`. -/
def isSchemeChar (c : Char) : Bool := c.isAlphanum ∨ c = '+' ∨ c = '-' ∨ c = '.'

/-- What ends an authority. -/
def isDelimiter (c : Char) : Bool := c = '/' ∨ c = '?' ∨ c = '#'

/-- A text without what is removed from it. -/
def safe (text : List Char) : List Char := text.filter fun c => !isUnsafe c

/-- What is read of a locator. -/
def clean (url : List Char) : List Char := safe (url.dropWhile isControlOrSpace)

/-- The scheme, and what follows it. -/
def splitScheme (url : List Char) : List Char × List Char :=
  if ':' ∈ url ∧ (before ':' url).head?.any Char.isAlpha ∧ (before ':' url).all isSchemeChar then
    ((before ':' url).map Char.toLower, after ':' url)
  else ([], url)

/-- `_splitnetloc` behind two slashes. -/
def splitNetloc (url : List Char) : List Char × List Char :=
  match url with
  | '/' :: '/' :: url => (url.takeWhile (!isDelimiter ·), url.dropWhile (!isDelimiter ·))
  | url => ([], url)

/-- `SplitResult`. -/
structure SplitResult where
  scheme : List Char
  netloc : List Char
  path : List Char
  query : List Char
  fragment : List Char
  deriving DecidableEq, Repr

variable (py : Tables)

/-- `_checknetloc`. -/
def checkNetloc (netloc : List Char) : Option String :=
  if netloc.all fun c => c.toNat < 128 then none
  else
    let n := netloc.filter fun c => ¬ (c = '@' ∨ c = ':' ∨ c = '#' ∨ c = '?')
    if n = py.nfkc n then none
    else if (py.nfkc n).any fun c => c = '/' ∨ c = '?' ∨ c = '#' ∨ c = '@' ∨ c = ':' then
      some ("netloc '" ++ String.ofList netloc ++
        "' contains invalid characters under NFKC normalization")
    else none

/-- The end of `urlsplit`, when the authority has been cut off. -/
def assemble (scheme netloc url : List Char) : Except String SplitResult :=
  if ¬ ('[' ∈ netloc ↔ ']' ∈ netloc) then .error "Invalid IPv6 URL"
  else
    match if '[' ∈ netloc then py.checkBracketed netloc else none with
    | some message => .error message
    | none =>
      match checkNetloc py netloc with
      | some message => .error message
      | none => .ok {
          scheme
          netloc
          path := before '?' (before '#' url)
          query := after '?' (before '#' url)
          fragment := after '#' url }

/-- `urlsplit`, or the message of its `ValueError`. -/
def urlsplit (url : List Char) : Except String SplitResult :=
  let (scheme, url) := splitScheme (clean url)
  let (netloc, url) := splitNetloc url
  assemble py scheme netloc url

/-- An authority without its userinfo. -/
def hostinfo (netloc : List Char) : List Char := netloc.rtakeWhile (· ≠ '@')

/-- `_hostinfo[0]`. -/
def hostOf (netloc : List Char) : List Char :=
  if '[' ∈ hostinfo netloc then before ']' (after '[' (hostinfo netloc))
  else before ':' (hostinfo netloc)

/-- `hostname`. -/
def hostname (netloc : List Char) : Option (List Char) :=
  if hostOf netloc = [] then none
  else some (py.lower (before '%' (hostOf netloc)) ++ (hostOf netloc).dropWhile (· ≠ '%'))

/-! ## Texts around a port -/

/-- A port: nothing, or a colon and digits. -/
def IsPort (port : List Char) : Prop :=
  port = [] ∨ ∃ digits : List Char, port = ':' :: digits ∧ ∀ c ∈ digits, c.isDigit = true

/-- What is before an authority: two slashes, with nothing between them that is read. -/
def IsLead (lead : List Char) : Prop :=
  ∃ scheme skipped : List Char, lead = scheme ++ '/' :: (skipped ++ ['/']) ∧ '/' ∉ scheme ∧
    ∀ c ∈ skipped, isUnsafe c = true

/-- A host. -/
inductive IsHost : List Char → Prop
  | name {host : List Char} (h : ∀ c ∈ host, c ≠ '@' ∧ c ≠ ':' ∧ c ≠ '[') : IsHost host
  | bracketed {first inside last : List Char} (hfirst : '[' ∉ first) (hinside : ']' ∉ inside)
      (hlast : ':' ∉ last) (hat : '@' ∉ first ++ '[' :: (inside ++ ']' :: last)) :
      IsHost (first ++ '[' :: (inside ++ ']' :: last))

/-- An authority without a port. -/
def Portless (authority : List Char) : Prop :=
  ∃ userinfo host : List Char, authority = userinfo ++ host ∧
    (userinfo = [] ∨ ∃ user, userinfo = user ++ ['@']) ∧ IsHost host

/-- A text up to its port. -/
def UpToPort (front : List Char) : Prop :=
  ∃ lead authority : List Char, front = lead ++ authority ∧ IsLead lead ∧ Portless authority ∧
    ∀ c ∈ authority, isDelimiter c = false

/-- **The texts differ in the port and nowhere else.** -/
def OnlyPort (url url' : List Char) : Prop :=
  ∃ front port port' rest : List Char, url = front ++ port ++ rest ∧
    url' = front ++ port' ++ rest ∧ UpToPort front ∧ IsPort port ∧ IsPort port' ∧
    Stops (!isDelimiter ·) rest

/-- A text around its port. -/
structure Cut where
  front : List Char
  port : List Char
  rest : List Char
  deriving DecidableEq

/-- What an authority has behind its host, from the first colon on. -/
def portText (authority : List Char) : List Char :=
  (if '[' ∈ hostinfo authority then after ']' (after '[' (hostinfo authority))
    else hostinfo authority).dropWhile (· ≠ ':')

/-- The text before the port of the authority, the port, and the text behind it. -/
def cut (url : List Char) : Cut :=
  let tail := after '/' (after '/' url)
  let port := portText (tail.takeWhile (!isDelimiter ·))
  let rest := tail.dropWhile (!isDelimiter ·)
  ⟨url.take (url.length - (port ++ rest).length), port, rest⟩

/-! ## What is read of a text around an authority -/

variable {py : Tables} {lead authority front port rest text url url' scheme netloc : List Char}
  {p p' : SplitResult}

theorem mem_safe {c : Char} (h : c ∈ safe text) : c ∈ text := (List.mem_filter.mp h).1

theorem safe_append (a b : List Char) : safe (a ++ b) = safe a ++ safe b := List.filter_append ..

theorem safe_cons {c : Char} (h : isUnsafe c = false) : safe (c :: text) = c :: safe text :=
  List.filter_cons_of_pos (by simp [h])

theorem safe_skipped (h : ∀ c ∈ text, isUnsafe c = true) : safe text = [] :=
  List.filter_eq_nil_iff.mpr fun c hc => by simp [h c hc]

theorem isUnsafe_of_isDelimiter {c : Char} (h : isDelimiter c = true) : isUnsafe c = false := by
  simp only [isDelimiter, Bool.decide_or, Bool.or_eq_true, decide_eq_true_eq] at h
  rcases h with rfl | rfl | rfl <;> decide

theorem IsPort.not_mem {c : Char} (h : IsPort port) (hc : c ≠ ':') (hdigit : c.isDigit = false) :
    c ∉ port := by
  intro hmem
  rcases h with rfl | ⟨digits, rfl, hdigits⟩
  · cases hmem
  · rcases List.mem_cons.mp hmem with rfl | hmem
    · exact hc rfl
    · rw [hdigits c hmem] at hdigit
      cases hdigit

theorem IsPort.safe (h : IsPort port) : safe port = port := by
  have hremoves : ∀ c ∈ port, isUnsafe c = false := by
    intro c hc
    by_contra hremoved
    simp only [isUnsafe, Bool.decide_or, Bool.or_eq_false_iff, decide_eq_false_iff_not, not_and_or,
      not_not] at hremoved
    rcases hremoved with rfl | rfl | rfl <;> exact h.not_mem (by decide) (by decide) hc
  exact List.filter_eq_self.mpr fun c hc => by simp [hremoves c hc]

theorem IsPort.dropWhile (h : IsPort port) : port.dropWhile (· ≠ ':') = port := by
  rcases h with rfl | ⟨digits, rfl, -⟩
  · rfl
  · exact List.dropWhile_cons_of_neg (by simp)

theorem clean_cut (text rest : List Char) :
    clean (text ++ '/' :: rest) = clean text ++ '/' :: safe rest := by
  have hslash : (('/' : Char) :: rest).dropWhile isControlOrSpace = '/' :: rest :=
    List.dropWhile_cons_of_neg (by decide)
  unfold clean
  rw [List.dropWhile_append]
  split_ifs with hnil
  · rw [List.isEmpty_iff.mp hnil, hslash, safe_cons (by decide)]
    rfl
  · rw [safe_append, safe_cons (by decide)]

theorem splitScheme_cut (h : '/' ∉ text) : splitScheme (text ++ '/' :: rest) =
    ((splitScheme text).1, (splitScheme text).2 ++ '/' :: rest) := by
  unfold splitScheme
  by_cases hcolon : ':' ∈ text
  · obtain ⟨a, b, rfl, ha⟩ := List.eq_append_cons_of_mem hcolon
    have hassoc : a ++ ':' :: b ++ '/' :: rest = a ++ ':' :: (b ++ '/' :: rest) := by simp
    have hmem : ':' ∈ a ++ ':' :: (b ++ '/' :: rest) := by simp
    rw [hassoc, before_cut ha, before_cut ha, after_cut ha, after_cut ha]
    simp only [hmem, hcolon, true_and]
    split_ifs <;> simp
  · -- without a colon the slash would be a part of the scheme
    have hslash : (before ':' (text ++ '/' :: rest)).all isSchemeChar = false := by
      rw [before, List.takeWhile_append_of_pos (ne_of_notMem hcolon),
        List.takeWhile_cons_of_pos (by decide)]
      simp [isSchemeChar]
    rw [if_neg (by simp [hslash]), if_neg (by simp [hcolon])]

theorem slash_notMem_splitScheme (h : '/' ∉ text) : '/' ∉ (splitScheme text).2 := by
  unfold splitScheme
  split_ifs
  · exact fun hmem => h (after_suffix.mem hmem)
  · exact h

theorem slash_notMem_clean (h : '/' ∉ text) : '/' ∉ clean text := fun hmem =>
  h ((List.dropWhile_suffix _).mem (mem_safe hmem))

/-- What is before an authority says what the scheme is, whatever follows. -/
theorem IsLead.splitScheme (h : IsLead lead) : ∃ scheme skipped : List Char, '/' ∉ skipped ∧
    ∀ text, splitScheme (clean (lead ++ text)) =
      (scheme, skipped ++ '/' :: '/' :: safe text) := by
  obtain ⟨scheme, skipped, rfl, hscheme, hskipped⟩ := h
  have hslash : '/' ∉ clean scheme := slash_notMem_clean hscheme
  refine ⟨(Urls.splitScheme (clean scheme)).1, _, slash_notMem_splitScheme hslash, fun text => ?_⟩
  have hread : safe (skipped ++ ['/'] ++ text) = '/' :: safe text := by
    rw [safe_append, safe_append, safe_skipped hskipped]
    rfl
  rw [List.append_assoc, List.cons_append, clean_cut, hread, splitScheme_cut hslash]

theorem splitNetloc_of_ne {skipped : List Char} (hslash : '/' ∉ skipped) (hne : skipped ≠ []) :
    splitNetloc (skipped ++ text) = ([], skipped ++ text) := by
  cases skipped with
  | nil => exact absurd rfl hne
  | cons c skipped =>
    have hc : c ≠ '/' := fun h => hslash (h ▸ List.mem_cons_self)
    unfold splitNetloc
    split
    · next heq => exact absurd (List.cons.inj heq).1 hc
    · rfl

theorem not_isDelimiter_safe (h : ∀ c ∈ authority, isDelimiter c = false) :
    ∀ c ∈ safe authority, (!isDelimiter c) = true := fun c hc => by
  simp [h c (mem_safe hc)]

theorem stops_safe (h : Stops (!isDelimiter ·) rest) : Stops (!isDelimiter ·) (safe rest) := by
  cases rest with
  | nil => exact h
  | cons c rest =>
    have hc : isDelimiter c = true := by simpa using h c rfl
    rw [safe_cons (isUnsafe_of_isDelimiter hc)]
    exact stops_cons (by simp [hc]) _

/-- **How a text around an authority is read.** -/
theorem IsLead.urlsplit (py : Tables) (h : IsLead lead) :
    ∃ scheme skipped : List Char, '/' ∉ skipped ∧ ∀ authority rest, (∀ c ∈ authority, isDelimiter c = false) → Stops (!isDelimiter ·) rest →
      urlsplit py (lead ++ authority ++ rest) =
        if skipped = [] then assemble py scheme (safe authority) (safe rest)
        else assemble py scheme [] (skipped ++ '/' :: '/' :: safe (authority ++ rest)) := by
  obtain ⟨scheme, skipped, hslash, hsplit⟩ := h.splitScheme
  refine ⟨scheme, skipped, hslash, fun authority rest hauthority hrest => ?_⟩
  have hinside := not_isDelimiter_safe hauthority
  unfold Urls.urlsplit
  rw [List.append_assoc, hsplit]
  split_ifs with hskipped
  · subst hskipped
    show assemble py scheme ((safe (authority ++ rest)).takeWhile _)
      ((safe (authority ++ rest)).dropWhile _) = _
    rw [safe_append, takeWhile_token hinside (stops_safe hrest),
      dropWhile_token hinside (stops_safe hrest)]
  · show assemble py scheme (splitNetloc _).1 (splitNetloc _).2 = _
    rw [splitNetloc_of_ne hslash hskipped]

theorem assemble_eq_ok (h : assemble py scheme netloc rest = .ok p) :
    p = ⟨scheme, netloc, before '?' (before '#' rest), after '?' (before '#' rest),
      after '#' rest⟩ := by
  unfold assemble at h
  split_ifs at h
  all_goals
    split at h
    · cases h
    · split at h
      · cases h
      · exact (Except.ok.inj h).symm

/-! ## Authorities -/

theorem IsHost.at_notMem {host : List Char} (h : IsHost host) : '@' ∉ host := by
  cases h with
  | name h => exact fun hmem => (h _ hmem).1 rfl
  | bracketed _ _ _ hat => exact hat

/-- The host of an authority, whatever port it has. -/
theorem hostinfo_append {userinfo host : List Char}
    (huser : userinfo = [] ∨ ∃ user, userinfo = user ++ ['@']) (hhost : '@' ∉ host) :
    hostinfo (userinfo ++ host) = host := by
  have hall : ∀ c ∈ host.reverse, decide (c ≠ '@') = true :=
    ne_of_notMem (by simpa using hhost)
  have hstops : Stops (fun c => decide (c ≠ '@')) userinfo.reverse := by
    rcases huser with rfl | ⟨user, rfl⟩
    · exact stops_nil _
    · rw [List.reverse_append]
      exact stops_cons (by simp) _
  unfold hostinfo List.rtakeWhile
  rw [List.reverse_append, takeWhile_token hall hstops, List.reverse_reverse]

theorem userinfo_append_hostinfo (authority : List Char) : ∃ userinfo : List Char,
    authority = userinfo ++ hostinfo authority ∧
      (userinfo = [] ∨ ∃ user, userinfo = user ++ ['@']) := by
  refine ⟨authority.rdropWhile (· ≠ '@'), List.rdropWhile_append_rtakeWhile.symm, ?_⟩
  by_cases hnil : authority.rdropWhile (· ≠ '@') = []
  · exact .inl hnil
  · refine .inr ⟨(authority.rdropWhile (· ≠ '@')).dropLast, ?_⟩
    have hlast := List.rdropWhile_last_not (· ≠ '@') authority hnil
    have hat : (authority.rdropWhile (· ≠ '@')).getLast hnil = '@' := by simpa using hlast
    conv_lhs => rw [← List.dropLast_append_getLast hnil, hat]

theorem at_notMem_hostinfo : '@' ∉ hostinfo authority := fun h => by
  have hne := List.mem_rtakeWhile_imp h
  simp at hne

theorem before_port (hhost : ':' ∉ text) (hport : IsPort port) :
    before ':' (text ++ port) = before ':' text := by
  rcases hport with rfl | ⟨digits, rfl, -⟩
  · rw [List.append_nil]
  · rw [before_cut hhost, before_of_notMem hhost]

theorem hostinfo_port {userinfo host : List Char}
    (huser : userinfo = [] ∨ ∃ user, userinfo = user ++ ['@']) (hhost : IsHost host)
    (hport : IsPort port) : hostinfo (userinfo ++ host ++ port) = host ++ port := by
  have hat : '@' ∉ host ++ port := by
    simp [hhost.at_notMem, hport.not_mem (c := '@') (by decide) (by decide)]
  rw [List.append_assoc, hostinfo_append huser hat]

theorem hostOf_append (h : Portless authority) (hport : IsPort port) :
    hostOf (authority ++ port) = hostOf authority := by
  obtain ⟨userinfo, host, rfl, huser, hhost⟩ := h
  unfold hostOf
  rw [hostinfo_port huser hhost hport, hostinfo_append huser hhost.at_notMem]
  cases hhost with
  | name h =>
    have hhere : '[' ∉ host := fun hmem => (h _ hmem).2.2 rfl
    have hcolon : ':' ∉ host := fun hmem => (h _ hmem).2.1 rfl
    have hthere : '[' ∉ port := hport.not_mem (by decide) (by decide)
    rw [if_neg (by simp [hhere, hthere]), if_neg hhere, before_port hcolon hport]
  | @bracketed first inside last hfirst hinside hlast hat =>
    have hassoc : first ++ '[' :: (inside ++ ']' :: last) ++ port =
        first ++ '[' :: (inside ++ ']' :: (last ++ port)) := by simp
    rw [hassoc, if_pos (by simp), if_pos (by simp), after_cut hfirst, after_cut hfirst,
      before_cut hinside, before_cut hinside]

theorem portText_append (h : Portless authority) (hport : IsPort port) :
    portText (authority ++ port) = port := by
  obtain ⟨userinfo, host, rfl, huser, hhost⟩ := h
  unfold portText
  rw [hostinfo_port huser hhost hport]
  cases hhost with
  | name h =>
    have hhere : '[' ∉ host := fun hmem => (h _ hmem).2.2 rfl
    have hcolon : ':' ∉ host := fun hmem => (h _ hmem).2.1 rfl
    have hthere : '[' ∉ port := hport.not_mem (by decide) (by decide)
    rw [if_neg (by simp [hhere, hthere]), List.dropWhile_append_of_pos (ne_of_notMem hcolon),
      hport.dropWhile]
  | @bracketed first inside last hfirst hinside hlast hat =>
    have hassoc : first ++ '[' :: (inside ++ ']' :: last) ++ port =
        first ++ '[' :: (inside ++ ']' :: (last ++ port)) := by simp
    rw [hassoc, if_pos (by simp), after_cut hfirst, after_cut hinside,
      List.dropWhile_append_of_pos (ne_of_notMem hlast), hport.dropWhile]

theorem exists_portless (h : portText authority ≠ []) :
    ∃ front, authority = front ++ portText authority ∧ Portless front := by
  obtain ⟨userinfo, hauthority, huser⟩ := userinfo_append_hostinfo authority
  have hat : '@' ∉ hostinfo authority := at_notMem_hostinfo
  unfold portText at h ⊢
  generalize hostinfo authority = info at h hauthority hat ⊢
  subst hauthority
  split_ifs at h ⊢ with hopen
  · have hclose : ']' ∈ after '[' info := by
      by_contra hnot
      rw [after_of_notMem hnot] at h
      exact h rfl
    have hfirst : '[' ∉ before '[' info := notMem_before
    have hinside : ']' ∉ before ']' (after '[' info) := notMem_before
    have hinfo := eq_before_after hopen
    rw [eq_before_after hclose] at hinfo
    have hlast : ':' ∉ before ':' (after ']' (after '[' info)) := notMem_before
    have hrest : before ':' (after ']' (after '[' info)) ++
        (after ']' (after '[' info)).dropWhile (· ≠ ':') = after ']' (after '[' info) :=
      List.takeWhile_append_dropWhile
    generalize (after ']' (after '[' info)).dropWhile (· ≠ ':') = port at h hrest ⊢
    generalize before ':' (after ']' (after '[' info)) = last at hlast hrest
    rw [← hrest] at hinfo
    refine ⟨_, ?_, userinfo, _, rfl, huser, .bracketed hfirst hinside hlast ?_⟩
    · conv_lhs => rw [hinfo]
      simp
    · rw [hinfo] at hat
      intro hmem
      refine hat ?_
      simp only [List.mem_append, List.mem_cons] at hmem ⊢
      tauto
  · have hcolon : ':' ∉ before ':' info := notMem_before
    refine ⟨userinfo ++ before ':' info, ?_, userinfo, before ':' info, rfl, huser, .name ?_⟩
    · rw [List.append_assoc]
      exact congrArg _ List.takeWhile_append_dropWhile.symm
    · intro c hc
      have hmem : c ∈ info := (List.takeWhile_sublist _).mem hc
      refine ⟨?_, ?_, ?_⟩
      · rintro rfl
        exact hat hmem
      · rintro rfl
        exact hcolon hc
      · rintro rfl
        exact hopen hmem

theorem IsHost.safe {host : List Char} (h : IsHost host) : IsHost (safe host) := by
  cases h with
  | name h => exact .name fun c hc => h c (mem_safe hc)
  | @bracketed first inside last hfirst hinside hlast hat =>
    have hread : Urls.safe (first ++ '[' :: (inside ++ ']' :: last)) =
        Urls.safe first ++ '[' :: (Urls.safe inside ++ ']' :: Urls.safe last) := by
      rw [safe_append, safe_cons (by decide), safe_append, safe_cons (by decide)]
    rw [hread]
    refine .bracketed (fun hmem => hfirst (mem_safe hmem)) (fun hmem => hinside (mem_safe hmem))
      (fun hmem => hlast (mem_safe hmem)) fun hmem => hat (mem_safe ?_)
    rw [hread]
    exact hmem

/-- What is read of an authority without a port is one. -/
theorem Portless.safe (h : Portless authority) : Portless (safe authority) := by
  obtain ⟨userinfo, host, rfl, huser, hhost⟩ := h
  refine ⟨Urls.safe userinfo, Urls.safe host, safe_append _ _, ?_, hhost.safe⟩
  rcases huser with rfl | ⟨user, rfl⟩
  · exact .inl rfl
  · exact .inr ⟨Urls.safe user, by rw [safe_append]; rfl⟩

/-! ## Around the port -/

theorem IsPort.not_isDelimiter (h : IsPort port) : ∀ c ∈ port, isDelimiter c = false := by
  intro c hc
  by_contra hdelimiter
  simp only [isDelimiter, Bool.decide_or, Bool.or_eq_false_iff, decide_eq_false_iff_not,
    not_and_or, not_not] at hdelimiter
  rcases hdelimiter with rfl | rfl | rfl <;> exact h.not_mem (by decide) (by decide) hc

theorem not_isDelimiter_append (h : ∀ c ∈ authority, isDelimiter c = false) (hport : IsPort port) :
    ∀ c ∈ authority ++ port, isDelimiter c = false := by
  intro c hc
  rcases List.mem_append.mp hc with hc | hc
  · exact h c hc
  · exact hport.not_isDelimiter c hc

theorem IsLead.after (h : IsLead lead) (text : List Char) :
    after '/' (after '/' (lead ++ text)) = text := by
  obtain ⟨scheme, skipped, rfl, hscheme, hskipped⟩ := h
  have hslash : '/' ∉ skipped := by
    intro hmem
    have hremoves := hskipped _ hmem
    simp [isUnsafe] at hremoves
  have hassoc : scheme ++ '/' :: (skipped ++ ['/']) ++ text =
      scheme ++ '/' :: (skipped ++ '/' :: text) := by simp
  rw [hassoc, after_cut hscheme, after_cut hslash]

/-- **How a text is cut.** -/
theorem cut_eq (hlead : IsLead lead) (hauthority : ∀ c ∈ authority ++ port, isDelimiter c = false)
    (hport : portText (authority ++ port) = port) (hrest : Stops (!isDelimiter ·) rest) :
    cut (lead ++ authority ++ port ++ rest) = ⟨lead ++ authority, port, rest⟩ := by
  have hinside : ∀ c ∈ authority ++ port, (!isDelimiter c) = true := fun c hc => by
    simp [hauthority c hc]
  have htail : after '/' (after '/' (lead ++ authority ++ port ++ rest)) =
      authority ++ port ++ rest := by
    have hassoc : lead ++ authority ++ port ++ rest = lead ++ (authority ++ port ++ rest) := by simp
    rw [hassoc, hlead.after]
  have hfront : (lead ++ authority ++ port ++ rest).take
      ((lead ++ authority ++ port ++ rest).length - (port ++ rest).length) = lead ++ authority := by
    have hlength : (lead ++ authority ++ port ++ rest).length - (port ++ rest).length =
        (lead ++ authority).length := by
      simp only [List.length_append]
      omega
    rw [hlength, List.append_assoc (lead ++ authority), List.take_left]
  unfold cut
  dsimp only
  rw [htail, takeWhile_token hinside hrest, dropWhile_token hinside hrest, hport, hfront]

theorem OnlyPort.cut (h : OnlyPort url url') : (cut url).front = (cut url').front ∧
    (cut url).rest = (cut url').rest ∧ IsPort (cut url).port ∧ IsPort (cut url').port := by
  obtain ⟨_, port, port', rest, rfl, rfl, ⟨lead, authority, rfl, hlead, hportless, hinside⟩, hport,
    hport', hrest⟩ := h
  have hcut : ∀ {port : List Char}, IsPort port →
      Urls.cut (lead ++ authority ++ port ++ rest) = ⟨lead ++ authority, port, rest⟩ :=
    fun hport => cut_eq hlead (not_isDelimiter_append hinside hport)
      (portText_append hportless hport) hrest
  rw [hcut hport, hcut hport']
  exact ⟨rfl, rfl, hport, hport'⟩

/-- **A text with an authority is cut around it.** -/
theorem exists_lead (h : urlsplit py url = .ok p) (hnetloc : p.netloc ≠ []) :
    ∃ lead authority rest, url = lead ++ authority ++ rest ∧ IsLead lead ∧
      (∀ c ∈ authority, isDelimiter c = false) ∧ Stops (!isDelimiter ·) rest := by
  obtain ⟨y, hslashes⟩ : ∃ y, (splitScheme (clean url)).2 = '/' :: '/' :: y := by
    have hp := assemble_eq_ok (show assemble py _ (splitNetloc (splitScheme (clean url)).2).1
      (splitNetloc (splitScheme (clean url)).2).2 = .ok p from h)
    rw [hp] at hnetloc
    unfold splitNetloc at hnetloc
    split at hnetloc
    · next y heq => exact ⟨y, heq⟩
    · exact absurd rfl hnetloc
  have hmem : '/' ∈ url := by
    by_contra hnot
    refine slash_notMem_splitScheme (slash_notMem_clean hnot) ?_
    rw [hslashes]
    exact List.mem_cons_self
  obtain ⟨scheme, x, rfl, hscheme⟩ := List.eq_append_cons_of_mem hmem
  have hclean : '/' ∉ clean scheme := slash_notMem_clean hscheme
  rw [clean_cut, splitScheme_cut hclean] at hslashes
  -- the first slash of the text is the first that is read
  have hfirst : (splitScheme (clean scheme)).2 = [] := by
    have hnot := slash_notMem_splitScheme hclean
    cases hrest : (splitScheme (clean scheme)).2 with
    | nil => rfl
    | cons c rest =>
      rw [hrest] at hslashes hnot
      exact absurd (List.cons.inj hslashes).1 fun hc => hnot (hc ▸ List.mem_cons_self)
  rw [hfirst] at hslashes
  obtain ⟨skipped, z, rfl, hskipped, -, -⟩ :=
    List.filter_eq_cons_iff.mp (List.cons.inj hslashes).2
  refine ⟨scheme ++ '/' :: (skipped ++ ['/']), z.takeWhile (!isDelimiter ·),
    z.dropWhile (!isDelimiter ·), ?_, ⟨scheme, skipped, rfl, hscheme, ?_⟩, ?_, ?_⟩
  · simp
  · exact fun c hc => by simpa using hskipped c hc
  · exact fun c hc => by simpa using List.mem_takeWhile_imp hc
  · intro c hc
    have hhead := List.head?_dropWhile_not (!isDelimiter ·) z
    rw [Option.mem_def.mp hc] at hhead
    exact hhead

/-- The pieces of a text, and what is before a port that is there. -/
theorem eq_cut (h : urlsplit py url = .ok p) (hnetloc : p.netloc ≠ []) :
    url = (cut url).front ++ (cut url).port ++ (cut url).rest ∧
      Stops (!isDelimiter ·) (cut url).rest ∧
      ((cut url).port ≠ [] → UpToPort (cut url).front) := by
  obtain ⟨lead, authority, rest, rfl, hlead, hinside, hrest⟩ := exists_lead h hnetloc
  by_cases hnil : portText authority = []
  · have hcut : cut (lead ++ authority ++ [] ++ rest) = ⟨lead ++ authority, [], rest⟩ :=
      cut_eq hlead (by simpa using hinside) (by simpa using hnil) hrest
    rw [List.append_nil] at hcut
    rw [hcut]
    exact ⟨by simp, hrest, fun hport => absurd rfl hport⟩
  · obtain ⟨front, hauthority, hportless⟩ := exists_portless hnil
    generalize hport : portText authority = port at hauthority
    subst hauthority
    have hcut := cut_eq hlead hinside hport hrest
    rw [← List.append_assoc lead, hcut]
    refine ⟨rfl, hrest, fun _ => ⟨lead, front, rfl, hlead, hportless, fun c hc => ?_⟩⟩
    exact hinside c (List.mem_append_left _ hc)

/-- **Texts differ in the port only** exactly where they are cut into the same pieces around it. -/
theorem onlyPort_iff_cut (h : urlsplit py url = .ok p) (hnetloc : p.netloc ≠ [])
    (h' : urlsplit py url' = .ok p') (hnetloc' : p'.netloc ≠ []) (hne : url ≠ url') :
    OnlyPort url url' ↔ (cut url).front = (cut url').front ∧ (cut url).rest = (cut url').rest ∧
      IsPort (cut url).port ∧ IsPort (cut url').port := by
  refine ⟨OnlyPort.cut, ?_⟩
  rintro ⟨hfront, hrest, hport, hport'⟩
  obtain ⟨hurl, hstops, hupTo⟩ := eq_cut h hnetloc
  obtain ⟨hurl', -, hupTo'⟩ := eq_cut h' hnetloc'
  refine ⟨(cut url).front, (cut url).port, (cut url').port, (cut url).rest, hurl, ?_, ?_, hport,
    hport', hstops⟩
  · rw [hfront, hrest]
    exact hurl'
  · by_cases hnil : (cut url).port = []
    · rw [hfront]
      refine hupTo' fun hnil' => hne ?_
      rw [hurl, hurl', hfront, hrest, hnil, hnil']
    · exact hupTo hnil

/-- **Texts that differ in the port only have the same parts**, the authority apart, and the same
host. -/
theorem OnlyPort.parts (honly : OnlyPort url url') (h : urlsplit py url = .ok p)
    (hnetloc : p.netloc ≠ []) (h' : urlsplit py url' = .ok p') :
    p'.scheme = p.scheme ∧ p'.path = p.path ∧ p'.query = p.query ∧ p'.fragment = p.fragment ∧
      hostname py p'.netloc = hostname py p.netloc := by
  obtain ⟨_, port, port', rest, rfl, rfl, ⟨lead, authority, rfl, hlead, hportless, hinside⟩, hport,
    hport', hrest⟩ := honly
  obtain ⟨scheme, skipped, -, hsplit⟩ := hlead.urlsplit py
  have hhost : ∀ {port : List Char}, IsPort port →
      hostname py (safe (authority ++ port)) = hostname py (safe authority) := by
    intro port hport
    unfold hostname
    rw [safe_append, hport.safe, hostOf_append hportless.safe hport]
  rw [List.append_assoc lead, hsplit _ _ (not_isDelimiter_append hinside hport) hrest] at h
  rw [List.append_assoc lead, hsplit _ _ (not_isDelimiter_append hinside hport') hrest] at h'
  split_ifs at h h'
  · rw [assemble_eq_ok h, assemble_eq_ok h']
    exact ⟨rfl, rfl, rfl, rfl, (hhost hport').trans (hhost hport).symm⟩
  · rw [assemble_eq_ok h] at hnetloc
    exact absurd rfl hnetloc

end Urls
end Lib
end CampusID
