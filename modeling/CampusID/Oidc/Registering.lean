import CampusID.Oidc.Clients

/-!
# Does the registry read back what was registered?

A run of registrations and switches, with the client of each last registration kept beside the
rows (`Book`).  A row reads back as that client as long as no registration leaves what no
registration would have made (`Faithful`): a client without a secret over the hash of one.

A client that is registered again keeps its type or leaves a row that cannot be read, and a
confidential client keeps its secret or is given a new one.  `readsBack_iff` is about every run:
it reads back, and no secret is lost unasked, exactly if every step meets `Allowed`.
-/

namespace CampusID
namespace Clients

open Lib

variable (py : Builtins)

/-! ## Runs -/

/-- The rows, and the client of the last registration under each id. -/
structure Book where
  records : List OidcClientRecord := []
  registered : String → Option OidcClient := fun _ => none

/-- A call that changes the registry. -/
inductive Call where
  | register (r : Registration)
  | setEnabled (clientId : String) (enabled : Bool)

/-- One call; a call that raises leaves the registry as it is. -/
def step (book : Book) : Call → Book
  | .register r =>
    match register py book.records r with
    | .error _ => book
    | .ok (records, client, _) => 
      ⟨records, Function.update book.registered client.clientId (some client)⟩
  | .setEnabled clientId enabled =>
    match setEnabled book.records clientId enabled with
    | .error _ => book
    | .ok records => { book with records := records }

/-- The client is there and enabled. -/
def Enabled (book : Book) (clientId : String) : Prop :=
  ∃ record ∈ book.records, record.clientId = clientId ∧ record.enabled = true

/-- **Everything reads back**: the list is the registered clients, and `get` returns the client of
the last registration where it is enabled and nothing otherwise. -/
structure ReadsBack (book : Book) : Prop where
  lists : ∃ clients, listClients py book.records = .ok clients ∧
    ∀ client, client ∈ clients ↔ ∃ clientId, book.registered clientId = some client
  enabled : ∀ clientId, Enabled book clientId →
    ∃ client, book.registered clientId = some client ∧
      get py book.records clientId = .ok (some client)
  disabled : ∀ clientId, ¬ Enabled book clientId → get py book.records clientId = .ok none

/-- The secret authenticates the client whose row this is. -/
def Authenticates (book : Book) (clientId secret : String) : Prop :=
  ∃ record ∈ book.records, record.clientId = clientId ∧
    ∃ client, fromRecord py record = .ok client ∧ client.authenticate py (some secret) = .ok ()

/-- A confidential client is registered again, without a secret. -/
def Unasked (book : Book) (r : Registration) : Prop :=
  truthy r.secret = none ∧ r.clientType = .confidential ∧
    (∃ written, register py book.records r = .ok written) ∧
    ∃ before, book.registered r.clientId = some before ∧ before.clientType = .confidential

/-- **No secret is lost unasked.** -/
def KeepsSecret (book : Book) : Call → Prop
  | .register r => Unasked py book r → ∀ secret, Authenticates py book r.clientId secret →
      Authenticates py (step py book (.register r)) r.clientId secret
  | .setEnabled _ _ => True

/-- **What a registration may do**: a confidential client stays one, and registered again without a
secret it is given one that hashes as the one it has. -/
def Allowed (book : Book) : Call → Prop
  | .register r => ∀ written before, register py book.records r = .ok written →
      book.registered r.clientId = some before → before.clientType = .confidential →
        r.clientType = .confidential ∧
          (truthy r.secret = none → before.secretHash = some (py.hashSecret r.generated))
  | .setEnabled _ _ => True

/-- After every call of a run everything reads back, and no call lost a secret unasked. -/
def Holds : Book → List Call → Prop
  | _, [] => True
  | book, call :: calls => KeepsSecret py book call ∧ ReadsBack py (step py book call) ∧
      Holds (step py book call) calls

/-- Every call of a run is allowed where it is made. -/
def AllAllowed : Book → List Call → Prop
  | _, [] => True
  | book, call :: calls => Allowed py book call ∧ AllAllowed (step py book call) calls

variable {py} {book : Book} {client client' : OidcClient} {record : OidcClientRecord}
  {records : List OidcClientRecord} {r : Registration}

/-! ## Clients that can be made -/

/-- What a client has to be. -/
structure Makeable (py : Builtins) (client : OidcClient) : Prop where
  uris : client.redirectUris ≠ []
  registrable : assertAllRegistrable py client.clientType client.redirectUris = .ok ()
  confidential : client.clientType = .confidential → truthy client.secretHash ≠ none
  other : client.clientType ≠ .confidential → truthy client.secretHash = none
  openid : "openid" ∈ client.allowedScopes

theorem make_eq_ok : client.make py = .ok client' ↔ client' = client ∧ Makeable py client := by
  unfold OidcClient.make
  constructor
  · intro h
    split at h
    · cases h
    · next huris =>
      obtain ⟨_, hregistrable, h⟩ := Eff.except_bind_eq_ok.mp h
      split_ifs at h with hconfidential hother hopenid
      cases h
      refine ⟨rfl, huris, hregistrable, fun ht hn => hconfidential ⟨ht, hn⟩, fun ht => ?_,
        hopenid⟩
      by_contra hn
      exact hother ⟨ht, hn⟩
  · rintro ⟨rfl, hmake⟩
    rw [if_neg hmake.uris, Eff.except_bind_eq_ok]
    refine ⟨(), hmake.registrable, ?_⟩
    rw [if_neg fun h => hmake.confidential h.1 h.2, if_neg fun h => h.2 (hmake.other h.1),
      if_neg (not_not.mpr hmake.openid)]
    rfl

/-- What a registered client is. -/
structure Registered (py : Builtins) (client : OidcClient) : Prop where
  makeable : Makeable py client
  hashed : client.clientType = .confidential →
    ∃ secret, client.secretHash = some (py.hashSecret secret)
  unhashed : client.clientType ≠ .confidential → client.secretHash = none

theorem truthy_some {text : String} (h : truthy (some text) ≠ none) :
    truthy (some text) = some text := by
  unfold truthy at h ⊢
  rw [Option.filter_some] at h ⊢
  split_ifs at h ⊢
  · rfl
  · exact absurd rfl h

/-- **A registration makes a client**, with the hash of its secret or of a new one. -/
theorem client_ok {secret : Option String} (h : r.client py = .ok (client, secret)) :
    Registered py client ∧ client.clientId = r.clientId ∧ client.clientType = r.clientType ∧
      (r.clientType = .confidential →
        client.secretHash = some (py.hashSecret ((truthy r.secret).getD r.generated))) := by
  unfold Registration.client at h
  split at h
  · cases h
  · obtain ⟨chosen, hchosen, h⟩ := Eff.except_bind_eq_ok.mp h
    obtain ⟨made, hmade, h⟩ := Eff.except_bind_eq_ok.mp h
    cases h
    obtain ⟨rfl, hmakeable⟩ := make_eq_ok.mp hmade
    have hhash : r.clientType = .confidential → (truthy secret).map py.hashSecret =
        some (py.hashSecret ((truthy r.secret).getD r.generated)) := by
      intro htype
      have hconfidential := hmakeable.confidential htype
      rw [Registration.chosenSecret, if_pos htype] at hchosen
      dsimp only at hchosen hconfidential
      split_ifs at hchosen
      obtain rfl := Except.ok.inj hchosen
      rw [truthy_some fun hnone => hconfidential (by rw [hnone]; rfl)]
      rfl
    refine ⟨⟨hmakeable, fun htype => ⟨_, hhash htype⟩, fun htype => ?_⟩, rfl, rfl, hhash⟩
    rw [Registration.chosenSecret, if_neg htype] at hchosen
    split_ifs at hchosen
    cases hchosen
    rfl

theorem register_ok {written : List OidcClientRecord × OidcClient × Option String}
    (h : register py records r = .ok written) :
    r.client py = .ok written.2 ∧ written.1 = writeClient records written.2.1 := by
  obtain ⟨⟨client, secret⟩, hclient, h⟩ := Eff.except_bind_eq_ok.mp h
  cases h
  exact ⟨hclient, rfl⟩

/-! ## Rows that are read -/

@[simp] theorem toFinset_sorted (s : Finset String) : (Text.sorted s).toFinset = s := by
  ext a
  simp

theorem fromRecord_eq_ok (h : fromRecord py record = .ok client) :
    client.clientId = record.clientId ∧ client.secretHash = record.secretHash ∧
      Makeable py client := by
  obtain ⟨rfl, hmake⟩ := make_eq_ok.mp h
  exact ⟨rfl, rfl, hmake⟩

theorem fromRecord_toRecord (h : Makeable py client) :
    fromRecord py (toRecord client) = .ok client := by
  rw [fromRecord, toRecord, toFinset_sorted]
  exact make_eq_ok.mpr ⟨rfl, h⟩

theorem fromRecord_updateRecord (hid : record.clientId = client.clientId) :
    fromRecord py (updateRecord record client) = OidcClient.make py { client with
      secretHash := client.secretHash.or record.secretHash } := by
  rw [fromRecord, updateRecord, toFinset_sorted, hid]
  cases client.secretHash <;> rfl

theorem fromRecord_updated (hid : record.clientId = client.clientId) (hmake : Makeable py client)
    (hhash : client.secretHash = none → record.secretHash = none) :
    fromRecord py (updateRecord record client) = .ok client := by
  have hsame : client.secretHash.or record.secretHash = client.secretHash := by
    cases hclient : client.secretHash with
    | none => exact hhash hclient
    | some hash => rfl
  rw [fromRecord_updateRecord hid, hsame]
  exact make_eq_ok.mpr ⟨rfl, hmake⟩

/-- **A row with the hash of a secret its client cannot hold** is not read. -/
theorem fromRecord_updated_ne (hid : record.clientId = client.clientId)
    (htype : client.clientType ≠ .confidential) (hclient : client.secretHash = none)
    (hrecord : truthy record.secretHash ≠ none) :
    fromRecord py (updateRecord record client) ≠ .ok client' := by
  rw [fromRecord_updateRecord hid, hclient]
  intro h
  obtain ⟨-, hmake⟩ := make_eq_ok.mp h
  exact hrecord (hmake.other htype)

theorem mem_writeClient {written : OidcClientRecord} (h : written ∈ writeClient records client) :
    (∃ record ∈ records, record.clientId = client.clientId ∧ written = updateRecord record client) ∨
      (written ∈ records ∧ written.clientId ≠ client.clientId) ∨ written = toRecord client := by
  unfold writeClient at h
  split_ifs at h
  · obtain ⟨record, hrecord, hwritten⟩ := List.mem_map.mp h
    split_ifs at hwritten with hid
    · exact .inl ⟨record, hrecord, hid, hwritten.symm⟩
    · exact .inr (.inl ⟨hwritten ▸ hrecord, hwritten ▸ hid⟩)
  · next hany =>
    rcases List.mem_append.mp h with h | h
    · refine .inr (.inl ⟨h, fun hid => hany ?_⟩)
      exact List.any_eq_true.mpr ⟨written, h, by simpa using hid⟩
    · exact .inr (.inr (List.mem_singleton.mp h))

theorem updateRecord_mem (hrecord : record ∈ records) (hid : record.clientId = client.clientId) :
    updateRecord record client ∈ writeClient records client := by
  have hany : records.any (·.clientId = client.clientId) = true :=
    List.any_eq_true.mpr ⟨record, hrecord, by simpa using hid⟩
  rw [writeClient, if_pos hany]
  exact List.mem_map.mpr ⟨record, hrecord, if_pos hid⟩

theorem exists_writeClient (hrecord : record ∈ records) :
    ∃ written ∈ writeClient records client, written.clientId = record.clientId := by
  unfold writeClient
  split_ifs
  · refine ⟨_, List.mem_map.mpr ⟨record, hrecord, rfl⟩, ?_⟩
    split_ifs
    · rfl
    · rfl
  · exact ⟨record, List.mem_append_left _ hrecord, rfl⟩

theorem exists_written : ∃ written ∈ writeClient records client,
    written.clientId = client.clientId := by
  by_cases hany : records.any (·.clientId = client.clientId) = true
  · obtain ⟨record, hrecord, hid⟩ := List.any_eq_true.mp hany
    have hid : record.clientId = client.clientId := by simpa using hid
    exact ⟨_, updateRecord_mem hrecord hid, hid⟩
  · rw [writeClient, if_neg hany]
    exact ⟨_, List.mem_append_right _ (List.mem_singleton_self _), rfl⟩

/-! ## Rows that are faithful -/

/-- **Every row is read as the client of its last registration**, and every client has a row. -/
structure Faithful (py : Builtins) (book : Book) : Prop where
  reads : ∀ record ∈ book.records, ∃ client, book.registered record.clientId = some client ∧
    fromRecord py record = .ok client
  made : ∀ clientId client, book.registered clientId = some client →
    Registered py client ∧ client.clientId = clientId ∧
      ∃ record ∈ book.records, record.clientId = clientId

theorem faithful_empty : Faithful py {} where
  reads := by simp
  made := by simp

theorem fromRecords_eq_ok {clients : List OidcClient} (h : fromRecords py records = .ok clients) :
    (∀ record ∈ records, ∃ client ∈ clients, fromRecord py record = .ok client) ∧
      ∀ client ∈ clients, ∃ record ∈ records, fromRecord py record = .ok client := by
  induction records generalizing clients with
  | nil =>
    cases h
    simp
  | cons record records ih =>
    obtain ⟨client, hclient, h⟩ := Eff.except_bind_eq_ok.mp h
    obtain ⟨rest, hrest, h⟩ := Eff.except_bind_eq_ok.mp h
    cases h
    obtain ⟨hreads, hread⟩ := ih hrest
    constructor
    · rw [List.forall_mem_cons]
      refine ⟨⟨client, List.mem_cons_self, hclient⟩, fun other hother => ?_⟩
      obtain ⟨found, hfound, hok⟩ := hreads other hother
      exact ⟨found, List.mem_cons_of_mem _ hfound, hok⟩
    · rw [List.forall_mem_cons]
      refine ⟨⟨record, List.mem_cons_self, hclient⟩, fun found hfound => ?_⟩
      obtain ⟨other, hother, hok⟩ := hread found hfound
      exact ⟨other, List.mem_cons_of_mem _ hother, hok⟩

theorem fromRecords_ok (h : ∀ record ∈ records, ∃ client, fromRecord py record = .ok client) :
    ∃ clients, fromRecords py records = .ok clients := by
  induction records with
  | nil => exact ⟨[], rfl⟩
  | cons record records ih =>
    obtain ⟨hfirst, hrest⟩ := List.forall_mem_cons.mp h
    obtain ⟨client, hclient⟩ := hfirst
    obtain ⟨clients, hclients⟩ := ih hrest
    exact ⟨client :: clients, Eff.except_bind_eq_ok.mpr
      ⟨client, hclient, Eff.except_bind_eq_ok.mpr ⟨clients, hclients, rfl⟩⟩⟩

/-- **What is faithful reads back.** -/
theorem Faithful.readsBack (h : Faithful py book) : ReadsBack py book where
  lists := by
    have hperm : ∀ record, record ∈ book.records.insertionSort (·.clientId ≤ ·.clientId) ↔
        record ∈ book.records := fun record => (List.perm_insertionSort _ _).mem_iff
    obtain ⟨clients, hclients⟩ : ∃ clients, fromRecords py
        (book.records.insertionSort (·.clientId ≤ ·.clientId)) = .ok clients := by
      refine fromRecords_ok fun record hrecord => ?_
      obtain ⟨client, -, hok⟩ := h.reads record ((hperm record).mp hrecord)
      exact ⟨client, hok⟩
    obtain ⟨hreads, hread⟩ := fromRecords_eq_ok hclients
    refine ⟨clients, hclients, fun client => ⟨fun hclient => ?_, ?_⟩⟩
    · obtain ⟨record, hrecord, hok⟩ := hread client hclient
      obtain ⟨found, hfound, hok'⟩ := h.reads record ((hperm record).mp hrecord)
      obtain rfl : client = found := Except.ok.inj (hok.symm.trans hok')
      exact ⟨record.clientId, hfound⟩
    · rintro ⟨clientId, hregistered⟩
      obtain ⟨-, -, record, hrecord, rfl⟩ := h.made clientId client hregistered
      obtain ⟨found, hfound, hok⟩ := hreads record ((hperm record).mpr hrecord)
      obtain ⟨last, hlast, hok'⟩ := h.reads record hrecord
      obtain rfl : found = last := Except.ok.inj (hok.symm.trans hok')
      obtain rfl : client = found := Option.some.inj (hregistered.symm.trans hlast)
      exact hfound
  enabled := by
    rintro clientId ⟨record, hrecord, hid, henabled⟩
    unfold get
    cases hfind : book.records.find? fun record =>
        record.clientId = clientId ∧ record.enabled = true with
    | none =>
      rw [List.find?_eq_none] at hfind
      exact absurd (hfind record hrecord) (by simp [hid, henabled])
    | some found =>
      have hfound : found.clientId = clientId ∧ found.enabled = true := by
        simpa using List.find?_some hfind
      obtain ⟨client, hregistered, hok⟩ := h.reads found (List.mem_of_find?_eq_some hfind)
      rw [hfound.1] at hregistered
      refine ⟨client, hregistered, ?_⟩
      simp only [hok]
      rfl
  disabled := by
    intro clientId hnot
    unfold get
    cases hfind : book.records.find? fun record =>
        record.clientId = clientId ∧ record.enabled = true with
    | none => rfl
    | some found =>
      have hfound : found.clientId = clientId ∧ found.enabled = true := by
        simpa using List.find?_some hfind
      exact absurd ⟨found, List.mem_of_find?_eq_some hfind, hfound⟩ hnot

/-! ## Steps -/

theorem step_register {written : List OidcClientRecord × OidcClient × Option String}
    (h : register py book.records r = .ok written) : step py book (.register r) =
      ⟨written.1, Function.update book.registered written.2.1.clientId (some written.2.1)⟩ := by
  rw [step, h]

theorem step_register_error {message : String} (h : register py book.records r = .error message) :
    step py book (.register r) = book := by
  rw [step, h]

/-- **A switch** keeps every row as it is read. -/
theorem Faithful.setEnabled (h : Faithful py book) (clientId : String) (enabled : Bool) :
    Faithful py (step py book (.setEnabled clientId enabled)) := by
  unfold step
  cases hset : Clients.setEnabled book.records clientId enabled with
  | error e =>
    simp only [hset]
    exact h
  | ok records =>
    simp only [hset]
    unfold Clients.setEnabled at hset
    split_ifs at hset
    obtain rfl := Except.ok.inj hset
    refine ⟨fun record hrecord => ?_, fun id client hclient => ?_⟩
    · obtain ⟨old, hold, hsame⟩ := List.mem_map.mp hrecord
      obtain ⟨client, hregistered, hok⟩ := h.reads old hold
      have hread : fromRecord py record = fromRecord py old ∧ record.clientId = old.clientId := by
        rw [← hsame]
        split_ifs
        · exact ⟨rfl, rfl⟩
        · exact ⟨rfl, rfl⟩
      exact ⟨client, by rwa [hread.2], by rwa [hread.1]⟩
    · obtain ⟨hmade, hid, record, hrecord, hrow⟩ := h.made id client hclient
      refine ⟨hmade, hid, _, List.mem_map.mpr ⟨record, hrecord, rfl⟩, ?_⟩
      split_ifs
      · exact hrow
      · exact hrow

/-- **A registration that is allowed** keeps every row as it is read. -/
theorem Faithful.register (h : Faithful py book) (hallowed : Allowed py book (.register r)) :
    Faithful py (step py book (.register r)) := by
  cases hregister : Clients.register py book.records r with
  | error message =>
    rw [step_register_error hregister]
    exact h
  | ok written =>
    obtain ⟨records, client, secret⟩ := written
    obtain ⟨hclient, hrecords⟩ := register_ok hregister
    obtain ⟨hmade, hid, htype, -⟩ := client_ok hclient
    dsimp only at hrecords
    subst hrecords
    rw [step_register hregister]
    refine ⟨fun record hrecord => ?_, fun clientId found hfound => ?_⟩
    · dsimp only at hrecord ⊢
      rcases mem_writeClient hrecord with ⟨old, hold, hsame, rfl⟩ | ⟨hold, hne⟩ | rfl
      · refine ⟨client, ?_, fromRecord_updated hsame hmade.makeable fun hnone => ?_⟩
        · rw [show (updateRecord old client).clientId = client.clientId from hsame,
            Function.update_self]
        · -- no secret: the client was not confidential before either
          obtain ⟨before, hbefore, hok⟩ := h.reads old hold
          have hopen : before.clientType ≠ .confidential := by
            intro hconfidential
            have hstays := (hallowed _ before hregister (by rw [← hid, ← hsame, hbefore])
              hconfidential).1
            obtain ⟨s, hs⟩ := hmade.hashed (htype.trans hstays)
            rw [hnone] at hs
            cases hs
          rw [← (fromRecord_eq_ok hok).2.1]
          exact (h.made _ _ hbefore).1.unhashed hopen
      · obtain ⟨found, hfound, hok⟩ := h.reads record hold
        exact ⟨found, by rwa [Function.update_of_ne hne], hok⟩
      · exact ⟨client, Function.update_self .., fromRecord_toRecord hmade.makeable⟩
    · dsimp only at hfound ⊢
      by_cases hsame : clientId = client.clientId
      · subst hsame
        rw [Function.update_self] at hfound
        obtain rfl := Option.some.inj hfound
        exact ⟨hmade, rfl, exists_written⟩
      · rw [Function.update_of_ne hsame] at hfound
        obtain ⟨hold, hfoundId, record, hrecord, hrow⟩ := h.made clientId found hfound
        obtain ⟨row, hmem, hrowId⟩ : ∃ written ∈ writeClient book.records client,
            written.clientId = record.clientId := exists_writeClient hrecord
        exact ⟨hold, hfoundId, row, hmem, hrowId.trans hrow⟩

theorem Faithful.of_call (h : Faithful py book) {call : Call} (hallowed : Allowed py book call) :
    Faithful py (step py book call) := by
  cases call with
  | register r => exact h.register hallowed
  | setEnabled clientId enabled => exact h.setEnabled clientId enabled

theorem authenticate_eq_ok {secret : String} :
    client.authenticate py (some secret) = .ok () ↔
      client.clientType = .confidential ∧ py.hashSecret secret = client.secretHash.getD "" := by
  unfold OidcClient.authenticate
  split_ifs with htype hhash
  · simp [htype]
  · exact iff_of_true rfl ⟨not_not.mp htype, Option.some.inj hhash⟩
  · refine iff_of_false (by simp) fun h => hhash ?_
    rw [Option.map_some, h.2]

theorem Faithful.authenticates (h : Faithful py book) {before : OidcClient}
    (hbefore : book.registered r.clientId = some before) {secret : String} :
    Authenticates py book r.clientId secret ↔ before.clientType = .confidential ∧
      py.hashSecret secret = before.secretHash.getD "" := by
  constructor
  · rintro ⟨record, hrecord, hid, found, hok, hauth⟩
    obtain ⟨client, hregistered, hread⟩ := h.reads record hrecord
    obtain rfl : found = client := Except.ok.inj (hok.symm.trans hread)
    rw [hid, hbefore] at hregistered
    obtain rfl := Option.some.inj hregistered
    exact authenticate_eq_ok.mp hauth
  · intro hauth
    obtain ⟨-, -, record, hrecord, hid⟩ := h.made _ _ hbefore
    obtain ⟨client, hregistered, hread⟩ := h.reads record hrecord
    rw [hid, hbefore] at hregistered
    obtain rfl := Option.some.inj hregistered
    exact ⟨record, hrecord, hid, before, hread, authenticate_eq_ok.mpr hauth⟩

/-- **What is allowed loses no secret unasked.** -/
theorem Faithful.keepsSecret (h : Faithful py book) {call : Call}
    (hallowed : Allowed py book call) : KeepsSecret py book call := by
  cases call with
  | setEnabled clientId enabled => exact trivial
  | register r =>
    rintro ⟨hunasked, htype, ⟨⟨records, client, secret⟩, hregister⟩, before, hbefore,
      hconfidential⟩ secret hauth
    obtain ⟨hclient, -⟩ := register_ok hregister
    obtain ⟨-, hid, hclientType, hhash⟩ := client_ok hclient
    have hsame := (hallowed _ before hregister hbefore hconfidential).2 hunasked
    have hafter : (step py book (.register r)).registered r.clientId = some client := by
      rw [step_register hregister, ← hid]
      exact Function.update_self ..
    refine ((h.register hallowed).authenticates hafter).mpr ⟨hclientType.trans htype, ?_⟩
    rw [((h.authenticates hbefore).mp hauth).2, hsame, hhash htype, hunasked]
    rfl

/-- **What is not allowed** leaves a row that is not read, or loses a secret. -/
theorem Faithful.allowed (h : Faithful py book) {call : Call} (hkeeps : KeepsSecret py book call)
    (hreads : ReadsBack py (step py book call)) : Allowed py book call := by
  cases call with
  | setEnabled clientId enabled => exact trivial
  | register r =>
    rintro ⟨records, client, drawn⟩ before hregister hbefore hconfidential
    obtain ⟨hclient, hrecords⟩ := register_ok hregister
    obtain ⟨hmade, hid, hclientType, hhash⟩ := client_ok hclient
    obtain ⟨hwas, hbeforeId, record, hrecord, hrow⟩ := h.made _ _ hbefore
    obtain ⟨last, hlast, hok⟩ := h.reads record hrecord
    rw [hrow, hbefore] at hlast
    obtain rfl := Option.some.inj hlast
    have hsame : record.clientId = client.clientId := hrow.trans hid.symm
    dsimp only at hrecords
    subst hrecords
    rw [step_register hregister] at hreads
    have hupdated := updateRecord_mem hrecord hsame
    obtain ⟨clients, hclients, -⟩ := hreads.lists
    have hreadable : ∃ found, fromRecord py (updateRecord record client) = .ok found := by
      obtain ⟨found, -, hfound⟩ := (fromRecords_eq_ok hclients).1 _
        ((List.perm_insertionSort _ _).mem_iff.mpr hupdated)
      exact ⟨found, hfound⟩
    have hstays : r.clientType = .confidential := by
      by_contra hother
      have hopen : client.clientType ≠ .confidential := by rwa [hclientType]
      obtain ⟨found, hfound⟩ := hreadable
      refine fromRecord_updated_ne hsame hopen (hmade.unhashed hopen) ?_ hfound
      rw [← (fromRecord_eq_ok hok).2.1]
      exact hwas.makeable.confidential hconfidential
    refine ⟨hstays, fun hunasked => ?_⟩
    -- the secret that made the old hash has to make the new one
    obtain ⟨secret, hsecret⟩ := hwas.hashed hconfidential
    have hbeforeAuth : Authenticates py book r.clientId secret :=
      (h.authenticates hbefore).mpr ⟨hconfidential, by rw [hsecret]; rfl⟩
    obtain ⟨row, hmem, hrowId, found, hfound, hauth⟩ :=
      hkeeps ⟨hunasked, hstays, ⟨_, hregister⟩, before, hbefore, hconfidential⟩ secret hbeforeAuth
    rw [step_register hregister] at hmem
    have hnew : found.secretHash = some (py.hashSecret r.generated) := by
      have hclientHash : client.secretHash = some (py.hashSecret r.generated) := by
        rw [hhash hstays, hunasked]
        rfl
      rcases mem_writeClient hmem with ⟨old, -, -, rfl⟩ | ⟨-, hne⟩ | rfl
      · rw [(fromRecord_eq_ok hfound).2.1, updateRecord, hclientHash]
      · exact absurd (hrowId.trans hid.symm) hne
      · rw [(fromRecord_eq_ok hfound).2.1]
        exact hclientHash
    have hmatch := (authenticate_eq_ok.mp hauth).2
    rw [hnew] at hmatch
    rw [hsecret, hmatch]
    rfl

/-! ## Runs -/

theorem holds_iff_allAllowed (calls : List Call) (h : Faithful py book) :
    Holds py book calls ↔ AllAllowed py book calls := by
  induction calls generalizing book with
  | nil => exact Iff.rfl
  | cons call calls ih =>
    unfold Holds AllAllowed
    constructor
    · rintro ⟨hkeeps, hreads, hrest⟩
      have hallowed := h.allowed hkeeps hreads
      exact ⟨hallowed, (ih (h.of_call hallowed)).mp hrest⟩
    · rintro ⟨hallowed, hrest⟩
      exact ⟨h.keepsSecret hallowed, (h.of_call hallowed).readsBack, (ih (h.of_call hallowed)).mpr hrest⟩

/-- **The registry reads back what was registered** after every call of a run, and no call loses a
secret unasked, exactly if every call is allowed where it is made. -/
theorem readsBack_iff (py : Builtins) (calls : List Call) :
    Holds py {} calls ↔ AllAllowed py {} calls :=
  holds_iff_allAllowed calls faithful_empty

/-! ## A client that becomes public -/

/-- The splitter on the one URL and the hash of the one secret that are used below. -/
def oneClient : Builtins where
  urlsplit _ := .ok ⟨"https", "app.test", "", some "app.test"⟩
  hashSecret _ := "29810baee8b4a297249de84bef0ffd61389a549bff03bf316e39717833970e4c"

/-- A registration of the client. -/
def portal (clientType : ClientType) (secret : Option String) : Registration where
  clientId := "portal"
  clientType := clientType
  redirectUris := ["https://app.test/cb"]
  allowedScopes := {"openid"}
  secret := secret
  generated := "correct-horse-battery-staple-0123"

/-- **A confidential client that is registered as a public one** cannot be listed. -/
theorem not_readsBack : ¬ ∀ (py : Builtins) (calls : List Call), Holds py {} calls := by
  intro h
  obtain ⟨-, -, -, hreads, -⟩ := h oneClient
    [.register (portal .confidential (some "correct-horse-battery-staple-0123")),
      .register (portal .publicClient none)]
  obtain ⟨clients, hclients, -⟩ := hreads.lists
  have hraises : (listClients oneClient (step oneClient (step oneClient {}
      (.register (portal .confidential (some "correct-horse-battery-staple-0123"))))
        (.register (portal .publicClient none))).records).toOption = none := by
    decide +kernel
  rw [hclients] at hraises
  cases hraises

end Clients
end CampusID
