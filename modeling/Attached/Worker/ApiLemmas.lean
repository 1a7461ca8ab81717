import Attached.Protocol.AccountLemmas
import Attached.Worker.Api
import Attached.Worker.StorageLemmas

/-!
This module contains the separation of scopes at the service: records leave an account object only
with its download token, they enter it only with its publish token, and a request with neither
learns nothing about them.
-/

namespace Attached

variable {crates : AccountCrates} {storage : Storage} {request : Request}

def ApiToken.bearer (token : ApiToken) : List UInt8 :=
  Bytes.ofString "Bearer " ++ token.encode

theorem ApiToken.length_encode (token : ApiToken) : token.encode.length = 43 := by
  rw [encode, length_encode_secret]
  rfl

theorem ApiToken.parseAuthorization_eq_ok_iff {value : List UInt8} {token : ApiToken}
    : parseAuthorization [value] = .ok token ↔ value = token.bearer := by
  have hbearer : (Bytes.ofString "Bearer ").length = 7 := by decide +kernel
  simp only [parseAuthorization, Except.bind_eq_ok_iff, Except.ensure_eq_ok_iff,
    Except.okOr_eq_ok_iff, Except.mapError_eq_ok_iff, parseBare, decodeApiToken_eq_ok_iff,
    Bool.not_eq_true', Bool.or_eq_false_iff, Bool.not_eq_false', bne_eq_false_iff_eq]
  constructor
  . rintro ⟨_, ⟨_, hstart⟩, _, _, htoken⟩
    rw [ List.isPrefixOf_iff_prefix] at hstart
    rcases hstart with ⟨rest, rfl⟩
    rw [List.drop_append_of_le_length (by omega), ← hbearer, List.drop_length,
      List.nil_append] at htoken
    rw [bearer, htoken]
  . rintro rfl
    have hdrop : token.bearer.drop 7 = token.encode := by
      rw [bearer, ← hbearer, List.drop_left]
    have hascii : Bytes.isAscii token.encode = true := by
      apply List.all_eq_true.mpr
      intro b hb
      have hplain := List.all_eq_true.mp (all_isPlain_encode token.bytes.toList) b hb
      have := (Json.isPlain_iff.mp hplain).2.1
      rw [decide_eq_true_eq, UInt8.lt_iff_toNat_lt]
      exact this
    rcases Option.isSome_iff_exists.mp (Bytes.isSome_toString?_of_isAscii hascii) with ⟨text, htext⟩
    refine ⟨(), ⟨?_, ?_⟩, text, ?_, hdrop⟩
    . rw [bearer, List.length_append, hbearer, length_encode]
    . rw [ List.isPrefixOf_iff_prefix]
      exact ⟨token.encode, rfl⟩
    . rw [hdrop, htext]

theorem isTokenByte_comma : ∀ b ∈ Bytes.ofString "Bearer ", b ≠ 0x2c := by
  decide +kernel

theorem headerValue_eq_bearer_iff {values : List (List UInt8)} {token : ApiToken}
    : headerValue values = some token.bearer ↔ values = [token.bearer] := by
  have hcomma : (0x2c : UInt8) ∉ token.bearer := by
    intro h
    rw [ApiToken.bearer, List.mem_append] at h
    cases h with
    | inl h => exact isTokenByte_comma _ h rfl
    | inr h =>
      have := List.all_eq_true.mp (Base64.all_isSymbol_encode token.bytes.toList) _ h
      simp [Base64.isSymbol, Base64.value] at this
  constructor
  . intro h
    match values with
    | [] => simp [headerValue] at h
    | [value] =>
      simp only [headerValue, List.flatMap_nil, List.append_nil, Option.some.injEq] at h
      rw [h]
    | first :: second :: values =>
      simp only [headerValue, List.flatMap_cons, Option.some.injEq] at h
      rw [← h] at hcomma
      simp at hcomma
  . rintro rfl
    simp [headerValue]

def Storage.account (storage : Storage) : Option AccountRow :=
  storage.schema.bind Tables.accountState

/--
The route names the stored account, and the only `Authorization` value is the canonical text of the
token with the stored hash for `scope`.
-/
def Authorized (crates : AccountCrates) (storage : Storage) (scope : ApiKeyScope)
    (accountId : Option (List UInt8)) (authorization : List (List UInt8)) : Prop :=
  ∃ (account : StoredAccount) (token : ApiToken),
    storage.account = some account.storageParts
      ∧ accountId = some account.accountId.hyphenated
      ∧ authorization = [token.bearer]
      ∧ token.serviceHash crates
          = match scope with
            | .publish => account.publishApiTokenHash
            | .download => account.downloadApiTokenHash

namespace Storage

def Settled (storage : Storage) : Prop :=
  ∀ tables, storage.schema = some tables → tables.Ok

theorem Settled.loadAccount_eq (h : storage.Settled)
    : (storage.account = none ∧ storage.loadAccount = .ok none)
        ∨ ∃ account : StoredAccount,
          storage.account = some account.storageParts ∧ storage.loadAccount = .ok (some account) := by
  rcases storage with ⟨_ | tables⟩
  . exact Or.inl ⟨rfl, rfl⟩
  . rcases (h tables rfl).account with ⟨account, haccount⟩
    exact Or.inr ⟨account, haccount, Storage.loadAccount_eq haccount⟩

theorem Settled.putRecord (h : storage.Settled) (id : RecordId) (envelope : Envelope)
    : (storage.putRecord id envelope).2.Settled := by
  rcases storage with ⟨_ | tables⟩
  . intro tables htables
    simp [Storage.putRecord, checkPut, loadRecord, Storage.tables, Except.okOr, bind,
      Except.bind] at htables
  . have hok := h tables rfl
    rcases putRecord_spec hok id envelope with ⟨error, hput⟩ | ⟨outcome, hput, _, _, hvalid, hroom⟩
    . rw [hput]
      exact h
    . rw [hput]
      rintro tables' ⟨rfl⟩
      exact ok_stored hok hvalid hroom

theorem Settled.initializeAccount (h : storage.Settled) (account : StoredAccount)
    : (storage.initializeAccount account).2.Settled := by
  rcases storage with ⟨_ | tables⟩
  . rw [initializeAccount_of_none rfl]
    rintro tables ⟨rfl⟩
    exact ok_created account
  . rw [initializeAccount_of_ok (h tables rfl)]
    exact h

end Storage

namespace AccountObject

theorem authenticate_iff {account : StoredAccount} {hash : Vector UInt8 32} {scope : ApiKeyScope}
    : account.authenticate hash scope = true
        ↔
      hash = match scope with
        | .publish => account.publishApiTokenHash
        | .download => account.downloadApiTokenHash := by
  simp only [StoredAccount.authenticate, beq_iff_eq]
  exact eq_comm

theorem storageParts_injective {account other : StoredAccount}
    (h : account.storageParts = other.storageParts) : account = other := by
  cases account
  cases other
  simp only [StoredAccount.storageParts, AccountRow.mk.injEq] at h
  rcases h with ⟨rfl, rfl, rfl⟩
  rfl

theorem authenticateRequest_eq_ok_iff (h : storage.Settled) {accountId : AccountId}
    {scope : ApiKeyScope}
    : authenticateRequest crates storage request accountId scope = .ok ()
        ↔
      Authorized crates storage scope (some accountId.hyphenated) request.authorization := by
  simp only [authenticateRequest, Except.bind_eq_ok_iff, Except.okOr_eq_ok_iff,
    Except.mapError_eq_ok_iff, ApiToken.parseAuthorization_eq_ok_iff, Except.ensure_eq_ok_iff,
    Bool.not_eq_true', bne_eq_false_iff_eq, authenticate_iff]
  constructor
  . rintro ⟨_, hvalue, token, rfl, loaded, hloaded, account, rfl, _, rfl, hhash⟩
    rw [headerValue_eq_bearer_iff] at hvalue
    rcases h.loadAccount_eq with ⟨_, hnone⟩ | ⟨account', haccount, hsome⟩
    . rw [hnone] at hloaded
      simp at hloaded
    . rw [hsome] at hloaded
      injection hloaded with hloaded
      injection hloaded with hloaded
      subst hloaded
      exact ⟨account', token, haccount, rfl, hvalue, hhash⟩
  . rintro ⟨account, token, haccount, htext, hvalue, hhash⟩
    injection htext with htext
    have := AccountId.hyphenated_injective htext
    subst this
    refine ⟨_, headerValue_eq_bearer_iff.mpr hvalue, token, rfl, some account, ?_, account, rfl, (),
      rfl, hhash⟩
    rcases h.loadAccount_eq with ⟨hnone, _⟩ | ⟨account', haccount', hsome⟩
    . rw [hnone] at haccount
      simp at haccount
    . rw [haccount, Option.some.injEq] at haccount'
      rw [hsome, storageParts_injective haccount']

theorem parseRoute_eq_ok {accountId : AccountId} {operation : AccountOperation}
    (h : parseRoute request = .ok (accountId, operation))
    : request.route.accountId = some accountId.hyphenated
        ∧ operation.scope = (if request.method = .put then .publish else .download) := by
  simp only [parseRoute, Except.bind_eq_ok_iff, Except.okOr_eq_ok_iff] at h
  rcases h with ⟨_, _, id, hid, h⟩
  simp only [Option.bind_eq_some_iff, Except.toOption_eq_some_iff,
    AccountId.parse_eq_ok_iff] at hid
  rcases hid with ⟨text, htext, rfl, _⟩
  split at h
  . next hmethod _ =>
    simp only [Except.pure_eq_ok_iff, Prod.mk.injEq] at h
    rcases h with ⟨rfl, rfl⟩
    exact ⟨htext, by rw [hmethod]; rfl⟩
  . next hmethod _ =>
    simp only [Except.bind_eq_ok_iff, Except.pure_eq_ok_iff, Prod.mk.injEq] at h
    rcases h with ⟨_, _, rfl, rfl⟩
    exact ⟨htext, by rw [hmethod]; rfl⟩
  . next hmethod _ =>
    simp only [Except.bind_eq_ok_iff, Except.pure_eq_ok_iff, Prod.mk.injEq] at h
    rcases h with ⟨_, _, rfl, rfl⟩
    exact ⟨htext, by rw [hmethod]; rfl⟩
  . simp at h

theorem parseRoute_error_status {response : Response} (h : parseRoute request = .error response)
    : response.status ≠ Response.statusOk := by
  have hnotFound : (Response.error Response.statusNotFound .invalidRequest).status
      ≠ Response.statusOk := by
    decide
  have hbadRequest : (Response.error Response.statusBadRequest .invalidRequest).status
      ≠ Response.statusOk := by
    decide
  simp only [parseRoute, Except.bind_eq_error_iff, Except.ensure_eq_error_iff,
    Except.okOr_eq_error_iff] at h
  rcases h with ⟨_, rfl⟩ | ⟨_, _, ⟨_, rfl⟩ | ⟨id, _, h⟩⟩
  . exact hnotFound
  . exact hbadRequest
  . split at h
    . simp [pure, Except.pure] at h
    . simp only [Except.bind_eq_error_iff, Except.okOr_eq_error_iff] at h
      rcases h with ⟨_, rfl⟩ | ⟨_, _, h⟩
      . exact hbadRequest
      . simp [pure, Except.pure] at h
    . simp only [Except.bind_eq_error_iff, Except.okOr_eq_error_iff] at h
      rcases h with ⟨_, rfl⟩ | ⟨_, _, h⟩
      . exact hbadRequest
      . simp [pure, Except.pure] at h
    . injection h with h
      subst h
      exact hnotFound

theorem putRecord_status {recordId : RecordId} {response : Response}
    (h : (putRecord storage request recordId).1 = .ok response)
    : response.status ≠ Response.statusOk := by
  unfold putRecord at h
  split at h
  . unfold cancelRequestBody at h
    split at h
    . injection h with h
      subst h
      decide
    . simp [Except.map] at h
  . split at h
    . injection h with h
      subst h
      decide
    . injection h with h
      subst h
      decide
    . split at h
      . injection h with h
        subst h
        decide
      . injection h with h
        subst h
        decide
      . split at h
        . next outcome _ _ =>
          injection h with h
          subst h
          cases outcome with
          | created revision => exact show 201 ≠ 200 by decide
          | updated revision => exact show 204 ≠ 200 by decide
        . next error _ _ =>
          injection h with h
          subst h
          cases error with
          | invalidRequest => decide
          | liveQuotaExceeded => decide
          | revisionOverflow => decide
          | invalidStorage => decide
        . injection h with h
          subst h
          decide

theorem putRecord_storage (storage : Storage) (request : Request) (recordId : RecordId)
    : (putRecord storage request recordId).2 = storage
        ∨ ∃ envelope,
          (putRecord storage request recordId).2 = (storage.putRecord recordId envelope).2 := by
  unfold putRecord
  split
  . exact Or.inl rfl
  . split
    . exact Or.inl rfl
    . exact Or.inl rfl
    . split
      . exact Or.inl rfl
      . exact Or.inl rfl
      . next envelope _ =>
        refine Or.inr ⟨envelope, ?_⟩
        split
        . next hput => rw [hput]
        . next hput => rw [hput]
        . next hput => rw [hput]

def refused (request : Request) (error : AuthenticationError) : Except WorkerError Response :=
  if cancelRequestBody request != .ok () then
    .error .cancel
  else
    match error with
    | .unauthorized => .ok .unauthorized
    | .unavailable => .ok .unavailable

def respond (result : Except WorkerError Response) : Response :=
  match result with
  | .ok response => response
  | .error _ => .unavailable

theorem fetch_eq (storage : Storage) (request : Request)
    : fetch crates storage request
        =
      (respond (handleAccountRequest crates storage request).1,
        (handleAccountRequest crates storage request).2) := by
  unfold fetch
  split
  . next h =>
    rw [h]
    rfl
  . next h =>
    rw [h]
    rfl

theorem status_refused (request : Request) (error : AuthenticationError)
    : (respond (refused request error)).status ≠ Response.statusOk := by
  unfold refused
  split
  . decide
  . cases error with
    | unauthorized => decide
    | unavailable => decide

theorem routeAccountRequest_of_error {accountId : AccountId} {operation : AccountOperation}
    {error : AuthenticationError} (hroute : parseRoute request = .ok (accountId, operation))
    (h : authenticateRequest crates storage request accountId operation.scope = .error error)
    : routeAccountRequest crates storage request = (refused request error, storage) := by
  have hcancels : cancelsBody operation (.error error) = true := by
    cases operation with
    | listRecords => rfl
    | getRecord recordId => rfl
    | putRecord recordId => rfl
  unfold routeAccountRequest refused
  simp only [hroute, h, hcancels, Bool.true_and]
  split
  . rfl
  . cases error with
    | unauthorized => rfl
    | unavailable => rfl

theorem routeAccountRequest_of_ok {accountId : AccountId} {operation : AccountOperation}
    (hroute : parseRoute request = .ok (accountId, operation))
    (h : authenticateRequest crates storage request accountId operation.scope = .ok ())
    : routeAccountRequest crates storage request = (.error .cancel, storage)
        ∨ routeAccountRequest crates storage request = perform storage request operation := by
  unfold routeAccountRequest
  simp only [hroute, h]
  split
  . exact Or.inl rfl
  . exact Or.inr rfl

def requiredScope (request : Request) : ApiKeyScope :=
  if request.method = .put then .publish else .download

theorem authenticateRequest_congr {other : Storage} (h : storage.Settled) (hother : other.Settled)
    (haccount : other.account = storage.account) (accountId : AccountId) (scope : ApiKeyScope)
    : authenticateRequest crates other request accountId scope
        =
      authenticateRequest crates storage request accountId scope := by
  have hload : other.loadAccount = storage.loadAccount := by
    rcases h.loadAccount_eq with ⟨hnone, hload⟩ | ⟨account, hsome, hload⟩
    . rcases hother.loadAccount_eq with ⟨_, hload'⟩ | ⟨account', hsome', _⟩
      . rw [hload, hload']
      . rw [haccount, hnone] at hsome'
        simp at hsome'
    . rcases hother.loadAccount_eq with ⟨hnone', _⟩ | ⟨account', hsome', hload'⟩
      . rw [haccount, hsome] at hnone'
        simp at hnone'
      . rw [haccount, hsome, Option.some.injEq] at hsome'
        rw [hload, hload', storageParts_injective hsome']
  unfold authenticateRequest
  rw [hload]

theorem fetch_of_not_authorized (h : storage.Settled) (hroute : request.route ≠ .initializeAccount)
    (hnot : ¬Authorized crates storage (requiredScope request) request.route.accountId
      request.authorization)
    : ∃ response : Response,
        response.status ≠ Response.statusOk
          ∧ ∀ other : Storage, other.Settled → other.account = storage.account →
              fetch crates other request = (response, other) := by
  have hrecords : ∃ response : Response,
      response.status ≠ Response.statusOk
        ∧ ∀ other : Storage, other.Settled → other.account = storage.account →
            (respond (routeAccountRequest crates other request).1,
              (routeAccountRequest crates other request).2) = (response, other) := by
    cases hparse : parseRoute request with
    | error response =>
      refine ⟨response, parseRoute_error_status hparse, ?_⟩
      intro other _ _
      simp only [routeAccountRequest, hparse]
      rfl
    | ok target =>
      rcases target with ⟨accountId, operation⟩
      rcases parseRoute_eq_ok hparse with ⟨hid, hscope⟩
      cases hauth : authenticateRequest crates storage request accountId operation.scope with
      | ok result =>
        rw [authenticateRequest_eq_ok_iff h, hscope, ← hid] at hauth
        exact absurd hauth hnot
      | error error =>
        refine ⟨respond (refused request error), status_refused request error, ?_⟩
        intro other hother haccount
        rw [← authenticateRequest_congr h hother haccount] at hauth
        rw [routeAccountRequest_of_error hparse hauth]
  have hfallback : (Response.error Response.statusNotFound .invalidRequest).status
      ≠ Response.statusOk := by
    decide
  simp only [fetch_eq]
  unfold handleAccountRequest
  cases hkind : request.route with
  | initializeAccount => exact absurd hkind hroute
  | fallback => exact ⟨_, hfallback, fun other _ _ => rfl⟩
  | recordIndex accountId =>
    cases request.method with
    | get => exact hrecords
    | put => exact ⟨_, hfallback, fun other _ _ => rfl⟩
    | post => exact ⟨_, hfallback, fun other _ _ => rfl⟩
    | other => exact ⟨_, hfallback, fun other _ _ => rfl⟩
  | record accountId recordId =>
    cases request.method with
    | get => exact hrecords
    | put => exact hrecords
    | post => exact ⟨_, hfallback, fun other _ _ => rfl⟩
    | other => exact ⟨_, hfallback, fun other _ _ => rfl⟩

theorem routeAccountRequest_cases (storage : Storage) (request : Request)
    : (∃ result, routeAccountRequest crates storage request = (result, storage)
        ∧ (respond result).status ≠ Response.statusOk)
      ∨ ∃ accountId operation,
        parseRoute request = .ok (accountId, operation)
          ∧ routeAccountRequest crates storage request = perform storage request operation := by
  cases hparse : parseRoute request with
  | error response =>
    refine Or.inl ⟨.ok response, ?_, parseRoute_error_status hparse⟩
    simp only [routeAccountRequest, hparse]
  | ok target =>
    rcases target with ⟨accountId, operation⟩
    cases hauth : authenticateRequest crates storage request accountId operation.scope with
    | error error =>
      exact Or.inl ⟨_, routeAccountRequest_of_error hparse hauth, status_refused request error⟩
    | ok result =>
      rcases routeAccountRequest_of_ok hparse hauth with hcancel | hperform
      . exact Or.inl ⟨_, hcancel, by decide⟩
      . exact Or.inr ⟨accountId, operation, rfl, hperform⟩

theorem routeAccountRequest_of_put (hput : request.method = .put)
    : (respond (routeAccountRequest crates storage request).1).status ≠ Response.statusOk := by
  rcases routeAccountRequest_cases storage request with
    ⟨result, hresult, hstatus⟩ | ⟨accountId, operation, hparse, hperform⟩
  . rw [hresult]
    exact hstatus
  . rw [hperform]
    have hscope := (parseRoute_eq_ok hparse).2
    rw [if_pos hput] at hscope
    cases operation with
    | listRecords => simp [AccountOperation.scope] at hscope
    | getRecord recordId => simp [AccountOperation.scope] at hscope
    | putRecord recordId =>
      cases hresult : (perform storage request (.putRecord recordId)).1 with
      | error error => exact show 503 ≠ 200 by decide
      | ok response => exact putRecord_status hresult

theorem routeAccountRequest_of_ne_put (hput : request.method ≠ .put)
    : (routeAccountRequest crates storage request).2 = storage := by
  rcases routeAccountRequest_cases storage request with
    ⟨result, hresult, _⟩ | ⟨accountId, operation, hparse, hperform⟩
  . rw [hresult]
  . rw [hperform]
    have hscope := (parseRoute_eq_ok hparse).2
    rw [if_neg hput] at hscope
    cases operation with
    | listRecords => rfl
    | getRecord recordId => rfl
    | putRecord recordId => simp [AccountOperation.scope] at hscope

theorem settled_routeAccountRequest (h : storage.Settled)
    : (routeAccountRequest crates storage request).2.Settled := by
  rcases routeAccountRequest_cases storage request with
    ⟨result, hresult, _⟩ | ⟨accountId, operation, _, hperform⟩
  . rw [hresult]
    exact h
  . rw [hperform]
    cases operation with
    | listRecords => exact h
    | getRecord recordId => exact h
    | putRecord recordId =>
      simp only [perform]
      rcases putRecord_storage storage request recordId with hsame | ⟨envelope, hput⟩
      . rw [hsame]
        exact h
      . rw [hput]
        exact h.putRecord recordId envelope

theorem settled_initializeAccount (h : storage.Settled)
    : (initializeAccount storage request).2.Settled := by
  unfold initializeAccount
  split
  . exact h
  . split
    . exact h
    . next account _ =>
      have := h.initializeAccount account
      split
      . next hresult =>
        rw [hresult] at this
        exact this
      . next hresult =>
        rw [hresult] at this
        exact this
      . next hresult =>
        rw [hresult] at this
        exact this

theorem settled_fetch (h : storage.Settled) : (fetch crates storage request).2.Settled := by
  rw [fetch_eq]
  dsimp only
  unfold handleAccountRequest
  split
  . exact settled_initializeAccount h
  . exact settled_routeAccountRequest h
  . exact settled_routeAccountRequest h
  . exact settled_routeAccountRequest h
  . exact h

theorem settled_of_reachable (h : (accountService crates).Reachable storage) : storage.Settled := by
  apply h.invariant
  . intro storage hinit tables htables
    rw [hinit] at htables
    simp at htables
  . intro storage storage' event h hstep
    have hsettled : (fetch crates storage event.1).2.Settled := settled_fetch h
    rw [hstep] at hsettled
    exact hsettled

theorem status_fetch_of_put (hroute : request.route ≠ .initializeAccount)
    (hput : request.method = .put)
    : (fetch crates storage request).1.status ≠ Response.statusOk := by
  rw [fetch_eq]
  dsimp only
  unfold handleAccountRequest
  split
  . next hkind _ => exact absurd hkind hroute
  . exact routeAccountRequest_of_put hput
  . exact routeAccountRequest_of_put hput
  . exact routeAccountRequest_of_put hput
  . exact show 404 ≠ 200 by decide

theorem fetch_of_ne_put (hroute : request.route ≠ .initializeAccount)
    (hput : request.method ≠ .put) : (fetch crates storage request).2 = storage := by
  rw [fetch_eq]
  dsimp only
  unfold handleAccountRequest
  split
  . next hkind _ => exact absurd hkind hroute
  . exact routeAccountRequest_of_ne_put hput
  . exact routeAccountRequest_of_ne_put hput
  . exact routeAccountRequest_of_ne_put hput
  . rfl

theorem not_authorized_both (accountId : Option (List UInt8)) (authorization : List (List UInt8))
    (hdownload : Authorized crates storage .download accountId authorization)
    (hpublish : Authorized crates storage .publish accountId authorization) : False := by
  rcases hdownload with ⟨account, token, haccount, _, hvalue, hhash⟩
  rcases hpublish with ⟨account', token', haccount', _, hvalue', hhash'⟩
  rw [haccount, Option.some.injEq] at haccount'
  have hsame := storageParts_injective haccount'
  subst hsame
  rw [hvalue, List.cons.injEq] at hvalue'
  have htoken : token = token' := by
    have h1 := ApiToken.parseAuthorization_eq_ok_iff.mpr (Eq.refl token.bearer)
    have h2 := ApiToken.parseAuthorization_eq_ok_iff.mpr hvalue'.1
    rw [h1] at h2
    injection h2
  subst htoken
  have hvalid := account.valid
  simp only [StoredAccount.validate, Except.ensure_eq_ok_iff] at hvalid
  simp only at hhash hhash'
  rw [← hhash, ← hhash'] at hvalid
  simp at hvalid

theorem scope_separation (crates : AccountCrates) {storage : Storage}
    (hreachable : (accountService crates).Reachable storage) (request : Request)
    (hroute : request.route ≠ .initializeAccount)
    : ((fetch crates storage request).1.status = Response.statusOk →
        Authorized crates storage .download request.route.accountId request.authorization)
      ∧ ((fetch crates storage request).2 ≠ storage →
          request.method = .put
            ∧ Authorized crates storage .publish request.route.accountId request.authorization)
      ∧ (∀ accountId authorization,
          ¬(Authorized crates storage .download accountId authorization
            ∧ Authorized crates storage .publish accountId authorization))
      ∧ (¬Authorized crates storage (requiredScope request) request.route.accountId
            request.authorization →
          (fetch crates storage request).2 = storage
            ∧ ∀ other, (accountService crates).Reachable other → other.account = storage.account →
                (fetch crates other request).1 = (fetch crates storage request).1) := by
  have h := settled_of_reachable hreachable
  refine ⟨?_, ?_, ?_, ?_⟩
  . intro hstatus
    by_contra hnot
    have hput : request.method ≠ .put := by
      intro hput
      exact status_fetch_of_put hroute hput hstatus
    have hscope : requiredScope request = .download := if_neg hput
    rw [← hscope] at hnot
    rcases fetch_of_not_authorized h hroute hnot with ⟨response, hne, hsame⟩
    rw [hsame storage h rfl] at hstatus
    exact hne hstatus
  . intro hchanged
    have hput : request.method = .put := by
      by_contra hput
      exact hchanged (fetch_of_ne_put hroute hput)
    refine ⟨hput, ?_⟩
    by_contra hnot
    have hscope : requiredScope request = .publish := if_pos hput
    rw [← hscope] at hnot
    rcases fetch_of_not_authorized h hroute hnot with ⟨response, _, hsame⟩
    rw [hsame storage h rfl] at hchanged
    exact hchanged rfl
  . rintro accountId authorization ⟨hdownload, hpublish⟩
    exact not_authorized_both accountId authorization hdownload hpublish
  . intro hnot
    rcases fetch_of_not_authorized h hroute hnot with ⟨response, _, hsame⟩
    rw [hsame storage h rfl]
    refine ⟨rfl, ?_⟩
    intro other hother haccount
    rw [hsame other (settled_of_reachable hother) haccount]

end AccountObject

namespace Fixture

def initializeRequest : Request where
  method := .post
  route := .initializeAccount
  authorization := []
  contentLength := none
  oversized := false
  body := some [some (testAccountId.bytes.toList ++ publishHash.toList ++ downloadHash.toList)]
  cancels := true

def putRequest : Request where
  method := .put
  route := .record testAccountId.hyphenated (RecordId.encode ⟨.replicate 16 7⟩)
  authorization := [publishToken.bearer]
  contentLength := none
  oversized := false
  body := some [some (Envelope.toJson ⟨1, .replicate 24 9, [1, 2, 3]⟩).print]
  cancels := true

def listRequest (token : ApiToken) : Request where
  method := .get
  route := .recordIndex testAccountId.hyphenated
  authorization := [token.bearer]
  contentLength := none
  oversized := false
  body := none
  cancels := true

def initialized : Storage :=
  (AccountObject.fetch accountCrates ⟨none⟩ initializeRequest).2

def withRecord : Storage :=
  (AccountObject.fetch accountCrates initialized putRequest).2

def testAccount : StoredAccount where
  accountId := testAccountId
  publishApiTokenHash := publishHash
  downloadApiTokenHash := downloadHash
  valid := by decide +kernel

theorem reachable_initialized : (accountService accountCrates).Reachable initialized := by
  refine ⟨⟨none⟩, _, rfl, System.Run.single (e := (initializeRequest, ?_)) ?_⟩
  . exact (AccountObject.fetch accountCrates ⟨none⟩ initializeRequest).1
  . rfl

theorem reachable_withRecord : (accountService accountCrates).Reachable withRecord := by
  refine reachable_initialized.step (e := (putRequest, ?_)) ?_
  . exact (AccountObject.fetch accountCrates initialized putRequest).1
  . rfl

theorem authorized_publish
    : Authorized accountCrates withRecord .publish (some testAccountId.hyphenated)
        [publishToken.bearer] := by
  refine ⟨testAccount, publishToken, ?_, rfl, rfl, ?_⟩
  . decide +kernel
  . decide +kernel

end Fixture

namespace AccountObject

open Fixture

theorem scope_separation_list
    : (fetch accountCrates withRecord (listRequest downloadToken)).1.status = 200
        ∧ Authorized accountCrates withRecord .download (some testAccountId.hyphenated)
            [downloadToken.bearer]
        ∧ (fetch accountCrates initialized (listRequest publishToken)).1
            = (fetch accountCrates withRecord (listRequest publishToken)).1 := by
  have hdownload := scope_separation accountCrates reachable_withRecord (listRequest downloadToken)
    (by decide)
  have hpublish := scope_separation accountCrates reachable_withRecord (listRequest publishToken)
    (by decide)
  have hstatus : (fetch accountCrates withRecord (listRequest downloadToken)).1.status = 200 := by
    decide +kernel
  have hnot : ¬Authorized accountCrates withRecord .download (some testAccountId.hyphenated)
      [publishToken.bearer] := by
    intro h
    exact hpublish.2.2.1 _ _ ⟨h, authorized_publish⟩
  refine ⟨hstatus, hdownload.1 hstatus, ?_⟩
  apply (hpublish.2.2.2 hnot).2 initialized reachable_initialized
  decide +kernel

end AccountObject

end Attached
