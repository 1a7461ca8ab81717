import Attached.Library.Serde
import Attached.Protocol.Account

/-!
This module contains account bundles, the text in which the credentials of an account are handed to
a machine: base64url of a compact JSON object.
-/

namespace Attached

structure ScopedWire where
  serviceOrigin : List UInt8
  accountId : List UInt8
  apiKeyScope : UInt8
  apiToken : List UInt8
  accountRootKey : List UInt8
  authorizedConsumerIdentity : Option (List UInt8)
  consumerIdentitySecret : Option (List UInt8)
  deriving DecidableEq

/--
The outer `Option` of the secret is whether the field is present, the inner one whether it is `null`.
-/
structure OwnerWire where
  serviceOrigin : List UInt8
  accountId : List UInt8
  publishApiToken : List UInt8
  downloadApiToken : List UInt8
  accountRootKey : List UInt8
  consumerIdentitySecret : Option (Option (List UInt8))
  deriving DecidableEq

inductive AccountBundleWire where
  | scoped (fields : ScopedWire)
  | owner (fields : OwnerWire)
  deriving DecidableEq

open Serde

def ScopedWire.members (wire : ScopedWire) : List (List UInt8 × Json) :=
  [textMember "bundle_type" (Bytes.ofString "scoped"),
    textMember "service_origin" wire.serviceOrigin,
    textMember "account_id" wire.accountId,
    numberMember "api_key_scope" wire.apiKeyScope.toNat,
    textMember "api_token" wire.apiToken,
    textMember "account_root_key" wire.accountRootKey]
    ++ optionalMember "authorized_consumer_identity" wire.authorizedConsumerIdentity
    ++ optionalMember "consumer_identity_secret" wire.consumerIdentitySecret

def OwnerWire.members (wire : OwnerWire) : List (List UInt8 × Json) :=
  [textMember "bundle_type" (Bytes.ofString "owner"),
    textMember "service_origin" wire.serviceOrigin,
    textMember "account_id" wire.accountId,
    textMember "publish_api_token" wire.publishApiToken,
    textMember "download_api_token" wire.downloadApiToken,
    textMember "account_root_key" wire.accountRootKey]
    ++ match wire.consumerIdentitySecret with
      | none => []
      | some none => [(Bytes.ofString "consumer_identity_secret", .null)]
      | some (some secret) => [textMember "consumer_identity_secret" secret]

namespace AccountBundleWire

def members (wire : AccountBundleWire) : List (List UInt8 × Json) :=
  match wire with
  | .scoped fields => fields.members
  | .owner fields => fields.members

def toVec (wire : AccountBundleWire) : List UInt8 :=
  (Json.object wire.members).print

end AccountBundleWire

namespace ScopedWire

def ofMembers (members : List (List UInt8 × Json)) : Option ScopedWire := do
  if onlyFields ["service_origin", "account_id", "api_key_scope", "api_token", "account_root_key",
      "authorized_consumer_identity", "consumer_identity_secret"] members then
    let serviceOrigin ← required "service_origin" members >>= asString
    let accountId ← required "account_id" members >>= asString
    let apiKeyScope ← required "api_key_scope" members >>= asUnsigned 256
    let apiToken ← required "api_token" members >>= asString
    let accountRootKey ← required "account_root_key" members >>= asString
    let authorizedConsumerIdentity ← optionalString "authorized_consumer_identity" members
    let consumerIdentitySecret ← optionalString "consumer_identity_secret" members
    return ⟨serviceOrigin, accountId, UInt8.ofNat apiKeyScope, apiToken, accountRootKey,
      authorizedConsumerIdentity, consumerIdentitySecret⟩
  else
    none

/-- `serde` also reads the fields of a struct off an array. -/
def ofElements (elements : List Json) : Option ScopedWire :=
  match elements with
  | [origin, id, scope, token, key, identity, secret] => do
    let serviceOrigin ← asString origin
    let accountId ← asString id
    let apiKeyScope ← asUnsigned 256 scope
    let apiToken ← asString token
    let accountRootKey ← asString key
    let authorizedConsumerIdentity ← asOptionalString identity
    let consumerIdentitySecret ← asOptionalString secret
    return ⟨serviceOrigin, accountId, UInt8.ofNat apiKeyScope, apiToken, accountRootKey,
      authorizedConsumerIdentity, consumerIdentitySecret⟩
  | _ => none

end ScopedWire

namespace OwnerWire

def ofMembers (members : List (List UInt8 × Json)) : Option OwnerWire := do
  if onlyFields ["service_origin", "account_id", "publish_api_token", "download_api_token",
      "account_root_key", "consumer_identity_secret"] members then
    let serviceOrigin ← required "service_origin" members >>= asString
    let accountId ← required "account_id" members >>= asString
    let publishApiToken ← required "publish_api_token" members >>= asString
    let downloadApiToken ← required "download_api_token" members >>= asString
    let accountRootKey ← required "account_root_key" members >>= asString
    -- `deserialize_present_optional`
    let consumerIdentitySecret ←
      (← member "consumer_identity_secret" members).mapM asOptionalString
    return ⟨serviceOrigin, accountId, publishApiToken, downloadApiToken, accountRootKey,
      consumerIdentitySecret⟩
  else
    none

def ofElements (elements : List Json) : Option OwnerWire :=
  match elements with
  | origin :: id :: publish :: download :: key :: secret => do
    let serviceOrigin ← asString origin
    let accountId ← asString id
    let publishApiToken ← asString publish
    let downloadApiToken ← asString download
    let accountRootKey ← asString key
    let consumerIdentitySecret ←
      match secret with
      | [] => some none
      | [secret] => (asOptionalString secret).map some
      | _ => none
    return ⟨serviceOrigin, accountId, publishApiToken, downloadApiToken, accountRootKey,
      consumerIdentitySecret⟩
  | _ => none

end OwnerWire

namespace AccountBundleWire

def ofJson (json : Json) : Option AccountBundleWire :=
  match json with
  | .object members => do
    let tag ← required "bundle_type" members >>= asString
    let fields := members.filter fun m => m.1 != Bytes.ofString "bundle_type"
    if tag = Bytes.ofString "scoped" then
      (ScopedWire.ofMembers fields).map .scoped
    else if tag = Bytes.ofString "owner" then
      (OwnerWire.ofMembers fields).map .owner
    else
      none
  | .array (tag :: elements) => do
    let tag ← asString tag
    if tag = Bytes.ofString "scoped" then
      (ScopedWire.ofElements elements).map .scoped
    else if tag = Bytes.ofString "owner" then
      (OwnerWire.ofElements elements).map .owner
    else
      none
  | _ => none

def fromSlice (payload : List UInt8) : Option AccountBundleWire :=
  Json.parse payload >>= ofJson

/-- Bundles from before consumer identities have no secret. -/
def legacyOwner (wire : AccountBundleWire) : Bool :=
  match wire with
  | .scoped _ => false
  | .owner fields => fields.consumerIdentitySecret.isNone

end AccountBundleWire

section

variable (crates : AccountCrates)

structure ScopedAccountBundle where
  serviceOrigin : ServiceOrigin crates
  accountId : AccountId
  apiKeyScope : ApiKeyScope
  apiToken : ApiToken
  accountRootKey : AccountRootKey
  authorizedConsumerIdentity : Option AuthorizedConsumerIdentity
  consumerIdentitySecret : Option ConsumerIdentitySecret
  deriving DecidableEq

structure OwnerAccountBundle where
  serviceOrigin : ServiceOrigin crates
  accountId : AccountId
  publishApiToken : ApiToken
  downloadApiToken : ApiToken
  accountRootKey : AccountRootKey
  consumerIdentitySecret : ConsumerIdentitySecret
  deriving DecidableEq

inductive AccountBundle where
  | scoped (bundle : ScopedAccountBundle crates)
  | owner (bundle : OwnerAccountBundle crates)
  deriving DecidableEq

end

variable {crates : AccountCrates}

def ApiKeyScope.toU8 (scope : ApiKeyScope) : UInt8 :=
  match scope with
  | .publish => 1
  | .download => 2

def ApiKeyScope.tryFrom (value : UInt8) : Except AccountError ApiKeyScope :=
  if value = 1 then
    .ok .publish
  else if value = 2 then
    .ok .download
  else
    .error .invalidBundle

namespace ScopedAccountBundle

def fromParts (serviceOrigin : ServiceOrigin crates) (accountId : AccountId)
    (apiKeyScope : ApiKeyScope) (apiToken : ApiToken) (accountRootKey : AccountRootKey)
    (authorizedConsumerIdentity : Option AuthorizedConsumerIdentity)
    : Except AccountError (ScopedAccountBundle crates) := do
  Except.ensure
    (!(!accountId.isUuidV7 || (apiKeyScope == .publish) != authorizedConsumerIdentity.isSome))
    .invalidBundle
  return ⟨serviceOrigin, accountId, apiKeyScope, apiToken, accountRootKey,
    authorizedConsumerIdentity, none⟩

def fromDownloadParts (serviceOrigin : ServiceOrigin crates) (accountId : AccountId)
    (apiToken : ApiToken) (accountRootKey : AccountRootKey)
    (consumerIdentitySecret : ConsumerIdentitySecret)
    : Except AccountError (ScopedAccountBundle crates) := do
  Except.ensure (!(!accountId.isUuidV7)) .invalidBundle
  return ⟨serviceOrigin, accountId, .download, apiToken, accountRootKey, none,
    some consumerIdentitySecret⟩

def wire (bundle : ScopedAccountBundle crates) : ScopedWire where
  serviceOrigin := bundle.serviceOrigin.text
  accountId := bundle.accountId.hyphenated
  apiKeyScope := bundle.apiKeyScope.toU8
  apiToken := bundle.apiToken.encode
  accountRootKey := Base64.encode bundle.accountRootKey.bytes.toList
  authorizedConsumerIdentity :=
    bundle.authorizedConsumerIdentity.map fun identity => Base64.encode identity.bytes.toList
  consumerIdentitySecret :=
    bundle.consumerIdentitySecret.map fun secret => Base64.encode secret.bytes.toList

def ofWire (crates : AccountCrates) (wire : ScopedWire)
    : Except AccountError (ScopedAccountBundle crates) := do
  let origin ← (ServiceOrigin.parse crates wire.serviceOrigin).mapError fun _ => .invalidBundle
  let accountId ← (AccountId.parse wire.accountId).mapError fun _ => .invalidBundle
  let token ← decodeBundleSecret wire.apiToken
  let root ← decodeBundleSecret wire.accountRootKey
  match ← ApiKeyScope.tryFrom wire.apiKeyScope with
  | .publish =>
    let identity ← wire.authorizedConsumerIdentity.mapM decodeBundleSecret
    fromParts origin accountId .publish ⟨token⟩ ⟨root⟩ (identity.map .mk)
  | .download =>
    let secret ← Except.okOr wire.consumerIdentitySecret .invalidBundle
    let secret ← decodeBundleSecret secret
    fromDownloadParts origin accountId ⟨token⟩ ⟨root⟩ ⟨secret⟩

end ScopedAccountBundle

namespace OwnerAccountBundle

def fromParts (serviceOrigin : ServiceOrigin crates) (accountId : AccountId)
    (publishApiToken downloadApiToken : ApiToken) (accountRootKey : AccountRootKey)
    (consumerIdentitySecret : ConsumerIdentitySecret)
    : Except AccountError (OwnerAccountBundle crates) := do
  Except.ensure
    (!(!accountId.isUuidV7
      || publishApiToken.serviceHash crates == downloadApiToken.serviceHash crates))
    .invalidBundle
  return ⟨serviceOrigin, accountId, publishApiToken, downloadApiToken, accountRootKey,
    consumerIdentitySecret⟩

end OwnerAccountBundle

def OwnerAccountBundle.scoped (bundle : OwnerAccountBundle crates) (scope : ApiKeyScope)
    : ScopedAccountBundle crates where
  serviceOrigin := bundle.serviceOrigin
  accountId := bundle.accountId
  apiKeyScope := scope
  apiToken :=
    match scope with
    | .publish => bundle.publishApiToken
    | .download => bundle.downloadApiToken
  accountRootKey := bundle.accountRootKey
  authorizedConsumerIdentity :=
    if scope = .publish then
      some (bundle.consumerIdentitySecret.authorizedIdentity crates)
    else
      none
  consumerIdentitySecret := if scope = .download then some bundle.consumerIdentitySecret else none

namespace OwnerAccountBundle

def intoScoped (bundle : OwnerAccountBundle crates) (scope : ApiKeyScope)
    : ScopedAccountBundle crates :=
  let ⟨serviceOrigin, accountId, publishApiToken, downloadApiToken, accountRootKey,
    consumerIdentitySecret⟩ := bundle
  let apiToken :=
    match scope with
    | .publish => publishApiToken
    | .download => downloadApiToken
  ⟨serviceOrigin, accountId, scope, apiToken, accountRootKey,
    if scope = .publish then some (consumerIdentitySecret.authorizedIdentity crates) else none,
    if scope = .download then some consumerIdentitySecret else none⟩

def wire (bundle : OwnerAccountBundle crates) : OwnerWire where
  serviceOrigin := bundle.serviceOrigin.text
  accountId := bundle.accountId.hyphenated
  publishApiToken := bundle.publishApiToken.encode
  downloadApiToken := bundle.downloadApiToken.encode
  accountRootKey := Base64.encode bundle.accountRootKey.bytes.toList
  consumerIdentitySecret := some (some (Base64.encode bundle.consumerIdentitySecret.bytes.toList))

def legacySecret (crates : AccountCrates) (root : Vector UInt8 32) : Vector UInt8 32 :=
  domainHash crates legacyConsumerIdentityDomain [root.toList]

def secretOfWire (crates : AccountCrates) (root : Vector UInt8 32)
    (secret : Option (Option (List UInt8))) : Except AccountError (Vector UInt8 32) :=
  match secret with
  | some (some secret) => decodeBundleSecret secret
  | some none => .error .invalidBundle
  | none => .ok (legacySecret crates root)

def ofWire (crates : AccountCrates) (wire : OwnerWire)
    : Except AccountError (OwnerAccountBundle crates) := do
  let root ← decodeBundleSecret wire.accountRootKey
  let secret ← secretOfWire crates root wire.consumerIdentitySecret
  let origin ← (ServiceOrigin.parse crates wire.serviceOrigin).mapError fun _ => .invalidBundle
  let accountId ← (AccountId.parse wire.accountId).mapError fun _ => .invalidBundle
  let publishToken ← decodeBundleSecret wire.publishApiToken
  let downloadToken ← decodeBundleSecret wire.downloadApiToken
  fromParts origin accountId ⟨publishToken⟩ ⟨downloadToken⟩ ⟨root⟩ ⟨secret⟩

end OwnerAccountBundle

inductive BundleFault where
  | error (error : AccountError)
  /-- The `assert!` on the length of the payload panics. -/
  | assertion
  deriving DecidableEq

namespace AccountBundle

def wire (bundle : AccountBundle crates) : AccountBundleWire :=
  match bundle with
  | .scoped bundle => .scoped bundle.wire
  | .owner bundle => .owner bundle.wire

def ofWire (crates : AccountCrates) (wire : AccountBundleWire)
    : Except AccountError (AccountBundle crates) :=
  match wire with
  | .scoped fields => do return .scoped (← ScopedAccountBundle.ofWire crates fields)
  | .owner fields => do return .owner (← OwnerAccountBundle.ofWire crates fields)

def encode (bundle : AccountBundle crates) : Except BundleFault (List UInt8) := do
  let payload := bundle.wire.toVec
  Except.ensure (payload.length ≤ maxBundleBytes) .assertion
  return Base64.encode payload

def parse (crates : AccountCrates) (input : List UInt8)
    : Except BundleFault (AccountBundle crates) := do
  Except.ensure (!(input.isEmpty || input.length > maxBundleEncodedBytes)) (.error .invalidBundle)
  -- `decode_slice` into a buffer of `MAX_BUNDLE_BYTES` bytes
  let decoded ←
    Except.okOr ((Base64.decode input).filter (·.length ≤ maxBundleBytes)) (.error .invalidBundle)
  let wire ← Except.okOr (AccountBundleWire.fromSlice decoded) (.error .invalidBundle)
  Except.ensure (!(wire.legacyOwner && wire.toVec != decoded)) (.error .invalidBundle)
  let bundle ← (ofWire crates wire).mapError .error
  let canonical ← bundle.encode
  Except.ensure (!(!wire.legacyOwner && canonical != input)) (.error .invalidBundle)
  return bundle

end AccountBundle

end Attached
