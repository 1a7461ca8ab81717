import Attached.Local.StateFiles

/-!
This module contains the operations on the stored account: how it is created, imported, exported and
loaded, each of them under the lock of the account file.
-/

namespace Attached

open LocalEncryption

def scopeName (scope : ApiKeyScope) : String :=
  match scope with
  | .publish => "publish"
  | .download => "download"

namespace AccountFile

variable (aead : Aead (Vector UInt8 32) (Vector UInt8 nonceBytes)) {crates : AccountCrates}

def encode (bundle : AccountBundle crates) : Except Failure (List UInt8) :=
  bundle.encode.mapError fun _ => .panic

def parseInput (crates : AccountCrates) (encoded : List UInt8)
    : Except Failure (AccountBundle crates) :=
  (AccountBundle.parse crates encoded).mapError fun
    | .error _ => .error "invalid account bundle"
    | .assertion => .panic

def intoExportScope (stored : AccountBundle crates) (requiredScope : ApiKeyScope)
    : Except Failure (ScopedAccountBundle crates) := do
  let bundle :=
    match stored with
    | .scoped bundle => bundle
    | .owner bundle => bundle.intoScoped requiredScope
  let name := scopeName bundle.apiKeyScope
  let required := scopeName requiredScope
  Except.ensure (bundle.apiKeyScope == requiredScope)
    (.error s!"the configured account bundle is {name}-only; a {required} bundle is required")
  return bundle

def intoOperationalScope (stored : AccountBundle crates) (requiredScope : ApiKeyScope)
    : Except Failure (ScopedAccountBundle crates) :=
  match stored, requiredScope with
  | .owner _, .publish =>
    .error (.error ("account-creator state also contains the download key and cannot be used by "
      ++ "`serve`; start `serve` with a publish bundle on a separate serving host"))
  | stored, requiredScope => intoExportScope stored requiredScope

section

variable (crates)

def exportAccountWithStore (io : LocalIo) (scope : ApiKeyScope) : FileEffect (List UInt8) := do
  let stored ← loadStoredAccountWithStore aead crates io
  let stored ←
    Effect.lift (Except.okOr stored (.error "no synchronization account is configured"))
  let bundle ← Effect.lift (intoExportScope stored scope)
  Effect.lift (encode (.scoped bundle))

/--
`load_account_optional`. The credentials of an account are the fields of its scoped bundle.
-/
def loadAccountOptional (io : LocalIo) (requiredScope : ApiKeyScope)
    : FileEffect (Option (ScopedAccountBundle crates)) := do
  match ← loadStoredAccountWithStore aead crates io with
  | none => return none
  | some stored => return some (← Effect.lift (intoOperationalScope stored requiredScope))

def loadAccount (io : LocalIo) (requiredScope : ApiKeyScope)
    : FileEffect (ScopedAccountBundle crates) := do
  let account ← loadAccountOptional aead crates io requiredScope
  Effect.lift (Except.okOr account (.error "no synchronization account is configured"))

def ensureAccountSlotAvailable (io : LocalIo) : FileEffect Unit := do
  Effect.lift io.lock
  let stored ← io.readSecretOptionalBounded accountFile (storedLimit maxAccountStateBytes)
  Effect.lift
    (Except.ensure stored.isNone (.error "a synchronization account is already configured"))

def installExisting (io : LocalIo) (existing encoded : List UInt8) (allowIdempotent : Bool)
    : FileEffect Unit := do
  let legacy := !isEnvelope existing
  let existing ← decryptAccountWithStore aead crates io existing false
  if allowIdempotent && existing == encoded then
    if legacy then
      let key ← Effect.lift (io.masterKey true)
      let encrypted ←
        Effect.lift (sealSecret aead key .syncAccount existing maxAccountStateBytes io.random)
      io.atomicReplace encrypted
    else
      return ()
  else
    Effect.lift (.error (.error "a different synchronization account is already configured"))

def installAbsent (io : LocalIo) (encoded : List UInt8) : FileEffect Unit := do
  let key ← Effect.lift (io.masterKey true)
  let encrypted ←
    Effect.lift (sealSecret aead key .syncAccount encoded maxAccountStateBytes io.random)
  if ← io.createNoclobber encrypted then
    return ()
  else
    Effect.lift (.error (.error "synchronization account was concurrently installed"))

def installAccount (io : LocalIo) (encoded : List UInt8) (allowIdempotent : Bool)
    : FileEffect Unit := do
  Effect.lift
    (Except.ensure (encoded.length ≤ maxAccountStateBytes)
      (.error "account bundle exceeds local state limit"))
  Effect.lift io.lock
  match ← io.readSecretOptionalBounded accountFile (storedLimit maxAccountStateBytes) with
  | some existing => installExisting aead crates io existing encoded allowIdempotent
  | none => installAbsent aead io encoded

def importAccount (io : LocalIo) (encoded : List UInt8) : FileEffect Unit := do
  match ← Effect.lift (parseInput crates encoded) with
  | .scoped _ => installAccount aead crates io encoded true
  | .owner _ => Effect.lift (.error (.error "only a scoped account bundle can be imported"))

end

end AccountFile

/--
What the service returns for a created account. `CreateAccountResponse::new` checks what the owner's
bundle needs.
-/
structure CreateAccountResponse (crates : AccountCrates) where
  accountId : AccountId
  publishApiToken : ApiToken
  downloadApiToken : ApiToken
  isUuidV7 : accountId.isUuidV7 = true
  serviceHash_ne : publishApiToken.serviceHash crates ≠ downloadApiToken.serviceHash crates

namespace AccountFile

variable (aead : Aead (Vector UInt8 32) (Vector UInt8 nonceBytes)) {crates : AccountCrates}

/-- The bundle that `install_created_account` builds, `rootKey` is the generated key. -/
def createdBundle (origin : ServiceOrigin crates) (response : CreateAccountResponse crates)
    (secret : ConsumerIdentitySecret) (rootKey : Option AccountRootKey)
    : Except Failure (OwnerAccountBundle crates) := do
  let rootKey ← Except.okOr rootKey (.error "could not generate the account root key")
  (OwnerAccountBundle.fromParts origin response.accountId response.publishApiToken
    response.downloadApiToken rootKey secret).mapError
      fun _ => .error "could not create owner account bundle"

def installCreatedAccount (io : LocalIo) (origin : ServiceOrigin crates)
    (response : CreateAccountResponse crates) (secret : ConsumerIdentitySecret)
    (rootKey : Option AccountRootKey) : FileEffect Unit := do
  let owner ← Effect.lift (createdBundle origin response secret rootKey)
  let encoded ← Effect.lift (encode (.owner owner))
  installAccount aead crates io encoded false

end AccountFile

end Attached
