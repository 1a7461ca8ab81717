import Attached.Local.SecretStore
import Attached.Protocol.Bundle
import Attached.Sync.Catalog

/-!
This module contains the three state files with secrets, the account bundle, the host catalog and
the identity of the endpoint: how each is loaded, and how a refresh replaces the catalog.
-/

namespace Attached

open LocalEncryption

namespace AccountFile

variable (aead : Aead (Vector UInt8 32) (Vector UInt8 nonceBytes)) (crates : AccountCrates)

def accountFile : String := "sync-account.bundle"

def maxAccountStateBytes : Nat := maxBundleEncodedBytes

def parse (encoded : List UInt8) : Except Failure (AccountBundle crates) :=
  (AccountBundle.parse crates encoded).mapError fun
    | .error _ => .error "stored synchronization account is invalid"
    | .assertion => .panic

def decryptAccountWithStore (io : LocalIo) (encoded : List UInt8) (migrateLegacy : Bool)
    : FileEffect (List UInt8) := do
  if isEnvelope encoded then
    let key ← Effect.lift (io.masterKey false)
    Effect.lift (openSecret aead key .syncAccount encoded maxAccountStateBytes)
  else
    let _ ← Effect.lift (parse crates encoded)
    if migrateLegacy then
      let key ← Effect.lift (io.masterKey true)
      let encrypted ←
        Effect.lift (sealSecret aead key .syncAccount encoded maxAccountStateBytes io.random)
      io.atomicReplace encrypted
      return encoded
    else
      return encoded

def loadStoredAccountWithStore (io : LocalIo) : FileEffect (Option (AccountBundle crates)) := do
  Effect.lift io.lock
  match ← io.readSecretOptionalBounded accountFile (storedLimit maxAccountStateBytes) with
  | none => return none
  | some encoded => do
    let encoded ← decryptAccountWithStore aead crates io encoded true
    let bundle ← Effect.lift (parse crates encoded)
    return some bundle

end AccountFile

/--
The code that `serde` derives for the catalog. All results hold for whatever it computes.
-/
structure CatalogSerde where
  ofJson : Json → Option Catalog
  toVec : Catalog → Option (List UInt8)

def CatalogSerde.fromSlice (serde : CatalogSerde) (bytes : List UInt8) : Option Catalog :=
  (Json.parse bytes).bind serde.ofJson

namespace CatalogFile

variable {Ticket : Type} (aead : Aead (Vector UInt8 32) (Vector UInt8 nonceBytes))
  (serde : CatalogSerde) (iroh : Iroh Ticket)

def catalogFile : String := "host-catalog.json"

def maxCatalogBytes : Nat := 16 * 1024 * 1024

def validate (catalog : Catalog) (account : AccountCredentials) : Except Failure Unit :=
  (Catalog.validate iroh catalog account).mapError .error

def readStored (io : LocalIo) : FileEffect (Option (List UInt8)) :=
  io.readSecretOptionalBounded catalogFile (storedLimit maxCatalogBytes)

def decrypt (io : LocalIo) (stored : List UInt8) : FileEffect (List UInt8) := do
  if isEnvelope stored then
    let key ← Effect.lift (io.masterKey false)
    Effect.lift (openSecret aead key .syncCatalog stored maxCatalogBytes)
  else
    return stored

def readCatalogWithStore (io : LocalIo) (account : AccountCredentials) (migrateLegacy : Bool)
    : FileEffect (Option Catalog) := do
  match ← readStored io with
  | none => return none
  | some stored => do
    let legacy := !isEnvelope stored
    let plaintext ← decrypt aead io stored
    let catalog ← Effect.lift (Except.okOr (serde.fromSlice plaintext) (.error "invalid sync catalog"))
    Effect.lift (validate iroh catalog account)
    if migrateLegacy && legacy then
      let key ← Effect.lift (io.masterKey true)
      let encrypted ←
        Effect.lift (sealSecret aead key .syncCatalog plaintext maxCatalogBytes io.random)
      io.atomicReplace encrypted
      return some catalog
    else
      return some catalog

def load (io : LocalIo) (account : AccountCredentials) : FileEffect Catalog := do
  Effect.lift io.lock
  let catalog ← readCatalogWithStore aead serde iroh io account true
  return catalog.getD (Catalog.empty account)

def hasCorruptLegacyCatalog (io : LocalIo) : FileEffect Bool := do
  match ← readStored io with
  | none => return false
  | some stored => return !hasEnvelopeShape stored && (serde.fromSlice stored).isNone

def encodeCatalog (catalog : Catalog) : Except Failure (List UInt8) := do
  let encoded ← Except.okOr (serde.toVec catalog) (.error "could not encode sync catalog")
  Except.ensure (encoded.length ≤ maxCatalogBytes) (.error "sync catalog exceeds local limit")
  return encoded

def writeCatalog (io : LocalIo) (catalog : Catalog) (replace : Bool) : FileEffect Unit := do
  let plaintext ← Effect.lift (encodeCatalog serde catalog)
  let key ← Effect.lift (io.masterKey true)
  let encrypted ← Effect.lift (sealSecret aead key .syncCatalog plaintext maxCatalogBytes io.random)
  if replace then
    io.atomicReplace encrypted
  else if ← io.createNoclobber encrypted then
    return ()
  else
    Effect.lift (.error (.error "sync catalog was concurrently installed"))

/--
The catalog that `save_refresh` merges with, and whether there is a file. The file is read again, as
`retry` allows, to find out whether an unreadable one may be given up.
-/
def readCurrent (io retry : LocalIo) (account : AccountCredentials)
    : FileEffect (Option Catalog × Bool) := do
  match ← (readCatalogWithStore aead serde iroh io account false).attempt with
  | .ok current => return (current, current.isSome)
  | .error error =>
    if ← hasCorruptLegacyCatalog serde retry then
      return (none, true)
    else
      Effect.lift (.error error)

def saveRefresh (io retry : LocalIo) (account : AccountCredentials)
    (baseline : List (RecordId × Nat)) (refreshed : Catalog) : FileEffect Unit := do
  Effect.lift (validate iroh refreshed account)
  Effect.lift io.lock
  let (current, existed) ← readCurrent aead serde iroh io retry account
  let current := current.getD (Catalog.empty account)
  let next ← Effect.lift ((Catalog.mergeRefresh iroh account baseline refreshed current).mapError .error)
  writeCatalog aead serde io next existed

end CatalogFile

namespace IdentityFile

variable (aead : Aead (Vector UInt8 32) (Vector UInt8 nonceBytes))

def identityFile : String := "admin-identity.key"

def identityBytes : Nat := 32

def loadIdentityBytes (bytes : List UInt8) : Except Failure (Vector UInt8 32) :=
  Except.okOr (toFixed identityBytes bytes)
    (.error s!"identity file has {bytes.length} bytes, expected {identityBytes}")

def loadIdentity (io : LocalIo) (bytes : List UInt8) (migrateLegacy : Bool)
    : FileEffect (Vector UInt8 32) := do
  if bytes.length != identityBytes && isEnvelope bytes then
    let key ← Effect.lift (io.masterKey false)
    let plaintext ← Effect.lift (openSecret aead key .adminIdentity bytes identityBytes)
    Effect.lift (loadIdentityBytes plaintext)
  else
    let identity ← Effect.lift (loadIdentityBytes bytes)
    if migrateLegacy then
      let key ← Effect.lift (io.masterKey true)
      let encrypted ← Effect.lift (sealSecret aead key .adminIdentity bytes identityBytes io.random)
      io.atomicReplace encrypted
      return identity
    else
      return identity

/-- `load_or_create_with_store` where there is no file, `secret` is the generated identity. -/
def create (io : LocalIo) (secret : Vector UInt8 32) : FileEffect (Vector UInt8 32) := do
  let key ← Effect.lift (io.masterKey true)
  let encrypted ←
    Effect.lift (sealSecret aead key .adminIdentity secret.toList identityBytes io.random)
  if ← io.createNoclobber encrypted then
    return secret
  else
    match ← io.readSecretOptionalBounded identityFile (storedLimit identityBytes) with
    | none => Effect.lift (.error (.error s!"state file {identityFile} is missing"))
    | some bytes => loadIdentity aead io bytes true

def loadOrCreateWithStore (io : LocalIo) (secret : Vector UInt8 32)
    : FileEffect (Vector UInt8 32) := do
  Effect.lift io.lock
  match ← io.readSecretOptionalBounded identityFile (storedLimit identityBytes) with
  | none => create aead io secret
  | some bytes => loadIdentity aead io bytes true

end IdentityFile

end Attached
