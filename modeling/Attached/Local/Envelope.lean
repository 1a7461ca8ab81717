import Attached.Library.Aead
import Attached.Library.Panic
import Attached.Protocol.Account

/-!
This module contains the envelope in which secrets are stored locally, and the bounded read of the
file it is stored in.
-/

namespace Attached

namespace LocalEncryption

def magic : List UInt8 :=
  Bytes.ofString "ATSECR01"

def version : UInt8 := 1
def nonceBytes : Nat := 12
def tagBytes : Nat := 16
def headerBytes : Nat := magic.length + 1 + nonceBytes

def usizeMax : Nat := u64Max

def checkedAdd (a b : Nat) : Option Nat :=
  if a + b ≤ usizeMax then some (a + b) else none

/--
What a file with a secret of up to `plaintextLimit` bytes may hold. The addition is not checked.
-/
def storedLimit (plaintextLimit : Nat) : Nat :=
  headerBytes + tagBytes + plaintextLimit

inductive Purpose where
  | adminIdentity
  | syncAccount
  | syncCatalog
  | sshHost
  deriving DecidableEq

def Purpose.aad (purpose : Purpose) : List UInt8 :=
  match purpose with
  | .adminIdentity => Bytes.ofString "attached/local-secret/v1/admin-identity"
  | .syncAccount => Bytes.ofString "attached/local-secret/v1/sync-account"
  | .syncCatalog => Bytes.ofString "attached/local-secret/v1/sync-catalog"
  | .sshHost => Bytes.ofString "attached/local-secret/v1/ssh-host"

def isEnvelope (bytes : List UInt8) : Bool :=
  magic.isPrefixOf bytes

def hasEnvelopeShape (bytes : List UInt8) : Bool :=
  isEnvelope bytes || headerBytes + tagBytes ≤ bytes.length

def associatedData (purpose : Purpose) : List UInt8 :=
  magic ++ [version] ++ purpose.aad

section

variable (aead : Aead (Vector UInt8 32) (Vector UInt8 nonceBytes))

/--
`seal`, which is a keyword here. `random` is what the operating system returned for the nonce.
-/
def sealSecret (key : Vector UInt8 32) (purpose : Purpose) (plaintext : List UInt8)
    (plaintextLimit : Nat) (random : Option (Vector UInt8 nonceBytes))
    : Except Failure (List UInt8) := do
  Except.ensure (plaintext.length ≤ plaintextLimit)
    (.error "local secret plaintext exceeds configured limit")
  let nonce ← Except.okOr random (.error "operating-system randomness is unavailable")
  let ciphertext ←
    Except.okOr (aead.encrypt key nonce (associatedData purpose) plaintext)
      (.error "could not encrypt local secret")
  return magic ++ [version] ++ nonce.toList ++ ciphertext

def openSecret (key : Vector UInt8 32) (purpose : Purpose) (envelope : List UInt8)
    (plaintextLimit : Nat) : Except Failure (List UInt8) := do
  let maximum ←
    Except.okOr ((checkedAdd headerBytes plaintextLimit).bind fun length =>
        checkedAdd length tagBytes)
      (.error "local secret size limit is invalid")
  Except.ensure (envelope.length ≤ maximum) (.error "encrypted local secret exceeds configured limit")
  Except.ensure (headerBytes + tagBytes ≤ envelope.length)
    (.error "encrypted local secret is truncated")
  Except.ensure (magic.isPrefixOf envelope) (.error "encrypted local secret has invalid format")
  let versionByte ← Failure.index envelope magic.length
  Except.ensure (versionByte == version)
    (.error "encrypted local secret uses an unsupported version")
  let nonceStart := magic.length + 1
  let nonceEnd := nonceStart + nonceBytes
  let nonce ← Failure.slice envelope nonceStart nonceEnd
  let nonce ← Except.okOr (toFixed nonceBytes nonce)
    (.error "encrypted local secret has invalid nonce")
  let ciphertext ← Failure.slice envelope nonceEnd envelope.length
  let plaintext ←
    Except.okOr (aead.decrypt key nonce (associatedData purpose) ciphertext)
      (.error "encrypted local secret authentication failed")
  Except.ensure (plaintext.length ≤ plaintextLimit)
    (.error "decrypted local secret exceeds configured limit")
  return plaintext

end

/--
`read_secret_optional_bounded` on a file with the given contents.
-/
def readSecretOptionalBounded (name : String) (file : Option (List UInt8)) (limit : Nat)
    : Except Failure (Option (List UInt8)) :=
  match file with
  | none => .ok none
  | some bytes => do
    Except.ensure (bytes.length ≤ limit) (.error s!"state file {name} exceeds {limit} bytes")
    return some bytes

end LocalEncryption

end Attached
