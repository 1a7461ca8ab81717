import Attached.Library.Aead
import Attached.Protocol.Api
import Attached.Protocol.CanonicalLemmas

/-!
This module contains encrypted envelopes: how a publisher seals a host access descriptor, and how a
client opens it.
-/

namespace Attached

def maxFutureClockSkew : Nat := 60

def keyInfo : List UInt8 :=
  Bytes.ofString "attached/host-sync/descriptor-aead-key/v1\x00"

def aadDomain : List UInt8 :=
  Bytes.ofString "attached/host-sync/envelope-aad/v1\x00"

/--
The cryptographic primitives of other crates. All results hold for whatever they compute.
-/
structure Primitives where
  /-- `Hkdf::<Sha256>::new(Some(salt), key).expand(info)` for 32 bytes of output -/
  hkdfExpand (salt key info : List UInt8) : Option (Vector UInt8 32)
  aeadDecrypt (key : Vector UInt8 32) (nonce : Vector UInt8 24) (aad ciphertext : List UInt8)
    : Option (List UInt8)

structure CryptoEnvelope where
  nonce : Vector UInt8 24
  ciphertext : List UInt8
  deriving DecidableEq

def CryptoEnvelope.new (nonce : Vector UInt8 24) (ciphertext : List UInt8)
    : Except HostAccessError CryptoEnvelope := do
  Except.ensure (ciphertext.length ≤ maxCiphertextBytes) .limit
  return { nonce, ciphertext }

structure VerificationContext where
  accountId : AccountId
  recordId : RecordId
  now : DateTime

def deriveHostAccessDescriptorKey (primitives : Primitives) (accountRootKey : Vector UInt8 32)
    (accountId : AccountId) : Except HostAccessError (Vector UInt8 32) :=
  Except.okOr
    (primitives.hkdfExpand accountId.bytes.toList accountRootKey.toList keyInfo)
    .invalidField

def envelopeAad (accountId : AccountId) (recordId : RecordId) : List UInt8 :=
  aadDomain
    ++ accountId.bytes.toList
    ++ recordId.bytes.toList
    ++ Bytes.toBeBytes 2 envelopeVersion.toNat

section

variable {Ticket : Type} (iroh : Iroh Ticket) (primitives : Primitives)

def decryptHostAccessDescriptor (envelope : CryptoEnvelope) (accountRootKey : Vector UInt8 32)
    (accountId : AccountId) (recordId : RecordId)
    : Except HostAccessError (HostAccessDescriptor iroh) := do
  Except.ensure (envelope.ciphertext.length ≤ maxCiphertextBytes) .limit
  let key ← deriveHostAccessDescriptorKey primitives accountRootKey accountId
  let plaintext ←
    Except.okOr
      (primitives.aeadDecrypt key envelope.nonce (envelopeAad accountId recordId)
        envelope.ciphertext)
      .decryption
  decodeHostAccessDescriptor iroh plaintext

def openHostAccessDescriptor (envelope : CryptoEnvelope) (accountRootKey : Vector UInt8 32)
    (context : VerificationContext) : Except HostAccessError (HostAccessDescriptor iroh) := do
  let descriptor ←
    decryptHostAccessDescriptor iroh primitives envelope accountRootKey context.accountId
      context.recordId
  let maximumIssuedAt ←
    Except.okOr (context.now.checkedAddSeconds maxFutureClockSkew) .invalidField
  Except.ensure
    (!(descriptor.issuedAt > maximumIssuedAt || context.now ≥ descriptor.expiresAt))
    .expired
  return descriptor

end

structure SealingPrimitives where
  /-- `Hkdf::<Sha256>::new(Some(salt), key).expand(info)` for 32 bytes of output -/
  hkdfExpand (salt key info : List UInt8) : Option (Vector UInt8 32)
  aead : Aead (Vector UInt8 32) (Vector UInt8 24)

def SealingPrimitives.toPrimitives (primitives : SealingPrimitives) : Primitives where
  hkdfExpand := primitives.hkdfExpand
  aeadDecrypt := primitives.aead.decrypt

section

variable {Ticket : Type} {iroh : Iroh Ticket} (primitives : SealingPrimitives)

def sealHostAccessDescriptorWithNonce (descriptor : HostAccessDescriptor iroh)
    (accountRootKey : Vector UInt8 32) (accountId : AccountId) (recordId : RecordId)
    (nonce : Vector UInt8 24) : Except HostAccessError CryptoEnvelope := do
  let plaintext ← encodeHostAccessDescriptor descriptor
  let key ← deriveHostAccessDescriptorKey primitives.toPrimitives accountRootKey accountId
  let ciphertext ←
    Except.okOr (primitives.aead.encrypt key nonce (envelopeAad accountId recordId) plaintext)
      .decryption
  CryptoEnvelope.new nonce ciphertext

/-- `random` is the nonce that the operating system generates, if it can. -/
def sealHostAccessDescriptor (descriptor : HostAccessDescriptor iroh)
    (accountRootKey : Vector UInt8 32) (accountId : AccountId) (recordId : RecordId)
    (random : Option (Vector UInt8 24)) : Except HostAccessError CryptoEnvelope := do
  let nonce ← Except.okOr random .nonceReuse
  sealHostAccessDescriptorWithNonce primitives descriptor accountRootKey accountId recordId nonce

end

section

variable {Ticket : Type} {iroh : Iroh Ticket} {primitives : Primitives} {envelope : CryptoEnvelope}
  {accountRootKey : Vector UInt8 32}

theorem CryptoEnvelope.new_eq_ok_iff {nonce : Vector UInt8 24} {ciphertext : List UInt8}
    {result : CryptoEnvelope}
    : CryptoEnvelope.new nonce ciphertext = .ok result
        ↔
      ciphertext.length ≤ maxCiphertextBytes ∧ result = ⟨nonce, ciphertext⟩ := by
  simp only [CryptoEnvelope.new, Except.bind_eq_ok_iff, Except.ensure_eq_ok_iff,
    Except.pure_eq_ok_iff, decide_eq_true_eq, exists_const]
  rw [eq_comm (a := result)]

theorem openHostAccessDescriptor_eq_ok_iff {context : VerificationContext}
    {descriptor : HostAccessDescriptor iroh}
    : openHostAccessDescriptor iroh primitives envelope accountRootKey context = .ok descriptor
        ↔
      decryptHostAccessDescriptor iroh primitives envelope accountRootKey context.accountId
          context.recordId = .ok descriptor
        ∧ ∃ latest, context.now.checkedAddSeconds maxFutureClockSkew = some latest
          ∧ descriptor.issuedAt ≤ latest
          ∧ context.now < descriptor.expiresAt := by
  simp only [openHostAccessDescriptor, Except.bind_eq_ok_iff, Except.okOr_eq_ok_iff,
    Except.ensure_eq_ok_iff, Except.pure_eq_ok_iff, Bool.not_eq_true', Bool.or_eq_false_iff,
    decide_eq_false_iff_not, GT.gt, GE.ge, DateTime.lt_def, DateTime.le_def, Int.not_lt, Int.not_le]
  constructor
  . rintro ⟨_, hdecrypt, latest, hlatest, _, ⟨hissued, hexpires⟩, rfl⟩
    exact ⟨hdecrypt, latest, hlatest, hissued, hexpires⟩
  . rintro ⟨hdecrypt, latest, hlatest, hissued, hexpires⟩
    exact ⟨descriptor, hdecrypt, latest, hlatest, (), ⟨hissued, hexpires⟩, rfl⟩

theorem openHostAccessDescriptor_later {account : AccountId} {record : RecordId}
    {earlier now : DateTime} {descriptor : HostAccessDescriptor iroh} (hle : earlier ≤ now)
    (hnow : (now.checkedAddSeconds maxFutureClockSkew).isSome)
    (h : openHostAccessDescriptor iroh primitives envelope accountRootKey
      ⟨account, record, earlier⟩ = .ok descriptor)
    : openHostAccessDescriptor iroh primitives envelope accountRootKey ⟨account, record, now⟩
        =
      if descriptor.expiresAt ≤ now then .error .expired else .ok descriptor := by
  rcases openHostAccessDescriptor_eq_ok_iff.mp h with ⟨hdecrypt, first, hfirst, hissued, _⟩
  rcases Option.isSome_iff_exists.mp hnow with ⟨latest, hlatest⟩
  have hskew : descriptor.issuedAt ≤ latest := by
    have hfirst := DateTime.ofNanos?_eq_some hfirst
    have hlatest := DateTime.ofNanos?_eq_some hlatest
    rw [DateTime.le_def] at *
    dsimp at *
    omega
  split
  . next hexpired =>
    dsimp at hdecrypt
    simp only [openHostAccessDescriptor, hdecrypt, hlatest, Except.okOr]
    simp [bind, Except.bind, Except.ensure, hexpired]
  . next hfresh =>
    apply openHostAccessDescriptor_eq_ok_iff.mpr
    refine ⟨hdecrypt, latest, hlatest, hskew, ?_⟩
    rw [DateTime.le_def] at hfresh
    rw [DateTime.lt_def]
    dsimp
    omega

end

end Attached
