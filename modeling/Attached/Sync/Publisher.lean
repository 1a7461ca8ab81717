import Attached.Library.Effect
import Attached.Library.Panic
import Attached.Library.Transition
import Attached.Protocol.Crypto
import Attached.Sync.Catalog

/-!
This module contains how a server publishes its host: it remembers a digest of what it published last,
and publishes again when that changes or is due for renewal.
-/

namespace Attached

def recordIdDomain : List UInt8 :=
  Bytes.ofString "herdr/session-record/v1"

/-- `DESCRIPTOR_LIFETIME` in seconds. -/
def descriptorLifetime : Nat := 90

/-- `REPUBLISH_INTERVAL` in nanoseconds. -/
def republishInterval : Nat := 30 * 1000000000

/-- `PUBLISH_INTERVAL` in nanoseconds, how often the server calls `publish_snapshot`. -/
def publishInterval : Nat := 30 * 1000000000

inductive PublishOutcome where
  | unchanged
  | published (revision : Nat)
  deriving DecidableEq

def ExecutableVersion.toSync (version : ExecutableVersion) : Except Failure AttachedVersion := do
  let major ← component version.major "major"
  let minor ← component version.minor "minor"
  let patch ← component version.patch "patch"
  return { major, minor, patch }
where
  component (value : UInt32) (name : String) : Except Failure UInt16 :=
    if value.toNat < 2 ^ 16 then
      .ok value.toUInt16
    else
      .error (.error s!"Attached {name} version exceeds sync protocol")

structure SnapshotInput where
  host : String
  ticket : String
  capability : Vector UInt8 32
  version : AttachedVersion
  sshEnabled : Bool
  deriving DecidableEq

namespace SnapshotInput

def digestDomain : List UInt8 :=
  Bytes.ofString "attached/host-sync/publisher-input/v1\x00"

def framed (field : String) : List UInt8 :=
  Bytes.toBeBytes 4 (Bytes.ofString field).length ++ Bytes.ofString field

def bytes (input : SnapshotInput) : List UInt8 :=
  digestDomain
    ++ (framed input.host ++ framed input.ticket)
    ++ input.capability.toList
    ++ Bytes.toBeBytes 2 input.version.major.toNat
    ++ Bytes.toBeBytes 2 input.version.minor.toNat
    ++ Bytes.toBeBytes 2 input.version.patch.toNat
    ++ [if input.sshEnabled then 1 else 0]

end SnapshotInput

structure Publisher where
  account : AccountCredentials
  authorizedConsumer : Option (Vector UInt8 32)
  recordId : RecordId
  lastInputDigest : Option (Vector UInt8 32)
  /-- An `Instant` in nanoseconds. -/
  nextRefreshAt : Option Nat

structure PublishCall where
  hostLabel : String
  endpointTicket : String
  capability : Vector UInt8 32
  accessEnabled : Vector UInt8 32 → Bool
  version : ExecutableVersion
  now : DateTime
  /-- `Instant::now()` at the freshness check -/
  checkedAt : Nat
  /-- `Instant::now()` at the start of the publication -/
  startedAt : Nat
  random : Option (Vector UInt8 24)
  client : Except String Unit
  putRecord : AccountCredentials → RecordId → Envelope → Except String Nat

section

-- SHA-256 of a byte string.
variable (sha256 : List UInt8 → Vector UInt8 32)

def deriveRecordId (accountId : AccountId) (endpointIdentity : Vector UInt8 32) : RecordId where
  bytes := ((sha256 (recordIdDomain ++ accountId.bytes.toList ++ endpointIdentity.toList)).take 16)

def snapshotDigest (input : SnapshotInput) : Vector UInt8 32 :=
  sha256 input.bytes

namespace Publisher

def load (account : AccountCredentials) (authorizedConsumer : Option (Vector UInt8 32))
    (endpointIdentity : Vector UInt8 32) : Publisher where
  account := account
  authorizedConsumer := authorizedConsumer
  recordId := deriveRecordId sha256 account.accountId endpointIdentity
  lastInputDigest := none
  nextRefreshAt := none

def snapshotInput (authorizedConsumer : Option (Vector UInt8 32)) (call : PublishCall)
    : Except Failure SnapshotInput := do
  Except.ensure (validateHostLabel call.hostLabel) (Failure.error "sync host label is invalid")
  let consumer ← Except.okOr authorizedConsumer
    (Failure.error "publish account has no authorized consumer")
  let version ← call.version.toSync
  return {
    host := call.hostLabel
    ticket := call.endpointTicket
    capability := call.capability
    version := version
    sshEnabled := call.accessEnabled consumer
  }

def isFresh (publisher : Publisher) (digest : Vector UInt8 32) (checkedAt : Nat) : Bool :=
  publisher.lastInputDigest == some digest
    && publisher.nextRefreshAt.any fun deadline => checkedAt < deadline

section

variable {Ticket : Type} (iroh : Iroh Ticket) (primitives : SealingPrimitives)

def putSnapshot (account : AccountCredentials) (recordId : RecordId) (call : PublishCall)
    (input : SnapshotInput) : Except Failure Nat := do
  let expiresAt ← Except.okOr (call.now.checkedAddSeconds descriptorLifetime) .panic
  let descriptor ←
    (HostAccessDescriptor.new iroh {
      hostLabel := input.host
      issuedAt := call.now
      expiresAt := expiresAt
      endpointTicket := input.ticket
      attachCapability := input.capability
      attachedVersion := input.version
      sshEnabled := input.sshEnabled
    }).mapError fun _ => .error "could not build host access descriptor"
  let sealed ←
    (sealHostAccessDescriptor primitives descriptor account.accountRootKey account.accountId recordId
      call.random).mapError fun _ => .error "could not encrypt host access descriptor"
  let envelope ←
    (Envelope.new sealed.nonce sealed.ciphertext).mapError fun _ =>
      .error "encrypted host descriptor exceeds record limit"
  call.client.mapError .error
  (call.putRecord account recordId envelope).mapError .error

/--
The renewal is measured from the start of the publication, not from the response of the service.
-/
def publishSnapshot (call : PublishCall) : Effect Publisher Failure PublishOutcome := do
  let publisher ← Effect.get
  let input ← Effect.lift (snapshotInput publisher.authorizedConsumer call)
  let digest := snapshotDigest sha256 input
  if publisher.isFresh digest call.checkedAt then
    return .unchanged
  else
    let nextRefreshAt := call.startedAt + republishInterval
    let revision ←
      Effect.lift (putSnapshot iroh primitives publisher.account publisher.recordId call input)
    Effect.set { publisher with
      lastInputDigest := some digest
      nextRefreshAt := some nextRefreshAt
    }
    return .published revision

/-- The publisher before the given tick of `run_publisher`, if the ticks make these calls. -/
def beforeTick (publisher : Publisher) (calls : Nat → PublishCall) (tick : Nat) : Publisher :=
  match tick with
  | 0 => publisher
  | tick + 1 =>
    ((publishSnapshot sha256 iroh primitives (calls tick)).run
      (beforeTick publisher calls tick)).2

def tickOutcome (publisher : Publisher) (calls : Nat → PublishCall) (tick : Nat)
    : Except Failure PublishOutcome :=
  ((publishSnapshot sha256 iroh primitives (calls tick)).run
    (beforeTick sha256 iroh primitives publisher calls tick)).1

end

end Publisher

/--
A publisher that is loaded and then called any number of times. Each label has a call and its result.
-/
def publisherSystem {Ticket : Type} (iroh : Iroh Ticket) (primitives : SealingPrimitives)
    : System Publisher (PublishCall × Except Failure PublishOutcome) where
  init publisher := ∃ account consumer identity, publisher = .load sha256 account consumer identity
  step publisher label publisher' :=
    (Publisher.publishSnapshot sha256 iroh primitives label.1).run publisher = (label.2, publisher')

end

end Attached
