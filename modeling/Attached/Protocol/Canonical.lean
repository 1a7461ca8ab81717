import Attached.Library.Reader
import Attached.Protocol.Basic

/-!
This module contains host access descriptors and their canonical encoding, a fixed CBOR map in which
every integer and every length uses its shortest head.
-/

namespace Attached

inductive HostAccessError where
  | malformed
  | nonCanonical
  | limit
  | invalidField
  | endpoint
  | expired
  | decryption
  | nonceReuse
  deriving DecidableEq

structure DescriptorFields where
  hostLabel : String
  issuedAt : DateTime
  expiresAt : DateTime
  endpointTicket : String
  attachCapability : Vector UInt8 32
  attachedVersion : AttachedVersion
  sshEnabled : Bool
  deriving DecidableEq

def minDescriptorLifetime : Int := 60

def maxDescriptorLifetime : Int := 900

section

variable {Ticket : Type} (iroh : Iroh Ticket)

def DescriptorFields.validate (fields : DescriptorFields) : Except HostAccessError Unit := do
  Except.ensure
    (validateHostLabel fields.hostLabel
      && !(fields.issuedAt.timestamp < 0)
      && !(fields.expiresAt.timestamp < 0)
      && fields.issuedAt.timestampSubsecNanos == 0
      && fields.expiresAt.timestampSubsecNanos == 0
      && !(fields.expiresAt ≤ fields.issuedAt))
    .invalidField
  let lifetime := fields.expiresAt.nanos - fields.issuedAt.nanos
  Except.ensure
    (minDescriptorLifetime * DateTime.nanosPerSecond ≤ lifetime
      && lifetime ≤ maxDescriptorLifetime * DateTime.nanosPerSecond)
    .invalidField
  Except.ensure
    (!(Bytes.ofString fields.endpointTicket).isEmpty
      && (Bytes.ofString fields.endpointTicket).length ≤ maxEndpointTicketBytes
      && Bytes.isAscii (Bytes.ofString fields.endpointTicket))
    .limit
  let ticket ← Except.okOr (iroh.ticketFromStr fields.endpointTicket) .endpoint
  Except.ensure (iroh.ticketToString ticket == fields.endpointTicket) .endpoint

/--
A `HostAccessDescriptor`. The source keeps the fields private, so they always passed `validate`.
-/
structure HostAccessDescriptor extends DescriptorFields where
  valid : toDescriptorFields.validate iroh = .ok ()
  deriving DecidableEq

def HostAccessDescriptor.new (fields : DescriptorFields)
    : Except HostAccessError (HostAccessDescriptor iroh) :=
  match h : fields.validate iroh with
  | .ok () => .ok ⟨fields, h⟩
  | .error e => .error e

variable {iroh}

theorem HostAccessDescriptor.isSome_ticketFromStr (d : HostAccessDescriptor iroh)
    : (iroh.ticketFromStr d.endpointTicket).isSome := by
  have hvalid := d.valid
  simp only [DescriptorFields.validate, Except.bind_eq_ok_iff, Except.okOr_eq_ok_iff] at hvalid
  rcases hvalid with ⟨_, _, _, _, _, _, ticket, hticket, _⟩
  simp [hticket]

/--
A validated descriptor retains a canonical endpoint ticket, so the `expect` of the source holds.
-/
def HostAccessDescriptor.endpointIdentity (d : HostAccessDescriptor iroh) : Vector UInt8 32 :=
  iroh.ticketIdentity ((iroh.ticketFromStr d.endpointTicket).get d.isSome_ticketFromStr)

end

def putHead (major : UInt8) (value : Nat) : List UInt8 :=
  if value ≤ 23 then
    [major <<< 5 ||| UInt8.ofNat value]
  else if value ≤ 0xff then
    [major <<< 5 ||| 24, UInt8.ofNat value]
  else if value ≤ 0xffff then
    (major <<< 5 ||| 25) :: Bytes.toBeBytes 2 value
  else if value ≤ 0xffffffff then
    (major <<< 5 ||| 26) :: Bytes.toBeBytes 4 value
  else
    (major <<< 5 ||| 27) :: Bytes.toBeBytes 8 value

def putUint (value : Nat) : List UInt8 :=
  putHead 0 value

def putBytes (value : List UInt8) : List UInt8 :=
  putHead 2 value.length ++ value

def putText (value : String) : List UInt8 :=
  putHead 3 (Bytes.ofString value).length ++ Bytes.ofString value

def unixSeconds (timestamp : DateTime) : Except HostAccessError Nat :=
  if 0 ≤ timestamp.timestamp then .ok timestamp.timestamp.toNat else .error .invalidField

def datetimeFromUnixSeconds (seconds : Nat) : Except HostAccessError DateTime := do
  Except.ensure (seconds ≤ i64Max) .invalidField
  Except.okOr (DateTime.fromTimestamp seconds) .invalidField

namespace Decoder

def byte : Reader HostAccessError UInt8 :=
  Reader.byte .malformed

def take (length : Nat) : Reader HostAccessError (List UInt8) :=
  Reader.take length .malformed

def argument (additional : UInt8) : Reader HostAccessError Nat :=
  if additional ≤ 23 then
    pure additional.toNat
  else if additional = 24 then
    UInt8.toNat <$> byte
  else if additional = 25 then
    Bytes.ofBeBytes <$> take 2
  else if additional = 26 then
    Bytes.ofBeBytes <$> take 4
  else if additional = 27 then
    Bytes.ofBeBytes <$> take 8
  else
    Reader.fail .malformed

/--
Only the shortest of the argument widths that can hold the value is canonical.
-/
def isShortest (additional : UInt8) (value : Nat) : Bool :=
  !(additional == 24 && value < 24
    || additional == 25 && value ≤ 255
    || additional == 26 && value ≤ 65535
    || additional == 27 && value ≤ 0xffffffff)

def head (expectedMajor : UInt8) : Reader HostAccessError Nat := do
  let first ← byte
  Reader.ensure (first >>> 5 == expectedMajor) .malformed
  let additional := first &&& 31
  let value ← argument additional
  Reader.ensure (isShortest additional value) .nonCanonical
  return value

def uint : Reader HostAccessError Nat :=
  head 0

def key (expected : Nat) : Reader HostAccessError Unit := do
  let value ← uint
  Reader.ensure (value == expected) .nonCanonical

def fixedBytes (n : Nat) : Reader HostAccessError (Vector UInt8 n) := do
  let length ← head 2
  Reader.ensure (length == n) .malformed
  let bytes ← take n
  if h : bytes.length = n then
    return ⟨bytes.toArray, Bytes.size_toArray h⟩
  else
    Reader.fail .malformed

def text (minimum maximum : Nat) : Reader HostAccessError String := do
  let length ← head 3
  Reader.ensure (minimum ≤ length && length ≤ maximum) .limit
  let bytes ← take length
  Reader.lift (Except.okOr (Bytes.toString? bytes) .malformed)

def uint16 : Reader HostAccessError UInt16 := do
  let value ← uint
  Reader.ensure (value < 2 ^ 16) .invalidField
  return UInt16.ofNat value

def bool : Reader HostAccessError Bool := do
  let value ← byte
  if value = 0xf4 then
    return false
  else if value = 0xf5 then
    return true
  else
    Reader.fail .invalidField

def fields : Reader HostAccessError DescriptorFields := do
  let fieldCount ← head 5
  Reader.ensure (fieldCount == 7) .malformed
  key 1
  let hostLabel ← text 1 maxHostLabelBytes
  key 2
  let issued ← uint
  let issuedAt ← Reader.lift (datetimeFromUnixSeconds issued)
  key 3
  let expires ← uint
  let expiresAt ← Reader.lift (datetimeFromUnixSeconds expires)
  key 4
  let endpointTicket ← text 1 maxEndpointTicketBytes
  key 5
  let attachCapability ← fixedBytes 32
  key 6
  let length ← head 4
  Reader.ensure (length == 3) .malformed
  let major ← uint16
  let minor ← uint16
  let patch ← uint16
  key 7
  let sshEnabled ← bool
  return {
    hostLabel
    issuedAt
    expiresAt
    endpointTicket
    attachCapability
    attachedVersion := ⟨major, minor, patch⟩
    sshEnabled
  }

end Decoder

section

variable {Ticket : Type} {iroh : Iroh Ticket}

def encodeHostAccessDescriptor (descriptor : HostAccessDescriptor iroh)
    : Except HostAccessError (List UInt8) := do
  descriptor.validate iroh
  let issued ← unixSeconds descriptor.issuedAt
  let expires ← unixSeconds descriptor.expiresAt
  let out :=
    putHead 5 7
      ++ (putUint 1 ++ putText descriptor.hostLabel)
      ++ (putUint 2 ++ putUint issued)
      ++ (putUint 3 ++ putUint expires)
      ++ (putUint 4 ++ putText descriptor.endpointTicket)
      ++ (putUint 5 ++ putBytes descriptor.attachCapability.toList)
      ++ (putUint 6
        ++ putHead 4 3
        ++ putUint descriptor.attachedVersion.major.toNat
        ++ putUint descriptor.attachedVersion.minor.toNat
        ++ putUint descriptor.attachedVersion.patch.toNat)
      ++ (putUint 7 ++ [if descriptor.sshEnabled then 0xf5 else 0xf4])
  Except.ensure (out.length ≤ maxHostAccessDescriptorBytes) .limit
  return out

variable (iroh)

/--
`decode_host_access_descriptor` up to the comparison with the canonical encoding: the field reads,
the check for trailing bytes and the validation.
-/
def decodeFieldByField (input : List UInt8)
    : Except HostAccessError (HostAccessDescriptor iroh) := do
  let (fields, rest) ← Decoder.fields.run input
  Except.ensure rest.isEmpty .malformed
  HostAccessDescriptor.new iroh fields

def decodeHostAccessDescriptor (input : List UInt8)
    : Except HostAccessError (HostAccessDescriptor iroh) := do
  Except.ensure (input.length ≤ maxHostAccessDescriptorBytes) .limit
  let descriptor ← decodeFieldByField iroh input
  let canonical ← encodeHostAccessDescriptor descriptor
  Except.ensure (canonical == input) .nonCanonical
  return descriptor

end

end Attached
