import Attached.Library.Chunks
import Attached.Update.Basic

/-!
This module contains the frames of the tunnel protocol: the requests and the responses of an update,
and what a TCP forward sends in front of the bytes of the application.
-/

namespace Attached

inductive AttachedUpdateRequest where
  | start
  | confirm (operationId : UpdateOperationId) (observedVersion : ExecutableVersion)
  deriving DecidableEq

inductive TcpForwardStatus where
  | ready
  | connectionFailed
  deriving DecidableEq

/-- A computation that writes bytes. What was written before an error is sent. -/
abbrev FrameWriter := Effect (List UInt8) String

namespace Frames

def updateMagic : List UInt8 := [0x41, 0x54, 0x55, 0x50]
def updateProtocolVersion : UInt8 := 2
def maxUpdateMessageLen : Nat := 512

/-- The error of `read_exact` where a stream ends too early. -/
def earlyEof : String := "early eof"

/-- The error of the integer reads there. -/
def unexpectedEof : String := "unexpected end of file"

def write (bytes : List UInt8) : FrameWriter Unit :=
  Effect.modify fun written => written ++ bytes

def writeUpdateRequestPrefix (operation : UInt8) (secret : Vector UInt8 32) : FrameWriter Unit := do
  write updateMagic
  write [updateProtocolVersion]
  write [operation]
  write secret.toList

def writeVersion (version : ExecutableVersion) : FrameWriter Unit := do
  write (Bytes.toBeBytes 4 version.major.toNat)
  write (Bytes.toBeBytes 4 version.minor.toNat)
  write (Bytes.toBeBytes 4 version.patch.toNat)

def writeUpdateStartRequest (secret : Vector UInt8 32) : FrameWriter Unit :=
  writeUpdateRequestPrefix 0 secret

def writeUpdateConfirmRequest (secret : Vector UInt8 32) (operationId : UpdateOperationId)
    (observedVersion : ExecutableVersion) : FrameWriter Unit := do
  writeUpdateRequestPrefix 1 secret
  write operationId.bytes.toList
  writeVersion observedVersion

def writeUpdateRequest (secret : Vector UInt8 32) (request : AttachedUpdateRequest)
    : FrameWriter Unit :=
  match request with
  | .start => writeUpdateStartRequest secret
  | .confirm operationId observedVersion =>
    writeUpdateConfirmRequest secret operationId observedVersion

def writeUpdateResponse (response : AttachedUpdateResponse) : FrameWriter Unit := do
  write updateMagic
  write [updateProtocolVersion]
  match response with
  | .restarting operationId version reconnectTimeoutSecs =>
    write [0]
    write operationId.bytes.toList
    writeVersion version
    write (Bytes.toBeBytes 2 reconnectTimeoutSecs.toNat)
  | .committed version =>
    write [1]
    writeVersion version
  | .current version =>
    write [2]
    writeVersion version
  | .failed message =>
    let bytes := Bytes.ofString message
    Effect.lift (Except.ensure (bytes.length ≤ maxUpdateMessageLen) "Attached update response is too long")
    write [3]
    write (Bytes.toBeBytes 2 bytes.length)
    write bytes
  | .busy => write [4]
  | .waiting => write [5]

def writeTcpForwardRequest (capability : Vector UInt8 32) (remotePort : UInt16) : FrameWriter Unit := do
  Effect.lift (Except.ensure (remotePort != 0) "remote TCP port must be nonzero")
  write capability.toList
  write (Bytes.toBeBytes 2 remotePort.toNat)

def statusByte (status : TcpForwardStatus) : UInt8 :=
  match status with
  | .ready => 0
  | .connectionFailed => 1

def writeTcpForwardStatus (status : TcpForwardStatus) : FrameWriter Unit :=
  write [statusByte status]

def writeTcpForwardOpen : FrameWriter Unit :=
  write [0]

section

open AsyncRead

variable {m : Type → Type} [Monad m] [AsyncRead m String]

def readU8 : m UInt8 := do
  let number ← readBe 1 unexpectedEof
  return UInt8.ofNat number

def readU16 : m UInt16 := do
  let number ← readBe 2 unexpectedEof
  return UInt16.ofNat number

def readU32 : m UInt32 := do
  let number ← readBe 4 unexpectedEof
  return UInt32.ofNat number

def readArray (n : Nat) : m (Vector UInt8 n) := do
  let bytes ← readExact n earlyEof
  if h : bytes.length = n then
    return ⟨bytes.toArray, Bytes.size_toArray h⟩
  else
    fail earlyEof

def readVersion : m ExecutableVersion := do
  let major ← readU32
  let minor ← readU32
  let patch ← readU32
  return { major, minor, patch }

def ensureFrameEnd (frame : String) : m Unit := do
  let trailing ← read 1
  ensure trailing.isEmpty ("trailing bytes after " ++ frame)

def readUpdatePrefix (frame : String) : m Unit := do
  let magic ← readExact 4 earlyEof
  ensure (magic == updateMagic) ("invalid " ++ frame ++ " magic")
  let version ← readU8
  ensure (version == updateProtocolVersion) "unsupported Attached update protocol version"

def readUpdateRequest (expectedSecret : Vector UInt8 32) : m AttachedUpdateRequest := do
  readUpdatePrefix "Attached update request"
  let operation ← readU8
  let supplied ← readArray 32
  ensure (expectedSecret == supplied) "Attached update authentication denied"
  let request ← show m AttachedUpdateRequest from
    if operation = 0 then
      return .start
    else if operation = 1 then do
      let operationId ← readArray 16
      let observedVersion ← readVersion
      return .confirm ⟨operationId⟩ observedVersion
    else
      fail s!"unknown Attached update operation {operation}"
  ensureFrameEnd "Attached update request"
  return request

def readUpdateStatus (status : UInt8) : m AttachedUpdateResponse :=
  if status = 0 then do
    let operationId ← readArray 16
    let version ← readVersion
    let reconnectTimeoutSecs ← readU16
    return .restarting ⟨operationId⟩ version reconnectTimeoutSecs
  else if status = 1 then do
    let version ← readVersion
    return .committed version
  else if status = 2 then do
    let version ← readVersion
    return .current version
  else if status = 3 then do
    let length ← readU16
    ensure (length.toNat ≤ maxUpdateMessageLen) "Attached update response is too long"
    let message ← readExact length.toNat earlyEof
    match Bytes.toString? message with
    | some message => return .failed message
    | none => fail "Attached update response is not UTF-8"
  else if status = 4 then
    return .busy
  else if status = 5 then
    return .waiting
  else
    fail s!"unknown Attached update response status {status}"

def readUpdateResponse : m AttachedUpdateResponse := do
  readUpdatePrefix "Attached update response"
  let status ← readU8
  let response ← readUpdateStatus status
  ensureFrameEnd "Attached update response"
  return response

def readTcpForwardRequest (expected : Vector UInt8 32) : m UInt16 := do
  let supplied ← readArray 32
  ensure (expected == supplied) "TCP forwarding authentication denied"
  let port ← readU16
  ensure (port != 0) "remote TCP port must be nonzero"
  ensureFrameEnd "TCP forwarding request"
  return port

def readTcpForwardStatus : m TcpForwardStatus := do
  let status ← readU8
  if status = 0 then
    return .ready
  else if status = 1 then
    return .connectionFailed
  else
    fail s!"unknown TCP forwarding status {status}"

def readTcpForwardOpen : m Unit := do
  let marker ← readU8
  ensure (marker == 0) "invalid TCP stream open marker"

end

end Frames

end Attached
