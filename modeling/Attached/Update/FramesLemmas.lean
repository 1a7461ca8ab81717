import Attached.Update.Frames

/-!
This module contains that the frames of the tunnel protocol are read exactly as they are written, from
a stream that is split in any way.
-/

namespace Attached

namespace Frames

open ChunkReader (Reads Rejects)

section

variable {input rest : List UInt8}

@[simp]
theorem run_ensure {condition : Bool} {error : String} {u : Unit}
    : (AsyncRead.ensure condition error : Reader String Unit).run input = .ok (u, rest)
        ↔
      condition = true ∧ input = rest := by
  unfold AsyncRead.ensure
  split
  . next h => simp [h]
  . next h =>
    simp only [h, Bool.false_eq_true, false_and, iff_false]
    exact fun h => nomatch h

@[simp]
theorem run_fail {α : Type} {error : String} {a : α}
    : (AsyncRead.fail error : Reader String α).run input = .ok (a, rest) ↔ False :=
  Reader.run_fail_eq_ok_iff

@[simp]
theorem run_readExact {length : Nat} {error : String} {bs : List UInt8}
    : (AsyncRead.readExact length error : Reader String _).run input = .ok (bs, rest)
        ↔
      bs.length = length ∧ input = bs ++ rest :=
  Reader.run_take_eq_ok_iff

theorem run_readBe {width number : Nat} {error : String}
    : (AsyncRead.readBe width error : Reader String _).run input = .ok (number, rest)
        ↔
      number < 256 ^ width ∧ input = Bytes.toBeBytes width number ++ rest := by
  unfold AsyncRead.readBe
  simp only [Reader.run_bind_eq_ok_iff, run_readExact, Reader.run_pure_eq_ok_iff]
  constructor
  . rintro ⟨bs, _, ⟨rfl, rfl⟩, rfl, rfl⟩
    exact ⟨Bytes.ofBeBytes_lt bs, by rw [Bytes.toBeBytes_ofBeBytes]⟩
  . rintro ⟨hlt, rfl⟩
    refine ⟨_, _, ⟨Bytes.length_toBeBytes width number, rfl⟩, ?_, rfl⟩
    rw [Bytes.ofBeBytes_toBeBytes, Nat.mod_eq_of_lt hlt]

@[simp]
theorem run_readU8 {b : UInt8}
    : (readU8 : Reader String _).run input = .ok (b, rest) ↔ input = b :: rest := by
  unfold readU8
  simp only [Reader.run_bind_eq_ok_iff, run_readBe, Reader.run_pure_eq_ok_iff]
  constructor
  . rintro ⟨number, _, ⟨hlt, rfl⟩, rfl, rfl⟩
    simp [Bytes.toBeBytes]
  . rintro rfl
    refine ⟨b.toNat, rest, ⟨b.toNat_lt, ?_⟩, UInt8.ofNat_toNat, rfl⟩
    simp [Bytes.toBeBytes]

@[simp]
theorem run_readU16 {number : UInt16}
    : (readU16 : Reader String _).run input = .ok (number, rest)
        ↔
      input = Bytes.toBeBytes 2 number.toNat ++ rest := by
  unfold readU16
  simp only [Reader.run_bind_eq_ok_iff, run_readBe, Reader.run_pure_eq_ok_iff]
  constructor
  . rintro ⟨number, _, ⟨hlt, rfl⟩, rfl, rfl⟩
    rw [UInt16.toNat_ofNat_of_lt' hlt]
  . rintro rfl
    exact ⟨number.toNat, rest, ⟨number.toNat_lt, rfl⟩, UInt16.ofNat_toNat, rfl⟩

@[simp]
theorem run_readU32 {number : UInt32}
    : (readU32 : Reader String _).run input = .ok (number, rest)
        ↔
      input = Bytes.toBeBytes 4 number.toNat ++ rest := by
  unfold readU32
  simp only [Reader.run_bind_eq_ok_iff, run_readBe, Reader.run_pure_eq_ok_iff]
  constructor
  . rintro ⟨number, _, ⟨hlt, rfl⟩, rfl, rfl⟩
    rw [UInt32.toNat_ofNat_of_lt' hlt]
  . rintro rfl
    exact ⟨number.toNat, rest, ⟨number.toNat_lt, rfl⟩, UInt32.ofNat_toNat, rfl⟩

@[simp]
theorem run_readArray {n : Nat} {array : Vector UInt8 n}
    : (readArray n : Reader String _).run input = .ok (array, rest)
        ↔
      input = array.toList ++ rest := by
  unfold readArray
  simp only [Reader.run_bind_eq_ok_iff, run_readExact]
  constructor
  . rintro ⟨bs, middle, ⟨hlength, rfl⟩, h⟩
    rw [dif_pos hlength, Reader.run_pure_eq_ok_iff] at h
    rcases h with ⟨rfl, rfl⟩
    simp [Vector.toList]
  . rintro rfl
    refine ⟨array.toList, rest, ⟨array.length_toList, rfl⟩, ?_⟩
    rw [dif_pos array.length_toList, Reader.run_pure_eq_ok_iff]
    refine ⟨?_, rfl⟩
    apply Vector.toList_inj.mp
    simp [Vector.toList]

def versionBytes (version : ExecutableVersion) : List UInt8 :=
  Bytes.toBeBytes 4 version.major.toNat ++ Bytes.toBeBytes 4 version.minor.toNat
    ++ Bytes.toBeBytes 4 version.patch.toNat

@[simp]
theorem run_readVersion {version : ExecutableVersion}
    : (readVersion : Reader String _).run input = .ok (version, rest)
        ↔
      input = versionBytes version ++ rest := by
  unfold readVersion versionBytes
  simp only [Reader.run_bind_eq_ok_iff, run_readU32, Reader.run_pure_eq_ok_iff, List.append_assoc]
  constructor
  . rintro ⟨major, _, rfl, minor, _, rfl, patch, _, rfl, rfl, rfl⟩
    rfl
  . rintro rfl
    exact ⟨version.major, _, rfl, version.minor, _, rfl, version.patch, _, rfl, rfl, rfl⟩

@[simp]
theorem run_ensureFrameEnd {frame : String} {u : Unit}
    : (ensureFrameEnd frame : Reader String _).run input = .ok (u, rest) ↔ input = [] ∧ rest = [] := by
  unfold ensureFrameEnd
  simp only [Reader.run_bind_eq_ok_iff, run_ensure]
  constructor
  . rintro ⟨trailing, middle, hread, hempty, rfl⟩
    cases hread
    rw [List.isEmpty_iff, List.take_eq_nil_iff] at hempty
    rcases hempty with h | rfl
    . cases h
    . exact ⟨rfl, rfl⟩
  . rintro ⟨rfl, rfl⟩
    exact ⟨[], [], rfl, rfl, rfl⟩

def updatePrefixBytes : List UInt8 :=
  updateMagic ++ [updateProtocolVersion]

@[simp]
theorem run_readUpdatePrefix {frame : String} {u : Unit}
    : (readUpdatePrefix frame : Reader String _).run input = .ok (u, rest)
        ↔
      input = updatePrefixBytes ++ rest := by
  unfold readUpdatePrefix
  simp only [Reader.run_bind_eq_ok_iff, run_readExact, run_ensure, run_readU8, beq_iff_eq]
  constructor
  . rintro ⟨magic, _, ⟨_, rfl⟩, _, _, ⟨rfl, rfl⟩, version, _, rfl, rfl, rfl⟩
    rfl
  . rintro rfl
    exact ⟨updateMagic, _, ⟨rfl, rfl⟩, (), _, ⟨rfl, rfl⟩, _, _, rfl, rfl, rfl⟩

def updateRequestBytes (secret : Vector UInt8 32) (request : AttachedUpdateRequest) : List UInt8 :=
  match request with
  | .start => updatePrefixBytes ++ 0 :: secret.toList
  | .confirm operationId observedVersion =>
    updatePrefixBytes ++ 1 :: (secret.toList ++ (operationId.bytes.toList ++ versionBytes observedVersion))

theorem run_readUpdateRequest {secret : Vector UInt8 32} {request : AttachedUpdateRequest}
    : (readUpdateRequest secret : Reader String _).run input = .ok (request, rest)
        ↔
      input = updateRequestBytes secret request ∧ rest = [] := by
  unfold readUpdateRequest
  simp only [Reader.run_bind_eq_ok_iff, run_readUpdatePrefix, run_readU8, run_readArray, run_ensure,
    beq_iff_eq, run_ensureFrameEnd, Reader.run_pure_eq_ok_iff]
  constructor
  . rintro ⟨_, _, rfl, operation, _, rfl, _, _, rfl, _, body, ⟨rfl, rfl⟩, request, _, hbody, _, _,
      ⟨rfl, rfl⟩, rfl, rfl⟩
    refine ⟨?_, rfl⟩
    split at hbody
    . next h =>
      simp only [Reader.run_pure_eq_ok_iff] at hbody
      rcases hbody with ⟨rfl, rfl⟩
      simp [updateRequestBytes, h]
    . split at hbody
      . next h =>
        simp only [Reader.run_bind_eq_ok_iff, run_readArray, run_readVersion,
          Reader.run_pure_eq_ok_iff] at hbody
        rcases hbody with ⟨operationId, _, rfl, version, _, rfl, rfl, rfl⟩
        simp [updateRequestBytes, h]
      . exact absurd hbody (by simp)
  . rintro ⟨rfl, rfl⟩
    cases request with
    | start =>
      exact ⟨(), _, rfl, 0, _, rfl, secret, [], by simp, (), [], ⟨rfl, rfl⟩, .start, [], by simp, (), [],
        ⟨rfl, rfl⟩, rfl, rfl⟩
    | confirm operationId version =>
      refine ⟨(), _, rfl, 1, _, rfl, secret, _, rfl, (), _, ⟨rfl, rfl⟩, .confirm operationId version, [],
        ?_, (), [], ⟨rfl, rfl⟩, rfl, rfl⟩
      rw [if_neg (by decide), if_pos rfl]
      simp only [Reader.run_bind_eq_ok_iff, run_readArray, run_readVersion, Reader.run_pure_eq_ok_iff]
      exact ⟨operationId.bytes, _, rfl, version, [], by simp, rfl, rfl⟩

def updateStatusBytes (response : AttachedUpdateResponse) : List UInt8 :=
  match response with
  | .restarting operationId version reconnectTimeoutSecs =>
    0 :: (operationId.bytes.toList ++ (versionBytes version
      ++ Bytes.toBeBytes 2 reconnectTimeoutSecs.toNat))
  | .committed version => 1 :: versionBytes version
  | .current version => 2 :: versionBytes version
  | .failed message =>
    3 :: (Bytes.toBeBytes 2 (Bytes.ofString message).length ++ Bytes.ofString message)
  | .busy => [4]
  | .waiting => [5]

def Sendable (response : AttachedUpdateResponse) : Prop :=
  match response with
  | .failed message => (Bytes.ofString message).length ≤ maxUpdateMessageLen
  | _ => True

theorem run_readFailed {response : AttachedUpdateResponse}
    : (readUpdateStatus 3 : Reader String _).run input = .ok (response, rest)
        ↔
      ∃ message, response = .failed message ∧ (Bytes.ofString message).length ≤ maxUpdateMessageLen
        ∧ input = Bytes.toBeBytes 2 (Bytes.ofString message).length ++ (Bytes.ofString message ++ rest) := by
  unfold readUpdateStatus
  rw [if_neg (by decide), if_neg (by decide), if_neg (by decide), if_pos rfl]
  simp only [Reader.run_bind_eq_ok_iff, run_readU16, run_ensure, decide_eq_true_eq, run_readExact]
  constructor
  . rintro ⟨length, _, rfl, _, _, ⟨hlength, rfl⟩, bytes, _, ⟨hbytes, rfl⟩, h⟩
    cases hmessage : Bytes.toString? bytes with
    | none =>
      rw [hmessage] at h
      exact absurd h (by simp)
    | some message =>
      rw [hmessage] at h
      simp only [Reader.run_pure_eq_ok_iff] at h
      rcases h with ⟨rfl, rfl⟩
      rw [Bytes.toString?_eq_some_iff] at hmessage
      rw [← hmessage] at hbytes ⊢
      exact ⟨message, rfl, by omega, by rw [hbytes]⟩
  . rintro ⟨message, rfl, hlength, rfl⟩
    have hsmall : (Bytes.ofString message).length < 2 ^ 16 :=
      Nat.lt_of_le_of_lt hlength (by decide)
    refine ⟨UInt16.ofNat (Bytes.ofString message).length, _, ?_, (), _, ⟨?_, rfl⟩, Bytes.ofString message,
      rest, ⟨?_, rfl⟩, ?_⟩
    . rw [UInt16.toNat_ofNat_of_lt' hsmall]
    . rw [UInt16.toNat_ofNat_of_lt' hsmall]
      exact hlength
    . rw [UInt16.toNat_ofNat_of_lt' hsmall]
    . rw [Bytes.toString?_ofString]
      exact Reader.run_pure_eq_ok_iff.mpr ⟨rfl, rfl⟩

theorem run_readUpdateStatus {status : UInt8} {response : AttachedUpdateResponse}
    : (readUpdateStatus status : Reader String _).run input = .ok (response, rest)
        ↔
      status :: input = updateStatusBytes response ++ rest ∧ Sendable response := by
  by_cases hfailed : status = 3
  . cases hfailed
    rw [run_readFailed]
    constructor
    . rintro ⟨message, rfl, hlength, rfl⟩
      refine ⟨?_, hlength⟩
      unfold updateStatusBytes
      rw [List.cons_append, List.append_assoc]
    . rintro ⟨hbytes, hsendable⟩
      cases response with
      | failed message =>
        unfold updateStatusBytes at hbytes
        rw [List.cons_append, List.append_assoc] at hbytes
        exact ⟨message, rfl, hsendable, (List.cons.inj hbytes).right⟩
      | _ => exact absurd (List.cons.inj hbytes).left (by decide)
  . constructor
    . intro h
      unfold readUpdateStatus at h
      split at h
      . next hstatus =>
        simp only [Reader.run_bind_eq_ok_iff, run_readArray, run_readVersion, run_readU16,
          Reader.run_pure_eq_ok_iff] at h
        rcases h with ⟨operationId, _, rfl, version, _, rfl, timeout, _, rfl, rfl, rfl⟩
        cases hstatus
        exact ⟨by simp [updateStatusBytes], trivial⟩
      split at h
      . next hstatus =>
        simp only [Reader.run_bind_eq_ok_iff, run_readVersion, Reader.run_pure_eq_ok_iff] at h
        rcases h with ⟨version, _, rfl, rfl, rfl⟩
        cases hstatus
        exact ⟨rfl, trivial⟩
      split at h
      . next hstatus =>
        simp only [Reader.run_bind_eq_ok_iff, run_readVersion, Reader.run_pure_eq_ok_iff] at h
        rcases h with ⟨version, _, rfl, rfl, rfl⟩
        cases hstatus
        exact ⟨rfl, trivial⟩
      split at h
      . next hstatus =>
        rw [Reader.run_pure_eq_ok_iff] at h
        rcases h with ⟨rfl, rfl⟩
        cases hstatus
        exact ⟨rfl, trivial⟩
      split at h
      . next hstatus =>
        rw [Reader.run_pure_eq_ok_iff] at h
        rcases h with ⟨rfl, rfl⟩
        cases hstatus
        exact ⟨rfl, trivial⟩
      . rw [run_fail] at h
        cases h
    . rintro ⟨hbytes, hsendable⟩
      unfold readUpdateStatus
      cases response with
      | restarting operationId version timeout =>
        simp only [updateStatusBytes, List.cons_append, List.append_assoc, List.cons.injEq] at hbytes
        rcases hbytes with ⟨rfl, rfl⟩
        rw [if_pos rfl]
        simp only [Reader.run_bind_eq_ok_iff, run_readArray, run_readVersion, run_readU16,
          Reader.run_pure_eq_ok_iff]
        exact ⟨operationId.bytes, _, rfl, version, _, rfl, timeout, rest, rfl, rfl, rfl⟩
      | committed version =>
        rcases List.cons.inj hbytes with ⟨rfl, rfl⟩
        rw [if_neg (by decide), if_pos rfl]
        simp only [Reader.run_bind_eq_ok_iff, run_readVersion, Reader.run_pure_eq_ok_iff]
        exact ⟨version, rest, rfl, rfl, rfl⟩
      | current version =>
        rcases List.cons.inj hbytes with ⟨rfl, rfl⟩
        rw [if_neg (by decide), if_neg (by decide), if_pos rfl]
        simp only [Reader.run_bind_eq_ok_iff, run_readVersion, Reader.run_pure_eq_ok_iff]
        exact ⟨version, rest, rfl, rfl, rfl⟩
      | failed message =>
        exact absurd (List.cons.inj hbytes).left hfailed
      | busy =>
        rcases List.cons.inj hbytes with ⟨rfl, rfl⟩
        exact Reader.run_pure_eq_ok_iff.mpr ⟨rfl, rfl⟩
      | waiting =>
        rcases List.cons.inj hbytes with ⟨rfl, rfl⟩
        exact Reader.run_pure_eq_ok_iff.mpr ⟨rfl, rfl⟩

theorem run_readUpdateResponse {response : AttachedUpdateResponse}
    : (readUpdateResponse : Reader String _).run input = .ok (response, rest)
        ↔
      input = updatePrefixBytes ++ updateStatusBytes response ∧ Sendable response ∧ rest = [] := by
  unfold readUpdateResponse
  simp only [Reader.run_bind_eq_ok_iff, run_readUpdatePrefix, run_readU8, run_readUpdateStatus,
    run_ensureFrameEnd, Reader.run_pure_eq_ok_iff]
  constructor
  . rintro ⟨_, _, rfl, status, _, rfl, response, _, ⟨hbytes, hsendable⟩, _, _, ⟨rfl, rfl⟩, rfl, rfl⟩
    rw [hbytes, List.append_nil]
    exact ⟨rfl, hsendable, rfl⟩
  . rintro ⟨rfl, hsendable, rfl⟩
    rcases hbytes : updateStatusBytes response with _ | ⟨status, bytes⟩
    . cases response <;> cases hbytes
    . exact ⟨(), _, rfl, status, bytes, rfl, response, [], ⟨by rw [hbytes, List.append_nil], hsendable⟩,
        (), [], ⟨rfl, rfl⟩, rfl, rfl⟩

theorem run_readTcpForwardRequest {secret : Vector UInt8 32} {port : UInt16}
    : (readTcpForwardRequest secret : Reader String _).run input = .ok (port, rest)
        ↔
      port ≠ 0 ∧ input = secret.toList ++ Bytes.toBeBytes 2 port.toNat ∧ rest = [] := by
  unfold readTcpForwardRequest
  simp only [Reader.run_bind_eq_ok_iff, run_readArray, run_ensure, beq_iff_eq, run_readU16,
    bne_iff_ne, run_ensureFrameEnd, Reader.run_pure_eq_ok_iff]
  constructor
  . rintro ⟨_, _, rfl, _, _, ⟨rfl, rfl⟩, port, _, rfl, _, _, ⟨hport, rfl⟩, _, _, ⟨rfl, rfl⟩, rfl, rfl⟩
    exact ⟨hport, by rw [List.append_nil], rfl⟩
  . rintro ⟨hport, rfl, rfl⟩
    exact ⟨secret, _, rfl, (), _, ⟨rfl, rfl⟩, port, [], by rw [List.append_nil], (), [], ⟨hport, rfl⟩,
      (), [], ⟨rfl, rfl⟩, rfl, rfl⟩

theorem run_readTcpForwardStatus {status : TcpForwardStatus}
    : (readTcpForwardStatus : Reader String _).run input = .ok (status, rest)
        ↔
      input = statusByte status :: rest := by
  unfold readTcpForwardStatus
  simp only [Reader.run_bind_eq_ok_iff, run_readU8]
  constructor
  . rintro ⟨b, _, rfl, h⟩
    split at h
    . next hb =>
      rw [Reader.run_pure_eq_ok_iff] at h
      rcases h with ⟨rfl, rfl⟩
      rw [hb]
      rfl
    split at h
    . next hb =>
      rw [Reader.run_pure_eq_ok_iff] at h
      rcases h with ⟨rfl, rfl⟩
      rw [hb]
      rfl
    . rw [run_fail] at h
      cases h
  . rintro rfl
    refine ⟨statusByte status, rest, rfl, ?_⟩
    cases status <;> exact Reader.run_pure_eq_ok_iff.mpr ⟨rfl, rfl⟩

theorem run_readTcpForwardOpen {u : Unit}
    : (readTcpForwardOpen : Reader String _).run input = .ok (u, rest) ↔ input = 0 :: rest := by
  unfold readTcpForwardOpen
  simp only [Reader.run_bind_eq_ok_iff, run_readU8, run_ensure, beq_iff_eq]
  constructor
  . rintro ⟨_, _, rfl, rfl, rfl⟩
    rfl
  . rintro rfl
    exact ⟨0, rest, rfl, rfl, rfl⟩

end

/-! Streams in pieces -/

theorem reads_readU8 : Reads readU8 readU8 :=
  .bind (.readBe 1 unexpectedEof) fun _ => .pure _

theorem reads_readU16 : Reads readU16 readU16 :=
  .bind (.readBe 2 unexpectedEof) fun _ => .pure _

theorem reads_readU32 : Reads readU32 readU32 :=
  .bind (.readBe 4 unexpectedEof) fun _ => .pure _

theorem reads_readArray (n : Nat) : Reads (readArray n) (readArray n) := by
  refine .bind (.readExact n earlyEof) fun bytes => ?_
  split
  . exact .pure _
  . exact .fail _

theorem reads_readVersion : Reads readVersion readVersion :=
  .bind reads_readU32 fun _ => .bind reads_readU32 fun _ => .bind reads_readU32 fun _ => .pure _

theorem reads_ensureFrameEnd (frame : String) : Reads (ensureFrameEnd frame) (ensureFrameEnd frame) :=
  .bind .read_one fun _ => .ensure _ _

theorem reads_readUpdatePrefix (frame : String)
    : Reads (readUpdatePrefix frame) (readUpdatePrefix frame) :=
  .bind (.readExact 4 earlyEof) fun _ =>
  .bind (.ensure _ _) fun _ =>
  .bind reads_readU8 fun _ =>
  .ensure _ _

theorem reads_readUpdateRequest (secret : Vector UInt8 32)
    : Reads (readUpdateRequest secret) (readUpdateRequest secret) := by
  refine .bind (reads_readUpdatePrefix _) fun _ => .bind reads_readU8 fun operation => ?_
  refine .bind (reads_readArray 32) fun _ => .bind (.ensure _ _) fun _ => ?_
  refine .bind ?body fun _ => .bind (reads_ensureFrameEnd _) fun _ => .pure _
  refine .ite (.pure _) (.ite ?_ (.fail _))
  exact .bind (reads_readArray 16) fun _ => .bind reads_readVersion fun _ => .pure _

theorem reads_readUpdateStatus (status : UInt8)
    : Reads (readUpdateStatus status) (readUpdateStatus status) := by
  refine .ite ?restarting (.ite ?committed (.ite ?current (.ite ?failed
    (.ite (.pure _) (.ite (.pure _) (.fail _))))))
  case restarting =>
    exact .bind (reads_readArray 16) fun _ => .bind reads_readVersion fun _ =>
      .bind reads_readU16 fun _ => .pure _
  case committed | current =>
    exact .bind reads_readVersion fun _ => .pure _
  case failed =>
    refine .bind reads_readU16 fun length => .bind (.ensure _ _) fun _ => ?_
    refine .bind (.readExact _ earlyEof) fun message => ?_
    split
    . exact .pure _
    . exact .fail _

theorem reads_readUpdateResponse : Reads readUpdateResponse readUpdateResponse :=
  .bind (reads_readUpdatePrefix _) fun _ =>
  .bind reads_readU8 fun status =>
  .bind (reads_readUpdateStatus status) fun _ =>
  .bind (reads_ensureFrameEnd _) fun _ =>
  .pure _

theorem reads_readTcpForwardRequest (secret : Vector UInt8 32)
    : Reads (readTcpForwardRequest secret) (readTcpForwardRequest secret) :=
  .bind (reads_readArray 32) fun _ =>
  .bind (.ensure _ _) fun _ =>
  .bind reads_readU16 fun _ =>
  .bind (.ensure _ _) fun _ =>
  .bind (reads_ensureFrameEnd _) fun _ =>
  .pure _

theorem reads_readTcpForwardStatus : Reads readTcpForwardStatus readTcpForwardStatus :=
  .bind reads_readU8 fun _ => .ite (.pure _) (.ite (.pure _) (.fail _))

theorem reads_readTcpForwardOpen : Reads readTcpForwardOpen readTcpForwardOpen :=
  .bind reads_readU8 fun _ => .ensure _ _

/-! Writers -/

@[simp]
theorem run_write (bytes written : List UInt8) : (write bytes).run written = (.ok (), written ++ bytes) :=
  rfl

theorem run_writeVersion (version : ExecutableVersion) (written : List UInt8)
    : (writeVersion version).run written = (.ok (), written ++ versionBytes version) := by
  simp [writeVersion, versionBytes, Effect.bind_def]

theorem run_writeUpdateRequest (secret : Vector UInt8 32) (request : AttachedUpdateRequest)
    : (writeUpdateRequest secret request).run [] = (.ok (), updateRequestBytes secret request) := by
  cases request with
  | start =>
    simp [writeUpdateRequest, writeUpdateStartRequest, writeUpdateRequestPrefix, updateRequestBytes,
      updatePrefixBytes, Effect.bind_def]
  | confirm operationId version =>
    simp [writeUpdateRequest, writeUpdateConfirmRequest, writeUpdateRequestPrefix, updateRequestBytes,
      updatePrefixBytes, run_writeVersion, Effect.bind_def]

theorem run_writeUpdateResponse (response : AttachedUpdateResponse)
    : (writeUpdateResponse response).run []
        =
      match response with
      | .failed message =>
        if (Bytes.ofString message).length ≤ maxUpdateMessageLen then
          (.ok (), updatePrefixBytes ++ updateStatusBytes response)
        else
          (.error "Attached update response is too long", updatePrefixBytes)
      | response => (.ok (), updatePrefixBytes ++ updateStatusBytes response) := by
  unfold writeUpdateResponse
  cases response with
  | failed message =>
    by_cases hlength : (Bytes.ofString message).length ≤ maxUpdateMessageLen
    . simp [Effect.bind_def, Except.ensure, hlength, updatePrefixBytes, updateStatusBytes]
    . simp [Effect.bind_def, Except.ensure, hlength, updatePrefixBytes]
  | _ => simp [Effect.bind_def, run_writeVersion, updatePrefixBytes, updateStatusBytes]

theorem run_writeUpdateResponse_eq_ok_iff {response : AttachedUpdateResponse} {frame : List UInt8}
    : (writeUpdateResponse response).run [] = (.ok (), frame)
        ↔
      Sendable response ∧ frame = updatePrefixBytes ++ updateStatusBytes response := by
  rw [run_writeUpdateResponse]
  cases response with
  | failed message =>
    by_cases hlength : (Bytes.ofString message).length ≤ maxUpdateMessageLen
    . simp [Sendable, hlength, eq_comm]
    . simp [Sendable, hlength]
  | _ => simp [Sendable, eq_comm]

theorem run_writeTcpForwardRequest_eq_ok_iff {secret : Vector UInt8 32} {port : UInt16}
    {frame : List UInt8}
    : (writeTcpForwardRequest secret port).run [] = (.ok (), frame)
        ↔
      port ≠ 0 ∧ frame = secret.toList ++ Bytes.toBeBytes 2 port.toNat := by
  unfold writeTcpForwardRequest
  by_cases hport : port = 0
  . simp [Effect.bind_def, Except.ensure, hport]
  . have hnonzero : (port != 0) = true := bne_iff_ne.mpr hport
    simp only [Effect.bind_def, hnonzero, Except.ensure, if_true, Effect.run_lift, run_write,
      List.nil_append, Prod.mk.injEq, true_and, ne_eq, hport, not_false_eq_true]
    exact eq_comm

/-! No frame goes on after the end of another one -/

theorem length_eq_of_prefix_updateRequest {secret : Vector UInt8 32} {request other : AttachedUpdateRequest}
    (h : updateRequestBytes secret request <+: updateRequestBytes secret other)
    : (updateRequestBytes secret request).length = (updateRequestBytes secret other).length := by
  cases request with
  | start =>
    cases other with
    | start => rfl
    | confirm =>
      rw [updateRequestBytes, updateRequestBytes, List.prefix_append_right_inj, List.cons_prefix_cons] at h
      exact absurd h.left (by decide)
  | confirm =>
    cases other with
    | start =>
      rw [updateRequestBytes, updateRequestBytes, List.prefix_append_right_inj, List.cons_prefix_cons] at h
      exact absurd h.left (by decide)
    | confirm => simp [updateRequestBytes, versionBytes]

theorem eq_of_prefix_updateStatus {response other : AttachedUpdateResponse} (hresponse : Sendable response)
    (hother : Sendable other) (h : updateStatusBytes response <+: updateStatusBytes other)
    : response = other := by
  rcases h with ⟨rest, h⟩
  rcases hbytes : updateStatusBytes other with _ | ⟨status, bytes⟩
  . cases other <;> cases hbytes
  . have hread : (readUpdateStatus status : Reader String _).run bytes = .ok (response, rest) :=
      run_readUpdateStatus.mpr ⟨by rw [← hbytes, h], hresponse⟩
    have hagain : (readUpdateStatus status : Reader String _).run bytes = .ok (other, []) :=
      run_readUpdateStatus.mpr ⟨by rw [← hbytes, List.append_nil], hother⟩
    rw [hread] at hagain
    cases hagain
    rfl

/-- The streams that are read to a value are those that the writer of the value writes. -/
structure Framed {α : Type} (read : ChunkReader String α) (write : α → FrameWriter Unit) : Prop where
  accepts (a : α) (chunks : List Chunk)
    : (∃ rest, read.run chunks = (.ok a, rest)) ↔ (write a).run [] = (.ok (), bytesOf chunks)
  rejects (chunks : List Chunk)
    : read.Rejects chunks ↔ ∀ a, (write a).run [] ≠ (.ok (), bytesOf chunks)
  ends (a : α) (frame : List UInt8) (chunks : List Chunk) (hwrite : (write a).run [] = (.ok (), frame))
      (hbegins : bytesOf chunks <+: frame ∨ frame <+: bytesOf chunks) (hne : bytesOf chunks ≠ frame)
    : read.Rejects chunks

theorem Framed.of_reads {α : Type} {read : ChunkReader String α} {reader : Reader String α}
    {write : α → FrameWriter Unit} (hreads : Reads read reader)
    (hread : ∀ a input rest, reader.run input = .ok (a, rest)
      ↔ (write a).run [] = (.ok (), input) ∧ rest = [])
    (hbegins : ∀ a b frame other, (write a).run [] = (.ok (), frame) → (write b).run [] = (.ok (), other)
      → frame <+: other → frame.length = other.length)
    : Framed read write := by
  have haccepts (a : α) (chunks : List Chunk)
      : (∃ rest, read.run chunks = (.ok a, rest)) ↔ (write a).run [] = (.ok (), bytesOf chunks) := by
    constructor
    . rintro ⟨rest, hrun⟩
      exact ((hread a _ _).mp (hreads.run_eq_ok_iff.mp ⟨rest, hrun, rfl⟩)).left
    . intro hwrite
      rcases hreads.run_eq_ok_iff.mpr ((hread a _ _).mpr ⟨hwrite, rfl⟩) with ⟨rest, hrun, _⟩
      exact ⟨rest, hrun⟩
  have hrejects (chunks : List Chunk)
      : read.Rejects chunks ↔ ∀ a, (write a).run [] ≠ (.ok (), bytesOf chunks) := by
    rw [ChunkReader.rejects_iff]
    refine forall_congr' fun a => ?_
    rw [ne_eq, ← haccepts a chunks, not_exists]
  refine ⟨haccepts, hrejects, fun a frame chunks hwrite hcut hne => ?_⟩
  rw [hrejects]
  intro b hother
  rcases hcut with hcut | hcut
  . exact hne (hcut.eq_of_length (hbegins b a _ _ hother hwrite hcut))
  . exact hne (hcut.eq_of_length (hbegins a b _ _ hwrite hother hcut)).symm

theorem framed_updateRequest (secret : Vector UInt8 32)
    : Framed (readUpdateRequest secret) (writeUpdateRequest secret) := by
  refine .of_reads (reads_readUpdateRequest secret) (fun request input rest => ?_) ?_
  . rw [run_readUpdateRequest, run_writeUpdateRequest, Prod.mk.injEq, eq_comm (a := input)]
    exact and_congr_left fun _ => (and_iff_right rfl).symm
  . intro request other frame frame' hwrite hother hbegins
    rw [run_writeUpdateRequest] at hwrite hother
    cases hwrite
    cases hother
    exact length_eq_of_prefix_updateRequest hbegins

theorem framed_updateResponse : Framed readUpdateResponse writeUpdateResponse := by
  refine .of_reads reads_readUpdateResponse (fun response input rest => ?_) ?_
  . rw [run_readUpdateResponse, run_writeUpdateResponse_eq_ok_iff, and_assoc]
    exact and_left_comm
  . intro response other frame frame' hwrite hother hbegins
    rw [run_writeUpdateResponse_eq_ok_iff] at hwrite hother
    rcases hwrite with ⟨hresponse, rfl⟩
    rcases hother with ⟨hother, rfl⟩
    rw [List.prefix_append_right_inj] at hbegins
    rw [eq_of_prefix_updateStatus hresponse hother hbegins]

theorem framed_tcpForwardRequest (secret : Vector UInt8 32)
    : Framed (readTcpForwardRequest secret) (writeTcpForwardRequest secret) := by
  refine .of_reads (reads_readTcpForwardRequest secret) (fun port input rest => ?_) ?_
  . rw [run_readTcpForwardRequest, run_writeTcpForwardRequest_eq_ok_iff, and_assoc]
  . intro port other frame frame' hwrite hother _
    rw [run_writeTcpForwardRequest_eq_ok_iff] at hwrite hother
    rw [hwrite.right, hother.right]
    simp

/-! What frames begin with -/

variable {secret : Vector UInt8 32} {chunks : List Chunk}

theorem rejects_updateRequest
    (h : ∀ operation tail, bytesOf chunks
        = updateMagic ++ updateProtocolVersion :: operation :: (secret.toList ++ tail)
      → operation ≠ 0 ∧ operation ≠ 1)
    : Rejects (readUpdateRequest secret) chunks := by
  rw [(framed_updateRequest secret).rejects]
  intro request hwrite
  rw [run_writeUpdateRequest, Prod.mk.injEq] at hwrite
  cases request with
  | start =>
    refine (h 0 [] ?_).left rfl
    rw [← hwrite.right]
    simp [updateRequestBytes, updatePrefixBytes]
  | confirm operationId version =>
    refine (h 1 (operationId.bytes.toList ++ versionBytes version) ?_).right rfl
    rw [← hwrite.right]
    simp [updateRequestBytes, updatePrefixBytes]

theorem rejects_updateResponse
    (h : ∀ status tail, bytesOf chunks = updateMagic ++ updateProtocolVersion :: status :: tail → 5 < status)
    : Rejects readUpdateResponse chunks := by
  rw [framed_updateResponse.rejects]
  intro response hwrite
  rw [run_writeUpdateResponse_eq_ok_iff] at hwrite
  have hstatus (status : UInt8) (tail : List UInt8) (hbytes : updateStatusBytes response = status :: tail)
      : 5 < status := by
    refine h status tail ?_
    rw [hwrite.right, hbytes]
    simp [updatePrefixBytes]
  cases response with
  | _ => exact absurd (hstatus _ _ rfl) (by decide)

theorem failed_of_updateStatusBytes {response : AttachedUpdateResponse} {length : UInt16}
    {tail : List UInt8} (hsendable : Sendable response)
    (h : updateStatusBytes response = 3 :: (Bytes.toBeBytes 2 length.toNat ++ tail))
    : ∃ message, response = .failed message ∧ (Bytes.ofString message).length = length.toNat
      ∧ tail = Bytes.ofString message := by
  cases response with
  | failed message =>
    have hsmall : (Bytes.ofString message).length < 256 ^ 2 :=
      Nat.lt_of_le_of_lt hsendable (by decide)
    rcases List.append_inj (List.cons.inj h).right
      (by rw [Bytes.length_toBeBytes, Bytes.length_toBeBytes]) with ⟨hlength, rfl⟩
    have hnumbers := congrArg Bytes.ofBeBytes hlength
    rw [Bytes.ofBeBytes_toBeBytes, Bytes.ofBeBytes_toBeBytes, Nat.mod_eq_of_lt hsmall,
      Nat.mod_eq_of_lt (show length.toNat < 256 ^ 2 from length.toNat_lt)] at hnumbers
    exact ⟨message, rfl, hnumbers, rfl⟩
  | _ => exact absurd (List.cons.inj h).left (by decide)

theorem rejects_longMessage {length : UInt16} {tail : List UInt8}
    (hlength : maxUpdateMessageLen < length.toNat)
    (hbytes : bytesOf chunks
      = updateMagic ++ updateProtocolVersion :: 3 :: (Bytes.toBeBytes 2 length.toNat ++ tail))
    : Rejects readUpdateResponse chunks := by
  rw [framed_updateResponse.rejects]
  intro response hwrite
  rcases run_writeUpdateResponse_eq_ok_iff.mp hwrite with ⟨hsendable, hframe⟩
  rw [hbytes, updatePrefixBytes, List.append_assoc] at hframe
  have hstatus := (List.cons.inj (List.append_cancel_left hframe)).right
  rcases failed_of_updateStatusBytes hsendable hstatus.symm with ⟨message, rfl, hmessage, _⟩
  have : (Bytes.ofString message).length ≤ maxUpdateMessageLen := hsendable
  omega

theorem rejects_badMessage {length : UInt16} {message tail : List UInt8}
    (hlength : message.length = length.toNat) (hmessage : Bytes.toString? message = none)
    (hbytes : bytesOf chunks
      = updateMagic ++ updateProtocolVersion :: 3 :: (Bytes.toBeBytes 2 length.toNat ++ (message ++ tail)))
    : Rejects readUpdateResponse chunks := by
  rw [framed_updateResponse.rejects]
  intro response hwrite
  rcases run_writeUpdateResponse_eq_ok_iff.mp hwrite with ⟨hsendable, hframe⟩
  rw [hbytes, updatePrefixBytes, List.append_assoc] at hframe
  have hstatus := (List.cons.inj (List.append_cancel_left hframe)).right
  rcases failed_of_updateStatusBytes hsendable hstatus.symm with ⟨sent, rfl, hsent, htail⟩
  have htext : message = Bytes.ofString sent :=
    (List.append_inj (htail.trans (List.append_nil _).symm) (hlength.trans hsent.symm)).left
  rw [htext, Bytes.toString?_ofString] at hmessage
  cases hmessage

theorem rejects_tcpForwardRequest (h : ¬ secret.toList <+: bytesOf chunks)
    : Rejects (readTcpForwardRequest secret) chunks := by
  rw [(framed_tcpForwardRequest secret).rejects]
  intro port hwrite
  rw [run_writeTcpForwardRequest_eq_ok_iff] at hwrite
  rw [hwrite.right] at h
  exact h (List.prefix_append _ _)

end Frames

open Frames in
open ChunkReader (Rejects) in
theorem frames_read_as_written (secret : Vector UInt8 32)
    : Framed (readUpdateRequest secret) (writeUpdateRequest secret)
      ∧ Framed readUpdateResponse writeUpdateResponse
      ∧ Framed (readTcpForwardRequest secret) (writeTcpForwardRequest secret)
      ∧ (∀ request, ∃ frame, (writeUpdateRequest secret request).run [] = (.ok (), frame))
      ∧ (∀ response, (∃ frame, (writeUpdateResponse response).run [] = (.ok (), frame))
        ↔ ∀ message, response = .failed message → (Bytes.ofString message).length ≤ 512)
      ∧ (∀ port, (∃ frame, (writeTcpForwardRequest secret port).run [] = (.ok (), frame)) ↔ port ≠ 0)
      ∧ (∀ chunks,
        ((∀ operation tail, bytesOf chunks
              = updateMagic ++ updateProtocolVersion :: operation :: (secret.toList ++ tail)
            → operation ≠ 0 ∧ operation ≠ 1)
          → Rejects (readUpdateRequest secret) chunks)
        ∧ ((∀ status tail, bytesOf chunks = updateMagic ++ updateProtocolVersion :: status :: tail
            → 5 < status)
          → Rejects readUpdateResponse chunks)
        ∧ (∀ (length : UInt16) tail, 512 < length.toNat
          → bytesOf chunks
            = updateMagic ++ updateProtocolVersion :: 3 :: (Bytes.toBeBytes 2 length.toNat ++ tail)
          → Rejects readUpdateResponse chunks)
        ∧ (∀ (length : UInt16) message tail, message.length = length.toNat → Bytes.toString? message = none
          → bytesOf chunks = updateMagic
              ++ updateProtocolVersion :: 3 :: (Bytes.toBeBytes 2 length.toNat ++ (message ++ tail))
          → Rejects readUpdateResponse chunks)
        ∧ (¬ secret.toList <+: bytesOf chunks → Rejects (readTcpForwardRequest secret) chunks))
      ∧ (∀ chunks following,
        (∀ status, (∃ rest, (readTcpForwardStatus : ChunkReader String _).run chunks = (.ok status, rest)
            ∧ bytesOf rest = following)
          ↔ ∃ frame, (writeTcpForwardStatus status).run [] = (.ok (), frame)
            ∧ bytesOf chunks = frame ++ following)
        ∧ ((∃ rest, (readTcpForwardOpen : ChunkReader String _).run chunks = (.ok (), rest)
            ∧ bytesOf rest = following)
          ↔ ∃ frame, writeTcpForwardOpen.run [] = (.ok (), frame)
            ∧ bytesOf chunks = frame ++ following)) := by
  refine ⟨framed_updateRequest secret, framed_updateResponse, framed_tcpForwardRequest secret,
    fun request => ⟨_, run_writeUpdateRequest secret request⟩, fun response => ?_, fun port => ?_,
    fun chunks => ⟨rejects_updateRequest, rejects_updateResponse, ?_, ?_, rejects_tcpForwardRequest⟩,
    fun chunks following => ⟨fun status => ?_, ?_⟩⟩
  . simp only [run_writeUpdateResponse_eq_ok_iff, exists_and_left, exists_eq, and_true]
    cases response <;> simp [Sendable, maxUpdateMessageLen]
  . simp only [run_writeTcpForwardRequest_eq_ok_iff, exists_and_left, exists_eq, and_true]
  . intro length tail hlength hbytes
    exact rejects_longMessage hlength hbytes
  . intro length message tail hlength hmessage hbytes
    exact rejects_badMessage hlength hmessage hbytes
  . rw [reads_readTcpForwardStatus.run_eq_ok_iff, run_readTcpForwardStatus]
    simp [writeTcpForwardStatus]
  . rw [reads_readTcpForwardOpen.run_eq_ok_iff, run_readTcpForwardOpen]
    simp [writeTcpForwardOpen]

end Attached
