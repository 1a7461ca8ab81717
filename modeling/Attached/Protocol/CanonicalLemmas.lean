import Attached.Protocol.Canonical

/-!
This module contains the proof that the descriptor codec is a bijection between the descriptors and
the byte strings it accepts.
-/

namespace Attached

section headByte

variable {major additional first : UInt8}

theorem toNat_headByte (hmajor : major < 8) (hadditional : additional < 32)
    : (major <<< 5 ||| additional).toNat = major.toNat * 32 + additional.toNat := by
  rw [UInt8.lt_iff_toNat_lt] at hmajor hadditional
  have hmajor : major.toNat < 8 := hmajor
  have hadditional : additional.toNat < 2 ^ 5 := hadditional
  have hshift : major.toNat <<< 5 % 2 ^ 8 = major.toNat <<< 5 := by
    rw [Nat.shiftLeft_eq]
    omega
  rw [UInt8.toNat_or, UInt8.toNat_shiftLeft]
  change (major.toNat <<< 5 % 2 ^ 8) ||| additional.toNat = _
  rw [hshift, ← Nat.shiftLeft_add_eq_or_of_lt hadditional, Nat.shiftLeft_eq]

theorem toNat_shiftRight_five : (first >>> 5).toNat = first.toNat / 32 := by
  rw [UInt8.toNat_shiftRight]
  change first.toNat >>> 5 = _
  rw [Nat.shiftRight_eq_div_pow]

theorem toNat_and_31 : (first &&& 31).toNat = first.toNat % 32 := by
  rw [UInt8.toNat_and]
  exact Nat.and_two_pow_sub_one_eq_mod first.toNat 5

theorem headByte_shiftRight (hmajor : major < 8) (hadditional : additional < 32)
    : (major <<< 5 ||| additional) >>> 5 = major := by
  apply UInt8.toNat_inj.mp
  rw [toNat_shiftRight_five, toNat_headByte hmajor hadditional]
  rw [UInt8.lt_iff_toNat_lt] at hadditional
  have hadditional : additional.toNat < 32 := hadditional
  omega

theorem headByte_and (hmajor : major < 8) (hadditional : additional < 32)
    : (major <<< 5 ||| additional) &&& 31 = additional := by
  apply UInt8.toNat_inj.mp
  rw [toNat_and_31, toNat_headByte hmajor hadditional]
  rw [UInt8.lt_iff_toNat_lt] at hadditional
  have hadditional : additional.toNat < 32 := hadditional
  omega

theorem eq_headByte_iff (hmajor : major < 8) (hadditional : additional < 32)
    : first >>> 5 = major ∧ first &&& 31 = additional ↔ first = major <<< 5 ||| additional := by
  constructor
  . rintro ⟨rfl, rfl⟩
    apply UInt8.toNat_inj.mp
    rw [toNat_headByte hmajor hadditional, toNat_shiftRight_five, toNat_and_31]
    omega
  . rintro rfl
    exact ⟨headByte_shiftRight hmajor hadditional, headByte_and hmajor hadditional⟩

end headByte

namespace Decoder

@[simp]
theorem run_byte_eq_ok_iff {b : UInt8} {input rest : List UInt8}
    : byte.run input = .ok (b, rest) ↔ input = b :: rest := by
  simp [byte]

@[simp]
theorem run_take_eq_ok_iff {length : Nat} {bs input rest : List UInt8}
    : (take length).run input = .ok (bs, rest) ↔ bs.length = length ∧ input = bs ++ rest := by
  simp [take]

theorem eq_toBeBytes_iff {width value : Nat} {bs : List UInt8}
    : bs.length = width ∧ Bytes.ofBeBytes bs = value
        ↔
      value < 256 ^ width ∧ bs = Bytes.toBeBytes width value := by
  constructor
  . rintro ⟨rfl, rfl⟩
    exact ⟨Bytes.ofBeBytes_lt bs, (Bytes.toBeBytes_ofBeBytes bs).symm⟩
  . rintro ⟨hlt, rfl⟩
    rw [Bytes.ofBeBytes_toBeBytes, Nat.mod_eq_of_lt hlt]
    simp

theorem run_toNat_byte_eq_ok_iff {value : Nat} {input rest : List UInt8}
    : (UInt8.toNat <$> byte).run input = .ok (value, rest)
        ↔
      value ≤ 0xff ∧ input = [UInt8.ofNat value] ++ rest := by
  simp only [Reader.run_map_eq_ok_iff, run_byte_eq_ok_iff]
  constructor
  . rintro ⟨b, rfl, rfl⟩
    have := b.toNat_lt
    exact ⟨by omega, by simp⟩
  . rintro ⟨hle, rfl⟩
    refine ⟨UInt8.ofNat value, rfl, ?_⟩
    rw [UInt8.toNat_ofNat']
    omega

theorem run_ofBeBytes_take_eq_ok_iff {width value : Nat} {input rest : List UInt8}
    : (Bytes.ofBeBytes <$> take width).run input = .ok (value, rest)
        ↔
      value < 256 ^ width ∧ input = Bytes.toBeBytes width value ++ rest := by
  simp only [Reader.run_map_eq_ok_iff, run_take_eq_ok_iff]
  constructor
  . rintro ⟨bs, ⟨hlength, rfl⟩, hvalue⟩
    rcases eq_toBeBytes_iff.mp ⟨hlength, hvalue⟩ with ⟨hlt, rfl⟩
    exact ⟨hlt, rfl⟩
  . rintro ⟨hlt, rfl⟩
    rcases eq_toBeBytes_iff.mpr ⟨hlt, rfl⟩ with ⟨hlength, hvalue⟩
    exact ⟨_, ⟨hlength, rfl⟩, hvalue⟩

def headForm (value : Nat) : UInt8 × List UInt8 :=
  if value ≤ 23 then
    (UInt8.ofNat value, [])
  else if value ≤ 0xff then
    (24, [UInt8.ofNat value])
  else if value ≤ 0xffff then
    (25, Bytes.toBeBytes 2 value)
  else if value ≤ 0xffffffff then
    (26, Bytes.toBeBytes 4 value)
  else
    (27, Bytes.toBeBytes 8 value)

theorem putHead_eq_headForm (major : UInt8) (value : Nat)
    : putHead major value = (major <<< 5 ||| (headForm value).1) :: (headForm value).2 := by
  unfold putHead headForm
  split <;> try rfl
  split <;> try rfl
  split <;> try rfl
  split <;> rfl

theorem toNat_ofNat_of_le {value : Nat} (h : value ≤ 23) : (UInt8.ofNat value).toNat = value := by
  rw [UInt8.toNat_ofNat']
  omega

theorem headForm_fst_lt (value : Nat) : (headForm value).1 < 32 := by
  unfold headForm
  split
  . next h =>
    rw [UInt8.lt_iff_toNat_lt, toNat_ofNat_of_le h]
    exact Nat.lt_of_le_of_lt h (by decide)
  . split
    . exact show (24 : UInt8) < 32 by decide
    . split
      . exact show (25 : UInt8) < 32 by decide
      . split
        . exact show (26 : UInt8) < 32 by decide
        . exact show (27 : UInt8) < 32 by decide

theorem run_argument_headForm {value : Nat} (rest : List UInt8) (hvalue : value ≤ u64Max)
    : (argument (headForm value).1).run ((headForm value).2 ++ rest) = .ok (value, rest)
        ∧ isShortest (headForm value).1 value = true := by
  unfold u64Max at hvalue
  unfold headForm
  split
  . next h =>
    have hle : UInt8.ofNat value ≤ 23 := by
      rw [UInt8.le_iff_toNat_le, toNat_ofNat_of_le h]
      exact h
    have hne : ∀ n : UInt8, 23 < n.toNat → UInt8.ofNat value ≠ n := by
      rintro n hn rfl
      rw [toNat_ofNat_of_le h] at hn
      omega
    simp [argument, hle, isShortest, hne 24, hne 25, hne 26, hne 27, toNat_ofNat_of_le h]
  . next h23 =>
    split
    . next h =>
      constructor
      . exact run_toNat_byte_eq_ok_iff.mpr ⟨h, rfl⟩
      . simp [isShortest]
        omega
    . next hff =>
      split
      . next h =>
        constructor
        . exact run_ofBeBytes_take_eq_ok_iff.mpr ⟨by omega, rfl⟩
        . simp [isShortest]
          omega
      . next hffff =>
        split
        . next h =>
          constructor
          . exact run_ofBeBytes_take_eq_ok_iff.mpr ⟨by omega, rfl⟩
          . simp [isShortest]
            omega
        . next hffffffff =>
          constructor
          . exact run_ofBeBytes_take_eq_ok_iff.mpr ⟨by omega, rfl⟩
          . simp [isShortest]
            omega

theorem headForm_of_run_argument {additional : UInt8} {value : Nat} {input rest : List UInt8}
    (hrun : (argument additional).run input = .ok (value, rest))
    (hshortest : isShortest additional value = true)
    : value ≤ u64Max ∧ additional = (headForm value).1 ∧ input = (headForm value).2 ++ rest := by
  unfold argument at hrun
  unfold u64Max
  split at hrun
  . next h23 =>
    rw [UInt8.le_iff_toNat_le] at h23
    have h23 : additional.toNat ≤ 23 := h23
    simp only [Reader.run_pure_eq_ok_iff] at hrun
    rcases hrun with ⟨rfl, rfl⟩
    simp [headForm, h23]
    omega
  . split at hrun
    . next h =>
      subst h
      rcases run_toNat_byte_eq_ok_iff.mp hrun with ⟨hle, rfl⟩
      have hgt : ¬value ≤ 23 := by
        simp [isShortest] at hshortest
        omega
      simp [headForm, hgt, hle]
      omega
    . split at hrun
      . next h =>
        subst h
        rcases run_ofBeBytes_take_eq_ok_iff.mp hrun with ⟨hlt, rfl⟩
        have hgt : ¬value ≤ 255 := by
          simp [isShortest] at hshortest
          omega
        have hle : value ≤ 65535 := by omega
        have h23 : ¬value ≤ 23 := by omega
        simp [headForm, hgt, hle, h23]
        omega
      . split at hrun
        . next h =>
          subst h
          rcases run_ofBeBytes_take_eq_ok_iff.mp hrun with ⟨hlt, rfl⟩
          have hgt : ¬value ≤ 65535 := by
            simp [isShortest] at hshortest
            omega
          have hle : value ≤ 4294967295 := by omega
          have h255 : ¬value ≤ 255 := by omega
          have h23 : ¬value ≤ 23 := by omega
          simp [headForm, hgt, hle, h23, h255]
          omega
        . split at hrun
          . next h =>
            subst h
            rcases run_ofBeBytes_take_eq_ok_iff.mp hrun with ⟨hlt, rfl⟩
            have hgt : ¬value ≤ 4294967295 := by
              simp [isShortest] at hshortest
              omega
            have h65535 : ¬value ≤ 65535 := by omega
            have h255 : ¬value ≤ 255 := by omega
            have h23 : ¬value ≤ 23 := by omega
            simp [headForm, hgt, h23, h255, h65535]
            omega
          . simp at hrun

theorem run_head_eq_ok_iff {major : UInt8} {value : Nat} {input rest : List UInt8}
    (hmajor : major < 8)
    : (head major).run input = .ok (value, rest)
        ↔
      value ≤ u64Max ∧ input = putHead major value ++ rest := by
  rw [putHead_eq_headForm]
  constructor
  . intro h
    simp only [head, Reader.run_bind_eq_ok_iff, run_byte_eq_ok_iff, Reader.run_ensure_eq_ok_iff,
      Reader.run_pure_eq_ok_iff, beq_iff_eq] at h
    rcases h with
      ⟨first, _, rfl, _, _, ⟨rfl, rfl⟩, read, _, hargument, _, _, ⟨hshortest, rfl⟩, rfl, rfl⟩
    rcases headForm_of_run_argument hargument hshortest with ⟨hvalue, hadditional, rfl⟩
    refine ⟨hvalue, ?_⟩
    rw [← hadditional]
    have hlt : first &&& 31 < 32 := by
      rw [hadditional]
      exact headForm_fst_lt read
    rw [← (eq_headByte_iff hmajor hlt).mp ⟨rfl, rfl⟩]
    rfl
  . rintro ⟨hvalue, rfl⟩
    have hadditional := headForm_fst_lt value
    simp only [head, Reader.run_bind_eq_ok_iff, run_byte_eq_ok_iff, Reader.run_ensure_eq_ok_iff,
      Reader.run_pure_eq_ok_iff, beq_iff_eq]
    refine ⟨_, _, rfl, (), _, ⟨headByte_shiftRight hmajor hadditional, rfl⟩, value, rest, ?_⟩
    rw [headByte_and hmajor hadditional]
    rcases run_argument_headForm rest hvalue with ⟨hargument, hshortest⟩
    exact ⟨hargument, (), rest, ⟨hshortest, rfl⟩, rfl, rfl⟩

@[simp]
theorem run_uint_eq_ok_iff {value : Nat} {input rest : List UInt8}
    : uint.run input = .ok (value, rest) ↔ value ≤ u64Max ∧ input = putUint value ++ rest := by
  unfold uint putUint
  exact run_head_eq_ok_iff (by decide)

theorem run_key_eq_ok_iff {expected : Nat} {u : Unit} {input rest : List UInt8}
    (hexpected : expected ≤ u64Max)
    : (key expected).run input = .ok (u, rest) ↔ input = putUint expected ++ rest := by
  simp only [key, Reader.run_bind_eq_ok_iff, run_uint_eq_ok_iff, Reader.run_ensure_eq_ok_iff,
    beq_iff_eq]
  constructor
  . rintro ⟨value, middle, ⟨_, rfl⟩, rfl, rfl⟩
    rfl
  . rintro rfl
    exact ⟨expected, rest, ⟨hexpected, rfl⟩, rfl, rfl⟩

theorem run_fixedBytes_eq_ok_iff {n : Nat} {value : Vector UInt8 n} {input rest : List UInt8}
    (hn : n ≤ u64Max)
    : (fixedBytes n).run input = .ok (value, rest) ↔ input = putBytes value.toList ++ rest := by
  have hmajor : (2 : UInt8) < 8 := by decide
  simp only [fixedBytes, Reader.run_bind_eq_ok_iff, run_head_eq_ok_iff hmajor,
    Reader.run_ensure_eq_ok_iff, run_take_eq_ok_iff, beq_iff_eq]
  constructor
  . rintro ⟨length, _, ⟨_, rfl⟩, _, _, ⟨rfl, rfl⟩, bytes, _, ⟨hlength, rfl⟩, hvalue⟩
    rw [dif_pos hlength] at hvalue
    simp only [Reader.run_pure_eq_ok_iff] at hvalue
    rcases hvalue with ⟨rfl, rfl⟩
    simp [putBytes, hlength, Vector.toList]
  . rintro rfl
    have hlength : value.toList.length = n := by simp
    refine ⟨n, value.toList ++ rest, ⟨hn, ?_⟩, (), _, ⟨rfl, rfl⟩, value.toList, rest,
      ⟨hlength, rfl⟩, ?_⟩
    . simp [putBytes]
    . rw [dif_pos hlength]
      simp [Vector.toList]

theorem run_text_eq_ok_iff {minimum maximum : Nat} {value : String} {input rest : List UInt8}
    (hmaximum : maximum ≤ u64Max)
    : (text minimum maximum).run input = .ok (value, rest)
        ↔
      minimum ≤ (Bytes.ofString value).length
        ∧ (Bytes.ofString value).length ≤ maximum
        ∧ input = putText value ++ rest := by
  have hmajor : (3 : UInt8) < 8 := by decide
  simp only [text, Reader.run_bind_eq_ok_iff, run_head_eq_ok_iff hmajor,
    Reader.run_ensure_eq_ok_iff, run_take_eq_ok_iff, Bool.and_eq_true, decide_eq_true_eq,
    Reader.run_lift_eq_ok_iff, Except.okOr_eq_ok_iff, Bytes.toString?_eq_some_iff]
  constructor
  . rintro ⟨length, _, ⟨_, rfl⟩, _, _, ⟨⟨hmin, hmax⟩, rfl⟩, bytes, _, ⟨rfl, rfl⟩, rfl, rfl⟩
    refine ⟨hmin, hmax, ?_⟩
    simp [putText]
  . rintro ⟨hmin, hmax, rfl⟩
    refine ⟨(Bytes.ofString value).length, Bytes.ofString value ++ rest, ⟨by omega, ?_⟩, (), _,
      ⟨⟨hmin, hmax⟩, rfl⟩, Bytes.ofString value, rest, ⟨rfl, rfl⟩, rfl, rfl⟩
    simp [putText]

@[simp]
theorem run_uint16_eq_ok_iff {value : UInt16} {input rest : List UInt8}
    : uint16.run input = .ok (value, rest) ↔ input = putUint value.toNat ++ rest := by
  simp only [uint16, Reader.run_bind_eq_ok_iff, run_uint_eq_ok_iff, Reader.run_ensure_eq_ok_iff,
    decide_eq_true_eq, Reader.run_pure_eq_ok_iff]
  constructor
  . rintro ⟨number, _, ⟨_, rfl⟩, _, _, ⟨hlt, rfl⟩, rfl, rfl⟩
    rw [UInt16.toNat_ofNat', Nat.mod_eq_of_lt hlt]
  . rintro rfl
    have hlt := value.toNat_lt
    refine ⟨value.toNat, rest, ⟨?_, rfl⟩, (), rest, ⟨hlt, rfl⟩, by simp, rfl⟩
    unfold u64Max
    omega

@[simp]
theorem run_bool_eq_ok_iff {value : Bool} {input rest : List UInt8}
    : bool.run input = .ok (value, rest) ↔ input = [if value then 0xf5 else 0xf4] ++ rest := by
  simp only [bool, Reader.run_bind_eq_ok_iff, run_byte_eq_ok_iff]
  constructor
  . rintro ⟨b, _, rfl, hvalue⟩
    split at hvalue
    . next h =>
      simp only [Reader.run_pure_eq_ok_iff] at hvalue
      rcases hvalue with ⟨rfl, rfl⟩
      simp [h]
    . split at hvalue
      . next h =>
        simp only [Reader.run_pure_eq_ok_iff] at hvalue
        rcases hvalue with ⟨rfl, rfl⟩
        simp [h]
      . simp at hvalue
  . rintro rfl
    refine ⟨_, rest, rfl, ?_⟩
    cases value with
    | true => simp
    | false => simp

end Decoder

theorem datetimeFromUnixSeconds_eq_ok_iff {seconds : Nat} {t : DateTime}
    : datetimeFromUnixSeconds seconds = .ok t ↔ t.nanos = seconds * DateTime.nanosPerSecond := by
  simp only [datetimeFromUnixSeconds, Except.bind_eq_ok_iff, Except.ensure_eq_ok_iff,
    Except.okOr_eq_ok_iff, decide_eq_true_eq, DateTime.fromTimestamp]
  constructor
  . rintro ⟨_, _, h⟩
    exact DateTime.ofNanos?_eq_some h
  . intro h
    refine ⟨(), ?_, ?_⟩
    . -- `chrono` ends long before `i64` does.
      have := t.upper
      simp only [DateTime.maxTimestamp, DateTime.nanosPerSecond] at *
      unfold i64Max
      omega
    . rw [← h]
      exact DateTime.ofNanos?_nanos t

def DateTime.IsUnixSecond (t : DateTime) : Prop :=
  t.nanos = t.timestamp.toNat * DateTime.nanosPerSecond

theorem DateTime.isUnixSecond_iff {t : DateTime}
    : t.IsUnixSecond ↔ 0 ≤ t.timestamp ∧ t.timestampSubsecNanos = 0 := by
  unfold IsUnixSecond timestamp timestampSubsecNanos nanosPerSecond
  omega

theorem DateTime.eq_timestamp_of_nanos {t : DateTime} {seconds : Nat}
    (h : t.nanos = seconds * DateTime.nanosPerSecond) : seconds = t.timestamp.toNat := by
  unfold timestamp
  unfold nanosPerSecond at *
  omega

theorem DateTime.timestamp_le_u64Max (t : DateTime) : t.timestamp.toNat ≤ u64Max := by
  have := t.upper
  unfold timestamp u64Max
  simp only [maxTimestamp, nanosPerSecond] at *
  omega

namespace DescriptorFields

def encoding (fields : DescriptorFields) : List UInt8 :=
  putHead 5 7
    ++ (putUint 1 ++ putText fields.hostLabel)
    ++ (putUint 2 ++ putUint fields.issuedAt.timestamp.toNat)
    ++ (putUint 3 ++ putUint fields.expiresAt.timestamp.toNat)
    ++ (putUint 4 ++ putText fields.endpointTicket)
    ++ (putUint 5 ++ putBytes fields.attachCapability.toList)
    ++ (putUint 6
      ++ putHead 4 3
      ++ putUint fields.attachedVersion.major.toNat
      ++ putUint fields.attachedVersion.minor.toNat
      ++ putUint fields.attachedVersion.patch.toNat)
    ++ (putUint 7 ++ [if fields.sshEnabled then 0xf5 else 0xf4])

structure Readable (fields : DescriptorFields) : Prop where
  hostLabel_pos : 1 ≤ (Bytes.ofString fields.hostLabel).length
  hostLabel_le : (Bytes.ofString fields.hostLabel).length ≤ maxHostLabelBytes
  issuedAt : fields.issuedAt.IsUnixSecond
  expiresAt : fields.expiresAt.IsUnixSecond
  endpointTicket_pos : 1 ≤ (Bytes.ofString fields.endpointTicket).length
  endpointTicket_le : (Bytes.ofString fields.endpointTicket).length ≤ maxEndpointTicketBytes

end DescriptorFields

theorem Decoder.run_fields_eq_ok_iff {fields : DescriptorFields} {input rest : List UInt8}
    : Decoder.fields.run input = .ok (fields, rest)
        ↔
      fields.Readable ∧ input = fields.encoding ++ rest := by
  have hmap : (5 : UInt8) < 8 := by decide
  have harray : (4 : UInt8) < 8 := by decide
  have hlabel : maxHostLabelBytes ≤ u64Max := by decide
  have hticket : maxEndpointTicketBytes ≤ u64Max := by decide
  simp (disch := decide) only [Decoder.fields, Reader.run_bind_eq_ok_iff,
    Reader.run_ensure_eq_ok_iff, Reader.run_pure_eq_ok_iff, Reader.run_lift_eq_ok_iff,
    run_head_eq_ok_iff hmap, run_head_eq_ok_iff harray, run_key_eq_ok_iff, run_uint_eq_ok_iff,
    run_text_eq_ok_iff hlabel, run_text_eq_ok_iff hticket, run_fixedBytes_eq_ok_iff,
    run_uint16_eq_ok_iff, run_bool_eq_ok_iff, datetimeFromUnixSeconds_eq_ok_iff, beq_iff_eq]
  constructor
  . rintro ⟨_, _, ⟨_, rfl⟩, _, _, ⟨rfl, rfl⟩,
      _, _, rfl, label, _, ⟨hlabelPos, hlabelLe, rfl⟩,
      _, _, rfl, issued, _, ⟨_, rfl⟩, issuedAt, _, ⟨hissued, rfl⟩,
      _, _, rfl, expires, _, ⟨_, rfl⟩, expiresAt, _, ⟨hexpires, rfl⟩,
      _, _, rfl, ticket, _, ⟨hticketPos, hticketLe, rfl⟩,
      _, _, rfl, capability, _, rfl,
      _, _, rfl, _, _, ⟨_, rfl⟩, _, _, ⟨rfl, rfl⟩, major, _, rfl, minor, _, rfl, patch, _, rfl,
      _, _, rfl, ssh, _, rfl, rfl, rfl⟩
    have hissuedEq := DateTime.eq_timestamp_of_nanos hissued
    have hexpiresEq := DateTime.eq_timestamp_of_nanos hexpires
    subst hissuedEq hexpiresEq
    constructor
    . exact ⟨hlabelPos, hlabelLe, hissued, hexpires, hticketPos, hticketLe⟩
    . simp only [DescriptorFields.encoding, List.append_assoc]
  . rintro ⟨hreadable, rfl⟩
    simp only [DescriptorFields.encoding, List.append_assoc]
    exact ⟨7, _, ⟨by decide, rfl⟩, (), _, ⟨rfl, rfl⟩,
      (), _, rfl, fields.hostLabel, _, ⟨hreadable.hostLabel_pos, hreadable.hostLabel_le, rfl⟩,
      (), _, rfl, _, _, ⟨DateTime.timestamp_le_u64Max _, rfl⟩, _, _, ⟨hreadable.issuedAt, rfl⟩,
      (), _, rfl, _, _, ⟨DateTime.timestamp_le_u64Max _, rfl⟩, _, _, ⟨hreadable.expiresAt, rfl⟩,
      (), _, rfl, fields.endpointTicket, _,
      ⟨hreadable.endpointTicket_pos, hreadable.endpointTicket_le, rfl⟩,
      (), _, rfl, fields.attachCapability, _, rfl,
      (), _, rfl, 3, _, ⟨by decide, rfl⟩, (), _, ⟨rfl, rfl⟩, _, _, rfl, _, _, rfl, _, _, rfl,
      (), _, rfl, _, _, rfl, rfl, rfl⟩

theorem length_putHead_le (major : UInt8) (value : Nat) : (putHead major value).length ≤ 9 := by
  unfold putHead
  split
  . simp
  . split
    . simp
    . split
      . simp
      . split
        . simp
        . simp

theorem length_putUint_le (value : Nat) : (putUint value).length ≤ 9 :=
  length_putHead_le 0 value

theorem length_putText_le (value : String)
    : (putText value).length ≤ 9 + (Bytes.ofString value).length := by
  have := length_putHead_le 3 (Bytes.ofString value).length
  simp only [putText, List.length_append]
  omega

theorem length_putBytes_le (value : List UInt8) : (putBytes value).length ≤ 9 + value.length := by
  have := length_putHead_le 2 value.length
  simp only [putBytes, List.length_append]
  omega

theorem validateHostLabel_length {value : String} (h : validateHostLabel value = true)
    : 1 ≤ (Bytes.ofString value).length ∧ (Bytes.ofString value).length ≤ maxHostLabelBytes := by
  unfold validateHostLabel at h
  split at h
  . simp at h
  . next first rest heq =>
    simp only [Bool.and_eq_true, decide_eq_true_eq] at h
    rw [heq]
    exact ⟨by simp, h.1.1⟩

namespace DescriptorFields

variable {Ticket : Type} {iroh : Iroh Ticket} {fields : DescriptorFields}

theorem length_encoding_le (h : fields.Readable)
    : fields.encoding.length ≤ maxHostAccessDescriptorBytes := by
  have hmap := length_putHead_le 5 7
  have harray := length_putHead_le 4 3
  have huint := length_putUint_le
  have hlabel := Nat.le_trans (length_putText_le fields.hostLabel)
    (Nat.add_le_add_left h.hostLabel_le 9)
  have hticket := Nat.le_trans (length_putText_le fields.endpointTicket)
    (Nat.add_le_add_left h.endpointTicket_le 9)
  have hcapability := length_putBytes_le fields.attachCapability.toList
  rw [Vector.length_toList] at hcapability
  simp only [maxHostLabelBytes, maxEndpointTicketBytes] at hlabel hticket
  simp only [encoding, List.length_append, List.length_singleton, maxHostAccessDescriptorBytes]
  grind

theorem readable_of_validate (h : fields.validate iroh = .ok ()) : fields.Readable := by
  simp only [validate, Except.bind_eq_ok_iff, Except.ensure_eq_ok_iff, Bool.and_eq_true,
    Bool.not_eq_true', decide_eq_false_iff_not, decide_eq_true_eq, beq_iff_eq, not_lt] at h
  rcases h with ⟨_, ⟨⟨⟨⟨⟨hlabel, hissued⟩, hexpires⟩, hissuedSub⟩, hexpiresSub⟩, _⟩, _, _,
    _, ⟨⟨hnonempty, hticket⟩, _⟩, _⟩
  rcases validateHostLabel_length hlabel with ⟨hpos, hle⟩
  exact {
    hostLabel_pos := hpos
    hostLabel_le := hle
    issuedAt := DateTime.isUnixSecond_iff.mpr ⟨hissued, hissuedSub⟩
    expiresAt := DateTime.isUnixSecond_iff.mpr ⟨hexpires, hexpiresSub⟩
    endpointTicket_pos := by
      rw [List.isEmpty_eq_false_iff, ← List.length_pos_iff] at hnonempty
      exact hnonempty
    endpointTicket_le := hticket
  }

end DescriptorFields

section

variable {Ticket : Type} {iroh : Iroh Ticket}

theorem HostAccessDescriptor.readable (d : HostAccessDescriptor iroh)
    : d.toDescriptorFields.Readable :=
  DescriptorFields.readable_of_validate d.valid

theorem HostAccessDescriptor.new_eq_ok_iff {fields : DescriptorFields}
    {d : HostAccessDescriptor iroh}
    : HostAccessDescriptor.new iroh fields = .ok d ↔ d.toDescriptorFields = fields := by
  unfold HostAccessDescriptor.new
  split
  . next h =>
    constructor
    . intro heq
      injection heq with heq
      rw [← heq]
    . rintro rfl
      rfl
  . next e h =>
    constructor
    . intro heq
      simp at heq
    . rintro rfl
      rw [d.valid] at h
      simp at h

theorem encodeHostAccessDescriptor_eq (d : HostAccessDescriptor iroh)
    : encodeHostAccessDescriptor d = .ok d.encoding := by
  have hissued := (DateTime.isUnixSecond_iff.mp d.readable.issuedAt).1
  have hexpires := (DateTime.isUnixSecond_iff.mp d.readable.expiresAt).1
  have hlength := DescriptorFields.length_encoding_le d.readable
  unfold DescriptorFields.encoding at hlength
  simp only [encodeHostAccessDescriptor, Except.bind_eq_ok_iff, Except.ensure_eq_ok_iff,
    Except.pure_eq_ok_iff, decide_eq_true_eq]
  refine ⟨(), d.valid, _, if_pos hissued, _, if_pos hexpires, (), hlength, rfl⟩

theorem decodeFieldByField_eq_ok_iff {input : List UInt8} {d : HostAccessDescriptor iroh}
    : decodeFieldByField iroh input = .ok d ↔ input = d.encoding := by
  simp only [decodeFieldByField, Except.bind_eq_ok_iff, Except.ensure_eq_ok_iff, Prod.exists,
    Decoder.run_fields_eq_ok_iff, HostAccessDescriptor.new_eq_ok_iff, List.isEmpty_iff]
  constructor
  . rintro ⟨fields, rest, ⟨_, rfl⟩, _, rfl, rfl⟩
    simp
  . rintro rfl
    exact ⟨d.toDescriptorFields, [], ⟨d.readable, by simp⟩, (), rfl, rfl⟩

theorem decodeHostAccessDescriptor_eq_ok_iff {input : List UInt8} {d : HostAccessDescriptor iroh}
    : decodeHostAccessDescriptor iroh input = .ok d ↔ input = d.encoding := by
  simp only [decodeHostAccessDescriptor, Except.bind_eq_ok_iff, Except.ensure_eq_ok_iff,
    Except.pure_eq_ok_iff, decodeFieldByField_eq_ok_iff, encodeHostAccessDescriptor_eq,
    decide_eq_true_eq, beq_iff_eq, Except.ok.injEq]
  constructor
  . rintro ⟨_, _, descriptor, rfl, _, rfl, _, _, rfl⟩
    rfl
  . rintro rfl
    exact ⟨(), DescriptorFields.length_encoding_le d.readable, d, rfl, _, rfl, (), rfl, rfl⟩

theorem descriptor_codec (iroh : Iroh Ticket)
    : (∀ fields d, HostAccessDescriptor.new iroh fields = .ok d →
        ∃ x, encodeHostAccessDescriptor d = .ok x ∧ decodeHostAccessDescriptor iroh x = .ok d)
      ∧ (∀ x d, decodeHostAccessDescriptor iroh x = .ok d → encodeHostAccessDescriptor d = .ok x)
      ∧ (∀ x y d, decodeHostAccessDescriptor iroh x = .ok d →
          decodeHostAccessDescriptor iroh y = .ok d → x = y)
      ∧ (∀ x d, decodeFieldByField iroh x = .ok d →
          encodeHostAccessDescriptor d = .ok x ∧ decodeHostAccessDescriptor iroh x = .ok d) := by
  refine ⟨?_, ?_, ?_, ?_⟩
  . intro fields d _
    exact ⟨d.encoding, encodeHostAccessDescriptor_eq d,
      decodeHostAccessDescriptor_eq_ok_iff.mpr rfl⟩
  . intro x d hdecode
    rw [decodeHostAccessDescriptor_eq_ok_iff.mp hdecode]
    exact encodeHostAccessDescriptor_eq d
  . intro x y d hx hy
    rw [decodeHostAccessDescriptor_eq_ok_iff.mp hx, decodeHostAccessDescriptor_eq_ok_iff.mp hy]
  . intro x d hfields
    rw [decodeFieldByField_eq_ok_iff.mp hfields]
    exact ⟨encodeHostAccessDescriptor_eq d, decodeHostAccessDescriptor_eq_ok_iff.mpr rfl⟩

end

namespace Fixture

def descriptorFields : DescriptorFields where
  hostLabel := "office"
  issuedAt := time 0
  expiresAt := time 300
  endpointTicket := ticket
  attachCapability := Vector.replicate 32 6
  attachedVersion := ⟨4, 5, 6⟩
  sshEnabled := true

theorem descriptorFields_validate : descriptorFields.validate iroh = .ok () := by
  decide +kernel

def descriptor : HostAccessDescriptor iroh where
  toDescriptorFields := descriptorFields
  valid := descriptorFields_validate

end Fixture

theorem descriptor_codec_office
    : ∃ x, encodeHostAccessDescriptor Fixture.descriptor = .ok x
        ∧ decodeHostAccessDescriptor Fixture.iroh x = .ok Fixture.descriptor :=
  (descriptor_codec Fixture.iroh).1 Fixture.descriptorFields Fixture.descriptor
    (HostAccessDescriptor.new_eq_ok_iff.mpr rfl)

end Attached
