import Attached.Library.SerdeLemmas
import Attached.Protocol.AccountLemmas
import Attached.Protocol.ApiJson

/-!
This module contains the correctness of the bodies of the service: they fit into their limit, are read
back as they were written, and the error for a malformed one does not depend on the order of its
members.
-/

namespace Attached

open Serde

namespace EnvelopeWire

theorem ofJson_perm {members members' : List (List UInt8 × Json)} (h : members.Perm members')
    : ofJson (.object members) = ofJson (.object members') := by
  simp only [ofJson, onlyFields_perm h, required_perm h]

theorem decodeFixed_eq_ok_iff {n : Nat} {value : List UInt8} {v : Vector UInt8 n}
    : decodeFixed n value = .ok v ↔ value = Base64.encode v.toList := by
  simp only [decodeFixed, Except.bind_eq_ok_iff, Except.okOr_eq_ok_iff, Except.ensure_eq_ok_iff,
    Except.pure_eq_ok_iff, Option.bind_eq_bind, Option.bind_eq_some_iff, Base64.decode_eq_some_iff,
    toFixed_eq_some_iff, beq_iff_eq]
  constructor
  . rintro ⟨_, ⟨_, rfl, rfl⟩, _, _, rfl⟩
    rfl
  . rintro rfl
    exact ⟨v, ⟨_, rfl, rfl⟩, (), rfl, rfl⟩

theorem decodeFixed_eq_error {n : Nat} {value : List UInt8} {error : ApiError}
    (h : decodeFixed n value = .error error) : error = .invalidRequest := by
  simp only [decodeFixed, Except.bind_eq_error_iff, Except.okOr_eq_error_iff,
    Except.ensure_eq_error_iff] at h
  rcases h with ⟨_, rfl⟩ | ⟨_, _, ⟨_, rfl⟩ | ⟨_, _, h⟩⟩
  . rfl
  . rfl
  . cases h

theorem decodeVec_eq_ok_iff {max : Nat} {value bytes : List UInt8}
    : decodeVec value max = .ok bytes
        ↔
      value.length * 3 / 4 ≤ max ∧ value = Base64.encode bytes := by
  simp only [decodeVec, Except.bind_eq_ok_iff, Except.okOr_eq_ok_iff, Except.ensure_eq_ok_iff,
    Except.pure_eq_ok_iff, Base64.decode_eq_some_iff, beq_iff_eq, exists_const]
  constructor
  . rintro ⟨hlength, _, rfl, _, rfl⟩
    exact ⟨by simpa using hlength, rfl⟩
  . rintro ⟨hlength, rfl⟩
    exact ⟨by simpa using hlength, bytes, rfl, rfl, rfl⟩

theorem decodeVec_eq_tooLarge_iff {max : Nat} {value : List UInt8}
    : decodeVec value max = .error .tooLarge ↔ max < value.length * 3 / 4 := by
  simp only [decodeVec, Except.bind_eq_error_iff, Except.okOr_eq_error_iff,
    Except.ensure_eq_error_iff, reduceCtorEq, and_false, pure, Except.pure, exists_false,
    or_false, and_true]
  simp

theorem decodeVec_ne_tooLarge {value : List UInt8} (h : value.length ≤ maxCiphertextTextLen)
    : decodeVec value maxCiphertextBytes ≠ .error .tooLarge := by
  rw [Ne, decodeVec_eq_tooLarge_iff]
  simp only [maxCiphertextTextLen, maxCiphertextBytes] at *
  omega

theorem new_ne_tooLarge {nonce : Vector UInt8 24} {value bytes : List UInt8}
    (h : value.length ≤ maxCiphertextTextLen)
    (hdecode : decodeVec value maxCiphertextBytes = .ok bytes)
    : Envelope.new nonce bytes ≠ .error .tooLarge := by
  have hlength := Base64.length_encode bytes
  rw [← (decodeVec_eq_ok_iff.mp hdecode).2] at hlength
  rw [Ne, Envelope.new, Except.bind_eq_error_iff, Except.ensure_eq_error_iff]
  simp only [pure, Except.pure, reduceCtorEq, and_false, exists_false, or_false, and_true,
    decide_eq_false_iff_not, not_not]
  simp only [maxCiphertextTextLen, maxCiphertextBytes] at *
  omega

theorem decode_eq_ok_iff {wire : EnvelopeWire} {envelope : Envelope}
    : wire.decode = .ok envelope
        ↔
      wire.version = 1
        ∧ wire.nonce = Base64.encode envelope.nonce.toList
        ∧ wire.ciphertext.length ≤ maxCiphertextTextLen
        ∧ wire.ciphertext = Base64.encode envelope.ciphertext
        ∧ Envelope.new envelope.nonce envelope.ciphertext = .ok envelope := by
  simp only [decode, Except.bind_eq_ok_iff, Except.ensure_eq_ok_iff, decodeFixed_eq_ok_iff,
    decodeVec_eq_ok_iff, exists_const, Bool.not_eq_true', bne_eq_false_iff_eq,
    decide_eq_false_iff_not, not_lt, gt_iff_lt]
  constructor
  . rintro ⟨hversion, nonce, hnonce, hlength, ciphertext, ⟨_, hciphertext⟩, hnew⟩
    have henvelope := hnew
    simp only [Envelope.new, Except.bind_eq_ok_iff, Except.pure_eq_ok_iff] at henvelope
    rcases henvelope with ⟨_, _, rfl⟩
    exact ⟨hversion, hnonce, hlength, hciphertext, hnew⟩
  . rintro ⟨hversion, hnonce, hlength, hciphertext, hnew⟩
    refine ⟨hversion, _, hnonce, hlength, _, ⟨?_, hciphertext⟩, hnew⟩
    simp only [maxCiphertextTextLen, maxCiphertextBytes] at *
    omega

theorem decode_eq_tooLarge_iff {wire : EnvelopeWire}
    : wire.decode = .error .tooLarge
        ↔
      wire.version = 1
        ∧ (∃ nonce : Vector UInt8 24, wire.nonce = Base64.encode nonce.toList)
        ∧ maxCiphertextTextLen < wire.ciphertext.length := by
  simp only [decode, Except.bind_eq_error_iff, Except.ensure_eq_error_iff, Except.ensure_eq_ok_iff,
    decodeFixed_eq_ok_iff, exists_const, Bool.not_eq_false', Bool.not_eq_true',
    bne_eq_false_iff_eq, decide_eq_true_eq, decide_eq_false_iff_not, not_lt, gt_iff_lt,
    reduceCtorEq, and_false, and_true, false_or]
  constructor
  . rintro ⟨hversion, herror | ⟨nonce, hnonce, hlong | ⟨hlength, htail⟩⟩⟩
    . have := decodeFixed_eq_error herror
      cases this
    . exact ⟨hversion, ⟨nonce, hnonce⟩, hlong⟩
    . rcases htail with htail | ⟨bytes, hbytes, htail⟩
      . exact absurd htail (decodeVec_ne_tooLarge hlength)
      . exact absurd htail (new_ne_tooLarge hlength hbytes)
  . rintro ⟨hversion, ⟨nonce, hnonce⟩, hlong⟩
    exact ⟨hversion, Or.inr ⟨nonce, hnonce, Or.inl hlong⟩⟩

end EnvelopeWire

namespace Envelope

theorem parseJson_eq {input : List UInt8} (h : input.length ≤ maxApiBodyBytes)
    : parseJson input
        =
      match Json.parse input >>= EnvelopeWire.ofJson with
      | some wire => wire.decode
      | none => .error .invalidRequest := by
  have hlimit : Except.ensure (!(input.length > maxApiBodyBytes : Bool)) ApiError.tooLarge
      = .ok () := by
    simpa using h
  unfold parseJson
  rw [hlimit, Except.ok_bind]
  cases Json.parse input >>= EnvelopeWire.ofJson with
  | none => rfl
  | some wire => rfl

theorem parseJson_perm {input input' : List UInt8} {members members' : List (List UInt8 × Json)}
    (hlength : input.length ≤ maxApiBodyBytes) (hlength' : input'.length ≤ maxApiBodyBytes)
    (hparse : Json.parse input = some (.object members))
    (hparse' : Json.parse input' = some (.object members')) (hperm : members.Perm members')
    : parseJson input = parseJson input' := by
  rw [parseJson_eq hlength, parseJson_eq hlength', hparse, hparse', Option.bind_eq_bind,
    Option.bind_some, Option.bind_some, EnvelopeWire.ofJson_perm hperm]

theorem ofJson_toJson (envelope : Envelope)
    : EnvelopeWire.ofJson envelope.toJson = some {
        version := envelope.envelopeVersion.toNat
        nonce := Base64.encode envelope.nonce.toList
        ciphertext := Base64.encode envelope.ciphertext
      } := by
  have hversion : asUnsigned 65536 (.number (Bytes.numeral 10 envelope.envelopeVersion.toNat))
      = some envelope.envelopeVersion.toNat :=
    asUnsigned_numeral envelope.envelopeVersion.toNat_lt
  simp [EnvelopeWire.ofJson, toJson, onlyFields, required, member, textMember, numberMember, asStr,
    hversion]

theorem readable_toJson (envelope : Envelope) : Json.Reads Json.maxDepth envelope.toJson := by
  apply Json.reads_object (by decide)
  simp only [List.forall_mem_cons]
  exact ⟨readable_numberMember _ (by decide +kernel),
    readable_textMember (by decide +kernel) (all_isPlain_encode _),
    readable_textMember (by decide +kernel) (all_isPlain_encode _), List.forall_mem_nil _⟩

theorem length_toJson_le {envelope : Envelope}
    (h : envelope.ciphertext.length ≤ maxCiphertextBytes)
    : envelope.toJson.print.length ≤ maxApiBodyBytes := by
  have htotal := length_print_object_le [
    numberMember "envelope_version" envelope.envelopeVersion.toNat,
    textMember "nonce" (Base64.encode envelope.nonce.toList),
    textMember "ciphertext" (Base64.encode envelope.ciphertext)]
  have hversion := memberLength_numberMember (k := 5)
    (show (Json.printString (Bytes.ofString "envelope_version")).length = 18 by decide +kernel)
    (by omega) (Nat.lt_trans envelope.envelopeVersion.toNat_lt (by decide))
  have hnonce := memberLength_textMember
    (show (Json.printString (Bytes.ofString "nonce")).length = 7 by decide +kernel)
    (all_isPlain_encode envelope.nonce.toList)
    (Nat.le_of_eq (Base64.length_encode envelope.nonce.toList))
  have hciphertext := memberLength_textMember
    (show (Json.printString (Bytes.ofString "ciphertext")).length = 12 by decide +kernel)
    (all_isPlain_encode envelope.ciphertext) (Nat.le_of_eq (Base64.length_encode _))
  rw [Vector.length_toList] at hnonce
  simp only [List.map_cons, List.map_nil, List.sum_cons, List.sum_nil] at htotal
  simp only [toJson, maxCiphertextBytes, maxApiBodyBytes] at *
  omega

theorem parseJson_toJson {nonce : Vector UInt8 24} {ciphertext : List UInt8} {envelope : Envelope}
    (h : new nonce ciphertext = .ok envelope) : parseJson envelope.toJson.print = .ok envelope := by
  have hlimit := length_le_of_new h
  have henvelope := h
  simp only [new, Except.bind_eq_ok_iff, Except.pure_eq_ok_iff] at henvelope
  rcases henvelope with ⟨_, _, rfl⟩
  rw [parseJson_eq (length_toJson_le hlimit), Json.parse_print (readable_toJson _),
    Option.bind_eq_bind, Option.bind_some, ofJson_toJson]
  apply EnvelopeWire.decode_eq_ok_iff.mpr
  refine ⟨rfl, rfl, ?_, rfl, h⟩
  dsimp only at *
  rw [Base64.length_encode]
  unfold maxCiphertextTextLen
  omega

end Envelope

theorem RecordId.parse_eq_ok_iff {value : List UInt8} {id : RecordId}
    : RecordId.parse value = .ok id ↔ value = id.encode := by
  simp only [RecordId.parse, RecordId.encode, Except.bind_eq_ok_iff, Except.okOr_eq_ok_iff,
    Except.ensure_eq_ok_iff, Except.pure_eq_ok_iff, Base64.decode_eq_some_iff, toFixed_eq_some_iff,
    exists_const, Bool.not_eq_true', Bool.or_eq_false_iff, bne_eq_false_iff_eq]
  constructor
  . rintro ⟨_, _, rfl, bytes, rfl, _, rfl⟩
    rfl
  . rintro rfl
    refine ⟨⟨?_, ?_⟩, _, rfl, _, rfl, rfl, rfl⟩
    . rw [Base64.length_encode, Vector.length_toList]
      rfl
    . rw [List.contains_eq_mem, decide_eq_false_iff_not]
      intro hpad
      have := List.all_eq_true.mp (Base64.all_isSymbol_encode _) _ hpad
      revert this
      decide

theorem boundedVec_map {α : Type} {max : Nat} {read : Json → Option α} {write : α → Json}
    {values : List α} (hlength : values.length ≤ max) (hread : ∀ a ∈ values, read (write a) = some a)
    : boundedVec max read (values.map write) = some values := by
  induction values generalizing max with
  | nil => simp [boundedVec]
  | cons a values ih =>
    cases max with
    | zero => simp at hlength
    | succ max =>
      rw [List.length_cons, Nat.add_le_add_iff_right] at hlength
      rw [List.map_cons, boundedVec, hread a List.mem_cons_self,
        ih hlength fun a h => hread a (List.mem_cons_of_mem _ h)]
      rfl

namespace LiveRecordIndexEntry

theorem ofJson_toJson {entry : LiveRecordIndexEntry} (h : entry.revision ≤ u64Max)
    : ofJson entry.toJson = some entry := by
  have hrevision : asUnsigned (u64Max + 1) (.number (Bytes.numeral 10 entry.revision))
      = some entry.revision :=
    asUnsigned_numeral (Nat.lt_succ_of_le h)
  have hid : RecordId.parse entry.recordId.encode = .ok entry.recordId :=
    RecordId.parse_eq_ok_iff.mpr rfl
  simp [ofJson, toJson, asStruct, onlyFields, required, member, textMember, numberMember, asStr,
    hrevision, hid, Except.toOption]

theorem reads_toJson (entry : LiveRecordIndexEntry) {depth : Nat} (hdepth : 2 ≤ depth)
    : Json.Reads depth entry.toJson := by
  have hnames : [Bytes.ofString "record_id", Bytes.ofString "revision"].all
      (fun name => name.all Json.isPlain) = true := by
    decide +kernel
  simp only [List.all_cons, List.all_nil, Bool.and_true, Bool.and_eq_true] at hnames
  apply Json.reads_object hdepth
  simp only [textMember, numberMember, List.forall_mem_cons]
  exact ⟨⟨hnames.1, Json.reads_string (all_isPlain_encode _)⟩,
    ⟨hnames.2, Json.reads_number (Json.isNatural_numeral _)⟩, List.forall_mem_nil _⟩

theorem length_print_le {entry : LiveRecordIndexEntry} (h : entry.revision ≤ u64Max)
    : entry.toJson.print.length ≤ 81 := by
  have htotal := length_print_object_le
    [textMember "record_id" entry.recordId.encode, numberMember "revision" entry.revision]
  have hid := memberLength_textMember
    (show (Json.printString (Bytes.ofString "record_id")).length = 11 by decide +kernel)
    (all_isPlain_encode entry.recordId.bytes.toList) (Nat.le_of_eq (Base64.length_encode _))
  have hrevision := memberLength_numberMember (k := 20)
    (show (Json.printString (Bytes.ofString "revision")).length = 10 by decide +kernel)
    (by omega) (Nat.lt_of_le_of_lt h (by decide))
  rw [Vector.length_toList] at hid
  simp only [List.map_cons, List.map_nil, List.sum_cons, List.sum_nil] at htotal
  simp only [toJson, RecordId.encode] at *
  omega

end LiveRecordIndexEntry

namespace LiveRecordIndex

theorem ofJson_toJson {index : LiveRecordIndex} (h : ∀ entry ∈ index.records, entry.revision ≤ u64Max)
    : ofJson index.toJson = some index := by
  have hlength := (validate_eq_ok_iff.mp index.valid).1
  have hrecords : boundedVec maxLiveRecords LiveRecordIndexEntry.ofJson
      (index.records.map LiveRecordIndexEntry.toJson) = some index.records :=
    boundedVec_map hlength fun entry hentry => LiveRecordIndexEntry.ofJson_toJson (h entry hentry)
  have hnew : new index.records = .ok index := new_eq_ok_iff.mpr rfl
  simp [ofJson, toJson, asStruct, onlyFields, required, member, asArray, hrecords, hnew,
    Except.toOption]

theorem reads_toJson (index : LiveRecordIndex) : Json.Reads Json.maxDepth index.toJson := by
  apply Json.reads_object (by decide)
  simp only [List.forall_mem_cons]
  refine ⟨⟨by decide +kernel, ?_⟩, List.forall_mem_nil _⟩
  apply Json.reads_array (by decide)
  intro element helement
  rcases List.mem_map.mp helement with ⟨entry, _, rfl⟩
  exact entry.reads_toJson (by decide)

theorem length_print_le {index : LiveRecordIndex}
    (h : ∀ entry ∈ index.records, entry.revision ≤ u64Max)
    : index.toJson.print.length ≤ maxApiBodyBytes := by
  have hcount := (validate_eq_ok_iff.mp index.valid).1
  have hname : (Json.printString (Bytes.ofString "records")).length = 9 := by
    decide +kernel
  have helements : ∀ element ∈ index.records.map LiveRecordIndexEntry.toJson,
      element.print.length ≤ 81 := by
    intro element helement
    rcases List.mem_map.mp helement with ⟨entry, hentry, rfl⟩
    exact LiveRecordIndexEntry.length_print_le (h entry hentry)
  have hlength := Json.length_printElements_le helements
  rw [List.length_map] at hlength
  simp only [toJson, Json.print, Json.printMembers, hname, List.length_append, List.length_cons,
    List.length_nil, maxApiBodyBytes]
  unfold maxLiveRecords at hcount
  omega

theorem parse_toJson {index : LiveRecordIndex}
    (h : ∀ entry ∈ index.records, entry.revision ≤ u64Max)
    : parseLiveRecordIndex index.toJson.print = .ok index := by
  have hlength := length_print_le h
  simp only [parseLiveRecordIndex, Except.bind_eq_ok_iff, Except.ensure_eq_ok_iff,
    Except.okOr_eq_ok_iff, exists_const, Bool.not_eq_true', decide_eq_false_iff_not, gt_iff_lt,
    not_lt, Json.parse_print (reads_toJson index)]
  exact ⟨hlength, ofJson_toJson h⟩

end LiveRecordIndex

namespace Envelope

theorem parseJson_malformed {input : List UInt8} {members : List (List UInt8 × Json)}
    (hlength : input.length ≤ maxApiBodyBytes)
    (hparse : Json.parse input = some (.object members))
    (hmalformed : (required "envelope_version" members >>= asUnsigned 65536) ≠ some 1
      ∨ ∀ nonce : Vector UInt8 24,
          (required "nonce" members >>= asStr) ≠ some (Base64.encode nonce.toList))
    : parseJson input = .error .invalidRequest := by
  have hwire : ∀ wire, EnvelopeWire.ofJson (.object members) = some wire →
      wire.version ≠ 1 ∨ ∀ nonce : Vector UInt8 24, wire.nonce ≠ Base64.encode nonce.toList := by
    intro wire hwire
    simp only [EnvelopeWire.ofJson, Option.bind_eq_bind, Option.ite_none_right_eq_some,
      Option.bind_eq_some_iff, Option.pure_def, Option.some.injEq] at hwire hmalformed
    rcases hwire with ⟨_, version, hversion, nonce, hnonce, _, _, rfl⟩
    rcases hmalformed with hmalformed | hmalformed
    . left
      rintro rfl
      exact hmalformed (Option.bind_eq_some_iff.mpr hversion)
    . right
      rintro v rfl
      exact hmalformed v (Option.bind_eq_some_iff.mpr hnonce)
  rw [parseJson_eq hlength, hparse, Option.bind_eq_bind, Option.bind_some]
  cases hread : EnvelopeWire.ofJson (.object members) with
  | none => rfl
  | some wire =>
    cases hdecode : wire.decode with
    | ok envelope =>
      rcases EnvelopeWire.decode_eq_ok_iff.mp hdecode with ⟨hversion, hnonce, _⟩
      rcases hwire wire hread with h | h
      . exact absurd hversion h
      . exact absurd hnonce (h envelope.nonce)
    | error error =>
      cases error with
      | invalidRequest => exact hdecode
      | tooLarge =>
        rcases EnvelopeWire.decode_eq_tooLarge_iff.mp hdecode with ⟨hversion, ⟨nonce, hnonce⟩, _⟩
        rcases hwire wire hread with h | h
        . exact absurd hversion h
        . exact absurd hnonce (h nonce)

theorem parseJson_canonical {input : List UInt8} {envelope : Envelope}
    (h : parseJson input = .ok envelope)
    : ∃ members, Json.parse input = some (.object members)
        ∧ (required "nonce" members >>= asStr) = some (Base64.encode envelope.nonce.toList)
        ∧ (required "ciphertext" members >>= asStr) = some (Base64.encode envelope.ciphertext) := by
  simp only [parseJson, Except.bind_eq_ok_iff, Except.okOr_eq_ok_iff, Option.bind_eq_bind,
    Option.bind_eq_some_iff, EnvelopeWire.decode_eq_ok_iff] at h
  rcases h with ⟨_, _, wire, ⟨json, hparse, hwire⟩, _, hnonce, _, hciphertext, _⟩
  cases json with
  | object members =>
    simp only [EnvelopeWire.ofJson, Option.bind_eq_bind, Option.ite_none_right_eq_some,
      Option.bind_eq_some_iff, Option.pure_def, Option.some.injEq] at hwire
    rcases hwire with ⟨_, version, _, nonce, hread, ciphertext, hread', rfl⟩
    dsimp only at hnonce hciphertext
    subst hnonce hciphertext
    exact ⟨members, hparse, Option.bind_eq_some_iff.mpr hread, Option.bind_eq_some_iff.mpr hread'⟩
  | _ => cases hwire

end Envelope

theorem api_bodies
    : (∀ (nonce : Vector UInt8 24) (ciphertext : List UInt8) (envelope : Envelope),
        Envelope.new nonce ciphertext = .ok envelope →
          envelope.toJson.print.length ≤ maxApiBodyBytes
            ∧ Envelope.parseJson envelope.toJson.print = .ok envelope)
      ∧ (∀ (records : List LiveRecordIndexEntry) (index : LiveRecordIndex),
        (∀ record ∈ records, record.revision ≤ u64Max) →
        LiveRecordIndex.new records = .ok index →
          index.toJson.print.length ≤ maxApiBodyBytes
            ∧ parseLiveRecordIndex index.toJson.print = .ok index)
      ∧ (∀ (input : List UInt8) (index : LiveRecordIndex), parseLiveRecordIndex input = .ok index →
        index.records.length ≤ maxLiveRecords
          ∧ (∀ record ∈ index.records, record.revision ≠ 0)
          ∧ index.records.Pairwise fun a b => compare a.recordId b.recordId = .lt)
      ∧ (∀ (input input' : List UInt8) (members members' : List (List UInt8 × Json)),
        input.length ≤ maxApiBodyBytes → input'.length ≤ maxApiBodyBytes →
        Json.parse input = some (.object members) → Json.parse input' = some (.object members') →
        members.Perm members' → Envelope.parseJson input = Envelope.parseJson input')
      ∧ (∀ (input : List UInt8) (members : List (List UInt8 × Json)),
        input.length ≤ maxApiBodyBytes → Json.parse input = some (.object members) →
        ((required "envelope_version" members >>= asUnsigned 65536) ≠ some 1
          ∨ ∀ nonce : Vector UInt8 24,
              (required "nonce" members >>= asStr) ≠ some (Base64.encode nonce.toList)) →
        Envelope.parseJson input = .error .invalidRequest)
      ∧ (∀ (input : List UInt8) (envelope : Envelope), Envelope.parseJson input = .ok envelope →
        ∃ members nonce ciphertext,
          Json.parse input = some (.object members)
            ∧ (required "nonce" members >>= asStr) = some nonce
            ∧ (required "ciphertext" members >>= asStr) = some ciphertext
            ∧ (∀ text, Base64.decode text = some envelope.nonce.toList ↔ text = nonce)
            ∧ (∀ text, Base64.decode text = some envelope.ciphertext ↔ text = ciphertext))
      ∧ ∀ value : List UInt8, value.length ≤ maxCiphertextTextLen →
        EnvelopeWire.decodeVec value maxCiphertextBytes ≠ .error .tooLarge
          ∧ ∀ (nonce : Vector UInt8 24) (bytes : List UInt8),
              EnvelopeWire.decodeVec value maxCiphertextBytes = .ok bytes →
                Envelope.new nonce bytes ≠ .error .tooLarge := by
  refine ⟨?_, ?_, ?_, ?_, ?_, ?_, ?_⟩
  . intro nonce ciphertext envelope hnew
    exact ⟨Envelope.length_toJson_le (Envelope.length_le_of_new hnew),
      Envelope.parseJson_toJson hnew⟩
  . intro records index hrevisions hnew
    rw [← LiveRecordIndex.new_eq_ok_iff.mp hnew] at hrevisions
    exact ⟨LiveRecordIndex.length_print_le hrevisions, LiveRecordIndex.parse_toJson hrevisions⟩
  . intro input index _
    exact LiveRecordIndex.validate_eq_ok_iff.mp index.valid
  . intro input input' members members' hlength hlength' hparse hparse' hperm
    exact Envelope.parseJson_perm hlength hlength' hparse hparse' hperm
  . intro input members hlength hparse hmalformed
    exact Envelope.parseJson_malformed hlength hparse hmalformed
  . intro input envelope hparse
    rcases Envelope.parseJson_canonical hparse with ⟨members, hobject, hnonce, hciphertext⟩
    exact ⟨members, _, _, hobject, hnonce, hciphertext, fun text => Base64.decode_eq_some_iff,
      fun text => Base64.decode_eq_some_iff⟩
  . intro value hlength
    exact ⟨EnvelopeWire.decodeVec_ne_tooLarge hlength,
      fun nonce bytes hdecode => EnvelopeWire.new_ne_tooLarge hlength hdecode⟩

theorem texts_one_to_one
    : (∀ text bytes : List UInt8,
        Base64.decode text = some bytes
          ↔
        ∃ k < 6, Base64.textBits text = some (Base64.byteBits bytes ++ List.replicate k false))
      ∧ (∀ (text : List UInt8) (id : RecordId),
        id.encode = Base64.encode id.bytes.toList
          ∧ (RecordId.parse text = .ok id ↔ text = id.encode))
      ∧ (∀ (text : List UInt8) (bytes : Vector UInt8 32),
        (ApiToken.parseBare text = .ok ⟨bytes⟩ ↔ text = Base64.encode bytes.toList)
          ∧ (decodeBundleSecret text = .ok bytes ↔ text = Base64.encode bytes.toList))
      ∧ (∀ (text : List UInt8) (bytes : Vector UInt8 24),
        EnvelopeWire.decodeFixed 24 text = .ok bytes ↔ text = Base64.encode bytes.toList)
      ∧ (∀ bytes : List UInt8, bytes.length ≤ maxCiphertextBytes →
        EnvelopeWire.decodeVec (Base64.encode bytes) maxCiphertextBytes = .ok bytes)
      ∧ ∀ (text bytes : List UInt8), EnvelopeWire.decodeVec text maxCiphertextBytes = .ok bytes →
        text = Base64.encode bytes := by
  refine ⟨?_, ?_, ?_, ?_, ?_, ?_⟩
  . intro text bytes
    apply Base64.decode_eq_some_iff_bits
  . intro text id
    exact ⟨rfl, RecordId.parse_eq_ok_iff⟩
  . intro text bytes
    exact ⟨decodeApiToken_eq_ok_iff, decodeBundleSecret_eq_ok_iff⟩
  . intro text bytes
    apply EnvelopeWire.decodeFixed_eq_ok_iff
  . intro bytes hlength
    rw [EnvelopeWire.decodeVec_eq_ok_iff, Base64.length_encode]
    exact ⟨by omega, rfl⟩
  . intro text bytes hdecode
    exact (EnvelopeWire.decodeVec_eq_ok_iff.mp hdecode).2

end Attached
