import Attached.Library.Serde
import Attached.Protocol.Account
import Attached.Protocol.Api

/-!
This module contains the JSON bodies of the service.
-/

namespace Attached

open Serde

structure EnvelopeWire where
  version : Nat
  nonce : List UInt8
  ciphertext : List UInt8

namespace EnvelopeWire

def ofJson (json : Json) : Option EnvelopeWire :=
  match json with
  | .object members => do
    if onlyFields ["envelope_version", "nonce", "ciphertext"] members then
      let version ← required "envelope_version" members >>= asUnsigned 65536
      let nonce ← required "nonce" members >>= asStr
      let ciphertext ← required "ciphertext" members >>= asStr
      return { version, nonce, ciphertext }
    else
      none
  | _ => none

def decodeFixed (n : Nat) (value : List UInt8) : Except ApiError (Vector UInt8 n) := do
  let decoded ← Except.okOr (Base64.decode value >>= toFixed n) .invalidRequest
  Except.ensure (Base64.encode decoded.toList == value) .invalidRequest
  return decoded

def decodeVec (value : List UInt8) (max : Nat) : Except ApiError (List UInt8) := do
  Except.ensure (!(value.length * 3 / 4 > max)) .tooLarge
  let decoded ← Except.okOr (Base64.decode value) .invalidRequest
  Except.ensure (Base64.encode decoded == value) .invalidRequest
  return decoded

def decode (wire : EnvelopeWire) : Except ApiError Envelope := do
  Except.ensure (!(wire.version != 1)) .invalidRequest
  let nonce ← decodeFixed 24 wire.nonce
  Except.ensure (!(wire.ciphertext.length > maxCiphertextTextLen)) .tooLarge
  Envelope.new nonce (← decodeVec wire.ciphertext maxCiphertextBytes)

end EnvelopeWire

namespace Envelope

def parseJson (input : List UInt8) : Except ApiError Envelope := do
  Except.ensure (!(input.length > maxApiBodyBytes)) .tooLarge
  let wire ← Except.okOr (Json.parse input >>= EnvelopeWire.ofJson) .invalidRequest
  wire.decode

theorem length_le_of_new {nonce : Vector UInt8 24} {ciphertext : List UInt8} {envelope : Envelope}
    (h : new nonce ciphertext = .ok envelope) : envelope.ciphertext.length ≤ maxCiphertextBytes := by
  simp only [new, Except.bind_eq_ok_iff, Except.ensure_eq_ok_iff, decide_eq_true_eq,
    Except.pure_eq_ok_iff] at h
  rcases h with ⟨_, hlength, rfl⟩
  exact hlength

theorem length_le_of_parseJson {input : List UInt8} {envelope : Envelope}
    (h : parseJson input = .ok envelope) : envelope.ciphertext.length ≤ maxCiphertextBytes := by
  simp only [parseJson, EnvelopeWire.decode, Except.bind_eq_ok_iff] at h
  rcases h with ⟨_, _, wire, _, _, _, nonce, _, _, _, ciphertext, _, hnew⟩
  exact length_le_of_new hnew

def toJson (envelope : Envelope) : Json :=
  .object [
    numberMember "envelope_version" envelope.envelopeVersion.toNat,
    textMember "nonce" (Base64.encode envelope.nonce.toList),
    textMember "ciphertext" (Base64.encode envelope.ciphertext)
  ]

end Envelope

def LiveRecordIndexEntry.toJson (entry : LiveRecordIndexEntry) : Json :=
  .object [textMember "record_id" entry.recordId.encode, numberMember "revision" entry.revision]

def LiveRecordIndexEntry.ofJson (json : Json) : Option LiveRecordIndexEntry := do
  let members ← asStruct ["record_id", "revision"] json
  if onlyFields ["record_id", "revision"] members then
    let recordId ← required "record_id" members >>= asStr
    let recordId ← (RecordId.parse recordId).toOption
    let revision ← required "revision" members >>= asUnsigned (u64Max + 1)
    return { recordId, revision }
  else
    none

/--
`BoundedVecSeed`, which stops at the first element that is too many without looking into it.
-/
def boundedVec {α : Type} (max : Nat) (read : Json → Option α) (elements : List Json)
    : Option (List α) :=
  match elements, max with
  | [], _ => some []
  | _ :: _, 0 => none
  | element :: elements, max + 1 => do
    let value ← read element
    let values ← boundedVec max read elements
    return value :: values

namespace LiveRecordIndex

def toJson (index : LiveRecordIndex) : Json :=
  .object [(Bytes.ofString "records", .array (index.records.map LiveRecordIndexEntry.toJson))]

def ofJson (json : Json) : Option LiveRecordIndex := do
  let members ← asStruct ["records"] json
  if onlyFields ["records"] members then
    let elements ← required "records" members >>= asArray
    let records ← boundedVec maxLiveRecords LiveRecordIndexEntry.ofJson elements
    (LiveRecordIndex.new records).toOption
  else
    none

end LiveRecordIndex

def parseLiveRecordIndex (input : List UInt8) : Except ApiError LiveRecordIndex := do
  Except.ensure (!(input.length > maxApiBodyBytes)) .tooLarge
  Except.okOr (Json.parse input >>= LiveRecordIndex.ofJson) .invalidRequest

inductive ErrorCode where
  | invalidRequest
  | unauthorized
  | tooLarge
  | quotaExceeded
  | rateLimited
  | unavailable
  deriving DecidableEq

def ErrorCode.text (code : ErrorCode) : String :=
  match code with
  | .invalidRequest => "invalid_request"
  | .unauthorized => "unauthorized"
  | .tooLarge => "too_large"
  | .quotaExceeded => "quota_exceeded"
  | .rateLimited => "rate_limited"
  | .unavailable => "unavailable"

def ErrorCode.toJson (code : ErrorCode) : Json :=
  .object [textMember "code" (Bytes.ofString code.text)]

/-- The derived `Debug` of an `ErrorCode`. -/
def ErrorCode.debug (code : ErrorCode) : String :=
  match code with
  | .invalidRequest => "InvalidRequest"
  | .unauthorized => "Unauthorized"
  | .tooLarge => "TooLarge"
  | .quotaExceeded => "QuotaExceeded"
  | .rateLimited => "RateLimited"
  | .unavailable => "Unavailable"

def ErrorCode.ofText (text : List UInt8) : Option ErrorCode :=
  [invalidRequest, unauthorized, tooLarge, quotaExceeded, rateLimited, unavailable].find?
    fun code => Bytes.ofString code.text == text

/-- A unit variant is its name or an object that maps its name to `null`. -/
def ErrorCode.ofVariant (json : Json) : Option ErrorCode :=
  match json with
  | .string text _ => ofText text
  | .object [(text, .null)] => ofText text
  | _ => none

def ErrorCode.ofJson (json : Json) : Option ErrorCode := do
  let members ← asStruct ["code"] json
  if onlyFields ["code"] members then
    required "code" members >>= ofVariant
  else
    none

end Attached
