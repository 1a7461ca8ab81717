import Attached.Library.Except
import Attached.Protocol.Basic

/-!
This module contains what the client and the service exchange: encrypted envelopes and the index of
the live records of an account.
-/

open Std

namespace Attached

def envelopeVersion : UInt16 := 1

inductive ApiError where
  | invalidRequest
  | tooLarge
  deriving DecidableEq

/--
What the reader of a bounded body did with the stream: its result, its buffer after each chunk and
what it left of the stream.
-/
structure BodyRead (ε : Type) where
  result : Except ε (List UInt8)
  buffers : List (List UInt8)
  unread : List (Option (List UInt8))

def BodyRead.after {ε : Type} (output : List UInt8) (read : BodyRead ε) : BodyRead ε :=
  { read with buffers := output :: read.buffers }

structure Envelope where
  envelopeVersion : UInt16
  nonce : Vector UInt8 24
  ciphertext : List UInt8
  deriving DecidableEq

def Envelope.new (nonce : Vector UInt8 24) (ciphertext : List UInt8) : Except ApiError Envelope := do
  Except.ensure (ciphertext.length ≤ maxCiphertextBytes) .tooLarge
  return ⟨Attached.envelopeVersion, nonce, ciphertext⟩

structure LiveRecordIndexEntry where
  recordId : RecordId
  revision : Nat
  deriving DecidableEq

namespace LiveRecordIndex

def validate (records : List LiveRecordIndexEntry) : Except ApiError Unit := do
  Except.ensure (records.length ≤ maxLiveRecords) .invalidRequest
  Except.ensure (!records.any fun record => record.revision == 0) .invalidRequest
  Except.ensure (decide (records.IsChain fun a b => compare a.recordId b.recordId = .lt))
    .invalidRequest

end LiveRecordIndex

structure LiveRecordIndex where
  records : List LiveRecordIndexEntry
  valid : LiveRecordIndex.validate records = .ok ()

namespace LiveRecordIndex

def new (records : List LiveRecordIndexEntry) : Except ApiError LiveRecordIndex :=
  match h : validate records with
  | .ok () => .ok ⟨records, h⟩
  | .error e => .error e

theorem new_eq_ok_iff {records : List LiveRecordIndexEntry} {index : LiveRecordIndex}
    : new records = .ok index ↔ index.records = records := by
  unfold new
  split
  . next h =>
    constructor
    . intro heq
      injection heq with heq
      rw [← heq]
    . intro heq
      cases index
      simp only at heq
      subst heq
      rfl
  . next e h =>
    constructor
    . intro heq
      simp at heq
    . rintro rfl
      rw [index.valid] at h
      simp at h

theorem validate_eq_ok_iff {records : List LiveRecordIndexEntry}
    : validate records = .ok ()
        ↔
      records.length ≤ maxLiveRecords
        ∧ (∀ record ∈ records, record.revision ≠ 0)
        ∧ records.Pairwise fun a b => compare a.recordId b.recordId = .lt := by
  have : IsTrans LiveRecordIndexEntry fun a b => compare a.recordId b.recordId = .lt := by
    constructor
    intro a b c
    exact TransCmp.lt_trans
  simp [validate, List.isChain_iff_pairwise]

theorem nodup (index : LiveRecordIndex)
    : (index.records.map LiveRecordIndexEntry.recordId).Nodup := by
  have hpairwise := (validate_eq_ok_iff.mp index.valid).2.2
  rw [List.nodup_iff_pairwise_ne, List.pairwise_map]
  apply hpairwise.imp
  intro a b hlt heq
  rw [heq] at hlt
  simp at hlt

end LiveRecordIndex

end Attached
