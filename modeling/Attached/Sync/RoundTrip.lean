import Attached.Protocol.ApiJsonLemmas
import Attached.Sync.CachedRefresh
import Attached.Worker.StorageLemmas

/-!
This module contains the way of a descriptor from the machine that publishes it through the service to
the clients that discover it. The limits of all layers fit together, and an envelope opens for nobody
but the readers it was sealed for.
-/

namespace Attached

theorem envelopeAad_inj {accountId accountId' : AccountId} {recordId recordId' : RecordId}
    : envelopeAad accountId recordId = envelopeAad accountId' recordId'
        ↔
      accountId = accountId' ∧ recordId = recordId' := by
  constructor
  . intro h
    simp only [envelopeAad, List.append_assoc, List.append_cancel_left_eq] at h
    have haccount := List.append_inj_left h (by simp)
    have hrecord := List.append_inj_left (List.append_inj_right h (by simp)) (by simp)
    cases accountId
    cases accountId'
    cases recordId
    cases recordId'
    rw [Vector.toList_inj] at haccount hrecord
    exact ⟨congrArg _ haccount, congrArg _ hrecord⟩
  . rintro ⟨rfl, rfl⟩
    rfl

section

variable {Ticket : Type} {iroh : Iroh Ticket} {primitives : SealingPrimitives}
  {sealed : Set (Aead.Sealing (Vector UInt8 32) (Vector UInt8 24))}
  {accountRootKey key : Vector UInt8 32} {accountId : AccountId} {recordId : RecordId}
  {nonce : Vector UInt8 24} {descriptor : HostAccessDescriptor iroh} {envelope : CryptoEnvelope}

def sealingOf (key : Vector UInt8 32) (accountId : AccountId) (recordId : RecordId)
    (nonce : Vector UInt8 24) (descriptor : HostAccessDescriptor iroh)
    : Aead.Sealing (Vector UInt8 32) (Vector UInt8 24) where
  key := key
  nonce := nonce
  aad := envelopeAad accountId recordId
  plaintext := descriptor.encoding

theorem sealHostAccessDescriptorWithNonce_eq_ok_iff
    (hkey : deriveHostAccessDescriptorKey primitives.toPrimitives accountRootKey accountId = .ok key)
    : sealHostAccessDescriptorWithNonce primitives descriptor accountRootKey accountId recordId nonce
          = .ok envelope
        ↔
      (sealingOf key accountId recordId nonce descriptor).ciphertext primitives.aead
          = some envelope.ciphertext
        ∧ envelope.ciphertext.length ≤ maxCiphertextBytes
        ∧ envelope.nonce = nonce := by
  simp only [sealHostAccessDescriptorWithNonce, encodeHostAccessDescriptor_eq, hkey, Except.ok_bind,
    Except.bind_eq_ok_iff, Except.okOr_eq_ok_iff, CryptoEnvelope.new_eq_ok_iff]
  constructor
  . rintro ⟨ciphertext, hencrypt, hlength, rfl⟩
    exact ⟨hencrypt, hlength, rfl⟩
  . rintro ⟨hencrypt, hlength, rfl⟩
    exact ⟨envelope.ciphertext, hencrypt, hlength, rfl⟩

theorem exists_sealHostAccessDescriptorWithNonce (hideal : primitives.aead.Ideal 16 sealed)
    (hkey : deriveHostAccessDescriptorKey primitives.toPrimitives accountRootKey accountId = .ok key)
    (descriptor : HostAccessDescriptor iroh) (recordId : RecordId) (nonce : Vector UInt8 24)
    : ∃ envelope,
        sealHostAccessDescriptorWithNonce primitives descriptor accountRootKey accountId recordId nonce
          = .ok envelope := by
  rcases hideal.exists_encrypt key nonce (envelopeAad accountId recordId) descriptor.encoding with
    ⟨ciphertext, hencrypt, hlength⟩
  have hplaintext := DescriptorFields.length_encoding_le descriptor.readable
  refine ⟨⟨nonce, ciphertext⟩, (sealHostAccessDescriptorWithNonce_eq_ok_iff hkey).mpr
    ⟨hencrypt, ?_, rfl⟩⟩
  dsimp only
  simp only [hlength, maxHostAccessDescriptorBytes, maxCiphertextBytes] at *
  omega

def NeverOpens (iroh : Iroh Ticket) (primitives : Primitives) (envelope : CryptoEnvelope)
    (accountRootKey : Vector UInt8 32) (accountId : AccountId) (recordId : RecordId) : Prop :=
  ∀ now, ∃ error,
    openHostAccessDescriptor iroh primitives envelope accountRootKey ⟨accountId, recordId, now⟩
      = .error error

theorem neverOpens_of_decrypt {primitives : Primitives}
    (h : ∀ key plaintext, deriveHostAccessDescriptorKey primitives accountRootKey accountId = .ok key →
      primitives.aeadDecrypt key envelope.nonce (envelopeAad accountId recordId) envelope.ciphertext
        ≠ some plaintext)
    : NeverOpens iroh primitives envelope accountRootKey accountId recordId := by
  intro now
  cases hopen : openHostAccessDescriptor iroh primitives envelope accountRootKey
      ⟨accountId, recordId, now⟩ with
  | error error => exact ⟨error, rfl⟩
  | ok descriptor =>
    have hdecrypt := (openHostAccessDescriptor_eq_ok_iff.mp hopen).1
    simp only [decryptHostAccessDescriptor, Except.bind_eq_ok_iff, Except.okOr_eq_ok_iff] at hdecrypt
    rcases hdecrypt with ⟨_, _, key, hkey, plaintext, hplaintext, _⟩
    exact absurd hplaintext (h key plaintext hkey)

theorem openHostAccessDescriptor_of_sealed (hideal : primitives.aead.Ideal 16 sealed)
    (hkey : deriveHostAccessDescriptorKey primitives.toPrimitives accountRootKey accountId = .ok key)
    (hmem : sealingOf key accountId recordId nonce descriptor ∈ sealed)
    (hseal : sealHostAccessDescriptorWithNonce primitives descriptor accountRootKey accountId recordId
      nonce = .ok envelope)
    (now : DateTime)
    : openHostAccessDescriptor iroh primitives.toPrimitives envelope accountRootKey
          ⟨accountId, recordId, now⟩
        =
      match now.checkedAddSeconds maxFutureClockSkew with
      | none => .error .invalidField
      | some latest =>
        if descriptor.issuedAt ≤ latest ∧ now < descriptor.expiresAt then .ok descriptor
        else .error .expired := by
  rcases (sealHostAccessDescriptorWithNonce_eq_ok_iff hkey).mp hseal with ⟨hencrypt, hlength, rfl⟩
  have hplaintext : primitives.toPrimitives.aeadDecrypt key envelope.nonce
      (envelopeAad accountId recordId) envelope.ciphertext = some descriptor.encoding :=
    hideal.decrypt_iff.mpr ⟨hmem, hencrypt⟩
  have hdecrypt : decryptHostAccessDescriptor iroh primitives.toPrimitives envelope accountRootKey
      accountId recordId = .ok descriptor := by
    simp only [decryptHostAccessDescriptor, Except.bind_eq_ok_iff, Except.okOr_eq_ok_iff,
      Except.ensure_eq_ok_iff, decide_eq_true_eq, decodeHostAccessDescriptor_eq_ok_iff]
    exact ⟨(), hlength, key, hkey, _, hplaintext, rfl⟩
  unfold openHostAccessDescriptor
  dsimp only
  rw [hdecrypt, Except.ok_bind]
  cases now.checkedAddSeconds maxFutureClockSkew with
  | none => rfl
  | some latest =>
    dsimp only
    split
    . next h =>
      have hissued : ¬ descriptor.issuedAt > latest := not_lt_of_ge (α := Int) h.left
      have hexpires : ¬ now ≥ descriptor.expiresAt := not_le_of_gt (α := Int) h.right
      simp [Except.okOr, Except.ok_bind, Except.ensure, hissued, hexpires, pure, Except.pure]
    . next h =>
      have hlate : descriptor.issuedAt > latest ∨ now ≥ descriptor.expiresAt := by
        rw [not_and_or] at h
        exact h.imp (not_le (α := Int)).mp (not_lt (α := Int)).mp
      rcases hlate with hlate | hlate
      . simp [Except.okOr, Except.ensure, hlate, bind, Except.bind]
      . simp [Except.okOr, Except.ensure, hlate, bind, Except.bind]

theorem neverOpens_of_context (hideal : primitives.aead.Ideal 16 sealed)
    (hkey : deriveHostAccessDescriptorKey primitives.toPrimitives accountRootKey accountId = .ok key)
    (hmem : sealingOf key accountId recordId nonce descriptor ∈ sealed)
    (hseal : sealHostAccessDescriptorWithNonce primitives descriptor accountRootKey accountId recordId
      nonce = .ok envelope)
    (hinjective : ∀ accountRootKey' accountId',
      deriveHostAccessDescriptorKey primitives.toPrimitives accountRootKey' accountId' = .ok key →
      accountRootKey' = accountRootKey ∧ accountId' = accountId)
    {accountRootKey' : Vector UInt8 32} {accountId' : AccountId} {recordId' : RecordId}
    (hcontext : accountRootKey' ≠ accountRootKey ∨ accountId' ≠ accountId ∨ recordId' ≠ recordId)
    : NeverOpens iroh primitives.toPrimitives envelope accountRootKey' accountId' recordId' := by
  rcases (sealHostAccessDescriptorWithNonce_eq_ok_iff hkey).mp hseal with ⟨hencrypt, _, rfl⟩
  apply neverOpens_of_decrypt
  intro key' plaintext hkey' hdecrypt
  rcases hideal.decrypt_context hmem hencrypt hdecrypt with ⟨rfl, _, haad, _⟩
  rcases hinjective _ _ hkey' with ⟨hroot, haccount⟩
  rcases hcontext with hne | hne | hne
  . exact hne hroot
  . exact hne haccount
  . exact hne (envelopeAad_inj.mp haad).right

theorem neverOpens_of_changed (hideal : primitives.aead.Ideal 16 sealed)
    (hfresh : Aead.FreshNonces sealed)
    (hkey : deriveHostAccessDescriptorKey primitives.toPrimitives accountRootKey accountId = .ok key)
    (hmem : sealingOf key accountId recordId nonce descriptor ∈ sealed)
    (hseal : sealHostAccessDescriptorWithNonce primitives descriptor accountRootKey accountId recordId
      nonce = .ok envelope)
    {changed : CryptoEnvelope} (hne : changed ≠ envelope)
    (hshared : changed.nonce = envelope.nonce ∨ changed.ciphertext = envelope.ciphertext)
    : NeverOpens iroh primitives.toPrimitives changed accountRootKey accountId recordId := by
  rcases (sealHostAccessDescriptorWithNonce_eq_ok_iff hkey).mp hseal with ⟨hencrypt, _, rfl⟩
  apply neverOpens_of_decrypt
  intro key' plaintext hkey' hdecrypt
  rw [hkey] at hkey'
  cases hkey'
  apply hne
  rcases changed with ⟨nonce, ciphertext⟩
  rcases hshared with hnonce | hciphertext
  . cases hnonce
    have hsame := hideal.decrypt_ciphertext hfresh hmem hencrypt hdecrypt
    exact congrArg _ hsame
  . cases hciphertext
    rcases hideal.decrypt_context hmem hencrypt hdecrypt with ⟨_, hnonce, _, _⟩
    exact congrArg (CryptoEnvelope.mk · _) hnonce

theorem exists_put_iff {current : Option StoredRecord} {body : Envelope}
    (hversion : body.envelopeVersion = 1) (hlength : body.ciphertext.length ≤ maxCiphertextBytes)
    : (∃ record outcome, put current body = .ok (record, outcome))
        ↔
      ∀ record ∈ current, record.revision < i64Max := by
  constructor
  . rintro ⟨record, outcome, hput⟩ old hold
    rcases put_eq_ok_iff.mp hput with ⟨_, houtcome, hrevision, _⟩
    have hrecord := (StoredRecord.validate_eq_ok_iff.mp record.valid).2.1
    rw [Option.mem_def.mp hold] at houtcome
    rw [hrevision, houtcome] at hrecord
    exact hrecord
  . intro hcurrent
    have hvalid : StoredRecord.validate (expectedOutcome (current.map StoredRecord.revision)).revision
        body.ciphertext = .ok () := by
      rw [StoredRecord.validate_eq_ok_iff]
      cases current with
      | none => exact ⟨Nat.one_pos, by decide, hlength⟩
      | some old => exact ⟨Nat.succ_pos _, hcurrent old rfl, hlength⟩
    exact ⟨⟨_, body.nonce, body.ciphertext, hvalid⟩, _,
      put_eq_ok_iff.mpr ⟨hversion, rfl, rfl, rfl, rfl⟩⟩

theorem intoEnvelope_of_put {current : Option StoredRecord} {body : Envelope} {record : StoredRecord}
    {outcome : MutationOutcome} (hput : put current body = .ok (record, outcome))
    : record.intoEnvelope.1 = body := by
  rcases put_eq_ok_iff.mp hput with ⟨hversion, _, _, hnonce, hciphertext⟩
  rcases body with ⟨version, nonce, ciphertext⟩
  simp only at hversion hnonce hciphertext
  rw [StoredRecord.intoEnvelope, hnonce, hciphertext, hversion]

theorem publish_discover_round_trip (hideal : primitives.aead.Ideal 16 sealed)
    (hfresh : Aead.FreshNonces sealed)
    (hderives : ∀ accountRootKey accountId, ∃ key,
      deriveHostAccessDescriptorKey primitives.toPrimitives accountRootKey accountId = .ok key)
    (descriptor : HostAccessDescriptor iroh) (accountRootKey : Vector UInt8 32) (accountId : AccountId)
    (recordId : RecordId) (nonce : Vector UInt8 24)
    : ∃ key envelope body,
        deriveHostAccessDescriptorKey primitives.toPrimitives accountRootKey accountId = .ok key
          ∧ sealHostAccessDescriptor primitives descriptor accountRootKey accountId recordId (some nonce)
              = .ok envelope
          ∧ Envelope.new envelope.nonce envelope.ciphertext = .ok body
          ∧ body.toJson.print.length ≤ maxApiBodyBytes
          ∧ Envelope.parseJson body.toJson.print = .ok body
          ∧ (∀ current,
            ((∃ record outcome, put current body = .ok (record, outcome))
              ↔ ∀ record ∈ current, record.revision < i64Max)
            ∧ ∀ record outcome, put current body = .ok (record, outcome) →
              record.intoEnvelope.1 = body)
          ∧ body.nonce = nonce
          ∧ CryptoEnvelope.new body.nonce body.ciphertext = .ok envelope
          ∧ (sealingOf key accountId recordId nonce descriptor ∈ sealed →
            (∀ now : DateTime,
              openHostAccessDescriptor iroh primitives.toPrimitives envelope accountRootKey
                  ⟨accountId, recordId, now⟩
                =
              match now.checkedAddSeconds 60 with
              | none => .error .invalidField
              | some latest =>
                if descriptor.issuedAt ≤ latest ∧ now < descriptor.expiresAt then .ok descriptor
                else .error .expired)
            ∧ ((∀ accountRootKey' accountId',
                deriveHostAccessDescriptorKey primitives.toPrimitives accountRootKey' accountId' = .ok key →
                accountRootKey' = accountRootKey ∧ accountId' = accountId) →
              ∀ accountRootKey' accountId' recordId',
                accountRootKey' ≠ accountRootKey ∨ accountId' ≠ accountId ∨ recordId' ≠ recordId →
                NeverOpens iroh primitives.toPrimitives envelope accountRootKey' accountId' recordId')
            ∧ ∀ changed : CryptoEnvelope, changed ≠ envelope →
              changed.nonce = envelope.nonce ∨ changed.ciphertext = envelope.ciphertext →
              NeverOpens iroh primitives.toPrimitives changed accountRootKey accountId recordId) := by
  rcases hderives accountRootKey accountId with ⟨key, hkey⟩
  rcases exists_sealHostAccessDescriptorWithNonce hideal hkey descriptor recordId nonce with
    ⟨envelope, hseal⟩
  rcases (sealHostAccessDescriptorWithNonce_eq_ok_iff hkey).mp hseal with ⟨_, hlength, rfl⟩
  have hbody : Envelope.new envelope.nonce envelope.ciphertext
      = .ok ⟨envelopeVersion, envelope.nonce, envelope.ciphertext⟩ := by
    simp [Envelope.new, Except.ensure, hlength, bind, Except.bind, pure, Except.pure]
  refine ⟨key, envelope, _, hkey, hseal, hbody,
    Envelope.length_toJson_le (Envelope.length_le_of_new hbody), Envelope.parseJson_toJson hbody,
    fun current => ⟨exists_put_iff rfl hlength, fun record outcome => intoEnvelope_of_put⟩, rfl,
    CryptoEnvelope.new_eq_ok_iff.mpr ⟨hlength, rfl⟩, fun hmem => ⟨?_, ?_, ?_⟩⟩
  . intro now
    exact openHostAccessDescriptor_of_sealed hideal hkey hmem hseal now
  . intro hinjective accountRootKey' accountId' recordId' hcontext
    exact neverOpens_of_context hideal hkey hmem hseal hinjective hcontext
  . intro changed hne hshared
    exact neverOpens_of_changed hideal hfresh hkey hmem hseal hne hshared

end

namespace Fixture

def onlyDescriptor (descriptor : HostAccessDescriptor iroh)
    : Aead.Sealing (Vector UInt8 32) (Vector UInt8 24) :=
  sealingOf descriptorKey account.accountId (recordId 1) (.replicate 24 9) descriptor

def ledgerPrimitives (descriptor : HostAccessDescriptor iroh) : SealingPrimitives where
  hkdfExpand salt key _ :=
    if salt = account.accountId.bytes.toList ∧ key = account.accountRootKey.toList then
      some descriptorKey
    else
      some (.replicate 32 0)
  aead := Aead.ledger (onlyDescriptor descriptor) (List.replicate 16 0)

theorem derive_ledgerPrimitives (descriptor : HostAccessDescriptor iroh)
    (accountRootKey : Vector UInt8 32) (accountId : AccountId)
    : ∃ key, deriveHostAccessDescriptorKey (ledgerPrimitives descriptor).toPrimitives accountRootKey
        accountId = .ok key := by
  unfold deriveHostAccessDescriptorKey ledgerPrimitives SealingPrimitives.toPrimitives
  dsimp only
  split
  . exact ⟨_, rfl⟩
  . exact ⟨_, rfl⟩

theorem ledgerPrimitives_injective (descriptor : HostAccessDescriptor iroh)
    {accountRootKey : Vector UInt8 32} {accountId : AccountId}
    (h : deriveHostAccessDescriptorKey (ledgerPrimitives descriptor).toPrimitives accountRootKey accountId
      = .ok descriptorKey)
    : accountRootKey = account.accountRootKey ∧ accountId = account.accountId := by
  unfold deriveHostAccessDescriptorKey ledgerPrimitives SealingPrimitives.toPrimitives at h
  dsimp only at h
  split at h
  . next heq =>
    rw [Vector.toList_inj, Vector.toList_inj] at heq
    cases accountId
    exact ⟨heq.right, congrArg _ heq.left⟩
  . exact absurd (Except.ok.inj h) (by decide)

def lastDescriptor : HostAccessDescriptor iroh where
  toDescriptorFields := lastDescriptorFields
  valid := by decide +kernel

end Fixture

theorem publish_discover_round_trip_office
    : ∃ envelope,
        sealHostAccessDescriptor (Fixture.ledgerPrimitives Fixture.descriptor) Fixture.descriptor
            Fixture.account.accountRootKey Fixture.account.accountId (Fixture.recordId 1)
            (some (.replicate 24 9)) = .ok envelope
          ∧ openHostAccessDescriptor Fixture.iroh
              (Fixture.ledgerPrimitives Fixture.descriptor).toPrimitives envelope
              Fixture.account.accountRootKey
              ⟨Fixture.account.accountId, Fixture.recordId 1, Fixture.time 200⟩
            = .ok Fixture.descriptor
          ∧ NeverOpens Fixture.iroh (Fixture.ledgerPrimitives Fixture.descriptor).toPrimitives envelope
              Fixture.account.accountRootKey Fixture.account.accountId (Fixture.recordId 2) := by
  have hideal : (Fixture.ledgerPrimitives Fixture.descriptor).aead.Ideal 16
      {Fixture.onlyDescriptor Fixture.descriptor} :=
    Aead.ideal_ledger _ (List.replicate 16 0)
  rcases publish_discover_round_trip hideal (Aead.freshNonces_singleton _)
    (Fixture.derive_ledgerPrimitives Fixture.descriptor) Fixture.descriptor
    Fixture.account.accountRootKey Fixture.account.accountId (Fixture.recordId 1) (.replicate 24 9) with ⟨key, envelope, body, hkey, hseal, _, _, _, _, _, _, hopen⟩
  have hderived : deriveHostAccessDescriptorKey
      (Fixture.ledgerPrimitives Fixture.descriptor).toPrimitives Fixture.account.accountRootKey
      Fixture.account.accountId = .ok Fixture.descriptorKey := by
    decide +kernel
  rw [hderived] at hkey
  cases hkey
  rcases hopen rfl with ⟨hclock, hcontext, _⟩
  refine ⟨envelope, hseal, ?_, ?_⟩
  . rw [hclock]
    decide +kernel
  . exact hcontext (fun _ _ => Fixture.ledgerPrimitives_injective Fixture.descriptor) _ _ _
      (.inr (.inr (by decide)))

/--
In the last minute that `chrono` represents the latest acceptable issue time is not representable, so
a valid descriptor does not open.
-/
theorem publish_discover_last
    : ∃ envelope,
        (Fixture.ledgerPrimitives Fixture.lastDescriptor).aead.Ideal 16
            {Fixture.onlyDescriptor Fixture.lastDescriptor}
          ∧ sealHostAccessDescriptor (Fixture.ledgerPrimitives Fixture.lastDescriptor)
              Fixture.lastDescriptor Fixture.account.accountRootKey Fixture.account.accountId
              (Fixture.recordId 1) (some (.replicate 24 9)) = .ok envelope
          ∧ Fixture.lastDescriptor.issuedAt.nanos
              ≤ (Fixture.lastTime 960).nanos + 60 * DateTime.nanosPerSecond
          ∧ Fixture.lastTime 960 < Fixture.lastDescriptor.expiresAt
          ∧ openHostAccessDescriptor Fixture.iroh
              (Fixture.ledgerPrimitives Fixture.lastDescriptor).toPrimitives envelope
              Fixture.account.accountRootKey
              ⟨Fixture.account.accountId, Fixture.recordId 1, Fixture.lastTime 960⟩
            = .error .invalidField := by
  refine ⟨⟨.replicate 24 9, Fixture.lastDescriptor.encoding ++ List.replicate 16 0⟩,
    Aead.ideal_ledger _ (List.replicate 16 0), ?_, ?_, ?_, ?_⟩
  . decide +kernel
  . decide +kernel
  . decide +kernel
  . decide +kernel

end Attached
