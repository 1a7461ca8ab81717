import Attached.Local.Account
import Attached.Local.Migration

/-!
This module contains what the operations on the stored account reveal and change: an exported publish
bundle shows nothing of the download credentials, and an imported bundle is exported as it was.
-/

namespace Attached

open LocalEncryption

namespace SecretStore

variable {α β : Type} {aead : Aead (Vector UInt8 32) (Vector UInt8 nonceBytes)}
  {store : SecretStore α} {io : LocalIo}

theorem decode_of_loadStored {stored : List UInt8} {value : α} {file file' : StateFile}
    (h : (store.loadStored aead io stored).run file = (.ok value, file'))
    : ∃ plaintext, store.decode plaintext = .ok value := by
  unfold loadStored at h
  split at h
  . simp only [Effect.run_bind_eq_ok_iff, Effect.run_lift, Prod.mk.injEq] at h
    rcases h with ⟨_, _, _, plaintext, _, _, hdecode, _⟩
    exact ⟨plaintext, hdecode⟩
  . simp only [Effect.run_bind_eq_ok_iff, Effect.run_lift, Effect.run_pure, Prod.mk.injEq,
      Except.ok.injEq] at h
    rcases h with ⟨_, _, ⟨hdecode, _⟩, _, _, _, rfl, _⟩
    exact ⟨stored, hdecode⟩

end SecretStore

namespace AccountFile

variable {aead : Aead (Vector UInt8 32) (Vector UInt8 nonceBytes)} {crates : AccountCrates}
  {io : LocalIo}

theorem encode_eq_ok (bundle : AccountBundle crates)
    : encode bundle = .ok (Base64.encode bundle.wire.toVec) := by
  rw [encode, AccountBundle.encode_eq_ok]
  rfl

theorem valid_of_load {file after : StateFile} {bundle : AccountBundle crates}
    (h : (loadStoredAccountWithStore aead crates io).run file = (.ok (some bundle), after))
    : bundle.Valid := by
  rw [loadStoredAccountWithStore_eq] at h
  cases file with
  | none =>
    simp only [SecretStore.load, Effect.run_bind_eq_ok_iff, Effect.run_lift, Prod.mk.injEq] at h
    rcases h with ⟨_, _, ⟨_, rfl⟩, found, _, hread, hrest⟩
    cases (SecretStore.readSecretOptionalBounded_none_eq_ok hread).1
    cases hrest
  | some stored =>
    rcases SecretStore.load_eq_ok h with ⟨value, hvalue, hstored⟩
    cases hvalue
    rcases SecretStore.decode_of_loadStored hstored with ⟨plaintext, hdecode⟩
    exact (AccountBundle.parse_eq_ok_iff.mp (Except.mapError_eq_ok_iff.mp hdecode)).1

theorem run_export {file after : StateFile} {bundle : AccountBundle crates} {scope : ApiKeyScope}
    (h : (loadStoredAccountWithStore aead crates io).run file = (.ok (some bundle), after))
    : (exportAccountWithStore aead crates io scope).run file
        =
      ((intoExportScope bundle scope).bind fun bundle => encode (.scoped bundle), after) := by
  unfold exportAccountWithStore
  rw [Effect.run_bind_of_ok h]
  change (Effect.lift (intoExportScope bundle scope) >>= fun bundle =>
    Effect.lift (encode (.scoped bundle))).run after = _
  rw [Effect.bind_def, Effect.run_lift]
  cases intoExportScope bundle scope with
  | error e => rfl
  | ok bundle => rfl

theorem intoExportScope_owner (owner : OwnerAccountBundle crates) (scope : ApiKeyScope)
    : intoExportScope (.owner owner) scope = .ok (owner.scoped scope) := by
  cases scope with
  | publish => rfl
  | download => rfl

theorem intoExportScope_scoped (bundle : ScopedAccountBundle crates) (scope : ApiKeyScope)
    : intoExportScope (.scoped bundle) scope
        =
      if scope = bundle.apiKeyScope then
        .ok bundle
      else
        .error (.error ("the configured account bundle is " ++ scopeName bundle.apiKeyScope
          ++ "-only; a " ++ scopeName scope ++ " bundle is required")) := by
  rcases bundle with ⟨_, _, own, _, _, _, _⟩
  cases own <;> cases scope <;> rfl

theorem scoped_publish_congr {owner owner' : OwnerAccountBundle crates}
    (horigin : owner.serviceOrigin = owner'.serviceOrigin) (hid : owner.accountId = owner'.accountId)
    (htoken : owner.publishApiToken = owner'.publishApiToken)
    (hkey : owner.accountRootKey = owner'.accountRootKey)
    (hidentity : owner.consumerIdentitySecret.authorizedIdentity crates
      = owner'.consumerIdentitySecret.authorizedIdentity crates)
    : owner.scoped .publish = owner'.scoped .publish := by
  simp only [OwnerAccountBundle.scoped, horigin, hid, htoken, hkey, hidentity, reduceCtorEq, if_false]

theorem run_export_owner {file after : StateFile} {owner : OwnerAccountBundle crates}
    {scope : ApiKeyScope}
    (h : (loadStoredAccountWithStore aead crates io).run file = (.ok (some (.owner owner)), after))
    : (exportAccountWithStore aead crates io scope).run file
        =
      (.ok (Base64.encode (AccountBundle.scoped (owner.scoped scope)).wire.toVec), after) := by
  rw [run_export h, intoExportScope_owner, Except.bind, encode_eq_ok]

theorem parse_export_owner {file after : StateFile} {owner : OwnerAccountBundle crates}
    (scope : ApiKeyScope)
    (h : (loadStoredAccountWithStore aead crates io).run file = (.ok (some (.owner owner)), after))
    : AccountBundle.parse crates
          (Base64.encode (AccountBundle.scoped (owner.scoped scope)).wire.toVec)
        =
      .ok (.scoped (owner.scoped scope)) := by
  apply AccountBundle.parse_eq_ok_iff.mpr
  exact ⟨OwnerAccountBundle.valid_scoped (valid_of_load h) scope,
    Or.inl (AccountBundle.encode_eq_ok _)⟩

/-- The file is an envelope that opens to `encoded`. -/
def Holds (aead : Aead (Vector UInt8 32) (Vector UInt8 nonceBytes)) (key : Vector UInt8 32)
    (file : StateFile) (encoded : List UInt8) : Prop :=
  ∃ stored, file = some stored
    ∧ isEnvelope stored = true
    ∧ openSecret aead key .syncAccount stored maxAccountStateBytes = .ok encoded

theorem length_le_of_open {key : Vector UInt8 32} {stored encoded : List UInt8}
    (h : openSecret aead key .syncAccount stored maxAccountStateBytes = .ok encoded)
    : stored.length ≤ storedLimit maxAccountStateBytes := by
  rcases openSecret_eq_ok_iff.mp h with ⟨_, _, nonce, ciphertext, rfl, _, hlength, _⟩
  rw [length_layout, storedLimit]
  omega

theorem run_read_of_open {key : Vector UInt8 32} {stored encoded : List UInt8}
    (hread : io.read = .ok ())
    (h : openSecret aead key .syncAccount stored maxAccountStateBytes = .ok encoded)
    : (io.readSecretOptionalBounded accountFile (storedLimit maxAccountStateBytes)).run (some stored)
        =
      (.ok (some stored), some stored) :=
  SecretStore.run_readSecretOptionalBounded hread (length_le_of_open h)

theorem run_decrypt_of_open {key : Vector UInt8 32} {stored encoded : List UInt8}
    (migrateLegacy : Bool) (henvelope : isEnvelope stored = true)
    (hopen : openSecret aead key .syncAccount stored maxAccountStateBytes = .ok encoded)
    (hkey : io.masterKey false = .ok key)
    : (decryptAccountWithStore aead crates io stored migrateLegacy).run (some stored)
        =
      (.ok encoded, some stored) := by
  unfold decryptAccountWithStore
  rw [if_pos henvelope, hkey, Effect.run_bind_of_ok (Effect.run_lift _ _), Effect.run_lift, hopen]

theorem run_load_of_holds {key : Vector UInt8 32} {file : StateFile} {encoded : List UInt8}
    {bundle : AccountBundle crates} (h : Holds aead key file encoded)
    (hparse : AccountBundle.parse crates encoded = .ok bundle) (hlock : io.lock = .ok ())
    (hread : io.read = .ok ()) (hkey : io.masterKey false = .ok key)
    : (loadStoredAccountWithStore aead crates io).run file = (.ok (some bundle), file) := by
  rcases h with ⟨stored, rfl, henvelope, hopen⟩
  have hdecode : parse crates encoded = .ok bundle := Except.mapError_eq_ok_iff.mpr hparse
  unfold loadStoredAccountWithStore
  rw [hlock, Effect.run_bind_of_ok (Effect.run_lift _ _),
    Effect.run_bind_of_ok (run_read_of_open hread hopen)]
  dsimp only
  rw [Effect.run_bind_of_ok (run_decrypt_of_open true henvelope hopen hkey), hdecode]
  rfl

theorem run_import_of_holds {key : Vector UInt8 32} {file : StateFile} {encoded : List UInt8}
    {bundle : ScopedAccountBundle crates} (h : Holds aead key file encoded)
    (hparse : AccountBundle.parse crates encoded = .ok (.scoped bundle)) (hlock : io.lock = .ok ())
    (hread : io.read = .ok ()) (hkey : io.masterKey false = .ok key)
    : (importAccount aead crates io encoded).run file = (.ok (), file) := by
  rcases h with ⟨stored, rfl, henvelope, hopen⟩
  have hinput : parseInput crates encoded = .ok (.scoped bundle) :=
    Except.mapError_eq_ok_iff.mpr hparse
  have hlength : encoded.length ≤ maxAccountStateBytes := (openSecret_eq_ok_iff.mp hopen).2.1
  unfold importAccount installAccount installExisting
  rw [hinput, Effect.run_bind_of_ok (Effect.run_lift _ _)]
  dsimp only
  rw [Effect.run_ensure_bind (decide_eq_true hlength), hlock,
    Effect.run_bind_of_ok (Effect.run_lift _ _),
    Effect.run_bind_of_ok (run_read_of_open hread hopen)]
  dsimp only
  rw [Effect.run_bind_of_ok (run_decrypt_of_open false henvelope hopen hkey), henvelope,
    if_pos (by simp)]
  rfl

def Reopens (aead : Aead (Vector UInt8 32) (Vector UInt8 nonceBytes)) (key : Vector UInt8 32)
    (random : Option (Vector UInt8 nonceBytes)) (encoded : List UInt8) : Prop :=
  ∀ encrypted,
    sealSecret aead key .syncAccount encoded maxAccountStateBytes random = .ok encrypted →
    openSecret aead key .syncAccount encrypted maxAccountStateBytes = .ok encoded

theorem reopens_of_ideal {sealed : Set (Aead.Sealing (Vector UInt8 32) (Vector UInt8 nonceBytes))}
    {key : Vector UInt8 32} {encoded : List UInt8} {random : Option (Vector UInt8 nonceBytes)}
    (hideal : aead.Ideal tagBytes sealed)
    (hsealed : ∀ nonce, random = some nonce →
      ⟨key, nonce, associatedData .syncAccount, encoded⟩ ∈ sealed)
    : Reopens aead key random encoded := by
  intro encrypted hseal
  rcases sealSecret_eq_ok_iff.mp hseal with ⟨_, nonce, _, hnonce, _⟩
  rw [hnonce] at hseal
  exact openSecret_sealSecret hideal (by decide) (hsealed nonce hnonce) hseal

theorem reopens_of_correct {key : Vector UInt8 32} (hcorrect : aead.Correct tagBytes)
    (random : Option (Vector UInt8 nonceBytes)) (encoded : List UInt8)
    : Reopens aead key random encoded :=
  fun _ hseal => openSecret_of_correct hcorrect (by decide) hseal

theorem holds_of_seal {key : Vector UInt8 32} {encoded encrypted : List UInt8}
    (hreopens : Reopens aead key io.random encoded)
    (hseal : sealSecret aead key .syncAccount encoded maxAccountStateBytes io.random
      = .ok encrypted)
    : Holds aead key (some encrypted) encoded := by
  rcases sealSecret_eq_ok_iff.mp hseal with ⟨_, nonce, ciphertext, _, _, hlayout⟩
  refine ⟨encrypted, rfl, ?_, hreopens encrypted hseal⟩
  rw [hlayout]
  exact isEnvelope_layout nonce ciphertext

theorem installAbsent_eq_ok {encoded : List UInt8} {file file' : StateFile}
    (h : (installAbsent aead io encoded).run file = (.ok (), file'))
    : ∃ key encrypted, io.masterKey true = .ok key
        ∧ sealSecret aead key .syncAccount encoded maxAccountStateBytes io.random = .ok encrypted
        ∧ file = none
        ∧ file' = some encrypted := by
  simp only [installAbsent, Effect.run_bind_eq_ok_iff, Effect.run_lift, Prod.mk.injEq] at h
  rcases h with ⟨key, _, ⟨hkey, rfl⟩, encrypted, _, ⟨hseal, rfl⟩, created, after, hcreate, hrest⟩
  rcases SecretStore.createNoclobber_eq_ok hcreate with ⟨rfl, rfl, rfl⟩ | ⟨rfl, _, _⟩
  . cases hrest
    exact ⟨key, encrypted, hkey, hseal, rfl, rfl⟩
  . cases hrest

theorem installExisting_eq_ok {existing encoded : List UInt8} {allowIdempotent : Bool}
    {file' : StateFile}
    (h : (installExisting aead crates io existing encoded allowIdempotent).run (some existing)
      = (.ok (), file'))
    : allowIdempotent = true
        ∧ ((isEnvelope existing = true
            ∧ file' = some existing
            ∧ ∃ key, io.masterKey false = .ok key
              ∧ openSecret aead key .syncAccount existing maxAccountStateBytes = .ok encoded)
          ∨ (isEnvelope existing = false
            ∧ existing = encoded
            ∧ ∃ key encrypted, io.masterKey true = .ok key
              ∧ sealSecret aead key .syncAccount encoded maxAccountStateBytes io.random
                = .ok encrypted
              ∧ file' = some encrypted)) := by
  unfold installExisting decryptAccountWithStore at h
  cases henvelope : isEnvelope existing with
  | true =>
    rw [henvelope, if_pos rfl] at h
    simp only [Effect.run_bind_eq_ok_iff, Effect.run_lift, Prod.mk.injEq] at h
    rcases h with ⟨plaintext, _, ⟨key, _, ⟨hkey, rfl⟩, hopen, rfl⟩, hrest⟩
    by_cases hsame : (allowIdempotent && plaintext == encoded) = true
    . rw [if_pos hsame] at hrest
      cases hrest
      simp only [Bool.and_eq_true, beq_iff_eq] at hsame
      rw [hsame.2] at hopen
      exact ⟨hsame.1, Or.inl ⟨rfl, rfl, key, hkey, hopen⟩⟩
    . rw [if_neg hsame] at hrest
      cases hrest
  | false =>
    rw [henvelope] at h
    simp only [Bool.false_eq_true, if_false, Effect.run_bind_eq_ok_iff, Effect.run_lift,
      Effect.run_pure, Prod.mk.injEq, Except.ok.injEq] at h
    rcases h with ⟨plaintext, _, ⟨_, _, ⟨_, rfl⟩, rfl, rfl⟩, hrest⟩
    by_cases hsame : (allowIdempotent && existing == encoded) = true
    . rw [if_pos hsame, Bool.not_false, if_pos rfl] at hrest
      simp only [LocalIo.atomicReplace, Effect.run_bind_eq_ok_iff, Effect.run_lift, Effect.run_set,
        Prod.mk.injEq] at hrest
      rcases hrest with ⟨key, _, ⟨hkey, rfl⟩, encrypted, _, ⟨hseal, rfl⟩, _, _, _, _, rfl⟩
      simp only [Bool.and_eq_true, beq_iff_eq] at hsame
      rw [hsame.2] at hseal
      exact ⟨hsame.1, Or.inr ⟨rfl, hsame.2, key, encrypted, hkey, hseal, rfl⟩⟩
    . rw [if_neg hsame] at hrest
      cases hrest

theorem installAccount_eq_ok {encoded : List UInt8} {allowIdempotent : Bool}
    {file file' : StateFile}
    (h : (installAccount aead crates io encoded allowIdempotent).run file = (.ok (), file'))
    : (file = none ∧ (installAbsent aead io encoded).run none = (.ok (), file'))
        ∨ ∃ existing, file = some existing
          ∧ (installExisting aead crates io existing encoded allowIdempotent).run (some existing)
            = (.ok (), file') := by
  simp only [installAccount, Effect.run_bind_eq_ok_iff, Effect.run_lift, Prod.mk.injEq] at h
  rcases h with ⟨_, _, ⟨_, rfl⟩, _, _, ⟨_, rfl⟩, found, after, hread, hrest⟩
  cases file with
  | none =>
    left
    rcases SecretStore.readSecretOptionalBounded_none_eq_ok hread with ⟨rfl, rfl⟩
    exact ⟨rfl, hrest⟩
  | some existing =>
    right
    rcases SecretStore.readSecretOptionalBounded_eq_ok hread with ⟨rfl, rfl⟩
    exact ⟨existing, rfl, hrest⟩

theorem importAccount_eq_ok {encoded : List UInt8} {file file' : StateFile}
    (h : (importAccount aead crates io encoded).run file = (.ok (), file'))
    : ∃ bundle, AccountBundle.parse crates encoded = .ok (.scoped bundle)
        ∧ (installAccount aead crates io encoded true).run file = (.ok (), file') := by
  simp only [importAccount, Effect.run_bind_eq_ok_iff, Effect.run_lift, Prod.mk.injEq] at h
  rcases h with ⟨bundle, _, ⟨hparse, rfl⟩, hrest⟩
  rw [parseInput, Except.mapError_eq_ok_iff] at hparse
  cases bundle with
  | «scoped» bundle => exact ⟨bundle, hparse, hrest⟩
  | owner owner => cases hrest

theorem holds_of_install {key : Vector UInt8 32} {encoded : List UInt8} {allowIdempotent : Bool}
    {file file' : StateFile} (hreopens : Reopens aead key io.random encoded)
    (hkeys : ∀ create used, io.masterKey create = .ok used → used = key)
    (h : (installAccount aead crates io encoded allowIdempotent).run file = (.ok (), file'))
    : Holds aead key file' encoded := by
  rcases installAccount_eq_ok h with ⟨_, habsent⟩ | ⟨existing, rfl, hexisting⟩
  . rcases installAbsent_eq_ok habsent with ⟨used, encrypted, hkey, hseal, _, rfl⟩
    rw [hkeys true used hkey] at hseal
    exact holds_of_seal hreopens hseal
  . rcases (installExisting_eq_ok hexisting).2 with
      ⟨henvelope, rfl, used, hkey, hopen⟩ | ⟨_, _, used, encrypted, hkey, hseal, rfl⟩
    . rw [hkeys false used hkey] at hopen
      exact ⟨existing, rfl, henvelope, hopen⟩
    . rw [hkeys true used hkey] at hseal
      exact holds_of_seal hreopens hseal

theorem run_export_scoped {file after : StateFile} {bundle : ScopedAccountBundle crates}
    {scope : ApiKeyScope} {text : List UInt8}
    (h : (loadStoredAccountWithStore aead crates io).run file = (.ok (some (.scoped bundle)), after))
    (htext : (AccountBundle.scoped bundle).encode = .ok text)
    : (exportAccountWithStore aead crates io scope).run file
        =
      (if scope = bundle.apiKeyScope then
          .ok text
        else
          .error (.error ("the configured account bundle is " ++ scopeName bundle.apiKeyScope
            ++ "-only; a " ++ scopeName scope ++ " bundle is required")),
        after) := by
  rw [run_export h, intoExportScope_scoped]
  split
  . rw [Except.bind, encode, htext]
    rfl
  . rfl

theorem run_load_publish_owner {file after : StateFile} {owner : OwnerAccountBundle crates}
    (h : (loadStoredAccountWithStore aead crates io).run file = (.ok (some (.owner owner)), after))
    : ∃ e, (loadAccount aead crates io .publish).run file = (.error e, after) := by
  have hload : ∃ e, (loadAccountOptional aead crates io .publish).run file = (.error e, after) := by
    unfold loadAccountOptional
    rw [Effect.run_bind_of_ok h]
    exact ⟨_, rfl⟩
  rcases hload with ⟨e, hload⟩
  exact ⟨e, Effect.run_bind_of_error hload⟩

theorem encode_of_parse_scoped {bundle : ScopedAccountBundle crates} {text : List UInt8}
    (h : AccountBundle.parse crates text = .ok (.scoped bundle))
    : (AccountBundle.scoped bundle).encode = .ok text := by
  rcases (AccountBundle.parse_eq_ok_iff.mp h).2 with htext | ⟨owner, howner, _⟩
  . exact htext
  . cases howner

theorem exports_reveal_scope (aead : Aead (Vector UInt8 32) (Vector UInt8 nonceBytes))
    (crates : AccountCrates)
    : (∀ (io io' : LocalIo) (file file' after after' : StateFile)
        (owner owner' : OwnerAccountBundle crates),
        (loadStoredAccountWithStore aead crates io).run file = (.ok (some (.owner owner)), after) →
        (loadStoredAccountWithStore aead crates io').run file'
          = (.ok (some (.owner owner')), after') →
        owner.serviceOrigin = owner'.serviceOrigin → owner.accountId = owner'.accountId →
        owner.publishApiToken = owner'.publishApiToken →
        owner.accountRootKey = owner'.accountRootKey →
        owner.consumerIdentitySecret.authorizedIdentity crates
          = owner'.consumerIdentitySecret.authorizedIdentity crates →
        ∃ text,
          (exportAccountWithStore aead crates io .publish).run file = (.ok text, after)
            ∧ (exportAccountWithStore aead crates io' .publish).run file' = (.ok text, after')
            ∧ ∃ bundle, AccountBundle.parse crates text = .ok (.scoped bundle)
              ∧ bundle.apiKeyScope = .publish
              ∧ bundle.authorizedConsumerIdentity
                = some (owner.consumerIdentitySecret.authorizedIdentity crates)
              ∧ bundle.consumerIdentitySecret = none)
      ∧ (∀ (owner : OwnerAccountBundle crates) (scope : ApiKeyScope),
        owner.scoped scope = owner.intoScoped scope)
      ∧ (∀ (io : LocalIo) (file after : StateFile) (bundle : ScopedAccountBundle crates)
        (scope : ApiKeyScope) (text : List UInt8),
        (loadStoredAccountWithStore aead crates io).run file
          = (.ok (some (.scoped bundle)), after) →
        (exportAccountWithStore aead crates io scope).run file = (.ok text, after) →
        scope = bundle.apiKeyScope)
      ∧ (∀ (sealed : Set (Aead.Sealing (Vector UInt8 32) (Vector UInt8 nonceBytes)))
        (io later : LocalIo) (file file' : StateFile) (encoded : List UInt8)
        (key : Vector UInt8 32),
        aead.Ideal tagBytes sealed →
        (∀ create used, io.masterKey create = .ok used → used = key) →
        (∀ nonce, io.random = some nonce →
          ⟨key, nonce, associatedData .syncAccount, encoded⟩ ∈ sealed) →
        (importAccount aead crates io encoded).run file = (.ok (), file') →
        later.lock = .ok () → later.read = .ok () → later.masterKey false = .ok key →
        ∃ bundle, AccountBundle.parse crates encoded = .ok (.scoped bundle)
          ∧ (exportAccountWithStore aead crates later bundle.apiKeyScope).run file'
            = (.ok encoded, file'))
      ∧ ∀ (io : LocalIo) (file after : StateFile) (owner : OwnerAccountBundle crates),
        (loadStoredAccountWithStore aead crates io).run file = (.ok (some (.owner owner)), after) →
        ∃ e, (loadAccount aead crates io .publish).run file = (.error e, after) := by
  refine ⟨?_, ?_, ?_, ?_, ?_⟩
  . intro io io' file file' after after' owner owner' hload hload' horigin hid htoken hkey hidentity
    have hscoped := scoped_publish_congr horigin hid htoken hkey hidentity
    refine ⟨_, run_export_owner hload, ?_, owner.scoped .publish,
      parse_export_owner .publish hload, rfl, rfl, rfl⟩
    rw [hscoped]
    exact run_export_owner hload'
  . intro owner scope
    exact (owner.intoScoped_eq scope).symm
  . intro io file after bundle scope text hload hexport
    rw [run_export_scoped hload (AccountBundle.encode_eq_ok _), Prod.mk.injEq] at hexport
    by_contra hne
    rw [if_neg hne] at hexport
    cases hexport.1
  . intro sealed io later file file' encoded key hideal hkeys hsealed himport hlock hread hkey
    rcases importAccount_eq_ok himport with ⟨bundle, hparse, hinstall⟩
    refine ⟨bundle, hparse, ?_⟩
    have hholds := holds_of_install (reopens_of_ideal hideal hsealed) hkeys hinstall
    rw [run_export_scoped (run_load_of_holds hholds hparse hlock hread hkey)
      (encode_of_parse_scoped hparse), if_pos rfl]
  . intro io file after owner hload
    exact run_load_publish_owner hload

end AccountFile

namespace Fixture

open AccountFile

def tagAead : Aead (Vector UInt8 32) (Vector UInt8 nonceBytes) :=
  Aead.appendTag (List.replicate tagBytes 0)

def otherOwner : OwnerAccountBundle accountCrates :=
  { owner with
    downloadApiToken := ⟨Vector.replicate 32 4⟩
    consumerIdentitySecret := ⟨Vector.replicate 32 5⟩ }

def sealedFile (bundle : AccountBundle accountCrates) : StateFile :=
  some (layout (Vector.replicate nonceBytes 7)
    (Base64.encode bundle.wire.toVec ++ List.replicate tagBytes 0))

theorem load_sealedFile (bundle : AccountBundle accountCrates) (hvalid : bundle.Valid)
    : (loadStoredAccountWithStore tagAead accountCrates localIo).run (sealedFile bundle)
        = (.ok (some bundle), sealedFile bundle) := by
  have hlength : (Base64.encode bundle.wire.toVec).length ≤ maxAccountStateBytes :=
    AccountBundle.length_encode_toVec_le bundle.length_toVec_le
  have hseal : sealSecret tagAead masterKey .syncAccount (Base64.encode bundle.wire.toVec)
      maxAccountStateBytes localIo.random
        = .ok (layout (Vector.replicate nonceBytes 7)
          (Base64.encode bundle.wire.toVec ++ List.replicate tagBytes 0)) :=
    sealSecret_eq_ok_iff.mpr ⟨hlength, _, _, rfl, rfl, rfl⟩
  have hcorrect : tagAead.Correct tagBytes := Aead.correct_appendTag _
  have hreopens : Reopens tagAead masterKey localIo.random (Base64.encode bundle.wire.toVec) :=
    reopens_of_correct hcorrect _ _
  have hparse : AccountBundle.parse accountCrates (Base64.encode bundle.wire.toVec) = .ok bundle :=
    AccountBundle.parse_eq_ok_iff.mpr ⟨hvalid, Or.inl (AccountBundle.encode_eq_ok bundle)⟩
  exact run_load_of_holds (holds_of_seal hreopens hseal) hparse rfl rfl rfl

def publishText : List UInt8 :=
  Base64.encode (AccountBundle.scoped (owner.scoped .publish)).wire.toVec

def publishSealing : Aead.Sealing (Vector UInt8 32) (Vector UInt8 nonceBytes) where
  key := masterKey
  nonce := Vector.replicate nonceBytes 7
  aad := associatedData .syncAccount
  plaintext := publishText

def publishAead : Aead (Vector UInt8 32) (Vector UInt8 nonceBytes) :=
  Aead.ledger publishSealing (List.replicate tagBytes 0)

theorem import_publishText
    : ∃ file, (importAccount publishAead accountCrates localIo publishText).run none
      = (.ok (), file) := by
  have hok : ((importAccount publishAead accountCrates localIo publishText).run
      none).1.isOk = true := by
    decide +kernel
  rcases hrun : (importAccount publishAead accountCrates localIo publishText).run none with
    ⟨result, file⟩
  rw [hrun] at hok
  cases result with
  | ok _ => exact ⟨file, rfl⟩
  | error _ => cases hok

end Fixture

theorem AccountFile.exports_reveal_scope_owner
    : Fixture.owner.downloadApiToken ≠ Fixture.otherOwner.downloadApiToken
        ∧ Fixture.owner.consumerIdentitySecret ≠ Fixture.otherOwner.consumerIdentitySecret
        ∧ (∃ text,
          (exportAccountWithStore Fixture.tagAead Fixture.accountCrates Fixture.localIo .publish).run
              (Fixture.sealedFile (.owner Fixture.owner))
            = (.ok text, Fixture.sealedFile (.owner Fixture.owner))
          ∧ (exportAccountWithStore Fixture.tagAead Fixture.accountCrates Fixture.localIo .publish).run
              (Fixture.sealedFile (.owner Fixture.otherOwner))
            = (.ok text, Fixture.sealedFile (.owner Fixture.otherOwner)))
        ∧ (∃ e, (loadAccount Fixture.tagAead Fixture.accountCrates Fixture.localIo .publish).run
            (Fixture.sealedFile (.owner Fixture.otherOwner))
          = (.error e, Fixture.sealedFile (.owner Fixture.otherOwner)))
        ∧ ∃ file,
          (importAccount Fixture.publishAead Fixture.accountCrates Fixture.localIo
              Fixture.publishText).run none = (.ok (), file)
            ∧ (exportAccountWithStore Fixture.publishAead Fixture.accountCrates Fixture.localIo
              .publish).run file = (.ok Fixture.publishText, file) := by
  have hvalid : Fixture.owner.Valid := ⟨by decide, by decide +kernel⟩
  have hvalid' : Fixture.otherOwner.Valid := ⟨by decide, by decide +kernel⟩
  have hload := Fixture.load_sealedFile (.owner Fixture.owner) hvalid
  have hload' := Fixture.load_sealedFile (.owner Fixture.otherOwner) hvalid'
  refine ⟨by decide, by decide, ?_, ?_, ?_⟩
  . rcases (exports_reveal_scope Fixture.tagAead Fixture.accountCrates).1 _ _ _ _ _ _ _ _ hload hload'
      rfl rfl rfl rfl rfl with ⟨text, htext, htext', _⟩
    exact ⟨text, htext, htext'⟩
  . exact (exports_reveal_scope Fixture.tagAead Fixture.accountCrates).2.2.2.2 _ _ _ _ hload'
  . rcases Fixture.import_publishText with ⟨file, himport⟩
    have hideal := Aead.ideal_ledger Fixture.publishSealing (List.replicate tagBytes 0)
    have hkeys : ∀ create used, Fixture.localIo.masterKey create = .ok used →
        used = Fixture.masterKey := by
      rintro _ used ⟨⟩
      rfl
    have hsealed : ∀ nonce, Fixture.localIo.random = some nonce →
        ⟨Fixture.masterKey, nonce, associatedData .syncAccount, Fixture.publishText⟩
          ∈ ({Fixture.publishSealing} : Set _) := by
      rintro _ ⟨⟩
      rfl
    rcases (exports_reveal_scope Fixture.publishAead Fixture.accountCrates).2.2.2.1 _ _ Fixture.localIo
      none file _ _ hideal hkeys hsealed himport rfl rfl rfl with ⟨bundle, hparse, hexport⟩
    have hscope : bundle.apiKeyScope = .publish := by
      have hpublish : AccountBundle.parse Fixture.accountCrates Fixture.publishText
          = .ok (.scoped (Fixture.owner.scoped .publish)) :=
        AccountFile.parse_export_owner .publish hload
      rw [hpublish] at hparse
      cases hparse
      rfl
    rw [hscope] at hexport
    exact ⟨file, himport, hexport⟩

end Attached
