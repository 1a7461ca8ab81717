import Attached.Local.StateFiles
import Attached.Protocol.BundleLemmas

/-!
This module contains the proof that the three state files migrate from plaintext to envelopes without
a loss: each of them is a `SecretStore`, and its loading code is the one of the store.
-/

namespace Attached

open LocalEncryption

theorem isEnvelope_eq_false {bytes : List UInt8} (h : bytes.head? ≠ some 0x41)
    : isEnvelope bytes = false := by
  rw [Bool.eq_false_iff]
  intro hmagic
  rw [isEnvelope, List.isPrefixOf_iff_prefix] at hmagic
  rcases hmagic with ⟨rest, rfl⟩
  apply h
  rfl

theorem Json.parse_eq_none {input : List UInt8} (h : input.head? = some 0x41)
    : Json.parse input = none := by
  cases input with
  | nil => simp at h
  | cons byte rest =>
    simp only [List.head?_cons, Option.some.injEq] at h
    subst h
    have hskip : Json.skipWhitespace (0x41 :: rest) = 0x41 :: rest := by
      rfl
    have hscalar : Json.readScalar (0x41 :: rest) = none := by
      simp [Json.readScalar, Json.print, Json.readNumber, Json.readInteger, Json.readDigits,
        Json.isDigit, Bytes.isAsciiDigit]
    unfold Json.parse
    rw [Json.readValue, hskip]
    simp [hscalar]

namespace AccountFile

variable {aead : Aead (Vector UInt8 32) (Vector UInt8 nonceBytes)} {crates : AccountCrates}
  {io : LocalIo}

theorem head?_of_parse {encoded : List UInt8} {bundle : AccountBundle crates}
    (h : parse crates encoded = .ok bundle) : encoded.head? = some 0x65 := by
  rw [parse, Except.mapError_eq_ok_iff] at h
  rcases AccountBundle.parse_eq_ok_iff_wire.mp h with ⟨wire, _, _, _, rfl⟩
  generalize (if wire.legacyOwner = true then wire else bundle.wire) = wire
  have hbrace : wire.toVec = 0x7b :: (Json.printMembers wire.members ++ [0x7d]) := by
    simp [AccountBundleWire.toVec, Json.print]
  rw [hbrace, Base64.head?_encode]
  rfl

def store (crates : AccountCrates) : SecretStore (AccountBundle crates) where
  file := accountFile
  purpose := .syncAccount
  limit := maxAccountStateBytes
  isSealed := isEnvelope
  decode := parse crates
  limit_le := by decide
  isSealed_eq_false := by
    intro encoded bundle h
    apply isEnvelope_eq_false
    rw [head?_of_parse h]
    decide
  isSealed_layout := by
    intro nonce ciphertext _
    exact isEnvelope_layout nonce ciphertext

theorem decryptAccountWithStore_parse (encoded : List UInt8)
    : (do
        let encoded ← decryptAccountWithStore aead crates io encoded true
        Effect.lift (parse crates encoded))
        =
      (store crates).loadStored aead io encoded := by
  unfold decryptAccountWithStore SecretStore.loadStored
  change _ = if isEnvelope encoded then _ else _
  split
  . simp only [bind_assoc]
    rfl
  . change _ = Effect.lift (parse crates encoded) >>= _
    cases hparse : parse crates encoded with
    | error e => rfl
    | ok bundle =>
      simp only [if_true, bind_assoc, pure_bind, SecretStore.install, Effect.lift_ok, hparse]
      rfl

theorem loadStoredAccountWithStore_eq
    : loadStoredAccountWithStore aead crates io
        =
      (store crates).load aead io (pure none) some := by
  unfold loadStoredAccountWithStore SecretStore.load
  congr 1
  funext _
  congr 1
  funext file
  cases file with
  | none => rfl
  | some encoded =>
    dsimp only
    rw [← decryptAccountWithStore_parse, bind_assoc]

end AccountFile

namespace CatalogFile

variable {Ticket : Type} {aead : Aead (Vector UInt8 32) (Vector UInt8 nonceBytes)}
  {serde : CatalogSerde} {iroh : Iroh Ticket} {io : LocalIo} {account : AccountCredentials}

def decode (serde : CatalogSerde) (iroh : Iroh Ticket) (account : AccountCredentials)
    (plaintext : List UInt8) : Except Failure Catalog := do
  let catalog ← Except.okOr (serde.fromSlice plaintext) (.error "invalid sync catalog")
  validate iroh catalog account
  return catalog

theorem isEnvelope_of_fromSlice {plaintext : List UInt8} {catalog : Catalog}
    (h : serde.fromSlice plaintext = some catalog) : isEnvelope plaintext = false := by
  apply isEnvelope_eq_false
  intro hhead
  rw [CatalogSerde.fromSlice, Json.parse_eq_none hhead] at h
  simp at h

def store (serde : CatalogSerde) (iroh : Iroh Ticket) (account : AccountCredentials)
    : SecretStore Catalog where
  file := catalogFile
  purpose := .syncCatalog
  limit := maxCatalogBytes
  isSealed := isEnvelope
  decode := decode serde iroh account
  limit_le := by decide
  isSealed_eq_false := by
    intro plaintext catalog h
    simp only [decode, Except.bind_eq_ok_iff, Except.okOr_eq_ok_iff] at h
    rcases h with ⟨_, hslice, _⟩
    exact isEnvelope_of_fromSlice hslice
  isSealed_layout := by
    intro nonce ciphertext _
    exact isEnvelope_layout nonce ciphertext

theorem lift_decode (plaintext : List UInt8) (f : Catalog → FileEffect β)
    : (do
        let catalog ←
          Effect.lift (Except.okOr (serde.fromSlice plaintext) (.error "invalid sync catalog"))
        Effect.lift (validate iroh catalog account)
        f catalog)
        =
      Effect.lift (decode serde iroh account plaintext) >>= f := by
  simp only [decode, Effect.lift_bind, bind_assoc]
  rfl

theorem load_eq
    : load aead serde iroh io account
        =
      (store serde iroh account).load aead io (pure (Catalog.empty account)) id := by
  unfold load SecretStore.load readCatalogWithStore readStored
  simp only [bind_assoc]
  congr 1
  funext _
  congr 1
  funext file
  cases file with
  | none => rfl
  | some stored =>
    dsimp only
    unfold decrypt SecretStore.loadStored
    change _ = (if isEnvelope stored then _ else _) >>= _
    split
    . next h =>
      simp only [h, Bool.not_true, Bool.and_false, Bool.false_eq_true, if_false, bind_assoc,
        lift_decode]
      rfl
    . next h =>
      simp only [h, Bool.not_false, Bool.and_true, if_true, bind_assoc, pure_bind, lift_decode,
        SecretStore.install]
      rfl

section

variable {file file' : StateFile} {stored : List UInt8}

theorem readOnly_readCatalogWithStore
    : (readCatalogWithStore aead serde iroh io account false).ReadOnly := by
  apply Effect.ReadOnly.bind (SecretStore.readOnly_readSecretOptionalBounded _ _)
  intro file
  cases file with
  | none => exact Effect.readOnly_pure _
  | some stored =>
    dsimp only
    apply Effect.ReadOnly.bind
    . unfold decrypt
      split
      . apply Effect.ReadOnly.bind (Effect.readOnly_lift _)
        intro key
        exact Effect.readOnly_lift _
      . exact Effect.readOnly_pure _
    . intro plaintext
      rw [lift_decode]
      apply Effect.ReadOnly.bind (Effect.readOnly_lift _)
      intro catalog
      exact Effect.readOnly_pure _

theorem readOnly_hasCorruptLegacyCatalog : (hasCorruptLegacyCatalog serde io).ReadOnly := by
  apply Effect.ReadOnly.bind (SecretStore.readOnly_readSecretOptionalBounded _ _)
  intro file
  cases file with
  | none => exact Effect.readOnly_pure _
  | some stored => exact Effect.readOnly_pure _

theorem hasCorruptLegacyCatalog_eq_true
    (h : (hasCorruptLegacyCatalog serde io).run (some stored) = (.ok true, file'))
    : hasEnvelopeShape stored = false ∧ serde.fromSlice stored = none := by
  rcases Effect.run_bind_eq_ok_iff.mp h with ⟨_, _, hread, hafter⟩
  rcases SecretStore.readSecretOptionalBounded_eq_ok hread with ⟨rfl, rfl⟩
  have hboth : hasEnvelopeShape stored = false ∧ serde.fromSlice stored = none := by
    simp at hafter
    exact hafter.1
  exact hboth

theorem readCurrent_of_error {retry : LocalIo} {e : Failure} {current : Option Catalog × Bool}
    (hread : ((readCatalogWithStore aead serde iroh io account false).run (some stored)).1 = .error e)
    (h : (readCurrent aead serde iroh io retry account).run (some stored) = (.ok current, file'))
    : hasEnvelopeShape stored = false ∧ serde.fromSlice stored = none := by
  rcases Effect.run_bind_eq_ok_iff.mp h with ⟨_, _, hattempt, hafter⟩
  rw [Effect.run_attempt, readOnly_readCatalogWithStore, hread, Prod.mk.injEq,
    Except.ok.injEq] at hattempt
  rcases hattempt with ⟨rfl, rfl⟩
  rcases Effect.run_bind_eq_ok_iff.mp hafter with ⟨corrupt, _, hcorrupt, hafter⟩
  have hreadOnly : (hasCorruptLegacyCatalog serde retry).ReadOnly := readOnly_hasCorruptLegacyCatalog
  have hsame := hreadOnly (some stored)
  rw [hcorrupt] at hsame
  dsimp at hsame
  subst hsame
  cases corrupt with
  | false => simp at hafter
  | true => exact hasCorruptLegacyCatalog_eq_true hcorrupt

theorem readOnly_readCurrent {retry : LocalIo}
    : (readCurrent aead serde iroh io retry account).ReadOnly := by
  apply Effect.ReadOnly.bind (Effect.ReadOnly.attempt readOnly_readCatalogWithStore)
  intro result
  cases result with
  | ok current => exact Effect.readOnly_pure _
  | error e =>
    apply Effect.ReadOnly.bind readOnly_hasCorruptLegacyCatalog
    intro corrupt
    cases corrupt with
    | true => exact Effect.readOnly_pure _
    | false => exact Effect.readOnly_lift _

theorem saveRefresh_changes {retry : LocalIo} {baseline : List (RecordId × Nat)}
    {refreshed : Catalog}
    (h : ((saveRefresh aead serde iroh io retry account baseline refreshed).run file).2 ≠ file)
    : ∃ current, (readCurrent aead serde iroh io retry account).run file = (.ok current, file) := by
  have hreadOnly : (readCurrent aead serde iroh io retry account).ReadOnly := readOnly_readCurrent
  have hsame := hreadOnly file
  rcases hcurrent : (readCurrent aead serde iroh io retry account).run file with ⟨result, file'⟩
  rw [hcurrent] at hsame
  dsimp at hsame
  subst hsame
  cases result with
  | ok current => exact ⟨current, rfl⟩
  | error e =>
    exfalso
    apply h
    unfold saveRefresh
    rw [Effect.bind_def, Effect.run_lift]
    cases validate iroh refreshed account with
    | error e => rfl
    | ok _ =>
      dsimp only
      rw [Effect.bind_def, Effect.run_lift]
      cases io.lock with
      | error e => rfl
      | ok _ =>
        dsimp only
        rw [Effect.run_bind_of_error hcurrent]

end

end CatalogFile

namespace IdentityFile

variable {aead : Aead (Vector UInt8 32) (Vector UInt8 nonceBytes)} {io : LocalIo}

def store : SecretStore (Vector UInt8 32) where
  file := identityFile
  purpose := .adminIdentity
  limit := identityBytes
  isSealed bytes := bytes.length != identityBytes && isEnvelope bytes
  decode := loadIdentityBytes
  limit_le := by decide
  isSealed_eq_false := by
    intro bytes identity h
    have hlength : bytes.length = identityBytes := by
      rw [toFixed_eq_some_iff.mp (Except.okOr_eq_ok_iff.mp h)]
      exact Vector.length_toList
    simp [hlength]
  isSealed_layout := by
    intro nonce ciphertext htag
    have hlong : (layout nonce ciphertext).length ≠ identityBytes := by
      have hheader : headerBytes = 21 := by decide
      rw [length_layout, hheader, identityBytes]
      rw [tagBytes] at htag
      omega
    rw [isEnvelope_layout, Bool.and_true]
    exact bne_iff_ne.mpr hlong

theorem loadOrCreateWithStore_eq {secret : Vector UInt8 32}
    : loadOrCreateWithStore aead io secret = store.load aead io (create aead io secret) id := by
  unfold loadOrCreateWithStore SecretStore.load
  congr 1
  funext _
  congr 1
  funext file
  cases file with
  | none => rfl
  | some bytes =>
    dsimp only
    unfold loadIdentity SecretStore.loadStored
    change _ = (if bytes.length != identityBytes && isEnvelope bytes then _ else _) >>= _
    split
    . simp only [id_eq, bind_pure]
      rfl
    . simp only [if_true, bind_assoc, pure_bind, SecretStore.install]
      rfl

end IdentityFile

theorem legacy_migration {Ticket : Type}
    {aead : Aead (Vector UInt8 32) (Vector UInt8 nonceBytes)}
    {sealed : Set (Aead.Sealing (Vector UInt8 32) (Vector UInt8 nonceBytes))}
    (hideal : aead.Ideal tagBytes sealed) (crates : AccountCrates) (serde : CatalogSerde)
    (iroh : Iroh Ticket) (account : AccountCredentials) (secret : Vector UInt8 32)
    : SecretStore.Migrates aead sealed (AccountFile.store crates)
        (AccountFile.loadStoredAccountWithStore aead crates) some
      ∧ SecretStore.Migrates aead sealed (CatalogFile.store serde iroh account)
        (fun io => CatalogFile.load aead serde iroh io account) id
      ∧ SecretStore.Migrates aead sealed IdentityFile.store
        (fun io => IdentityFile.loadOrCreateWithStore aead io secret) id
      ∧ ∀ io retry baseline refreshed stored e,
        ((CatalogFile.readCatalogWithStore aead serde iroh io account false).run (some stored)).1
          = .error e →
        ((CatalogFile.saveRefresh aead serde iroh io retry account baseline refreshed).run
          (some stored)).2 ≠ some stored →
        isEnvelope stored = false
          ∧ stored.length < headerBytes + tagBytes
          ∧ serde.fromSlice stored = none := by
  refine ⟨?_, ?_, ?_, ?_⟩
  . have h : SecretStore.Migrates aead sealed (AccountFile.store crates) _ some :=
      SecretStore.migrates hideal fun _ => pure none
    simpa only [← AccountFile.loadStoredAccountWithStore_eq] using h
  . have h : SecretStore.Migrates aead sealed (CatalogFile.store serde iroh account) _ id :=
      SecretStore.migrates hideal fun _ => pure (Catalog.empty account)
    simpa only [← CatalogFile.load_eq] using h
  . have h : SecretStore.Migrates aead sealed IdentityFile.store _ id :=
      SecretStore.migrates hideal fun io => IdentityFile.create aead io secret
    simpa only [← IdentityFile.loadOrCreateWithStore_eq] using h
  . intro io retry baseline refreshed stored e hread hchanged
    rcases CatalogFile.saveRefresh_changes hchanged with ⟨current, hcurrent⟩
    rcases CatalogFile.readCurrent_of_error hread hcurrent with ⟨hshape, hslice⟩
    simp only [hasEnvelopeShape, Bool.or_eq_false_iff, decide_eq_false_iff_not, not_le] at hshape
    exact ⟨hshape.1, hshape.2, hslice⟩

namespace Fixture

def magicIdentity : Vector UInt8 32 :=
  Vector.ofFn fun i => magic.getD i.val 0x2a

def identitySealing : Aead.Sealing (Vector UInt8 32) (Vector UInt8 nonceBytes) where
  key := masterKey
  nonce := Vector.replicate nonceBytes 7
  aad := associatedData .adminIdentity
  plaintext := magicIdentity.toList

def identityAead : Aead (Vector UInt8 32) (Vector UInt8 nonceBytes) :=
  Aead.ledger identitySealing (List.replicate tagBytes 0)

def localAccount : AccountCredentials where
  serviceOrigin := "https://sync.example"
  accountId := ⟨Vector.replicate 16 1⟩
  accountRootKey := masterKey

def localIo : LocalIo where
  lock := .ok ()
  read := .ok ()
  masterKey _ := .ok masterKey
  random := some (Vector.replicate nonceBytes 7)
  install := .ok ()

end Fixture

theorem legacy_migration_identity
    : ∃ encrypted,
        isEnvelope Fixture.magicIdentity.toList = true
          ∧ isEnvelope encrypted = true
          ∧ (IdentityFile.loadOrCreateWithStore Fixture.identityAead Fixture.localIo
              Fixture.masterKey).run (some encrypted)
            = (.ok Fixture.magicIdentity, some encrypted) := by
  have hall := legacy_migration
    (Aead.ideal_ledger Fixture.identitySealing (List.replicate tagBytes 0)) Fixture.accountCrates
    ⟨fun _ => none, fun _ => none⟩ Fixture.iroh Fixture.localAccount Fixture.masterKey
  have hload : (IdentityFile.loadOrCreateWithStore Fixture.identityAead Fixture.localIo
      Fixture.masterKey).run (some Fixture.magicIdentity.toList)
        = (.ok Fixture.magicIdentity,
          some (layout (Vector.replicate nonceBytes 7)
            (Fixture.magicIdentity.toList ++ List.replicate tagBytes 0))) := by
    rfl
  rcases hall.2.2.1.lossless rfl hload with
    ⟨_, key, nonce, encrypted, _, _, hkey, hnonce, _, hfile, henvelope, hlater⟩
  cases hkey
  cases hnonce
  refine ⟨encrypted, rfl, henvelope, ?_⟩
  rw [← hfile]
  exact hlater rfl [] Fixture.localIo rfl rfl rfl

end Attached
