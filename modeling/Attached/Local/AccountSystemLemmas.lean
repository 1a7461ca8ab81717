import Attached.Local.AccountSystem

/-!
This module contains the proof that concurrent invocations lose no account to each other: what each
section does to the account file, and the invariants of the system.
-/

namespace Attached

open LocalEncryption

namespace AccountFile

variable {aead : Aead (Vector UInt8 32) (Vector UInt8 nonceBytes)} {crates : AccountCrates}
  {io : LocalIo} {key : Vector UInt8 32} {file file' : StateFile} {encoded : List UInt8}

def Keeps (aead : Aead (Vector UInt8 32) (Vector UInt8 nonceBytes)) (key : Vector UInt8 32)
    (file file' : StateFile) : Prop :=
  ∀ stored, file = some stored →
    file' = some stored ∨ (isEnvelope stored = false ∧ Holds aead key file' stored)

theorem keeps_refl (file : StateFile) : Keeps aead key file file :=
  fun _ h => Or.inl h

theorem Keeps.trans {file'' : StateFile} (h : Keeps aead key file file')
    (h' : Keeps aead key file' file'') : Keeps aead key file file'' := by
  intro stored hfile
  rcases h stored hfile with hsame | ⟨hplain, hholds⟩
  . exact h' stored hsame
  . right
    rcases hholds with ⟨encrypted, rfl, henvelope, hopen⟩
    rcases h' encrypted rfl with hsame | ⟨hplain', _⟩
    . exact ⟨hplain, encrypted, hsame, henvelope, hopen⟩
    . rw [henvelope] at hplain'
      cases hplain'

def Contains (aead : Aead (Vector UInt8 32) (Vector UInt8 nonceBytes)) (key : Vector UInt8 32)
    (file : StateFile) (encoded : List UInt8) : Prop :=
  Holds aead key file encoded ∨ (file = some encoded ∧ isEnvelope encoded = false)

theorem readOnly_ensureAccountSlotAvailable : (ensureAccountSlotAvailable io).ReadOnly := by
  apply Effect.ReadOnly.bind (Effect.readOnly_lift _)
  intro _
  apply Effect.ReadOnly.bind (SecretStore.readOnly_readSecretOptionalBounded _ _)
  intro stored
  exact Effect.readOnly_lift _

theorem ensureAccountSlotAvailable_eq_ok {u : Unit}
    (h : (ensureAccountSlotAvailable io).run file = (.ok u, file')) : file' = none := by
  simp only [ensureAccountSlotAvailable, Effect.run_bind_eq_ok_iff, Effect.run_lift, Prod.mk.injEq,
    Except.ensure_eq_ok_iff] at h
  rcases h with ⟨_, _, ⟨_, rfl⟩, stored, _, hread, hnone, rfl⟩
  cases file with
  | none =>
    exact (SecretStore.readSecretOptionalBounded_none_eq_ok hread).2
  | some existing =>
    rcases SecretStore.readSecretOptionalBounded_eq_ok hread with ⟨rfl, _⟩
    cases hnone

theorem run_loadAccount_snd (requiredScope : ApiKeyScope)
    : ((loadAccount aead crates io requiredScope).run file).2
        =
      ((loadStoredAccountWithStore aead crates io).run file).2 := by
  unfold loadAccount loadAccountOptional
  rw [Effect.bind_assoc, Effect.run_bind_snd]
  intro stored
  cases stored with
  | none =>
    apply Effect.ReadOnly.bind (Effect.readOnly_pure _)
    intro account
    exact Effect.readOnly_lift _
  | some stored =>
    apply Effect.ReadOnly.bind
    . apply Effect.ReadOnly.bind (Effect.readOnly_lift _)
      intro bundle
      exact Effect.readOnly_pure _
    . intro account
      exact Effect.readOnly_lift _

theorem keeps_load (hcorrect : aead.Correct tagBytes) (hkey : io.KeyIs key)
    (requiredScope : ApiKeyScope)
    : Keeps aead key file ((loadAccount aead crates io requiredScope).run file).2 := by
  rintro stored rfl
  rw [run_loadAccount_snd, loadStoredAccountWithStore_eq]
  cases hlegacy : isEnvelope stored with
  | true => exact Or.inl (SecretStore.load_sealed hlegacy)
  | false =>
    rcases hrun : ((store crates).load aead io (pure none) some).run (some stored) with
      ⟨result, file'⟩
    cases result with
    | error e => exact Or.inl (SecretStore.load_error hrun)
    | ok result =>
      rcases SecretStore.load_legacy hlegacy hrun with ⟨_, used, encrypted, _, _, hused, hseal, rfl⟩
      rw [hkey true used hused] at hseal
      exact Or.inr ⟨rfl, holds_of_seal (reopens_of_correct hcorrect _ _) hseal⟩

theorem run_load_none (requiredScope : ApiKeyScope)
    : ((loadAccount aead crates io requiredScope).run none).2 = none := by
  rw [run_loadAccount_snd, loadStoredAccountWithStore_eq]
  exact SecretStore.load_none (Effect.readOnly_pure _)

theorem readOnly_decryptAccountWithStore (stored : List UInt8)
    : (decryptAccountWithStore aead crates io stored false).ReadOnly := by
  unfold decryptAccountWithStore
  split
  . apply Effect.ReadOnly.bind (Effect.readOnly_lift _)
    intro key
    exact Effect.readOnly_lift _
  . apply Effect.ReadOnly.bind (Effect.readOnly_lift _)
    intro bundle
    exact Effect.readOnly_pure _

theorem failsClosed_installExisting (existing encoded : List UInt8) (allowIdempotent : Bool)
    : (installExisting aead crates io existing encoded allowIdempotent).FailsClosed := by
  apply Effect.FailsClosed.bind (readOnly_decryptAccountWithStore existing)
  intro plaintext
  split
  . split
    . apply Effect.FailsClosed.bind (Effect.readOnly_lift _)
      intro key
      apply Effect.FailsClosed.bind (Effect.readOnly_lift _)
      intro encrypted
      exact SecretStore.failsClosed_atomicReplace encrypted
    . exact (Effect.readOnly_pure _).failsClosed
  . exact (Effect.readOnly_lift _).failsClosed

theorem keeps_installAccount {allowIdempotent : Bool} (hcorrect : aead.Correct tagBytes)
    (hkey : io.KeyIs key)
    : Keeps aead key file
        ((installAccount aead crates io encoded allowIdempotent).run file).2 := by
  rintro stored rfl
  rcases hrun : (installAccount aead crates io encoded allowIdempotent).run (some stored) with
    ⟨result, file'⟩
  cases result with
  | ok u =>
    rcases installAccount_eq_ok hrun with ⟨hfile, _⟩ | ⟨existing, hfile, hexisting⟩
    . cases hfile
    . cases hfile
      rcases (installExisting_eq_ok hexisting).2 with
        ⟨_, rfl, _⟩ | ⟨hplain, rfl, used, encrypted, hused, hseal, rfl⟩
      . exact Or.inl rfl
      . rw [hkey true used hused] at hseal
        exact Or.inr ⟨hplain, holds_of_seal (reopens_of_correct hcorrect _ _) hseal⟩
  | error e =>
    left
    rcases Effect.run_bind_eq_error_iff.mp hrun with hlength | ⟨_, _, hlength, hrest⟩
    . exact (Effect.readOnly_lift _).failsClosed hlength
    . rw [Effect.run_lift, Prod.mk.injEq] at hlength
      rcases hlength with ⟨_, rfl⟩
      rcases Effect.run_bind_eq_error_iff.mp hrest with hlock | ⟨_, _, hlock, hrest⟩
      . exact (Effect.readOnly_lift _).failsClosed hlock
      . rw [Effect.run_lift, Prod.mk.injEq] at hlock
        rcases hlock with ⟨_, rfl⟩
        rcases Effect.run_bind_eq_error_iff.mp hrest with hread | ⟨_, _, hread, hrest⟩
        . exact (SecretStore.readOnly_readSecretOptionalBounded _ _).failsClosed hread
        . rcases SecretStore.readSecretOptionalBounded_eq_ok hread with ⟨rfl, rfl⟩
          exact failsClosed_installExisting stored encoded allowIdempotent hrest

theorem keeps_import (hcorrect : aead.Correct tagBytes) (hkey : io.KeyIs key)
    : Keeps aead key file ((importAccount aead crates io encoded).run file).2 := by
  unfold importAccount
  rw [Effect.bind_def, Effect.run_lift]
  cases parseInput crates encoded with
  | error e => exact keeps_refl file
  | ok bundle =>
    cases bundle with
    | «scoped» bundle => exact keeps_installAccount hcorrect hkey
    | owner owner => exact keeps_refl file

theorem createdBundle_eq {origin : ServiceOrigin crates} (response : CreateAccountResponse crates)
    (secret : ConsumerIdentitySecret) (rootKey : AccountRootKey)
    : createdBundle origin response secret (some rootKey)
        =
      .ok ⟨origin, response.accountId, response.publishApiToken, response.downloadApiToken, rootKey,
        secret⟩ := by
  have hhash : (response.publishApiToken.serviceHash crates
      == response.downloadApiToken.serviceHash crates) = false :=
    beq_false_of_ne response.serviceHash_ne
  simp only [createdBundle, OwnerAccountBundle.fromParts, response.isUuidV7, hhash]
  rfl

theorem run_installCreatedAccount (aead : Aead (Vector UInt8 32) (Vector UInt8 nonceBytes))
    (io : LocalIo) (file : StateFile) (origin : ServiceOrigin crates)
    (response : CreateAccountResponse crates) (secret : ConsumerIdentitySecret)
    (rootKey : AccountRootKey)
    : ∃ encoded : List UInt8, encoded.length ≤ maxAccountStateBytes
        ∧ (installCreatedAccount aead io origin response secret (some rootKey)).run file
          = (installAccount aead crates io encoded false).run file := by
  let owner : OwnerAccountBundle crates :=
    ⟨origin, response.accountId, response.publishApiToken, response.downloadApiToken, rootKey, secret⟩
  have hlength := AccountBundle.length_toVec_le (.owner owner)
  refine ⟨_, AccountBundle.length_encode_toVec_le hlength, ?_⟩
  unfold installCreatedAccount
  rw [createdBundle_eq, Effect.run_bind_of_ok (Effect.run_lift _ _), encode_eq_ok,
    Effect.run_bind_of_ok (Effect.run_lift _ _)]

theorem run_installCreatedAccount_none {origin : ServiceOrigin crates}
    (response : CreateAccountResponse crates) (secret : ConsumerIdentitySecret)
    : (installCreatedAccount aead io origin response secret none).run file
        =
      (.error (.error "could not generate the account root key"), file) := by
  rfl

theorem keeps_installCreatedAccount {origin : ServiceOrigin crates}
    {response : CreateAccountResponse crates} {secret : ConsumerIdentitySecret}
    {rootKey : Option AccountRootKey} (hcorrect : aead.Correct tagBytes) (hkey : io.KeyIs key)
    : Keeps aead key file
        ((installCreatedAccount aead io origin response secret rootKey).run file).2 := by
  cases rootKey with
  | none =>
    rw [run_installCreatedAccount_none]
    exact keeps_refl file
  | some rootKey =>
    rcases run_installCreatedAccount aead io file origin response secret rootKey with
      ⟨encoded, _, hrun⟩
    rw [hrun]
    exact keeps_installAccount hcorrect hkey

theorem sealSecret_eq_error {purpose : Purpose} {limit : Nat}
    {random : Option (Vector UInt8 nonceBytes)} {e : Failure} (hcorrect : aead.Correct tagBytes)
    (hlength : encoded.length ≤ limit)
    (h : sealSecret aead key purpose encoded limit random = .error e)
    : random = none ∧ e = .error "operating-system randomness is unavailable" := by
  simp only [sealSecret, Except.bind_eq_error_iff, Except.ensure_eq_error_iff,
    Except.ensure_eq_ok_iff, Except.okOr_eq_error_iff, Except.okOr_eq_ok_iff, pure, Except.pure,
    reduceCtorEq, and_false, exists_false, or_false, decide_eq_false_iff_not] at h
  rcases h with ⟨hlong, _⟩ | ⟨_, _, hrandom | ⟨nonce, _, hencrypt, _⟩⟩
  . exact absurd hlength hlong
  . exact ⟨hrandom.1, hrandom.2.symm⟩
  . have htotal := hcorrect.total key nonce (associatedData purpose) encoded
    rw [hencrypt] at htotal
    cases htotal

theorem installAbsent_eq_error {rootKey : Option AccountRootKey} {e : Failure}
    (hcorrect : aead.Correct tagBytes) (hlength : encoded.length ≤ maxAccountStateBytes)
    (h : (installAbsent aead io encoded).run none = (.error e, file'))
    : LostAccount.IsFault ⟨io, rootKey, e⟩ ∧ file' = none := by
  unfold LostAccount.IsFault
  dsimp only
  rcases Effect.run_bind_eq_error_iff.mp h with hkey | ⟨used, _, hkey, hrest⟩
  . rw [Effect.run_lift, Prod.mk.injEq] at hkey
    exact ⟨Or.inr (Or.inr (Or.inl hkey.1)), hkey.2.symm⟩
  . rw [Effect.run_lift, Prod.mk.injEq] at hkey
    rcases hkey with ⟨_, rfl⟩
    rcases Effect.run_bind_eq_error_iff.mp hrest with hseal | ⟨encrypted, _, hseal, hrest⟩
    . rw [Effect.run_lift, Prod.mk.injEq] at hseal
      have hrandom := sealSecret_eq_error hcorrect hlength hseal.1
      exact ⟨Or.inr (Or.inr (Or.inr (Or.inr (Or.inl hrandom)))), hseal.2.symm⟩
    . rw [Effect.run_lift, Prod.mk.injEq] at hseal
      rcases hseal with ⟨_, rfl⟩
      rcases Effect.run_bind_eq_error_iff.mp hrest with hcreate | ⟨created, _, hcreate, hrest⟩
      . rcases SecretStore.createNoclobber_eq_error hcreate with ⟨hinstall, _, hnone⟩
        exact ⟨Or.inr (Or.inr (Or.inr (Or.inl hinstall))), hnone⟩
      . rcases SecretStore.createNoclobber_eq_ok hcreate with ⟨rfl, _, _⟩ | ⟨_, hsome, _⟩
        . cases hrest
        . exact absurd rfl hsome

theorem installAccount_none_eq_error {rootKey : Option AccountRootKey} {allowIdempotent : Bool}
    {e : Failure} (hcorrect : aead.Correct tagBytes)
    (hlength : encoded.length ≤ maxAccountStateBytes)
    (h : (installAccount aead crates io encoded allowIdempotent).run none = (.error e, file'))
    : LostAccount.IsFault ⟨io, rootKey, e⟩ ∧ file' = none := by
  unfold installAccount at h
  rw [Effect.run_ensure_bind (decide_eq_true hlength)] at h
  rcases Effect.run_bind_eq_error_iff.mp h with hlock | ⟨_, _, hlock, hrest⟩
  . rw [Effect.run_lift, Prod.mk.injEq] at hlock
    exact ⟨Or.inl hlock.1, hlock.2.symm⟩
  . rw [Effect.run_lift, Prod.mk.injEq] at hlock
    rcases hlock with ⟨_, rfl⟩
    rcases Effect.run_bind_eq_error_iff.mp hrest with hread | ⟨stored, _, hread, hrest⟩
    . rcases SecretStore.readSecretOptionalBounded_none_eq_error hread with ⟨hread, hnone⟩
      exact ⟨Or.inr (Or.inl hread), hnone⟩
    . rcases SecretStore.readSecretOptionalBounded_none_eq_ok hread with ⟨rfl, rfl⟩
      exact installAbsent_eq_error hcorrect hlength hrest

theorem installCreatedAccount_none_eq_error {origin : ServiceOrigin crates}
    {response : CreateAccountResponse crates} {secret : ConsumerIdentitySecret}
    {rootKey : Option AccountRootKey} {e : Failure} (hcorrect : aead.Correct tagBytes)
    (h : (installCreatedAccount aead io origin response secret rootKey).run none
      = (.error e, file'))
    : LostAccount.IsFault ⟨io, rootKey, e⟩ ∧ file' = none := by
  cases rootKey with
  | none =>
    rw [run_installCreatedAccount_none, Prod.mk.injEq, Except.error.injEq] at h
    exact ⟨Or.inr (Or.inr (Or.inr (Or.inr (Or.inr ⟨rfl, h.1.symm⟩)))), h.2.symm⟩
  | some rootKey =>
    rcases run_installCreatedAccount aead io none origin response secret rootKey with
      ⟨encoded, hlength, hrun⟩
    rw [hrun] at h
    exact installAccount_none_eq_error hcorrect hlength h

section

variable {C : Type}

structure ActSpec (aead : Aead (Vector UInt8 32) (Vector UInt8 nonceBytes)) (key : Vector UInt8 32)
    (c : C) (shared shared' : Shared C) (phase phase' : Phase crates) : Prop where
  lock : Processes.LockStep c shared.mutation phase.holdsMutation shared'.mutation
    phase'.holdsMutation
  keeps : Keeps aead key shared.file shared'.file
  absent : shared.file = none → shared'.file = none ∨ phase.holdsMutation = true
  reserves : (phase.reserves = true → shared.file = none) → phase'.reserves = true →
    shared'.file = none
  balance : shared'.created + (shared.installed + shared.lost.length + phase.isCreated.toNat)
    = shared.created + (shared'.installed + shared'.lost.length + phase'.isCreated.toNat)
  faults : (phase.reserves = true → shared.file = none) → ∀ lost ∈ shared'.lost,
    lost ∈ shared.lost ∨ lost.IsFault

variable {c : C} {shared shared' : Shared C} {phase phase' : Phase crates} {action : Action crates}

theorem ActSpec.ofFile (hkeeps : Keeps aead key shared.file file')
    (habsent : shared.file = none → file' = none ∨ phase.holdsMutation = true)
    (hholds : phase.holdsMutation = phase'.holdsMutation)
    (hreserves : phase'.reserves = true → file' = none)
    (hcreated : phase.isCreated = phase'.isCreated)
    : ActSpec aead key c shared { shared with file := file' } phase phase' where
  lock := by
    rw [hholds]
    exact .keep _ _
  keeps := hkeeps
  absent := habsent
  reserves _ := hreserves
  balance := by rw [hcreated]
  faults _ _ := Or.inl

theorem ActSpec.same (hholds : phase.holdsMutation = phase'.holdsMutation)
    (hreserves : phase'.reserves = false) (hcreated : phase.isCreated = phase'.isCreated)
    : ActSpec aead key c shared shared phase phase' := by
  apply ActSpec.ofFile (keeps_refl _) Or.inl hholds _ hcreated
  rw [hreserves]
  intro h
  cases h

theorem ActSpec.mutation {mutation : Option C}
    (hlock : Processes.LockStep c shared.mutation phase.holdsMutation mutation phase'.holdsMutation)
    (hreserves : phase'.reserves = false) (hcreated : phase.isCreated = phase'.isCreated)
    : ActSpec aead key c shared { shared with mutation } phase phase' where
  lock := hlock
  keeps := keeps_refl _
  absent := Or.inl
  reserves := by
    rw [hreserves]
    intro _ h
    cases h
  balance := by rw [hcreated]
  faults _ _ := Or.inl

theorem ActSpec.check {next : Except Failure Unit → Phase crates}
    (hholds : ∀ result, (next result).holdsMutation = phase.holdsMutation)
    (herror : ∀ e, (next (.error e)).reserves = false)
    (hcreated : ∀ result, (next result).isCreated = phase.isCreated)
    (h : runSection shared (ensureAccountSlotAvailable io) next = (shared', phase'))
    : ActSpec aead key c shared shared' phase phase' := by
  rcases hrun : (ensureAccountSlotAvailable io).run shared.file with ⟨result, file'⟩
  have hreadOnly : (ensureAccountSlotAvailable io).ReadOnly := readOnly_ensureAccountSlotAvailable
  have hsame := hreadOnly shared.file
  rw [runSection, hrun, Prod.mk.injEq] at h
  rw [hrun] at hsame
  rcases h with ⟨rfl, rfl⟩
  dsimp only at hsame ⊢
  apply ActSpec.ofFile
  . rw [hsame]
    exact keeps_refl _
  . rw [hsame]
    exact Or.inl
  . exact (hholds result).symm
  . intro hreserves
    cases result with
    | ok u => exact ensureAccountSlotAvailable_eq_ok hrun
    | error e =>
      rw [herror e] at hreserves
      cases hreserves
  . exact (hcreated result).symm

theorem ActSpec.section {α : Type} {x : FileEffect α} {next : Except Failure α → Phase crates}
    (h : runSection shared x next = (shared', phase'))
    (hkeeps : Keeps aead key shared.file (x.run shared.file).2)
    (habsent : shared.file = none → (x.run shared.file).2 = none ∨ phase.holdsMutation = true)
    (hholds : ∀ result, (next result).holdsMutation = phase.holdsMutation)
    (hreserves : ∀ result, (next result).reserves = false)
    (hcreated : ∀ result, (next result).isCreated = phase.isCreated)
    : ActSpec aead key c shared shared' phase phase' := by
  rcases hrun : x.run shared.file with ⟨result, file'⟩
  rw [runSection, hrun, Prod.mk.injEq] at h
  rw [hrun] at hkeeps habsent
  rcases h with ⟨rfl, rfl⟩
  apply ActSpec.ofFile hkeeps habsent (hholds result).symm _ (hcreated result).symm
  intro h
  rw [hreserves result] at h
  cases h

theorem ActSpec.install {origin : ServiceOrigin crates} {response : CreateAccountResponse crates}
    {secret : ConsumerIdentitySecret} {rootKey : Option AccountRootKey}
    (hcorrect : aead.Correct tagBytes) (hkey : io.KeyIs key)
    (h : runInstall aead shared io origin response secret rootKey = (shared', phase'))
    : ActSpec aead key c shared shared' (.created origin response) phase' := by
  have hkeeps : Keeps aead key shared.file
      ((installCreatedAccount aead io origin response secret rootKey).run shared.file).2 :=
    keeps_installCreatedAccount hcorrect hkey
  rcases hrun : (installCreatedAccount aead io origin response secret rootKey).run shared.file with
    ⟨result, file'⟩
  rw [hrun] at hkeeps
  rw [runInstall, hrun] at h
  cases result with
  | ok u =>
    rw [Prod.mk.injEq] at h
    rcases h with ⟨rfl, rfl⟩
    refine ⟨.keep _ _, hkeeps, fun _ => Or.inr rfl, ?_, ?_, fun _ _ => Or.inl⟩
    . intro _ hreserves
      cases hreserves
    . simp only [Phase.isCreated, Bool.toNat_true, Bool.toNat_false]
      omega
  | error e =>
    rw [Prod.mk.injEq] at h
    rcases h with ⟨rfl, rfl⟩
    refine ⟨.keep _ _, hkeeps, fun _ => Or.inr rfl, ?_, ?_, ?_⟩
    . intro _ hreserves
      cases hreserves
    . simp only [Phase.isCreated, Bool.toNat_true, Bool.toNat_false, List.length_cons]
      omega
    . intro hnone lost hlost
      rw [hnone rfl] at hrun
      rcases List.mem_cons.mp hlost with rfl | hlost
      . exact Or.inr (installCreatedAccount_none_eq_error hcorrect hrun).1
      . exact Or.inl hlost

theorem act_spec (hcorrect : aead.Correct tagBytes) (hkey : ∀ io ∈ action.io, io.KeyIs key)
    (h : act aead c shared phase action = some (shared', phase'))
    : ActSpec aead key c shared shared' phase phase' := by
  unfold act at h
  split at h
  -- create
  . split at h <;> cases h <;> exact .same rfl rfl rfl
  -- checking
  . injection h with h
    exact .check (by rintro (_ | _) <;> rfl) (fun _ => rfl) (by rintro (_ | _) <;> rfl) h
  -- preparing
  . split at h <;> cases h <;> exact .same rfl rfl rfl
  -- locking
  . split at h
    . cases h
      exact .same rfl rfl rfl
    . next hmutation =>
      cases h
      refine .mutation ?_ rfl rfl
      rw [hmutation]
      exact .take
    . cases h
  -- rechecking
  . injection h with h
    exact .check (by rintro (_ | _) <;> rfl) (fun _ => rfl) (by rintro (_ | _) <;> rfl) h
  -- requesting
  . split at h
    . cases h
      refine ⟨.keep _ _, keeps_refl _, Or.inl, fun h _ => h rfl, ?_, fun _ _ => Or.inl⟩
      simp only [Phase.isCreated, Bool.toNat_true, Bool.toNat_false]
      omega
    . cases h
      exact .same rfl rfl rfl
  -- created
  . injection h with h
    exact .install hcorrect (hkey _ rfl) h
  -- installScoped
  . split at h <;> cases h <;> exact .same rfl rfl rfl
  -- importLocking
  . split at h
    . cases h
      exact .same rfl rfl rfl
    . next hmutation =>
      cases h
      refine .mutation ?_ rfl rfl
      rw [hmutation]
      exact .take
    . cases h
  -- importing
  . injection h with h
    exact .section h (keeps_import hcorrect (hkey _ rfl)) (fun _ => Or.inr rfl) (fun _ => rfl)
      (fun _ => rfl) (fun _ => rfl)
  -- load
  . cases h
    exact .same rfl rfl rfl
  -- loading
  . injection h with h
    refine .section h (keeps_load hcorrect (hkey _ rfl) _) ?_ (fun _ => rfl) (fun _ => rfl)
      (fun _ => rfl)
    intro hnone
    rw [hnone]
    exact Or.inl (run_load_none _)
  -- returning
  . cases h
    exact .mutation (.drop _) rfl rfl
  . cases h

end

theorem run_import_of_plaintext {bundle : ScopedAccountBundle crates}
    (hcorrect : aead.Correct tagBytes)
    (hparse : AccountBundle.parse crates encoded = .ok (.scoped bundle))
    (hplain : isEnvelope encoded = false) (hworks : io.Works key)
    : ∃ encrypted,
        (importAccount aead crates io encoded).run (some encoded) = (.ok (), some encrypted)
          ∧ Holds aead key (some encrypted) encoded := by
  have hlength : encoded.length ≤ maxAccountStateBytes := by
    rcases AccountBundle.parse_eq_ok_iff_wire.mp hparse with ⟨_, hlength, _⟩
    exact hlength
  rcases hworks.random with ⟨nonce, hnonce⟩
  rcases Option.isSome_iff_exists.mp
    (hcorrect.total key nonce (associatedData .syncAccount) encoded) with ⟨ciphertext, hencrypt⟩
  have hseal : sealSecret aead key .syncAccount encoded maxAccountStateBytes io.random
      = .ok (layout nonce ciphertext) :=
    sealSecret_eq_ok_iff.mpr ⟨hlength, nonce, ciphertext, hnonce, hencrypt, rfl⟩
  refine ⟨layout nonce ciphertext, ?_, holds_of_seal (reopens_of_correct hcorrect _ _) hseal⟩
  have hinput : parseInput crates encoded = .ok (.scoped bundle) :=
    Except.mapError_eq_ok_iff.mpr hparse
  have hdecode : parse crates encoded = .ok (.scoped bundle) :=
    Except.mapError_eq_ok_iff.mpr hparse
  have hbounded : encoded.length ≤ storedLimit maxAccountStateBytes := by
    rw [storedLimit]
    omega
  have hread : (io.readSecretOptionalBounded accountFile (storedLimit maxAccountStateBytes)).run
      (some encoded) = (.ok (some encoded), some encoded) := by
    simp [LocalIo.readSecretOptionalBounded, LocalEncryption.readSecretOptionalBounded,
      hworks.read, hbounded, Except.ensure, bind, Except.bind, pure, Except.pure]
  have hdecrypt : (decryptAccountWithStore aead crates io encoded false).run (some encoded)
      = (.ok encoded, some encoded) := by
    unfold decryptAccountWithStore
    rw [hplain, if_neg (by simp), hdecode]
    rfl
  have hreplace : (io.atomicReplace (layout nonce ciphertext)).run (some encoded)
      = (.ok (), some (layout nonce ciphertext)) := by
    unfold LocalIo.atomicReplace
    rw [hworks.install]
    rfl
  unfold importAccount installAccount installExisting
  rw [hinput, Effect.run_bind_of_ok (Effect.run_lift _ _)]
  dsimp only
  rw [Effect.run_ensure_bind (decide_eq_true hlength), hworks.lock,
    Effect.run_bind_of_ok (Effect.run_lift _ _), Effect.run_bind_of_ok hread]
  dsimp only
  rw [Effect.run_bind_of_ok hdecrypt, hplain, if_pos (by simp), if_pos (by simp),
    hworks.masterKey true, Effect.run_bind_of_ok (Effect.run_lift _ _), hseal,
    Effect.run_bind_of_ok (Effect.run_lift _ _), hreplace]

section

variable {C : Type} [DecidableEq C] {s t : Processes C (Shared C) (Phase crates)}
  {label : C × Action crates}

theorem Phase.holdsMutation_of_reserves {phase : Phase crates} (h : phase.reserves = true)
    : phase.holdsMutation = true := by
  cases phase <;> first | rfl | cases h

theorem Phase.holdsMutation_of_isCreated {phase : Phase crates} (h : phase.isCreated = true)
    : phase.holdsMutation = true := by
  cases phase <;> first | rfl | cases h

structure Consistent (s : Processes C (Shared C) (Phase crates)) : Prop where
  owns : s.Owns Shared.mutation Phase.holdsMutation
  reserved : ∀ c, (s.phase c).reserves = true → s.shared.file = none
  balance :
    ((∀ c, (s.phase c).isCreated = false)
        ∧ s.shared.created = s.shared.installed + s.shared.lost.length)
      ∨ ∃ c, (s.phase c).isCreated = true
        ∧ s.shared.created = s.shared.installed + s.shared.lost.length + 1
  faults : ∀ lost ∈ s.shared.lost, lost.IsFault

theorem consistent_of_init (h : (accountSystem C aead crates key).init s) : Consistent s := by
  rcases h with ⟨hidle, hmutation, hcreated, hinstalled, hlost⟩
  refine ⟨?_, ?_, ?_, ?_⟩
  . intro c
    rw [hmutation, hidle]
    simp [Phase.holdsMutation]
  . intro c hreserves
    rw [hidle] at hreserves
    cases hreserves
  . left
    rw [hcreated, hinstalled, hlost]
    refine ⟨?_, rfl⟩
    intro c
    rw [hidle]
    rfl
  . rw [hlost]
    simp

theorem spec_of_step (hcorrect : aead.Correct tagBytes)
    (h : (accountSystem C aead crates key).step s label t)
    : ActSpec aead key label.1 s.shared t.shared (s.phase label.1) (t.phase label.1) :=
  act_spec hcorrect h.2 (Processes.act_of_step h.1).1

theorem Consistent.reserved_step (hs : Consistent s) (hcorrect : aead.Correct tagBytes)
    (h : (accountSystem C aead crates key).step s label t)
    : ∀ c, (t.phase c).reserves = true → t.shared.file = none := by
  have hspec := spec_of_step hcorrect h
  apply Processes.forall_of_step
    (P := fun shared _ phase => phase.reserves = true → shared.file = none) h.1
  . exact hspec.reserves (hs.reserved label.1)
  . intro d hd hreserves
    rcases hspec.absent (hs.reserved d hreserves) with hnone | hholds
    . exact hnone
    . exact absurd (hs.owns.eq (Phase.holdsMutation_of_reserves hreserves) hholds) hd

theorem Consistent.balance_step (hs : Consistent s) (hcorrect : aead.Correct tagBytes)
    (h : (accountSystem C aead crates key).step s label t)
    (howns : t.Owns Shared.mutation Phase.holdsMutation)
    : ((∀ c, (t.phase c).isCreated = false)
          ∧ t.shared.created = t.shared.installed + t.shared.lost.length)
        ∨ ∃ c, (t.phase c).isCreated = true
          ∧ t.shared.created = t.shared.installed + t.shared.lost.length + 1 := by
  rcases label with ⟨c, action⟩
  have hothers := (Processes.act_of_step h.1).2
  have hbalance := (spec_of_step hcorrect h).balance
  dsimp only at hothers hbalance
  -- Two calls cannot both have an account that is not installed, as both would hold the lock.
  have hunique : ∀ d, d ≠ c → (t.phase d).isCreated = true → (t.phase c).isCreated = false := by
    intro d hd hcreated
    rw [Bool.eq_false_iff]
    intro hown
    exact hd (howns.eq (Phase.holdsMutation_of_isCreated hcreated)
      (Phase.holdsMutation_of_isCreated hown))
  by_cases hother : ∃ d, d ≠ c ∧ (s.phase d).isCreated = true
  . rcases hother with ⟨d, hd, hcreated⟩
    have hown : (s.phase c).isCreated = false := by
      rw [Bool.eq_false_iff]
      intro hown
      exact hd (hs.owns.eq (Phase.holdsMutation_of_isCreated hcreated)
        (Phase.holdsMutation_of_isCreated hown))
    have hcreated' : (t.phase d).isCreated = true := by
      rw [hothers d hd]
      exact hcreated
    rw [hown, hunique d hd hcreated'] at hbalance
    right
    refine ⟨d, hcreated', ?_⟩
    rcases hs.balance with ⟨hnone, _⟩ | ⟨_, _, hsum⟩
    . rw [hnone d] at hcreated
      cases hcreated
    . omega
  . simp only [not_exists, not_and] at hother
    have hnone : ∀ d, d ≠ c → (t.phase d).isCreated = false := by
      intro d hd
      rw [hothers d hd, Bool.eq_false_iff]
      exact hother d hd
    have hsum : s.shared.created
        = s.shared.installed + s.shared.lost.length + (s.phase c).isCreated.toNat := by
      rcases hs.balance with ⟨hall, hsum⟩ | ⟨d, hcreated, hsum⟩
      . rw [hall c, hsum]
        rfl
      . have hd : d = c := by
          by_contra hd
          exact hother d hd hcreated
        rw [← hd, hcreated, hsum]
        rfl
    cases hown : (t.phase c).isCreated with
    | true =>
      right
      refine ⟨c, hown, ?_⟩
      rw [hown, Bool.toNat_true] at hbalance
      omega
    | false =>
      left
      rw [hown, Bool.toNat_false] at hbalance
      refine ⟨?_, by omega⟩
      intro d
      by_cases hd : d = c
      . rw [hd]
        exact hown
      . exact hnone d hd

theorem Consistent.step (hs : Consistent s) (hcorrect : aead.Correct tagBytes)
    (h : (accountSystem C aead crates key).step s label t) : Consistent t := by
  have hspec := spec_of_step hcorrect h
  have howns : t.Owns Shared.mutation Phase.holdsMutation := hs.owns.step h.1 hspec.lock
  refine ⟨howns, hs.reserved_step hcorrect h, hs.balance_step hcorrect h howns, ?_⟩
  intro lost hlost
  rcases hspec.faults (hs.reserved label.1) lost hlost with hold | hfault
  . exact hs.faults lost hold
  . exact hfault

theorem consistent_of_reachable (hcorrect : aead.Correct tagBytes)
    (h : (accountSystem C aead crates key).Reachable s) : Consistent s :=
  h.invariant consistent_of_init fun hs hstep => hs.step hcorrect hstep

theorem keeps_run {es : List (C × Action crates)} (hcorrect : aead.Correct tagBytes)
    (h : (accountSystem C aead crates key).Run s es t) : Keeps aead key s.shared.file t.shared.file := by
  apply h.relates (P := fun _ => True) (R := fun s t => Keeps aead key s.shared.file t.shared.file)
  . intro s
    exact keeps_refl s.shared.file
  . intro _ _ _ h h'
    exact Keeps.trans h h'
  . exact fun _ _ => trivial
  . intro _ _ _ _ hstep
    exact (spec_of_step hcorrect hstep).keeps
  . trivial

theorem holds_of_import_step {c : C} (hcorrect : aead.Correct tagBytes)
    (hphase : s.phase c = .importing encoded)
    (h : (accountSystem C aead crates key).step s (c, .run io) t)
    (hok : t.phase c = .returning (.ok ())) : Holds aead key t.shared.file encoded := by
  have hact := (Processes.act_of_step h.1).1
  have hkey : io.KeyIs key := h.2 io rfl
  rw [hphase, hok] at hact
  rcases hrun : (importAccount aead crates io encoded).run s.shared.file with ⟨result, file'⟩
  simp only [act, runSection, hrun, Option.some.injEq, Prod.mk.injEq] at hact
  rcases hact with ⟨hshared, hresult⟩
  injection hresult with hresult
  rw [hresult] at hrun
  rcases importAccount_eq_ok hrun with ⟨_, _, hinstall⟩
  rw [← hshared]
  exact holds_of_install (reopens_of_correct hcorrect _ _) hkey hinstall

theorem holds_of_installCreatedAccount {origin : ServiceOrigin crates}
    {response : CreateAccountResponse crates} {secret : ConsumerIdentitySecret}
    {rootKey : Option AccountRootKey} (hcorrect : aead.Correct tagBytes) (hkey : io.KeyIs key)
    (h : (installCreatedAccount aead io origin response secret rootKey).run file = (.ok (), file'))
    : ∃ generated encoded, rootKey = some generated
        ∧ encode (.owner ⟨origin, response.accountId, response.publishApiToken,
          response.downloadApiToken, generated, secret⟩) = .ok encoded
        ∧ Holds aead key file' encoded := by
  cases rootKey with
  | none =>
    rw [run_installCreatedAccount_none] at h
    cases h
  | some generated =>
    unfold installCreatedAccount at h
    rw [createdBundle_eq, Effect.run_bind_of_ok (Effect.run_lift _ _)] at h
    rcases Effect.run_bind_eq_ok_iff.mp h with ⟨encoded, _, hencode, hinstall⟩
    rw [Effect.run_lift, Prod.mk.injEq] at hencode
    rcases hencode with ⟨hencode, rfl⟩
    exact ⟨generated, encoded, rfl, hencode,
      holds_of_install (reopens_of_correct hcorrect _ _) hkey hinstall⟩

theorem holds_of_install_step {c : C} {origin : ServiceOrigin crates}
    {response : CreateAccountResponse crates} {secret : ConsumerIdentitySecret}
    {rootKey : Option AccountRootKey} (hcorrect : aead.Correct tagBytes)
    (hphase : s.phase c = .created origin response)
    (h : (accountSystem C aead crates key).step s (c, .install io secret rootKey) t)
    (hok : t.phase c = .returning (.ok ()))
    : ∃ generated encoded, rootKey = some generated
        ∧ encode (.owner ⟨origin, response.accountId, response.publishApiToken,
          response.downloadApiToken, generated, secret⟩) = .ok encoded
        ∧ Holds aead key t.shared.file encoded := by
  have hact := (Processes.act_of_step h.1).1
  have hkey : io.KeyIs key := h.2 io rfl
  rw [hphase, hok] at hact
  rcases hrun : (installCreatedAccount aead io origin response secret rootKey).run s.shared.file with
    ⟨result, file'⟩
  simp only [act, runInstall, hrun, Option.some.injEq] at hact
  cases result with
  | ok _ =>
    rw [Prod.mk.injEq] at hact
    rw [← hact.1]
    exact holds_of_installCreatedAccount hcorrect hkey hrun
  | error e =>
    rw [Prod.mk.injEq] at hact
    cases hact.2

omit [DecidableEq C] in
theorem act_installed {c : C} {shared shared' : Shared C} {phase phase' : Phase crates}
    {action : Action crates} (h : act aead c shared phase action = some (shared', phase'))
    : shared'.installed = shared.installed
        ∨ shared'.installed = shared.installed + 1
          ∧ phase' = .returning (.ok ())
          ∧ ∃ origin response io secret rootKey,
            phase = .created origin response ∧ action = .install io secret rootKey := by
  unfold act at h
  split at h
  -- create
  . split at h <;> cases h <;> exact .inl rfl
  -- checking
  . cases h
    exact .inl rfl
  -- preparing
  . split at h <;> cases h <;> exact .inl rfl
  -- locking
  . split at h <;> cases h <;> exact .inl rfl
  -- rechecking
  . cases h
    exact .inl rfl
  -- requesting
  . split at h <;> cases h <;> exact .inl rfl
  -- created
  . next origin response io secret rootKey =>
    rw [Option.some.injEq] at h
    unfold runInstall at h
    split at h
    . cases h
      exact .inr ⟨rfl, rfl, origin, response, io, secret, rootKey, rfl, rfl⟩
    . cases h
      exact .inl rfl
  -- installScoped
  . split at h <;> cases h <;> exact .inl rfl
  -- importLocking
  . split at h <;> cases h <;> exact .inl rfl
  -- importing
  . cases h
    exact .inl rfl
  -- load
  . cases h
    exact .inl rfl
  -- loading
  . cases h
    exact .inl rfl
  -- returning
  . cases h
    exact .inl rfl
  . cases h

theorem Holds.run {es : List (C × Action crates)} (hcorrect : aead.Correct tagBytes)
    (h : Holds aead key s.shared.file encoded)
    (hrun : (accountSystem C aead crates key).Run s es t) : Holds aead key t.shared.file encoded := by
  rcases h with ⟨stored, hfile, henvelope, hopen⟩
  rcases keeps_run hcorrect hrun stored hfile with hsame | ⟨hplain, _⟩
  . exact ⟨stored, hsame, henvelope, hopen⟩
  . rw [henvelope] at hplain
    cases hplain

theorem creations_installed (hcorrect : aead.Correct tagBytes)
    (h : (accountSystem C aead crates key).Reachable s)
    : ((∀ c, (s.phase c).isCreated = false) →
        s.shared.created = s.shared.installed + s.shared.lost.length)
      ∧ (∀ c, (s.phase c).isCreated = true →
        s.shared.created = s.shared.installed + s.shared.lost.length + 1)
      ∧ (∀ lost ∈ s.shared.lost, lost.IsFault)
      ∧ (∀ c origin response, s.phase c = .created origin response →
        s.shared.file = none
          ∧ ∀ io secret rootKey e file',
            (installCreatedAccount aead io origin response secret rootKey).run s.shared.file
              = (.error e, file') →
            LostAccount.IsFault ⟨io, rootKey, e⟩ ∧ file' = none)
      ∧ (∀ c action t, (accountSystem C aead crates key).step s (c, action) t →
        t.shared.installed ≠ s.shared.installed →
        t.shared.installed = s.shared.installed + 1
          ∧ t.phase c = .returning (.ok ())
          ∧ ∃ origin response io secret rootKey,
            s.phase c = .created origin response ∧ action = .install io secret rootKey)
      ∧ (∀ c origin response io secret rootKey t, s.phase c = .created origin response →
        (accountSystem C aead crates key).step s (c, .install io secret rootKey) t →
        t.phase c = .returning (.ok ()) →
        ∃ generated encoded, rootKey = some generated
          ∧ encode (.owner ⟨origin, response.accountId, response.publishApiToken,
            response.downloadApiToken, generated, secret⟩) = .ok encoded
          ∧ ∀ es u, (accountSystem C aead crates key).Run t es u →
            Holds aead key u.shared.file encoded)
      ∧ (∀ es t stored, (accountSystem C aead crates key).Run s es t →
        s.shared.file = some stored →
        t.shared.file = some stored
          ∨ (isEnvelope stored = false ∧ Holds aead key t.shared.file stored))
      ∧ (∀ c encoded io t es u, s.phase c = .importing encoded →
        (accountSystem C aead crates key).step s (c, .run io) t →
        t.phase c = .returning (.ok ()) → (accountSystem C aead crates key).Run t es u →
        Holds aead key u.shared.file encoded)
      ∧ ∀ encoded bundle io, Contains aead key s.shared.file encoded →
        AccountBundle.parse crates encoded = .ok (.scoped bundle) → io.Works key →
        ∃ file',
          (importAccount aead crates io encoded).run s.shared.file = (.ok (), file')
            ∧ Contains aead key file' encoded
            ∧ (Holds aead key s.shared.file encoded → file' = s.shared.file) := by
  have hs := consistent_of_reachable hcorrect h
  refine ⟨?_, ?_, hs.faults, ?_, ?_, ?_, ?_, ?_, ?_⟩
  . intro hnone
    rcases hs.balance with ⟨_, hsum⟩ | ⟨c, hcreated, _⟩
    . exact hsum
    . rw [hnone c] at hcreated
      cases hcreated
  . intro c hcreated
    rcases hs.balance with ⟨hnone, _⟩ | ⟨_, _, hsum⟩
    . rw [hnone c] at hcreated
      cases hcreated
    . exact hsum
  . intro c origin response hphase
    have hnone : s.shared.file = none := by
      apply hs.reserved c
      rw [hphase]
      rfl
    refine ⟨hnone, ?_⟩
    intro io secret rootKey e file' hrun
    rw [hnone] at hrun
    exact installCreatedAccount_none_eq_error hcorrect hrun
  . intro c action t hstep hinstalled
    rcases act_installed (Processes.act_of_step hstep.1).1 with hsame | ⟨hcount, hphase, hcreated⟩
    . exact absurd hsame hinstalled
    . exact ⟨hcount, hphase, hcreated⟩
  . intro c origin response io secret rootKey t hphase hstep hok
    rcases holds_of_install_step hcorrect hphase hstep hok with
      ⟨generated, encoded, hgenerated, hencode, hholds⟩
    exact ⟨generated, encoded, hgenerated, hencode, fun es u hrun => hholds.run hcorrect hrun⟩
  . intro es t stored hrun hfile
    exact keeps_run hcorrect hrun stored hfile
  . intro c encoded io t es u hphase hstep hok hrun
    exact (holds_of_import_step hcorrect hphase hstep hok).run hcorrect hrun
  . intro encoded bundle io hcontains hparse hworks
    rcases hcontains with hholds | ⟨hfile, hplain⟩
    . refine ⟨s.shared.file, ?_, Or.inl hholds, fun _ => rfl⟩
      exact run_import_of_holds hholds hparse hworks.lock hworks.read (hworks.masterKey false)
    . rcases run_import_of_plaintext hcorrect hparse hplain hworks with
        ⟨encrypted, hrun, hholds⟩
      rw [hfile]
      refine ⟨some encrypted, hrun, Or.inl hholds, ?_⟩
      rintro ⟨stored, hstored, henvelope, _⟩
      cases hstored
      rw [henvelope] at hplain
      cases hplain

end

end AccountFile

namespace Fixture

def accountResponse : CreateAccountResponse accountCrates where
  accountId := owner.accountId
  publishApiToken := owner.publishApiToken
  downloadApiToken := owner.downloadApiToken
  isUuidV7 := by decide
  serviceHash_ne := by decide +kernel

theorem localIo_keyIs : localIo.KeyIs masterKey := by
  rintro _ used ⟨⟩
  rfl

def creating (phase : AccountFile.Phase accountCrates) (mutation : Option Unit) (created : Nat)
    : Processes Unit (AccountFile.Shared Unit) (AccountFile.Phase accountCrates) where
  shared := { file := none, mutation, created, installed := 0, lost := [] }
  phase _ := phase

abbrev AccountReachable (s : Processes Unit (AccountFile.Shared Unit) (AccountFile.Phase accountCrates))
    : Prop :=
  (accountSystem Unit tagAead accountCrates masterKey).Reachable s

theorem creating_step {phase phase' : AccountFile.Phase accountCrates}
    {mutation mutation' : Option Unit} {created created' : Nat}
    (action : AccountFile.Action accountCrates)
    (hs : AccountReachable (creating phase mutation created))
    (h : AccountFile.act tagAead () (creating phase mutation created).shared phase action
      = some ((creating phase' mutation' created').shared, phase'))
    (hio : ∀ io ∈ action.io, io.KeyIs masterKey)
    : AccountReachable (creating phase' mutation' created') := by
  have hphase : (creating phase' mutation' created').phase
      = Function.update (creating phase mutation created).phase () phase' := by
    funext _
    rfl
  have hstep : (creating phase mutation created).step (AccountFile.act tagAead) () action
      = some (creating phase' mutation' created') :=
    Processes.step_eq_some_iff.mpr ⟨phase', h, hphase⟩
  exact System.Reachable.step (e := ((), action)) hs ⟨hstep, hio⟩

theorem reachable_created
    : AccountReachable (creating (.created owner.serviceOrigin accountResponse) (some ()) 1) := by
  have hinit : (accountSystem Unit tagAead accountCrates masterKey).init (creating .idle none 0) :=
    ⟨fun _ => rfl, rfl, rfl, rfl, rfl⟩
  have hcreate : AccountFile.act tagAead () (creating .idle none 0).shared .idle
      (.create Fixture.origin)
        = some ((creating (.checking owner.serviceOrigin) none 0).shared,
          .checking owner.serviceOrigin) := by
    have hparse : ServiceOrigin.parse accountCrates Fixture.origin = .ok owner.serviceOrigin :=
      ServiceOrigin.parse_eq_ok_iff.mpr rfl
    rw [AccountFile.act, hparse]
    rfl
  have hio : ∀ io, some localIo = some io → io.KeyIs masterKey := by
    rintro io ⟨⟩
    exact localIo_keyIs
  have hchecking := creating_step _ (.of_init hinit) hcreate nofun
  have hpreparing : AccountReachable (creating (.preparing owner.serviceOrigin) none 0) :=
    creating_step (.run localIo) hchecking rfl hio
  have hlocking : AccountReachable (creating (.locking owner.serviceOrigin) none 0) :=
    creating_step (.run localIo) hpreparing rfl hio
  have hrechecking : AccountReachable (creating (.rechecking owner.serviceOrigin) (some ()) 0) :=
    creating_step (.acquire (.ok ())) hlocking rfl nofun
  have hrequesting : AccountReachable (creating (.requesting owner.serviceOrigin) (some ()) 0) :=
    creating_step (.run localIo) hrechecking rfl hio
  exact creating_step (.respond (.ok accountResponse)) hrequesting rfl nofun

def installed (io : LocalIo) (secret : ConsumerIdentitySecret) (rootKey : Option AccountRootKey)
    : Processes Unit (AccountFile.Shared Unit) (AccountFile.Phase accountCrates) where
  shared := (AccountFile.runInstall tagAead
    (creating (.created owner.serviceOrigin accountResponse) (some ()) 1).shared io
    owner.serviceOrigin accountResponse secret rootKey).1
  phase _ := (AccountFile.runInstall tagAead
    (creating (.created owner.serviceOrigin accountResponse) (some ()) 1).shared io
    owner.serviceOrigin accountResponse secret rootKey).2

theorem step_installed {io : LocalIo} (secret : ConsumerIdentitySecret)
    (rootKey : Option AccountRootKey) (hio : io.KeyIs masterKey)
    : (accountSystem Unit tagAead accountCrates masterKey).step
        (creating (.created owner.serviceOrigin accountResponse) (some ()) 1)
        ((), .install io secret rootKey) (installed io secret rootKey) := by
  constructor
  . apply Processes.step_eq_some_iff.mpr
    refine ⟨(installed io secret rootKey).phase (), rfl, ?_⟩
    funext _
    rfl
  . rintro _ ⟨⟩
    exact hio

theorem phase_installed
    : (installed localIo owner.consumerIdentitySecret (some owner.accountRootKey)).phase ()
        =
      .returning (.ok ()) := by
  have hok : ((AccountFile.installCreatedAccount tagAead localIo owner.serviceOrigin accountResponse
      owner.consumerIdentitySecret (some owner.accountRootKey)).run none).1.isOk = true := by
    decide +kernel
  rcases hrun : (AccountFile.installCreatedAccount tagAead localIo owner.serviceOrigin accountResponse
      owner.consumerIdentitySecret (some owner.accountRootKey)).run none with ⟨result, file⟩
  rw [hrun] at hok
  cases result with
  | ok _ =>
    unfold installed AccountFile.runInstall creating
    dsimp only
    rw [hrun]
  | error _ => cases hok

end Fixture

theorem AccountFile.creations_installed_created
    : (Fixture.creating (.created Fixture.owner.serviceOrigin Fixture.accountResponse) (some ()) 1).shared.file
          = none
      ∧ (∀ io secret rootKey e file',
        (AccountFile.installCreatedAccount Fixture.tagAead io Fixture.owner.serviceOrigin
          Fixture.accountResponse secret rootKey).run none = (.error e, file') →
        AccountFile.LostAccount.IsFault ⟨io, rootKey, e⟩ ∧ file' = none)
      ∧ ∃ encoded, AccountFile.encode (.owner Fixture.owner) = .ok encoded
        ∧ AccountFile.Holds Fixture.tagAead Fixture.masterKey
          (Fixture.installed Fixture.localIo Fixture.owner.consumerIdentitySecret
            (some Fixture.owner.accountRootKey)).shared.file encoded := by
  have hcorrect : Fixture.tagAead.Correct tagBytes := Aead.correct_appendTag _
  have hall := AccountFile.creations_installed hcorrect Fixture.reachable_created
  refine ⟨(hall.2.2.2.1 () _ _ rfl).1, (hall.2.2.2.1 () _ _ rfl).2, ?_⟩
  have hphase : (Fixture.creating (.created Fixture.owner.serviceOrigin Fixture.accountResponse)
      (some ()) 1).phase () = .created Fixture.owner.serviceOrigin Fixture.accountResponse := rfl
  have hstep := Fixture.step_installed Fixture.owner.consumerIdentitySecret
    (some Fixture.owner.accountRootKey) Fixture.localIo_keyIs
  have hinstalled := hall.2.2.2.2.2.1 () _ _ _ _ _ _ hphase hstep Fixture.phase_installed
  rcases hinstalled with ⟨generated, encoded, hgenerated, hencode, hholds⟩
  rw [← Option.some.inj hgenerated] at hencode
  exact ⟨encoded, hencode, hholds [] _ (System.Run.nil _)⟩

end Attached
