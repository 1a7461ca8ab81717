import Attached.Library.Effect
import Attached.Local.EnvelopeLemmas

/-!
This module contains files with a secret that may still be stored in the plaintext of earlier
versions. Loading such a file encrypts it. What this needs from the plaintext format is that it never
looks like an envelope.
-/

namespace Attached

open LocalEncryption

/--
What a load meets outside of the file: locks and reads may fail, keys may be missing, the operating
system may have no randomness, and a new file may fail to be installed.
-/
structure LocalIo where
  lock : Except Failure Unit
  read : Except Failure Unit
  masterKey : Bool → Except Failure (Vector UInt8 32)
  random : Option (Vector UInt8 nonceBytes)
  /-- Everything up to the rename of `atomic_replace`, or the writes of `create_noclobber`. -/
  install : Except Failure Unit

abbrev StateFile := Option (List UInt8)

abbrev FileEffect := Effect StateFile Failure

namespace LocalIo

def readSecretOptionalBounded (io : LocalIo) (name : String) (limit : Nat)
    : FileEffect (Option (List UInt8)) := do
  Effect.lift io.read
  let file ← Effect.get
  Effect.lift (LocalEncryption.readSecretOptionalBounded name file limit)

/--
`atomic_replace` fails only before its rename, afterwards a failure is diagnostic.
-/
def atomicReplace (io : LocalIo) (bytes : List UInt8) : FileEffect Unit := do
  Effect.lift io.install
  Effect.set (some bytes)

/--
`create_noclobber`, which tells whether the file was created.
-/
def createNoclobber (io : LocalIo) (bytes : List UInt8) : FileEffect Bool := do
  match ← Effect.get with
  | some _ => return false
  | none =>
    Effect.lift io.install
    Effect.set (some bytes)
    return true

end LocalIo

/--
A format for secrets. `isSealed` decides whether a file is an envelope or a plaintext.
-/
structure SecretStore (α : Type) where
  file : String
  purpose : Purpose
  limit : Nat
  isSealed : List UInt8 → Bool
  decode : List UInt8 → Except Failure α
  limit_le : headerBytes + limit + tagBytes ≤ usizeMax
  isSealed_eq_false : ∀ {plaintext : List UInt8} {value : α},
    decode plaintext = .ok value → isSealed plaintext = false
  isSealed_layout : ∀ (nonce : Vector UInt8 nonceBytes) {ciphertext : List UInt8},
    tagBytes ≤ ciphertext.length → isSealed (layout nonce ciphertext) = true

namespace SecretStore

variable {α β : Type}

section

variable (aead : Aead (Vector UInt8 32) (Vector UInt8 nonceBytes)) (store : SecretStore α)

def install (io : LocalIo) (plaintext : List UInt8) : FileEffect Unit := do
  let key ← Effect.lift (io.masterKey true)
  let encrypted ← Effect.lift (sealSecret aead key store.purpose plaintext store.limit io.random)
  io.atomicReplace encrypted

def loadStored (io : LocalIo) (stored : List UInt8) : FileEffect α := do
  if store.isSealed stored then
    let key ← Effect.lift (io.masterKey false)
    let plaintext ← Effect.lift (openSecret aead key store.purpose stored store.limit)
    Effect.lift (store.decode plaintext)
  else
    let value ← Effect.lift (store.decode stored)
    store.install aead io stored
    return value

def load (io : LocalIo) (absent : FileEffect β) (present : α → β) : FileEffect β := do
  Effect.lift io.lock
  match ← io.readSecretOptionalBounded store.file (storedLimit store.limit) with
  | none => absent
  | some stored => do
    let value ← store.loadStored aead io stored
    return present value

end

section

variable {aead : Aead (Vector UInt8 32) (Vector UInt8 nonceBytes)} {store : SecretStore α}
  {io : LocalIo} {absent : FileEffect β} {present : α → β}

theorem readOnly_readSecretOptionalBounded (name : String) (limit : Nat)
    : (io.readSecretOptionalBounded name limit).ReadOnly := by
  apply Effect.ReadOnly.bind (Effect.readOnly_lift _)
  intro _
  apply Effect.ReadOnly.bind Effect.readOnly_get
  intro file
  exact Effect.readOnly_lift _

theorem failsClosed_atomicReplace (bytes : List UInt8) : (io.atomicReplace bytes).FailsClosed := by
  apply Effect.FailsClosed.bind (Effect.readOnly_lift _)
  intro _ s t e h
  simp at h

theorem createNoclobber_eq_ok {bytes : List UInt8} {created : Bool} {file file' : StateFile}
    (h : (io.createNoclobber bytes).run file = (.ok created, file'))
    : (created = true ∧ file = none ∧ file' = some bytes)
        ∨ (created = false ∧ file ≠ none ∧ file' = file) := by
  rcases Effect.run_bind_eq_ok_iff.mp h with ⟨_, _, hget, hrest⟩
  cases hget
  cases file with
  | some stored =>
    cases hrest
    exact Or.inr ⟨rfl, by simp, rfl⟩
  | none =>
    simp only [Effect.run_bind_eq_ok_iff, Effect.run_lift, Effect.run_set, Effect.run_pure,
      Prod.mk.injEq, Except.ok.injEq] at hrest
    rcases hrest with ⟨_, _, _, _, _, ⟨_, rfl⟩, rfl, rfl⟩
    exact Or.inl ⟨rfl, rfl, rfl⟩

theorem createNoclobber_eq_error {bytes : List UInt8} {e : Failure} {file file' : StateFile}
    (h : (io.createNoclobber bytes).run file = (.error e, file'))
    : io.install = .error e ∧ file = none ∧ file' = none := by
  rcases Effect.run_bind_eq_error_iff.mp h with hget | ⟨_, _, hget, hrest⟩
  . cases hget
  cases hget
  cases file with
  | some stored => cases hrest
  | none =>
    simp only [Effect.run_bind_eq_error_iff, Effect.run_lift, Effect.run_set, Effect.run_pure,
      Prod.mk.injEq, reduceCtorEq, false_and, and_false, exists_false, or_false] at hrest
    exact ⟨hrest.1, rfl, hrest.2.symm⟩

theorem failsClosed_createNoclobber (bytes : List UInt8)
    : (io.createNoclobber bytes).FailsClosed := by
  intro file file' e h
  rcases createNoclobber_eq_error h with ⟨_, rfl, rfl⟩
  rfl

theorem failsClosed_install (plaintext : List UInt8)
    : (store.install aead io plaintext).FailsClosed := by
  apply Effect.FailsClosed.bind (Effect.readOnly_lift _)
  intro key
  apply Effect.FailsClosed.bind (Effect.readOnly_lift _)
  intro encrypted
  exact failsClosed_atomicReplace encrypted

theorem failsClosed_loadStored (stored : List UInt8)
    : (store.loadStored aead io stored).FailsClosed := by
  unfold loadStored
  split
  . apply Effect.ReadOnly.failsClosed
    apply Effect.ReadOnly.bind (Effect.readOnly_lift _)
    intro key
    apply Effect.ReadOnly.bind (Effect.readOnly_lift _)
    intro plaintext
    exact Effect.readOnly_lift _
  . apply Effect.FailsClosed.bind (Effect.readOnly_lift _)
    intro value
    exact Effect.FailsClosed.map (f := fun _ => value) (failsClosed_install stored)

theorem install_eq_ok_iff {plaintext : List UInt8} {file file' : StateFile} {u : Unit}
    : (store.install aead io plaintext).run file = (.ok u, file')
        ↔
      ∃ key encrypted,
        io.masterKey true = .ok key
          ∧ sealSecret aead key store.purpose plaintext store.limit io.random = .ok encrypted
          ∧ io.install = .ok ()
          ∧ file' = some encrypted := by
  simp only [install, LocalIo.atomicReplace, Effect.run_bind_eq_ok_iff, Effect.run_lift,
    Effect.run_set, Prod.mk.injEq]
  constructor
  . rintro ⟨key, _, ⟨hkey, rfl⟩, encrypted, _, ⟨hseal, rfl⟩, _, _, ⟨hinstall, rfl⟩, _, rfl⟩
    exact ⟨key, encrypted, hkey, hseal, hinstall, rfl⟩
  . rintro ⟨key, encrypted, hkey, hseal, hinstall, rfl⟩
    exact ⟨key, file, ⟨hkey, rfl⟩, encrypted, file, ⟨hseal, rfl⟩, (), file, ⟨hinstall, rfl⟩, trivial, rfl⟩

theorem run_readSecretOptionalBounded {name : String} {limit : Nat} {stored : List UInt8}
    (hread : io.read = .ok ()) (hlength : stored.length ≤ limit)
    : (io.readSecretOptionalBounded name limit).run (some stored)
        =
      (.ok (some stored), some stored) := by
  simp [LocalIo.readSecretOptionalBounded, LocalEncryption.readSecretOptionalBounded, hread,
    hlength, Except.ensure, bind, Except.bind, pure, Except.pure]

theorem readSecretOptionalBounded_eq_ok {name : String} {limit : Nat} {stored : List UInt8}
    {result : Option (List UInt8)} {file' : StateFile}
    (h : (io.readSecretOptionalBounded name limit).run (some stored) = (.ok result, file'))
    : result = some stored ∧ file' = some stored := by
  simp only [LocalIo.readSecretOptionalBounded, LocalEncryption.readSecretOptionalBounded,
    Effect.run_bind_eq_ok_iff, Effect.run_lift, Effect.run_get, Prod.mk.injEq, Except.ok.injEq] at h
  rcases h with ⟨_, _, ⟨_, rfl⟩, _, _, ⟨rfl, rfl⟩, hread, rfl⟩
  rcases Except.bind_eq_ok_iff.mp hread with ⟨_, _, hread⟩
  exact ⟨(Except.pure_eq_ok_iff.mp hread).symm, rfl⟩

theorem readSecretOptionalBounded_none_eq_ok {name : String} {limit : Nat}
    {result : Option (List UInt8)} {file' : StateFile}
    (h : (io.readSecretOptionalBounded name limit).run none = (.ok result, file'))
    : result = none ∧ file' = none := by
  simp only [LocalIo.readSecretOptionalBounded, LocalEncryption.readSecretOptionalBounded,
    Effect.run_bind_eq_ok_iff, Effect.run_lift, Effect.run_get, Prod.mk.injEq, Except.ok.injEq] at h
  rcases h with ⟨_, _, ⟨_, rfl⟩, _, _, ⟨rfl, rfl⟩, hread, rfl⟩
  cases hread
  exact ⟨rfl, rfl⟩

theorem readSecretOptionalBounded_none_eq_error {name : String} {limit : Nat} {e : Failure}
    {file' : StateFile}
    (h : (io.readSecretOptionalBounded name limit).run none = (.error e, file'))
    : io.read = .error e ∧ file' = none := by
  refine ⟨?_, (readOnly_readSecretOptionalBounded _ _).failsClosed h⟩
  rcases Effect.run_bind_eq_error_iff.mp h with hread | ⟨_, _, hread, hrest⟩
  . rw [Effect.run_lift, Prod.mk.injEq] at hread
    exact hread.1
  . rw [Effect.run_lift, Prod.mk.injEq] at hread
    rcases hread with ⟨_, rfl⟩
    simp only [LocalEncryption.readSecretOptionalBounded, Effect.run_bind_eq_error_iff,
      Effect.run_get, Effect.run_lift, Prod.mk.injEq, reduceCtorEq, false_and, false_or,
      Except.ok.injEq] at hrest
    rcases hrest with ⟨_, _, ⟨rfl, rfl⟩, hbounded, _⟩
    cases hbounded

theorem load_eq_ok {stored : List UInt8} {result : β} {file' : StateFile}
    (h : (store.load aead io absent present).run (some stored) = (.ok result, file'))
    : ∃ value, result = present value
        ∧ (store.loadStored aead io stored).run (some stored) = (.ok value, file') := by
  rcases Effect.run_bind_eq_ok_iff.mp h with ⟨_, _, hlock, hafter⟩
  rw [Effect.run_lift, Prod.mk.injEq] at hlock
  rcases hlock with ⟨_, rfl⟩
  rcases Effect.run_bind_eq_ok_iff.mp hafter with ⟨_, _, hread, hafter⟩
  rcases readSecretOptionalBounded_eq_ok hread with ⟨rfl, rfl⟩
  rcases Effect.run_bind_eq_ok_iff.mp hafter with ⟨value, _, hvalue, hafter⟩
  rw [Effect.run_pure, Prod.mk.injEq, Except.ok.injEq] at hafter
  rcases hafter with ⟨rfl, rfl⟩
  exact ⟨value, rfl, hvalue⟩

theorem load_error {stored : List UInt8} {e : Failure} {file' : StateFile}
    (h : (store.load aead io absent present).run (some stored) = (.error e, file'))
    : file' = some stored := by
  rcases Effect.run_bind_eq_error_iff.mp h with hlock | ⟨_, _, hlock, hafter⟩
  . exact (Effect.readOnly_lift _).failsClosed hlock
  . rw [Effect.run_lift, Prod.mk.injEq] at hlock
    rcases hlock with ⟨_, rfl⟩
    rcases Effect.run_bind_eq_error_iff.mp hafter with hread | ⟨_, _, hread, hafter⟩
    . exact (readOnly_readSecretOptionalBounded _ _).failsClosed hread
    . rcases readSecretOptionalBounded_eq_ok hread with ⟨rfl, rfl⟩
      exact Effect.FailsClosed.map (failsClosed_loadStored stored) hafter

theorem load_legacy {stored : List UInt8} {result : β} {file' : StateFile}
    (hlegacy : store.isSealed stored = false)
    (h : (store.load aead io absent present).run (some stored) = (.ok result, file'))
    : ∃ value key encrypted,
        result = present value
          ∧ store.decode stored = .ok value
          ∧ io.masterKey true = .ok key
          ∧ sealSecret aead key store.purpose stored store.limit io.random = .ok encrypted
          ∧ file' = some encrypted := by
  rcases load_eq_ok h with ⟨value, rfl, hstored⟩
  simp only [loadStored, hlegacy, Bool.false_eq_true, if_false, Effect.run_bind_eq_ok_iff,
    Effect.run_lift, Effect.run_pure, install_eq_ok_iff, Prod.mk.injEq, Except.ok.injEq] at hstored
  rcases hstored with ⟨_, _, ⟨hdecode, rfl⟩, _, _, ⟨key, encrypted, hkey, hseal, _, rfl⟩, rfl, rfl⟩
  exact ⟨_, key, encrypted, rfl, hdecode, hkey, hseal, rfl⟩

theorem load_sealed {stored : List UInt8} (hsealed : store.isSealed stored = true)
    : ((store.load aead io absent present).run (some stored)).2 = some stored := by
  rcases hrun : (store.load aead io absent present).run (some stored) with ⟨result, file'⟩
  cases result with
  | error e => exact load_error hrun
  | ok result =>
    rcases load_eq_ok hrun with ⟨value, _, hstored⟩
    simp only [loadStored, hsealed, if_true, Effect.run_bind_eq_ok_iff, Effect.run_lift,
      Prod.mk.injEq] at hstored
    rcases hstored with ⟨_, _, ⟨_, rfl⟩, _, _, ⟨_, rfl⟩, _, rfl⟩
    rfl

theorem load_none (habsent : absent.ReadOnly)
    : ((store.load aead io absent present).run none).2 = none := by
  unfold load
  rw [Effect.bind_def, Effect.run_lift]
  cases io.lock with
  | error e => rfl
  | ok _ =>
    dsimp only
    have hreadOnly : (io.readSecretOptionalBounded store.file (storedLimit store.limit)).ReadOnly :=
      readOnly_readSecretOptionalBounded _ _
    have hread := hreadOnly none
    rcases hrun : (io.readSecretOptionalBounded store.file (storedLimit store.limit)).run none with
      ⟨result, file'⟩
    rw [hrun] at hread
    dsimp only at hread
    subst hread
    cases result with
    | error e => rw [Effect.run_bind_of_error hrun]
    | ok stored =>
      rw [Effect.run_bind_of_ok hrun]
      cases (readSecretOptionalBounded_none_eq_ok hrun).1
      exact habsent none

section

variable {sealed : Set (Aead.Sealing (Vector UInt8 32) (Vector UInt8 nonceBytes))}
  {key : Vector UInt8 32} {plaintext encrypted : List UInt8}

theorem isSealed_sealSecret {purpose : Purpose} {limit : Nat}
    {random : Option (Vector UInt8 nonceBytes)} (hideal : aead.Ideal tagBytes sealed)
    (hseal : sealSecret aead key purpose plaintext limit random = .ok encrypted)
    : store.isSealed encrypted = true := by
  rcases sealSecret_eq_ok_iff.mp hseal with ⟨_, nonce, ciphertext, _, hencrypt, rfl⟩
  apply store.isSealed_layout
  have := hideal.length (s := ⟨key, nonce, associatedData purpose, plaintext⟩) hencrypt
  omega

theorem load_sealSecret {nonce : Vector UInt8 nonceBytes} {value : α}
    (hideal : aead.Ideal tagBytes sealed)
    (hmem : ⟨key, nonce, associatedData store.purpose, plaintext⟩ ∈ sealed)
    (hseal : sealSecret aead key store.purpose plaintext store.limit (some nonce) = .ok encrypted)
    (hvalue : store.decode plaintext = .ok value) (hlock : io.lock = .ok ())
    (hread : io.read = .ok ()) (hkey : io.masterKey false = .ok key)
    : (store.load aead io absent present).run (some encrypted)
        = (.ok (present value), some encrypted) := by
  have hopen := openSecret_sealSecret hideal store.limit_le hmem hseal
  have hlength := (length_sealSecret hideal hseal).2
  have hsealed : store.isSealed encrypted = true := isSealed_sealSecret hideal hseal
  have hbounded : (io.readSecretOptionalBounded store.file (storedLimit store.limit)).run
      (some encrypted) = (.ok (some encrypted), some encrypted) := by
    simp only [LocalIo.readSecretOptionalBounded, Effect.run_bind_eq_ok_iff, Effect.run_lift,
      Effect.run_get, Prod.mk.injEq, LocalEncryption.readSecretOptionalBounded]
    refine ⟨(), _, ⟨hread, rfl⟩, _, _, ⟨rfl, rfl⟩, ?_, rfl⟩
    simp only [hlength, Except.bind_eq_ok_iff, Except.ensure_eq_ok_iff, decide_true,
      Except.pure_eq_ok_iff, and_self, exists_const]
  simp only [load, Effect.run_bind_eq_ok_iff, Effect.run_lift, Prod.mk.injEq]
  refine ⟨(), _, ⟨hlock, rfl⟩, _, _, hbounded, ?_⟩
  simp only [loadStored, hsealed, if_true, Effect.run_bind_eq_ok_iff, Effect.run_lift,
    Effect.run_pure, Prod.mk.injEq]
  exact ⟨value, _, ⟨key, _, ⟨hkey, rfl⟩, plaintext, _, ⟨hopen, rfl⟩, hvalue, rfl⟩, rfl, rfl⟩

end

def loadAll (load : LocalIo → FileEffect β) (ios : List LocalIo) (file : StateFile) : StateFile :=
  ios.foldl (fun file io => ((load io).run file).2) file

theorem loadAll_eq {load : LocalIo → FileEffect β} {file : StateFile}
    (h : ∀ io, ((load io).run file).2 = file) (ios : List LocalIo)
    : loadAll load ios file = file := by
  induction ios with
  | nil => rfl
  | cons io ios ih =>
    rw [loadAll, List.foldl_cons, h io]
    exact ih

structure Migrates (aead : Aead (Vector UInt8 32) (Vector UInt8 nonceBytes))
    (sealed : Set (Aead.Sealing (Vector UInt8 32) (Vector UInt8 nonceBytes)))
    (store : SecretStore α) (load : LocalIo → FileEffect β) (present : α → β) : Prop where
  lossless : ∀ {io : LocalIo} {stored : List UInt8} {result : β} {file' : StateFile},
    store.isSealed stored = false → (load io).run (some stored) = (.ok result, file') →
    ∃ value key nonce encrypted,
      result = present value
        ∧ store.decode stored = .ok value
        ∧ io.masterKey true = .ok key
        ∧ io.random = some nonce
        ∧ sealSecret aead key store.purpose stored store.limit (some nonce) = .ok encrypted
        ∧ file' = some encrypted
        ∧ isEnvelope encrypted = true
        ∧ (⟨key, nonce, associatedData store.purpose, stored⟩ ∈ sealed →
            ∀ (between : List LocalIo) (later : LocalIo), later.lock = .ok () →
              later.read = .ok () → later.masterKey false = .ok key →
              (load later).run (loadAll load between file') = (.ok result, file'))
  plaintext : ∀ {stored : List UInt8} {value : α}, store.decode stored = .ok value →
    store.isSealed stored = false
  envelope : ∀ {key : Vector UInt8 32} {purpose : Purpose} {plaintext encrypted : List UInt8}
    {limit : Nat} {random : Option (Vector UInt8 nonceBytes)},
    sealSecret aead key purpose plaintext limit random = .ok encrypted →
    store.isSealed encrypted = true
  failClosed : ∀ {io : LocalIo} {stored : List UInt8} {e : Failure} {file' : StateFile},
    (load io).run (some stored) = (.error e, file') → file' = some stored

theorem migrates {sealed : Set (Aead.Sealing (Vector UInt8 32) (Vector UInt8 nonceBytes))}
    (hideal : aead.Ideal tagBytes sealed) (absent : LocalIo → FileEffect β)
    : Migrates aead sealed store (fun io => store.load aead io (absent io) present) present where
  lossless := by
    intro io stored result file' hlegacy h
    rcases load_legacy hlegacy h with ⟨value, key, encrypted, rfl, hdecode, hkey, hseal, rfl⟩
    rcases sealSecret_eq_ok_iff.mp hseal with ⟨_, nonce, ciphertext, hnonce, _, hlayout⟩
    rw [hnonce] at hseal
    refine ⟨value, key, nonce, encrypted, rfl, hdecode, hkey, hnonce, hseal, rfl, ?_, ?_⟩
    . rw [hlayout]
      exact isEnvelope_layout nonce ciphertext
    . intro hmem between later hlock hread hkey
      rw [loadAll_eq]
      . exact load_sealSecret hideal hmem hseal hdecode hlock hread hkey
      . intro io'
        exact load_sealed (isSealed_sealSecret hideal hseal)
  plaintext := store.isSealed_eq_false
  envelope := isSealed_sealSecret hideal
  failClosed := load_error

end

end SecretStore

end Attached
