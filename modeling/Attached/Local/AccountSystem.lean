import Attached.Library.Processes
import Attached.Local.AccountLemmas

/-!
This module contains invocations of `account create`, `install_publish`, `install_download` and
`load_account` that run at the same time on one state directory. Only the account file and two locks
are shared: the lock of the account file, which each section holds while it runs, and the mutation
lock, which a creation holds from its second check until its account is installed.
-/

namespace Attached

open LocalEncryption

def LocalIo.KeyIs (io : LocalIo) (key : Vector UInt8 32) : Prop :=
  ∀ create used, io.masterKey create = .ok used → used = key

structure LocalIo.Works (io : LocalIo) (key : Vector UInt8 32) : Prop where
  lock : io.lock = .ok ()
  read : io.read = .ok ()
  masterKey : ∀ create, io.masterKey create = .ok key
  random : ∃ nonce, io.random = some nonce
  install : io.install = .ok ()

namespace AccountFile

section

variable (crates : AccountCrates)

def prepareEncryptedAccountStorage (io : LocalIo) : Except Failure Unit := do
  io.lock.mapError (·.context "could not open synchronization account state")
  let _ ← (io.masterKey true).mapError
    (·.context "could not prepare encrypted synchronization account storage")
  return ()

/-- What `install_scoped` checks before it takes the mutation lock. -/
def checkScoped (encoded : List UInt8) (requiredScope : ApiKeyScope) : Except Failure Unit := do
  let bundle ← parseInput crates encoded
  let name := scopeName requiredScope
  Except.ensure
    (match bundle with
      | .scoped bundle => bundle.apiKeyScope == requiredScope
      | .owner _ => false)
    (.error s!"a {name}-only account bundle is required")

end

inductive Phase (crates : AccountCrates) where
  | idle
  | checking (origin : ServiceOrigin crates)
  | preparing (origin : ServiceOrigin crates)
  | locking (origin : ServiceOrigin crates)
  | rechecking (origin : ServiceOrigin crates)
  | requesting (origin : ServiceOrigin crates)
  | created (origin : ServiceOrigin crates) (response : CreateAccountResponse crates)
  | importLocking (encoded : List UInt8)
  | importing (encoded : List UInt8)
  | loading (requiredScope : ApiKeyScope)
  | returning (result : Except Failure Unit)
  | returned (result : Except Failure Unit)

namespace Phase

variable {crates : AccountCrates}

def holdsMutation (phase : Phase crates) : Bool :=
  match phase with
  | .rechecking _ => true
  | .requesting _ => true
  | .created _ _ => true
  | .importing _ => true
  | .returning _ => true
  | _ => false

def isCreated (phase : Phase crates) : Bool :=
  match phase with
  | .created _ _ => true
  | _ => false

def reserves (phase : Phase crates) : Bool :=
  match phase with
  | .requesting _ => true
  | .created _ _ => true
  | _ => false

end Phase

inductive Action (crates : AccountCrates) where
  | create (serviceOrigin : List UInt8)
  | installScoped (encoded : List UInt8) (requiredScope : ApiKeyScope)
  | load (requiredScope : ApiKeyScope)
  | run (io : LocalIo)
  | acquire (result : Except Failure Unit)
  | respond (response : Except Failure (CreateAccountResponse crates))
  | install (io : LocalIo) (secret : ConsumerIdentitySecret) (rootKey : Option AccountRootKey)
  | release

def Action.io {crates : AccountCrates} (action : Action crates) : Option LocalIo :=
  match action with
  | .run io => some io
  | .install io _ _ => some io
  | _ => none

structure LostAccount where
  io : LocalIo
  rootKey : Option AccountRootKey
  failure : Failure

/-- It was lost to the file system, to the key store or to the random numbers for the keys. -/
def LostAccount.IsFault (lost : LostAccount) : Prop :=
  lost.io.lock = .error lost.failure
    ∨ lost.io.read = .error lost.failure
    ∨ lost.io.masterKey true = .error lost.failure
    ∨ lost.io.install = .error lost.failure
    ∨ (lost.io.random = none
        ∧ lost.failure = .error "operating-system randomness is unavailable")
    ∨ (lost.rootKey = none ∧ lost.failure = .error "could not generate the account root key")

structure Shared (C : Type) where
  file : StateFile
  mutation : Option C
  created : Nat
  installed : Nat
  lost : List LostAccount

section

variable {C : Type} (aead : Aead (Vector UInt8 32) (Vector UInt8 nonceBytes))
  {crates : AccountCrates}

def runSection {α : Type} (shared : Shared C) (x : FileEffect α)
    (next : Except Failure α → Phase crates) : Shared C × Phase crates :=
  let (result, file) := x.run shared.file
  ({ shared with file }, next result)

def runInstall (shared : Shared C) (io : LocalIo) (origin : ServiceOrigin crates)
    (response : CreateAccountResponse crates) (secret : ConsumerIdentitySecret)
    (rootKey : Option AccountRootKey) : Shared C × Phase crates :=
  match (installCreatedAccount aead io origin response secret rootKey).run shared.file with
  | (.ok (), file) =>
    ({ shared with file, installed := shared.installed + 1 }, .returning (.ok ()))
  | (.error failure, file) =>
    ({ shared with file, lost := ⟨io, rootKey, failure⟩ :: shared.lost },
      .returning (.error (failure.context ("the service created the account, but its credentials "
        ++ "could not be saved locally; create another account"))))

/-- The atomic steps of `create_with_store`, `install_scoped` and `load_account`. -/
def act (c : C) (shared : Shared C) (phase : Phase crates) (action : Action crates)
    : Option (Shared C × Phase crates) :=
  match phase, action with
  | .idle, .create serviceOrigin =>
    match ServiceOrigin.parse crates serviceOrigin with
    | .ok origin => some (shared, .checking origin)
    | .error _ => some (shared, .returned (.error (.error "invalid sync service origin")))
  | .checking origin, .run io =>
    some (runSection shared (ensureAccountSlotAvailable io) fun
      | .ok _ => .preparing origin
      | .error e => .returned (.error e))
  | .preparing origin, .run io =>
    match prepareEncryptedAccountStorage io with
    | .ok _ => some (shared, .locking origin)
    | .error e => some (shared, .returned (.error e))
  | .locking origin, .acquire result =>
    match result, shared.mutation with
    | .error e, _ => some (shared, .returned (.error e))
    | .ok _, none => some ({ shared with mutation := some c }, .rechecking origin)
    | .ok _, some _ => none
  | .rechecking origin, .run io =>
    some (runSection shared (ensureAccountSlotAvailable io) fun
      | .ok _ => .requesting origin
      | .error e => .returning (.error e))
  | .requesting origin, .respond response =>
    match response with
    | .ok response => some ({ shared with created := shared.created + 1 }, .created origin response)
    | .error e => some (shared, .returning (.error e))
  | .created origin response, .install io secret rootKey =>
    some (runInstall aead shared io origin response secret rootKey)
  | .idle, .installScoped encoded requiredScope =>
    match checkScoped crates encoded requiredScope with
    | .ok _ => some (shared, .importLocking encoded)
    | .error e => some (shared, .returned (.error e))
  | .importLocking encoded, .acquire result =>
    match result, shared.mutation with
    | .error e, _ => some (shared, .returned (.error e))
    | .ok _, none => some ({ shared with mutation := some c }, .importing encoded)
    | .ok _, some _ => none
  | .importing encoded, .run io =>
    some (runSection shared (importAccount aead crates io encoded) .returning)
  | .idle, .load requiredScope => some (shared, .loading requiredScope)
  | .loading requiredScope, .run io =>
    some (runSection shared (loadAccount aead crates io requiredScope) fun result =>
      .returned (result.map fun _ => ()))
  | .returning result, .release => some ({ shared with mutation := none }, .returned result)
  | _, _ => none

end

end AccountFile

/--
Any number of invocations on one state directory, in any order of their sections. The master key
does not change.
-/
def accountSystem (C : Type) [DecidableEq C]
    (aead : Aead (Vector UInt8 32) (Vector UInt8 nonceBytes)) (crates : AccountCrates)
    (key : Vector UInt8 32)
    : System (Processes C (AccountFile.Shared C) (AccountFile.Phase crates))
        (C × AccountFile.Action crates) where
  init s :=
    (∀ c, s.phase c = .idle)
      ∧ s.shared.mutation = none
      ∧ s.shared.created = 0
      ∧ s.shared.installed = 0
      ∧ s.shared.lost = []
  step s label t :=
    s.step (AccountFile.act aead) label.1 label.2 = some t
      ∧ ∀ io ∈ label.2.io, io.KeyIs key

end Attached
