import Attached.Library.Effect
import Attached.Ssh.Export

/-!
This module contains how the exporter puts its block into the SSH configuration of the user, and how
it takes the block out again. The user may edit everything between two steps.
-/

namespace Attached

/-- What the exporter uses of `fs::Metadata`. The mode contains the type of the file. -/
structure ConfigMetadata where
  isFile : Bool
  nlink : Nat
  uid : Nat
  dev : Nat
  ino : Nat
  mode : Nat
  deriving DecidableEq

structure UserFile where
  bytes : List UInt8
  metadata : ConfigMetadata
  deriving DecidableEq

inductive Opened where
  | absent
  | refused
  | file (file : UserFile)
  deriving DecidableEq

inductive ConfigEntry where
  | missing
  | resolves (target : String)
  | broken
  deriving DecidableEq

structure UserFiles where
  entry : ConfigEntry
  files : String → Opened

/--
What happens before a step and in it: the user edits some files, and the step may fail. A new file gets
its device and its inode.
-/
structure Turn where
  edit : UserFiles → UserFiles
  fails : Bool
  identity : Nat × Nat

def Turn.idle : Turn where
  edit := id
  fails := false
  identity := (0, 0)

structure ConfigWrite where
  before : UserFiles
  target : String
  bytes : List UInt8

structure ConfigWorld where
  euid : Nat
  user : UserFiles
  managed : Option (List UInt8)
  turns : List Turn
  writes : List ConfigWrite

abbrev ConfigEffect := Effect ConfigWorld String

structure ConfigFile where
  bytes : List UInt8
  metadata : Option ConfigMetadata
  deriving DecidableEq

structure ManagedConfig where
  source : String
  target : String
  block : List UInt8
  deriving DecidableEq

namespace ManagedConfig

open Exporter (header fallback maxConfigBytes)

def beginMarker : List UInt8 := Bytes.ofString "# BEGIN Attached managed SSH configuration\n"
def endMarker : List UInt8 := Bytes.ofString "# END Attached managed SSH configuration\n"

def ioError : String := "i/o error"

def turn : ConfigEffect Turn := do
  match (← Effect.get).turns with
  | [] => return .idle
  | turn :: turns =>
    Effect.modify fun world => { world with user := turn.edit world.user, turns := turns }
    return turn

def step (message : String) : ConfigEffect Unit := do
  if (← turn).fails then
    Effect.lift (.error message)
  else
    return ()

def containsMarker (bytes marker : List UInt8) : Bool :=
  bytes.tails.any fun tail => marker.isPrefixOf tail

def withoutBlock (bytes block : List UInt8) : Except String (List UInt8) := do
  let rest := if block.isPrefixOf bytes then bytes.drop block.length else bytes
  Except.ensure (!containsMarker rest beginMarker && !containsMarker rest endMarker)
    "existing Attached SSH Include was edited or duplicated; refusing to overwrite it"
  return rest

def resolve (source : String) (entry : ConfigEntry) : Except String String :=
  match entry with
  | .missing => .ok source
  | .resolves target => .ok target
  | .broken => .error "could not resolve SSH configuration"

def resolveConfig (source : String) : ConfigEffect String := do
  if (← turn).fails then
    Effect.lift (.error "could not inspect SSH configuration")
  else
    Effect.lift (resolve source (← Effect.get).user.entry)

def validateOwnerPermissions (euid : Nat) (metadata : ConfigMetadata) : Except String Unit := do
  Except.ensure (metadata.uid == euid) "SSH configuration must be owned by the current user"
  Except.ensure (metadata.mode &&& 0o022 == 0) "SSH configuration must not be writable by group or others"

def readOpened (euid : Nat) (opened : Opened) : Except String ConfigFile :=
  match opened with
  | .absent => .ok ⟨[], none⟩
  | .refused => .error "could not open SSH configuration"
  | .file file => do
    Except.ensure (file.metadata.isFile && file.metadata.nlink == 1)
      "SSH configuration must be a regular file with one hard link"
    validateOwnerPermissions euid file.metadata
    Except.ensure (file.bytes.length ≤ maxConfigBytes) "SSH configuration is too large"
    return ⟨file.bytes, some file.metadata⟩

def readConfig (path : String) : ConfigEffect ConfigFile := do
  if (← turn).fails then
    Effect.lift (.error ioError)
  else
    let world ← Effect.get
    Effect.lift (readOpened world.euid (world.user.files path))

def identity (metadata : Option ConfigMetadata) : Option (Nat × Nat × Nat) :=
  metadata.map fun metadata => (metadata.dev, metadata.ino, metadata.mode)

/-- The temporary file that replaces the configuration, with the permissions of the previous one. -/
def newFile (euid : Nat) (created : Nat × Nat) (previous : Option ConfigMetadata) (bytes : List UInt8)
    : UserFile where
  bytes := bytes
  metadata := {
    isFile := true
    nlink := 1
    uid := euid
    dev := created.1
    ino := created.2
    mode := 0o100000 ||| (previous.elim 0o600 fun metadata => metadata.mode &&& 0o777)
  }

def persist (target : String) (file : UserFile) (user : UserFiles) : UserFiles where
  entry :=
    match user.entry with
    | .missing => .resolves target
    | entry => entry
  files := Function.update user.files target (.file file)

def recheckAndRename (source target : String) (previous : ConfigFile) (bytes : List UInt8)
    : ConfigEffect Unit := do
  let turn ← turn
  let world ← Effect.get
  let resolved ← Effect.lift (resolve source world.user.entry)
  Effect.lift (Except.ensure (resolved == target) "SSH configuration symlink changed during editing")
  let latest ← Effect.lift (readOpened world.euid (world.user.files target))
  Effect.lift (Except.ensure
    (latest.bytes == previous.bytes && identity latest.metadata == identity previous.metadata)
    "SSH configuration changed concurrently; retry export-ssh-config")
  if turn.fails then
    Effect.lift (.error "could not atomically update SSH configuration")
  else
    Effect.modify fun world => { world with
      user := persist target (newFile world.euid turn.identity previous.metadata bytes) world.user
      writes := ⟨world.user, target, bytes⟩ :: world.writes
    }

def replaceConfig (source target : String) (previous : ConfigFile) (bytes : List UInt8)
    : ConfigEffect Unit := do
  if previous.bytes == bytes then
    return ()
  else
    Effect.lift (Except.ensure (bytes.length ≤ maxConfigBytes) "SSH configuration is too large")
    Effect.lift (Except.ensure (target != "/") "SSH config has no parent directory")
    -- the temporary file is created, gets its permissions, is written and synced
    step ioError
    step ioError
    step ioError
    step ioError
    recheckAndRename source target previous bytes

def publish (hosts : String) : ConfigEffect Unit := do
  let content := Bytes.ofString (header ++ hosts ++ fallback)
  Effect.lift (Except.ensure (content.length ≤ maxConfigBytes) "generated SSH configuration is too large")
  let _ ← turn
  Effect.modify fun world => { world with managed := some content }

def clearDiscovery : ConfigEffect Unit := do
  let _ ← turn
  return ()

def blockOf (managed : String) : Except String (List UInt8) := do
  let path ← (Broker.configPath (Broker.join managed "config")).mapError fun _ =>
    "path cannot be represented safely in OpenSSH configuration"
  return beginMarker ++ Bytes.ofString ("Include " ++ path ++ "\nHost *\n") ++ endMarker

def isInside (path directory : String) : Bool :=
  path == directory || (directory ++ "/").toList.isPrefixOf path.toList

def checkManaged (managed : Option (List UInt8)) : Except String Unit :=
  match managed with
  | none => .ok ()
  | some bytes => do
    Except.ensure (bytes.length ≤ maxConfigBytes) "state file config exceeds 1048576 bytes"
    Except.ensure ((Bytes.ofString header).isPrefixOf bytes)
      "refusing to overwrite an unmanaged ~/.ssh/attached/config"

def install (ssh : String) : ConfigEffect ManagedConfig := do
  -- the directory is created, resolved and validated, the managed directory is opened and locked
  step ioError
  let managed := Broker.join ssh "attached"
  Effect.lift (checkManaged (← Effect.get).managed)
  let source := Broker.join ssh "config"
  let target ← resolveConfig source
  Effect.lift (Except.ensure (!isInside target managed)
    "SSH configuration points into Attached's managed directory")
  let block ← Effect.lift (blockOf managed)
  let current ← readConfig target
  let original ← Effect.lift (withoutBlock current.bytes block)
  -- the aliases of a broker that crashed are cleared before they are included
  publish ""
  replaceConfig source target current (block ++ original)
  clearDiscovery
  return ⟨source, target, block⟩

def cleanup (managed : ManagedConfig) : ConfigEffect Unit := do
  clearDiscovery
  publish ""
  let target ← resolveConfig managed.source
  Effect.lift (Except.ensure (target == managed.target)
    "SSH config symlink changed; leaving it untouched")
  let current ← readConfig managed.target
  if managed.block.isPrefixOf current.bytes then
    replaceConfig managed.source managed.target current (current.bytes.drop managed.block.length)
  else if containsMarker current.bytes beginMarker then
    Effect.lift (.error "managed SSH Include was edited; leaving the user's changes untouched")
  else
    return ()

end ManagedConfig

end Attached
