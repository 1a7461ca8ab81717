import Mathlib.Logic.Function.Basic
import Attached.Library.Effect
import Attached.Protocol.Account

/-!
This module contains the directory with the state files. Its calls go step by step through the file
system, where every step may fail and the machine may stop before, inside or after every step.
-/

namespace Attached

/-- A file with the bytes that were written to it, and whether they are on the medium. -/
structure DiskFile where
  bytes : List UInt8
  synced : Bool
  deriving DecidableEq

/-- The entries that a process sees, and those that were there at the last sync of the directory. -/
structure Directory where
  visible : String → Option DiskFile
  durable : String → Option DiskFile

namespace Directory

def settled (contents : String → Option (List UInt8)) : Directory where
  visible name := (contents name).map fun bytes => ⟨bytes, true⟩
  durable name := (contents name).map fun bytes => ⟨bytes, true⟩

def setEntry (name : String) (file : Option DiskFile) (directory : Directory) : Directory :=
  { directory with visible := Function.update directory.visible name file }

def createExclusive (name : String) (directory : Directory) : Directory :=
  match directory.visible name with
  | some _ => directory
  | none => directory.setEntry name (some ⟨[], false⟩)

def append (name : String) (bytes : List UInt8) (directory : Directory) : Directory :=
  match directory.visible name with
  | some file => directory.setEntry name (some ⟨file.bytes ++ bytes, false⟩)
  | none => directory

def syncFile (name : String) (directory : Directory) : Directory :=
  directory.setEntry name ((directory.visible name).map fun file => { file with synced := true })

def rename (old new : String) (directory : Directory) : Directory :=
  (directory.setEntry new (directory.visible old)).setEntry old none

def unlink (name : String) (directory : Directory) : Directory :=
  directory.setEntry name none

def syncDirectory (directory : Directory) : Directory :=
  { directory with durable := directory.visible }

def read (directory : Directory) (name : String) : Option (List UInt8) :=
  (directory.visible name).map (·.bytes)

/--
What is there after the machine stopped. Changes of entries that were not synced may be lost, and so
may the end of a file that was not synced.
-/
def recovered (directory : Directory) (survives : String → Bool) (kept : String → Nat) (name : String)
    : Option (List UInt8) :=
  (if survives name then directory.visible name else directory.durable name).map fun file =>
    if file.synced then file.bytes else file.bytes.take (kept name)

end Directory

inductive StepEnd where
  | done
  | fails (progress : Nat)
  | crashes (progress : Nat)

inductive Stop where
  | error
  | crashed
  deriving DecidableEq

structure DiskWorld where
  directory : Directory
  ends : List StepEnd

abbrev Disk := Effect DiskWorld Stop

namespace Disk

def next : Disk StepEnd := do
  match (← Effect.get).ends with
  | [] => Effect.lift (.error .crashed)
  | stepEnd :: ends =>
    Effect.modify fun world => { world with ends := ends }
    return stepEnd

def change (f : Directory → Directory) : Disk Unit :=
  Effect.modify fun world => { world with directory := f world.directory }

def step (f : Directory → Directory) : Disk Unit := do
  match ← next with
  | .done => change f
  | .fails _ => Effect.lift (.error .error)
  | .crashes progress =>
    if progress ≠ 0 then
      change f
    Effect.lift (.error .crashed)

def look : Disk Unit :=
  step id

def openExclusive (name : String) : Disk Bool := do
  let before ← Effect.get
  step (Directory.createExclusive name)
  return (before.directory.visible name).isNone

def writeAll (name : String) (bytes : List UInt8) : Disk Unit := do
  match ← next with
  | .done => change (Directory.append name bytes)
  | .fails progress =>
    change (Directory.append name (bytes.take progress))
    Effect.lift (.error .error)
  | .crashes progress =>
    change (Directory.append name (bytes.take progress))
    Effect.lift (.error .crashed)

def ignore (x : Disk Unit) : Disk Unit := do
  match ← x.attempt with
  | .error .crashed => Effect.lift (.error .crashed)
  | _ => return ()

def cleanup (x : Disk Unit) (clean : Disk Unit) : Disk Unit := do
  match ← x.attempt with
  | .ok _ => return ()
  | .error .crashed => Effect.lift (.error .crashed)
  | .error .error =>
    ignore clean
    Effect.lift (.error .error)

end Disk

inductive PathComponent where
  | rootDir
  | curDir
  | parentDir
  | normal (name : String)

def pathComponents (path : String) : List PathComponent :=
  let pieces := path.toList.splitOn '/'
  let first :=
    if path.toList.head? == some '/' then
      [.rootDir]
    else if pieces.head? == some ['.'] then
      [.curDir]
    else
      []
  first ++ pieces.filterMap fun piece =>
    if piece.isEmpty || piece == ['.'] then
      none
    else if piece == ['.', '.'] then
      some .parentDir
    else
      some (.normal (String.ofList piece))

namespace StateDir

def validName (name : String) : Bool :=
  match pathComponents name with
  | [.normal _] => !name.toList.contains (Char.ofNat 0)
  | _ => false

def validateName (name : String) : Disk Unit :=
  Effect.lift (if validName name then .ok () else .error .error)

def temporaryName (name : String) (nonce : Vector UInt8 16) : String :=
  "." ++ name ++ ".tmp." ++ String.ofList ((Bytes.hex nonce.toList).map fun b => Char.ofNat b.toNat)

def atomicReplace (name : String) (bytes : List UInt8) (nonce : Vector UInt8 16) : Disk Unit := do
  validateName name
  -- `validate_existing`
  Disk.look
  -- the random bytes are read from a device
  Disk.look
  let temporary := temporaryName name nonce
  if ← Disk.openExclusive temporary then
    Disk.cleanup
      (do
        -- `protect_file` and `validate_file`
        Disk.look
        Disk.look
        Disk.writeAll temporary bytes
        Disk.step (Directory.syncFile temporary)
        Disk.look
        Disk.step (Directory.rename temporary name))
      (Disk.step (Directory.unlink temporary))
    Disk.ignore (Disk.step Directory.syncDirectory)
  else
    Effect.lift (.error .error)

def createNoclobber (name : String) (bytes : List UInt8) : Disk Bool := do
  validateName name
  if ← Disk.openExclusive name then
    Disk.cleanup
      (do
        Disk.look
        Disk.look
        Disk.writeAll name bytes
        Disk.step (Directory.syncFile name))
      (Disk.step (Directory.unlink name))
    Disk.ignore (Disk.step Directory.syncDirectory)
    return true
  else
    -- the existing file is opened and validated
    Disk.look
    Disk.look
    return false

/-- `open`, `validate_file` and the read of at most `limit` bytes. -/
def readSecretOptionalBounded (name : String) (limit : Nat) : Disk (Option (List UInt8)) := do
  validateName name
  Disk.look
  match (← Effect.get).directory.read name with
  | none => return none
  | some bytes =>
    Disk.look
    if bytes.length ≤ limit then
      return some bytes
    else
      Effect.lift (.error .error)

end StateDir

namespace LocalEncryption

def kdfSaltFile : String := "encryption-salt.argon2id-v1"

def kdfSaltBytes : Nat := 16

def parseKdfSalt (stored : List UInt8) : Except Stop (Vector UInt8 kdfSaltBytes) :=
  Except.okOr (toFixed kdfSaltBytes stored) .error

def loadOrCreateKdfSalt (create : Bool) (candidate : Vector UInt8 kdfSaltBytes)
    : Disk (Vector UInt8 kdfSaltBytes) := do
  match ← StateDir.readSecretOptionalBounded kdfSaltFile kdfSaltBytes with
  | some stored => Effect.lift (parseKdfSalt stored)
  | none =>
    if create then
      -- the random bytes may not be available
      Disk.look
      if ← StateDir.createNoclobber kdfSaltFile candidate.toList then
        return candidate
      else
        match ← StateDir.readSecretOptionalBounded kdfSaltFile kdfSaltBytes with
        | some stored => Effect.lift (parseKdfSalt stored)
        | none => Effect.lift (.error .error)
    else
      Effect.lift (.error .error)

end LocalEncryption

end Attached
