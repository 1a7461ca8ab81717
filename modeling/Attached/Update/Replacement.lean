import Attached.Update.Start

/-!
This module contains the replacement of the executable by the updates of a serving endpoint. A blocking
task retains a copy of the installed binary and runs the updater, which may replace the binary at any
moment. What it returns owns the copy until the update is committed or the copy is put back.
-/

namespace Attached

inductive Resolution where
  | committed
  | current
  | restored
  /-- `restore_backup` did not get to its rename, or `commit` failed for the running version. -/
  | lost
  deriving DecidableEq

inductive Preparation (β : Type) where
  | copying
  | updating (copy : β)
  | prepared (copy binary : β)
  | resolved (how : Option Resolution)
  deriving DecidableEq

namespace Preparation

variable {β : Type}

def isRunning (preparation : Preparation β) : Bool :=
  match preparation with
  | .copying => true
  | .updating _ => true
  | _ => false

def isActive (preparation : Preparation β) : Bool :=
  match preparation with
  | .resolved _ => false
  | _ => true

def copy? (preparation : Preparation β) : Option β :=
  match preparation with
  | .updating copy => some copy
  | .prepared copy _ => some copy
  | _ => none

end Preparation

def ExecutableVersion.isOlder (version other : ExecutableVersion) : Bool :=
  version.major < other.major
    || (version.major == other.major
      && (version.minor < other.minor
        || (version.minor == other.minor && version.patch < other.patch)))

def UpdateServerEvent.isPlain (event : UpdateServerEvent) : Bool :=
  match event with
  | .handler _ .prepareFailed => false
  | .handler _ .prepareCurrent => false
  | .handler _ (.prepareHandoff _) => false
  | .handler _ .abort => false
  | .rolledBack _ => false
  | _ => true

def UpdateServer.handedOver (server : UpdateServer) (index : Nat) : Bool :=
  match server.handlers[index]? with
  | some (.waiting _ _) =>
    !server.accepting && (server.handlers.set index .finished).all (· == .finished)
  | _ => false

structure Installation (β : Type) where
  server : UpdateServer
  installed : β
  preparations : Nat → Option (Preparation β)
  stopped : Bool
  original : β
  accepted : List β
  resolutions : List (Nat × Resolution)

inductive InstallationEvent (β : Type) where
  | server (event : UpdateServerEvent)
  | spawn (index : Nat)
  | copied (index : Nat)
  | copyFailed (index : Nat)
  | replaced (index : Nat) (binary : β)
  /-- The updater or a check of its result fails. -/
  | updateFailed (index : Nat) (renamed : Bool)
  /-- The blocking task returns an update, which is dropped if nobody waits for it. -/
  | updated (index : Nat) (renamed : Bool)
  | taskFailed (index : Nat)
  /-- The handler stops waiting, its task goes on. -/
  | deadline (index : Nat) (renamed : Bool)
  /-- The handler receives an update to the running version and commits it. -/
  | current (index : Nat) (removed : Bool)
  | spawnFailed (index : Nat) (renamed : Bool)
  | candidate (index : Nat)
  | abort (index : Nat) (renamed : Bool)
  | committed (index : Nat)
  | rolledBack (index : Nat)
  /-- The server stops, the handoff is dropped in the channel or could not be rolled back. -/
  | dropped (index : Nat) (renamed : Bool)
  | shutdown

namespace Installation

variable {β : Type}

def setPreparation (installation : Installation β) (index : Nat) (preparation : Preparation β)
    : Installation β :=
  { installation with
    preparations := Function.update installation.preparations index (some preparation)
  }

def resolve (installation : Installation β) (index : Nat) (how : Resolution) : Installation β :=
  { installation.setPreparation index (.resolved (some how)) with
    resolutions := installation.resolutions ++ [(index, how)]
  }

/-- `restore_backup`. The rename may have happened also where it returns an error. -/
def restore (installation : Installation β) (index : Nat) (copy : β) (renamed : Bool)
    : Installation β :=
  if renamed then
    { installation.resolve index .restored with installed := copy }
  else
    installation.resolve index .lost

def accept (installation : Installation β) (binary : β) : Installation β :=
  { installation with accepted := binary :: installation.accepted }

def updatingCopy (installation : Installation β) (index : Nat) : Option β :=
  match installation.preparations index with
  | some (.updating copy) => some copy
  | _ => none

def preparedUpdate (installation : Installation β) (index : Nat) : Option (β × β) :=
  match installation.preparations index with
  | some (.prepared copy binary) => some (copy, binary)
  | _ => none

def isAwaited (installation : Installation β) (index : Nat) : Bool :=
  match installation.server.handlers[index]? with
  | some (.preparing _) => !installation.stopped
  | _ => false

def serverStep (installation : Installation β) (event : UpdateServerEvent)
    : Option (Installation β) := do
  if installation.stopped then
    none
  else
    let server ← installation.server.step event
    return { installation with server }

def step (versionOf : β → ExecutableVersion) (installation : Installation β)
    (event : InstallationEvent β) : Option (Installation β) :=
  let currentVersion := installation.server.resources.currentVersion
  match event with
  | .server event => if event.isPlain then installation.serverStep event else none
  | .spawn index =>
    if installation.isAwaited index && (installation.preparations index).isNone then
      some (installation.setPreparation index .copying)
    else
      none
  | .copied index =>
    match installation.preparations index with
    | some .copying => some (installation.setPreparation index (.updating installation.installed))
    | _ => none
  | .copyFailed index =>
    match installation.preparations index with
    | some .copying => some (installation.setPreparation index (.resolved none))
    | _ => none
  | .replaced index binary => do
    let _ ← installation.updatingCopy index
    return { installation with installed := binary }
  | .updateFailed index renamed => do
    let copy ← installation.updatingCopy index
    return installation.restore index copy renamed
  | .updated index renamed => do
    let copy ← installation.updatingCopy index
    if (versionOf installation.installed).isOlder currentVersion then
      none
    else if installation.isAwaited index then
      return installation.setPreparation index (.prepared copy installation.installed)
    else
      -- `Drop` of the update that nobody receives.
      return installation.restore index copy renamed
  | .taskFailed index =>
    match installation.preparations index with
    | some (.resolved _) => installation.serverStep (.handler index .prepareFailed)
    | _ => none
  | .deadline index renamed =>
    match installation.preparations index with
    | some (.prepared copy _) =>
      (installation.restore index copy renamed).serverStep (.handler index .prepareFailed)
    | some .copying => installation.serverStep (.handler index .prepareFailed)
    | some (.updating _) => installation.serverStep (.handler index .prepareFailed)
    | _ => none
  | .current index removed => do
    let (_, binary) ← installation.preparedUpdate index
    if versionOf binary = currentVersion then
      if removed then
        ((installation.resolve index .current).accept binary).serverStep
          (.handler index .prepareCurrent)
      else
        (installation.resolve index .lost).serverStep (.handler index .prepareFailed)
    else
      none
  | .spawnFailed index renamed => do
    let (copy, binary) ← installation.preparedUpdate index
    if versionOf binary = currentVersion then
      none
    else
      (installation.restore index copy renamed).serverStep (.handler index .prepareFailed)
  | .candidate index => do
    let (_, binary) ← installation.preparedUpdate index
    installation.serverStep (.handler index (.prepareHandoff (versionOf binary)))
  | .abort index renamed => do
    let (copy, _) ← installation.preparedUpdate index
    (installation.restore index copy renamed).serverStep (.handler index .abort)
  | .committed index => do
    let (_, binary) ← installation.preparedUpdate index
    if !installation.stopped && installation.server.handedOver index then
      return { (installation.resolve index .committed).accept binary with stopped := true }
    else
      none
  | .rolledBack index => do
    let (copy, _) ← installation.preparedUpdate index
    (installation.restore index copy true).serverStep (.rolledBack index)
  | .dropped index renamed => do
    let (copy, _) ← installation.preparedUpdate index
    if !installation.stopped && installation.server.handedOver index then
      return { installation.restore index copy renamed with stopped := true }
    else
      none
  | .shutdown =>
    if !installation.stopped && !installation.server.accepting
        && installation.server.handlers.all (· == .finished) then
      some { installation with stopped := true }
    else
      none

end Installation

/--
A serving endpoint and the binary it runs, in any order of the steps of its handlers and their blocking
tasks. `versionOf` is what `attached_version::query` returns for a binary.
-/
def installation {β : Type} (versionOf : β → ExecutableVersion)
    : System (Installation β) (InstallationEvent β) where
  init installation :=
    updateServer.init installation.server
      ∧ (∀ index, installation.preparations index = none)
      ∧ installation.stopped = false
      ∧ installation.original = installation.installed
      ∧ installation.accepted = []
      ∧ installation.resolutions = []
  step installation event installation' := installation.step versionOf event = some installation'

end Attached
