import Mathlib.Data.List.Sort
import Attached.Library.Effect
import Attached.Library.Transition
import Attached.Plugin.Basic

/-!
This module contains the reconciler, which adds a machine for every discovered host and removes the
machines of hosts that are gone. It keeps a record of everything it did.
-/

open Std

namespace Attached

/--
What the environment does at one interaction: the process may crash, the call may fail, and where it
succeeds it returns the field for its kind.
-/
structure Answer where
  crashes : Bool
  fails : Bool
  machines : List Machine
  ready : Bool
  profile : String
  notified : Bool
  now : Nat
  persisted : Bool

inductive ReconcileEvent where
  | started
  | checking (discovery : Discovery)
  | reset
  | listed (hosts : List DiscoveryHost) (machines : List Machine)
  | clock (now : Nat)
  | deferred (endpoint : String)
  | attempting (endpoint : String) (deadline : Option Nat) (now : Nat)
  | answered (endpoint : String) (ready : Option Bool)
  | adding (endpoint : String)
  | added (endpoint profile : String)
  | addFailed (endpoint : String)
  | removing (endpoint profile : String)
  | removed (endpoint profile : String)
  | removeFailed (endpoint profile : String)
  | notified (label : String)
  | saved (state : PluginState)
  | saveFailed

inductive Interruption where
  | error
  | crashed
  deriving DecidableEq

structure Reconciler where
  /-- The deadlines of the next attempts, in nanoseconds, and the failures so far. -/
  retry : TreeMap String (Nat × Nat)
  missing : TreeMap String Nat
  lastGeneration : Option String

def Reconciler.new : Reconciler where
  retry := ∅
  missing := ∅
  lastGeneration := none

/-- A reconciler with its state file, what the environment will answer, and what happened so far,
the latest event first. -/
structure ReconcileWorld where
  file : Option PluginState
  reconciler : Reconciler
  answers : List Answer
  trace : List ReconcileEvent

abbrev Reconcile := Effect ReconcileWorld Interruption

namespace Reconciler

def interval : Nat := 30
def nanosPerSecond : Nat := 1000000000
def u32Max : Nat := 2 ^ 32 - 1

def persisted (world : ReconcileWorld) : PluginState :=
  world.file.getD .default

def record (event : ReconcileEvent) : Reconcile Unit :=
  Effect.modify fun world => { world with trace := event :: world.trace }

def update (f : Reconciler → Reconciler) : Reconcile Unit :=
  Effect.modify fun world => { world with reconciler := f world.reconciler }

def answer : Reconcile Answer := do
  match (← Effect.get).answers with
  | [] => Effect.lift (.error .crashed)
  | answer :: answers =>
    Effect.modify fun world => { world with answers := answers }
    if answer.crashes then Effect.lift (.error .crashed) else return answer

def load : Reconcile PluginState := do
  let answer ← answer
  if answer.fails then Effect.lift (.error .error) else return persisted (← Effect.get)

/-- `save_json`, which replaces the file atomically and may still fail afterwards. -/
def save (state : PluginState) : Reconcile Unit := do
  let answer ← answer
  if answer.fails && !answer.persisted then
    record .saveFailed
    Effect.lift (.error .error)
  else
    Effect.modify fun world =>
      { world with file := some state, trace := .saved state :: world.trace }
    if answer.fails then Effect.lift (.error .error) else return ()

def machines (hosts : List DiscoveryHost) : Reconcile (List Machine) := do
  let answer ← answer
  if answer.fails then
    Effect.lift (.error .error)
  else
    record (.listed hosts answer.machines)
    return answer.machines

def instant : Reconcile Nat := do
  let answer ← answer
  record (.clock answer.now)
  return answer.now

def ready (endpoint : String) : Reconcile (Option Bool) := do
  let answer ← answer
  let ready := if answer.fails then none else some answer.ready
  record (.answered endpoint ready)
  return ready

def add (endpoint : String) : Reconcile (Option String) := do
  record (.adding endpoint)
  let answer ← answer
  if answer.fails then
    record (.addFailed endpoint)
    return none
  else
    record (.added endpoint answer.profile)
    return some answer.profile

def remove (endpoint profile : String) : Reconcile Bool := do
  record (.removing endpoint profile)
  let answer ← answer
  if answer.fails then
    record (.removeFailed endpoint profile)
    return false
  else
    record (.removed endpoint profile)
    return true

def resetAbsences : Reconcile Unit :=
  update fun reconciler => { reconciler with missing := ∅ }

def labelCount (hosts : List DiscoveryHost) (label : String) : Nat :=
  hosts.countP fun host => toAsciiLowercase host.host == label

def equivalentLabel (hosts : List DiscoveryHost) (targets : List String) (host : DiscoveryHost) : Bool :=
  let label := toAsciiLowercase host.host
  labelCount hosts label == 1 && !isEndpoint label && targets.contains (attachedTarget label)

/-- The label of a new machine. Labels and ids are ASCII, their bytes are their characters. -/
def displayLabel (hosts : List DiscoveryHost) (host : DiscoveryHost) : String :=
  if labelCount hosts (toAsciiLowercase host.host) = 1 then
    host.host
  else
    s!"{String.ofList (host.host.toList.take 60)} ({String.ofList (host.endpointId.toList.take 8)})"

def setRetry (endpoint : String) (deadline failures : Nat) : Reconcile Unit :=
  update fun reconciler =>
    { reconciler with retry := reconciler.retry.insert endpoint (deadline, failures) }

def retryDelay (failures : Nat) : Nat :=
  min (interval * 2 ^ min failures 4) 300

/--
The asynchronous block of `poll`: `none` if the alias is not ready, otherwise the profile or that it
failed.
-/
def tryAdd (host : DiscoveryHost) : Reconcile (Option (Option String)) := do
  match ← ready host.endpointId with
  | none => return some none
  | some false => return none
  | some true =>
    let profile ← add host.endpointId
    return some profile

def manage (state : PluginState) (endpoint profile label : String) : PluginState where
  seen := state.seen.insert endpoint
  managed := state.managed.insert endpoint profile
  pending := state.pending.insert endpoint label

def attemptHost (hosts : List DiscoveryHost) (host : DiscoveryHost) (previous : Option (Nat × Nat))
    (state : PluginState) : Reconcile PluginState := do
  let failures := (previous.map (·.2)).getD 0
  let now ← instant
  record (.attempting host.endpointId (previous.map (·.1)) now)
  setRetry host.endpointId (now + interval * nanosPerSecond) failures
  match ← tryAdd host with
  | none => return state
  | some none =>
    let now ← instant
    setRetry host.endpointId (now + retryDelay failures * nanosPerSecond) (min (failures + 1) u32Max)
    return state
  | some (some profile) =>
    let state := manage state host.endpointId profile (displayLabel hosts host)
    save state
    return state

def pollHost (hosts : List DiscoveryHost) (targets : List String) (host : DiscoveryHost)
    (state : PluginState × Nat) : Reconcile (PluginState × Nat) := do
  let (state, attempts) := state
  if state.seen.contains host.endpointId then
    return (state, attempts)
  else if targets.contains host.sshTarget || equivalentLabel hosts targets host then
    let state := { state with seen := state.seen.insert host.endpointId }
    save state
    return (state, attempts)
  else if 4 ≤ attempts then
    record (.deferred host.endpointId)
    return (state, attempts)
  else
    match (← Effect.get).reconciler.retry[host.endpointId]? with
    | some (deadline, failures) =>
      if (← instant) < deadline then
        record (.deferred host.endpointId)
        return (state, attempts)
      else
        let state ← attemptHost hosts host (some (deadline, failures)) state
        return (state, attempts + 1)
    | none =>
      let state ← attemptHost hosts host none state
      return (state, attempts + 1)

def pollHosts (hosts : List DiscoveryHost) (targets : List String) (candidates : List DiscoveryHost)
    (state : PluginState × Nat) : Reconcile (PluginState × Nat) := do
  match candidates with
  | [] => return state
  | host :: candidates =>
    let state ← pollHost hosts targets host state
    pollHosts hosts targets candidates state

def notifyPending (labels : List (String × String)) (state : PluginState) : Reconcile Unit := do
  match labels with
  | [] => return ()
  | (id, label) :: labels =>
    let answer ← answer
    if !answer.fails && answer.notified then
      record (.notified label)
      let state := { state with pending := state.pending.erase id }
      save state
      notifyPending labels state
    else
      notifyPending labels state

/-- `Option<(Instant, u32)>` is ordered lexicographically, with `None` first. -/
def retryLe (a b : Option (Nat × Nat)) : Bool :=
  match a, b with
  | none, _ => true
  | some _, none => false
  | some (deadline, failures), some (deadline', failures') =>
    deadline < deadline' || deadline == deadline' && failures ≤ failures'

def sortByRetry (retry : TreeMap String (Nat × Nat)) (hosts : List DiscoveryHost) : List DiscoveryHost :=
  hosts.insertionSort fun a b => retryLe retry[a.endpointId]? retry[b.endpointId]? = true

def poll (hosts : List DiscoveryHost) : Reconcile Unit := do
  let state ← load
  let targets := (← machines hosts).map fun machine => toAsciiLowercase machine.target
  update fun reconciler => { reconciler with
    retry := reconciler.retry.filter fun id _ => hosts.any fun host => host.endpointId == id
  }
  let candidates := sortByRetry (← Effect.get).reconciler.retry hosts
  let (state, _) ← pollHosts hosts targets candidates (state, 0)
  notifyPending state.pending.toList state

def forget (state : PluginState) (endpoint : String) : PluginState :=
  { state with
    managed := state.managed.erase endpoint
    pending := state.pending.erase endpoint }

def isProfile (endpoint profile : String) (machine : Machine) : Bool :=
  machine.id == profile
    && toAsciiLowercase machine.target == toAsciiLowercase (attachedTarget endpoint)

def pruneEndpoint (hosts : List DiscoveryHost) (machines : List Machine) (endpoint profile : String)
    (state : PluginState) : Reconcile PluginState := do
  if !machines.any (isProfile endpoint profile) then
    -- A manually removed or replaced profile stays removed.
    update fun reconciler => { reconciler with missing := reconciler.missing.erase endpoint }
    let state := forget state endpoint
    save state
    return state
  else if hosts.any fun host => host.endpointId == endpoint then
    update fun reconciler => { reconciler with missing := reconciler.missing.erase endpoint }
    return state
  else
    let misses := min ((← Effect.get).reconciler.missing.getD endpoint 0 + 1) u32Max
    update fun reconciler =>
      { reconciler with missing := reconciler.missing.insert endpoint misses }
    if misses < 3 then
      return state
    else if ← remove endpoint profile then
      let state := { forget state endpoint with seen := state.seen.erase endpoint }
      update fun reconciler => { reconciler with
        missing := reconciler.missing.erase endpoint
        retry := reconciler.retry.erase endpoint
      }
      save state
      return state
    else
      return state

def pruneEndpoints (hosts : List DiscoveryHost) (machines : List Machine)
    (managed : List (String × String)) (state : PluginState) : Reconcile Unit := do
  match managed with
  | [] => return ()
  | (endpoint, profile) :: managed =>
    let state ← pruneEndpoint hosts machines endpoint profile state
    pruneEndpoints hosts machines managed state

def prune (hosts : List DiscoveryHost) : Reconcile Unit := do
  let state ← load
  let machines ← machines hosts
  update fun reconciler => { reconciler with
    missing := reconciler.missing.filter fun id _ => state.managed.contains id
  }
  pruneEndpoints hosts machines state.managed.toList state

def check (discovery : Discovery) : Reconcile Unit := do
  record (.checking discovery)
  poll discovery.hosts
  if !discovery.complete then
    resetAbsences
  else if (← Effect.get).reconciler.lastGeneration ≠ some discovery.generation then
    prune discovery.hosts
  update fun reconciler => { reconciler with lastGeneration := some discovery.generation }

end Reconciler

inductive ReconcileLabel where
  | check (discovery : Discovery) (answers : List Answer)
  | resetAbsences
  | restart

namespace ReconcileWorld

def restart (world : ReconcileWorld) : ReconcileWorld :=
  { world with reconciler := .new, trace := .started :: world.trace }

def resetAbsences (world : ReconcileWorld) : ReconcileWorld :=
  { world with
    reconciler := { world.reconciler with missing := ∅ }
    trace := .reset :: world.trace }

/-- A check that fails is followed by a reset, and a crash by a new process. -/
def step (world : ReconcileWorld) (label : ReconcileLabel) : ReconcileWorld :=
  match label with
  | .check discovery answers =>
    match (Reconciler.check discovery).run { world with answers := answers } with
    | (.ok _, world) => world
    | (.error .error, world) => world.resetAbsences
    | (.error .crashed, world) => world.restart
  | .resetAbsences => world.resetAbsences
  | .restart => world.restart

end ReconcileWorld

/-- The checks that `parse_discovery` makes on the id and the target of a host. -/
def DiscoveryHost.Valid (host : DiscoveryHost) : Prop :=
  isEndpoint host.endpointId = true ∧ host.sshTarget = attachedTarget host.endpointId

instance (host : DiscoveryHost) : Decidable host.Valid :=
  inferInstanceAs (Decidable (_ ∧ _))

def ReconcileLabel.Valid (label : ReconcileLabel) : Prop :=
  match label with
  | .check discovery _ => ∀ host ∈ discovery.hosts, host.Valid
  | _ => True

instance (label : ReconcileLabel) : Decidable label.Valid :=
  match label with
  | .check discovery _ => inferInstanceAs (Decidable (∀ host ∈ discovery.hosts, host.Valid))
  | .resetAbsences => inferInstanceAs (Decidable True)
  | .restart => inferInstanceAs (Decidable True)

def reconcilerSystem : System ReconcileWorld ReconcileLabel where
  init world := world = { file := none, reconciler := .new, answers := [], trace := [] }
  step world label world' := label.Valid ∧ world' = world.step label

end Attached
