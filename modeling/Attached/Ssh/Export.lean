import Attached.Library.Transition
import Attached.Plugin.Basic
import Attached.Sync.Listing
import Attached.Sync.PublisherDescriptor

/-!
This module contains the event loop of the SSH exporter. It prepares a broker for every host that
discovery found, and keeps one stanza for each running broker in the managed SSH configuration.
-/

open Std

namespace Attached

structure Advertisement where
  label : String
  connection : HostConnection
  deriving DecidableEq

abbrev Snapshot := TreeMap String Advertisement

inductive RunEnd where
  | shutdown
  | resumed
  | error (message : String)
  | missingKey
  | unwrap
  | overflow
  deriving DecidableEq

/-- What the exporter uses of a broker. The paths of its temporary directory are valid UTF-8. -/
structure Broker where
  descriptors : Descriptors
  hostAlias : String
  username : String
  runtime : String
  deriving DecidableEq

namespace Broker

def isControl (c : Char) : Bool :=
  c.toNat < 0x20 || (0x7f ≤ c.toNat && c.toNat < 0xa0)

def configPath (path : String) : Except RunEnd String :=
  if path.toList.any fun c => isControl c || "\"%$`\\*?[".toList.contains c then
    .error (.error "path cannot be represented safely in OpenSSH configuration")
  else
    .ok ("\"" ++ path ++ "\"")

def shellWord (path : String) : Except RunEnd String :=
  if path.toList.any fun c => isControl c || "%".toList.contains c then
    .error (.error "unsafe OpenSSH ProxyCommand path")
  else
    let quoted := path.toList.flatMap fun c => if c.toNat = 0x27 then "'\\''".toList else [c]
    .ok ("'" ++ String.ofList quoted ++ "'")

def join (directory name : String) : String :=
  if directory.toList.getLast?.all (· == '/') then
    directory ++ name
  else
    directory ++ "/" ++ name

def settings (broker : Broker) (executable : String) : Except RunEnd String := do
  let proxyCommand ← shellWord executable
  let proxy ← shellWord (join broker.runtime "proxy")
  let identity ← configPath (join broker.runtime "identity")
  let knownHosts ← configPath (join broker.runtime "known_hosts")
  return "    HostName " ++ broker.hostAlias ++ "\n    CanonicalizeHostname no\n    User " ++ broker.username
    ++ "\n    HostKeyAlias " ++ broker.hostAlias ++ "\n    ProxyCommand " ++ proxyCommand
    ++ " __ssh-local-proxy " ++ proxy ++ "\n    IdentityFile " ++ identity
    ++ "\n    UserKnownHostsFile " ++ knownHosts
    ++ "\n    GlobalKnownHostsFile /dev/null\n    StrictHostKeyChecking yes\n    CheckHostIP no\n    BatchMode yes\n    IdentitiesOnly yes\n    IdentityAgent none\n    PasswordAuthentication no\n    KbdInteractiveAuthentication no\n    PreferredAuthentications publickey\n    ForwardAgent no\n    ClearAllForwardings yes\n    RequestTTY no\n    ControlMaster no\n    ControlPath none\n    ConnectTimeout 20\n    ServerAliveInterval 30\n    ServerAliveCountMax 3\n"

def hostLine (aliases : String) : String :=
  "Host " ++ aliases ++ "\n"

def replaceFirst (pattern replacement text : List Char) : List Char :=
  match text with
  | [] => if pattern.isEmpty then replacement else []
  | c :: rest =>
    if pattern.isPrefixOf (c :: rest) then
      replacement ++ (c :: rest).drop pattern.length
    else
      c :: replaceFirst pattern replacement rest

/-- The stanza of a broker. It is asked for the path of the executable every time. -/
def configuration (broker : Broker) (currentExe : Except String String) (aliases : String)
    : Except RunEnd String := do
  let executable ← currentExe.mapError .error
  let settings ← broker.settings executable
  return String.ofList (replaceFirst (hostLine broker.hostAlias).toList (hostLine aliases).toList
    (hostLine broker.hostAlias ++ settings).toList)

/-- `observe`, which gives up if a connection holds the lock of the descriptors. -/
def observe (broker : Broker) (connection : HostConnection) (contended : Bool) : Broker :=
  if contended then
    broker
  else
    { broker with descriptors := broker.descriptors.observe connection }

end Broker

structure RunningHost where
  broker : Broker
  generation : Nat
  deriving DecidableEq

structure PrepareTask where
  target : String
  connection : HostConnection
  deriving DecidableEq

structure ServeTask where
  target : String
  generation : Nat
  deriving DecidableEq

/-- The local variables of `run` with the files that it publishes. Times are in nanoseconds. -/
structure Exporter where
  known : Snapshot
  running : TreeMap String RunningHost
  preparing : List PrepareTask
  serving : List ServeTask
  pending : TreeSet String
  retryAfter : TreeMap String Nat
  generation : Nat
  published : String
  lastTick : Int
  config : String
  discovery : List SyncedHost × Bool

inductive ExportEvent where
  | cancelled
  | tick (now : Int)
  | discovered (snapshot : Snapshot) (hosts : List SyncedHost) (complete : Bool)
      (written : Except String Unit)
  | discoveryFailed (written : Except String Unit)
  | discoveryEnded
  | prepared (task : PrepareTask) (result : Except String Broker) (now : Nat)
  | served (task : ServeTask)
  | taskFailed (message : String)

structure Surroundings where
  now : String → DateTime
  contended : String → Bool
  instant : Nat
  startedAt : String → Nat
  currentExe : Except String String
  written : Except String Unit

namespace Exporter

def prepareConcurrency : Nat := 8
def resumeGap : Int := 30 * 1000000000
def maxConfigBytes : Nat := 1024 * 1024

def header : String := "# Generated by attached export-ssh-config. Do not edit.\n"
def fallback : String :=
  "Host attached-*\n    ProxyCommand false\n    CanonicalizeHostname no\nHost *\n"

/-- The start of `run`, after an empty configuration was published. -/
def start (now : Int) : Exporter where
  known := ∅
  running := ∅
  preparing := []
  serving := []
  pending := ∅
  retryAfter := ∅
  generation := 0
  published := ""
  lastTick := now
  config := header ++ fallback
  discovery := ([], false)

def lookup (map : TreeMap String α) (key : String) : Except RunEnd α :=
  Except.okOr map[key]? .missingKey

def publishDiscovery (exporter : Exporter) (hosts : List SyncedHost) (complete : Bool)
    (written : Except String Unit) : Except RunEnd Exporter := do
  written.mapError .error
  return { exporter with discovery := (hosts, complete) }

def publish (exporter : Exporter) (hosts : String) (written : Except String Unit)
    : Except RunEnd Exporter := do
  let content := header ++ hosts ++ fallback
  Except.ensure ((Bytes.ofString content).length ≤ maxConfigBytes)
    (RunEnd.error "generated SSH configuration is too large")
  written.mapError .error
  return { exporter with config := content }

/-- `ResumeDetector::observe`. A clock that was set back did not resume. -/
def observe (lastTick now : Int) : Bool :=
  resumeGap ≤ max (now - lastTick) 0

/-- Without its target a host that is running is retired, its serving task ends at some point. -/
def finishServing (exporter : Exporter) (task : ServeTask) : Exporter :=
  { exporter with
    serving := exporter.serving.erase task
    running :=
      if exporter.running[task.target]?.any fun host => host.generation == task.generation then
        exporter.running.erase task.target
      else
        exporter.running
  }

def finishPreparing (exporter : Exporter) (refreshInterval : Nat) (task : PrepareTask)
    (result : Except String Broker) (now : Nat) : Except RunEnd Exporter := do
  let exporter := { exporter with
    preparing := exporter.preparing.erase task
    pending := exporter.pending.erase task.target
  }
  match result with
  | .ok broker =>
    if exporter.known.contains task.target then
      let generation ← Except.okOr (checkedSucc exporter.generation) RunEnd.overflow
      return { exporter with
        generation := generation
        running := exporter.running.insert task.target { broker := broker, generation := generation }
        serving := exporter.serving ++ [{ target := task.target, generation := generation }]
      }
    else
      -- Removed or revoked during the preparation, it is not published.
      return exporter
  | .error _ =>
    return { exporter with
      retryAfter := exporter.retryAfter.insert task.target (now + refreshInterval)
    }

def handle (exporter : Exporter) (refreshInterval : Nat) (event : ExportEvent)
    : Except RunEnd Exporter :=
  match event with
  | .cancelled => .error .shutdown
  | .tick now =>
    if observe exporter.lastTick now then
      .error .resumed
    else
      .ok { exporter with lastTick := now }
  | .discovered snapshot hosts complete written => do
    let exporter ← exporter.publishDiscovery hosts complete written
    return { exporter with known := snapshot }
  | .discoveryFailed written => exporter.publishDiscovery [] false written
  | .discoveryEnded => .error (.error "SSH discovery task ended unexpectedly")
  | .prepared task result now => exporter.finishPreparing refreshInterval task result now
  | .served task => .ok (exporter.finishServing task)
  | .taskFailed message => .error (.error message)

def retain (exporter : Exporter) (now : String → DateTime) : Exporter :=
  let known := exporter.known.filter fun target host => now target < host.connection.expiresAt
  { exporter with
    known := known
    running := exporter.running.filter fun target _ => known.contains target
    retryAfter := exporter.retryAfter.filter fun target _ => known.contains target
  }

def observeHosts (known : Snapshot) (contended : String → Bool) (hosts : List (String × RunningHost))
    (running : TreeMap String RunningHost) : Except RunEnd (TreeMap String RunningHost) :=
  match hosts with
  | [] => .ok running
  | (target, host) :: hosts => do
    let advertisement ← lookup known target
    let broker := host.broker.observe advertisement.connection (contended target)
    observeHosts known contended hosts (running.insert target { host with broker := broker })

def retryLe (a b : Option Nat) : Bool :=
  match a, b with
  | none, _ => true
  | some _, none => false
  | some a, some b => a ≤ b

def preparationOrder (hosts : Snapshot) (retryAfter : TreeMap String Nat) (now : Nat) : List String :=
  let candidates := hosts.keys.filter fun target => retryAfter[target]?.all (· ≤ now)
  candidates.insertionSort fun a b => retryLe retryAfter[a]? retryAfter[b]? = true

def prepareHosts (candidates : List String) (refreshInterval : Nat) (startedAt : String → Nat)
    (exporter : Exporter) : Except RunEnd Exporter :=
  match candidates with
  | [] => .ok exporter
  | target :: candidates =>
    if prepareConcurrency ≤ exporter.pending.size then
      .ok exporter
    else if exporter.running.contains target || exporter.pending.contains target then
      prepareHosts candidates refreshInterval startedAt exporter
    else do
      let host ← lookup exporter.known target
      prepareHosts candidates refreshInterval startedAt { exporter with
        retryAfter := exporter.retryAfter.insert target (startedAt target + refreshInterval)
        pending := exporter.pending.insert target
        preparing := exporter.preparing ++ [{ target := target, connection := host.connection }]
      }

def labelCounts (hosts : List Advertisement) (counts : TreeMap String Nat) : TreeMap String Nat :=
  match hosts with
  | [] => counts
  | host :: hosts =>
    let label := toAsciiLowercase host.label
    labelCounts hosts (counts.insert label (counts.getD label 0 + 1))

section

variable {Ticket : Type} (iroh : Iroh Ticket)

/--
The aliases of a host. ID-shaped labels must never impersonate an absent publisher's identity.
Case-insensitive duplicates are ambiguous even if one host is offline.
-/
def hostAliases (counts : TreeMap String Nat) (target : String) (host : Advertisement)
    : Except RunEnd (String × String) := do
  let stable := attachedTarget target
  let label := toAsciiLowercase host.label
  let count ← lookup counts label
  if count = 1 ∧ iroh.endpointIdFromStr label = none then
    return (target, stable ++ " " ++ attachedTarget label)
  else
    return (target, stable)

def aliases (hosts : Snapshot) : Except RunEnd (TreeMap String String) := do
  let counts := labelCounts (Keyed.intoValues hosts) ∅
  let aliases ← hosts.toList.mapM fun (target, host) => hostAliases iroh counts target host
  return TreeMap.ofList aliases compare

def configuration (aliases : TreeMap String String) (currentExe : Except String String)
    (hosts : List (String × RunningHost)) (configuration : String) : Except RunEnd String :=
  match hosts with
  | [] => .ok configuration
  | (target, host) :: hosts => do
    let names ← lookup aliases target
    let stanza ← host.broker.configuration currentExe names
    Exporter.configuration aliases currentExe hosts (configuration ++ stanza)

def lastWord (text : String) : Option String :=
  let word := (text.toList.reverse.dropWhile Char.isWhitespace).takeWhile fun c => !c.isWhitespace
  if word.isEmpty then none else some (String.ofList word.reverse)

def announce (aliases : TreeMap String String) (targets : List String)
    : Except RunEnd (List String) :=
  targets.mapM fun target => do
    let names ← lookup aliases target
    Except.okOr (lastWord names) .unwrap

def publishHosts (exporter : Exporter) (surroundings : Surroundings) : Except RunEnd Exporter := do
  let aliases ← aliases iroh exporter.known
  let configuration ← configuration aliases surroundings.currentExe exporter.running.toList ""
  if configuration ≠ exporter.published then
    let exporter ← exporter.publish configuration surroundings.written
    let _ ← announce aliases exporter.running.keys
    return { exporter with published := configuration }
  else
    return exporter

def iterate (exporter : Exporter) (refreshInterval : Nat) (event : ExportEvent)
    (surroundings : Surroundings) : Except RunEnd Exporter := do
  let exporter ← exporter.handle refreshInterval event
  let exporter := exporter.retain surroundings.now
  let running ← observeHosts exporter.known surroundings.contended exporter.running.toList
    exporter.running
  let candidates := preparationOrder exporter.known exporter.retryAfter surroundings.instant
  let exporter ← prepareHosts candidates refreshInterval surroundings.startedAt
    { exporter with running := running }
  exporter.publishHosts iroh surroundings

def Enabled (exporter : Exporter) (event : ExportEvent) : Prop :=
  match event with
  | .prepared task _ _ => task ∈ exporter.preparing
  | .served task => task ∈ exporter.serving
  | _ => True

instance (exporter : Exporter) (event : ExportEvent) : Decidable (exporter.Enabled event) :=
  match event with
  | .prepared task _ _ => inferInstanceAs (Decidable (task ∈ exporter.preparing))
  | .served task => inferInstanceAs (Decidable (task ∈ exporter.serving))
  | .cancelled | .tick _ | .discovered .. | .discoveryFailed _ | .discoveryEnded | .taskFailed _ =>
    inferInstanceAs (Decidable True)

def renew (exporter : Exporter) (target : String) (descriptors : Descriptors) : Exporter :=
  { exporter with
    running :=
      match exporter.running[target]? with
      | some host => exporter.running.insert target
        { host with broker := { host.broker with descriptors := descriptors } }
      | none => exporter.running
  }

end

end Exporter

inductive ExportLabel where
  | iterate (event : ExportEvent) (surroundings : Surroundings)
  | renew (target : String) (descriptors : Descriptors)

def Exporter.act {Ticket : Type} (iroh : Iroh Ticket) (refreshInterval : Nat) (exporter : Exporter)
    (label : ExportLabel) : Option Exporter :=
  match label with
  | .iterate event surroundings =>
    if exporter.Enabled event then
      (exporter.iterate iroh refreshInterval event surroundings).toOption
    else
      none
  | .renew target descriptors => some (exporter.renew target descriptors)

/-- The iterations of `run` in any order, as long as none of them ends it. -/
def exportSystem {Ticket : Type} (iroh : Iroh Ticket) (refreshInterval : Nat)
    : System Exporter ExportLabel where
  init exporter := ∃ now, exporter = .start now
  step exporter label exporter' := exporter.act iroh refreshInterval label = some exporter'

end Attached
