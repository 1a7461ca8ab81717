import Attached.Client.Broker

/-!
This module contains the process of a client broker, from its start to its exit, as it works on the
runtime directory that it shares with the client commands and with other brokers.
-/

namespace Attached

namespace ClientTransport

open ClientBroker (Token Request Response)

/-- The results of the times are in milliseconds. -/
def idleTimeout : Nat := 2000

def resumeGap : Nat := 30000

def maxIpcConnections : Nat := 1024

structure Stream (A B : Type) where
  broker : B
  request : Request
  accepted : Bool
  /-- What the broker wrote, and who had locked `owner.lock` when it did. -/
  response : Option (Response × Option (A ⊕ B))

structure Runtime (A B H : Type) where
  startup : Option A
  owner : Option (A ⊕ B)
  socket : Option B
  listening : B → Bool
  parent : B → Option A
  stream : H → Option (Stream A B)

structure Serve (H : Type) where
  handlers : Processes H (ClientBroker.Broker H) (ClientBroker.Phase H)
  tasks : List H
  /-- The handlers that did not finish. Each of them has a permit. -/
  running : List H
  idleSince : Nat
  lastTick : Nat
  endpoints : Nat
  closed : Nat → Bool

inductive ServePhase where
  | selecting
  | closingOld (old : Nat)
  | rebinding
  | cancelling
  | joining
  | closing (endpoint : Nat)
  deriving DecidableEq

inductive BrokerPhase (H : Type) where
  | absent
  | opening
  | locking
  | verifying
  | removing
  | binding
  | protecting
  | bindingEndpoint
  | serving (serve : Serve H) (phase : ServePhase)
  | unlinking
  | releasing
  | ended

namespace BrokerPhase

def holdsOwner (phase : BrokerPhase H) : Bool :=
  match phase with
  | .absent => false
  | .opening => false
  | .locking => false
  | .ended => false
  | _ => true

def isAlive (phase : BrokerPhase H) : Bool :=
  match phase with
  | .absent => false
  | .ended => false
  | _ => true

end BrokerPhase

inductive BrokerAction (H : Type) where
  | start
  | open (result : Except Failure Unit)
  | lock (result : Except Failure Unit)
  | verify (result : Except Failure Unit)
  | removeSocket (result : Except Failure Unit)
  | bindSocket (result : Except Failure Unit)
  | setPermissions (result : Except Failure Unit)
  | bindFirst (result : Except Failure Unit) (instant system : Nat)
  | accept (stream : H)
  | acceptFails
  | handler (h : H) (action : ClientBroker.Action)
  | lost (h : H)
  | deliver (h : H)
  | finish (h : H) (written : Bool)
  | join (h : H)
  | tick (instant system : Nat)
  | close (completes : Bool)
  | bind (result : Except Failure Unit)
  | cancelLeases
  | abort (h : H)
  | joined
  | release
  | kill

namespace Runtime

variable {A B H : Type}

def allows (runtime : Runtime A B H) (h : H) (action : ClientBroker.Action) : Bool :=
  match action with
  | .request (.ok request) => (runtime.stream h).any (·.request == request)
  | .write (.ok _) => (runtime.stream h).any (·.response.isSome)
  | _ => true

def dial [DecidableEq H] (runtime : Runtime A B H) (h : H) (request : Request) : Option (Runtime A B H) :=
  match runtime.socket, runtime.stream h with
  | some b, none =>
    if runtime.listening b then
      let stream := { broker := b, request, accepted := false, response := none }
      some { runtime with stream := Function.update runtime.stream h (some stream) }
    else
      none
  | _, _ => none

def respond [DecidableEq H] (runtime : Runtime A B H) (h : H) (response : Response)
    : Runtime A B H :=
  { runtime with
    stream := Function.update runtime.stream h ((runtime.stream h).map fun stream =>
      { stream with response := stream.response <|> some (response, runtime.owner) }) }

def stopListening [DecidableEq B] (runtime : Runtime A B H) (b : B) : Runtime A B H :=
  { runtime with listening := Function.update runtime.listening b false }

end Runtime

namespace Serve

variable {H : Type} [DecidableEq H]

def bindFirst (identity : Vector UInt8 32) (pid : UInt32) (instant system : Nat) : Serve H where
  handlers := ClientBroker.initial identity pid 0
  tasks := []
  running := []
  idleSince := instant
  lastTick := system
  endpoints := 1
  closed _ := false

def isIdle (serve : Serve H) : Bool :=
  serve.tasks.isEmpty && serve.handlers.shared.leases.isEmpty

def setEndpoint (serve : Serve H) (endpoint : Option Nat) (rebuilding : Bool) : Serve H :=
  { serve with
    handlers := { serve.handlers with
      shared := { serve.handlers.shared with endpoint, rebuilding } } }

def setClosed (serve : Serve H) (endpoint : Nat) (completes : Bool) : Serve H :=
  if completes then
    { serve with closed := Function.update serve.closed endpoint true }
  else
    serve

def tick (serve : Serve H) (instant system : Nat) : Serve H × ServePhase :=
  if serve.isIdle && instant - serve.idleSince ≥ idleTimeout then
    (serve, .cancelling)
  else
    let idleSince := if serve.isIdle then serve.idleSince else instant
    let ticked := { serve with idleSince, lastTick := system }
    if system - serve.lastTick ≥ resumeGap then
      match serve.handlers.shared.endpoint with
      | some old => (ticked.setEndpoint none true, .closingOld old)
      | none => (ticked.setEndpoint none true, .rebinding)
    else
      (ticked, .selecting)

def bind (serve : Serve H) : Serve H :=
  { serve.setEndpoint (some serve.endpoints) false with endpoints := serve.endpoints + 1 }

def cancelLeases (serve : Serve H) : Serve H :=
  let broker := serve.handlers.shared
  { serve with
    handlers := { serve.handlers with
      shared := { broker with
        lease := fun c =>
          if c ∈ Keyed.intoValues broker.leases then
            { broker.lease c with cancelled := true }
          else
            broker.lease c } } }

/--
The endpoint is bound: its close did not complete, and it is in the slot, held by `serve`, or cloned
by a Connect that is in its setup.
-/
def Bound (serve : Serve H) (phase : ServePhase) (endpoint : Nat) : Prop :=
  serve.closed endpoint = false
    ∧ (serve.handlers.shared.endpoint = some endpoint
      ∨ phase = .closingOld endpoint
      ∨ ∃ h ∈ serve.running, ∃ found, serve.handlers.phase h = .dialing found endpoint)

def Drained (serve : Serve H) : Prop :=
  ∀ h ∈ serve.running, ∀ found endpoint, serve.handlers.phase h = .dialing found endpoint →
    serve.closed endpoint = true

end Serve

section

variable {A B H : Type} [DecidableEq B] [DecidableEq H]

def leave (b : B) (runtime : Runtime A B H) (phase : BrokerPhase H)
    : Option (Runtime A B H × BrokerPhase H) :=
  some
    ({ runtime.stopListening b with
        owner := if phase.holdsOwner then none else runtime.owner }, .ended)

/-- The atomic steps of `serve`, which returns into `unlinking`. -/
def serveAct (token : H → Except Failure Token) (b : B) (runtime : Runtime A B H) (serve : Serve H)
    (phase : ServePhase) (action : BrokerAction H) : Option (Runtime A B H × BrokerPhase H) :=
  match phase, action with
  -- the handlers run beside the loop
  | _, .handler h action =>
    if h ∈ serve.running ∧ runtime.allows h action then
      (serve.handlers.step (ClientBroker.act token) h action).map fun handlers =>
        (runtime, .serving { serve with handlers } phase)
    else
      none
  | _, .lost h =>
    some (runtime, .serving { serve with
      handlers := { serve.handlers with shared := serve.handlers.shared.closeConnection h } } phase)
  | _, .deliver h =>
    if h ∈ serve.running then
      ((serve.handlers.phase h).response serve.handlers.shared).map fun response =>
        (runtime.respond h response, .serving serve phase)
    else
      none
  | _, .finish h written =>
    if h ∈ serve.running then
      let finished := { serve with running := serve.running.filter (· ≠ h) }
      match serve.handlers.phase h with
      | .returned false (.error (.error message)) =>
        let message := String.ofList (message.toList.take 512)
        some (if written then runtime.respond h (.error message) else runtime,
          .serving finished phase)
      | .returned _ _ => some (runtime, .serving finished phase)
      | _ => none
    else
      none
  -- the loop
  | .selecting, .accept h =>
    match runtime.stream h with
    | none => none
    | some stream =>
      if stream.broker = b ∧ !stream.accepted then
        let runtime := { runtime with
          stream := Function.update runtime.stream h (some { stream with accepted := true }) }
        if serve.running.length < maxIpcConnections then
          some (runtime, .serving { serve with
            tasks := h :: serve.tasks
            running := h :: serve.running } .selecting)
        else
          some (runtime, .serving serve .selecting)
      else
        none
  | .selecting, .acceptFails => some (runtime, .serving serve .cancelling)
  | .selecting, .join h =>
    if h ∈ serve.tasks ∧ h ∉ serve.running then
      some (runtime, .serving { serve with tasks := serve.tasks.filter (· ≠ h) } .selecting)
    else
      none
  | .selecting, .tick instant system =>
    let (serve, phase) := serve.tick instant system
    some (runtime, .serving serve phase)
  | .closingOld old, .close completes =>
    some (runtime, .serving (serve.setClosed old completes) .rebinding)
  | .rebinding, .bind result =>
    match result with
    | .ok _ => some (runtime, .serving serve.bind .selecting)
    | .error _ => some (runtime, .serving (serve.setEndpoint none false) .cancelling)
  -- after the loop
  | .cancelling, .cancelLeases => some (runtime, .serving serve.cancelLeases .joining)
  | .joining, .abort h =>
    if h ∈ serve.running then
      some (runtime, .serving { serve with
        tasks := serve.tasks.filter (· ≠ h)
        running := serve.running.filter (· ≠ h) } .joining)
    else
      none
  | .joining, .join h =>
    if h ∈ serve.tasks ∧ h ∉ serve.running then
      some (runtime, .serving { serve with tasks := serve.tasks.filter (· ≠ h) } .joining)
    else
      none
  | .joining, .joined =>
    if serve.tasks = [] then
      match serve.handlers.shared.endpoint with
      | some endpoint => some (runtime, .serving serve (.closing endpoint))
      | none => some (runtime.stopListening b, .unlinking)
    else
      none
  | .closing _, .close _ => some (runtime.stopListening b, .unlinking)
  | _, _ => none

/-- The atomic steps of `run`. -/
def brokerAct (identity : Vector UInt8 32) (pid : UInt32) (token : H → Except Failure Token) (b : B)
    (runtime : Runtime A B H) (phase : BrokerPhase H) (action : BrokerAction H)
    : Option (Runtime A B H × BrokerPhase H) :=
  match phase, action with
  | .absent, .start => if (runtime.parent b).isSome then some (runtime, .opening) else none
  | .opening, .open result =>
    match result with
    | .ok _ => some (runtime, .locking)
    | .error _ => leave b runtime phase
  | .locking, .lock result =>
    match result, runtime.owner with
    | .ok _, none => some ({ runtime with owner := some (.inr b) }, .verifying)
    | _, _ => leave b runtime phase
  | .verifying, .verify result =>
    match result with
    | .ok _ => some (runtime, .removing)
    | .error _ => leave b runtime phase
  | .removing, .removeSocket result =>
    match result with
    | .ok _ => some ({ runtime with socket := none }, .binding)
    | .error _ => leave b runtime phase
  | .binding, .bindSocket result =>
    match result, runtime.socket with
    | .ok _, none =>
      some ({ runtime with
        socket := some b
        listening := Function.update runtime.listening b true }, .protecting)
    | _, _ => leave b runtime phase
  | .protecting, .setPermissions result =>
    match result with
    | .ok _ => some (runtime, .bindingEndpoint)
    | .error _ => leave b runtime phase
  | .bindingEndpoint, .bindFirst result instant system =>
    match result with
    | .ok _ =>
      some (runtime, .serving (Serve.bindFirst identity pid instant system) .selecting)
    | .error _ => some (runtime.stopListening b, .unlinking)
  | .unlinking, .removeSocket result =>
    match result with
    | .ok _ => some ({ runtime with socket := none }, .releasing)
    | .error _ => some (runtime, .releasing)
  | .releasing, .release => leave b runtime phase
  | _, .kill => if phase.isAlive then leave b runtime phase else none
  | .serving serve phase, action => serveAct token b runtime serve phase action
  | _, _ => none

end

end ClientTransport

end Attached
