import Attached.Forward.Stream
import Attached.Sync.Catalog

/-!
This module contains a client that forwards a local port: the connections that it makes to the
publisher, one for all of its streams, and the loops that serve them there.
-/

namespace Attached

inductive ServeLoopPhase where
  | authorizing
  | authenticating
  | serving
  | ended (result : Except String Unit)

structure ForwardConnection where
  closed : Bool
  request : Option (List UInt8)
  reply : Option (List UInt8)
  capability : Vector UInt8 32
  phase : ServeLoopPhase
  port : Option UInt16
  tasks : List Nat

def ForwardConnection.dialed (capability : Vector UInt8 32) : ForwardConnection where
  closed := false
  request := none
  reply := none
  capability
  phase := .authorizing
  port := none
  tasks := []

/-- Where a call of `Client::connection` is. All phases but the first and the last ones hold its lock. -/
inductive CallPhase where
  | waiting
  | fetching
  | connecting (host : HostConnection) (retry : Bool)
  | requesting (host : HostConnection) (retry : Bool) (connection : Nat)
  | awaitingReply (host : HostConnection) (retry : Bool) (connection : Nat)
  | refetching (host : HostConnection) (error : String)
  | connected (connection : Nat)
  | failed (error : String)

structure ForwardCall where
  phase : CallPhase
  stream : Option ForwardedStream

structure ForwardClient where
  port : UInt16
  current : Option Nat
  connections : List ForwardConnection
  calls : List ForwardCall
  tasks : List Nat

inductive ClientEvent where
  | accept
  | joinTask (call : Nat)
  | lock (call : Nat)
  | fetched (call : Nat) (result : Except String HostConnection)
  | connect (call : Nat) (now : DateTime) (capability : Vector UInt8 32) (result : Except String Unit)
  | writeRequest (call : Nat)
  | readReply (call : Nat)
  | openFails (call : Nat) (error : String)
  | refetched (call : Nat) (result : Except String HostConnection)
  | setupTimesOut (call : Nat)
  | lose (connection : Nat)
  | authorize (connection : Nat) (result : Except String Unit)
  | authenticate (connection : Nat)
  | endServe (connection : Nat) (result : Except String Unit)
  | joinServe (connection call : Nat)
  | stream (call : Nat) (action : StreamAction)

structure ClientLabel where
  event : ClientEvent
  graceful : Nat → Bool × Bool

namespace CallPhase

def holdsLock (phase : CallPhase) : Bool :=
  match phase with
  | .waiting | .connected _ | .failed _ => false
  | _ => true

def pending (phase : CallPhase) : Option Nat :=
  match phase with
  | .requesting _ _ connection | .awaitingReply _ _ connection => some connection
  | _ => none

end CallPhase

open Forward

namespace ForwardClient

def maxStreams : Nat := 64

variable {Ticket : Type} (iroh : Iroh Ticket) (client : ForwardClient)

def checkHost (host : HostConnection) (now : DateTime) : Except String Unit := do
  Except.ensure (now < host.expiresAt) "publisher descriptor expired"
  match iroh.ticketFromStr host.endpointTicket with
  | none => .error "invalid ticket"
  | some ticket =>
    Except.ensure (iroh.ticketIdentity ticket == host.endpointIdentity) "publisher ticket identity mismatch"

def checkReply (reply : List UInt8) : Except String Unit := do
  let (status, rest) ← (Frames.readTcpForwardStatus : Reader String _).run reply
  Except.ensure (status == .ready) "publisher rejected TCP forwarding"
  Except.ensure rest.isEmpty "trailing TCP setup response bytes"

def setPhase (i : Nat) (phase : CallPhase) : ForwardClient :=
  { client with calls := client.calls.modify i fun call => { call with phase } }

def updateConnection (c : Nat) (f : ForwardConnection → ForwardConnection) : ForwardClient :=
  { client with connections := client.connections.modify c f }

/-- `SetupConnection` closes what was not committed. -/
def dropPending (pending : Option Nat) : ForwardClient :=
  match pending with
  | none => client
  | some c => client.updateConnection c fun connection => { connection with closed := true }

def failCall (i : Nat) (error : String) (graceful : Nat → Bool × Bool) : ForwardClient :=
  { client with
    calls := client.calls.modify i fun call =>
      { phase := .failed error
        stream := call.stream.map fun stream =>
          (stream.step (.client (.fail error (graceful i).1 (graceful i).2))).getD stream } }

/-- `open` fails: at first the descriptor is refreshed, the second time it is an error. -/
def openFailed (i : Nat) (phase : CallPhase) (error : String) (graceful : Nat → Bool × Bool)
    : Option ForwardClient :=
  match phase with
  | .connecting host retry | .requesting host retry _ | .awaitingReply host retry _ =>
    let client := client.dropPending phase.pending
    some (if retry then client.failCall i error graceful else client.setPhase i (.refetching host error))
  | _ => none

def abortStream (call : ForwardCall) (graceful : Bool × Bool) : ForwardCall :=
  { call with
    stream := call.stream.map fun stream =>
      (stream.step (.server (.fail "TCP forwarding ended" graceful.1 graceful.2))).getD stream }

/-- `serve_inner` returns, which aborts its tasks, and `serve` closes the connection. -/
def endServe (c : Nat) (tasks : List Nat) (result : Except String Unit) (graceful : Nat → Bool × Bool)
    : ForwardClient :=
  { client with
    connections := client.connections.modify c fun connection =>
      { connection with phase := .ended result, tasks := [] }
    calls := client.calls.mapIdx fun i call => if i ∈ tasks then abortStream call (graceful i) else call }

def openConnection : Option Nat :=
  client.current.filter fun c =>
    match client.connections[c]? with
    | some connection => !connection.closed
    | none => false

def phaseOf? (i : Nat) : Option CallPhase :=
  (client.calls[i]?).map ForwardCall.phase

def streamOf? (i : Nat) : Option ForwardedStream :=
  (client.calls[i]?).bind ForwardCall.stream

def connectCall (i c : Nat) : ForwardClient :=
  { client with
    calls := client.calls.modify i fun call =>
      { phase := .connected c
        stream := call.stream.map fun stream => (stream.step (.client .connected)).getD stream } }

def setStream (i : Nat) (stream : ForwardedStream) : ForwardClient :=
  { client with calls := client.calls.modify i fun call => { call with stream := some stream } }

def allows (i : Nat) (phase : CallPhase) (action : StreamAction) : Bool :=
  match action with
  | .app _ | .service _ | .breakTunnel => true
  | .client .connected => false
  | .client _ => (phase matches .connected _)
  | .server action =>
    match phase with
    | .connected c =>
      match client.connections[c]? with
      | some connection =>
        match action with
        | .accept => (connection.phase matches .serving) && connection.tasks.length < maxStreams
        | .reject _ => (connection.phase matches .serving) && maxStreams ≤ connection.tasks.length
        | _ => i ∈ connection.tasks
      | none => false
    | _ => false

def spawn (i : Nat) (phase : CallPhase) (action : StreamAction) : ForwardClient :=
  match action, phase with
  | .server .accept, .connected c =>
    client.updateConnection c fun connection => { connection with tasks := connection.tasks ++ [i] }
  | _, _ => client

def step (client : ForwardClient) (label : ClientLabel) : Option ForwardClient :=
  match label.event with
  | .accept =>
    -- `listen` makes a connection before it accepts
    match client.phaseOf? 0 with
    | some (.connected _) =>
      some (if client.tasks.length < maxStreams then
        { client with
          calls := client.calls ++
            [{ phase := .waiting, stream := some (ForwardedStream.accepted client.port) }]
          tasks := client.tasks ++ [client.calls.length] }
      else
        client)
    | _ => none
  | .joinTask i =>
    match client.streamOf? i with
    | some stream =>
      if stream.client.over then some { client with tasks := client.tasks.erase i } else none
    | none => none
  | .lock i =>
    match client.phaseOf? i with
    | some .waiting =>
      if client.calls.any fun call => call.phase.holdsLock then
        none
      else
        match client.openConnection with
        | some c => some (client.connectCall i c)
        | none => some (client.setPhase i .fetching)
    | _ => none
  | .fetched i result =>
    match client.phaseOf? i, result with
    | some .fetching, .ok host => some (client.setPhase i (.connecting host false))
    | some .fetching, .error error => some (client.failCall i error label.graceful)
    | _, _ => none
  | .connect i now capability result =>
    match client.phaseOf? i with
    | some (.connecting host retry) =>
      match checkHost iroh host now, result with
      | .ok _, .ok _ =>
        some { client.setPhase i (.requesting host retry client.connections.length) with
          connections := client.connections ++ [ForwardConnection.dialed capability] }
      | .ok _, .error error | .error error, _ =>
        client.openFailed i (.connecting host retry) error label.graceful
    | _ => none
  | .writeRequest i =>
    match client.phaseOf? i with
    | some (.requesting host retry c) =>
      match (Frames.writeTcpForwardRequest host.attachCapability client.port).run [] with
      | (.ok _, bytes) =>
        some ((client.setPhase i (.awaitingReply host retry c)).updateConnection c
          fun connection => { connection with request := some bytes })
      | (.error error, _) => client.openFailed i (.requesting host retry c) error label.graceful
    | _ => none
  | .readReply i =>
    match client.phaseOf? i with
    | some (.awaitingReply host retry c) =>
      match (client.connections[c]?).bind ForwardConnection.reply with
      | none => none
      | some reply =>
        match checkReply reply with
        | .ok _ => some { client.connectCall i c with current := some c }
        | .error error => client.openFailed i (.awaitingReply host retry c) error label.graceful
    | _ => none
  | .openFails i error =>
    match client.phaseOf? i with
    | some phase => client.openFailed i phase error label.graceful
    | none => none
  | .refetched i result =>
    match client.phaseOf? i, result with
    | some (.refetching _ _), .error error => some (client.failCall i error label.graceful)
    | some (.refetching host error), .ok refreshed =>
      if refreshed = host then
        some (client.failCall i error label.graceful)
      else
        some (client.setPhase i (.connecting refreshed true))
    | _, _ => none
  | .setupTimesOut i =>
    match client.phaseOf? i with
    | some phase =>
      if phase.holdsLock then
        some ((client.dropPending phase.pending).failCall i
          "TCP publisher setup or discovery refresh timed out" label.graceful)
      else
        none
    | none => none
  | .lose c => some (client.updateConnection c fun connection => { connection with closed := true })
  | .authorize c result =>
    match client.connections[c]? with
    | some connection =>
      match connection.phase, result with
      | .authorizing, .ok _ =>
        some (client.updateConnection c fun connection => { connection with phase := .authenticating })
      | .serving, .ok _ => some client
      | .authorizing, .error error | .serving, .error error =>
        some (client.endServe c connection.tasks (.error error) label.graceful)
      | _, _ => none
    | none => none
  | .authenticate c =>
    match client.connections[c]? with
    | some connection =>
      match connection.phase, connection.request with
      | .authenticating, some request =>
        match (Frames.readTcpForwardRequest connection.capability : Reader String _).run request with
        | .ok (port, _) =>
          some (client.updateConnection c fun connection =>
            { connection with
              phase := .serving
              port := some port
              reply := some (statusFrame .ready) })
        | .error error =>
          some (client.endServe c connection.tasks (.error error) label.graceful)
      | _, _ => none
    | none => none
  | .endServe c result =>
    match client.connections[c]? with
    | some connection =>
      match connection.phase with
      | .ended _ => none
      | _ => some (client.endServe c connection.tasks result label.graceful)
    | none => none
  | .joinServe c i =>
    match client.connections[c]?, client.streamOf? i with
    | some _, some stream =>
      if stream.server.phase.over then
        some (client.updateConnection c fun connection =>
          { connection with tasks := connection.tasks.erase i })
      else
        none
    | _, _ => none
  | .stream i action =>
    match client.phaseOf? i, client.streamOf? i with
    | some phase, some stream =>
      if client.allows i phase action then
        (stream.step action).map fun stream => (client.setStream i stream).spawn i phase action
      else
        none
    | _, _ => none

def start (port : UInt16) : ForwardClient where
  port
  current := none
  connections := []
  calls := [{ phase := .waiting, stream := none }]
  tasks := []

end ForwardClient

def forwardSystem {Ticket : Type} (iroh : Iroh Ticket) : System ForwardClient ClientLabel where
  init client := ∃ port, client = ForwardClient.start port
  step client label client' := client.step iroh label = some client'

end Attached
