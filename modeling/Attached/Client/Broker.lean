import Attached.Library.Bytes
import Attached.Library.Keyed
import Attached.Library.Panic
import Attached.Library.Processes

/-!
This module contains the handlers of the client broker. Each of them serves one request of a local
client, any number of them runs at the same time, and they share the leases, the connections of each
lease and the endpoint. What a mutex protects happens in one step.
-/

namespace Attached

namespace ClientBroker

abbrev Token := Vector UInt8 16

def version : UInt8 := 1

def maxLeases : Nat := 32

def maxConnections : Nat := 128

def alpns : List (List UInt8) :=
  [Bytes.ofString "attached-ssh/1", Bytes.ofString "attached-tcp/1",
    Bytes.ofString "attached-update/2"]

inductive Operation where
  | lease (identity : Vector UInt8 32)
  | connect (lease : Token) (alpn : List UInt8)
  | open (lease connection : Token)
  | status (identity : Vector UInt8 32)
  | inspect (lease connection : Token)
  deriving DecidableEq

structure Request where
  version : UInt8
  operation : Operation
  deriving DecidableEq

inductive Response where
  | lease (identity : Vector UInt8 32) (lease : Token) (pid : UInt32)
  | connected (connection : Token)
  | open
  | status (identity : Vector UInt8 32) (pid : UInt32) (leases connections : Nat)
  | inspected
  | error (message : String)
  deriving DecidableEq

/-- A lease is shared by the handlers that got hold of it, and named after the one that made it. -/
structure Lease (C : Type) where
  cancelled : Bool
  connections : Std.TreeMap Token C compare

structure Connection where
  lease : Token
  closed : Bool

structure Broker (C : Type) where
  identity : Vector UInt8 32
  pid : UInt32
  endpoint : Option Nat
  rebuilding : Bool
  leases : Std.TreeMap Token C compare
  lease : C → Lease C
  connection : C → Option Connection

structure Found (C : Type) where
  token : Token
  lease : C

inductive Use where
  | connect
  | open (connection : Token)
  | inspect (connection : Token)

inductive Phase (C : Type) where
  | accepted
  | handling (operation : Operation)
  | lookedUp (found : Found C) (use : Use)
  -- Status
  | counting (remaining : List C) (leases connections : Nat)
  | reporting (leases connections : Nat)
  -- Lease
  | granting (token : Token)
  | granted (token : Token)
  | ending (token : Token) (ready : Bool) (result : Except Failure Unit)
  | removing (token : Token) (ready : Bool) (result : Except Failure Unit)
  -- Connect
  | connecting (found : Found C)
  | dialing (found : Found C) (endpoint : Nat)
  | connected (found : Found C)
  | introducing (found : Found C) (token : Token)
  | serving (found : Found C) (token : Token)
  | closing (found : Found C) (token : Token) (ready : Bool) (result : Except Failure Unit)
  | unregistering (found : Found C) (token : Token) (ready : Bool) (result : Except Failure Unit)
  -- Inspect
  | inspecting (found : Found C) (connection : Token)
  | measuring (found : Found C) (connection : C)
  | inspected (found : Found C) (connection : C)
  -- Open
  | reaching (found : Found C) (connection : Token)
  | opening (found : Found C) (connection : C)
  | opened (found : Found C) (connection : C)
  | copying (found : Found C) (connection : C)
  /-- `ready` tells that no error may be written to the stream any more. -/
  | returned (ready : Bool) (result : Except Failure Unit)

inductive Action where
  | request (received : Except Failure Request)
  | step
  | write (result : Except Failure Unit)
  | read
  | cancelled
  | connect (result : Except Failure Unit)
  | closed
  | openBi (result : Except Failure Unit)
  | copied (result : Except Failure Unit)

namespace Phase

def leased (phase : Phase C) : Option Token :=
  match phase with
  | .granting token => some token
  | .granted token => some token
  | .ending token _ _ => some token
  | .removing token _ _ => some token
  | _ => none

def registered (phase : Phase C) : Option (Found C × Token) :=
  match phase with
  | .introducing found token => some (found, token)
  | .serving found token => some (found, token)
  | .closing found token _ _ => some (found, token)
  | .unregistering found token _ _ => some (found, token)
  | _ => none

def uses (phase : Phase C) : Option (Found C) :=
  match phase with
  | .lookedUp found _ => some found
  | .connecting found => some found
  | .dialing found _ => some found
  | .connected found => some found
  | .introducing found _ => some found
  | .serving found _ => some found
  | .closing found _ _ _ => some found
  | .unregistering found _ _ _ => some found
  | .inspecting found _ => some found
  | .measuring found _ => some found
  | .inspected found _ => some found
  | .reaching found _ => some found
  | .opening found _ => some found
  | .opened found _ => some found
  | .copying found _ => some found
  | _ => none

def reached (phase : Phase C) : Option (Found C × C) :=
  match phase with
  | .measuring found connection => some (found, connection)
  | .inspected found connection => some (found, connection)
  | .opening found connection => some (found, connection)
  | .opened found connection => some (found, connection)
  | .copying found connection => some (found, connection)
  | _ => none

def holdsOwn (phase : Phase C) : Bool :=
  match phase with
  | .connected _ => true
  | .introducing _ _ => true
  | .serving _ _ => true
  | .closing _ _ _ _ => true
  | .unregistering _ _ _ _ => true
  | _ => false

def isReturned (phase : Phase C) : Bool :=
  match phase with
  | .returned _ _ => true
  | _ => false

def isIdle (phase : Phase C) : Bool :=
  match phase with
  | .accepted => true
  | .returned _ _ => true
  | _ => false

def response (phase : Phase C) (broker : Broker C) : Option Response :=
  match phase with
  | .reporting leases connections =>
    some (.status broker.identity broker.pid leases connections)
  | .granting token => some (.lease broker.identity token broker.pid)
  | .introducing _ token => some (.connected token)
  | .inspected _ _ => some .inspected
  | .opened _ _ => some .open
  | _ => none

end Phase

namespace Broker

variable {C : Type}

def fail (broker : Broker C) (message : String) : Option (Broker C × Phase C) :=
  some (broker, .returned false (.error (.error message)))

def lookup (broker : Broker C) (token : Token) (use : Use) : Option (Broker C × Phase C) :=
  match broker.leases[token]? with
  | none => broker.fail "client lease ended"
  | some lease => some (broker, .lookedUp ⟨token, lease⟩ use)

def setConnections [DecidableEq C] (broker : Broker C) (lease : C)
    (connections : Std.TreeMap Token C compare) : Broker C :=
  { broker with
    lease := Function.update broker.lease lease { broker.lease lease with connections } }

def closeConnection [DecidableEq C] (broker : Broker C) (c : C) : Broker C :=
  { broker with
    connection := Function.update broker.connection c
      ((broker.connection c).map fun connection => { connection with closed := true }) }

def isClosed (broker : Broker C) (c : C) : Bool :=
  (broker.connection c).any Connection.closed

end Broker

/--
The atomic steps of `Broker::handle` for the handler `c`, which generates at most one token.
-/
def act [DecidableEq C] (token : C → Except Failure Token) (c : C) (broker : Broker C)
    (phase : Phase C) (action : Action) : Option (Broker C × Phase C) :=
  match phase, action with
  | .accepted, .request received =>
    match received with
    | .error e => some (broker, .returned false (.error e))
    | .ok request =>
      if request.version == version then
        some (broker, .handling request.operation)
      else
        broker.fail "incompatible local broker protocol; restart Attached client commands"
  -- Status
  | .handling (.status identity), .step =>
    if identity == broker.identity then
      some (broker, .counting (Keyed.intoValues broker.leases) broker.leases.size 0)
    else
      broker.fail "local broker identity mismatch"
  | .counting remaining leases connections, .step =>
    match remaining with
    | lease :: remaining =>
      some (broker, .counting remaining leases
        (connections + (broker.lease lease).connections.size))
    | [] => some (broker, .reporting leases connections)
  | .reporting _ _, .write result => some (broker, .returned false result)
  -- Lease
  | .handling (.lease identity), .step =>
    if identity == broker.identity then
      match token c with
      | .error e => some (broker, .returned false (.error e))
      | .ok token =>
        if broker.leases.size < maxLeases then
          some ({ broker with
            leases := broker.leases.insert token c
            lease := Function.update broker.lease c { cancelled := false, connections := ∅ } },
            .granting token)
        else
          broker.fail "too many Attached client commands"
    else
      broker.fail "local broker identity mismatch"
  | .granting token, .write result =>
    match result with
    | .ok _ => some (broker, .granted token)
    | .error e => some (broker, .ending token false (.error e))
  | .granted token, .read => some (broker, .ending token true (.ok ()))
  | .ending token ready result, .step =>
    some ({ broker with
      lease := Function.update broker.lease c { broker.lease c with cancelled := true } },
      .removing token ready result)
  | .removing token ready result, .step =>
    some ({ broker with leases := broker.leases.erase token }, .returned ready result)
  -- Connect
  | .handling (.connect lease alpn), .step =>
    if alpns.contains alpn then
      broker.lookup lease .connect
    else
      broker.fail "unsupported local broker service"
  | .lookedUp found use, .step =>
    if (broker.lease found.lease).cancelled then
      broker.fail "client lease ended"
    else
      match use with
      | .connect => some (broker, .connecting found)
      | .open connection => some (broker, .reaching found connection)
      | .inspect connection => some (broker, .inspecting found connection)
  | .connecting found, .step =>
    if broker.rebuilding then
      none
    else
      match broker.endpoint with
      | none => broker.fail "network broker is restarting"
      | some endpoint => some (broker, .dialing found endpoint)
  | .connecting found, .cancelled =>
    if (broker.lease found.lease).cancelled then broker.fail "client lease ended" else none
  | .connecting _, .read => broker.fail "client cancelled connection setup"
  -- the timeout while the endpoint is locked
  | .connecting _, .connect (.error e) => some (broker, .returned false (.error e))
  | .dialing found _, .cancelled =>
    if (broker.lease found.lease).cancelled then broker.fail "client lease ended" else none
  | .dialing _ _, .read => broker.fail "client cancelled connection setup"
  | .dialing found _, .connect result =>
    match result with
    | .error e => some (broker, .returned false (.error e))
    | .ok _ =>
      some ({ broker with
        connection := Function.update broker.connection c
          (some { lease := found.token, closed := false }) },
        .connected found)
  | .connected found, .step =>
    match token c with
    | .error e => some (broker, .returned false (.error e))
    | .ok token =>
      let connections := (broker.lease found.lease).connections
      if connections.size ≥ maxConnections then
        (broker.closeConnection c).fail "too many client connections"
      else
        some (broker.setConnections found.lease (connections.insert token c),
          .introducing found token)
  | .introducing found token, .write result =>
    match result with
    | .ok _ => some (broker, .serving found token)
    | .error e => some (broker, .closing found token false (.error e))
  | .serving found token, .cancelled =>
    if (broker.lease found.lease).cancelled then
      some (broker, .closing found token true (.ok ()))
    else
      none
  | .serving found token, .closed =>
    if broker.isClosed c then some (broker, .closing found token true (.ok ())) else none
  | .serving found token, .read => some (broker, .closing found token true (.ok ()))
  | .closing found token ready result, .step =>
    some (broker.closeConnection c, .unregistering found token ready result)
  | .unregistering found token ready result, .step =>
    some (broker.setConnections found.lease ((broker.lease found.lease).connections.erase token),
      .returned ready result)
  -- Inspect
  | .handling (.inspect lease connection), .step => broker.lookup lease (.inspect connection)
  | .inspecting found connection, .step =>
    match (broker.lease found.lease).connections[connection]? with
    | none => broker.fail "client connection ended"
    | some connection => some (broker, .measuring found connection)
  | .measuring found connection, .step =>
    if broker.isClosed connection then
      broker.fail "publisher connection ended"
    else
      some (broker, .inspected found connection)
  | .inspected _ _, .write result => some (broker, .returned false result)
  -- Open
  | .handling (.open lease connection), .step => broker.lookup lease (.open connection)
  | .reaching found connection, .step =>
    match (broker.lease found.lease).connections[connection]? with
    | none => broker.fail "client connection ended"
    | some connection => some (broker, .opening found connection)
  | .opening found _, .cancelled =>
    if (broker.lease found.lease).cancelled then broker.fail "client lease ended" else none
  | .opening found connection, .openBi result =>
    match result with
    | .error e => some (broker, .returned false (.error e))
    | .ok _ => some (broker, .opened found connection)
  | .opened found connection, .write result =>
    match result with
    | .error e => some (broker, .returned false (.error e))
    | .ok _ => some (broker, .copying found connection)
  | .copying _ _, .copied result => some (broker, .returned true result)
  | _, _ => none

inductive Event (C : Type) where
  | handler (c : C) (action : Action)
  | lost (c : C)
  | rebuild (endpoint : Option Nat) (rebuilding : Bool)

def step [DecidableEq C] (token : C → Except Failure Token) (s : Processes C (Broker C) (Phase C))
    (event : Event C) : Option (Processes C (Broker C) (Phase C)) :=
  match event with
  | .handler c action => s.step (act token) c action
  | .lost c => some { s with shared := s.shared.closeConnection c }
  | .rebuild endpoint rebuilding =>
    some { s with shared := { s.shared with endpoint, rebuilding } }

def initial (identity : Vector UInt8 32) (pid : UInt32) (endpoint : Nat)
    : Processes C (Broker C) (Phase C) where
  shared :=
    { identity, pid, endpoint := some endpoint, rebuilding := false, leases := ∅
      lease _ := { cancelled := false, connections := ∅ }
      connection _ := none }
  phase _ := .accepted

def Handled (s : Processes C (Broker C) (Phase C)) (c : C) : Prop :=
  (s.phase c).holdsOwn = true
    ∨ (∃ (lease : C) (token : Token), (s.shared.lease lease).connections[token]? = some c)
    ∨ ∃ d found, (s.phase d).reached = some (found, c)

def IsOpen (s : Processes C (Broker C) (Phase C)) (c : C) : Prop :=
  (∃ connection, s.shared.connection c = some connection ∧ connection.closed = false)
    ∧ Handled s c

def Phase.WorksOn (phase : Phase C) (token : Token) : Prop :=
  phase.leased = some token ∨ ∃ found, phase.uses = some found ∧ found.token = token

end ClientBroker

def clientBroker {C : Type} [DecidableEq C] (token : C → Except Failure ClientBroker.Token)
    : System (Processes C (ClientBroker.Broker C) (ClientBroker.Phase C)) (ClientBroker.Event C) where
  init s := ∃ identity pid endpoint, s = ClientBroker.initial identity pid endpoint
  step s event t := ClientBroker.step token s event = some t

end Attached
