import Attached.Library.Relay
import Attached.Update.Frames

/-!
This module contains a TCP connection that is forwarded to a loopback port of a publisher: the client
and the publisher relay it over a stream of their own, each of them with two loops that copy.
-/

namespace Attached

open Pipe (Copy CopyAction)

structure CopyStats where
  leftToRight : Nat
  rightToLeft : Nat
  deriving DecidableEq

inductive LoopbackAddress where
  | ipv4
  | ipv6
  deriving DecidableEq

inductive ForwardPhase where
  | connecting
  | opening
  | awaitingStatus
  | relaying (leftToRight rightToLeft : Copy UInt8)
  | finished (stats : CopyStats)
  | failed (error : String)
  deriving DecidableEq

inductive ForwardAction where
  | connected
  | writeOpen
  /-- The halves that are dropped on an error look like an end to their readers or like a reset. -/
  | readStatus (left right : Bool)
  | leftToRight (action : CopyAction)
  | rightToLeft (action : CopyAction)
  | complete
  /-- An error of the transport, a timeout of the setup, or the task is cancelled. -/
  | fail (error : String) (left right : Bool)
  deriving DecidableEq

inductive ServePhase where
  | waiting
  | accepted
  | dialing (address : LoopbackAddress)
  | ready
  | refusing (error : String)
  | relaying (leftToRight rightToLeft : Copy UInt8)
  | finished (stats : CopyStats)
  | rejected
  | failed (error : String)
  deriving DecidableEq

inductive DialOutcome where
  | connected
  | refused
  | timedOut
  deriving DecidableEq

inductive ServeAction where
  | accept
  | reject (right : Bool)
  | readOpen (left right : Bool)
  | dial (outcome : DialOutcome)
  | writeStatus (left right : Bool)
  | leftToRight (action : CopyAction)
  | rightToLeft (action : CopyAction)
  | complete
  | fail (error : String) (left right : Bool)
  deriving DecidableEq

structure StreamTask where
  phase : ServePhase
  remote : Option LoopbackAddress
  deriving DecidableEq

inductive EndAction where
  | send (chunk : List UInt8)
  | finish
  | receive (n : Nat)
  | receiveEnd
  | reset
  deriving DecidableEq

structure ForwardedStream where
  port : UInt16
  client : ForwardPhase
  server : StreamTask
  appToClient : Pipe UInt8
  clientToApp : Pipe UInt8
  clientToServer : Pipe UInt8
  serverToClient : Pipe UInt8
  serverToService : Pipe UInt8
  serviceToServer : Pipe UInt8

inductive StreamAction where
  | app (action : EndAction)
  | service (action : EndAction)
  | client (action : ForwardAction)
  | server (action : ServeAction)
  | breakTunnel
  deriving DecidableEq

namespace Forward

def openMarker : List UInt8 :=
  (Frames.writeTcpForwardOpen.run []).2

def statusFrame (status : TcpForwardStatus) : List UInt8 :=
  ((Frames.writeTcpForwardStatus status).run []).2

def readFrame? {β : Type} (reader : Reader String β) (pipe : Pipe UInt8)
    : Option (Except String β × Pipe UInt8) :=
  match pipe.receive? 1 with
  | some (frame, pipe) => some ((reader.run frame).map Prod.fst, pipe)
  | none => pipe.receiveEnd?.map fun pipe => ((reader.run []).map Prod.fst, pipe)

def dropHalves (halves : Halves UInt8) (left right : Bool) : Halves UInt8 :=
  { halves with leftOut := halves.leftOut.drop left, rightOut := halves.rightOut.drop right }

def copyLeftToRight (halves : Halves UInt8) (leftToRight : Copy UInt8) (action : CopyAction)
    : Option (Copy UInt8 × Halves UInt8) :=
  (leftToRight.step halves.leftIn halves.rightOut action).map fun (copy, leftIn, rightOut) =>
    (copy, { halves with leftIn, rightOut })

def copyRightToLeft (halves : Halves UInt8) (rightToLeft : Copy UInt8) (action : CopyAction)
    : Option (Copy UInt8 × Halves UInt8) :=
  (rightToLeft.step halves.rightIn halves.leftOut action).map fun (copy, rightIn, leftOut) =>
    (copy, { halves with rightIn, leftOut })

/-- `copy_bidirectional_split` returns once both loops have ended. -/
def copyStats? (leftToRight rightToLeft : Copy UInt8) : Option CopyStats :=
  if leftToRight.closed && rightToLeft.closed then
    some { leftToRight := leftToRight.copied, rightToLeft := rightToLeft.copied }
  else
    none

end Forward

open Forward

def ForwardPhase.over (phase : ForwardPhase) : Bool :=
  match phase with
  | .finished _ | .failed _ => true
  | _ => false

def ForwardPhase.hasFailed (phase : ForwardPhase) : Bool :=
  match phase with
  | .failed _ => true
  | _ => false

def ForwardPhase.step (port : UInt16) (phase : ForwardPhase) (halves : Halves UInt8)
    (action : ForwardAction) : Option (ForwardPhase × Halves UInt8) :=
  match phase, action with
  | .connecting, .connected => some (.opening, halves)
  | .opening, .writeOpen =>
    (halves.rightOut.send? openMarker).map fun rightOut => (.awaitingStatus, { halves with rightOut })
  | .awaitingStatus, .readStatus left right =>
    (readFrame? Frames.readTcpForwardStatus halves.rightIn).map fun (result, rightIn) =>
      match result with
      | .ok .ready => (.relaying Copy.start Copy.start, { halves with rightIn })
      | .ok .connectionFailed =>
        (.failed s!"could not connect to remote loopback port {port} (is the service running?)",
          dropHalves { halves with rightIn } left right)
      | .error error => (.failed error, dropHalves { halves with rightIn } left right)
  | .relaying leftToRight rightToLeft, .leftToRight action =>
    (copyLeftToRight halves leftToRight action).map fun (copy, halves) =>
      (.relaying copy rightToLeft, halves)
  | .relaying leftToRight rightToLeft, .rightToLeft action =>
    (copyRightToLeft halves rightToLeft action).map fun (copy, halves) =>
      (.relaying leftToRight copy, halves)
  | .relaying leftToRight rightToLeft, .complete =>
    (copyStats? leftToRight rightToLeft).map fun stats => (.finished stats, halves)
  | phase, .fail error left right =>
    if phase.over then none else some (.failed error, dropHalves halves left right)
  | _, _ => none

def ServePhase.over (phase : ServePhase) : Bool :=
  match phase with
  | .finished _ | .rejected | .failed _ => true
  | _ => false

def ServePhase.hasFailed (phase : ServePhase) : Bool :=
  match phase with
  | .rejected | .failed _ => true
  | _ => false

def StreamTask.step (task : StreamTask) (halves : Halves UInt8) (action : ServeAction)
    : Option (StreamTask × Halves UInt8) :=
  match task.phase, action with
  | .waiting, .accept =>
    -- a new stream is seen once the client sent something
    if halves.rightIn.unread = [] then none else some ({ task with phase := .accepted }, halves)
  | .waiting, .reject right =>
    if halves.rightIn.unread = [] then
      none
    else
      some ({ task with phase := .rejected }, dropHalves halves right right)
  | .accepted, .readOpen left right =>
    (readFrame? Frames.readTcpForwardOpen halves.rightIn).map fun (result, rightIn) =>
      match result with
      | .ok _ => ({ task with phase := .dialing .ipv4 }, { halves with rightIn })
      | .error error =>
        ({ task with phase := .failed error }, dropHalves { halves with rightIn } left right)
  | .dialing address, .dial .connected => some ({ phase := .ready, remote := some address }, halves)
  | .dialing .ipv4, .dial _ => some ({ task with phase := .dialing .ipv6 }, halves)
  | .dialing .ipv6, .dial .refused =>
    some ({ task with phase := .refusing "could not connect to the remote loopback TCP port" }, halves)
  | .dialing .ipv6, .dial .timedOut =>
    some ({ task with phase := .refusing "remote loopback TCP connection timed out" }, halves)
  | .ready, .writeStatus _ _ =>
    (halves.rightOut.send? (statusFrame .ready)).map fun rightOut =>
      ({ task with phase := .relaying Copy.start Copy.start }, { halves with rightOut })
  | .refusing error, .writeStatus left right =>
    (halves.rightOut.send? (statusFrame .connectionFailed)).map fun rightOut =>
      ({ task with phase := .failed error },
        dropHalves { halves with rightOut := rightOut.finish } left right)
  | .relaying leftToRight rightToLeft, .leftToRight action =>
    (copyLeftToRight halves leftToRight action).map fun (copy, halves) =>
      ({ task with phase := .relaying copy rightToLeft }, halves)
  | .relaying leftToRight rightToLeft, .rightToLeft action =>
    (copyRightToLeft halves rightToLeft action).map fun (copy, halves) =>
      ({ task with phase := .relaying leftToRight copy }, halves)
  | .relaying leftToRight rightToLeft, .complete =>
    (copyStats? leftToRight rightToLeft).map fun stats => ({ task with phase := .finished stats }, halves)
  | phase, .fail error left right =>
    if phase.over then
      none
    else
      some ({ task with phase := .failed error }, dropHalves halves left right)
  | _, _ => none

def EndAction.step (output input : Pipe UInt8) (action : EndAction) : Option (Pipe UInt8 × Pipe UInt8) :=
  match action with
  | .send chunk => (output.send? chunk).map fun output => (output, input)
  | .finish => some (output.finish, input)
  | .receive n => (input.receive? n).map fun (_, input) => (output, input)
  | .receiveEnd => input.receiveEnd?.map fun input => (output, input)
  | .reset => some (output.fail, input.fail)

namespace ForwardedStream

def clientHalves (stream : ForwardedStream) : Halves UInt8 where
  leftIn := stream.appToClient
  leftOut := stream.clientToApp
  rightIn := stream.serverToClient
  rightOut := stream.clientToServer

def serverHalves (stream : ForwardedStream) : Halves UInt8 where
  leftIn := stream.serviceToServer
  leftOut := stream.serverToService
  rightIn := stream.clientToServer
  rightOut := stream.serverToClient

def accepted (port : UInt16) : ForwardedStream where
  port
  client := .connecting
  server := { phase := .waiting, remote := none }
  appToClient := Pipe.empty
  clientToApp := Pipe.empty
  clientToServer := Pipe.empty
  serverToClient := Pipe.empty
  serverToService := Pipe.empty
  serviceToServer := Pipe.empty

def step (stream : ForwardedStream) (action : StreamAction) : Option ForwardedStream :=
  match action with
  | .app action =>
    (action.step stream.appToClient stream.clientToApp).map fun (appToClient, clientToApp) =>
      { stream with appToClient, clientToApp }
  | .service action =>
    if stream.server.remote.isNone then
      none
    else
      (action.step stream.serviceToServer stream.serverToService).map
        fun (serviceToServer, serverToService) => { stream with serviceToServer, serverToService }
  | .client action =>
    (stream.client.step stream.port stream.clientHalves action).map fun (client, halves) =>
      { stream with
        client
        appToClient := halves.leftIn
        clientToApp := halves.leftOut
        serverToClient := halves.rightIn
        clientToServer := halves.rightOut }
  | .server action =>
    (stream.server.step stream.serverHalves action).map fun (server, halves) =>
      { stream with
        server
        serviceToServer := halves.leftIn
        serverToService := halves.leftOut
        clientToServer := halves.rightIn
        serverToClient := halves.rightOut }
  | .breakTunnel =>
    some { stream with
      clientToServer := stream.clientToServer.fail
      serverToClient := stream.serverToClient.fail }

end ForwardedStream

def streamSystem : System ForwardedStream StreamAction where
  init stream := ∃ port, stream = ForwardedStream.accepted port
  step stream action stream' := stream.step action = some stream'

end Attached
