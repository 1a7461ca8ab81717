import Attached.Library.Transition
import Attached.Update.Basic

/-!
This module contains the handoff of a serving endpoint to an updated candidate. The parent process
activates the candidate, commits it once a client reached it, and otherwise puts the previous binary
back. Both of them write to pipes, and any number of clients ask the candidate for its confirmation.
-/

namespace Attached

inductive ConfirmPhase where
  | arrived (operationId : UpdateOperationId) (observedVersion : ExecutableVersion)
  | sawPending
  | announcing
  /-- Waits for the disposition. It announced the consumer if `notify` is set. -/
  | waiting (notify : Bool)
  | replying (response : AttachedUpdateResponse) (notify : Bool)
  | replied (notify : Bool)
  | finished
  deriving DecidableEq

inductive ConfirmAction where
  | look (activeOperation : Option UpdateOperationId)
  | swap
  /-- Send `ConsumerConnected`, which nobody writes if the pipe broke. -/
  | announce (queued : Bool)
  | settle
  /-- The task that settles the disposition is gone. -/
  | watchdogStopped
  | reply (acknowledged : Bool)
  | succeed (queued : Bool)
  deriving DecidableEq

inductive CandidatePhase where
  | prepared
  | starting
  | serving
  | exited
  deriving DecidableEq

/-- The candidate process. Its disposition is settled when the task that reads the pipe has ended. -/
structure CandidateServer where
  confirmation : CandidateConfirmation
  phase : CandidatePhase
  announcedConsumer : Bool
  handlers : List ConfirmPhase
  queued : List CandidateEvent
  deriving DecidableEq

inductive ParentPhase where
  | activating
  | awaitingReady
  | awaitingConsumer
  | committing
  | aborting
  | reaping
  | restoring
  | awaitingClient
  | committingUpdate
  | supervising
  | rolledBack (record : RollbackRecord)
  | retired
  | failed
  deriving DecidableEq

inductive RetainedBinary where
  | retained
  | removed
  | restored
  | lost
  deriving DecidableEq

inductive HandoffEvent where
  | sent (command : ParentCommand)
  | received (event : CandidateEvent)
  | emitted (event : CandidateEvent)
  | answered (response : AttachedUpdateResponse)
  | exited
  | restored
  deriving DecidableEq

structure Handoff where
  operationId : UpdateOperationId
  version : ExecutableVersion
  parent : ParentPhase
  candidate : CandidateServer
  commands : List ParentCommand
  events : List CandidateEvent
  binary : RetainedBinary
  trace : List HandoffEvent
  deriving DecidableEq

inductive HandoffLabel where
  /-- The parent sends its next command, a send that fails delivers nothing. -/
  | send (delivered : Bool)
  | receive
  | giveUp
  | reap
  | kill
  | restore (renamed succeeded : Bool)
  | commitUpdate
  | supervised (success : Bool)
  /-- The parent cannot listen for signals, and drops the candidate. -/
  | superviseFailed
  | activate
  | readCommand
  /-- The pipe is closed or broken, or what it holds is no command. -/
  | readFailed
  | serve
  | write
  | fail (reason : String)
  | exit
  | connect (operationId : UpdateOperationId) (observedVersion : ExecutableVersion)
  | confirm (index : Nat) (action : ConfirmAction)
  deriving DecidableEq

namespace Handoff

def record (handoff : Handoff) (event : HandoffEvent) : Handoff :=
  { handoff with trace := event :: handoff.trace }

def sendCommand (handoff : Handoff) (command : ParentCommand) : Handoff :=
  { handoff with
    commands := handoff.commands ++ [command]
    trace := .sent command :: handoff.trace }

def emit (handoff : Handoff) (event : CandidateEvent) (queued : Bool) : Handoff :=
  if queued then
    { handoff with
      candidate.queued := handoff.candidate.queued ++ [event]
      trace := .emitted event :: handoff.trace }
  else
    handoff

def stop (handoff : Handoff) : Handoff :=
  { handoff with
    candidate.phase := .exited
    candidate.handlers := []
    candidate.queued := []
    trace := .exited :: handoff.trace }

def nextCommand (parent : ParentPhase) : Option (ParentCommand × ParentPhase × ParentPhase) :=
  match parent with
  | .activating => some (.activate, .awaitingReady, .aborting)
  | .committing => some (.commit, .awaitingClient, .aborting)
  | .aborting => some (.abort, .reaping, .reaping)
  | _ => none

def onEvent (version : ExecutableVersion) (parent : ParentPhase) (event : CandidateEvent)
    : Option ParentPhase :=
  match parent with
  | .awaitingReady => if event = .ready version then some .awaitingConsumer else some .aborting
  | .awaitingConsumer => if event = .consumerConnected then some .committing else some .aborting
  | .awaitingClient => some .committingUpdate
  | _ => none

def onGiveUp (parent : ParentPhase) : Option ParentPhase :=
  match parent with
  | .awaitingReady => some .aborting
  | .awaitingConsumer => some .aborting
  | .awaitingClient => some .committingUpdate
  | _ => none

def isActive (handoff : Handoff) : Bool :=
  handoff.candidate.phase == .starting || handoff.candidate.phase == .serving

/-- The response to a Confirm request that does not depend on the disposition. -/
def immediateResponse (candidate : CandidateServer) (activeOperation : Option UpdateOperationId)
    (operationId : UpdateOperationId) (observedVersion : ExecutableVersion)
    : Option AttachedUpdateResponse :=
  candidateConfirmationResponse (some { candidate.confirmation with disposition := .pending })
    activeOperation none operationId observedVersion

/-- The atomic steps of `candidate_confirmation_response` and of what follows it. -/
def act (handoff : Handoff) (phase : ConfirmPhase) (action : ConfirmAction)
    : Option (Handoff × ConfirmPhase) :=
  let candidate := handoff.candidate
  match phase, action with
  | .arrived operationId observedVersion, .look activeOperation =>
    match immediateResponse candidate activeOperation operationId observedVersion with
    | some response => some (handoff, .replying response false)
    | none =>
      if candidate.confirmation.disposition = .pending then
        some (handoff, .sawPending)
      else
        some (handoff, .waiting false)
  | .sawPending, .swap =>
    if candidate.announcedConsumer then
      some (handoff, .waiting false)
    else
      some ({ handoff with candidate.announcedConsumer := true }, .announcing)
  | .announcing, .announce queued => some (handoff.emit .consumerConnected queued, .waiting true)
  | .waiting notify, .settle => do
    let response ← candidate.confirmation.response
    return (handoff,
      .replying response (notify && candidate.confirmation.disposition == .committed))
  | .waiting _, .watchdogStopped =>
    if candidate.confirmation.disposition = .pending then
      some (handoff,
        .replying (.failed "updated Attached watchdog stopped before commit") false)
    else
      none
  | .replying response notify, .reply acknowledged =>
    some (handoff.record (.answered response), if acknowledged then .replied notify else .finished)
  | .replied notify, .succeed queued =>
    if notify then
      some (handoff.emit .clientSucceeded queued, .finished)
    else
      some (handoff, .finished)
  | _, _ => none

def setDisposition (handoff : Handoff) (disposition : CandidateDisposition) : Handoff :=
  { handoff with candidate.confirmation.disposition := disposition }

def step (handoff : Handoff) (label : HandoffLabel) : Option Handoff :=
  match label with
  | .send delivered => do
    let (command, sent, unsent) ← nextCommand handoff.parent
    if delivered then
      return { handoff.sendCommand command with parent := sent }
    else
      return { handoff with parent := unsent }
  | .receive =>
    match handoff.events with
    | [] => none
    | event :: events => do
      let parent ← onEvent handoff.version handoff.parent event
      return { handoff.record (.received event) with parent, events }
  | .giveUp => do
    let parent ← onGiveUp handoff.parent
    return { handoff with parent }
  | .reap =>
    if handoff.parent = .reaping && handoff.candidate.phase = .exited then
      some { handoff with parent := .restoring }
    else
      none
  | .kill =>
    if handoff.parent = .reaping && handoff.candidate.phase ≠ .exited then
      some { handoff.stop with parent := .restoring }
    else
      none
  | .restore renamed succeeded =>
    if handoff.parent ≠ .restoring then
      none
    else if !renamed then
      some { handoff with parent := .failed, binary := .lost }
    else
      some { handoff.record .restored with
        parent := if succeeded then .rolledBack (.new handoff.operationId) else .failed
        binary := .restored }
  | .commitUpdate =>
    if handoff.parent = .committingUpdate then
      some { handoff with parent := .supervising, binary := .removed }
    else
      none
  | .supervised success =>
    if handoff.parent = .supervising && handoff.candidate.phase = .exited then
      some { handoff with parent := if success then .retired else .failed }
    else
      none
  | .superviseFailed =>
    if handoff.parent = .supervising && handoff.candidate.phase ≠ .exited then
      some { handoff.stop with parent := .failed }
    else
      none
  | .activate =>
    match handoff.candidate.phase, handoff.commands with
    | .prepared, command :: commands =>
      if command = .activate then
        some { handoff with candidate.phase := .starting, commands }
      else
        some { handoff.stop with commands }
    | _, _ => none
  | .readCommand =>
    match handoff.commands with
    | [] => none
    | command :: commands =>
      if handoff.isActive && handoff.candidate.confirmation.disposition = .pending then
        some { handoff.setDisposition (if command = .commit then .committed else .aborted) with
          commands }
      else
        none
  | .readFailed =>
    if handoff.isActive && handoff.candidate.confirmation.disposition = .pending then
      some (handoff.setDisposition .aborted)
    else
      none
  | .serve =>
    if handoff.candidate.phase = .starting then
      some ({ handoff with candidate.phase := .serving }.emit
        (.ready handoff.candidate.confirmation.version) true)
    else
      none
  | .write =>
    match handoff.candidate.queued with
    | [] => none
    | event :: queued =>
      some { handoff with candidate.queued := queued, events := handoff.events ++ [event] }
  | .fail reason => if handoff.isActive then some (handoff.emit (.failed reason) true) else none
  | .exit => if handoff.candidate.phase ≠ .exited then some handoff.stop else none
  | .connect operationId observedVersion =>
    if handoff.candidate.phase = .serving then
      some { handoff with
        candidate.handlers := handoff.candidate.handlers ++ [.arrived operationId observedVersion]
      }
    else
      none
  | .confirm index action => do
    let phase ← handoff.candidate.handlers[index]?
    let (handoff, phase) ← handoff.act phase action
    return { handoff with
      candidate.handlers := handoff.candidate.handlers.set index phase
    }

end Handoff

/--
The handoff of a prepared update, in any order of the steps of its parties. It starts when the old
endpoint is closed.
-/
def handoffSystem : System Handoff HandoffLabel where
  init handoff :=
    handoff.parent = .activating
      ∧ handoff.candidate.phase = .prepared
      ∧ handoff.candidate.confirmation.operationId = handoff.operationId
      ∧ handoff.candidate.confirmation.disposition = .pending
      ∧ handoff.candidate.announcedConsumer = false
      ∧ handoff.candidate.handlers = []
      ∧ handoff.candidate.queued = []
      ∧ handoff.commands = []
      ∧ handoff.events = []
      ∧ handoff.binary = .retained
      ∧ handoff.trace = []
  step handoff label handoff' := handoff.step label = some handoff'

end Attached
