import Attached.Library.Transition
import Attached.Update.Basic

/-!
This module contains the handlers of Start requests on a serving endpoint. They share the single
update permit and the slot for the active operation, which a handler sets after it took the permit
and clears when its update fails.
-/

namespace Attached

inductive StartPhase where
  | arrived
  | permitted
  | preparing (id : UpdateOperationId)
  /-- The preparation returned an error or `Current`, which dropped the permit. -/
  | released (id : UpdateOperationId) (response : AttachedUpdateResponse)
  | replying (response : AttachedUpdateResponse)
  | prepared (id : UpdateOperationId) (version : ExecutableVersion)
  | announced (id : UpdateOperationId) (version : ExecutableVersion)
  | waiting (id : UpdateOperationId) (version : ExecutableVersion)
  | failed (id : UpdateOperationId)
  | aborting (id : UpdateOperationId)
  | finished
  deriving DecidableEq

namespace StartPhase

def liveOperation (phase : StartPhase) : Option UpdateOperationId :=
  match phase with
  | .preparing id => some id
  | .prepared id _ => some id
  | .announced id _ => some id
  | .waiting id _ => some id
  | _ => none

def announcedOperation (phase : StartPhase) : Option UpdateOperationId :=
  match phase with
  | .announced id _ => some id
  | .waiting id _ => some id
  | _ => none

def holdsPermit (phase : StartPhase) : Bool :=
  match phase with
  | .permitted => true
  | .preparing _ => true
  | .prepared _ _ => true
  | .announced _ _ => true
  | .waiting _ _ => true
  | .failed _ => true
  | .aborting _ => true
  | _ => false

end StartPhase

inductive StartAction where
  | busy
  | acquire
  | noOperationId
  | setOperation (id : UpdateOperationId)
  | prepareFailed
  | prepareCurrent
  | prepareHandoff (version : ExecutableVersion)
  | clear
  | reply
  | announce
  | announceFailed
  | send
  | sendFailed
  | abort
  deriving DecidableEq

structure UpdateResources where
  currentVersion : ExecutableVersion
  permitFree : Bool
  activeOperation : Option UpdateOperationId
  candidate : Option CandidateConfirmation
  rollback : Option RollbackRecord
  issued : List UpdateOperationId
  deriving DecidableEq

namespace UpdateResources

def candidatePending (resources : UpdateResources) : Bool :=
  resources.candidate.any fun candidate => candidate.disposition == .pending

def confirmationResponse (resources : UpdateResources) (operationId : UpdateOperationId)
    (observedVersion : ExecutableVersion) : Option AttachedUpdateResponse :=
  candidateConfirmationResponse resources.candidate resources.activeOperation resources.rollback
    operationId observedVersion

/-- The atomic steps of `serve_attached_update_connection` for a Start request. -/
def act (resources : UpdateResources) (phase : StartPhase) (action : StartAction)
    : Option (UpdateResources × StartPhase) :=
  match phase, action with
  | .arrived, .busy =>
    if resources.candidatePending || !resources.permitFree then
      some (resources, .finished)
    else
      none
  | .arrived, .acquire =>
    if !resources.candidatePending && resources.permitFree then
      some ({ resources with permitFree := false }, .permitted)
    else
      none
  | .permitted, .noOperationId => some ({ resources with permitFree := true }, .finished)
  | .permitted, .setOperation id =>
    if id ∈ resources.issued then
      none
    else
      some ({ resources with activeOperation := some id, issued := id :: resources.issued },
        .preparing id)
  | .preparing id, .prepareFailed =>
    some ({ resources with permitFree := true },
      .released id (.failed "remote Attached update could not be prepared"))
  | .preparing id, .prepareCurrent =>
    some ({ resources with permitFree := true }, .released id (.current resources.currentVersion))
  | .preparing id, .prepareHandoff version =>
    if version = resources.currentVersion then none else some (resources, .prepared id version)
  | .released _ response, .clear =>
    some ({ resources with activeOperation := none }, .replying response)
  | .replying _, .reply => some (resources, .finished)
  | .prepared id version, .announce => some (resources, .announced id version)
  | .prepared id _, .announceFailed => some (resources, .failed id)
  | .announced id version, .send => some (resources, .waiting id version)
  | .announced id _, .sendFailed => some (resources, .failed id)
  | .failed id, .clear => some ({ resources with activeOperation := none }, .aborting id)
  | .aborting _, .abort => some ({ resources with permitFree := true }, .finished)
  | _, _ => none

end UpdateResources

structure UpdateServer where
  resources : UpdateResources
  handlers : List StartPhase
  accepting : Bool
  deriving DecidableEq

inductive UpdateServerEvent where
  | start
  | handler (index : Nat) (action : StartAction)
  | confirm (operationId : UpdateOperationId) (observedVersion : ExecutableVersion)
    (response : AttachedUpdateResponse)
  | dispose (disposition : CandidateDisposition)
  | close
  | rolledBack (index : Nat)

namespace UpdateServer

def step (server : UpdateServer) (event : UpdateServerEvent) : Option UpdateServer :=
  match event with
  | .start =>
    if server.accepting then
      some { server with handlers := server.handlers ++ [.arrived] }
    else
      none
  | .handler index action => do
    let phase ← server.handlers[index]?
    let (resources, phase) ← server.resources.act phase action
    return { server with resources, handlers := server.handlers.set index phase }
  | .confirm operationId observedVersion response =>
    if server.resources.confirmationResponse operationId observedVersion = some response then
      some server
    else
      none
  | .dispose disposition => do
    let candidate ← server.resources.candidate
    if candidate.disposition = .pending then
      return { server with
        resources.candidate := some { candidate with disposition }
      }
    else
      none
  | .close => some { server with accepting := false }
  | .rolledBack index =>
    match server.handlers[index]? with
    | some (.waiting id _) =>
      -- `shutdown_connections` drained all other handlers before the supervisor took over.
      if !server.accepting && (server.handlers.set index .finished).all (· == .finished) then
        some {
          resources := { server.resources with
            permitFree := true
            activeOperation := none
            candidate := none
            rollback := some (.new id)
          }
          handlers := server.handlers.set index .finished
          accepting := true
        }
      else
        none
    | _ => none

end UpdateServer

/--
A serving endpoint with its handlers, in any order of their steps.
-/
def updateServer : System UpdateServer UpdateServerEvent where
  init server :=
    server.handlers = []
      ∧ server.resources.permitFree = true
      ∧ server.resources.activeOperation = none
      ∧ ∀ candidate ∈ server.resources.candidate,
          candidate.operationId ∈ server.resources.issued
  step server event server' := server.step event = some server'

end Attached
