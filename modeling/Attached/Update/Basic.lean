import Attached.Protocol.Basic

/-!
This module contains what the parties of a remote update exchange, and how a server answers the
clients that ask about an update.
-/

namespace Attached

structure UpdateOperationId where
  bytes : Vector UInt8 16
  deriving DecidableEq

inductive AttachedUpdateResponse where
  | current (version : ExecutableVersion)
  | restarting (operationId : UpdateOperationId) (version : ExecutableVersion)
    (reconnectTimeoutSecs : UInt16)
  | committed (version : ExecutableVersion)
  | waiting
  | busy
  | failed (message : String)
  deriving DecidableEq

inductive ParentCommand where
  | activate
  | commit
  | abort
  deriving DecidableEq

inductive CandidateEvent where
  | prepared (version : ExecutableVersion)
  | ready (version : ExecutableVersion)
  | consumerConnected
  | clientSucceeded
  | failed (reason : String)
  deriving DecidableEq

inductive CandidateDisposition where
  | pending
  | committed
  | aborted
  deriving DecidableEq

/-- A `CandidateConfirmation` with the current value of its `watch` channel. -/
structure CandidateConfirmation where
  operationId : UpdateOperationId
  version : ExecutableVersion
  disposition : CandidateDisposition
  deriving DecidableEq

structure RollbackRecord where
  operationId : UpdateOperationId
  reason : String
  deriving DecidableEq

def RollbackRecord.new (operationId : UpdateOperationId) : RollbackRecord where
  operationId := operationId
  reason :=
    "updated Attached candidate did not become reachable; the previous server was restored"

/--
What `candidate_confirmation_response` answers once the disposition is known, `none` if it waits for
the disposition to change.
-/
def CandidateConfirmation.response (candidate : CandidateConfirmation)
    : Option AttachedUpdateResponse :=
  match candidate.disposition with
  | .pending => none
  | .committed => some (.committed candidate.version)
  | .aborted => some (.failed "updated Attached candidate was rolled back")

def previousServerResponse (activeOperation : Option UpdateOperationId)
    (rollback : Option RollbackRecord) (operationId : UpdateOperationId)
    : AttachedUpdateResponse :=
  if activeOperation = some operationId then
    .waiting
  else
    match rollback with
    | some record =>
      if record.operationId = operationId then
        .failed record.reason
      else
        .failed "unknown Attached update operation"
    | none => .failed "unknown Attached update operation"

def candidateConfirmationResponse (candidate : Option CandidateConfirmation)
    (activeOperation : Option UpdateOperationId) (rollback : Option RollbackRecord)
    (operationId : UpdateOperationId) (observedVersion : ExecutableVersion)
    : Option AttachedUpdateResponse :=
  match candidate with
  | some candidate =>
    if candidate.operationId = operationId then
      if candidate.version ≠ observedVersion then
        some (.failed "updated Attached version did not match the prepared candidate")
      else
        candidate.response
    else
      some (previousServerResponse activeOperation rollback operationId)
  | none => some (previousServerResponse activeOperation rollback operationId)

end Attached
