import Attached.Update.Handover

/-!
This module contains the client that requested an update and asks for its confirmation, and that it
reports success only if the update was committed.
-/

namespace Attached

def ExecutableVersion.display (version : ExecutableVersion) : String :=
  s!"{version.major.toNat}.{version.minor.toNat}.{version.patch.toNat}"

def ExecutableVersion.debug (version : ExecutableVersion) : String :=
  "AttachedVersion \x7b major: " ++ toString version.major.toNat ++ ", minor: "
    ++ toString version.minor.toNat ++ ", patch: " ++ toString version.patch.toNat ++ " \x7d"

def UpdateOperationId.display (operationId : UpdateOperationId) : String :=
  String.ofList ((Bytes.hex operationId.bytes.toList).map fun digit => Char.ofNat digit.toNat)

def debugRestarting (operationId : UpdateOperationId) (version : ExecutableVersion)
    (reconnectTimeoutSecs : UInt16) : String :=
  "Restarting \x7b operation_id: UpdateOperationId(" ++ operationId.display ++ "), version: "
    ++ version.debug ++ ", reconnect_timeout_secs: " ++ toString reconnectTimeoutSecs.toNat
    ++ " \x7d"

namespace UpdateClient

def maxAttachedReconnectTimeout : Nat := 60

inductive Attempt where
  | response (response : AttachedUpdateResponse)
  | error (message : String)
  deriving DecidableEq

/--
The loop of `confirm_attached_candidate` over the attempts, each with the time at its start. It still
runs where they end before the deadline.
-/
def confirmAttachedCandidate (version : ExecutableVersion) (deadline : Nat)
    (lastError : Option String) (attempts : List (Nat × Attempt))
    : Option (Except String ExecutableVersion) :=
  match attempts with
  | [] => none
  | (now, attempt) :: attempts =>
    if deadline ≤ now then
      let detail := lastError.getD "the replacement server did not answer"
      some (.error
        s!"timed out confirming remote Attached {version.display} after restart: {detail}")
    else
      match attempt with
      | .response (.committed installed) =>
        if installed = version then
          some (.ok installed)
        else
          some (.error (s!"replacement server reported Attached {installed.display}, expected "
            ++ version.display))
      | .response (.failed message) => some (.error message)
      | .response .busy => confirmAttachedCandidate version deadline lastError attempts
      | .response .waiting => confirmAttachedCandidate version deadline lastError attempts
      | .response (.current installed) =>
        if installed = version then
          some (.ok installed)
        else
          let error := s!"unexpected confirmation response Current({installed.debug})"
          confirmAttachedCandidate version deadline (some error) attempts
      | .response (.restarting operationId restarted secs) =>
        let error := "unexpected confirmation response " ++ debugRestarting operationId restarted secs
        confirmAttachedCandidate version deadline (some error) attempts
      | .error message => confirmAttachedCandidate version deadline (some message) attempts

/-- `request_attached_update_on_endpoint` after the response to the Start request, at the time `now`. -/
def requestAttachedUpdate (now : Nat) (initial : AttachedUpdateResponse)
    (attempts : List (Nat × Attempt)) : Option (Except String ExecutableVersion) :=
  match initial with
  | .current version => some (.ok version)
  | .committed version => some (.ok version)
  | .restarting _ version reconnectTimeoutSecs =>
    if reconnectTimeoutSecs.toNat = 0 || maxAttachedReconnectTimeout < reconnectTimeoutSecs.toNat then
      some (.error "remote Attached returned an invalid reconnect deadline")
    else
      confirmAttachedCandidate version (now + reconnectTimeoutSecs.toNat) none attempts
  | .failed message => some (.error message)
  | .busy => some (.error "a remote Attached update is already in progress; retry later")
  | .waiting => some (.error "remote Attached returned an unexpected waiting response")

def isSuccess (version : ExecutableVersion) (response : AttachedUpdateResponse) : Bool :=
  response == .committed version || response == .current version

variable {version installed : ExecutableVersion} {deadline now : Nat} {lastError : Option String}
  {attempts : List (Nat × Attempt)}

theorem exists_success_of_confirm
    (h : confirmAttachedCandidate version deadline lastError attempts = some (.ok installed))
    : installed = version ∧ ∃ entry ∈ attempts, ∃ response, entry.2 = .response response
        ∧ isSuccess version response = true := by
  induction attempts generalizing lastError with
  | nil => cases h
  | cons entry attempts ih =>
    rcases entry with ⟨start, attempt⟩
    have hlater : ∀ {lastError}, confirmAttachedCandidate version deadline lastError attempts
          = some (.ok installed) →
        installed = version ∧ ∃ entry ∈ (start, attempt) :: attempts, ∃ response,
          entry.2 = .response response ∧ isSuccess version response = true := by
      intro lastError hlater
      rcases ih hlater with ⟨heq, entry, hmem, hentry⟩
      exact ⟨heq, entry, List.mem_cons_of_mem _ hmem, hentry⟩
    unfold confirmAttachedCandidate at h
    split at h
    . cases h
    . split at h
      . split at h
        . next heq =>
          cases h
          refine ⟨heq, _, List.mem_cons_self, _, rfl, ?_⟩
          simp [isSuccess, heq]
        . cases h
      . cases h
      . exact hlater h
      . exact hlater h
      . split at h
        . next heq =>
          cases h
          refine ⟨heq, _, List.mem_cons_self, _, rfl, ?_⟩
          simp [isSuccess, heq]
        . exact hlater h
      . exact hlater h
      . exact hlater h

theorem confirm_of_request {operationId : UpdateOperationId} {secs : UInt16}
    (h : requestAttachedUpdate now (.restarting operationId version secs) attempts
      = some (.ok installed))
    : confirmAttachedCandidate version (now + secs.toNat) none attempts = some (.ok installed) := by
  simp only [requestAttachedUpdate] at h
  split at h
  . cases h
  . exact h

end UpdateClient

namespace Handoff

/--
What a client of the operation may be answered: by the candidate, or by the previous server, which may
still hold the operation and has a record of the rollback once it serves again.
-/
inductive MayAnswer (handoff : Handoff) : AttachedUpdateResponse → Prop
  | candidate {response : AttachedUpdateResponse} : .answered response ∈ handoff.trace →
      MayAnswer handoff response
  | previous (activeOperation : Option UpdateOperationId) (rollback : Option RollbackRecord) :
      (∀ record ∈ rollback, handoff.parent = .rolledBack record) →
      MayAnswer handoff
        (previousServerResponse activeOperation rollback handoff.operationId)

variable {handoff handoff' : Handoff} {response : AttachedUpdateResponse}
  {version : ExecutableVersion}

theorem committed_of_isSuccess (h : handoffSystem.Reachable handoff) (hanswer : handoff.MayAnswer response)
    (hsuccess : UpdateClient.isSuccess version response = true)
    : version = handoff.version ∧ .sent .commit ∈ handoff.trace := by
  simp only [UpdateClient.isSuccess, Bool.or_eq_true, beq_iff_eq] at hsuccess
  cases hanswer with
  | candidate hanswered =>
    rcases (agrees_reachable h).warranted.of_mem hanswered with ⟨later, before, heq, _, hresponse⟩
    rcases hresponse with rfl | ⟨message, rfl⟩ | ⟨rfl, hcommit⟩
    . simp at hsuccess
    . simp at hsuccess
    . simp only [AttachedUpdateResponse.committed.injEq, reduceCtorEq, or_false] at hsuccess
      refine ⟨hsuccess.symm, ?_⟩
      rw [heq]
      exact List.mem_append_right _ (List.mem_cons_of_mem _ hcommit)
  | previous activeOperation rollback _ =>
    rcases previousServerResponse_cases activeOperation rollback handoff.operationId with
      heq | ⟨message, heq⟩
    . rw [heq] at hsuccess
      simp at hsuccess
    . rw [heq] at hsuccess
      simp at hsuccess

end Handoff

theorem confirmed_update_committed {handoff : Handoff} (h : handoffSystem.Reachable handoff) {now : Nat}
    {secs : UInt16} {attempts : List (Nat × UpdateClient.Attempt)} {installed : ExecutableVersion}
    (hattempts : ∀ entry ∈ attempts, ∀ response, entry.2 = .response response →
      handoff.MayAnswer response)
    (hreported : UpdateClient.requestAttachedUpdate now
      (.restarting handoff.operationId handoff.version secs) attempts = some (.ok installed))
    : installed = handoff.version
        ∧ HandoffEvent.sent .commit ∈ handoff.trace
        ∧ ∀ labels handoff', handoffSystem.Run handoff labels handoff' →
          HandoffEvent.restored ∉ handoff'.trace
            ∧ ∀ record, handoff'.parent ≠ .rolledBack record := by
  have hconfirm := UpdateClient.confirm_of_request hreported
  rcases UpdateClient.exists_success_of_confirm hconfirm with
    ⟨hinstalled, entry, hmem, response, hentry, hsuccess⟩
  have hanswer := hattempts entry hmem response hentry
  have hcommit := (Handoff.committed_of_isSuccess h hanswer hsuccess).2
  refine ⟨hinstalled, hcommit, ?_⟩
  intro labels handoff' hrun
  exact (Handoff.not_rolledBack_of_run h hcommit hrun).2

namespace Fixture

def confirmAttempts (version : ExecutableVersion) : List (Nat × UpdateClient.Attempt) :=
  [(0, .response .waiting), (1, .error "connection lost"), (2, .error "update exchange timed out"),
    (3, .response (.committed version))]

end Fixture

theorem confirmed_update_committed_office
    : ∃ handoff, handoffSystem.Reachable handoff
        ∧ UpdateClient.requestAttachedUpdate 0 (.restarting handoff.operationId handoff.version 30)
          (Fixture.confirmAttempts handoff.version) = some (.ok handoff.version)
        ∧ HandoffEvent.sent .commit ∈ handoff.trace
        ∧ ∀ labels handoff', handoffSystem.Run handoff labels handoff' →
          ∀ record, handoff'.parent ≠ .rolledBack record := by
  have hreachable := Fixture.reachable_handoffAfter Fixture.committedHandoff
  have hreported : UpdateClient.requestAttachedUpdate 0
      (.restarting (Fixture.handoffAfter Fixture.committedHandoff).operationId
        (Fixture.handoffAfter Fixture.committedHandoff).version 30)
      (Fixture.confirmAttempts (Fixture.handoffAfter Fixture.committedHandoff).version)
        = some (.ok (Fixture.handoffAfter Fixture.committedHandoff).version) := by
    decide +kernel
  have hattempts : ∀ entry ∈ Fixture.confirmAttempts
      (Fixture.handoffAfter Fixture.committedHandoff).version,
      ∀ response, entry.2 = .response response →
        (Fixture.handoffAfter Fixture.committedHandoff).MayAnswer response := by
    intro entry hmem response hentry
    simp only [Fixture.confirmAttempts, List.mem_cons, List.not_mem_nil, or_false] at hmem
    rcases hmem with rfl | rfl | rfl | rfl
    . have hactive : previousServerResponse (some (Fixture.operation 1)) none
          (Fixture.handoffAfter Fixture.committedHandoff).operationId = .waiting := by
        decide +kernel
      cases hentry
      rw [← hactive]
      exact .previous _ _ nofun
    . cases hentry
    . cases hentry
    . cases hentry
      exact .candidate (by decide +kernel)
  have hcommitted := confirmed_update_committed hreachable hattempts hreported
  exact ⟨_, hreachable, hreported, hcommitted.2.1,
    fun labels handoff' hrun => (hcommitted.2.2 labels handoff' hrun).2⟩

end Attached
