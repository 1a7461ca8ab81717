import Attached.Library.History
import Attached.Library.Simulation
import Attached.Update.Handoff
import Attached.Update.StartLemmas

/-!
This module contains the agreement of the parties of a handoff: what each of them does is warranted by
what the others did before, whatever the order of their steps.
-/

namespace Attached

namespace ConfirmPhase

def notifies (phase : ConfirmPhase) : Bool :=
  match phase with
  | .announcing => true
  | .waiting notify => notify
  | .replying _ notify => notify
  | .replied notify => notify
  | _ => false

end ConfirmPhase

namespace Handoff

inductive Silent (handoff : Handoff) : ParentPhase → RetainedBinary → Prop
  | unsent {command : ParentCommand} {sent unsent : ParentPhase} :
      nextCommand handoff.parent = some (command, sent, unsent) →
      Silent handoff unsent handoff.binary
  | giveUp {parent : ParentPhase} : onGiveUp handoff.parent = some parent →
      Silent handoff parent handoff.binary
  | reap : handoff.parent = .reaping → handoff.candidate.phase = .exited →
      Silent handoff .restoring handoff.binary
  | lost : handoff.parent = .restoring → Silent handoff .failed .lost
  | commitUpdate : handoff.parent = .committingUpdate → Silent handoff .supervising .removed
  | retired : handoff.parent = .supervising → Silent handoff .retired handoff.binary
  | unsuccessful : handoff.parent = .supervising → Silent handoff .failed handoff.binary

inductive Settles (handoff : Handoff) : CandidateDisposition → List ParentCommand → Prop
  | committed {commands : List ParentCommand} : handoff.commands = .commit :: commands →
      Settles handoff .committed commands
  | aborted (commands : List ParentCommand) : commands ⊆ handoff.commands →
      Settles handoff .aborted commands

inductive Move (handoff : Handoff) : Handoff → Prop
  | sent {command : ParentCommand} {sent unsent : ParentPhase} :
      nextCommand handoff.parent = some (command, sent, unsent) →
      Move handoff { handoff.sendCommand command with parent := sent }
  | silent {parent : ParentPhase} {binary : RetainedBinary} : Silent handoff parent binary →
      Move handoff { handoff with parent, binary }
  | received {event : CandidateEvent} {events : List CandidateEvent} {parent : ParentPhase} :
      handoff.events = event :: events →
      onEvent handoff.version handoff.parent event = some parent →
      Move handoff { handoff.record (.received event) with parent, events }
  | restored (succeeded : Bool) : handoff.parent = .restoring →
      Move handoff { handoff.record .restored with
        parent := if succeeded then .rolledBack (.new handoff.operationId) else .failed
        binary := .restored }
  | killed : handoff.parent = .reaping → Move handoff { handoff.stop with parent := .restoring }
  | dropped : handoff.parent = .supervising → Move handoff { handoff.stop with parent := .failed }
  | exited (commands : List ParentCommand) : commands ⊆ handoff.commands →
      Move handoff { handoff.stop with commands }
  | activated (commands : List ParentCommand) : commands ⊆ handoff.commands →
      handoff.candidate.phase = .prepared →
      Move handoff { handoff with candidate.phase := .starting, commands }
  | settled {disposition : CandidateDisposition} {commands : List ParentCommand} :
      handoff.candidate.phase ≠ .exited →
      handoff.candidate.confirmation.disposition = .pending →
      Settles handoff disposition commands →
      Move handoff { handoff.setDisposition disposition with commands }
  | serving : handoff.candidate.phase = .starting →
      Move handoff ({ handoff with candidate.phase := .serving }.emit
        (.ready handoff.candidate.confirmation.version) true)
  | written {event : CandidateEvent} {queued : List CandidateEvent} :
      handoff.candidate.queued = event :: queued →
      Move handoff
        { handoff with candidate.queued := queued, events := handoff.events ++ [event] }
  | unreachable (reason : String) : handoff.candidate.phase ≠ .exited →
      Move handoff (handoff.emit (.failed reason) true)
  | connected (operationId : UpdateOperationId) (observedVersion : ExecutableVersion) :
      handoff.candidate.phase = .serving →
      Move handoff { handoff with
        candidate.handlers := handoff.candidate.handlers ++ [.arrived operationId observedVersion] }
  | confirmed {index : Nat} {phase phase' : ConfirmPhase} {action : ConfirmAction}
      {handoff' : Handoff} : handoff.candidate.handlers[index]? = some phase →
      handoff.act phase action = some (handoff', phase') →
      Move handoff { handoff' with
        candidate.handlers := handoff'.candidate.handlers.set index phase' }

variable {handoff handoff' : Handoff} {label : HandoffLabel}

theorem ne_exited_of_isActive (h : handoff.isActive = true) : handoff.candidate.phase ≠ .exited := by
  intro hexited
  simp [isActive, hexited] at h

theorem move_of_step (h : handoff.step label = some handoff') : Move handoff handoff' := by
  cases label with
  | send delivered =>
    simp only [step, Option.bind_eq_bind, Option.bind_eq_some_iff] at h
    rcases h with ⟨⟨command, sent, unsent⟩, hcommand, h⟩
    split at h
    . cases h
      exact .sent hcommand
    . cases h
      exact .silent (.unsent hcommand)
  | receive =>
    simp only [step] at h
    split at h
    . cases h
    . next event events hevents =>
      simp only [Option.bind_eq_bind, Option.bind_eq_some_iff] at h
      rcases h with ⟨parent, hparent, h⟩
      cases h
      exact .received hevents hparent
  | giveUp =>
    simp only [step, Option.bind_eq_bind, Option.bind_eq_some_iff] at h
    rcases h with ⟨parent, hparent, h⟩
    cases h
    exact .silent (.giveUp hparent)
  | reap =>
    simp only [step] at h
    split at h
    . next hguard =>
      simp only [Bool.and_eq_true, decide_eq_true_eq] at hguard
      cases h
      exact .silent (.reap hguard.1 hguard.2)
    . cases h
  | kill =>
    simp only [step] at h
    split at h
    . next hguard =>
      simp only [Bool.and_eq_true, decide_eq_true_eq] at hguard
      cases h
      exact .killed hguard.1
    . cases h
  | restore renamed succeeded =>
    simp only [step] at h
    split at h
    . cases h
    . next hparent =>
      rw [ne_eq, not_not] at hparent
      split at h
      . cases h
        exact .silent (.lost hparent)
      . cases h
        exact .restored succeeded hparent
  | commitUpdate =>
    simp only [step] at h
    split at h
    . next hparent =>
      cases h
      exact .silent (.commitUpdate hparent)
    . cases h
  | supervised success =>
    simp only [step] at h
    split at h
    . next hguard =>
      simp only [Bool.and_eq_true, decide_eq_true_eq] at hguard
      cases h
      cases success with
      | true => exact .silent (.retired hguard.1)
      | false => exact .silent (.unsuccessful hguard.1)
    . cases h
  | superviseFailed =>
    simp only [step] at h
    split at h
    . next hguard =>
      simp only [Bool.and_eq_true, decide_eq_true_eq] at hguard
      cases h
      exact .dropped hguard.1
    . cases h
  | activate =>
    simp only [step] at h
    split at h
    . next command commands hphase hcommands =>
      have hsubset : commands ⊆ handoff.commands := by
        rw [hcommands]
        exact List.subset_cons_self _ _
      split at h
      . cases h
        exact .activated commands hsubset hphase
      . cases h
        exact .exited commands hsubset
    . cases h
  | readCommand =>
    simp only [step] at h
    split at h
    . cases h
    . next command commands hcommands =>
      split at h
      . next hguard =>
        simp only [Bool.and_eq_true, decide_eq_true_eq] at hguard
        cases h
        apply Move.settled (ne_exited_of_isActive hguard.1) hguard.2
        split
        . next hcommit =>
          subst hcommit
          exact .committed hcommands
        . apply Settles.aborted
          rw [hcommands]
          exact List.subset_cons_self _ _
      . cases h
  | readFailed =>
    simp only [step] at h
    split at h
    . next hguard =>
      simp only [Bool.and_eq_true, decide_eq_true_eq] at hguard
      cases h
      exact .settled (ne_exited_of_isActive hguard.1) hguard.2
        (.aborted _ (List.Subset.refl _))
    . cases h
  | serve =>
    simp only [step] at h
    split at h
    . next hphase =>
      cases h
      exact .serving hphase
    . cases h
  | write =>
    simp only [step] at h
    split at h
    . cases h
    . next event queued hqueued =>
      cases h
      exact .written hqueued
  | fail reason =>
    simp only [step] at h
    split at h
    . next hactive =>
      cases h
      exact .unreachable reason (ne_exited_of_isActive hactive)
    . cases h
  | exit =>
    simp only [step] at h
    split at h
    . cases h
      exact .exited _ (List.Subset.refl _)
    . cases h
  | connect operationId observedVersion =>
    simp only [step] at h
    split at h
    . next hphase =>
      cases h
      exact .connected operationId observedVersion hphase
    . cases h
  | confirm index action =>
    simp only [step, Option.bind_eq_bind, Option.bind_eq_some_iff] at h
    rcases h with ⟨phase, hphase, ⟨handoff₁, phase'⟩, hact, h⟩
    cases h
    exact .confirmed hphase hact

theorem previousServerResponse_cases (activeOperation : Option UpdateOperationId)
    (rollback : Option RollbackRecord) (operationId : UpdateOperationId)
    : previousServerResponse activeOperation rollback operationId = .waiting
        ∨ ∃ message, previousServerResponse activeOperation rollback operationId = .failed message := by
  unfold previousServerResponse
  split
  . exact Or.inl rfl
  . split
    . split
      . exact Or.inr ⟨_, rfl⟩
      . exact Or.inr ⟨_, rfl⟩
    . exact Or.inr ⟨_, rfl⟩

theorem immediateResponse_cases {candidate : CandidateServer}
    {activeOperation : Option UpdateOperationId} {operationId : UpdateOperationId}
    {observedVersion : ExecutableVersion} {response : AttachedUpdateResponse}
    (h : immediateResponse candidate activeOperation operationId observedVersion = some response)
    : response = .waiting ∨ ∃ message, response = .failed message := by
  simp only [immediateResponse, candidateConfirmationResponse, CandidateConfirmation.response] at h
  split at h
  . split at h
    . cases h
      exact Or.inr ⟨_, rfl⟩
    . cases h
  . cases h
    exact previousServerResponse_cases _ _ _

inductive Acts (handoff : Handoff) : ConfirmPhase → Handoff → ConfirmPhase → Prop
  | refused {operationId : UpdateOperationId} {observedVersion : ExecutableVersion}
      {response : AttachedUpdateResponse} :
      response = .waiting ∨ (∃ message, response = .failed message) →
      Acts handoff (.arrived operationId observedVersion) handoff (.replying response false)
  | sawPending {operationId : UpdateOperationId} {observedVersion : ExecutableVersion} :
      Acts handoff (.arrived operationId observedVersion) handoff .sawPending
  | sawSettled {operationId : UpdateOperationId} {observedVersion : ExecutableVersion} :
      Acts handoff (.arrived operationId observedVersion) handoff (.waiting false)
  | late : Acts handoff .sawPending handoff (.waiting false)
  | first : handoff.candidate.announcedConsumer = false →
      Acts handoff .sawPending { handoff with candidate.announcedConsumer := true } .announcing
  | announced (queued : Bool) :
      Acts handoff .announcing (handoff.emit .consumerConnected queued) (.waiting true)
  | settled {notify : Bool} {response : AttachedUpdateResponse} :
      handoff.candidate.confirmation.response = some response →
      Acts handoff (.waiting notify) handoff
        (.replying response (notify && handoff.candidate.confirmation.disposition == .committed))
  | gone {notify : Bool} (message : String) :
      Acts handoff (.waiting notify) handoff (.replying (.failed message) false)
  | answered {response : AttachedUpdateResponse} {notify : Bool} :
      Acts handoff (.replying response notify) (handoff.record (.answered response))
        (.replied notify)
  | unacknowledged {response : AttachedUpdateResponse} {notify : Bool} :
      Acts handoff (.replying response notify) (handoff.record (.answered response)) .finished
  | succeeded (queued : Bool) :
      Acts handoff (.replied true) (handoff.emit .clientSucceeded queued) .finished
  | quiet : Acts handoff (.replied false) handoff .finished

theorem acts_of_act {phase phase' : ConfirmPhase} {action : ConfirmAction}
    (h : handoff.act phase action = some (handoff', phase')) : Acts handoff phase handoff' phase' := by
  unfold act at h
  dsimp only at h
  split at h
  . split at h
    . next response hresponse =>
      cases h
      exact .refused (immediateResponse_cases hresponse)
    . split at h
      . cases h
        exact .sawPending
      . cases h
        exact .sawSettled
  . split at h
    . cases h
      exact .late
    . next hfirst =>
      cases h
      exact .first (Bool.eq_false_iff.mpr hfirst)
  . cases h
    exact .announced _
  . simp only [Option.bind_eq_bind, Option.bind_eq_some_iff] at h
    rcases h with ⟨response, hresponse, h⟩
    cases h
    exact .settled hresponse
  . split at h
    . cases h
      exact .gone _
    . cases h
  . next acknowledged =>
    cases h
    cases acknowledged with
    | true => exact .answered
    | false => exact .unacknowledged
  . split at h
    . next hnotify =>
      cases h
      subst hnotify
      exact .succeeded _
    . next hnotify =>
      cases h
      rw [Bool.not_eq_true] at hnotify
      subst hnotify
      exact .quiet
  . cases h

def receivedEvents (trace : List HandoffEvent) : List CandidateEvent :=
  trace.filterMap fun event =>
    match event with
    | .received event => some event
    | _ => none

theorem mem_of_mem_receivedEvents {trace : List HandoffEvent} {event : CandidateEvent}
    (h : event ∈ receivedEvents trace) : .received event ∈ trace := by
  rcases List.mem_filterMap.mp h with ⟨other, hother, hreceived⟩
  cases other with
  | received e =>
    rw [← Option.some.inj hreceived]
    exact hother
  | _ => cases hreceived

def Warranted (version : ExecutableVersion) (event : HandoffEvent) (before : List HandoffEvent)
    : Prop :=
  match event with
  | .sent .commit =>
    receivedEvents before = [.consumerConnected, .ready version]
      ∧ .sent .commit ∉ before ∧ .restored ∉ before
  | .answered response =>
    .exited ∉ before
      ∧ (response = .waiting ∨ (∃ message, response = .failed message)
        ∨ (response = .committed version ∧ .sent .commit ∈ before))
  | .emitted event =>
    .exited ∉ before
      ∧ (event = .consumerConnected → .emitted .consumerConnected ∉ before)
      ∧ (event = .clientSucceeded → .emitted .clientSucceeded ∉ before
        ∧ .answered (.committed version) ∈ before)
  | .restored => .exited ∈ before ∧ .sent .commit ∉ before ∧ .restored ∉ before
  | _ => True

def Undecided (trace : List HandoffEvent) : Prop :=
  .sent .commit ∉ trace ∧ .restored ∉ trace

def Progress (operationId : UpdateOperationId) (version : ExecutableVersion)
    (trace : List HandoffEvent) (parent : ParentPhase) : Prop :=
  match parent with
  | .activating => Undecided trace ∧ receivedEvents trace = []
  | .awaitingReady => Undecided trace ∧ receivedEvents trace = []
  | .awaitingConsumer => Undecided trace ∧ receivedEvents trace = [.ready version]
  | .committing => Undecided trace ∧ receivedEvents trace = [.consumerConnected, .ready version]
  | .aborting => Undecided trace
  | .reaping => Undecided trace
  | .restoring => Undecided trace ∧ .exited ∈ trace
  | .awaitingClient => .sent .commit ∈ trace ∧ .restored ∉ trace
  | .committingUpdate => .sent .commit ∈ trace ∧ .restored ∉ trace
  | .supervising => .sent .commit ∈ trace ∧ .restored ∉ trace
  | .retired => .sent .commit ∈ trace ∧ .restored ∉ trace
  | .rolledBack record =>
    record = .new operationId ∧ .sent .commit ∉ trace ∧ .restored ∈ trace ∧ .exited ∈ trace
  | .failed =>
    (.sent .commit ∈ trace ∧ .restored ∉ trace) ∨ (.sent .commit ∉ trace ∧ .exited ∈ trace)

def Informed (confirmation : CandidateConfirmation) (trace : List HandoffEvent) (phase : ConfirmPhase)
    : Prop :=
  match phase with
  | .replying response notify =>
    (response = .waiting ∨ (∃ message, response = .failed message)
        ∨ (response = .committed confirmation.version ∧ confirmation.disposition = .committed))
      ∧ (notify = true → response = .committed confirmation.version)
  | .replied notify => notify = true → .answered (.committed confirmation.version) ∈ trace
  | _ => True

structure Pipes (candidate : CandidateServer) (commands : List ParentCommand)
    (events : List CandidateEvent) (trace : List HandoffEvent) : Prop where
  commands : ∀ command ∈ commands, .sent command ∈ trace
  disposition : candidate.confirmation.disposition = .committed → .sent .commit ∈ trace
  queued : ∀ event ∈ candidate.queued, .emitted event ∈ trace
  events : ∀ event ∈ events, .emitted event ∈ trace
  received : ∀ event, .received event ∈ trace → .emitted event ∈ trace
  ready : ∀ version, .emitted (.ready version) ∈ trace → version = candidate.confirmation.version
  handlers : ∀ phase ∈ candidate.handlers, Informed candidate.confirmation trace phase
  exited : candidate.phase = .exited ↔ .exited ∈ trace
  stopped : candidate.phase = .exited → candidate.handlers = []

structure Announces (candidate : CandidateServer) (trace : List HandoffEvent) : Prop where
  fresh : candidate.announcedConsumer = false →
    candidate.handlers.countP ConfirmPhase.notifies = 0 ∧ .emitted .consumerConnected ∉ trace
      ∧ .emitted .clientSucceeded ∉ trace
  single : candidate.handlers.countP ConfirmPhase.notifies ≤ 1
  announcing : .announcing ∈ candidate.handlers → .emitted .consumerConnected ∉ trace
  succeeded : .emitted .clientSucceeded ∈ trace →
    candidate.handlers.countP ConfirmPhase.notifies = 0

def Kept (binary : RetainedBinary) (trace : List HandoffEvent) : Prop :=
  match binary with
  | .removed => .sent .commit ∈ trace
  | .restored => .restored ∈ trace
  | _ => True

structure Agrees (handoff : Handoff) : Prop where
  progress : Progress handoff.operationId handoff.version handoff.trace handoff.parent
  kept : Kept handoff.binary handoff.trace
  pipes : Pipes handoff.candidate handoff.commands handoff.events handoff.trace
  announces : Announces handoff.candidate handoff.trace
  warranted : History.Warranted (Warranted handoff.version) handoff.trace

section

variable {operationId : UpdateOperationId} {version : ExecutableVersion}
  {candidate : CandidateServer} {confirmation : CandidateConfirmation}
  {commands : List ParentCommand} {events : List CandidateEvent} {trace : List HandoffEvent}
  {event : HandoffEvent} {parent : ParentPhase} {phase phase' : ConfirmPhase} {index : Nat}

theorem Progress.record (h : Progress operationId version trace parent) (hcommit : event ≠ .sent .commit)
    (hrestored : event ≠ .restored) (hreceived : ∀ e, event ≠ .received e)
    : Progress operationId version (event :: trace) parent := by
  have hmem : ∀ other : HandoffEvent, other ≠ event → (other ∈ event :: trace ↔ other ∈ trace) := by
    intro other hother
    simp [hother]
  have hevents : receivedEvents (event :: trace) = receivedEvents trace := by
    cases event with
    | received e => exact absurd rfl (hreceived e)
    | _ => rfl
  have hundecided : Undecided (event :: trace) ↔ Undecided trace := by
    simp only [Undecided, hmem _ hcommit.symm, hmem _ hrestored.symm]
  have hexited : HandoffEvent.exited ∈ trace → HandoffEvent.exited ∈ event :: trace :=
    List.mem_cons_of_mem _
  cases parent with
  | restoring => exact ⟨hundecided.mpr h.1, hexited h.2⟩
  | rolledBack record =>
    refine ⟨h.1, ?_, List.mem_cons_of_mem _ h.2.2.1, hexited h.2.2.2⟩
    rw [hmem _ hcommit.symm]
    exact h.2.1
  | failed =>
    rcases h with h | h
    . refine Or.inl ⟨List.mem_cons_of_mem _ h.1, ?_⟩
      rw [hmem _ hrestored.symm]
      exact h.2
    . refine Or.inr ⟨?_, hexited h.2⟩
      rw [hmem _ hcommit.symm]
      exact h.1
  | _ =>
    simp only [Progress, hundecided, hevents, hmem _ hcommit.symm, hmem _ hrestored.symm] at h ⊢
    exact h

theorem Progress.not_restored (h : Progress operationId version trace parent)
    (hcommit : .sent .commit ∈ trace) : .restored ∉ trace := by
  cases parent with
  | activating => exact h.1.2
  | awaitingReady => exact h.1.2
  | awaitingConsumer => exact h.1.2
  | committing => exact h.1.2
  | aborting => exact h.2
  | reaping => exact h.2
  | restoring => exact h.1.2
  | rolledBack record => exact absurd hcommit h.2.1
  | failed =>
    rcases h with h | h
    . exact h.2
    . exact absurd hcommit h.1
  | _ => exact h.2

theorem Kept.record {binary : RetainedBinary} (h : Kept binary trace) : Kept binary (event :: trace) := by
  cases binary with
  | removed => exact List.mem_cons_of_mem _ h
  | restored => exact List.mem_cons_of_mem _ h
  | _ => trivial

theorem Informed.record (h : Informed confirmation trace phase)
    : Informed confirmation (event :: trace) phase := by
  cases phase with
  | replied notify => exact fun hnotify => List.mem_cons_of_mem _ (h hnotify)
  | _ => exact h

theorem Pipes.record (h : Pipes candidate commands events trace) (hemitted : ∀ e, event ≠ .emitted e)
    (hreceived : ∀ e, event ≠ .received e) (hexited : event ≠ .exited)
    : Pipes candidate commands events (event :: trace) := by
  constructor
  . exact fun command hmem => List.mem_cons_of_mem _ (h.commands command hmem)
  . exact fun hdisposition => List.mem_cons_of_mem _ (h.disposition hdisposition)
  . exact fun e hmem => List.mem_cons_of_mem _ (h.queued e hmem)
  . exact fun e hmem => List.mem_cons_of_mem _ (h.events e hmem)
  . intro e hmem
    rcases List.mem_cons.mp hmem with heq | hmem
    . exact absurd heq.symm (hreceived e)
    . exact List.mem_cons_of_mem _ (h.received e hmem)
  . intro version hmem
    rcases List.mem_cons.mp hmem with heq | hmem
    . exact absurd heq.symm (hemitted _)
    . exact h.ready version hmem
  . exact fun phase hmem => (h.handlers phase hmem).record
  . rw [h.exited, List.mem_cons]
    exact ⟨Or.inr, fun hmem => hmem.resolve_left (Ne.symm hexited)⟩
  . exact h.stopped

theorem Pipes.emit {e : CandidateEvent} (h : Pipes candidate commands events trace)
    (hready : ∀ version, e = .ready version → version = candidate.confirmation.version)
    : Pipes { candidate with queued := candidate.queued ++ [e] } commands events
        (.emitted e :: trace) := by
  constructor
  . exact fun command hmem => List.mem_cons_of_mem _ (h.commands command hmem)
  . exact fun hdisposition => List.mem_cons_of_mem _ (h.disposition hdisposition)
  . intro e' hmem
    rcases List.mem_append.mp hmem with hmem | hmem
    . exact List.mem_cons_of_mem _ (h.queued e' hmem)
    . rw [List.mem_singleton.mp hmem]
      exact List.mem_cons_self
  . exact fun e' hmem => List.mem_cons_of_mem _ (h.events e' hmem)
  . intro e' hmem
    exact List.mem_cons_of_mem _ (h.received e' (by simpa using hmem))
  . intro version hmem
    rcases List.mem_cons.mp hmem with heq | hmem
    . injection heq with heq
      exact hready version heq.symm
    . exact h.ready version hmem
  . exact fun phase hmem => (h.handlers phase hmem).record
  . rw [h.exited]
    simp
  . exact h.stopped

theorem Pipes.set (h : Pipes candidate commands events trace)
    (hinformed : Informed candidate.confirmation trace phase')
    (hphase : candidate.handlers[index]? = some phase)
    : Pipes { candidate with handlers := candidate.handlers.set index phase' } commands events
        trace := by
  refine { h with handlers := ?_, stopped := ?_ }
  . intro phase hmem
    rcases List.mem_or_eq_of_mem_set hmem with hmem | rfl
    . exact h.handlers phase hmem
    . exact hinformed
  . intro hexited
    rw [h.stopped hexited] at hphase
    cases hphase

theorem Announces.record (h : Announces candidate trace)
    (hconsumer : event ≠ .emitted .consumerConnected) (hclient : event ≠ .emitted .clientSucceeded)
    : Announces candidate (event :: trace) := by
  constructor
  . intro hfresh
    rcases h.fresh hfresh with ⟨hcount, hnot, hnot'⟩
    simp only [List.mem_cons, not_or]
    exact ⟨hcount, ⟨hconsumer.symm, hnot⟩, ⟨hclient.symm, hnot'⟩⟩
  . exact h.single
  . intro hmem
    simp only [List.mem_cons, not_or]
    exact ⟨hconsumer.symm, h.announcing hmem⟩
  . intro hmem
    exact h.succeeded ((List.mem_cons.mp hmem).resolve_left hclient.symm)

theorem countP_set_le (hphase : candidate.handlers[index]? = some phase)
    (hnotifies : phase'.notifies = true → phase.notifies = true)
    : (candidate.handlers.set index phase').countP ConfirmPhase.notifies
        ≤ candidate.handlers.countP ConfirmPhase.notifies := by
  rcases List.getElem?_eq_some_iff.mp hphase with ⟨hlt, rfl⟩
  rw [List.countP_set hlt]
  have hpos : candidate.handlers[index].notifies = true →
      0 < candidate.handlers.countP ConfirmPhase.notifies :=
    fun h => List.countP_pos_iff.mpr ⟨_, List.getElem_mem hlt, h⟩
  split
  . next h =>
    have := hpos h
    split <;> omega
  . next h =>
    rw [if_neg (fun h' => h (hnotifies h'))]
    omega

theorem Announces.set (h : Announces candidate trace)
    (hphase : candidate.handlers[index]? = some phase)
    (hnotifies : phase'.notifies = true → phase.notifies = true) (hne : phase' ≠ .announcing)
    : Announces { candidate with handlers := candidate.handlers.set index phase' } trace := by
  have hle := countP_set_le hphase hnotifies
  constructor
  . intro hfresh
    rcases h.fresh hfresh with ⟨hcount, hnot⟩
    exact ⟨by dsimp only; omega, hnot⟩
  . exact hle.trans h.single
  . intro hmem
    rcases List.mem_or_eq_of_mem_set hmem with hmem | heq
    . exact h.announcing hmem
    . exact absurd heq.symm hne
  . intro hmem
    have := h.succeeded hmem
    dsimp only
    omega

theorem Announces.eq_of_notifies (h : Announces candidate trace)
    (hphase : candidate.handlers[index]? = some phase) (hnotifies : phase.notifies = true)
    {other : ConfirmPhase} (hmem : other ∈ candidate.handlers.set index phase')
    (hother : other.notifies = true) : other = phase' := by
  rcases List.getElem?_eq_some_iff.mp hphase with ⟨hlt, rfl⟩
  by_contra hne
  have hcount : (candidate.handlers.set index .finished).countP ConfirmPhase.notifies = 0 := by
    have hpos : 0 < candidate.handlers.countP ConfirmPhase.notifies :=
      List.countP_pos_iff.mpr ⟨_, List.getElem_mem hlt, hnotifies⟩
    have hsingle := h.single
    rw [List.countP_set hlt, if_pos hnotifies]
    simp only [ConfirmPhase.notifies, Bool.false_eq_true, if_false]
    omega
  rcases List.mem_iff_getElem.mp hmem with ⟨i, hi, rfl⟩
  rw [List.getElem_set] at hne hother
  split at hne
  . exact hne rfl
  . next hi' =>
    rw [if_neg hi'] at hother
    rw [List.length_set] at hi
    apply List.countP_eq_zero.mp hcount candidate.handlers[i] _ hother
    rw [List.mem_iff_getElem]
    exact ⟨i, by rw [List.length_set]; exact hi, by rw [List.getElem_set, if_neg hi']⟩

end

section

variable {phase phase' : ConfirmPhase} {index : Nat} {event : HandoffEvent}

theorem Pipes.not_exited {candidate : CandidateServer} {commands : List ParentCommand}
    {events : List CandidateEvent} {trace : List HandoffEvent}
    (h : Pipes candidate commands events trace) (hphase : candidate.handlers[index]? = some phase)
    : .exited ∉ trace := by
  intro hexited
  rw [h.stopped (h.exited.mpr hexited)] at hphase
  cases hphase

theorem Agrees.set (h : Agrees handoff) (hphase : handoff.candidate.handlers[index]? = some phase)
    (hinformed : Informed handoff.candidate.confirmation handoff.trace phase')
    (hnotifies : phase'.notifies = true → phase.notifies = true) (hne : phase' ≠ .announcing)
    : Agrees { handoff with
        candidate.handlers := handoff.candidate.handlers.set index phase' } where
  progress := h.progress
  kept := h.kept
  pipes := h.pipes.set hinformed hphase
  announces := h.announces.set hphase hnotifies hne
  warranted := h.warranted

theorem Agrees.answered {response : AttachedUpdateResponse} (h : Agrees handoff)
    (hexited : .exited ∉ handoff.trace)
    (hresponse : response = .waiting ∨ (∃ message, response = .failed message)
      ∨ (response = .committed handoff.candidate.confirmation.version
        ∧ handoff.candidate.confirmation.disposition = .committed))
    : Agrees (handoff.record (.answered response)) where
  progress := h.progress.record (by simp) (by simp) (by simp)
  kept := h.kept.record
  pipes := h.pipes.record (by simp) (by simp) (by simp)
  announces := h.announces.record (by simp) (by simp)
  warranted := by
    apply h.warranted.cons
    refine ⟨hexited, hresponse.imp_right fun hresponse => hresponse.imp_right ?_⟩
    rintro ⟨rfl, hdisposition⟩
    have hcommit := h.pipes.disposition hdisposition
    refine ⟨congrArg AttachedUpdateResponse.committed ?_, hcommit⟩
    -- The parent committed the version that the candidate reported.
    rcases h.warranted.of_mem hcommit with ⟨later, before, heq, hevents, _⟩
    have hmem : HandoffEvent.received (.ready handoff.version) ∈ handoff.trace := by
      rw [heq]
      apply List.mem_append_right
      apply List.mem_cons_of_mem
      apply mem_of_mem_receivedEvents
      rw [hevents]
      simp
    exact (h.pipes.ready _ (h.pipes.received _ hmem)).symm

theorem agrees_of_acts {handoff₁ : Handoff} (h : Agrees handoff)
    (hphase : handoff.candidate.handlers[index]? = some phase)
    (hacts : Acts handoff phase handoff₁ phase')
    : Agrees { handoff₁ with
        candidate.handlers := handoff₁.candidate.handlers.set index phase' } := by
  have hexited := h.pipes.not_exited hphase
  have hinformed := h.pipes.handlers phase (List.mem_of_getElem? hphase)
  cases hacts with
  | refused hresponse =>
    apply h.set hphase _ (by simp [ConfirmPhase.notifies]) (by simp)
    exact ⟨hresponse.imp_right Or.inl, by simp⟩
  | sawPending => exact h.set hphase trivial (by simp [ConfirmPhase.notifies]) (by simp)
  | sawSettled => exact h.set hphase trivial (by simp [ConfirmPhase.notifies]) (by simp)
  | late => exact h.set hphase trivial (by simp [ConfirmPhase.notifies]) (by simp)
  | first hfresh =>
    rcases h.announces.fresh hfresh with ⟨hcount, hconsumer, hclient⟩
    rcases List.getElem?_eq_some_iff.mp hphase with ⟨hlt, hget⟩
    have hinformed : Informed handoff.candidate.confirmation handoff.trace .announcing := trivial
    have hset := h.pipes.set hinformed hphase
    refine ⟨h.progress, h.kept, { hset with }, ?_, h.warranted⟩
    constructor
    . intro hannounced
      cases hannounced
    . dsimp only
      rw [List.countP_set hlt, hget]
      simp [ConfirmPhase.notifies, hcount]
    . exact fun _ => hconsumer
    . exact fun hmem => absurd hmem hclient
  | announced queued =>
    cases queued with
    | false => exact h.set hphase trivial (fun _ => rfl) (by simp)
    | true =>
      have hmem : ConfirmPhase.announcing ∈ handoff.candidate.handlers := List.mem_of_getElem? hphase
      have hfresh := h.announces.announcing hmem
      have hinformed : Informed handoff.candidate.confirmation
          (.emitted .consumerConnected :: handoff.trace) (.waiting true) := trivial
      have hpipes := (h.pipes.emit (by simp)).set hinformed hphase
      have hnotifies : (ConfirmPhase.waiting true).notifies = true →
          ConfirmPhase.announcing.notifies = true := fun _ => rfl
      have hset := h.announces.set hphase hnotifies (by simp)
      refine ⟨h.progress.record (by simp) (by simp) (by simp), h.kept.record, hpipes, ?_, ?_⟩
      . constructor
        . intro hannounced
          have hcount := (h.announces.fresh hannounced).1
          exact absurd rfl (List.countP_eq_zero.mp hcount _ hmem)
        . exact hset.single
        . intro hother
          cases h.announces.eq_of_notifies hphase rfl hother rfl
        . intro hclient
          exact hset.succeeded (by simpa [emit] using hclient)
      . apply h.warranted.cons
        exact ⟨hexited, fun _ => hfresh, by simp⟩
  | settled hresponse =>
    rename_i notify response
    have hsettled : response = .waiting ∨ (∃ message, response = .failed message)
        ∨ (response = .committed handoff.candidate.confirmation.version
          ∧ handoff.candidate.confirmation.disposition = .committed) := by
      simp only [CandidateConfirmation.response] at hresponse
      split at hresponse
      . cases hresponse
      . next hdisposition =>
        cases hresponse
        exact Or.inr (Or.inr ⟨rfl, hdisposition⟩)
      . cases hresponse
        exact Or.inr (Or.inl ⟨_, rfl⟩)
    apply h.set hphase _ _ (by simp)
    . refine ⟨hsettled, ?_⟩
      intro hnotify
      simp only [Bool.and_eq_true, beq_iff_eq] at hnotify
      simp only [CandidateConfirmation.response, hnotify.2, Option.some.injEq] at hresponse
      exact hresponse.symm
    . simp only [ConfirmPhase.notifies, Bool.and_eq_true]
      exact And.left
  | gone message =>
    apply h.set hphase _ (by simp [ConfirmPhase.notifies]) (by simp)
    exact ⟨Or.inr (Or.inl ⟨message, rfl⟩), by simp⟩
  | answered =>
    rename_i response notify
    have hanswered := h.answered hexited hinformed.1
    apply hanswered.set hphase _ _ (by simp)
    . intro hnotify
      rw [hinformed.2 hnotify]
      exact List.mem_cons_self
    . exact fun hnotify => hnotify
  | unacknowledged =>
    exact (h.answered hexited hinformed.1).set hphase trivial (by simp [ConfirmPhase.notifies]) (by simp)
  | succeeded queued =>
    cases queued with
    | false => exact h.set hphase trivial (by simp [ConfirmPhase.notifies]) (by simp)
    | true =>
      have hmem : ConfirmPhase.replied true ∈ handoff.candidate.handlers := List.mem_of_getElem? hphase
      have hclient : .emitted .clientSucceeded ∉ handoff.trace := by
        intro hemitted
        exact absurd rfl (List.countP_eq_zero.mp (h.announces.succeeded hemitted) _ hmem)
      have hfinal : Informed handoff.candidate.confirmation
          (.emitted .clientSucceeded :: handoff.trace) .finished := trivial
      have hpipes := (h.pipes.emit (by simp)).set hfinal hphase
      have hnotifies : ConfirmPhase.finished.notifies = true →
          (ConfirmPhase.replied true).notifies = true := by simp [ConfirmPhase.notifies]
      have hset := h.announces.set hphase hnotifies (by simp)
      refine ⟨h.progress.record (by simp) (by simp) (by simp), h.kept.record, hpipes, ?_, ?_⟩
      . constructor
        . intro hannounced
          have hcount := (h.announces.fresh hannounced).1
          exact absurd rfl (List.countP_eq_zero.mp hcount _ hmem)
        . exact hset.single
        . intro hother
          simpa [emit] using hset.announcing hother
        . intro _
          rw [List.countP_eq_zero]
          intro other hother hnotifies
          have heq := h.announces.eq_of_notifies hphase rfl hother hnotifies
          rw [heq] at hnotifies
          cases hnotifies
      . apply h.warranted.cons
        refine ⟨hexited, by simp, fun _ => ⟨hclient, ?_⟩⟩
        have hanswered := hinformed rfl
        rcases h.warranted.of_mem hanswered with ⟨_, _, _, _, hresponse⟩
        rcases hresponse with hwaiting | ⟨_, hfailed⟩ | ⟨hcommitted, _⟩
        . cases hwaiting
        . cases hfailed
        . rw [hcommitted] at hanswered
          exact hanswered
  | quiet => exact h.set hphase trivial (by simp [ConfirmPhase.notifies]) (by simp)

end

theorem Agrees.silent {parent : ParentPhase} {binary : RetainedBinary} (h : Agrees handoff)
    (hsilent : Silent handoff parent binary) : Agrees { handoff with parent, binary } := by
  have hprogress := h.progress
  cases hsilent with
  | unsent hcommand =>
    refine { h with progress := ?_ }
    cases hparent : handoff.parent <;> simp only [hparent, nextCommand] at hcommand hprogress
    all_goals cases hcommand
    . exact hprogress.1
    . exact hprogress.1
    . exact hprogress
  | giveUp hgiveUp =>
    refine { h with progress := ?_ }
    cases hparent : handoff.parent <;> simp only [hparent, onGiveUp] at hgiveUp hprogress
    all_goals cases hgiveUp
    . exact hprogress.1
    . exact hprogress.1
    . exact hprogress
  | reap hparent hexited =>
    rw [hparent] at hprogress
    exact { h with progress := ⟨hprogress, h.pipes.exited.mp hexited⟩ }
  | lost hparent =>
    rw [hparent] at hprogress
    exact { h with progress := Or.inr ⟨hprogress.1.1, hprogress.2⟩, kept := trivial }
  | commitUpdate hparent =>
    rw [hparent] at hprogress
    exact { h with progress := hprogress, kept := hprogress.1 }
  | retired hparent =>
    rw [hparent] at hprogress
    exact { h with progress := hprogress }
  | unsuccessful hparent =>
    rw [hparent] at hprogress
    exact { h with progress := Or.inl hprogress }

theorem Agrees.sent {command : ParentCommand} {sent unsent : ParentPhase} (h : Agrees handoff)
    (hcommand : nextCommand handoff.parent = some (command, sent, unsent))
    : Agrees { handoff.sendCommand command with parent := sent } := by
  have hprogress := h.progress
  have hpipes : Pipes handoff.candidate handoff.commands handoff.events
      (.sent command :: handoff.trace) := h.pipes.record (by simp) (by simp) (by simp)
  have hother : command ≠ .commit → ∀ parent,
      Progress handoff.operationId handoff.version handoff.trace parent →
      Progress handoff.operationId handoff.version (.sent command :: handoff.trace) parent := by
    intro hne parent hparent
    exact hparent.record (by simpa using hne) (by simp) (by simp)
  constructor
  . cases hparent : handoff.parent <;> simp only [hparent, nextCommand] at hcommand hprogress
    all_goals cases hcommand
    . exact hother (by simp) .awaitingReady hprogress
    . refine ⟨List.mem_cons_self, ?_⟩
      simpa [sendCommand] using hprogress.1.2
    . exact hother (by simp) .reaping hprogress
  . exact h.kept.record
  . refine { hpipes with commands := ?_ }
    intro command' hmem
    rcases List.mem_append.mp hmem with hmem | hmem
    . exact hpipes.commands command' hmem
    . rw [List.mem_singleton.mp hmem]
      exact List.mem_cons_self
  . exact h.announces.record (by simp) (by simp)
  . apply h.warranted.cons
    cases hparent : handoff.parent <;> simp only [hparent, nextCommand] at hcommand hprogress
    all_goals cases hcommand
    . trivial
    . exact ⟨hprogress.2, hprogress.1⟩
    . trivial

theorem Agrees.received {event : CandidateEvent} {events : List CandidateEvent} {parent : ParentPhase}
    (h : Agrees handoff) (hevents : handoff.events = event :: events)
    (hparent : onEvent handoff.version handoff.parent event = some parent)
    : Agrees { handoff.record (.received event) with parent, events } := by
  have hprogress := h.progress
  have hundecided : Undecided handoff.trace → Undecided (.received event :: handoff.trace) := by
    rintro ⟨hcommit, hrestored⟩
    simp [Undecided, hcommit, hrestored]
  have hemitted : .emitted event ∈ handoff.trace := by
    apply h.pipes.events
    rw [hevents]
    exact List.mem_cons_self
  constructor
  . cases hphase : handoff.parent <;> simp only [hphase, onEvent] at hparent hprogress
    all_goals try cases hparent
    . split at hparent
      . next hready =>
        cases hparent
        subst hready
        refine ⟨hundecided hprogress.1, ?_⟩
        exact congrArg (CandidateEvent.ready handoff.version :: ·) hprogress.2
      . cases hparent
        exact hundecided hprogress.1
    . split at hparent
      . next hconsumer =>
        cases hparent
        subst hconsumer
        refine ⟨hundecided hprogress.1, ?_⟩
        exact congrArg (CandidateEvent.consumerConnected :: ·) hprogress.2
      . cases hparent
        exact hundecided hprogress.1
    . refine ⟨List.mem_cons_of_mem _ hprogress.1, ?_⟩
      simpa [record] using hprogress.2
  . exact h.kept.record
  . constructor
    . exact fun command hmem => List.mem_cons_of_mem _ (h.pipes.commands command hmem)
    . exact fun hdisposition => List.mem_cons_of_mem _ (h.pipes.disposition hdisposition)
    . exact fun e hmem => List.mem_cons_of_mem _ (h.pipes.queued e hmem)
    . intro e hmem
      apply List.mem_cons_of_mem
      apply h.pipes.events
      rw [hevents]
      exact List.mem_cons_of_mem _ hmem
    . intro e hmem
      apply List.mem_cons_of_mem
      rcases List.mem_cons.mp hmem with heq | hmem
      . cases heq
        exact hemitted
      . exact h.pipes.received e hmem
    . intro version hmem
      exact h.pipes.ready version (by simpa [record] using hmem)
    . exact fun phase hmem => (h.pipes.handlers phase hmem).record
    . exact h.pipes.exited.trans (by simp [record])
    . exact h.pipes.stopped
  . exact h.announces.record (by simp) (by simp)
  . exact h.warranted.cons trivial

theorem Agrees.restored (succeeded : Bool) (h : Agrees handoff) (hparent : handoff.parent = .restoring)
    : Agrees { handoff.record .restored with
        parent := if succeeded then .rolledBack (.new handoff.operationId) else .failed
        binary := .restored } := by
  have hprogress := h.progress
  rw [hparent] at hprogress
  rcases hprogress with ⟨⟨hcommit, hrestored⟩, hexited⟩
  have hcommit' : .sent .commit ∉ HandoffEvent.restored :: handoff.trace := by
    simp [hcommit]
  constructor
  . cases succeeded with
    | true =>
      exact ⟨rfl, hcommit', List.mem_cons_self, List.mem_cons_of_mem _ hexited⟩
    | false => exact Or.inr ⟨hcommit', List.mem_cons_of_mem _ hexited⟩
  . exact List.mem_cons_self
  . exact h.pipes.record (by simp) (by simp) (by simp)
  . exact h.announces.record (by simp) (by simp)
  . exact h.warranted.cons ⟨hexited, hcommit, hrestored⟩

theorem Agrees.stop (h : Agrees handoff) : Agrees handoff.stop := by
  constructor
  . exact h.progress.record (by simp) (by simp) (by simp)
  . exact h.kept.record
  . constructor
    . exact fun command hmem => List.mem_cons_of_mem _ (h.pipes.commands command hmem)
    . exact fun hdisposition => List.mem_cons_of_mem _ (h.pipes.disposition hdisposition)
    . intro e hmem
      cases hmem
    . exact fun e hmem => List.mem_cons_of_mem _ (h.pipes.events e hmem)
    . intro e hmem
      exact List.mem_cons_of_mem _ (h.pipes.received e (by simpa [Handoff.stop] using hmem))
    . intro version hmem
      exact h.pipes.ready version (by simpa [Handoff.stop] using hmem)
    . intro phase hmem
      cases hmem
    . exact ⟨fun _ => List.mem_cons_self, fun _ => rfl⟩
    . exact fun _ => rfl
  . constructor
    . intro hfresh
      rcases h.announces.fresh hfresh with ⟨_, hnot⟩
      exact ⟨rfl, by simpa [Handoff.stop] using hnot⟩
    . exact Nat.zero_le 1
    . intro hmem
      cases hmem
    . exact fun _ => rfl
  . exact h.warranted.cons trivial

theorem Agrees.emit {event : CandidateEvent} (h : Agrees handoff)
    (hphase : handoff.candidate.phase ≠ .exited)
    (hready : ∀ version, event = .ready version →
      version = handoff.candidate.confirmation.version)
    (hconsumer : event ≠ .consumerConnected) (hclient : event ≠ .clientSucceeded)
    : Agrees (handoff.emit event true) := by
  constructor
  . exact h.progress.record (by simp) (by simp) (by simp)
  . exact h.kept.record
  . exact h.pipes.emit hready
  . have hannounces : Announces handoff.candidate (.emitted event :: handoff.trace) :=
      h.announces.record (by simpa using hconsumer) (by simpa using hclient)
    exact { hannounces with }
  . apply h.warranted.cons
    refine ⟨?_, fun heq => absurd heq hconsumer, fun heq => absurd heq hclient⟩
    exact fun hexited => hphase (h.pipes.exited.mpr hexited)

theorem agrees_of_move (h : Agrees handoff) (hmove : Move handoff handoff') : Agrees handoff' := by
  cases hmove with
  | sent hcommand => exact h.sent hcommand
  | silent hsilent => exact h.silent hsilent
  | received hevents hparent => exact h.received hevents hparent
  | restored succeeded hparent => exact h.restored succeeded hparent
  | killed hparent =>
    have hstop := h.stop
    refine { hstop with progress := ?_ }
    have hprogress := hstop.progress
    rw [show handoff.stop.parent = .reaping from hparent] at hprogress
    exact ⟨hprogress, List.mem_cons_self⟩
  | dropped hparent =>
    have hstop := h.stop
    refine { hstop with progress := ?_ }
    have hprogress := hstop.progress
    rw [show handoff.stop.parent = .supervising from hparent] at hprogress
    exact Or.inl hprogress
  | exited commands hcommands =>
    have hstop := h.stop
    refine { hstop with pipes := { hstop.pipes with commands := ?_ } }
    exact fun command hmem => hstop.pipes.commands command (hcommands hmem)
  | activated commands hcommands hphase =>
    refine ⟨h.progress, h.kept, { h.pipes with commands := ?_, exited := ?_, stopped := ?_ }, ?_, h.warranted⟩
    . exact fun command hmem => h.pipes.commands command (hcommands hmem)
    . rw [← h.pipes.exited, hphase]
      simp
    . intro hexited
      cases hexited
    . exact { h.announces with }
  | settled hphase hpending hsettles =>
    refine ⟨h.progress, h.kept, ?_, { h.announces with }, h.warranted⟩
    have hhandlers : ∀ disposition, ∀ phase ∈ handoff.candidate.handlers,
        Informed { handoff.candidate.confirmation with disposition } handoff.trace phase := by
      intro disposition phase hmem
      have hinformed := h.pipes.handlers phase hmem
      cases phase with
      | replying response notify =>
        refine ⟨hinformed.1.imp_right fun hresponse => hresponse.imp_right ?_, hinformed.2⟩
        rintro ⟨_, hcommitted⟩
        rw [hpending] at hcommitted
        cases hcommitted
      | _ => exact hinformed
    cases hsettles with
    | committed hcommands =>
      refine { h.pipes with commands := ?_, disposition := ?_, handlers := hhandlers _ }
      . intro command hmem
        apply h.pipes.commands
        rw [hcommands]
        exact List.mem_cons_of_mem _ hmem
      . intro _
        apply h.pipes.commands
        rw [hcommands]
        exact List.mem_cons_self
    | aborted commands hcommands =>
      refine { h.pipes with commands := ?_, disposition := ?_, handlers := hhandlers _ }
      . exact fun command hmem => h.pipes.commands command (hcommands hmem)
      . intro hdisposition
        cases hdisposition
  | serving hphase =>
    apply Agrees.emit
    . refine ⟨h.progress, h.kept, { h.pipes with exited := ?_, stopped := ?_ }, { h.announces with }, h.warranted⟩
      . rw [← h.pipes.exited, hphase]
        simp
      . intro hexited
        cases hexited
    . simp
    . rintro version heq
      cases heq
      rfl
    . simp
    . simp
  | written hqueued =>
    refine ⟨h.progress, h.kept, { h.pipes with queued := ?_, events := ?_ }, { h.announces with }, h.warranted⟩
    . intro e hmem
      apply h.pipes.queued
      rw [hqueued]
      exact List.mem_cons_of_mem _ hmem
    . intro e hmem
      rcases List.mem_append.mp hmem with hmem | hmem
      . exact h.pipes.events e hmem
      . rw [List.mem_singleton.mp hmem]
        apply h.pipes.queued
        rw [hqueued]
        exact List.mem_cons_self
  | unreachable reason hphase => exact h.emit hphase (by simp) (by simp) (by simp)
  | connected operationId observedVersion hphase =>
    have hcount : (handoff.candidate.handlers
        ++ [ConfirmPhase.arrived operationId observedVersion]).countP ConfirmPhase.notifies
          = handoff.candidate.handlers.countP ConfirmPhase.notifies := by
      simp [List.countP_append, ConfirmPhase.notifies]
    refine ⟨h.progress, h.kept, { h.pipes with handlers := ?_, stopped := ?_ }, ?_, h.warranted⟩
    . intro phase hmem
      rcases List.mem_append.mp hmem with hmem | hmem
      . exact h.pipes.handlers phase hmem
      . rw [List.mem_singleton.mp hmem]
        trivial
    . intro hexited
      rw [show handoff.candidate.phase = .serving from hphase] at hexited
      cases hexited
    . constructor
      . rw [hcount]
        exact h.announces.fresh
      . rw [hcount]
        exact h.announces.single
      . intro hmem
        apply h.announces.announcing
        simpa using hmem
      . rw [hcount]
        exact h.announces.succeeded
  | confirmed hphase hact => exact agrees_of_acts h hphase (acts_of_act hact)

theorem agrees_reachable (h : handoffSystem.Reachable handoff) : Agrees handoff := by
  apply h.invariant (P := Agrees)
  . rintro s ⟨hparent, hphase, hoperation, hpending, hannounced, hhandlers, hqueued, hcommands,
      hevents, hbinary, htrace⟩
    constructor
    . rw [hparent, htrace]
      simp [Progress, Undecided, receivedEvents]
    . rw [hbinary]
      trivial
    . constructor
      all_goals simp [hphase, hpending, hhandlers, hqueued, hcommands, hevents, htrace]
    . constructor
      all_goals simp [hhandlers, htrace]
    . rw [htrace]
      trivial
  . intro s t label hs hstep
    exact agrees_of_move hs (move_of_step hstep)

theorem Agrees.not_restoring (h : Agrees handoff) (hcommit : .sent .commit ∈ handoff.trace)
    : handoff.parent ≠ .restoring := by
  intro hparent
  have hprogress := h.progress
  rw [hparent] at hprogress
  exact hprogress.1.1 hcommit

theorem Agrees.not_rolledBack (h : Agrees handoff) (hcommit : .sent .commit ∈ handoff.trace)
    (record : RollbackRecord) : handoff.parent ≠ .rolledBack record := by
  intro hparent
  have hprogress := h.progress
  rw [hparent] at hprogress
  exact hprogress.2.1 hcommit

end Handoff

open Handoff in
theorem handoff_agreement {handoff : Handoff} (h : handoffSystem.Reachable handoff)
    : (∀ later event before, handoff.trace = later ++ event :: before →
          Warranted handoff.version event before)
        ∧ (HandoffEvent.sent .commit ∈ handoff.trace →
          .restored ∉ handoff.trace ∧ ∀ record, handoff.parent ≠ .rolledBack record)
        ∧ (∀ record, handoff.parent = .rolledBack record →
          record = .new handoff.operationId ∧ handoff.candidate.phase = .exited
            ∧ HandoffEvent.restored ∈ handoff.trace)
        ∧ Kept handoff.binary handoff.trace
        ∧ handoff.trace.count (.emitted .consumerConnected) ≤ 1
        ∧ handoff.trace.count (.emitted .clientSucceeded) ≤ 1 := by
  have hagrees := agrees_reachable h
  have hprogress := hagrees.progress
  refine ⟨?_, ?_, ?_, hagrees.kept, ?_, ?_⟩
  . intro later event before heq
    have hwarranted := hagrees.warranted
    rw [heq] at hwarranted
    exact hwarranted.warrants
  . intro hcommit
    exact ⟨hprogress.not_restored hcommit, hagrees.not_rolledBack hcommit⟩
  . intro record hrecord
    rw [hrecord] at hprogress
    exact ⟨hprogress.1, hagrees.pipes.exited.mpr hprogress.2.2.2, hprogress.2.2.1⟩
  . exact hagrees.warranted.count_le_one fun before hevent => hevent.2.1 rfl
  . exact hagrees.warranted.count_le_one fun before hevent => (hevent.2.2 rfl).1

namespace Fixture

def preparedHandoff : Handoff where
  operationId := operation 1
  version := updateVersion 1
  parent := .activating
  candidate := {
    confirmation := ⟨operation 1, updateVersion 1, .pending⟩
    phase := .prepared
    announcedConsumer := false
    handlers := []
    queued := []
  }
  commands := []
  events := []
  binary := .retained
  trace := []

def handoffAfter (labels : List HandoffLabel) : Handoff :=
  labels.foldl (fun handoff label => (handoff.step label).getD handoff) preparedHandoff

def committedHandoff : List HandoffLabel :=
  [.send true, .activate, .serve, .write, .receive, .connect (operation 1) (updateVersion 1),
    .connect (operation 1) (updateVersion 1), .confirm 0 (.look none), .confirm 1 (.look none),
    .confirm 0 .swap, .confirm 1 .swap, .confirm 0 (.announce true), .write, .receive, .send true,
    .readCommand, .confirm 1 .settle, .confirm 1 (.reply true), .confirm 0 .settle,
    .confirm 0 (.reply true), .confirm 0 (.succeed true), .write, .receive, .commitUpdate, .exit,
    .supervised true]

def rolledBackHandoff : List HandoffLabel :=
  [.send true, .activate, .serve, .giveUp, .send true, .readCommand, .kill, .restore true true]

theorem reachable_handoffAfter (labels : List HandoffLabel)
    : handoffSystem.Reachable (handoffAfter labels) := by
  have hrun : ∀ handoff, handoffSystem.Reachable handoff →
      handoffSystem.Reachable
        (labels.foldl (fun handoff label => (handoff.step label).getD handoff) handoff) := by
    induction labels with
    | nil => exact fun _ h => h
    | cons label labels ih =>
      intro handoff h
      apply ih
      dsimp only
      cases hstep : handoff.step label with
      | none => exact h
      | some handoff' => exact h.step hstep
  apply hrun
  apply System.Reachable.of_init
  simp [handoffSystem, preparedHandoff]

end Fixture

theorem handoff_agreement_fixtures
    : (Fixture.handoffAfter Fixture.committedHandoff).parent = .retired
        ∧ HandoffEvent.restored ∉ (Fixture.handoffAfter Fixture.committedHandoff).trace
        ∧ (Fixture.handoffAfter Fixture.rolledBackHandoff).parent
          = .rolledBack (.new (Fixture.operation 1))
        ∧ (Fixture.handoffAfter Fixture.rolledBackHandoff).candidate.phase = .exited := by
  have hcommitted := handoff_agreement (Fixture.reachable_handoffAfter Fixture.committedHandoff)
  have hrolledBack := handoff_agreement (Fixture.reachable_handoffAfter Fixture.rolledBackHandoff)
  have hparent : (Fixture.handoffAfter Fixture.rolledBackHandoff).parent
      = .rolledBack (.new (Fixture.operation 1)) := by
    decide +kernel
  refine ⟨by decide +kernel, (hcommitted.2.1 ?_).1, hparent, (hrolledBack.2.2.1 _ hparent).2.1⟩
  decide +kernel

end Attached
