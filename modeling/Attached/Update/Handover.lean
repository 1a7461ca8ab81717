import Attached.Update.HandoffLemmas

/-!
This module contains what a handoff is for: once and for all, either the candidate takes over or the
previous server does, and clients are told only of the former. The handoff refines this.
-/

namespace Attached

inductive HandoverDecision where
  | undecided
  | committed
  | rolledBack
  deriving DecidableEq

structure Handover where
  version : ExecutableVersion
  decision : HandoverDecision
  reached : Bool
  candidateRuns : Bool
  told : List ExecutableVersion
  deriving DecidableEq

inductive HandoverEvent where
  | reach
  | commit
  | tell
  | stop
  | rollBack
  deriving DecidableEq

namespace Handover

def step (handover : Handover) (event : HandoverEvent) : Option Handover :=
  match event with
  | .reach => if handover.candidateRuns then some { handover with reached := true } else none
  | .commit =>
    if handover.decision = .undecided && handover.reached then
      some { handover with decision := .committed }
    else
      none
  | .tell =>
    if handover.decision = .committed && handover.candidateRuns then
      some { handover with told := handover.version :: handover.told }
    else
      none
  | .stop => some { handover with candidateRuns := false }
  | .rollBack =>
    if handover.decision = .undecided && !handover.candidateRuns then
      some { handover with decision := .rolledBack }
    else
      none

structure Safe (handover : Handover) : Prop where
  reached : handover.decision = .committed → handover.reached = true
  exclusive : handover.decision = .rolledBack → handover.candidateRuns = false
  told : ∀ version ∈ handover.told, version = handover.version ∧ handover.decision = .committed

end Handover

def handoverSystem : System Handover HandoverEvent where
  init handover :=
    handover.decision = .undecided
      ∧ handover.reached = false
      ∧ handover.candidateRuns = true
      ∧ handover.told = []
  step handover event handover' := handover.step event = some handover'

namespace Handover

variable {handover handover' : Handover} {event : HandoverEvent}

theorem safe_step (h : Safe handover) (hstep : handover.step event = some handover')
    : Safe handover' := by
  cases event with
  | reach =>
    simp only [step] at hstep
    split at hstep
    . cases hstep
      exact { h with reached := fun _ => rfl }
    . cases hstep
  | commit =>
    simp only [step] at hstep
    split at hstep
    . next hguard =>
      simp only [Bool.and_eq_true, decide_eq_true_eq] at hguard
      cases hstep
      refine ⟨fun _ => hguard.2, ?_, fun version hmem => ⟨(h.told version hmem).1, rfl⟩⟩
      intro hdecision
      cases hdecision
    . cases hstep
  | tell =>
    simp only [step] at hstep
    split at hstep
    . next hguard =>
      simp only [Bool.and_eq_true, decide_eq_true_eq] at hguard
      cases hstep
      refine { h with told := ?_ }
      intro version hmem
      rcases List.mem_cons.mp hmem with rfl | hmem
      . exact ⟨rfl, hguard.1⟩
      . exact h.told version hmem
    . cases hstep
  | stop =>
    cases hstep
    exact { h with exclusive := fun _ => rfl }
  | rollBack =>
    simp only [step] at hstep
    split at hstep
    . next hguard =>
      simp only [Bool.and_eq_true, decide_eq_true_eq, Bool.not_eq_true'] at hguard
      cases hstep
      refine ⟨?_, fun _ => hguard.2, ?_⟩
      . intro hdecision
        cases hdecision
      . intro version hmem
        have hcommitted := (h.told version hmem).2
        rw [hguard.1] at hcommitted
        cases hcommitted
    . cases hstep

theorem safe_reachable (h : handoverSystem.Reachable handover) : Safe handover := by
  apply h.invariant (P := Safe)
  . rintro s ⟨hdecision, hreached, hruns, htold⟩
    constructor
    all_goals simp [hdecision, htold]
  . intro s t event hs hstep
    exact safe_step hs hstep

theorem decision_step (hstep : handover.step event = some handover')
    (hdecided : handover.decision ≠ .undecided) : handover'.decision = handover.decision := by
  cases event with
  | reach =>
    simp only [step] at hstep
    split at hstep
    . cases hstep
      rfl
    . cases hstep
  | commit => simp [step, hdecided] at hstep
  | tell =>
    simp only [step] at hstep
    split at hstep
    . cases hstep
      rfl
    . cases hstep
  | stop =>
    cases hstep
    rfl
  | rollBack => simp [step, hdecided] at hstep

theorem decision_run {events : List HandoverEvent}
    (hrun : handoverSystem.Run handover events handover')
    (hdecided : handover.decision ≠ .undecided) : handover'.decision = handover.decision := by
  apply hrun.invariant (P := fun other => other.decision = handover.decision) _ rfl
  intro s t event hs hstep
  rw [decision_step hstep (by rw [hs]; exact hdecided), hs]

end Handover

namespace Handoff

def toldVersions (trace : List HandoffEvent) : List ExecutableVersion :=
  trace.filterMap fun event =>
    match event with
    | .answered (.committed version) => some version
    | _ => none

def decision (trace : List HandoffEvent) : HandoverDecision :=
  if .sent .commit ∈ trace then
    .committed
  else if .restored ∈ trace then
    .rolledBack
  else
    .undecided

def handoverOf (version : ExecutableVersion) (trace : List HandoffEvent) : Handover where
  version := version
  decision := decision trace
  reached := trace.contains (.emitted .consumerConnected)
  candidateRuns := !trace.contains .exited
  told := toldVersions trace

def handover (handoff : Handoff) : Handover :=
  handoverOf handoff.version handoff.trace

variable {handoff handoff' : Handoff} {version : ExecutableVersion} {event : HandoffEvent}
  {before : List HandoffEvent}

theorem trace_of_emit {e : CandidateEvent} {queued : Bool}
    : (handoff.emit e queued).version = handoff.version
        ∧ ((handoff.emit e queued).trace = handoff.trace
          ∨ ∃ event, (handoff.emit e queued).trace = event :: handoff.trace) := by
  cases queued with
  | true => exact ⟨rfl, Or.inr ⟨_, rfl⟩⟩
  | false => exact ⟨rfl, Or.inl rfl⟩

theorem trace_of_acts {phase phase' : ConfirmPhase} (h : Acts handoff phase handoff' phase')
    : handoff'.version = handoff.version
        ∧ (handoff'.trace = handoff.trace ∨ ∃ event, handoff'.trace = event :: handoff.trace) := by
  cases h with
  | announced queued => exact trace_of_emit
  | succeeded queued => exact trace_of_emit
  | answered => exact ⟨rfl, Or.inr ⟨_, rfl⟩⟩
  | unacknowledged => exact ⟨rfl, Or.inr ⟨_, rfl⟩⟩
  | _ => exact ⟨rfl, Or.inl rfl⟩

theorem trace_of_move (h : Move handoff handoff')
    : handoff'.version = handoff.version
        ∧ (handoff'.trace = handoff.trace ∨ ∃ event, handoff'.trace = event :: handoff.trace) := by
  cases h with
  | silent _ => exact ⟨rfl, Or.inl rfl⟩
  | activated _ _ _ => exact ⟨rfl, Or.inl rfl⟩
  | settled _ _ _ => exact ⟨rfl, Or.inl rfl⟩
  | written _ => exact ⟨rfl, Or.inl rfl⟩
  | connected _ _ _ => exact ⟨rfl, Or.inl rfl⟩
  | confirmed _ hact =>
    have htrace := trace_of_acts (acts_of_act hact)
    exact htrace
  | _ => exact ⟨rfl, Or.inr ⟨_, rfl⟩⟩

theorem suffix_of_run {labels : List HandoffLabel} (hrun : handoffSystem.Run handoff labels handoff')
    : handoff.trace <:+ handoff'.trace := by
  apply hrun.invariant (P := fun other => handoff.trace <:+ other.trace) _ List.suffix_rfl
  intro s t label hs hstep
  rcases (trace_of_move (move_of_step hstep)).2 with heq | ⟨event, heq⟩
  . rw [heq]
    exact hs
  . rw [heq]
    exact hs.trans (List.suffix_cons _ _)

theorem decision_eq_undecided (hcommit : .sent .commit ∉ before) (hrestored : .restored ∉ before)
    : decision before = .undecided := by
  rw [decision, if_neg hcommit, if_neg hrestored]

theorem decision_eq_committed (hcommit : .sent .commit ∈ before) : decision before = .committed := by
  rw [decision, if_pos hcommit]

theorem decision_cons (hcommit : event ≠ .sent .commit) (hrestored : event ≠ .restored)
    : decision (event :: before) = decision before := by
  simp only [decision, List.mem_cons, hcommit.symm, hrestored.symm, false_or]

theorem toldVersions_cons (h : ∀ version, event ≠ .answered (.committed version))
    : toldVersions (event :: before) = toldVersions before := by
  cases event with
  | answered response =>
    cases response with
    | committed version => exact absurd rfl (h version)
    | _ => rfl
  | _ => rfl

theorem contains_cons {other : HandoffEvent} (h : event ≠ other)
    : (event :: before).contains other = before.contains other := by
  rw [List.contains_cons, beq_eq_false_iff_ne.mpr h.symm, Bool.false_or]

theorem handoverOf_cons (hcommit : event ≠ .sent .commit) (hrestored : event ≠ .restored)
    (hconsumer : event ≠ .emitted .consumerConnected) (hexited : event ≠ .exited)
    (htold : ∀ version, event ≠ .answered (.committed version))
    : handoverOf version (event :: before) = handoverOf version before := by
  simp only [handoverOf, decision_cons hcommit hrestored, contains_cons hconsumer,
    contains_cons hexited, toldVersions_cons htold]

theorem step_handoverOf (hwarranted : Warranted version event before)
    (hreceived : ∀ e, .received e ∈ before → .emitted e ∈ before)
    : handoverOf version (event :: before) = handoverOf version before
        ∨ ∃ e, (handoverOf version before).step e = some (handoverOf version (event :: before)) := by
  cases event with
  | sent command =>
    cases command with
    | commit =>
      rcases hwarranted with ⟨hevents, hcommit, hrestored⟩
      have hreached : HandoffEvent.emitted .consumerConnected ∈ before := by
        apply hreceived
        apply mem_of_mem_receivedEvents
        rw [hevents]
        exact List.mem_cons_self
      refine Or.inr ⟨.commit, ?_⟩
      simp [Handover.step, handoverOf, decision_eq_undecided hcommit hrestored, hreached,
        decision_eq_committed, toldVersions]
    | activate => exact Or.inl (handoverOf_cons (by simp) (by simp) (by simp) (by simp) (by simp))
    | abort => exact Or.inl (handoverOf_cons (by simp) (by simp) (by simp) (by simp) (by simp))
  | received e => exact Or.inl (handoverOf_cons (by simp) (by simp) (by simp) (by simp) (by simp))
  | emitted e =>
    by_cases hconsumer : e = .consumerConnected
    . subst hconsumer
      refine Or.inr ⟨.reach, ?_⟩
      simp [Handover.step, handoverOf, hwarranted.1, decision_cons, toldVersions]
    . exact Or.inl (handoverOf_cons (by simp) (by simp) (by simpa using hconsumer) (by simp) (by simp))
  | answered response =>
    rcases hwarranted with ⟨hexited, rfl | ⟨message, rfl⟩ | ⟨rfl, hcommit⟩⟩
    . exact Or.inl (handoverOf_cons (by simp) (by simp) (by simp) (by simp) (by simp))
    . exact Or.inl (handoverOf_cons (by simp) (by simp) (by simp) (by simp) (by simp))
    . refine Or.inr ⟨.tell, ?_⟩
      simp [Handover.step, handoverOf, decision_eq_committed hcommit, hexited, decision_cons,
        toldVersions]
  | exited =>
    refine Or.inr ⟨.stop, ?_⟩
    simp [Handover.step, handoverOf, decision_cons, toldVersions]
  | restored =>
    rcases hwarranted with ⟨hexited, hcommit, hrestored⟩
    refine Or.inr ⟨.rollBack, ?_⟩
    simp [Handover.step, handoverOf, hexited, decision, hcommit, hrestored, toldVersions]

theorem step_handover (h : handoffSystem.Reachable handoff) {label : HandoffLabel}
    (hstep : handoffSystem.step handoff label handoff')
    : handoff'.handover = handoff.handover
        ∨ ∃ e, handoverSystem.step handoff.handover e handoff'.handover := by
  have hagrees := agrees_reachable h
  have hagrees' := agrees_reachable (h.step hstep)
  rcases trace_of_move (move_of_step hstep) with ⟨hversion, htrace | ⟨event, htrace⟩⟩
  . left
    rw [handover, handover, hversion, htrace]
  . have hwarranted := hagrees'.warranted
    rw [hversion, htrace] at hwarranted
    rw [handover, handover, hversion, htrace]
    exact step_handoverOf hwarranted.1 hagrees.pipes.received

end Handoff

open Handoff in
theorem handoff_refines_handover
    : handoffSystem.Simulation handoverSystem (fun handoff handover => handover = handoff.handover)
        ∧ (∀ handoff label handoff', handoffSystem.Reachable handoff →
          handoffSystem.step handoff label handoff' →
          handoff'.handover = handoff.handover
            ∨ ∃ event, handoverSystem.step handoff.handover event handoff'.handover)
        ∧ (∀ handoff, handoffSystem.Reachable handoff → handoff.handover.Safe)
        ∧ ∀ handoff labels handoff', handoffSystem.Reachable handoff →
          handoffSystem.Run handoff labels handoff' → handoff.handover.decision ≠ .undecided →
          handoff'.handover.decision = handoff.handover.decision := by
  have hsimulation : handoffSystem.Simulation handoverSystem
      fun handoff handover => handover = handoff.handover := by
    constructor
    . rintro s ⟨_, _, _, _, _, _, _, _, _, _, htrace⟩
      refine ⟨s.handover, ?_, rfl⟩
      simp [handoverSystem, handover, handoverOf, htrace, decision, toldVersions]
    . rintro s s' label t hs rfl hstep
      rcases step_handover hs hstep with heq | ⟨event, hstep'⟩
      . exact ⟨[], s.handover, System.Run.nil _, heq.symm⟩
      . exact ⟨[event], s'.handover, System.Run.single hstep', rfl⟩
  refine ⟨hsimulation, fun _ _ _ h hstep => step_handover h hstep, ?_, ?_⟩
  . intro handoff hreachable
    rcases hsimulation.invariant Handover.safe_reachable hreachable with ⟨_, rfl, hsafe⟩
    exact hsafe
  . intro handoff labels handoff' hreachable hrun hdecided
    rcases hsimulation.run hreachable hrun rfl with ⟨events, _, hrun', rfl⟩
    exact Handover.decision_run hrun' hdecided

namespace Handoff

variable {handoff handoff' : Handoff} {trace : List HandoffEvent}

theorem append_of_receivedEvents {e : CandidateEvent} {rest : List CandidateEvent}
    (h : receivedEvents trace = e :: rest)
    : ∃ newer older, trace = newer ++ .received e :: older ∧ receivedEvents older = rest := by
  rcases List.filterMap_eq_cons_iff.mp h with ⟨newer, event, older, rfl, _, hevent, hrest⟩
  cases event with
  | received e' =>
    rw [← Option.some.inj hevent]
    exact ⟨newer, older, rfl, hrest⟩
  | _ => cases hevent

theorem parent_of_restore {renamed succeeded : Bool}
    (hstep : handoff.step (.restore renamed succeeded) = some handoff')
    : handoff.parent = .restoring := by
  by_contra hparent
  simp [step, hparent] at hstep

theorem not_rolledBack_of_run (h : handoffSystem.Reachable handoff)
    (hcommit : .sent .commit ∈ handoff.trace) {labels : List HandoffLabel}
    (hrun : handoffSystem.Run handoff labels handoff')
    : (∀ renamed succeeded, .restore renamed succeeded ∉ labels)
        ∧ .restored ∉ handoff'.trace ∧ ∀ record, handoff'.parent ≠ .rolledBack record := by
  have hagrees := agrees_reachable (h.run hrun)
  have hcommit' := (suffix_of_run hrun).subset hcommit
  refine ⟨?_, hagrees.progress.not_restored hcommit', hagrees.not_rolledBack hcommit'⟩
  intro renamed succeeded hmem
  have hlabels : ∀ label ∈ labels, label ≠ .restore renamed succeeded := by
    refine hrun.forall_label
      (P := fun s => handoffSystem.Reachable s ∧ HandoffEvent.sent .commit ∈ s.trace)
      (Q := fun label => label ≠ .restore renamed succeeded) ?_ ?_ ⟨h, hcommit⟩
    . rintro s t label ⟨hs, hsent⟩ hstep
      exact ⟨hs.step hstep, (suffix_of_run (.single hstep)).subset hsent⟩
    . rintro s t label ⟨hs, hsent⟩ hstep rfl
      exact (agrees_reachable hs).not_restoring hsent (parent_of_restore hstep)
  exact hlabels _ hmem rfl

end Handoff

open Handoff in
theorem commit_excludes_rollback {handoff : Handoff} (h : handoffSystem.Reachable handoff)
    : (∀ (later before : List HandoffEvent) (version : ExecutableVersion),
          handoff.trace = later ++ .answered (.committed version) :: before →
          version = handoff.version ∧ .sent .commit ∈ before)
        ∧ (∀ later before : List HandoffEvent, handoff.trace = later ++ .sent .commit :: before →
          ∃ newer older oldest : List HandoffEvent, before = newer ++ .received .consumerConnected
            :: (older ++ .received (.ready handoff.version) :: oldest))
        ∧ (HandoffEvent.sent .commit ∈ handoff.trace →
          ∀ labels handoff', handoffSystem.Run handoff labels handoff' →
            (∀ renamed succeeded, .restore renamed succeeded ∉ labels)
              ∧ .restored ∉ handoff'.trace ∧ ∀ record, handoff'.parent ≠ .rolledBack record)
        ∧ (∀ record, handoff.parent = .rolledBack record →
          record = .new handoff.operationId ∧ HandoffEvent.sent .commit ∉ handoff.trace
            ∧ ∃ newer older oldest : List HandoffEvent, handoff.trace = newer ++ .restored
              :: (older ++ .exited :: oldest))
        ∧ handoff.trace.count (.emitted .consumerConnected) ≤ 1
        ∧ handoff.trace.count (.emitted .clientSucceeded) ≤ 1 := by
  have hagrees := agrees_reachable h
  have hwarranted {later before : List HandoffEvent} {event : HandoffEvent}
      (heq : handoff.trace = later ++ event :: before) : Warranted handoff.version event before := by
    have hhistory := hagrees.warranted
    rw [heq] at hhistory
    exact hhistory.warrants
  refine ⟨?_, ?_, ?_, ?_, ?_, ?_⟩
  . intro later before version heq
    rcases (hwarranted heq).2 with hwaiting | ⟨_, hfailed⟩ | ⟨hcommitted, hcommit⟩
    . cases hwaiting
    . cases hfailed
    . injection hcommitted with hversion
      exact ⟨hversion, hcommit⟩
  . intro later before heq
    rcases append_of_receivedEvents (hwarranted heq).1 with ⟨newer, rest, rfl, hready⟩
    rcases append_of_receivedEvents hready with ⟨older, oldest, rfl, _⟩
    exact ⟨newer, older, oldest, rfl⟩
  . intro hcommit labels handoff' hrun
    exact not_rolledBack_of_run h hcommit hrun
  . intro record hrecord
    have hprogress := hagrees.progress
    rw [hrecord] at hprogress
    rcases hprogress with ⟨hoperation, hcommit, hrestored, _⟩
    rcases List.append_of_mem hrestored with ⟨newer, before, heq⟩
    rcases List.append_of_mem (hwarranted heq).1 with ⟨older, oldest, rfl⟩
    exact ⟨hoperation, hcommit, newer, older, oldest, heq⟩
  . exact hagrees.warranted.count_le_one fun before hevent => hevent.2.1 rfl
  . exact hagrees.warranted.count_le_one fun before hevent => (hevent.2.2 rfl).1

theorem commit_excludes_rollback_fixtures
    : (∃ newer older oldest : List HandoffEvent,
          (Fixture.handoffAfter (Fixture.committedHandoff.take 15)).trace = .sent .commit
            :: (newer ++ .received .consumerConnected
              :: (older ++ .received (.ready (Fixture.updateVersion 1)) :: oldest)))
        ∧ (∀ labels handoff', handoffSystem.Run
            (Fixture.handoffAfter (Fixture.committedHandoff.take 15)) labels handoff' →
          ∀ renamed succeeded, .restore renamed succeeded ∉ labels)
        ∧ ∃ newer older oldest : List HandoffEvent,
          (Fixture.handoffAfter Fixture.rolledBackHandoff).trace = newer ++ .restored
            :: (older ++ .exited :: oldest) := by
  have hcommitted := commit_excludes_rollback
    (Fixture.reachable_handoffAfter (Fixture.committedHandoff.take 15))
  have hrolledBack := commit_excludes_rollback
    (Fixture.reachable_handoffAfter Fixture.rolledBackHandoff)
  have hhead : (Fixture.handoffAfter (Fixture.committedHandoff.take 15)).trace.head?
      = some (.sent .commit) := by
    decide +kernel
  have hversion : (Fixture.handoffAfter (Fixture.committedHandoff.take 15)).version
      = Fixture.updateVersion 1 := by
    decide +kernel
  have hparent : (Fixture.handoffAfter Fixture.rolledBackHandoff).parent
      = .rolledBack (.new (Fixture.operation 1)) := by
    decide +kernel
  refine ⟨?_, ?_, (hrolledBack.2.2.2.1 _ hparent).2.2⟩
  . generalize Fixture.handoffAfter (Fixture.committedHandoff.take 15) = handoff
      at hcommitted hhead hversion ⊢
    rcases List.head?_eq_some_iff.mp hhead with ⟨before, heq⟩
    rcases hcommitted.2.1 [] before heq with ⟨newer, older, oldest, hbefore⟩
    refine ⟨newer, older, oldest, ?_⟩
    rw [heq, hbefore, hversion]
  . generalize Fixture.handoffAfter (Fixture.committedHandoff.take 15) = handoff
      at hcommitted hhead ⊢
    intro labels handoff' hrun
    exact (hcommitted.2.2.1 (List.mem_of_mem_head? hhead) labels handoff' hrun).1

end Attached
