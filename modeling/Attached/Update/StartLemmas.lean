import Attached.Update.Start

/-!
This module contains when the active operation is remembered: exactly as long as no handler clears
the slot after it gave its permit back and another handler has taken over.
-/

namespace Attached

namespace StartPhase

theorem holdsPermit_of_liveOperation {phase : StartPhase} {id : UpdateOperationId}
    (h : phase.liveOperation = some id) : phase.holdsPermit = true := by
  cases phase with
  | preparing _ => rfl
  | prepared _ _ => rfl
  | announced _ _ => rfl
  | waiting _ _ => rfl
  | _ => simp [liveOperation] at h

theorem liveOperation_of_announcedOperation {phase : StartPhase} {id : UpdateOperationId}
    (h : phase.announcedOperation = some id) : phase.liveOperation = some id := by
  cases phase with
  | announced _ _ => exact h
  | waiting _ _ => exact h
  | _ => simp [announcedOperation] at h

end StartPhase

namespace UpdateResources

variable {resources resources' : UpdateResources} {phase phase' : StartPhase} {action : StartAction}

inductive PermitStep (resources resources' : UpdateResources) (phase phase' : StartPhase) : Prop
  | keep : phase'.holdsPermit = phase.holdsPermit → resources'.permitFree = resources.permitFree →
      PermitStep resources resources' phase phase'
  | take : phase.holdsPermit = false → phase'.holdsPermit = true → resources.permitFree = true →
      resources'.permitFree = false → PermitStep resources resources' phase phase'
  | give : phase.holdsPermit = true → phase'.holdsPermit = false → resources'.permitFree = true →
      PermitStep resources resources' phase phase'

inductive SlotStep (resources resources' : UpdateResources) (phase phase' : StartPhase)
    (action : StartAction) : Prop
  | keep : resources'.activeOperation = resources.activeOperation →
      resources'.issued = resources.issued →
      (∀ id, phase'.liveOperation = some id → phase.liveOperation = some id) →
      SlotStep resources resources' phase phase' action
  | set (id : UpdateOperationId) : phase.holdsPermit = true → id ∉ resources.issued →
      resources'.activeOperation = some id → resources'.issued = id :: resources.issued →
      phase'.liveOperation = some id → SlotStep resources resources' phase phase' action
  | fail : phase.holdsPermit = true → resources'.activeOperation = none →
      resources'.issued = resources.issued → phase'.liveOperation = none →
      SlotStep resources resources' phase phase' action
  | forget (id : UpdateOperationId) (response : AttachedUpdateResponse) :
      phase = .released id response → action = .clear → resources'.activeOperation = none →
      resources'.issued = resources.issued → phase'.liveOperation = none →
      SlotStep resources resources' phase phase' action

theorem SlotStep.issued (h : SlotStep resources resources' phase phase' action)
    {id : UpdateOperationId} (hid : id ∈ resources.issued) : id ∈ resources'.issued := by
  cases h with
  | keep _ hissued _ => rwa [hissued]
  | set _ _ _ _ hissued _ =>
    rw [hissued]
    exact List.mem_cons_of_mem _ hid
  | fail _ _ hissued _ => rwa [hissued]
  | forget _ _ _ _ _ hissued _ => rwa [hissued]

theorem SlotStep.live (h : SlotStep resources resources' phase phase' action)
    {id : UpdateOperationId} (hlive : phase'.liveOperation = some id)
    : phase.liveOperation = some id
        ∨ (id ∉ resources.issued ∧ resources'.activeOperation = some id) := by
  cases h with
  | keep _ _ hkeep => exact Or.inl (hkeep id hlive)
  | set id' _ hfresh hactive _ hset =>
    rw [hset] at hlive
    injection hlive with hlive
    subst hlive
    exact Or.inr ⟨hfresh, hactive⟩
  | fail _ _ _ hnone => simp [hnone] at hlive
  | forget _ _ _ _ _ _ hnone => simp [hnone] at hlive

theorem act_spec (h : resources.act phase action = some (resources', phase'))
    : PermitStep resources resources' phase phase'
        ∧ SlotStep resources resources' phase phase' action
        ∧ resources'.candidate = resources.candidate
        ∧ resources'.rollback = resources.rollback := by
  unfold act at h
  split at h
  . split at h
    . injection h with h
      injection h with h1 h2
      subst h1 h2
      exact ⟨.keep rfl rfl, .keep rfl rfl (by simp [StartPhase.liveOperation]), rfl, rfl⟩
    . simp at h
  . split at h
    . next hguard =>
      simp only [Bool.and_eq_true] at hguard
      injection h with h
      injection h with h1 h2
      subst h1 h2
      exact ⟨.take rfl rfl hguard.2 rfl, .keep rfl rfl (by simp [StartPhase.liveOperation]), rfl,
        rfl⟩
    . simp at h
  . injection h with h
    injection h with h1 h2
    subst h1 h2
    exact ⟨.give rfl rfl rfl, .keep rfl rfl (by simp [StartPhase.liveOperation]), rfl, rfl⟩
  . next id =>
    split at h
    . simp at h
    . next hfresh =>
      injection h with h
      injection h with h1 h2
      subst h1 h2
      exact ⟨.keep rfl rfl, .set id rfl hfresh rfl rfl rfl, rfl, rfl⟩
  . injection h with h
    injection h with h1 h2
    subst h1 h2
    exact ⟨.give rfl rfl rfl, .keep rfl rfl (by simp [StartPhase.liveOperation]), rfl, rfl⟩
  . injection h with h
    injection h with h1 h2
    subst h1 h2
    exact ⟨.give rfl rfl rfl, .keep rfl rfl (by simp [StartPhase.liveOperation]), rfl, rfl⟩
  . split at h
    . simp at h
    . injection h with h
      injection h with h1 h2
      subst h1 h2
      exact ⟨.keep rfl rfl, .keep rfl rfl (by simp [StartPhase.liveOperation]), rfl, rfl⟩
  . next id response =>
    injection h with h
    injection h with h1 h2
    subst h1 h2
    exact ⟨.keep rfl rfl, .forget id response rfl rfl rfl rfl rfl, rfl, rfl⟩
  . injection h with h
    injection h with h1 h2
    subst h1 h2
    exact ⟨.keep rfl rfl, .keep rfl rfl (by simp [StartPhase.liveOperation]), rfl, rfl⟩
  . injection h with h
    injection h with h1 h2
    subst h1 h2
    exact ⟨.keep rfl rfl, .keep rfl rfl (by simp [StartPhase.liveOperation]), rfl, rfl⟩
  . injection h with h
    injection h with h1 h2
    subst h1 h2
    exact ⟨.keep rfl rfl, .keep rfl rfl (by simp [StartPhase.liveOperation]), rfl, rfl⟩
  . injection h with h
    injection h with h1 h2
    subst h1 h2
    exact ⟨.keep rfl rfl, .keep rfl rfl (by simp [StartPhase.liveOperation]), rfl, rfl⟩
  . injection h with h
    injection h with h1 h2
    subst h1 h2
    exact ⟨.keep rfl rfl, .keep rfl rfl (by simp [StartPhase.liveOperation]), rfl, rfl⟩
  . injection h with h
    injection h with h1 h2
    subst h1 h2
    exact ⟨.keep rfl rfl, .fail rfl rfl rfl rfl, rfl, rfl⟩
  . injection h with h
    injection h with h1 h2
    subst h1 h2
    exact ⟨.give rfl rfl rfl, .keep rfl rfl (by simp [StartPhase.liveOperation]), rfl, rfl⟩
  . simp at h

theorem candidateConfirmationResponse_waiting {id : UpdateOperationId}
    {observedVersion : ExecutableVersion}
    (hcandidate : ∀ candidate ∈ resources.candidate, candidate.operationId ≠ id)
    (hactive : resources.activeOperation = some id)
    : resources.confirmationResponse id observedVersion = some .waiting := by
  unfold confirmationResponse candidateConfirmationResponse
  split
  . next candidate heq =>
    simp [hcandidate candidate heq, previousServerResponse, hactive]
  . simp [previousServerResponse, hactive]

end UpdateResources

namespace UpdateServer

variable {server server' : UpdateServer} {event : UpdateServerEvent}

theorem handler_of_set {handlers : List StartPhase} {index i : Nat} {phase' phase : StartPhase}
    (h : (handlers.set index phase')[i]? = some phase)
    : (i = index ∧ phase = phase') ∨ (i ≠ index ∧ handlers[i]? = some phase) := by
  rw [List.getElem?_set] at h
  split at h
  . next heq =>
    split at h
    . injection h with h
      exact Or.inl ⟨heq.symm, h.symm⟩
    . simp at h
  . next hne => exact Or.inr ⟨fun heq => hne heq.symm, h⟩

structure Quiet (server server' : UpdateServer) : Prop where
  permitFree : server'.resources.permitFree = server.resources.permitFree
  activeOperation : server'.resources.activeOperation = server.resources.activeOperation
  issued : server'.resources.issued = server.resources.issued
  candidate : ∀ candidate' ∈ server'.resources.candidate, ∃ candidate ∈ server.resources.candidate,
    candidate.operationId = candidate'.operationId
  handlers : ∀ {i : Nat} {phase : StartPhase}, server'.handlers[i]? = some phase →
    phase = .arrived ∨ server.handlers[i]? = some phase

theorem step_cases (h : server.step event = some server')
    : server.Quiet server'
        ∨ (∃ index action phase phase', event = .handler index action
            ∧ server.handlers[index]? = some phase
            ∧ server.resources.act phase action = some (server'.resources, phase')
            ∧ server'.handlers = server.handlers.set index phase')
        ∨ ((∃ index, event = .rolledBack index)
            ∧ server'.resources.candidate = none
            ∧ ∀ phase ∈ server'.handlers, phase = .finished) := by
  cases event with
  | start =>
    simp only [step] at h
    split at h
    . injection h with h
      subst h
      refine Or.inl ⟨rfl, rfl, rfl, fun candidate' hc => ⟨candidate', hc, rfl⟩, ?_⟩
      intro i phase hi
      simp only [List.getElem?_append] at hi
      split at hi
      . exact Or.inr hi
      . apply Or.inl
        have := List.mem_of_getElem? hi
        simpa using this
    . simp at h
  | handler index action =>
    simp only [step, Option.bind_eq_bind, Option.bind_eq_some_iff, Option.pure_def,
      Option.some.injEq] at h
    rcases h with ⟨phase, hphase, ⟨resources', phase'⟩, hact, h⟩
    subst h
    exact Or.inr (Or.inl ⟨index, action, phase, phase', rfl, hphase, hact, rfl⟩)
  | confirm operationId observedVersion response =>
    simp only [step] at h
    split at h
    . injection h with h
      subst h
      exact Or.inl ⟨rfl, rfl, rfl, fun candidate' hc => ⟨candidate', hc, rfl⟩, Or.inr⟩
    . simp at h
  | dispose disposition =>
    simp only [step, Option.bind_eq_bind, Option.bind_eq_some_iff] at h
    rcases h with ⟨candidate, hcandidate, h⟩
    split at h
    . injection h with h
      subst h
      refine Or.inl ⟨rfl, rfl, rfl, ?_, Or.inr⟩
      intro candidate' hc
      simp only [Option.mem_def, Option.some.injEq] at hc
      subst hc
      exact ⟨candidate, hcandidate, rfl⟩
    . simp at h
  | close =>
    simp only [step, Option.some.injEq] at h
    subst h
    exact Or.inl ⟨rfl, rfl, rfl, fun candidate' hc => ⟨candidate', hc, rfl⟩, Or.inr⟩
  | rolledBack index =>
    simp only [step] at h
    split at h
    . split at h
      . next hguard =>
        injection h with h
        subst h
        simp only [Bool.and_eq_true, List.all_eq_true, beq_iff_eq] at hguard
        exact Or.inr (Or.inr ⟨⟨index, rfl⟩, rfl, hguard.2⟩)
      . simp at h
    . simp at h

structure Exclusive (server : UpdateServer) : Prop where
  unique : ∀ {i j : Nat} {phase phase' : StartPhase}, server.handlers[i]? = some phase →
    server.handlers[j]? = some phase' → phase.holdsPermit = true → phase'.holdsPermit = true → i = j
  taken : ∀ {i : Nat} {phase : StartPhase}, server.handlers[i]? = some phase →
    phase.holdsPermit = true → server.resources.permitFree = false
  candidate : ∀ candidate ∈ server.resources.candidate,
    candidate.operationId ∈ server.resources.issued
  fresh : ∀ candidate ∈ server.resources.candidate, ∀ {i : Nat} {phase : StartPhase}
    {id : UpdateOperationId}, server.handlers[i]? = some phase → phase.liveOperation = some id →
    candidate.operationId ≠ id

structure Remembers (server : UpdateServer) : Prop where
  active : ∀ {i : Nat} {phase : StartPhase} {id : UpdateOperationId},
    server.handlers[i]? = some phase → phase.liveOperation = some id →
    server.resources.activeOperation = some id
  waiting : ∀ {i : Nat} {phase : StartPhase} {id : UpdateOperationId},
    server.handlers[i]? = some phase → phase.announcedOperation = some id →
    ∀ observedVersion, server.resources.confirmationResponse id observedVersion = some .waiting

/-- The step is not one of a handler that clears the slot after its preparation gave the permit back
and another handler has set its operation. -/
def ClearsOwn (server : UpdateServer) (event : UpdateServerEvent) : Prop :=
  ∀ index, event = .handler index .clear →
    ∀ id response, server.handlers[index]? = some (.released id response) →
    ∀ phase ∈ server.handlers, phase.liveOperation = none

def clearsOwn (server : UpdateServer) (event : UpdateServerEvent) : Bool :=
  match event with
  | .handler index .clear =>
    match server.handlers[index]? with
    | some (.released _ _) => server.handlers.all fun phase => phase.liveOperation.isNone
    | _ => true
  | _ => true

theorem clearsOwn_iff : server.clearsOwn event = true ↔ server.ClearsOwn event := by
  unfold clearsOwn ClearsOwn
  split
  . next index =>
    simp only [UpdateServerEvent.handler.injEq, and_true, forall_eq']
    split
    . next id response heq => simp [heq]
    . next hnot =>
      simp only [true_iff]
      intro id response heq
      exact absurd heq (hnot id response)
  . next hnot =>
    simp only [true_iff]
    intro index heq
    exact absurd heq (hnot index)

instance : Decidable (server.ClearsOwn event) :=
  decidable_of_iff _ clearsOwn_iff

theorem exclusive_step (hex : server.Exclusive) (h : server.step event = some server')
    : server'.Exclusive := by
  rcases step_cases h with hquiet | ⟨index, action, phase, phase', rfl, hphase, hact, hset⟩
    | ⟨_, hcandidate, hfinished⟩
  . -- A quiet step leaves the handlers alone, or lets one arrive that holds nothing yet.
    have hold : ∀ {i : Nat} {p : StartPhase}, server'.handlers[i]? = some p →
        p.holdsPermit = true → server.handlers[i]? = some p := by
      intro i p hi hp
      rcases hquiet.handlers hi with rfl | hi
      . simp [StartPhase.holdsPermit] at hp
      . exact hi
    constructor
    . intro i j p q hi hj hp hq
      exact hex.unique (hold hi hp) (hold hj hq) hp hq
    . intro i p hi hp
      rw [hquiet.permitFree]
      exact hex.taken (hold hi hp) hp
    . intro candidate' hc
      rcases hquiet.candidate candidate' hc with ⟨candidate, hmem, heq⟩
      rw [← heq, hquiet.issued]
      exact hex.candidate candidate hmem
    . intro candidate' hc i p id hi hlive
      rcases hquiet.candidate candidate' hc with ⟨candidate, hmem, heq⟩
      rw [← heq]
      exact hex.fresh candidate hmem
        (hold hi (StartPhase.holdsPermit_of_liveOperation hlive)) hlive
  . rcases UpdateResources.act_spec hact with ⟨hpermit, hslot, hcandidate, _⟩
    -- As long as another handler holds the permit this one does not.
    have hother : ∀ {j : Nat} {q : StartPhase}, j ≠ index → server.handlers[j]? = some q →
        q.holdsPermit = true → phase'.holdsPermit = false := by
      intro j q hne hj hq
      have hphase' : phase.holdsPermit = false := by
        rw [Bool.eq_false_iff]
        intro hp
        exact hne (hex.unique hj hphase hq hp)
      cases hpermit with
      | keep hkeep _ => rw [hkeep, hphase']
      | take _ _ hfree _ =>
        rw [hex.taken hj hq] at hfree
        simp at hfree
      | give hholds _ _ =>
        rw [hphase'] at hholds
        simp at hholds
    constructor
    . intro i j p q hi hj hp hq
      rw [hset] at hi hj
      rcases handler_of_set hi with ⟨rfl, rfl⟩ | ⟨hinot, hi'⟩
      . rcases handler_of_set hj with ⟨rfl, rfl⟩ | ⟨hjnot, hj'⟩
        . rfl
        . rw [hother hjnot hj' hq] at hp
          simp at hp
      . rcases handler_of_set hj with ⟨rfl, rfl⟩ | ⟨_, hj'⟩
        . rw [hother hinot hi' hp] at hq
          simp at hq
        . exact hex.unique hi' hj' hp hq
    . intro i p hi hp
      rw [hset] at hi
      rcases handler_of_set hi with ⟨rfl, rfl⟩ | ⟨hinot, hi⟩
      . cases hpermit with
        | keep hkeep hfree =>
          rw [hkeep] at hp
          rw [hfree]
          exact hex.taken hphase hp
        | take _ _ _ htaken => exact htaken
        | give _ hgave _ =>
          rw [hgave] at hp
          simp at hp
      . cases hpermit with
        | keep _ hfree =>
          rw [hfree]
          exact hex.taken hi hp
        | take _ _ _ htaken => exact htaken
        | give hholds _ _ => exact absurd (hex.unique hi hphase hp hholds) hinot
    . intro candidate hc
      rw [hcandidate] at hc
      exact hslot.issued (hex.candidate candidate hc)
    . intro candidate hc i p id hi hlive
      rw [hcandidate] at hc
      rw [hset] at hi
      rcases handler_of_set hi with ⟨rfl, rfl⟩ | ⟨_, hi⟩
      . rcases hslot.live hlive with hlive | ⟨hfresh, _⟩
        . exact hex.fresh candidate hc hphase hlive
        . rintro rfl
          exact hfresh (hex.candidate candidate hc)
      . exact hex.fresh candidate hc hi hlive
  . have hnone : ∀ {i : Nat} {p : StartPhase}, server'.handlers[i]? = some p →
        p = .finished := by
      intro i p hi
      exact hfinished p (List.mem_of_getElem? hi)
    constructor
    . intro i j p q hi hj hp hq
      rw [hnone hi] at hp
      simp [StartPhase.holdsPermit] at hp
    . intro i p hi hp
      rw [hnone hi] at hp
      simp [StartPhase.holdsPermit] at hp
    . simp [hcandidate]
    . simp [hcandidate]

theorem active_step (hex : server.Exclusive) (hown : server.ClearsOwn event)
    (hactive : ∀ {i : Nat} {phase : StartPhase} {id : UpdateOperationId},
      server.handlers[i]? = some phase → phase.liveOperation = some id →
      server.resources.activeOperation = some id)
    (h : server.step event = some server') {i : Nat} {p : StartPhase} {id : UpdateOperationId}
    (hi : server'.handlers[i]? = some p) (hlive : p.liveOperation = some id)
    : server'.resources.activeOperation = some id := by
  rcases step_cases h with hquiet | ⟨index, action, phase, phase', rfl, hphase, hact, hset⟩
    | ⟨_, _, hfinished⟩
  . rcases hquiet.handlers hi with rfl | hi
    . simp [StartPhase.liveOperation] at hlive
    . rw [hquiet.activeOperation]
      exact hactive hi hlive
  . rcases UpdateResources.act_spec hact with ⟨_, hslot, _, _⟩
    rw [hset] at hi
    rcases handler_of_set hi with ⟨rfl, rfl⟩ | ⟨hne, hi'⟩
    . cases hslot with
      | keep hsame _ hkeep =>
        rw [hsame]
        exact hactive hphase (hkeep id hlive)
      | set id' _ _ hactive' _ hset =>
        rw [hset] at hlive
        rw [hactive', hlive]
      | fail _ _ _ hnone => simp [hnone] at hlive
      | forget _ _ _ _ _ _ hnone => simp [hnone] at hlive
    . -- Another handler is live, so this one neither holds the permit nor may it clear the slot.
      have hholds := StartPhase.holdsPermit_of_liveOperation hlive
      cases hslot with
      | keep hsame _ _ =>
        rw [hsame]
        exact hactive hi' hlive
      | set _ hpermit _ _ _ _ => exact absurd (hex.unique hi' hphase hholds hpermit) hne
      | fail hpermit _ _ _ => exact absurd (hex.unique hi' hphase hholds hpermit) hne
      | forget id' response heq hclear _ _ _ =>
        subst heq hclear
        have hnone := hown index rfl id' response hphase p (List.mem_of_getElem? hi')
        simp [hnone] at hlive
  . have := hfinished p (List.mem_of_getElem? hi)
    subst this
    simp [StartPhase.liveOperation] at hlive

theorem remembers_of_active (hex : server.Exclusive)
    (hactive : ∀ {i : Nat} {phase : StartPhase} {id : UpdateOperationId},
      server.handlers[i]? = some phase → phase.liveOperation = some id →
      server.resources.activeOperation = some id)
    : server.Remembers where
  active := hactive
  waiting := by
    intro i phase id hi hannounced observedVersion
    have hlive := StartPhase.liveOperation_of_announcedOperation hannounced
    apply UpdateResources.candidateConfirmationResponse_waiting
    . intro candidate hc
      exact hex.fresh candidate hc hi hlive
    . exact hactive hi hlive

theorem exclusive_of_init (h : updateServer.init server) : server.Exclusive := by
  rcases h with ⟨hhandlers, _, _, hcandidate⟩
  constructor
  . simp [hhandlers]
  . simp [hhandlers]
  . exact hcandidate
  . simp [hhandlers]

end UpdateServer

theorem active_operation_remembered {server : UpdateServer}
    (h : (updateServer.restrict UpdateServer.ClearsOwn).Reachable server) : server.Remembers := by
  have hboth : server.Exclusive ∧ server.Remembers := by
    apply h.invariant
    . intro s hinit
      have hex := UpdateServer.exclusive_of_init hinit
      refine ⟨hex, UpdateServer.remembers_of_active hex ?_⟩
      simp [hinit.1]
    . rintro s t e ⟨hex, hremembers⟩ ⟨hstep, hown⟩
      have hex' := UpdateServer.exclusive_step hex hstep
      refine ⟨hex', UpdateServer.remembers_of_active hex' ?_⟩
      intro i phase id hi hlive
      exact UpdateServer.active_step hex hown hremembers.active hstep hi hlive
  exact hboth.2

namespace Fixture

def updateVersion (patch : UInt32) : ExecutableVersion :=
  ⟨0, 4, patch⟩

def operation (i : UInt8) : UpdateOperationId :=
  ⟨Vector.replicate 16 i⟩

def freshUpdateServer : UpdateServer where
  resources := {
    currentVersion := updateVersion 0
    permitFree := true
    activeOperation := none
    candidate := none
    rollback := none
    issued := []
  }
  handlers := []
  accepting := true

def overtaken : List UpdateServerEvent :=
  [.start, .start, .handler 0 .acquire, .handler 0 (.setOperation (operation 1)),
    .handler 0 .prepareFailed, .handler 1 .acquire, .handler 1 (.setOperation (operation 2)),
    .handler 1 (.prepareHandoff (updateVersion 1)), .handler 1 .announce]

def overtakenServer : UpdateServer where
  resources := {
    currentVersion := updateVersion 0
    permitFree := false
    activeOperation := some (operation 2)
    candidate := none
    rollback := none
    issued := [operation 2, operation 1]
  }
  handlers := [.released (operation 1) (.failed "remote Attached update could not be prepared"),
    .announced (operation 2) (updateVersion 1)]
  accepting := true

def forgetfulServer : UpdateServer where
  resources := { overtakenServer.resources with activeOperation := none }
  handlers := [.replying (.failed "remote Attached update could not be prepared"),
    .announced (operation 2) (updateVersion 1)]
  accepting := true

end Fixture

/--
A handler whose preparation failed may clear the slot of the handler that took its permit over.
-/
theorem active_operation_forgotten
    : ∃ server, updateServer.Reachable server
        ∧ server.handlers[1]? = some (.announced (Fixture.operation 2) (Fixture.updateVersion 1))
        ∧ server.resources.activeOperation = none
        ∧ server.resources.confirmationResponse (Fixture.operation 2) (Fixture.updateVersion 1)
          = some (.failed "unknown Attached update operation")
        ∧ ¬server.Remembers := by
  have hinit : updateServer.init Fixture.freshUpdateServer := by
    simp [updateServer, Fixture.freshUpdateServer]
  have hrun : updateServer.Run Fixture.freshUpdateServer Fixture.overtaken
      Fixture.overtakenServer := by
    apply System.Run.of_replay (f := UpdateServer.step)
    . intro s t e h
      exact h
    . decide +kernel
  have hstep : updateServer.step Fixture.overtakenServer (.handler 0 .clear)
      Fixture.forgetfulServer := by
    rfl
  refine ⟨_, ((System.Reachable.of_init hinit).run hrun).step hstep, rfl, rfl, rfl, ?_⟩
  intro hremembers
  have hactive := hremembers.active (i := 1) rfl rfl
  simp [Fixture.forgetfulServer] at hactive

theorem active_operation_remembered_overtaken : Fixture.overtakenServer.Remembers := by
  have hinit : updateServer.init Fixture.freshUpdateServer := by
    simp [updateServer, Fixture.freshUpdateServer]
  apply active_operation_remembered
  refine ⟨_, Fixture.overtaken, hinit, ?_⟩
  apply System.Run.of_replay
    (f := fun server event => if server.ClearsOwn event then server.step event else none)
  . intro s t e h
    split at h
    . next hown => exact ⟨h, hown⟩
    . simp at h
  . decide +kernel

end Attached
