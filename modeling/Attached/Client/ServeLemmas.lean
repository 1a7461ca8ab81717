import Attached.Client.BrokerLemmas
import Attached.Client.Serve

/-!
This module contains what the steps of the process of a client broker do to its endpoints, to its
handlers and to what it shares with others.
-/

namespace Attached

namespace ClientTransport

open Processes (LockStep)
open ClientBroker (Request Response)

section

variable {A B H : Type} {runtime runtime' : Runtime A B H}

inductive StreamStep (owner : Option (A ⊕ B)) (writes : Response → Prop)
    : Option (Stream A B) → Option (Stream A B) → Prop
  | keep (stream : Option (Stream A B)) : StreamStep owner writes stream stream
  | dial (broker : B) (request : Request) :
      StreamStep owner writes none
        (some { broker, request, accepted := false, response := none })
  | accept (stream : Stream A B) :
      StreamStep owner writes (some stream) (some { stream with accepted := true })
  | respond (stream : Stream A B) (response : Response) (hwrites : writes response)
      (hnone : stream.response = none) :
      StreamStep owner writes (some stream)
        (some { stream with response := some (response, owner) })

theorem StreamStep.imp {owner : Option (A ⊕ B)} {writes writes' : Response → Prop}
    {before after : Option (Stream A B)} (h : StreamStep owner writes before after)
    (himp : ∀ response, writes response → writes' response) : StreamStep owner writes' before after := by
  cases h with
  | keep => exact .keep _
  | dial => exact .dial _ _
  | accept => exact .accept _
  | respond stream response hwrites hnone => exact .respond _ _ (himp _ hwrites) hnone

theorem StreamStep.keeps {owner : Option (A ⊕ B)} {writes : Response → Prop} {stream : Stream A B}
    {after : Option (Stream A B)} (h : StreamStep owner writes (some stream) after)
    : ∃ stream', after = some stream'
        ∧ stream'.broker = stream.broker
        ∧ (stream.accepted = true → stream'.accepted = true)
        ∧ ∀ response, stream.response = some response → stream'.response = some response := by
  cases h with
  | keep => exact ⟨stream, rfl, rfl, id, fun _ => id⟩
  | accept => exact ⟨_, rfl, rfl, fun _ => rfl, fun _ => id⟩
  | respond _ response _ hnone =>
    refine ⟨_, rfl, rfl, id, ?_⟩
    intro response' hsome
    rw [hnone] at hsome
    cases hsome

theorem streamStep_update [DecidableEq H] {owner : Option (A ⊕ B)} (writes : H → Response → Prop)
    {stream : H → Option (Stream A B)} {h : H} {after : Option (Stream A B)}
    (hstep : StreamStep owner (writes h) (stream h) after) (h' : H)
    : StreamStep owner (writes h') (stream h') (Function.update stream h after h') := by
  by_cases hh : h' = h
  . rw [hh, Function.update_self]
    exact hstep
  . rw [Function.update_of_ne hh]
    exact .keep _

theorem dial_eq_some [DecidableEq H] {h : H} {request : Request}
    (hdial : runtime.dial h request = some runtime')
    : ∃ b, runtime.stream h = none
        ∧ runtime' = { runtime with
            stream := Function.update runtime.stream h
              (some { broker := b, request, accepted := false, response := none }) } := by
  unfold Runtime.dial at hdial
  split at hdial
  . next b _ hnone =>
    split at hdial
    . cases hdial
      exact ⟨b, hnone, rfl⟩
    . cases hdial
  . cases hdial

theorem stream_dial [DecidableEq H] {h : H} {request : Request} (owner : Option (A ⊕ B))
    (hdial : runtime.dial h request = some runtime') (h' : H)
    : StreamStep owner (fun _ => False) (runtime.stream h') (runtime'.stream h') := by
  rcases dial_eq_some hdial with ⟨b, hnone, rfl⟩
  refine streamStep_update (fun _ _ => False) ?_ h'
  rw [hnone]
  exact .dial _ _

end

section

variable {A B H : Type} [DecidableEq B] [DecidableEq H] {token : H → Except Failure ClientBroker.Token}
  {b : B} {runtime runtime' : Runtime A B H} {serve serve' : Serve H} {phase phase' : ServePhase}

structure Counted (serve : Serve H) (phase : ServePhase) : Prop where
  slot : ∀ endpoint, serve.handlers.shared.endpoint = some endpoint → endpoint < serve.endpoints
  closingOld : ∀ old, phase = .closingOld old →
    old < serve.endpoints ∧ serve.handlers.shared.endpoint = none
  rebinding : phase = .rebinding → serve.handlers.shared.endpoint = none
  dialing : ∀ h found endpoint, serve.handlers.phase h = .dialing found endpoint →
    endpoint < serve.endpoints
  closed : ∀ endpoint, serve.closed endpoint = true → endpoint < serve.endpoints

def Served (b : B) (runtime : Runtime A B H) (serve : Serve H) : Prop :=
  ∀ h, h ∈ serve.running ∨ serve.handlers.phase h ≠ .accepted →
    ∃ stream, runtime.stream h = some stream ∧ stream.broker = b ∧ stream.accepted = true

structure ServeStep (b : B) (runtime runtime' : Runtime A B H) (serve : Serve H) (phase : ServePhase)
    (serve' : Serve H) (phase' : ServePhase) : Prop where
  running : ∀ h, h ∈ serve'.running ∨ serve'.handlers.phase h ≠ .accepted →
    (h ∈ serve.running ∨ serve.handlers.phase h ≠ .accepted)
      ∨ ∃ stream, runtime'.stream h = some stream ∧ stream.broker = b ∧ stream.accepted = true
  tasks : (∀ h ∈ serve.running, h ∈ serve.tasks) → ∀ h ∈ serve'.running, h ∈ serve'.tasks
  counted : Counted serve phase → Counted serve' phase'
  bound : Served b runtime serve → ∀ endpoint, serve'.Bound phase' endpoint →
    serve.Bound phase endpoint
      ∨ (phase = .rebinding ∧ phase' = .selecting ∧ serve' = serve.bind
        ∧ endpoint = serve.endpoints)

omit [DecidableEq B] [DecidableEq H] in
theorem serveStep_keeps
    (hslot : ∀ endpoint, serve'.handlers.shared.endpoint = some endpoint →
      serve.handlers.shared.endpoint = some endpoint)
    (hdialing : ∀ h found endpoint, serve'.handlers.phase h = .dialing found endpoint →
      serve.handlers.phase h = .dialing found endpoint
        ∨ serve.handlers.shared.endpoint = some endpoint)
    (haccepted : ∀ h, serve'.handlers.phase h ≠ .accepted →
      h ∈ serve.running ∨ serve.handlers.phase h ≠ .accepted)
    (hclosed : serve'.closed = serve.closed) (hendpoints : serve'.endpoints = serve.endpoints)
    (hrunning : ∀ h ∈ serve'.running, h ∈ serve.running)
    (htasks : ∀ h ∈ serve'.running, h ∈ serve.tasks → h ∈ serve'.tasks)
    (hclosing : ∀ old, phase' = .closingOld old → phase = .closingOld old)
    (hrebinding : phase' = .rebinding → phase = .rebinding)
    : ServeStep b runtime runtime' serve phase serve' phase' where
  running := by
    rintro h (hmem | hphase)
    . exact Or.inl (Or.inl (hrunning h hmem))
    . exact Or.inl (haccepted h hphase)
  tasks := by
    intro hall h hmem
    exact htasks h hmem (hall h (hrunning h hmem))
  counted := by
    intro hcounted
    have hnone : serve.handlers.shared.endpoint = none → serve'.handlers.shared.endpoint = none := by
      intro hnone
      rw [Option.eq_none_iff_forall_ne_some]
      intro endpoint hsome
      rw [hslot endpoint hsome] at hnone
      cases hnone
    exact
      { slot := by
          intro endpoint h
          rw [hendpoints]
          exact hcounted.slot endpoint (hslot endpoint h)
        closingOld := by
          intro old h
          rw [hendpoints]
          exact (hcounted.closingOld old (hclosing old h)).imp id hnone
        rebinding := fun h => hnone (hcounted.rebinding (hrebinding h))
        dialing := by
          intro h found endpoint hphase
          rw [hendpoints]
          rcases hdialing h found endpoint hphase with hbefore | hbefore
          . exact hcounted.dialing h found endpoint hbefore
          . exact hcounted.slot endpoint hbefore
        closed := by
          rw [hclosed, hendpoints]
          exact hcounted.closed }
  bound := by
    rintro _ endpoint ⟨hopen, hhandled⟩
    rw [hclosed] at hopen
    refine Or.inl ⟨hopen, ?_⟩
    rcases hhandled with h | h | ⟨h, hmem, found, hphase⟩
    . exact Or.inl (hslot endpoint h)
    . exact Or.inr (Or.inl (hclosing endpoint h))
    . rcases hdialing h found endpoint hphase with hbefore | hbefore
      . exact Or.inr (Or.inr ⟨h, hrunning h hmem, found, hbefore⟩)
      . exact Or.inl hbefore

omit [DecidableEq B] [DecidableEq H] in
theorem serveStep_lists {tasks running : List H} (hrunning : ∀ h ∈ running, h ∈ serve.running)
    (htasks : ∀ h ∈ running, h ∈ serve.tasks → h ∈ tasks)
    (hclosing : ∀ old, phase' = .closingOld old → phase = .closingOld old)
    (hrebinding : phase' = .rebinding → phase = .rebinding)
    : ServeStep b runtime runtime' serve phase { serve with tasks, running } phase' :=
  serveStep_keeps (fun _ h => h) (fun _ _ _ h => Or.inl h) (fun _ h => Or.inr h) rfl rfl hrunning
    htasks hclosing hrebinding

omit [DecidableEq B] in
theorem serveStep_handler {h : H} {action : ClientBroker.Action}
    {handlers : Processes H (ClientBroker.Broker H) (ClientBroker.Phase H)}
    (hmem : h ∈ serve.running)
    (hstep : serve.handlers.step (ClientBroker.act token) h action = some handlers)
    : ServeStep b runtime runtime' serve phase { serve with handlers } phase := by
  rcases Processes.act_of_step hstep with ⟨hact, hothers⟩
  have hendpoint := ClientBroker.endpoint_of_act hact
  refine serveStep_keeps ?_ ?_ ?_ rfl rfl (fun _ h => h) (fun _ _ h => h) (fun _ h => h) id
  . intro endpoint hslot
    rw [← hendpoint]
    exact hslot
  . intro d found endpoint hphase
    by_cases hd : d = h
    . rw [hd] at hphase
      change handlers.phase h = _ at hphase
      rw [hphase] at hact
      exact Or.inr (ClientBroker.dialing_of_act hact).2
    . change handlers.phase d = _ at hphase
      rw [hothers d hd] at hphase
      exact Or.inl hphase
  . intro d hphase
    by_cases hd : d = h
    . rw [hd]
      exact Or.inl hmem
    . change handlers.phase d ≠ _ at hphase
      rw [hothers d hd] at hphase
      exact Or.inr hphase

omit [DecidableEq B] [DecidableEq H] in
theorem serveStep_accept {h : H} {stream : Stream A B} (hstream : runtime.stream h = some stream)
    (hbroker : stream.broker = b) (haccepted : stream.accepted = false)
    (hafter : runtime'.stream h = some { stream with accepted := true })
    : ServeStep b runtime runtime' serve .selecting
        { serve with tasks := h :: serve.tasks, running := h :: serve.running } .selecting where
  running := by
    rintro d (hmem | hphase)
    . rcases List.mem_cons.mp hmem with rfl | hmem
      . exact Or.inr ⟨_, hafter, hbroker, rfl⟩
      . exact Or.inl (Or.inl hmem)
    . exact Or.inl (Or.inr hphase)
  tasks := by
    intro hall d hmem
    rcases List.mem_cons.mp hmem with rfl | hmem
    . exact List.mem_cons_self
    . exact List.mem_cons_of_mem _ (hall d hmem)
  counted hcounted := ⟨hcounted.slot, hcounted.closingOld, hcounted.rebinding, hcounted.dialing,
    hcounted.closed⟩
  bound := by
    rintro hserved endpoint ⟨hopen, hhandled⟩
    refine Or.inl ⟨hopen, ?_⟩
    rcases hhandled with hslot | hclosing | ⟨d, hmem, found, hphase⟩
    . exact Or.inl hslot
    . exact Or.inr (Or.inl hclosing)
    . rcases List.mem_cons.mp hmem with rfl | hmem
      . have hstarted : serve.handlers.phase d ≠ .accepted := by
          change serve.handlers.phase d = _ at hphase
          rw [hphase]
          nofun
        rcases hserved d (Or.inr hstarted) with ⟨stream', hsome, _, htrue⟩
        rw [hstream] at hsome
        cases hsome
        rw [haccepted] at htrue
        cases htrue
      . exact Or.inr (Or.inr ⟨d, hmem, found, hphase⟩)

omit [DecidableEq B] [DecidableEq H] in
theorem serveStep_tick (instant system : Nat)
    : ServeStep b runtime runtime' serve .selecting (serve.tick instant system).1
        (serve.tick instant system).2 := by
  unfold Serve.tick
  split
  . exact serveStep_lists (fun _ h => h) (fun _ _ h => h) nofun nofun
  . dsimp only
    split
    . split
      . next old hold =>
        exact
          { running := fun _ h => Or.inl h
            tasks := fun h => h
            counted := fun hcounted =>
              { slot := nofun
                closingOld := by
                  rintro _ ⟨⟩
                  exact ⟨hcounted.slot old hold, rfl⟩
                rebinding := nofun
                dialing := hcounted.dialing
                closed := hcounted.closed }
            bound := by
              rintro _ endpoint ⟨hopen, hslot | hclosing | hdialing⟩
              . cases hslot
              . cases hclosing
                exact Or.inl ⟨hopen, Or.inl hold⟩
              . exact Or.inl ⟨hopen, Or.inr (Or.inr hdialing)⟩ }
      . next hnone =>
        exact
          { running := fun _ h => Or.inl h
            tasks := fun h => h
            counted := fun hcounted =>
              { slot := nofun
                closingOld := nofun
                rebinding := fun _ => rfl
                dialing := hcounted.dialing
                closed := hcounted.closed }
            bound := by
              rintro _ endpoint ⟨hopen, hslot | hclosing | hdialing⟩
              . cases hslot
              . cases hclosing
              . exact Or.inl ⟨hopen, Or.inr (Or.inr hdialing)⟩ }
    . exact serveStep_keeps (fun _ h => h) (fun _ _ _ h => Or.inl h) (fun _ h => Or.inr h) rfl rfl
        (fun _ h => h) (fun _ _ h => h) nofun nofun

omit [DecidableEq B] [DecidableEq H] in
theorem serveStep_close (old : Nat) (completes : Bool)
    : ServeStep b runtime runtime' serve (.closingOld old) (serve.setClosed old completes) .rebinding := by
  cases completes with
  | false =>
    exact
      { running := fun _ h => Or.inl h
        tasks := fun h => h
        counted := fun hcounted =>
          { slot := hcounted.slot
            closingOld := nofun
            rebinding := fun _ => (hcounted.closingOld old rfl).2
            dialing := hcounted.dialing
            closed := hcounted.closed }
        bound := by
          rintro _ endpoint ⟨hopen, hslot | hclosing | hdialing⟩
          . exact Or.inl ⟨hopen, Or.inl hslot⟩
          . cases hclosing
          . exact Or.inl ⟨hopen, Or.inr (Or.inr hdialing)⟩ }
  | true =>
    have hupdate : ∀ endpoint, Function.update serve.closed old true endpoint = false →
        serve.closed endpoint = false := by
      intro endpoint hopen
      by_cases hold : endpoint = old
      . rw [hold, Function.update_self] at hopen
        cases hopen
      . rwa [Function.update_of_ne hold] at hopen
    exact
      { running := fun _ h => Or.inl h
        tasks := fun h => h
        counted := fun hcounted =>
          { slot := hcounted.slot
            closingOld := nofun
            rebinding := fun _ => (hcounted.closingOld old rfl).2
            dialing := hcounted.dialing
            closed := by
              intro endpoint hclosed
              by_cases hold : endpoint = old
              . rw [hold]
                exact (hcounted.closingOld old rfl).1
              . simp only [Serve.setClosed, if_true, Function.update_of_ne hold] at hclosed
                exact hcounted.closed endpoint hclosed }
        bound := by
          rintro _ endpoint ⟨hopen, hslot | hclosing | hdialing⟩
          . exact Or.inl ⟨hupdate endpoint hopen, Or.inl hslot⟩
          . cases hclosing
          . exact Or.inl ⟨hupdate endpoint hopen, Or.inr (Or.inr hdialing)⟩ }

omit [DecidableEq B] [DecidableEq H] in
theorem serveStep_bind : ServeStep b runtime runtime' serve .rebinding serve.bind .selecting where
  running _ h := Or.inl h
  tasks h := h
  counted hcounted :=
    { slot := by
        rintro _ ⟨⟩
        exact Nat.lt_succ_self _
      closingOld := nofun
      rebinding := nofun
      dialing := fun h found endpoint hphase =>
        Nat.lt_succ_of_lt (hcounted.dialing h found endpoint hphase)
      closed := fun endpoint hclosed => Nat.lt_succ_of_lt (hcounted.closed endpoint hclosed) }
  bound := by
    rintro _ endpoint ⟨hopen, hslot | hclosing | hdialing⟩
    . cases hslot
      exact Or.inr ⟨rfl, rfl, rfl, rfl⟩
    . cases hclosing
    . exact Or.inl ⟨hopen, Or.inr (Or.inr hdialing)⟩

theorem serveStep_of_act {action : BrokerAction H} {phase'' : BrokerPhase H}
    (h : serveAct token b runtime serve phase action = some (runtime', phase''))
    : phase'' = .unlinking
        ∨ ∃ serve' phase', phase'' = .serving serve' phase'
          ∧ ServeStep b runtime runtime' serve phase serve' phase' := by
  unfold serveAct at h
  split at h
  -- the handlers
  . split at h
    . next hallowed =>
      rcases Option.map_eq_some_iff.mp h with ⟨handlers, hstep, hresult⟩
      cases hresult
      exact Or.inr ⟨_, _, rfl, serveStep_handler hallowed.1 hstep⟩
    . cases h
  . cases h
    exact Or.inr ⟨_, _, rfl, serveStep_keeps (fun _ h => h) (fun _ _ _ h => Or.inl h)
      (fun _ h => Or.inr h) rfl rfl (fun _ h => h) (fun _ _ h => h) (fun _ h => h) id⟩
  . split at h
    . rcases Option.map_eq_some_iff.mp h with ⟨response, _, hresult⟩
      cases hresult
      exact Or.inr ⟨_, _, rfl, serveStep_lists (fun _ h => h) (fun _ _ h => h) (fun _ h => h) id⟩
    . cases h
  . split at h
    . dsimp only at h
      split at h <;> cases h
      all_goals
        exact Or.inr ⟨_, _, rfl, serveStep_lists (fun _ h => List.mem_of_mem_filter h)
          (fun _ _ h => h) (fun _ h => h) id⟩
    . cases h
  -- the loop
  . split at h
    . cases h
    . next stream hstream =>
      split at h
      . next hnew =>
        have haccepted : stream.accepted = false := by simpa using hnew.2
        dsimp only at h
        split at h
        . cases h
          exact Or.inr ⟨_, _, rfl,
            serveStep_accept hstream hnew.1 haccepted (Function.update_self _ _ _)⟩
        . cases h
          exact Or.inr ⟨_, _, rfl, serveStep_lists (fun _ h => h) (fun _ _ h => h) nofun nofun⟩
      . cases h
  . cases h
    exact Or.inr ⟨_, _, rfl, serveStep_lists (fun _ h => h) (fun _ _ h => h) nofun nofun⟩
  . split at h
    . next hjoin =>
      cases h
      refine Or.inr ⟨_, _, rfl, serveStep_lists (fun _ h => h) ?_ nofun nofun⟩
      intro d hmem htask
      rw [List.mem_filter]
      refine ⟨htask, decide_eq_true ?_⟩
      rintro rfl
      exact hjoin.2 hmem
    . cases h
  . cases h
    exact Or.inr ⟨_, _, rfl, serveStep_tick _ _⟩
  . cases h
    exact Or.inr ⟨_, _, rfl, serveStep_close _ _⟩
  . split at h
    . cases h
      exact Or.inr ⟨_, _, rfl, serveStep_bind⟩
    . cases h
      exact Or.inr ⟨_, _, rfl, serveStep_keeps nofun (fun _ _ _ h => Or.inl h)
        (fun _ h => Or.inr h) rfl rfl (fun _ h => h) (fun _ _ h => h) nofun nofun⟩
  -- after the loop
  . cases h
    exact Or.inr ⟨_, _, rfl, serveStep_keeps (fun _ h => h) (fun _ _ _ h => Or.inl h)
      (fun _ h => Or.inr h) rfl rfl (fun _ h => h) (fun _ _ h => h) nofun nofun⟩
  . split at h
    . cases h
      refine Or.inr ⟨_, _, rfl, serveStep_lists (fun _ h => List.mem_of_mem_filter h) ?_ nofun nofun⟩
      intro d hmem htask
      rw [List.mem_filter] at hmem ⊢
      exact ⟨htask, hmem.2⟩
    . cases h
  . split at h
    . next hjoin =>
      cases h
      refine Or.inr ⟨_, _, rfl, serveStep_lists (fun _ h => h) ?_ nofun nofun⟩
      intro d hmem htask
      rw [List.mem_filter]
      refine ⟨htask, decide_eq_true ?_⟩
      rintro rfl
      exact hjoin.2 hmem
    . cases h
  . split at h
    . split at h
      . cases h
        exact Or.inr ⟨_, _, rfl, serveStep_lists (fun _ h => h) (fun _ _ h => h) nofun nofun⟩
      . cases h
        exact Or.inl rfl
    . cases h
  . cases h
    exact Or.inl rfl
  . cases h

theorem serveAct_bind {u : Unit} {phase'' : BrokerPhase H}
    (h : serveAct token b runtime serve phase (.bind (.ok u)) = some (runtime', phase''))
    : phase'' = .serving serve.bind .selecting := by
  cases phase <;> cases h
  rfl

theorem bind_of_act {action : BrokerAction H}
    (h : serveAct token b runtime serve .rebinding action
      = some (runtime', .serving serve' .selecting))
    : ∃ u, action = .bind (.ok u) := by
  cases action with
  | bind result =>
    cases result with
    | error e => cases h
    | ok u => exact ⟨u, rfl⟩
  | handler d action =>
    simp only [serveAct] at h
    split at h
    . rcases Option.map_eq_some_iff.mp h with ⟨_, _, hresult⟩
      cases hresult
    . cases h
  | deliver d =>
    simp only [serveAct] at h
    split at h
    . rcases Option.map_eq_some_iff.mp h with ⟨_, _, hresult⟩
      cases hresult
    . cases h
  | finish d written =>
    simp only [serveAct] at h
    split at h
    . split at h <;> cases h
    . cases h
  | _ => cases h

omit [DecidableEq H] in
theorem idle_of_tick {instant system : Nat} (h : (serve.tick instant system).2 = .cancelling)
    : serve.isIdle = true ∧ instant - serve.idleSince ≥ idleTimeout := by
  unfold Serve.tick at h
  split at h
  . next hidle => simpa using hidle
  . dsimp only at h
    split at h
    . split at h <;> cases h
    . cases h

def Serve.Writes (serve : Serve H) (h : H) (response : Response) : Prop :=
  h ∈ serve.running
    ∧ ((serve.handlers.phase h).response serve.handlers.shared = some response
      ∨ ∃ message, response = .error message)

structure ServeRuntime (b : B) (runtime : Runtime A B H) (serve : Serve H) (runtime' : Runtime A B H)
    : Prop where
  startup : runtime'.startup = runtime.startup
  owner : runtime'.owner = runtime.owner
  socket : runtime'.socket = runtime.socket
  parent : runtime'.parent = runtime.parent
  stream : ∀ h, StreamStep runtime.owner (serve.Writes h) (runtime.stream h) (runtime'.stream h)

omit [DecidableEq B] [DecidableEq H] in
theorem serveRuntime_refl : ServeRuntime b runtime serve runtime :=
  ⟨rfl, rfl, rfl, rfl, fun _ => .keep _⟩

omit [DecidableEq H] in
theorem serveRuntime_stopListening : ServeRuntime b runtime serve (runtime.stopListening b) :=
  ⟨rfl, rfl, rfl, rfl, fun _ => .keep _⟩

omit [DecidableEq B] in
theorem serveRuntime_respond {h : H} {response : Response} (hwrites : serve.Writes h response)
    : ServeRuntime b runtime serve (runtime.respond h response) := by
  refine ⟨rfl, rfl, rfl, rfl, streamStep_update _ ?_⟩
  cases hstream : runtime.stream h with
  | none => exact .keep _
  | some stream =>
    cases hresponse : stream.response with
    | none =>
      rw [Option.map_some, hresponse]
      exact .respond stream response hwrites hresponse
    | some before =>
      rw [Option.map_some, hresponse]
      change StreamStep _ _ (some stream) (some { stream with response := some before })
      rw [← hresponse]
      exact .keep _

theorem serveRuntime_of_act {action : BrokerAction H} {phase' : BrokerPhase H}
    (h : serveAct token b runtime serve phase action = some (runtime', phase'))
    : ServeRuntime b runtime serve runtime' := by
  unfold serveAct at h
  split at h
  -- the handlers
  . split at h
    . rcases Option.map_eq_some_iff.mp h with ⟨handlers, _, hresult⟩
      cases hresult
      exact serveRuntime_refl
    . cases h
  . cases h
    exact serveRuntime_refl
  . split at h
    . next hmem =>
      rcases Option.map_eq_some_iff.mp h with ⟨response, hresponse, hresult⟩
      cases hresult
      exact serveRuntime_respond ⟨hmem, Or.inl hresponse⟩
    . cases h
  . split at h
    . next hmem =>
      dsimp only at h
      split at h
      . cases h
        split
        . exact serveRuntime_respond ⟨hmem, Or.inr ⟨_, rfl⟩⟩
        . exact serveRuntime_refl
      . cases h
        exact serveRuntime_refl
      . cases h
    . cases h
  -- the loop
  . next d =>
    split at h
    . cases h
    . next stream hstream =>
      split at h
      . have haccept : ServeRuntime b runtime serve { runtime with
            stream := Function.update runtime.stream d (some { stream with accepted := true }) } := by
          refine ⟨rfl, rfl, rfl, rfl, streamStep_update _ ?_⟩
          rw [hstream]
          exact .accept stream
        dsimp only at h
        split at h <;> cases h <;> exact haccept
      . cases h
  . cases h
    exact serveRuntime_refl
  . split at h <;> cases h
    exact serveRuntime_refl
  . cases h
    exact serveRuntime_refl
  . cases h
    exact serveRuntime_refl
  . split at h <;> cases h <;> exact serveRuntime_refl
  -- after the loop
  . cases h
    exact serveRuntime_refl
  . split at h <;> cases h
    exact serveRuntime_refl
  . split at h <;> cases h
    exact serveRuntime_refl
  . split at h
    . split at h <;> cases h
      . exact serveRuntime_refl
      . exact serveRuntime_stopListening
    . cases h
  . cases h
    exact serveRuntime_stopListening
  . cases h

end

section

variable {A B H : Type} [DecidableEq B] [DecidableEq H] {identity : Vector UInt8 32} {pid : UInt32}
  {token : H → Except Failure ClientBroker.Token} {b : B} {runtime runtime' : Runtime A B H}
  {phase phase' : BrokerPhase H}

structure BrokerStep (identity : Vector UInt8 32) (pid : UInt32) (b : B) (runtime : Runtime A B H)
    (phase : BrokerPhase H) (runtime' : Runtime A B H) (phase' : BrokerPhase H) : Prop where
  startup : runtime'.startup = runtime.startup
  parent : runtime'.parent = runtime.parent
  owner : LockStep (.inr b) runtime.owner phase.holdsOwner runtime'.owner phase'.holdsOwner
  socket : runtime'.socket = runtime.socket
    ∨ (phase.holdsOwner = true ∧ (runtime'.socket = none ∨ runtime'.socket = some b))
  notEnded : phase ≠ .ended
  ends : phase.holdsOwner = true → phase'.holdsOwner = true ∨ phase' = .ended
  stream : ∀ h, StreamStep runtime.owner
    (fun response => ∃ serve servePhase, phase = .serving serve servePhase ∧ serve.Writes h response)
    (runtime.stream h) (runtime'.stream h)
  serving : ∀ serve' servePhase', phase' = .serving serve' servePhase' →
    (phase = .bindingEndpoint
        ∧ servePhase' = .selecting
        ∧ ∃ instant system, serve' = Serve.bindFirst identity pid instant system)
      ∨ ∃ serve servePhase, phase = .serving serve servePhase
        ∧ ServeStep b runtime runtime' serve servePhase serve' servePhase'

omit [DecidableEq B] [DecidableEq H] in
theorem brokerStep_move (hholds : phase'.holdsOwner = phase.holdsOwner) (hended : phase ≠ .ended)
    (hserving : ∀ serve servePhase, phase' ≠ .serving serve servePhase)
    : BrokerStep identity pid b runtime phase runtime phase' where
  startup := rfl
  parent := rfl
  owner := by
    rw [hholds]
    exact .keep _ _
  socket := Or.inl rfl
  notEnded := hended
  ends := by
    intro h
    rw [hholds]
    exact Or.inl h
  stream _ := .keep _
  serving serve servePhase h := absurd h (hserving serve servePhase)

omit [DecidableEq H] in
theorem brokerStep_leave (h : leave b runtime phase = some (runtime', phase'))
    (hended : phase ≠ .ended) : BrokerStep identity pid b runtime phase runtime' phase' := by
  cases h
  exact
    { startup := rfl
      parent := rfl
      owner := by
        cases phase.holdsOwner with
        | true => exact .drop _
        | false => exact .keep _ _
      socket := Or.inl rfl
      notEnded := hended
      ends := fun _ => Or.inr rfl
      stream := fun _ => .keep _
      serving := nofun }

theorem brokerStep_serve {serve : Serve H} {servePhase : ServePhase} {action : BrokerAction H}
    (h : serveAct token b runtime serve servePhase action = some (runtime', phase'))
    : BrokerStep identity pid b runtime (.serving serve servePhase) runtime' phase' := by
  have hruntime := serveRuntime_of_act h
  have hholds : phase'.holdsOwner = true := by
    rcases serveStep_of_act h with rfl | ⟨_, _, rfl, _⟩ <;> rfl
  exact
    { startup := hruntime.startup
      parent := hruntime.parent
      owner := by
        rw [hruntime.owner, hholds]
        exact .keep _ _
      socket := Or.inl hruntime.socket
      notEnded := nofun
      ends := fun _ => Or.inl hholds
      stream := by
        intro d
        exact (hruntime.stream d).imp fun _ hwrites => ⟨_, _, rfl, hwrites⟩
      serving := by
        rintro serve' servePhase' rfl
        rcases serveStep_of_act h with hunlinking | ⟨_, _, hserving, hstep⟩
        . cases hunlinking
        . cases hserving
          exact Or.inr ⟨_, _, rfl, hstep⟩ }

omit [DecidableEq B] [DecidableEq H] in
theorem brokerStep_socket {socket : Option B} {listening : B → Bool}
    (hsocket : socket = none ∨ socket = some b) (hholds : phase.holdsOwner = true)
    (hholds' : phase'.holdsOwner = true) (hended : phase ≠ .ended)
    (hserving : ∀ serve servePhase, phase' ≠ .serving serve servePhase)
    : BrokerStep identity pid b runtime phase { runtime with socket, listening } phase' where
  startup := rfl
  parent := rfl
  owner := by
    rw [hholds, hholds']
    exact .keep _ _
  socket := Or.inr ⟨hholds, hsocket⟩
  notEnded := hended
  ends _ := Or.inl hholds'
  stream _ := .keep _
  serving serve servePhase h := absurd h (hserving serve servePhase)

theorem brokerStep_of_act {action : BrokerAction H}
    (h : brokerAct identity pid token b runtime phase action = some (runtime', phase'))
    : BrokerStep identity pid b runtime phase runtime' phase' := by
  unfold brokerAct at h
  split at h
  . split at h
    . cases h
      exact brokerStep_move rfl nofun nofun
    . cases h
  . split at h
    . cases h
      exact brokerStep_move rfl nofun nofun
    . exact brokerStep_leave h nofun
  -- owner.lock
  . split at h
    . next hnone =>
      cases h
      exact
        { startup := rfl
          parent := rfl
          owner := by
            rw [hnone]
            exact .take
          socket := Or.inl rfl
          notEnded := nofun
          ends := nofun
          stream := fun _ => .keep _
          serving := nofun }
    . exact brokerStep_leave h nofun
  . split at h
    . cases h
      exact brokerStep_move rfl nofun nofun
    . exact brokerStep_leave h nofun
  -- the socket
  . split at h
    . cases h
      exact brokerStep_socket (Or.inl rfl) rfl rfl nofun nofun
    . exact brokerStep_leave h nofun
  . split at h
    . cases h
      exact brokerStep_socket (Or.inr rfl) rfl rfl nofun nofun
    . exact brokerStep_leave h nofun
  . split at h
    . cases h
      exact brokerStep_move rfl nofun nofun
    . exact brokerStep_leave h nofun
  . split at h
    . cases h
      exact
        { startup := rfl
          parent := rfl
          owner := .keep _ _
          socket := Or.inl rfl
          notEnded := nofun
          ends := fun _ => Or.inl rfl
          stream := fun _ => .keep _
          serving := by
            rintro serve servePhase ⟨⟩
            exact Or.inl ⟨rfl, rfl, _, _, rfl⟩ }
    . cases h
      exact
        { startup := rfl
          parent := rfl
          owner := .keep _ _
          socket := Or.inl rfl
          notEnded := nofun
          ends := fun _ => Or.inl rfl
          stream := fun _ => .keep _
          serving := nofun }
  . split at h
    . cases h
      exact brokerStep_socket (Or.inl rfl) rfl rfl nofun nofun
    . cases h
      exact brokerStep_move rfl nofun nofun
  . exact brokerStep_leave h nofun
  -- the process is killed
  . split at h
    . next halive =>
      apply brokerStep_leave h
      rintro rfl
      cases halive
    . cases h
  . exact brokerStep_serve h
  . cases h

theorem serveAct_of_brokerAct {serve : Serve H} {servePhase : ServePhase} {action : BrokerAction H}
    (h : brokerAct identity pid token b runtime (.serving serve servePhase) action
      = some (runtime', phase'))
    : (action = .kill ∧ phase' = .ended)
        ∨ serveAct token b runtime serve servePhase action = some (runtime', phase') := by
  unfold brokerAct at h
  split at h
  case h_11 =>
    cases h
    exact Or.inl ⟨rfl, rfl⟩
  case h_12 hphase hkill =>
    cases hphase
    exact Or.inr h
  case h_13 => cases h
  all_goals
    next hphase => cases hphase

end

end ClientTransport

end Attached
