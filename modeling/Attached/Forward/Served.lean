import Attached.Forward.ClientLemmas
import Attached.Update.FramesLemmas

/-!
This module contains the proof that the streams of a client are served only on a connection that proved
the capability of the publisher and asked for their port, and how many of them are served at once.
-/

namespace Attached

open Forward ForwardClient Frames

variable {port port' : UInt16} {connection connection' : ForwardConnection}

namespace ForwardConnection

def Proven (port : UInt16) (connection : ForwardConnection) : Prop :=
  connection.port = some port
    ∧ ∃ request, connection.request = some request
        ∧ (writeTcpForwardRequest connection.capability port).run [] = (.ok (), request)

structure Sound (port : UInt16) (connection : ForwardConnection) : Prop where
  request : ∀ bytes, connection.request = some bytes →
    ∃ capability, (writeTcpForwardRequest capability port).run [] = (.ok (), bytes)
  port : connection.port.isSome = true → connection.Proven port
  reply : connection.reply.isSome = true → connection.port.isSome = true
  serving : connection.phase = .serving → connection.port.isSome = true
  tasks : connection.tasks ≠ [] → connection.phase = .serving
  limit : connection.tasks.length ≤ maxStreams

theorem sound_dialed (port : UInt16) (capability : Vector UInt8 32) : (dialed capability).Sound port where
  request := fun _ h => nomatch h
  port := fun h => nomatch h
  reply := fun h => nomatch h
  serving := fun h => nomatch h
  tasks := fun h => absurd rfl h
  limit := Nat.zero_le _

theorem proven_of_read {capability : Vector UInt8 32} {request rest : List UInt8}
    (hwrite : (writeTcpForwardRequest capability port).run [] = (.ok (), request))
    (hread : (readTcpForwardRequest connection.capability : Reader String _).run request
      = .ok (port', rest))
    : port' = port
        ∧ (writeTcpForwardRequest connection.capability port).run [] = (.ok (), request) := by
  rcases run_writeTcpForwardRequest_eq_ok_iff.mp hwrite with ⟨hport, rfl⟩
  have hread' := hread
  rw [run_readTcpForwardRequest] at hread'
  have hcapability : capability = connection.capability := by
    rw [← Vector.toList_inj]
    exact (List.append_inj hread'.2.1 (by simp)).1
  subst hcapability
  have hport' := run_readTcpForwardRequest.mpr
    (⟨hport, rfl, rfl⟩ : _ ∧ connection.capability.toList ++ Bytes.toBeBytes 2 port.toNat = _ ∧ _)
  rw [hread, Except.ok.injEq, Prod.mk.injEq] at hport'
  exact ⟨hport'.1, hwrite⟩

end ForwardConnection

namespace ForwardClient

variable {Ticket : Type} {iroh : Iroh Ticket} {client client' : ForwardClient} {label : ClientLabel}
  {i j c d : Nat} {phase phase' : CallPhase} {call call' : ForwardCall}
  {stream stream' : ForwardedStream} {action : StreamAction}

def Committed (client : ForwardClient) (c : Nat) : Prop :=
  ∃ connection, client.connections[c]? = some connection ∧ connection.Proven client.port

def ServedOn (client : ForwardClient) (i c : Nat) : Prop :=
  ∃ connection, client.connections[c]? = some connection ∧ i ∈ connection.tasks

def Fresh (client : ForwardClient) (c : Nat) : Prop :=
  ∀ connection, client.connections[c]? = some connection → connection.request = none

structure StreamServed (client : ForwardClient) (i : Nat) (stream : ForwardedStream) : Prop where
  port : stream.port = client.port
  reachable : streamSystem.Reachable stream
  accepted : stream.server.phase ≠ .waiting →
    ∃ c, client.phaseOf? i = some (.connected c)
      ∧ (stream.server.phase.over = false → client.ServedOn i c)
  live : stream.client.over = false → i ∈ client.tasks

structure Served (client : ForwardClient) : Prop where
  connections : ∀ (c : Nat) (connection : ForwardConnection),
    client.connections[c]? = some connection → connection.Sound client.port
  fresh : ∀ i host retry c, client.phaseOf? i = some (.requesting host retry c) → client.Fresh c
  committed : ∀ i c, client.phaseOf? i = some (.connected c) → client.Committed c
  current : ∀ c, client.current = some c → client.Committed c
  tasks : ∀ c i, client.ServedOn i c → client.phaseOf? i = some (.connected c)
  streams : ∀ i stream, client.streamOf? i = some stream → client.StreamServed i stream
  limit : client.tasks.length ≤ maxStreams

/-! Steps of the calls -/

structure StreamStep (client : ForwardClient) (i : Nat) (phase : CallPhase)
    (stream stream' : ForwardedStream) : Prop where
  port : stream'.port = stream.port
  reachable : streamSystem.Reachable stream → streamSystem.Reachable stream'
  ended : stream.client.over = true → stream'.client.over = true
  server : stream'.server = stream.server
    ∨ ∃ c, phase = .connected c ∧ (stream'.server.phase.over = false → client.ServedOn i c)

structure CallStep (client : ForwardClient) (i : Nat) (call call' : ForwardCall) : Prop where
  connected : ∀ c, call.phase = .connected c → call'.phase = .connected c
  committed : ∀ c, call'.phase = .connected c → call.phase = .connected c ∨ client.Committed c
  requesting : ∀ host retry c, call'.phase = .requesting host retry c →
    call.phase = .requesting host retry c ∨ client.Fresh c
  stream : ∀ stream', call'.stream = some stream' →
    ∃ stream, call.stream = some stream ∧ client.StreamStep i call'.phase stream stream'

theorem StreamStep.refl : client.StreamStep i phase stream stream where
  port := rfl
  reachable := id
  ended := id
  server := Or.inl rfl

theorem CallStep.refl : client.CallStep i call call where
  connected := fun _ => id
  committed := fun _ => Or.inl
  requesting := fun _ _ _ => Or.inl
  stream := fun stream' h => ⟨stream', h, StreamStep.refl⟩

theorem servedOn_congr (h : client'.connections = client.connections)
    : client'.ServedOn i c ↔ client.ServedOn i c := by
  simp only [ServedOn, h]

theorem StreamServed.step (h : client.StreamServed i stream) (hphase : client.phaseOf? i = some phase)
    (hconnected : ∀ c, phase = .connected c → phase' = .connected c)
    (hstep : client.StreamStep i phase' stream stream')
    (hphase' : client'.phaseOf? i = some phase') (hport : client'.port = client.port)
    (hconnections : client'.connections = client.connections) (htasks : client'.tasks = client.tasks)
    : client'.StreamServed i stream' where
  port := (hstep.port.trans h.port).trans hport.symm
  reachable := hstep.reachable h.reachable
  accepted := by
    intro haccepted
    simp only [servedOn_congr hconnections]
    rcases hstep.server with hserver | ⟨c, rfl, hserved⟩
    . rw [hserver] at haccepted ⊢
      rcases h.accepted haccepted with ⟨c, hc, hserved⟩
      rw [hphase, Option.some.injEq] at hc
      exact ⟨c, hphase'.trans (congrArg some (hconnected c hc)), hserved⟩
    . exact ⟨c, hphase', hserved⟩
  live := by
    intro hlive
    rw [htasks]
    apply h.live
    cases hover : stream.client.over with
    | false => rfl
    | true => exact absurd (hstep.ended hover) (by simp [hlive])

theorem Served.of_calls {calls : List ForwardCall} (h : Served client)
    (hcalls : ∀ j, Option.Rel (client.CallStep j) client.calls[j]? calls[j]?)
    : Served { client with calls } := by
  have hback : ∀ {j call'}, calls[j]? = some call' →
      ∃ call, client.calls[j]? = some call ∧ client.CallStep j call call' := by
    intro j call' hcall'
    have hrel := hcalls j
    rw [hcall'] at hrel
    cases hcall : client.calls[j]? with
    | none =>
      rw [hcall] at hrel
      cases hrel
    | some call =>
      rw [hcall] at hrel
      cases hrel with
      | some hstep => exact ⟨call, rfl, hstep⟩
  refine ⟨h.connections, ?_, ?_, h.current, ?_, ?_, h.limit⟩
  . intro j host retry c hphase
    rcases Option.map_eq_some_iff.mp hphase with ⟨call', hcall', hrequesting⟩
    rcases hback hcall' with ⟨call, hcall, hstep⟩
    rcases hstep.requesting host retry c hrequesting with hbefore | hfresh
    . exact h.fresh j host retry c (Option.map_eq_some_iff.mpr ⟨call, hcall, hbefore⟩)
    . exact hfresh
  . intro j c hphase
    rcases Option.map_eq_some_iff.mp hphase with ⟨call', hcall', hconnected⟩
    rcases hback hcall' with ⟨call, hcall, hstep⟩
    rcases hstep.committed c hconnected with hbefore | hcommitted
    . exact h.committed j c (Option.map_eq_some_iff.mpr ⟨call, hcall, hbefore⟩)
    . exact hcommitted
  . intro c j hserved
    rcases Option.map_eq_some_iff.mp (h.tasks c j hserved) with ⟨call, hcall, hconnected⟩
    have hrel := hcalls j
    rw [hcall] at hrel
    cases hcall' : calls[j]? with
    | none =>
      rw [hcall'] at hrel
      cases hrel
    | some call' =>
      rw [hcall'] at hrel
      cases hrel with
      | some hstep => exact Option.map_eq_some_iff.mpr ⟨call', hcall', hstep.connected c hconnected⟩
  . intro j stream' hstream'
    rcases Option.bind_eq_some_iff.mp hstream' with ⟨call', hcall', hstream'⟩
    rcases hback hcall' with ⟨call, hcall, hstep⟩
    rcases hstep.stream stream' hstream' with ⟨stream, hstream, hstreamStep⟩
    have hserved := h.streams j stream (Option.bind_eq_some_iff.mpr ⟨call, hcall, hstream⟩)
    exact hserved.step (Option.map_eq_some_iff.mpr ⟨call, hcall, rfl⟩) hstep.connected hstreamStep
      (Option.map_eq_some_iff.mpr ⟨call', hcall', rfl⟩) rfl rfl rfl

theorem Served.modify {f : ForwardCall → ForwardCall} (h : Served client)
    (hf : ∀ call, client.calls[i]? = some call → client.CallStep i call (f call))
    : Served { client with calls := client.calls.modify i f } := by
  apply h.of_calls
  intro j
  rw [List.getElem?_modify]
  cases hcall : client.calls[j]? with
  | none => exact Option.Rel.none
  | some call =>
    apply Option.Rel.some
    split
    . next heq =>
      subst heq
      exact hf call hcall
    . exact CallStep.refl

theorem client_over_of_step {phase phase' : ForwardPhase} {halves halves' : Halves UInt8}
    {action : ForwardAction} (h : phase.step port halves action = some (phase', halves'))
    : phase.over = false := by
  cases phase with
  | finished stats => cases action <;> simp [ForwardPhase.step, ForwardPhase.over] at h
  | failed error => cases action <;> simp [ForwardPhase.step, ForwardPhase.over] at h
  | _ => rfl

theorem streamStep_of_step (hstep : stream.step action = some stream')
    (hserver : ∀ serverAction, action = .server serverAction →
      ∃ c, phase = .connected c ∧ (stream'.server.phase.over = false → client.ServedOn i c))
    : client.StreamStep i phase stream stream' := by
  have hreachable : streamSystem.Reachable stream → streamSystem.Reachable stream' :=
    fun h => h.step hstep
  cases action with
  | app action =>
    simp only [ForwardedStream.step, Option.map_eq_some_iff, Prod.exists] at hstep
    rcases hstep with ⟨_, _, _, rfl⟩
    exact ⟨rfl, hreachable, id, Or.inl rfl⟩
  | service action =>
    simp only [ForwardedStream.step] at hstep
    split at hstep
    . cases hstep
    . simp only [Option.map_eq_some_iff, Prod.exists] at hstep
      rcases hstep with ⟨_, _, _, rfl⟩
      exact ⟨rfl, hreachable, id, Or.inl rfl⟩
  | client action =>
    simp only [ForwardedStream.step, Option.map_eq_some_iff, Prod.exists] at hstep
    rcases hstep with ⟨_, _, hphase, rfl⟩
    refine ⟨rfl, hreachable, ?_, Or.inl rfl⟩
    simp [client_over_of_step hphase]
  | server action =>
    have hserved := hserver action rfl
    simp only [ForwardedStream.step, Option.map_eq_some_iff, Prod.exists] at hstep
    rcases hstep with ⟨_, _, _, rfl⟩
    exact ⟨rfl, hreachable, id, Or.inr hserved⟩
  | breakTunnel =>
    cases hstep
    exact ⟨rfl, hreachable, id, Or.inl rfl⟩

theorem streamStep_getD
    (hserver : ∀ serverAction, action = .server serverAction →
      ∃ c, phase = .connected c
        ∧ (((stream.step action).getD stream).server.phase.over = false → client.ServedOn i c))
    : client.StreamStep i phase stream ((stream.step action).getD stream) := by
  cases hstep : stream.step action with
  | none => exact StreamStep.refl
  | some stream' =>
    rw [hstep] at hserver
    exact streamStep_of_step hstep hserver

theorem callStep_of_client {action : ForwardAction} (hconnected : ∀ c, call.phase ≠ .connected c)
    (hcommitted : ∀ c, phase' = .connected c → client.Committed c)
    (hrequesting : ∀ host retry c, phase' ≠ .requesting host retry c)
    : client.CallStep i call
        { phase := phase'
          stream := call.stream.map fun stream => (stream.step (.client action)).getD stream } where
  connected := fun c h => absurd h (hconnected c)
  committed := fun c h => Or.inr (hcommitted c h)
  requesting := fun host retry c h => absurd h (hrequesting host retry c)
  stream := by
    intro stream' hstream'
    rcases Option.map_eq_some_iff.mp hstream' with ⟨stream, hstream, rfl⟩
    exact ⟨stream, hstream, streamStep_getD fun _ h => nomatch h⟩

theorem callStep_of_phase (hconnected : ∀ c, call.phase ≠ .connected c)
    (hconnected' : ∀ c, phase' ≠ .connected c)
    (hrequesting : ∀ host retry c, phase' = .requesting host retry c → client.Fresh c)
    : client.CallStep i call { call with phase := phase' } where
  connected := fun c h => absurd h (hconnected c)
  committed := fun c h => absurd h (hconnected' c)
  requesting := fun host retry c h => Or.inr (hrequesting host retry c h)
  stream := fun stream' h => ⟨stream', h, StreamStep.refl⟩

theorem phase_of_call (hcall : client.calls[i]? = some call) (hphase : client.phaseOf? i = some phase)
    : call.phase = phase := by
  rw [phaseOf?, hcall, Option.map_some, Option.some.injEq] at hphase
  exact hphase

theorem Served.setPhase (h : Served client) (hphase : client.phaseOf? i = some phase)
    (hconnected : ∀ c, phase ≠ .connected c) (hconnected' : ∀ c, phase' ≠ .connected c)
    (hrequesting : ∀ host retry c, phase' = .requesting host retry c → client.Fresh c)
    : Served (client.setPhase i phase') := by
  apply h.modify
  intro call hcall
  apply callStep_of_phase ?_ hconnected' hrequesting
  rw [phase_of_call hcall hphase]
  exact hconnected

theorem Served.connectCall (h : Served client) (hphase : client.phaseOf? i = some phase)
    (hconnected : ∀ c, phase ≠ .connected c) (hcommitted : client.Committed c)
    : Served (client.connectCall i c) := by
  apply h.modify
  intro call hcall
  apply callStep_of_client
  . rw [phase_of_call hcall hphase]
    exact hconnected
  . rintro d ⟨⟩
    exact hcommitted
  . rintro _ _ _ ⟨⟩

theorem Served.failCall {error : String} {graceful : Nat → Bool × Bool} (h : Served client)
    (hphase : client.phaseOf? i = some phase) (hconnected : ∀ c, phase ≠ .connected c)
    : Served (client.failCall i error graceful) := by
  apply h.modify
  intro call hcall
  apply callStep_of_client
  . rw [phase_of_call hcall hphase]
    exact hconnected
  . rintro d ⟨⟩
  . rintro _ _ _ ⟨⟩

/-! Steps of the connections -/

structure ConnectionStep (client : ForwardClient) (c : Nat) (connection connection' : ForwardConnection)
    : Prop where
  sound : connection.Sound client.port → connection'.Sound client.port
  proven : connection.Proven client.port → connection'.Proven client.port
  request : connection'.request = connection.request
    ∨ ∀ i host retry, client.phaseOf? i ≠ some (.requesting host retry c)
  tasks : ∀ i ∈ connection'.tasks, i ∈ connection.tasks ∨ client.phaseOf? i = some (.connected c)
  joined : ∀ i ∈ connection.tasks, i ∈ connection'.tasks
    ∨ ∀ stream, client.streamOf? i = some stream → stream.server.phase.over = true

theorem Served.updateConnection {f : ForwardConnection → ForwardConnection} (h : Served client)
    (hf : ∀ connection, client.connections[c]? = some connection →
      client.ConnectionStep c connection (f connection))
    : Served (client.updateConnection c f) := by
  have hforth : ∀ {d connection}, client.connections[d]? = some connection →
      ∃ connection', (client.updateConnection c f).connections[d]? = some connection'
        ∧ (connection' = connection ∨ d = c ∧ client.ConnectionStep c connection connection') := by
    intro d connection hconnection
    rw [connections_updateConnection, hconnection]
    split
    . next heq =>
      subst heq
      exact ⟨f connection, rfl, Or.inr ⟨rfl, hf connection hconnection⟩⟩
    . exact ⟨connection, rfl, Or.inl rfl⟩
  have hback : ∀ {d connection'}, (client.updateConnection c f).connections[d]? = some connection' →
      ∃ connection, client.connections[d]? = some connection
        ∧ (connection' = connection ∨ d = c ∧ client.ConnectionStep c connection connection') := by
    intro d connection' hconnection'
    cases hconnection : client.connections[d]? with
    | none =>
      rw [connections_updateConnection, hconnection] at hconnection'
      simp at hconnection'
    | some connection =>
      rcases hforth hconnection with ⟨connection'', heq, hstep⟩
      rw [hconnection', Option.some.injEq] at heq
      exact ⟨connection, rfl, heq ▸ hstep⟩
  have hcommitted : ∀ {d}, client.Committed d → (client.updateConnection c f).Committed d := by
    rintro d ⟨connection, hconnection, hproven⟩
    rcases hforth hconnection with ⟨connection', hconnection', rfl | ⟨_, hstep⟩⟩
    . exact ⟨_, hconnection', hproven⟩
    . exact ⟨_, hconnection', hstep.proven hproven⟩
  refine ⟨?_, ?_, ?_, ?_, ?_, ?_, h.limit⟩
  . intro d connection' hconnection'
    rcases hback hconnection' with ⟨connection, hconnection, rfl | ⟨_, hstep⟩⟩
    . exact h.connections d _ hconnection
    . exact hstep.sound (h.connections d connection hconnection)
  . intro i host retry d hphase connection' hconnection'
    rcases hback hconnection' with ⟨connection, hconnection, rfl | ⟨rfl, hstep⟩⟩
    . exact h.fresh i host retry d hphase _ hconnection
    . rcases hstep.request with hrequest | hnone
      . exact hrequest.trans (h.fresh i host retry d hphase connection hconnection)
      . exact absurd hphase (hnone i host retry)
  . exact fun i d hphase => hcommitted (h.committed i d hphase)
  . exact fun d hcurrent => hcommitted (h.current d hcurrent)
  . rintro d i ⟨connection', hconnection', hmem⟩
    rcases hback hconnection' with ⟨connection, hconnection, rfl | ⟨rfl, hstep⟩⟩
    . exact h.tasks d i ⟨_, hconnection, hmem⟩
    . rcases hstep.tasks i hmem with hbefore | hphase
      . exact h.tasks d i ⟨connection, hconnection, hbefore⟩
      . exact hphase
  . intro i stream hstream
    have hserved := h.streams i stream hstream
    refine ⟨hserved.port, hserved.reachable, ?_, hserved.live⟩
    intro haccepted
    rcases hserved.accepted haccepted with ⟨d, hphase, hon⟩
    refine ⟨d, hphase, fun hlive => ?_⟩
    rcases hon hlive with ⟨connection, hconnection, hmem⟩
    rcases hforth hconnection with ⟨connection', hconnection', rfl | ⟨_, hstep⟩⟩
    . exact ⟨_, hconnection', hmem⟩
    . rcases hstep.joined i hmem with hmem' | hover
      . exact ⟨connection', hconnection', hmem'⟩
      . rw [hover stream hstream] at hlive
        cases hlive

theorem connectionStep_close {connection : ForwardConnection}
    : client.ConnectionStep c connection { connection with closed := true } where
  sound := fun h => ⟨h.request, h.port, h.reply, h.serving, h.tasks, h.limit⟩
  proven := id
  request := Or.inl rfl
  tasks := fun _ => Or.inl
  joined := fun _ => Or.inl

theorem Served.dropPending {pending : Option Nat} (h : Served client)
    : Served (client.dropPending pending) := by
  cases pending with
  | none => exact h
  | some c => exact h.updateConnection fun _ _ => connectionStep_close

theorem connectionStep_request {bytes : List UInt8} {capability : Vector UInt8 32}
    (hrequest : connection.request = none)
    (hbytes : (writeTcpForwardRequest capability client.port).run [] = (.ok (), bytes))
    (hnone : ∀ i host retry, client.phaseOf? i ≠ some (.requesting host retry c))
    : client.ConnectionStep c connection { connection with request := some bytes } := by
  have hproven : ¬ connection.Proven client.port := by
    rintro ⟨_, request, hsome, _⟩
    rw [hrequest] at hsome
    cases hsome
  refine ⟨fun h => ?_, fun h => absurd h hproven, Or.inr hnone, fun _ => Or.inl, fun _ => Or.inl⟩
  refine ⟨?_, fun hport => absurd (h.port hport) hproven, h.reply, h.serving, h.tasks, h.limit⟩
  rintro _ ⟨⟩
  exact ⟨capability, hbytes⟩

theorem connectionStep_authorize (hphase : connection.phase = .authorizing)
    : client.ConnectionStep c connection { connection with phase := .authenticating } where
  sound := fun h => ⟨h.request, h.port, h.reply, fun hserving => (nomatch hserving),
    fun htasks => absurd (h.tasks htasks) (by simp [hphase]), h.limit⟩
  proven := id
  request := Or.inl rfl
  tasks := fun _ => Or.inl
  joined := fun _ => Or.inl

theorem connectionStep_serve {request rest : List UInt8} (hsound : connection.Sound client.port)
    (hrequest : connection.request = some request)
    (hport : (readTcpForwardRequest connection.capability : Reader String _).run request
      = .ok (port, rest))
    : client.ConnectionStep c connection
        { connection with phase := .serving, port := some port, reply := some (statusFrame .ready) } := by
  rcases hsound.request request hrequest with ⟨capability, hwrite⟩
  rcases ForwardConnection.proven_of_read hwrite hport with ⟨rfl, hwrite⟩
  refine ⟨fun h => ?_, fun _ => ?_, Or.inl rfl, fun _ => Or.inl, fun _ => Or.inl⟩
  . exact ⟨h.request, fun _ => ⟨rfl, request, hrequest, hwrite⟩, fun _ => rfl, fun _ => rfl,
      fun _ => rfl, h.limit⟩
  . exact ⟨rfl, request, hrequest, hwrite⟩

theorem connectionStep_end {result : Except String Unit}
    (hover : ∀ i ∈ connection.tasks, ∀ stream, client.streamOf? i = some stream →
      stream.server.phase.over = true)
    : client.ConnectionStep c connection { connection with phase := .ended result, tasks := [] } where
  sound := fun h => ⟨h.request, h.port, h.reply, fun hserving => (nomatch hserving),
    fun htasks => absurd rfl htasks, Nat.zero_le _⟩
  proven := id
  request := Or.inl rfl
  tasks := fun _ hmem => (nomatch hmem)
  joined := fun i hmem => Or.inr (hover i hmem)

theorem connectionStep_join (hstream : client.streamOf? i = some stream)
    (hover : stream.server.phase.over = true)
    : client.ConnectionStep c connection { connection with tasks := connection.tasks.erase i } where
  sound := fun h => ⟨h.request, h.port, h.reply, h.serving,
    fun htasks => h.tasks fun hnil => htasks (by simp [hnil]),
    Nat.le_trans (List.erase_sublist.length_le) h.limit⟩
  proven := id
  request := Or.inl rfl
  tasks := fun _ hmem => Or.inl (List.mem_of_mem_erase hmem)
  joined := by
    intro j hmem
    by_cases heq : j = i
    . subst heq
      right
      intro stream' hstream'
      rw [hstream, Option.some.injEq] at hstream'
      exact hstream' ▸ hover
    . exact Or.inl ((List.mem_erase_of_ne heq).mpr hmem)

theorem connectionStep_spawn (hphase : client.phaseOf? i = some (.connected c))
    (hserving : connection.phase = .serving) (hlimit : connection.tasks.length < maxStreams)
    : client.ConnectionStep c connection { connection with tasks := connection.tasks ++ [i] } where
  sound := fun h => ⟨h.request, h.port, h.reply, h.serving, fun _ => hserving,
    by simpa using hlimit⟩
  proven := id
  request := Or.inl rfl
  tasks := by
    intro j hmem
    rcases List.mem_append.mp hmem with hmem | hmem
    . exact Or.inl hmem
    . rw [List.mem_singleton.mp hmem]
      exact Or.inr hphase
  joined := fun _ hmem => Or.inl (List.mem_append_left _ hmem)

theorem Served.dial {capability : Vector UInt8 32} (h : Served client)
    : Served { client with connections := client.connections ++ [ForwardConnection.dialed capability] } := by
  have hforth : ∀ {c : Nat} {connection}, client.connections[c]? = some connection →
      (client.connections ++ [ForwardConnection.dialed capability])[c]? = some connection := by
    intro c connection hconnection
    rw [List.getElem?_append_left (List.getElem?_eq_some_iff.mp hconnection).1, hconnection]
  have hback : ∀ {c : Nat} {connection},
      (client.connections ++ [ForwardConnection.dialed capability])[c]? = some connection →
      client.connections[c]? = some connection ∨ connection = .dialed capability := by
    intro c connection hconnection
    rcases Nat.lt_or_ge c client.connections.length with hlt | hge
    . rw [List.getElem?_append_left hlt] at hconnection
      exact Or.inl hconnection
    . rw [List.getElem?_append_right hge] at hconnection
      exact Or.inr (List.mem_singleton.mp (List.mem_of_getElem? hconnection))
  refine ⟨?_, ?_, ?_, ?_, ?_, ?_, h.limit⟩
  . intro c connection hconnection
    rcases hback hconnection with hconnection | rfl
    . exact h.connections c connection hconnection
    . exact ForwardConnection.sound_dialed client.port capability
  . intro i host retry c hphase connection hconnection
    rcases hback hconnection with hconnection | rfl
    . exact h.fresh i host retry c hphase connection hconnection
    . rfl
  . intro i c hphase
    rcases h.committed i c hphase with ⟨connection, hconnection, hproven⟩
    exact ⟨connection, hforth hconnection, hproven⟩
  . intro c hcurrent
    rcases h.current c hcurrent with ⟨connection, hconnection, hproven⟩
    exact ⟨connection, hforth hconnection, hproven⟩
  . rintro c i ⟨connection, hconnection, hmem⟩
    rcases hback hconnection with hconnection | rfl
    . exact h.tasks c i ⟨connection, hconnection, hmem⟩
    . cases hmem
  . intro i stream hstream
    have hserved := h.streams i stream hstream
    refine ⟨hserved.port, hserved.reachable, ?_, hserved.live⟩
    intro haccepted
    rcases hserved.accepted haccepted with ⟨c, hphase, hon⟩
    refine ⟨c, hphase, fun hlive => ?_⟩
    rcases hon hlive with ⟨connection, hconnection, hmem⟩
    exact ⟨connection, hforth hconnection, hmem⟩

theorem Served.accept (h : Served client) (hlimit : client.tasks.length < maxStreams)
    : Served
        { client with
          calls := client.calls ++
            [{ phase := .waiting, stream := some (ForwardedStream.accepted client.port) }]
          tasks := client.tasks ++ [client.calls.length] } := by
  have hback : ∀ {j : Nat} {call},
      (client.calls ++ [{ phase := .waiting, stream := some (ForwardedStream.accepted client.port) }])[j]?
        = some call →
      client.calls[j]? = some call
        ∨ j = client.calls.length
          ∧ call = { phase := .waiting, stream := some (ForwardedStream.accepted client.port) } := by
    intro j call hcall
    rcases Nat.lt_or_ge j client.calls.length with hlt | hge
    . rw [List.getElem?_append_left hlt] at hcall
      exact Or.inl hcall
    . have hj := (List.getElem?_eq_some_iff.mp hcall).1
      simp only [List.length_append, List.length_singleton] at hj
      rw [List.getElem?_append_right hge] at hcall
      exact Or.inr ⟨by omega, List.mem_singleton.mp (List.mem_of_getElem? hcall)⟩
  have hforth : ∀ {j phase}, client.phaseOf? j = some phase →
      ((client.calls ++
        [{ phase := .waiting, stream := some (ForwardedStream.accepted client.port) }])[j]?).map
          ForwardCall.phase = some phase := by
    intro j phase hphase
    rcases Option.map_eq_some_iff.mp hphase with ⟨call, hcall, rfl⟩
    rw [List.getElem?_append_left (List.getElem?_eq_some_iff.mp hcall).1, hcall]
    rfl
  refine ⟨h.connections, ?_, ?_, h.current, ?_, ?_, ?_⟩
  . intro j host retry c hphase
    rcases Option.map_eq_some_iff.mp hphase with ⟨call, hcall, hrequesting⟩
    rcases hback hcall with hcall | ⟨_, rfl⟩
    . exact h.fresh j host retry c (Option.map_eq_some_iff.mpr ⟨call, hcall, hrequesting⟩)
    . cases hrequesting
  . intro j c hphase
    rcases Option.map_eq_some_iff.mp hphase with ⟨call, hcall, hconnected⟩
    rcases hback hcall with hcall | ⟨_, rfl⟩
    . exact h.committed j c (Option.map_eq_some_iff.mpr ⟨call, hcall, hconnected⟩)
    . cases hconnected
  . exact fun c j hserved => hforth (h.tasks c j hserved)
  . intro j stream hstream
    rcases Option.bind_eq_some_iff.mp hstream with ⟨call, hcall, hstream⟩
    rcases hback hcall with hcall | ⟨rfl, rfl⟩
    . have hserved := h.streams j stream (Option.bind_eq_some_iff.mpr ⟨call, hcall, hstream⟩)
      refine ⟨hserved.port, hserved.reachable, ?_, fun hlive => ?_⟩
      . intro haccepted
        rcases hserved.accepted haccepted with ⟨c, hphase, hon⟩
        exact ⟨c, hforth hphase, hon⟩
      . exact List.mem_append_left _ (hserved.live hlive)
    . rw [Option.some.injEq] at hstream
      subst hstream
      refine ⟨rfl, System.Reachable.of_init ⟨client.port, rfl⟩, fun haccepted => absurd rfl haccepted, ?_⟩
      exact fun _ => List.mem_append_right _ (List.mem_singleton_self _)
  . simpa using hlimit

theorem Served.join (h : Served client) (hstream : client.streamOf? i = some stream)
    (hover : stream.client.over = true) : Served { client with tasks := client.tasks.erase i } := by
  refine ⟨h.connections, h.fresh, h.committed, h.current, h.tasks, ?_, ?_⟩
  . intro j stream' hstream'
    have hserved := h.streams j stream' hstream'
    refine ⟨hserved.port, hserved.reachable, hserved.accepted, fun hlive => ?_⟩
    apply (List.mem_erase_of_ne ?_).mpr (hserved.live hlive)
    rintro rfl
    have heq := hstream.symm.trans hstream'
    rw [Option.some.injEq] at heq
    rw [← heq, hover] at hlive
    cases hlive
  . exact Nat.le_trans (List.erase_sublist.length_le) h.limit

theorem Served.commit (h : Served client) (hcommitted : client.Committed c)
    : Served { client with current := some c } := by
  refine ⟨h.connections, h.fresh, h.committed, ?_, h.tasks, ?_, h.limit⟩
  . rintro _ ⟨⟩
    exact hcommitted
  . intro j stream hstream
    have hserved := h.streams j stream hstream
    exact ⟨hserved.port, hserved.reachable, hserved.accepted, hserved.live⟩

theorem over_abort {error : String} {left right : Bool}
    : ((stream.step (.server (.fail error left right))).getD stream).server.phase.over = true := by
  cases hphase : stream.server.phase <;>
    simp [ForwardedStream.step, StreamTask.step, ServePhase.over, hphase]

theorem over_reject {right : Bool} (h : stream.step (.server (.reject right)) = some stream')
    : stream'.server.phase.over = true := by
  simp only [ForwardedStream.step, Option.map_eq_some_iff, Prod.exists] at h
  rcases h with ⟨task, halves, hstep, rfl⟩
  cases hphase : stream.server.phase <;> simp [StreamTask.step, hphase] at hstep
  rcases hstep with ⟨_, rfl, _⟩
  rfl

theorem Served.endServe {result : Except String Unit} {graceful : Nat → Bool × Bool} (h : Served client)
    (hconnection : client.connections[c]? = some connection)
    : Served (client.endServe c connection.tasks result graceful) := by
  have hcalls : Served { client with
      calls := client.calls.mapIdx fun i call =>
        if i ∈ connection.tasks then abortStream call (graceful i) else call } := by
    apply h.of_calls
    intro j
    rw [List.getElem?_mapIdx]
    cases hcall : client.calls[j]? with
    | none => exact Option.Rel.none
    | some call =>
      apply Option.Rel.some
      split
      . next hmem =>
        have hphase := phase_of_call hcall (h.tasks c j ⟨connection, hconnection, hmem⟩)
        refine ⟨fun _ => id, fun _ => Or.inl, fun _ _ _ => Or.inl, ?_⟩
        intro stream' hstream'
        rcases Option.map_eq_some_iff.mp hstream' with ⟨stream, hstream, rfl⟩
        refine ⟨stream, hstream, streamStep_getD fun _ _ => ⟨c, hphase, fun hlive => ?_⟩⟩
        rw [over_abort] at hlive
        cases hlive
      . exact CallStep.refl
  apply hcalls.updateConnection
  intro connection' hconnection'
  cases hconnection.symm.trans hconnection'
  apply connectionStep_end
  intro j hmem stream hstream
  simp only [streamOf?, List.getElem?_mapIdx, Option.bind_map, Option.bind_eq_some_iff,
    Function.comp_apply, if_pos hmem, abortStream, Option.map_eq_some_iff] at hstream
  rcases hstream with ⟨_, _, _, _, rfl⟩
  exact over_abort

theorem Served.setStream (h : Served client) (hphase : client.phaseOf? i = some phase)
    (hstream : client.streamOf? i = some stream) (hstep : client.StreamStep i phase stream stream')
    : Served (client.setStream i stream') := by
  apply h.modify
  intro call hcall
  refine ⟨fun _ => id, fun _ => Or.inl, fun _ _ _ => Or.inl, ?_⟩
  rintro _ ⟨⟩
  rw [streamOf?, hcall, Option.bind_some] at hstream
  rw [← phase_of_call hcall hphase] at hstep
  exact ⟨stream, hstream, hstep⟩

theorem spawn_of_ne (haccept : action ≠ .server .accept) : client.spawn i phase action = client := by
  unfold spawn
  split
  . exact absurd rfl haccept
  . rfl

theorem Served.spawn (h : Served client) (hphase : client.phaseOf? i = some (.connected c))
    (hconnection : client.connections[c]? = some connection) (hserving : connection.phase = .serving)
    (hlimit : connection.tasks.length < maxStreams)
    : Served (client.spawn i (.connected c) (.server .accept))
        ∧ (client.spawn i (.connected c) (.server .accept)).ServedOn i c := by
  constructor
  . apply h.updateConnection
    intro connection' hconnection'
    cases hconnection.symm.trans hconnection'
    exact connectionStep_spawn hphase hserving hlimit
  . refine ⟨{ connection with tasks := connection.tasks ++ [i] }, ?_, by simp⟩
    rw [ForwardClient.spawn, connections_updateConnection, if_pos rfl, hconnection]
    rfl

theorem Served.serverStream {action : ServeAction} (h : Served client)
    (hphase : client.phaseOf? i = some phase) (hstream : client.streamOf? i = some stream)
    (hallows : client.allows i phase (.server action) = true)
    (hstep : stream.step (.server action) = some stream')
    : Served ((client.setStream i stream').spawn i phase (.server action)) := by
  simp only [allows] at hallows
  split at hallows
  . next c =>
    split at hallows
    . next connection hconnection =>
      have hkept : ∀ {client' : ForwardClient},
          (stream'.server.phase.over = false → client'.ServedOn i c) →
          client'.StreamStep i (.connected c) stream stream' :=
        fun hon => streamStep_of_step hstep fun _ _ => ⟨c, rfl, hon⟩
      split at hallows
      . next =>
        simp only [Bool.and_eq_true, decide_eq_true_eq] at hallows
        have hserving : connection.phase = .serving := by
          have hmatches := hallows.1
          split at hmatches
          . assumption
          . cases hmatches
        rcases h.spawn hphase hconnection hserving hallows.2 with ⟨hspawned, hon⟩
        exact hspawned.setStream (phaseOf?_spawn.trans hphase) hstream (hkept fun _ => hon)
      . next right =>
        rw [spawn_of_ne (by simp)]
        exact h.setStream hphase hstream (hkept fun hlive => by simp [over_reject hstep] at hlive)
      . next haccept _ =>
        have hon : client.ServedOn i c := ⟨connection, hconnection, of_decide_eq_true hallows⟩
        rw [spawn_of_ne fun heq => haccept (StreamAction.server.inj heq)]
        exact h.setStream hphase hstream (hkept fun _ => hon)
    . cases hallows
  . cases hallows

theorem Served.streamStep (h : Served client) (hphase : client.phaseOf? i = some phase)
    (hstream : client.streamOf? i = some stream) (hallows : client.allows i phase action = true)
    (hstep : stream.step action = some stream') : Served ((client.setStream i stream').spawn i phase action) := by
  have hother : (∀ serverAction, action ≠ .server serverAction) →
      Served ((client.setStream i stream').spawn i phase action) := by
    intro hserver
    rw [spawn_of_ne (hserver .accept)]
    exact h.setStream hphase hstream
      (streamStep_of_step hstep fun serverAction heq => absurd heq (hserver serverAction))
  cases action with
  | server action => exact h.serverStream hphase hstream hallows hstep
  | app action => exact hother fun _ => StreamAction.noConfusion
  | service action => exact hother fun _ => StreamAction.noConfusion
  | client action => exact hother fun _ => StreamAction.noConfusion
  | breakTunnel => exact hother fun _ => StreamAction.noConfusion

theorem not_connected_of_holdsLock (hholds : phase.holdsLock = true) (c : Nat) : phase ≠ .connected c := by
  rintro rfl
  cases hholds

theorem Served.step (h : Served client) (hmoves : Moves client client')
    (hunique : ∀ {i j phase phase'}, client.phaseOf? i = some phase → client.phaseOf? j = some phase' →
      phase.holdsLock = true → phase'.holdsLock = true → i = j) : Served client' := by
  cases hmoves with
  | same => exact h
  | accepted hlimit => exact h.accept hlimit
  | joined i stream hstream hover => exact h.join hstream hover
  | locked i hphase hfree hopen =>
    exact h.setPhase hphase (fun _ => CallPhase.noConfusion) (fun _ => CallPhase.noConfusion)
      fun _ _ _ => CallPhase.noConfusion
  | reused i c hphase hopen =>
    exact h.connectCall hphase (fun _ => CallPhase.noConfusion)
      (h.current c (Option.filter_eq_some_iff.mp hopen).1)
  | goesOn i phase phase' hphase hnext =>
    apply h.setPhase hphase
    . cases hnext <;> exact fun _ => CallPhase.noConfusion
    . cases hnext <;> exact fun _ => CallPhase.noConfusion
    . cases hnext <;> exact fun _ _ _ => CallPhase.noConfusion
  | dialed i host retry capability hphase =>
    apply h.dial.setPhase hphase (fun _ => CallPhase.noConfusion) fun _ => CallPhase.noConfusion
    rintro _ _ _ ⟨⟩ connection hconnection
    rw [List.getElem?_append_right (Nat.le_refl _)] at hconnection
    rw [List.mem_singleton.mp (List.mem_of_getElem? hconnection)]
    rfl
  | requested i c host retry bytes hphase hbytes =>
    have hset : Served (client.setPhase i (.awaitingReply host retry c)) :=
      h.setPhase hphase (fun _ => CallPhase.noConfusion) (fun _ => CallPhase.noConfusion)
        fun _ _ _ => CallPhase.noConfusion
    apply hset.updateConnection
    intro connection hconnection
    apply connectionStep_request (h.fresh i host retry c hphase connection hconnection)
    . exact hbytes
    . intro j host' retry' hrequesting
      rw [phaseOf?_setPhase hphase] at hrequesting
      split at hrequesting
      . cases hrequesting
      . next hne => exact hne (hunique hphase hrequesting rfl rfl)
  | committed i c host retry reply hphase hreply hcheck =>
    rcases Option.bind_eq_some_iff.mp hreply with ⟨connection, hconnection, hreply⟩
    have hsound := h.connections c connection hconnection
    have hcommitted : client.Committed c :=
      ⟨connection, hconnection, hsound.port (hsound.reply (by simp [hreply]))⟩
    have hconnected := h.connectCall hphase (fun _ => CallPhase.noConfusion) hcommitted
    exact hconnected.commit hcommitted
  | refetching i phase host error hphase hholds =>
    exact h.dropPending.setPhase (phaseOf?_dropPending.trans hphase) (not_connected_of_holdsLock hholds)
      (fun _ => CallPhase.noConfusion) fun _ _ _ => CallPhase.noConfusion
  | failed i phase error graceful hphase hholds =>
    exact h.dropPending.failCall (phaseOf?_dropPending.trans hphase) (not_connected_of_holdsLock hholds)
  | lost c => exact h.updateConnection fun _ _ => connectionStep_close
  | authorized c connection hconnection hphase =>
    apply h.updateConnection
    intro connection' hconnection'
    cases hconnection.symm.trans hconnection'
    exact connectionStep_authorize hphase
  | served c connection request rest port hconnection hrequest hport =>
    apply h.updateConnection
    intro connection' hconnection'
    cases hconnection.symm.trans hconnection'
    exact connectionStep_serve (h.connections c connection hconnection) hrequest hport
  | ended c connection result graceful hconnection => exact h.endServe hconnection
  | joinedServe c i stream hstream hover =>
    exact h.updateConnection fun _ _ => connectionStep_join hstream hover
  | streamed i phase stream stream' action hphase hstream hallows hstep =>
    exact h.streamStep hphase hstream hallows hstep

theorem served_start (port : UInt16) : Served (start port) where
  connections := fun _ _ h => by simp [start] at h
  fresh := fun i host retry c h => by
    cases i <;> simp [phaseOf?, start] at h
  committed := fun i c h => by
    cases i <;> simp [phaseOf?, start] at h
  current := fun _ h => nomatch h
  tasks := by
    rintro c i ⟨_, h, _⟩
    simp [start] at h
  streams := fun i stream h => by
    cases i <;> simp [streamOf?, start] at h
  limit := Nat.zero_le _

theorem served_of_reachable (h : (forwardSystem iroh).Reachable client) : Served client := by
  have hboth : (forwardSystem iroh).Reachable client ∧ Served client := by
    apply h.invariant
    . rintro _ ⟨port, rfl⟩
      exact ⟨System.Reachable.of_init ⟨port, rfl⟩, served_start port⟩
    . rintro client client' label ⟨hreachable, hserved⟩ hstep
      exact ⟨hreachable.step hstep, hserved.step (moves_of_step hstep) (holder_unique hreachable)⟩
  exact hboth.2

theorem connected_of_phaseOf?
    (hnext : client'.phaseOf? i = if j = i then some phase' else client.phaseOf? i)
    (hphase : client.phaseOf? j = some phase) (hne : phase ≠ .connected c)
    (h : client.phaseOf? i = some (.connected c)) : client'.phaseOf? i = some (.connected c) := by
  rw [hnext]
  split
  . next heq =>
    subst heq
    rw [hphase, Option.some.injEq] at h
    exact absurd h hne
  . exact h

theorem connected_of_moves (hmoves : Moves client client') (h : client.phaseOf? i = some (.connected c))
    : client'.phaseOf? i = some (.connected c) := by
  cases hmoves with
  | same => exact h
  | accepted hlimit =>
    rcases Option.map_eq_some_iff.mp h with ⟨call, hcall, hconnected⟩
    rw [phaseOf?, List.getElem?_append_left (List.getElem?_eq_some_iff.mp hcall).1, hcall, Option.map_some,
      hconnected]
  | joined i stream hstream hover => exact h
  | locked i hphase hfree hopen =>
    exact connected_of_phaseOf? (phaseOf?_setPhase hphase) hphase CallPhase.noConfusion h
  | reused i c hphase hopen =>
    exact connected_of_phaseOf? (phaseOf?_connectCall hphase) hphase CallPhase.noConfusion h
  | goesOn i phase phase' hphase hnext =>
    apply connected_of_phaseOf? (phaseOf?_setPhase hphase) hphase ?_ h
    cases hnext <;> exact CallPhase.noConfusion
  | dialed i host retry capability hphase =>
    exact connected_of_phaseOf? (phaseOf?_setPhase hphase) hphase CallPhase.noConfusion h
  | requested i c host retry bytes hphase hbytes =>
    exact connected_of_phaseOf? (phaseOf?_setPhase hphase) hphase CallPhase.noConfusion h
  | committed i c host retry reply hphase hreply hcheck =>
    exact connected_of_phaseOf? (phaseOf?_connectCall hphase) hphase CallPhase.noConfusion h
  | refetching i phase host error hphase hholds =>
    exact connected_of_phaseOf? (phaseOf?_setPhase_dropPending hphase) hphase
      (not_connected_of_holdsLock hholds c) h
  | failed i phase error graceful hphase hholds =>
    exact connected_of_phaseOf? (phaseOf?_failCall_dropPending hphase) hphase
      (not_connected_of_holdsLock hholds c) h
  | lost c => exact h
  | authorized c connection hconnection hphase => exact h
  | served c connection request rest port hconnection hrequest hport => exact h
  | ended c connection result graceful hconnection => exact phaseOf?_endServe.trans h
  | joinedServe c i stream hstream hover => exact h
  | streamed i phase stream stream' action hphase hstream hallows hstep =>
    exact phaseOf?_spawn.trans (phaseOf?_setStream.trans h)

theorem connected_of_run {labels : List ClientLabel} (hrun : (forwardSystem iroh).Run client labels client')
    (h : client.phaseOf? i = some (.connected c)) : client'.phaseOf? i = some (.connected c) := by
  have hpreserved : ∀ {s s' label}, s.phaseOf? i = some (.connected c) →
      (forwardSystem iroh).step s label s' → s'.phaseOf? i = some (.connected c) :=
    fun hs hstep => connected_of_moves (moves_of_step hstep) hs
  exact hrun.invariant hpreserved h

def Serving (client : ForwardClient) (c i : Nat) : Prop :=
  client.phaseOf? i = some (.connected c)
    ∧ ∃ stream, client.streamOf? i = some stream ∧ stream.server.phase ≠ .waiting
        ∧ stream.server.phase.over = false

theorem Served.serving (h : Served client) (hserving : client.Serving c i) : client.ServedOn i c := by
  rcases hserving with ⟨hphase, stream, hstream, haccepted, hlive⟩
  rcases (h.streams i stream hstream).accepted haccepted with ⟨d, hphase', hon⟩
  rw [hphase, Option.some.injEq] at hphase'
  cases hphase'
  exact hon hlive

theorem Served.length_le (h : Served client) {calls : List Nat} (hnodup : calls.Nodup)
    (hserving : ∀ i ∈ calls, client.Serving c i) : calls.length ≤ maxStreams := by
  cases calls with
  | nil => exact Nat.zero_le _
  | cons i rest =>
    rcases h.serving (hserving i List.mem_cons_self) with ⟨connection, hconnection, _⟩
    have hsubset : i :: rest ⊆ connection.tasks := by
      intro j hj
      rcases h.serving (hserving j hj) with ⟨connection', hconnection', hmem⟩
      rw [hconnection, Option.some.injEq] at hconnection'
      exact hconnection' ▸ hmem
    exact Nat.le_trans (List.subperm_of_subset hnodup hsubset).length_le
      (h.connections c connection hconnection).limit

end ForwardClient

open ForwardClient in
theorem streams_served_on_proven_connection {Ticket : Type} {iroh : Iroh Ticket} {client : ForwardClient}
    (h : (forwardSystem iroh).Reachable client)
    : (∀ c d, client.isOpen c = true → client.isOpen d = true → c = d)
        ∧ (∀ i stream, client.streamOf? i = some stream →
            streamSystem.Reachable stream ∧ stream.port = client.port
              ∧ (stream.server.phase ≠ .waiting →
                  ∃ c, ∀ labels client', (forwardSystem iroh).Run client labels client' →
                    client'.phaseOf? i = some (.connected c) ∧ client'.Committed c))
        ∧ (∀ c i, client.Serving c i →
            ∃ connection, client.connections[c]? = some connection ∧ connection.phase = .serving)
        ∧ (∀ c (calls : List Nat), calls.Nodup → (∀ i ∈ calls, client.Serving c i) → calls.length ≤ 64)
        ∧ ∀ calls : List Nat, calls.Nodup →
            (∀ i ∈ calls, ∃ stream, client.streamOf? i = some stream ∧ stream.client.over = false) →
            calls.length ≤ 64 := by
  have hserved := served_of_reachable h
  refine ⟨fun c d => open_unique h, ?_, ?_, fun c calls => hserved.length_le, ?_⟩
  . intro i stream hstream
    have hstreamServed := hserved.streams i stream hstream
    refine ⟨hstreamServed.reachable, hstreamServed.port, fun haccepted => ?_⟩
    rcases hstreamServed.accepted haccepted with ⟨c, hphase, _⟩
    refine ⟨c, fun labels client' hrun => ?_⟩
    have hphase' := connected_of_run hrun hphase
    exact ⟨hphase', (served_of_reachable (h.run hrun)).committed i c hphase'⟩
  . intro c i hserving
    rcases hserved.serving hserving with ⟨connection, hconnection, hmem⟩
    refine ⟨connection, hconnection, (hserved.connections c connection hconnection).tasks ?_⟩
    exact List.ne_nil_of_mem hmem
  . intro calls hnodup hlive
    have hsubset : calls ⊆ client.tasks := by
      intro i hi
      rcases hlive i hi with ⟨stream, hstream, hover⟩
      exact (hserved.streams i stream hstream).live hover
    exact Nat.le_trans (List.subperm_of_subset hnodup hsubset).length_le hserved.limit

namespace ForwardClient.Fixture

open Attached.Fixture

def publisher : HostConnection where
  recordId := ⟨Vector.replicate 16 1⟩
  serviceRevision := 1
  endpointTicket := ticket
  endpointIdentity := identity
  attachCapability := Vector.replicate 32 2
  attachedVersion := ⟨0, 1, 0⟩
  expiresAt := time 300
  sshEnabled := false

def events : List ClientEvent :=
  [.lock 0, .fetched 0 (.ok publisher), .connect 0 (time 0) (Vector.replicate 32 2) (.ok ()),
    .writeRequest 0, .authorize 0 (.ok ()), .authenticate 0, .readReply 0, .accept, .lock 1,
    .stream 1 (.client .writeOpen), .stream 1 (.server .accept)]

def labels : List ClientLabel :=
  events.map fun event => { event, graceful := fun _ => (true, true) }

def forwarding : Option ForwardClient :=
  System.replay (ForwardClient.step iroh) (start 8080) labels

theorem forwarding_isSome : forwarding.isSome = true := by
  decide +kernel

theorem reachable_forwarding : (forwardSystem iroh).Reachable (forwarding.get forwarding_isSome) :=
  ⟨start 8080, labels, ⟨8080, rfl⟩, System.Run.of_replay id (Option.some_get _).symm⟩

end ForwardClient.Fixture

open ForwardClient ForwardClient.Fixture in
theorem forwarding_served_on_proven_connection
    : ∃ stream c, (forwarding.get forwarding_isSome).streamOf? 1 = some stream
        ∧ stream.port = 8080
        ∧ (forwarding.get forwarding_isSome).phaseOf? 1 = some (.connected c)
        ∧ (forwarding.get forwarding_isSome).Committed c := by
  have h := streams_served_on_proven_connection reachable_forwarding
  have hstream : ((forwarding.get forwarding_isSome).streamOf? 1).isSome = true := by
    decide +kernel
  rcases Option.isSome_iff_exists.mp hstream with ⟨stream, hstream⟩
  have haccepted : ((forwarding.get forwarding_isSome).streamOf? 1).all
      (fun stream => stream.server.phase ≠ .waiting) = true := by
    decide +kernel
  rw [hstream, Option.all_some, decide_eq_true_eq] at haccepted
  rcases h.2.1 1 stream hstream with ⟨_, hport, hserved⟩
  rcases hserved haccepted with ⟨c, hrun⟩
  rcases hrun [] _ (System.Run.nil _) with ⟨hphase, hcommitted⟩
  have hclient : (forwarding.get forwarding_isSome).port = 8080 := by
    decide +kernel
  exact ⟨stream, c, hstream, hport.trans hclient, hphase, hcommitted⟩

end Attached
