import Attached.Forward.StreamLemmas

/-!
This module contains the proof that a forwarded connection does not get stuck: as long as nobody gives
up, all that was sent can still be received, and all ends can still be found.
-/

namespace Attached

open Pipe (Copy CopyAction ReaderStep WriterStep)
open Forward RelayPhase

def StreamAction.forwards (action : StreamAction) : Bool :=
  match action with
  | .app (.receive _) | .app .receiveEnd | .service (.receive _) | .service .receiveEnd => true
  | .client (.fail _ _ _) | .server (.fail _ _ _) | .server (.reject _) => false
  | .server (.dial outcome) => outcome == .connected
  | .client _ | .server _ => true
  | _ => false

def EndAction.ofRead (action : Pipe.ReadAction) : EndAction :=
  match action with
  | .receive n => .receive n
  | .receiveEnd => .receiveEnd

def forwardingSystem : System ForwardedStream StreamAction :=
  streamSystem.restrict fun _ action => action.forwards = true

def ForwardPhase.rank (phase : ForwardPhase) : Nat :=
  match phase with
  | .connecting => 3
  | .opening => 2
  | .awaitingStatus => 1
  | _ => 0

def ServePhase.rank (phase : ServePhase) : Nat :=
  match phase with
  | .waiting => 4
  | .accepted => 3
  | .dialing _ => 2
  | .ready => 1
  | _ => 0

namespace ForwardedStream

variable {stream stream' : ForwardedStream}

structure Alive (stream : ForwardedStream) : Prop where
  cut : stream.cut = false
  refusing : ∀ error, stream.server.phase ≠ .refusing error
  appToClient : stream.appToClient.broken = false
  clientToApp : stream.clientToApp.broken = false
  clientToServer : stream.clientToServer.broken = false
  serverToClient : stream.serverToClient.broken = false
  serverToService : stream.serverToService.broken = false
  serviceToServer : stream.serviceToServer.broken = false

def Dialed (task : StreamTask) : Prop :=
  match task.phase with
  | .ready | .relaying _ _ | .finished _ => task.remote.isSome = true
  | _ => True

theorem dialed_step {task task' : StreamTask} {halves halves' : Halves UInt8} {action : ServeAction}
    (h : Dialed task) (hstep : task.step halves action = some (task', halves')) : Dialed task' := by
  rcases task with ⟨phase, remote⟩
  unfold StreamTask.step at hstep
  dsimp only at hstep
  split at hstep
  . split at hstep
    . cases hstep
    . cases hstep
      trivial
  . split at hstep
    . cases hstep
    . cases hstep
      trivial
  . simp only [Option.map_eq_some_iff, Prod.exists] at hstep
    rcases hstep with ⟨result, _, _, heq⟩
    split at heq
    . cases heq
      trivial
    . cases heq
      trivial
  . cases hstep
    rfl
  . cases hstep
    trivial
  . cases hstep
    trivial
  . cases hstep
    trivial
  . simp only [Option.map_eq_some_iff, Prod.mk.injEq] at hstep
    rcases hstep with ⟨_, _, rfl, _⟩
    exact h
  . simp only [Option.map_eq_some_iff, Prod.mk.injEq] at hstep
    rcases hstep with ⟨_, _, rfl, _⟩
    trivial
  . simp only [Option.map_eq_some_iff, Prod.mk.injEq, Prod.exists] at hstep
    rcases hstep with ⟨_, _, _, rfl, _⟩
    exact h
  . simp only [Option.map_eq_some_iff, Prod.mk.injEq, Prod.exists] at hstep
    rcases hstep with ⟨_, _, _, rfl, _⟩
    exact h
  . simp only [Option.map_eq_some_iff, Prod.mk.injEq] at hstep
    rcases hstep with ⟨_, _, rfl, _⟩
    exact h
  . split at hstep
    . cases hstep
    . cases hstep
      trivial
  . cases hstep

theorem dialed_of_reachable (h : streamSystem.Reachable stream) : Dialed stream.server := by
  apply h.invariant
  . rintro _ ⟨port, rfl⟩
    trivial
  . intro s s' action hs hstep
    change s.step action = some s' at hstep
    cases action with
    | app action =>
      simp only [ForwardedStream.step, Option.map_eq_some_iff, Prod.exists] at hstep
      rcases hstep with ⟨_, _, _, rfl⟩
      exact hs
    | service action =>
      simp only [ForwardedStream.step] at hstep
      split at hstep
      . cases hstep
      . simp only [Option.map_eq_some_iff, Prod.exists] at hstep
        rcases hstep with ⟨_, _, _, rfl⟩
        exact hs
    | client action =>
      simp only [ForwardedStream.step, Option.map_eq_some_iff, Prod.exists] at hstep
      rcases hstep with ⟨_, _, _, rfl⟩
      exact hs
    | server action =>
      simp only [ForwardedStream.step, Option.map_eq_some_iff, Prod.exists] at hstep
      rcases hstep with ⟨_, _, hphase, rfl⟩
      exact dialed_step hs hphase
    | breakTunnel =>
      cases hstep
      exact hs

def rank (stream : ForwardedStream) : Nat :=
  stream.client.rank + stream.server.phase.rank

structure Going (origin stream : ForwardedStream) : Prop where
  reachable : streamSystem.Reachable stream
  alive : Alive stream
  appSent : stream.appToClient.sent = origin.appToClient.sent
  appEnded : stream.appToClient.ended = origin.appToClient.ended
  serviceSent : stream.serviceToServer.sent = origin.serviceToServer.sent
  serviceEnded : stream.serviceToServer.ended = origin.serviceToServer.ended

variable {origin : ForwardedStream} {action : StreamAction}

theorem sources_of_step (h : Sound stream) (hstep : stream.step action = some stream')
    (hforwards : action.forwards = true)
    : stream'.appToClient.sent = stream.appToClient.sent
        ∧ stream'.appToClient.ended = stream.appToClient.ended
        ∧ stream'.serviceToServer.sent = stream.serviceToServer.sent
        ∧ stream'.serviceToServer.ended = stream.serviceToServer.ended := by
  have hread : ∀ {output input output' input' : Pipe UInt8} {action : EndAction},
      StreamAction.forwards (.app action) = true →
      action.step output input = some (output', input') → output' = output := by
    intro output input output' input' action hforwards haction
    cases action with
    | receive n =>
      simp only [EndAction.step, Option.map_eq_some_iff, Prod.mk.injEq, Prod.exists] at haction
      rcases haction with ⟨_, _, _, rfl, _⟩
      rfl
    | receiveEnd =>
      simp only [EndAction.step, Option.map_eq_some_iff, Prod.mk.injEq] at haction
      rcases haction with ⟨_, _, rfl, _⟩
      rfl
    | _ => cases hforwards
  cases action with
  | app action =>
    simp only [ForwardedStream.step, Option.map_eq_some_iff, Prod.exists] at hstep
    rcases hstep with ⟨_, _, haction, rfl⟩
    cases hread hforwards haction
    exact ⟨rfl, rfl, rfl, rfl⟩
  | service action =>
    simp only [ForwardedStream.step] at hstep
    split at hstep
    . cases hstep
    . simp only [Option.map_eq_some_iff, Prod.exists] at hstep
      rcases hstep with ⟨_, _, haction, rfl⟩
      have hforwards' : StreamAction.forwards (.app action) = true := by
        cases action <;> first | rfl | cases hforwards
      cases hread hforwards' haction
      exact ⟨rfl, rfl, rfl, rfl⟩
  | client action =>
    simp only [ForwardedStream.step, Option.map_eq_some_iff, Prod.exists] at hstep
    rcases hstep with ⟨_, _, hphase, rfl⟩
    have hleft := (h.client.step hphase).2.leftIn
    exact ⟨hleft.sent, hleft.ended, rfl, rfl⟩
  | server action =>
    simp only [ForwardedStream.step, Option.map_eq_some_iff, Prod.exists] at hstep
    rcases hstep with ⟨_, _, hphase, rfl⟩
    have hleft := (h.server.step hphase).2.leftIn
    exact ⟨rfl, rfl, hleft.sent, hleft.ended⟩
  | breakTunnel => cases hforwards

theorem Going.run {actions : List StreamAction} (h : Going origin stream)
    (hrun : forwardingSystem.Run stream actions stream') (halive : Alive stream')
    : Going origin stream' := by
  have hsources : Sound stream' ∧ streamSystem.Reachable stream'
      ∧ stream'.appToClient.sent = stream.appToClient.sent
      ∧ stream'.appToClient.ended = stream.appToClient.ended
      ∧ stream'.serviceToServer.sent = stream.serviceToServer.sent
      ∧ stream'.serviceToServer.ended = stream.serviceToServer.ended := by
    clear halive
    induction hrun with
    | nil => exact ⟨sound_of_reachable h.reachable, h.reachable, rfl, rfl, rfl, rfl⟩
    | snoc _ hstep ih =>
      rcases ih with ⟨hsound, hreachable, h1, h2, h3, h4⟩
      rcases sources_of_step hsound hstep.1 hstep.2 with ⟨h1', h2', h3', h4'⟩
      exact ⟨hsound.step hstep.1, hreachable.step hstep.1, h1'.trans h1, h2'.trans h2, h3'.trans h3,
        h4'.trans h4⟩
  rcases hsources with ⟨_, hreachable, h1, h2, h3, h4⟩
  exact ⟨hreachable, halive, h1.trans h.appSent, h2.trans h.appEnded, h3.trans h.serviceSent,
    h4.trans h.serviceEnded⟩

theorem exists_readFrame? {β : Type} {reader : Reader String β} {pipe : Pipe UInt8} {value : β}
    {b : UInt8} {rest : List UInt8} (hreceived : pipe.received = []) (hsent : pipe.sent = b :: rest)
    (hrun : reader.run [b] = .ok (value, []))
    : ∃ pipe', readFrame? reader pipe = some (.ok value, pipe') ∧ pipe'.broken = pipe.broken := by
  have hunread : pipe.unread = b :: rest := by rw [Pipe.unread, hreceived, hsent]; rfl
  simp [readFrame?, Pipe.receive?, hunread, hrun, Except.map]

theorem Sound.sent_of_opened (h : Sound stream) (hcut : stream.cut = false)
    (hconnecting : stream.client ≠ .connecting) (hopening : stream.client ≠ .opening)
    : ∃ rest, stream.clientToServer.sent = 0 :: rest := by
  have hclient := h.client
  cases hphase : stream.client with
  | connecting => exact absurd hphase hconnecting
  | opening => exact absurd hphase hopening
  | awaitingStatus =>
    rw [hphase] at hclient
    exact ⟨[], hclient.2.2.1.sent⟩
  | relaying leftToRight rightToLeft =>
    rw [hphase] at hclient
    exact Held.sent_right hclient
  | finished stats =>
    rw [hphase] at hclient
    rcases hclient.1.1.2 with ⟨passed, _, hsent⟩
    exact ⟨passed, hsent⟩
  | failed error => simp [cut, hphase, ForwardPhase.hasFailed] at hcut

theorem hasFailed_of_cut (h : stream.cut = false)
    : stream.client.hasFailed = false ∧ stream.server.phase.hasFailed = false := by
  simpa [cut] using h

theorem exists_client_setup (h : Going origin stream)
    (hclient : stream.client = .connecting ∨ stream.client = .opening)
    : ∃ action stream', forwardingSystem.step stream action stream' ∧ Alive stream'
        ∧ stream'.rank < stream.rank := by
  have hserver := (hasFailed_of_cut h.alive.cut).2
  rcases hclient with hclient | hclient
  . refine ⟨.client .connected, { stream with client := .opening }, ⟨?_, rfl⟩, ?_, ?_⟩
    . simp [streamSystem, step, hclient, ForwardPhase.step, clientHalves]
    . exact { h.alive with cut := hserver }
    . simp [rank, hclient, ForwardPhase.rank]
  . have hheld := (sound_of_reachable h.reachable).client
    rw [hclient] at hheld
    rcases Pipe.exists_send? hheld.2.2.1.ended openMarker with ⟨clientToServer, hsend⟩
    refine ⟨.client .writeOpen, { stream with client := .awaitingStatus, clientToServer }, ⟨?_, rfl⟩, ?_, ?_⟩
    . simp only [clientHalves] at hsend
      simp [streamSystem, step, hclient, ForwardPhase.step, clientHalves, hsend]
    . have hbroken := (Pipe.send?_eq_some hsend).2.2.2.1
      exact { h.alive with cut := hserver, clientToServer := hbroken.trans h.alive.clientToServer }
    . simp [rank, hclient, ForwardPhase.rank]

theorem exists_server_setup (h : Going origin stream) (hconnecting : stream.client ≠ .connecting)
    (hopening : stream.client ≠ .opening) (hserver : stream.server.phase.relayPhase matches .setup _ _)
    : ∃ action stream', forwardingSystem.step stream action stream' ∧ Alive stream'
        ∧ stream'.rank < stream.rank := by
  have hsound := sound_of_reachable h.reachable
  have hclient := (hasFailed_of_cut h.alive.cut).1
  rcases hsound.sent_of_opened h.alive.cut hconnecting hopening with ⟨rest, hsent⟩
  rcases hserver' : stream.server with ⟨phase, remote⟩
  have hheld := hsound.server
  rw [hserver'] at hheld
  cases phase with
  | waiting =>
    have hunread : stream.clientToServer.unread ≠ [] := by
      have hreceived : stream.clientToServer.received = [] := hheld.2.2.2.received
      rw [Pipe.unread, hreceived, hsent]
      simp
    refine ⟨.server .accept, { stream with server := ⟨.accepted, remote⟩ }, ⟨?_, rfl⟩, ?_, ?_⟩
    . simp [streamSystem, step, hserver', StreamTask.step, serverHalves, hunread]
    . exact { h.alive with cut := by simp [cut, hclient, ServePhase.hasFailed], refusing := by simp }
    . simp [rank, hserver', ServePhase.rank]
  | accepted =>
    have hrun : (Frames.readTcpForwardOpen : Reader String Unit).run [0] = .ok ((), []) :=
      Frames.run_readTcpForwardOpen.mpr rfl
    rcases exists_readFrame? hheld.2.2.2.received hsent hrun with ⟨clientToServer, hread, hbroken⟩
    refine ⟨.server (.readOpen false false),
      { stream with server := ⟨.dialing .ipv4, remote⟩, clientToServer }, ⟨?_, rfl⟩, ?_, ?_⟩
    . simp only [serverHalves] at hread
      simp [streamSystem, step, hserver', StreamTask.step, serverHalves, hread]
    . exact { h.alive with
        cut := by simp [cut, hclient, ServePhase.hasFailed]
        refusing := by simp
        clientToServer := hbroken.trans h.alive.clientToServer }
    . simp [rank, hserver', ServePhase.rank]
  | dialing address =>
    refine ⟨.server (.dial .connected), { stream with server := ⟨.ready, some address⟩ }, ⟨?_, rfl⟩, ?_, ?_⟩
    . simp [streamSystem, step, hserver', StreamTask.step, serverHalves]
    . exact { h.alive with cut := by simp [cut, hclient, ServePhase.hasFailed], refusing := by simp }
    . simp [rank, hserver', ServePhase.rank]
  | ready =>
    rcases Pipe.exists_send? hheld.2.2.1.ended (statusFrame .ready) with ⟨serverToClient, hsend⟩
    refine ⟨.server (.writeStatus false false),
      { stream with server := ⟨.relaying Copy.start Copy.start, remote⟩, serverToClient }, ⟨?_, rfl⟩, ?_, ?_⟩
    . simp only [serverHalves] at hsend
      simp [streamSystem, step, hserver', StreamTask.step, serverHalves, hsend]
    . have hbroken := (Pipe.send?_eq_some hsend).2.2.2.1
      exact { h.alive with
        cut := by simp [cut, hclient, ServePhase.hasFailed]
        refusing := by simp
        serverToClient := hbroken.trans h.alive.serverToClient }
    . simp [rank, hserver', ServePhase.rank]
  | refusing error => exact absurd (by rw [hserver']) (h.alive.refusing error)
  | relaying leftToRight rightToLeft => simp [hserver', ServePhase.relayPhase] at hserver
  | finished stats => simp [hserver', ServePhase.relayPhase] at hserver
  | rejected => simp [hserver', ServePhase.relayPhase] at hserver
  | failed error => simp [hserver', ServePhase.relayPhase] at hserver

theorem exists_client_status (h : Going origin stream) (hclient : stream.client = .awaitingStatus)
    (hserver : ∃ rest, stream.serverToClient.sent = 0 :: rest)
    : ∃ action stream', forwardingSystem.step stream action stream' ∧ Alive stream'
        ∧ stream'.rank < stream.rank := by
  have hheld := (sound_of_reachable h.reachable).client
  rw [hclient] at hheld
  rcases hserver with ⟨rest, hsent⟩
  have hrun : (Frames.readTcpForwardStatus : Reader String TcpForwardStatus).run [0] = .ok (.ready, []) :=
    Frames.run_readTcpForwardStatus.mpr rfl
  rcases exists_readFrame? hheld.2.2.2.received hsent hrun with ⟨serverToClient, hread, hbroken⟩
  refine ⟨.client (.readStatus false false),
    { stream with client := .relaying Copy.start Copy.start, serverToClient }, ⟨?_, rfl⟩, ?_, ?_⟩
  . simp only [clientHalves] at hread
    simp [streamSystem, step, hclient, ForwardPhase.step, clientHalves, hread]
  . exact { h.alive with
      cut := (hasFailed_of_cut h.alive.cut).2
      serverToClient := hbroken.trans h.alive.serverToClient }
  . simp [rank, hclient, ForwardPhase.rank]

def Relays (phase : RelayPhase UInt8) : Prop :=
  match phase with
  | .relaying _ _ | .finished _ _ => True
  | _ => False

theorem sent_of_relays {phase : RelayPhase UInt8} {skip lead : List UInt8} {halves : Halves UInt8}
    (h : phase.Held skip lead halves) (hrelays : Relays phase)
    : ∃ passed, halves.rightOut.sent = lead ++ passed := by
  cases phase with
  | relaying leftToRight rightToLeft => exact h.sent_right
  | finished leftToRight rightToLeft =>
    rcases h.1.1.2 with ⟨passed, _, hsent⟩
    exact ⟨passed, hsent⟩
  | setup skip' lead' => cases hrelays
  | failed => cases hrelays

theorem exists_setup (h : Going origin stream)
    (hsetup : ¬ (Relays stream.client.relayPhase ∧ Relays stream.server.phase.relayPhase))
    : ∃ action stream', forwardingSystem.step stream action stream' ∧ Alive stream'
        ∧ stream'.rank < stream.rank := by
  rcases hasFailed_of_cut h.alive.cut with ⟨hclientAlive, hserverAlive⟩
  by_cases hconnecting : stream.client = .connecting
  . exact exists_client_setup h (Or.inl hconnecting)
  by_cases hopening : stream.client = .opening
  . exact exists_client_setup h (Or.inr hopening)
  by_cases hserver : Relays stream.server.phase.relayPhase
  . have hclient : stream.client = .awaitingStatus := by
      cases hphase : stream.client with
      | connecting => exact absurd hphase hconnecting
      | opening => exact absurd hphase hopening
      | awaitingStatus => rfl
      | relaying leftToRight rightToLeft => exact absurd ⟨by simp [hphase, ForwardPhase.relayPhase, Relays], hserver⟩ hsetup
      | finished stats => exact absurd ⟨by simp [hphase, ForwardPhase.relayPhase, Relays], hserver⟩ hsetup
      | failed error => simp [hphase, ForwardPhase.hasFailed] at hclientAlive
    have hsent := sent_of_relays (sound_of_reachable h.reachable).server hserver
    exact exists_client_status h hclient hsent
  . apply exists_server_setup h hconnecting hopening
    cases hphase : stream.server.phase with
    | relaying leftToRight rightToLeft => simp [hphase, ServePhase.relayPhase, Relays] at hserver
    | finished stats => simp [hphase, ServePhase.relayPhase, Relays] at hserver
    | rejected => simp [hphase, ServePhase.hasFailed] at hserverAlive
    | failed error => simp [hphase, ServePhase.hasFailed] at hserverAlive
    | _ => rfl

theorem exists_relays (h : Going origin stream)
    : ∃ actions stream', forwardingSystem.Run stream actions stream' ∧ Going origin stream'
        ∧ Relays stream'.client.relayPhase ∧ Relays stream'.server.phase.relayPhase := by
  induction hrank : stream.rank using Nat.strong_induction_on generalizing stream with
  | _ n ih =>
    by_cases hsetup : Relays stream.client.relayPhase ∧ Relays stream.server.phase.relayPhase
    . exact ⟨[], stream, System.Run.nil _, h, hsetup.1, hsetup.2⟩
    . rcases exists_setup h hsetup with ⟨action, stream', hstep, halive, hlt⟩
      have hrun := System.Run.single hstep
      rw [hrank] at hlt
      rcases ih _ hlt (h.run hrun halive) rfl with ⟨actions, stream'', hrest, hgoing, hrelays⟩
      exact ⟨_, stream'', System.Run.cons hstep hrest, hgoing, hrelays⟩

/-! Each loop catches up with its writer -/

section

variable {leftToRight rightToLeft : Copy UInt8}

theorem exists_client_up (h : Sound stream) (hrelays : Relays stream.client.relayPhase)
    (hbroken : stream.appToClient.broken = false)
    : ∃ actions client appToClient clientToServer,
        forwardingSystem.Run stream actions { stream with client, appToClient, clientToServer }
          ∧ Relays client.relayPhase
          ∧ Copy.Pumped [] openMarker stream.appToClient stream.clientToServer appToClient clientToServer := by
  have hheld := h.client
  cases hphase : stream.client with
  | relaying leftToRight rightToLeft =>
    rw [hphase] at hheld
    rcases Copy.exists_pumped hheld.1 hbroken with ⟨actions, copy, leftIn, rightOut, hrun, hpumped⟩
    let f : Copy UInt8 × Pipe UInt8 × Pipe UInt8 → ForwardedStream := fun s =>
      { stream with
        client := .relaying s.1 rightToLeft, appToClient := s.2.1, clientToServer := s.2.2 }
    have hmap : forwardingSystem.Run (f (leftToRight, stream.appToClient, stream.clientToServer))
        (actions.map fun action => .client (.leftToRight action)) (f (copy, leftIn, rightOut)) := by
      apply System.Run.map _ hrun
      intro s action s' hstep
      simp only [Copy.system] at hstep
      refine ⟨?_, rfl⟩
      simp [streamSystem, step, f, ForwardPhase.step, copyLeftToRight, clientHalves, hstep]
    rw [show f (leftToRight, stream.appToClient, stream.clientToServer) = stream by simp [f, ← hphase]]
      at hmap
    exact ⟨_, _, _, _, hmap, trivial, hpumped⟩
  | finished stats =>
    rw [hphase] at hheld
    refine ⟨[], .finished stats, stream.appToClient, stream.clientToServer, ?_, trivial,
      Copy.Pumped.of_delivers hheld.1.1 hheld.1.2⟩
    rw [← hphase]
    exact System.Run.nil _
  | _ => simp [hphase, ForwardPhase.relayPhase, Relays] at hrelays

theorem exists_client_down (h : Sound stream) (hrelays : Relays stream.client.relayPhase)
    (hbroken : stream.serverToClient.broken = false)
    : ∃ actions client serverToClient clientToApp,
        forwardingSystem.Run stream actions { stream with client, serverToClient, clientToApp }
          ∧ Relays client.relayPhase
          ∧ Copy.Pumped (statusFrame .ready) [] stream.serverToClient stream.clientToApp serverToClient
              clientToApp := by
  have hheld := h.client
  cases hphase : stream.client with
  | relaying leftToRight rightToLeft =>
    rw [hphase] at hheld
    rcases Copy.exists_pumped hheld.2 hbroken with ⟨actions, copy, rightIn, leftOut, hrun, hpumped⟩
    let f : Copy UInt8 × Pipe UInt8 × Pipe UInt8 → ForwardedStream := fun s =>
      { stream with
        client := .relaying leftToRight s.1, serverToClient := s.2.1, clientToApp := s.2.2 }
    have hmap : forwardingSystem.Run (f (rightToLeft, stream.serverToClient, stream.clientToApp))
        (actions.map fun action => .client (.rightToLeft action)) (f (copy, rightIn, leftOut)) := by
      apply System.Run.map _ hrun
      intro s action s' hstep
      simp only [Copy.system] at hstep
      refine ⟨?_, rfl⟩
      simp [streamSystem, step, f, ForwardPhase.step, copyRightToLeft, clientHalves, hstep]
    rw [show f (rightToLeft, stream.serverToClient, stream.clientToApp) = stream by simp [f, ← hphase]]
      at hmap
    exact ⟨_, _, _, _, hmap, trivial, hpumped⟩
  | finished stats =>
    rw [hphase] at hheld
    refine ⟨[], .finished stats, stream.serverToClient, stream.clientToApp, ?_, trivial,
      Copy.Pumped.of_delivers hheld.2.1.1 hheld.2.1.2⟩
    rw [← hphase]
    exact System.Run.nil _
  | _ => simp [hphase, ForwardPhase.relayPhase, Relays] at hrelays

theorem exists_server_up (h : Sound stream) (hrelays : Relays stream.server.phase.relayPhase)
    (hbroken : stream.clientToServer.broken = false)
    : ∃ actions phase clientToServer serverToService,
        forwardingSystem.Run stream actions
            { stream with server := { stream.server with phase }, clientToServer, serverToService }
          ∧ Relays phase.relayPhase
          ∧ Copy.Pumped openMarker [] stream.clientToServer stream.serverToService clientToServer
              serverToService := by
  have hheld := h.server
  rcases hserver : stream.server with ⟨phase, remote⟩
  rw [hserver] at hheld hrelays
  cases phase with
  | relaying leftToRight rightToLeft =>
    rcases Copy.exists_pumped hheld.2 hbroken with ⟨actions, copy, rightIn, leftOut, hrun, hpumped⟩
    let f : Copy UInt8 × Pipe UInt8 × Pipe UInt8 → ForwardedStream := fun s =>
      { stream with
        server := { phase := .relaying leftToRight s.1, remote }
        clientToServer := s.2.1, serverToService := s.2.2 }
    have hmap : forwardingSystem.Run (f (rightToLeft, stream.clientToServer, stream.serverToService))
        (actions.map fun action => .server (.rightToLeft action)) (f (copy, rightIn, leftOut)) := by
      apply System.Run.map _ hrun
      intro s action s' hstep
      simp only [Copy.system] at hstep
      refine ⟨?_, rfl⟩
      simp [streamSystem, step, f, StreamTask.step, copyRightToLeft, serverHalves, hstep]
    rw [show f (rightToLeft, stream.clientToServer, stream.serverToService) = stream
      by simp [f, ← hserver]] at hmap
    exact ⟨_, _, _, _, hmap, trivial, hpumped⟩
  | finished stats =>
    refine ⟨[], .finished stats, stream.clientToServer, stream.serverToService, ?_, trivial,
      Copy.Pumped.of_delivers hheld.2.1.1 hheld.2.1.2⟩
    simp only [← hserver]
    exact System.Run.nil _
  | _ => simp [ServePhase.relayPhase, Relays] at hrelays

theorem exists_server_down (h : Sound stream) (hrelays : Relays stream.server.phase.relayPhase)
    (hbroken : stream.serviceToServer.broken = false)
    : ∃ actions phase serviceToServer serverToClient,
        forwardingSystem.Run stream actions
            { stream with server := { stream.server with phase }, serviceToServer, serverToClient }
          ∧ Relays phase.relayPhase
          ∧ Copy.Pumped [] (statusFrame .ready) stream.serviceToServer stream.serverToClient
              serviceToServer serverToClient := by
  have hheld := h.server
  rcases hserver : stream.server with ⟨phase, remote⟩
  rw [hserver] at hheld hrelays
  cases phase with
  | relaying leftToRight rightToLeft =>
    rcases Copy.exists_pumped hheld.1 hbroken with ⟨actions, copy, leftIn, rightOut, hrun, hpumped⟩
    let f : Copy UInt8 × Pipe UInt8 × Pipe UInt8 → ForwardedStream := fun s =>
      { stream with
        server := { phase := .relaying s.1 rightToLeft, remote }
        serviceToServer := s.2.1, serverToClient := s.2.2 }
    have hmap : forwardingSystem.Run (f (leftToRight, stream.serviceToServer, stream.serverToClient))
        (actions.map fun action => .server (.leftToRight action)) (f (copy, leftIn, rightOut)) := by
      apply System.Run.map _ hrun
      intro s action s' hstep
      simp only [Copy.system] at hstep
      refine ⟨?_, rfl⟩
      simp [streamSystem, step, f, StreamTask.step, copyLeftToRight, serverHalves, hstep]
    rw [show f (leftToRight, stream.serviceToServer, stream.serverToClient) = stream
      by simp [f, ← hserver]] at hmap
    exact ⟨_, _, _, _, hmap, trivial, hpumped⟩
  | finished stats =>
    refine ⟨[], .finished stats, stream.serviceToServer, stream.serverToClient, ?_, trivial,
      Copy.Pumped.of_delivers hheld.1.1 hheld.1.2⟩
    simp only [← hserver]
    exact System.Run.nil _
  | _ => simp [ServePhase.relayPhase, Relays] at hrelays

end

/-! Each end reads what there is -/

theorem exists_service_read (h : Going origin stream) (hserver : Relays stream.server.phase.relayPhase)
    : ∃ actions serverToService,
        forwardingSystem.Run stream actions { stream with serverToService }
          ∧ serverToService.received = stream.serverToService.sent
          ∧ serverToService.finished = stream.serverToService.ended
          ∧ serverToService.broken = false := by
  have hremote : stream.server.remote.isSome = true := by
    have hdialed := dialed_of_reachable h.reachable
    rcases hserver' : stream.server with ⟨phase, remote⟩
    rw [hserver'] at hdialed hserver
    cases phase <;> cases hserver <;> exact hdialed
  rcases Pipe.exists_read h.alive.serverToService
    with ⟨actions, pipe, hrun, _, hreceived, hfinished, hbroken'⟩
  let f : Pipe UInt8 → ForwardedStream := fun serverToService => { stream with serverToService }
  have hmap : forwardingSystem.Run (f stream.serverToService)
      (actions.map fun action => .service (EndAction.ofRead action)) (f pipe) := by
    apply System.Run.map _ hrun
    intro s action s' hstep
    have hremote' : stream.server.remote ≠ none := Option.isSome_iff_ne_none.mp hremote
    cases action with
    | receive n =>
      simp only [Pipe.readSystem, Option.map_eq_some_iff, Prod.exists] at hstep
      rcases hstep with ⟨_, _, hreceive, rfl⟩
      refine ⟨?_, rfl⟩
      simp [streamSystem, step, f, hremote', EndAction.ofRead, EndAction.step, hreceive]
    | receiveEnd =>
      simp only [Pipe.readSystem] at hstep
      refine ⟨?_, rfl⟩
      simp [streamSystem, step, f, hremote', EndAction.ofRead, EndAction.step, hstep]
  exact ⟨_, pipe, hmap, hreceived, hfinished, hbroken'⟩

theorem exists_app_read (h : Going origin stream)
    : ∃ actions clientToApp,
        forwardingSystem.Run stream actions { stream with clientToApp }
          ∧ clientToApp.received = stream.clientToApp.sent
          ∧ clientToApp.finished = stream.clientToApp.ended
          ∧ clientToApp.broken = false := by
  rcases Pipe.exists_read h.alive.clientToApp
    with ⟨actions, pipe, hrun, _, hreceived, hfinished, hbroken'⟩
  let f : Pipe UInt8 → ForwardedStream := fun clientToApp => { stream with clientToApp }
  have hmap : forwardingSystem.Run (f stream.clientToApp)
      (actions.map fun action => .app (EndAction.ofRead action)) (f pipe) := by
    apply System.Run.map _ hrun
    intro s action s' hstep
    cases action with
    | receive n =>
      simp only [Pipe.readSystem, Option.map_eq_some_iff, Prod.exists] at hstep
      rcases hstep with ⟨_, _, hreceive, rfl⟩
      refine ⟨?_, rfl⟩
      simp [streamSystem, step, f, EndAction.ofRead, EndAction.step, hreceive]
    | receiveEnd =>
      simp only [Pipe.readSystem] at hstep
      refine ⟨?_, rfl⟩
      simp [streamSystem, step, f, EndAction.ofRead, EndAction.step, hstep]
  exact ⟨_, pipe, hmap, hreceived, hfinished, hbroken'⟩

theorem hasFailed_of_relays {client : ForwardPhase} {phase : ServePhase}
    (hclient : Relays client.relayPhase) (hserver : Relays phase.relayPhase)
    : (client.hasFailed || phase.hasFailed) = false ∧ ∀ error, phase ≠ .refusing error := by
  constructor
  . cases client <;> cases hclient
    all_goals cases phase <;> cases hserver
    all_goals rfl
  . rintro error rfl
    cases hserver

theorem exists_up (h : Going origin stream) (hclient : Relays stream.client.relayPhase)
    (hserver : Relays stream.server.phase.relayPhase)
    : ∃ actions stream', forwardingSystem.Run stream actions stream' ∧ Going origin stream'
        ∧ Relays stream'.client.relayPhase ∧ Relays stream'.server.phase.relayPhase
        ∧ stream'.serverToService.received = origin.appToClient.sent
        ∧ stream'.serverToService.finished = origin.appToClient.ended := by
  rcases exists_client_up (sound_of_reachable h.reachable) hclient h.alive.appToClient
    with ⟨_, client, appToClient, clientToServer, hrun₁, hclient', hpumped₁⟩
  have hgoing₁ := h.run hrun₁ { h.alive with
    cut := (hasFailed_of_relays hclient' hserver).1
    appToClient := hpumped₁.inputBroken.trans h.alive.appToClient
    clientToServer := hpumped₁.outputBroken.trans h.alive.clientToServer }
  rcases exists_server_up (sound_of_reachable hgoing₁.reachable) hserver hgoing₁.alive.clientToServer
    with ⟨_, phase, clientToServer', serverToService, hrun₂, hserver', hpumped₂⟩
  have hrelays := hasFailed_of_relays hclient' hserver'
  have hgoing₂ := hgoing₁.run hrun₂ { hgoing₁.alive with
    cut := hrelays.1
    refusing := hrelays.2
    clientToServer := hpumped₂.inputBroken.trans hgoing₁.alive.clientToServer
    serverToService := hpumped₂.outputBroken.trans hgoing₁.alive.serverToService }
  rcases exists_service_read hgoing₂ hserver'
    with ⟨_, serverToService', hrun₃, hreceived, hfinished, hbroken⟩
  have hgoing₃ := hgoing₂.run hrun₃ { hgoing₂.alive with serverToService := hbroken }
  refine ⟨_, _, (hrun₁.append hrun₂).append hrun₃, hgoing₃, hclient', hserver', ?_, ?_⟩
  . rcases hpumped₁.passed with ⟨passed, hsent, hopened⟩
    rcases hpumped₂.passed with ⟨passed', hopened', hsent'⟩
    rw [hopened, List.append_cancel_left_eq] at hopened'
    rw [← h.appSent, hsent, hopened', ← hsent']
    exact hreceived
  . rw [← h.appEnded]
    refine hfinished.trans (Bool.eq_iff_iff.mpr ⟨?_, ?_⟩)
    . intro hended
      have hdelivers := (sound_of_reachable hgoing₂.reachable).up_delivers hrelays.1 hended
      exact hpumped₁.reader.ended ▸ (appToClient.complete hdelivers.1).1
    . intro hended
      exact hpumped₂.ended (hpumped₁.ended hended)

theorem exists_down (h : Going origin stream) (hclient : Relays stream.client.relayPhase)
    (hserver : Relays stream.server.phase.relayPhase)
    : ∃ actions stream', forwardingSystem.Run stream actions stream' ∧ Going origin stream'
        ∧ stream'.clientToApp.received = origin.serviceToServer.sent
        ∧ stream'.clientToApp.finished = origin.serviceToServer.ended
        ∧ stream'.serverToService = stream.serverToService := by
  rcases exists_server_down (sound_of_reachable h.reachable) hserver h.alive.serviceToServer
    with ⟨_, phase, serviceToServer, serverToClient, hrun₁, hserver', hpumped₁⟩
  have hgoing₁ := h.run hrun₁ { h.alive with
    cut := (hasFailed_of_relays hclient hserver').1
    refusing := (hasFailed_of_relays hclient hserver').2
    serviceToServer := hpumped₁.inputBroken.trans h.alive.serviceToServer
    serverToClient := hpumped₁.outputBroken.trans h.alive.serverToClient }
  rcases exists_client_down (sound_of_reachable hgoing₁.reachable) hclient hgoing₁.alive.serverToClient
    with ⟨_, client, serverToClient', clientToApp, hrun₂, hclient', hpumped₂⟩
  have hrelays := hasFailed_of_relays hclient' hserver'
  have hgoing₂ := hgoing₁.run hrun₂ { hgoing₁.alive with
    cut := hrelays.1
    serverToClient := hpumped₂.inputBroken.trans hgoing₁.alive.serverToClient
    clientToApp := hpumped₂.outputBroken.trans hgoing₁.alive.clientToApp }
  rcases exists_app_read hgoing₂
    with ⟨_, clientToApp', hrun₃, hreceived, hfinished, hbroken⟩
  have hgoing₃ := hgoing₂.run hrun₃ { hgoing₂.alive with clientToApp := hbroken }
  refine ⟨_, _, (hrun₁.append hrun₂).append hrun₃, hgoing₃, ?_, ?_, rfl⟩
  . rcases hpumped₁.passed with ⟨passed, hsent, hready⟩
    rcases hpumped₂.passed with ⟨passed', hready', hsent'⟩
    rw [hready, List.append_cancel_left_eq] at hready'
    rw [← h.serviceSent, hsent, hready', ← hsent']
    exact hreceived
  . rw [← h.serviceEnded]
    refine hfinished.trans (Bool.eq_iff_iff.mpr ⟨?_, ?_⟩)
    . intro hended
      have hdelivers := (sound_of_reachable hgoing₂.reachable).down_delivers hrelays.1 hended
      exact hpumped₁.reader.ended ▸ (serviceToServer.complete hdelivers.1).1
    . intro hended
      exact hpumped₂.ended (hpumped₁.ended hended)

end ForwardedStream

open ForwardedStream in
theorem tunnel_delivers {stream : ForwardedStream} (hreachable : streamSystem.Reachable stream)
    (halive : stream.Alive)
    : ∃ actions stream', forwardingSystem.Run stream actions stream'
        ∧ stream'.up = { stream.up with received := stream.up.sent, finished := stream.up.ended }
        ∧ stream'.down
            =
          { stream.down with received := stream.down.sent, finished := stream.down.ended } := by
  have hgoing : Going stream stream := ⟨hreachable, halive, rfl, rfl, rfl, rfl⟩
  rcases exists_relays hgoing with ⟨_, _, hsetup, hgoing, hclient, hserver⟩
  rcases exists_up hgoing hclient hserver with ⟨_, _, hup, hgoing, hclient, hserver, hreceived, hfinished⟩
  rcases exists_down hgoing hclient hserver with ⟨_, stream', hdown, hgoing, hreceived', hfinished', hsame⟩
  refine ⟨_, stream', (hsetup.append hup).append hdown, ?_, ?_⟩
  . simp only [ForwardedStream.up, hgoing.alive.cut, halive.cut, hgoing.appSent, hgoing.appEnded, hsame,
      hreceived, hfinished]
  . simp only [ForwardedStream.down, hgoing.alive.cut, halive.cut, hgoing.serviceSent,
      hgoing.serviceEnded, hreceived', hfinished']

namespace ForwardedStream.Fixture

def requested : ForwardedStream :=
  { accepted 22 with
    appToClient := ((Pipe.empty.send? [1, 2, 3]).getD Pipe.empty).finish }

end ForwardedStream.Fixture

open ForwardedStream.Fixture in
theorem tunnel_delivers_requested
    : ∃ actions stream', forwardingSystem.Run requested actions stream'
        ∧ stream'.up = { requested.up with received := [1, 2, 3], finished := true }
        ∧ stream'.down = { requested.down with received := [], finished := false } := by
  apply tunnel_delivers
  . refine ⟨ForwardedStream.accepted 22, [.app (.send [1, 2, 3]), .app .finish], ⟨22, rfl⟩, ?_⟩
    exact System.Run.cons rfl (System.Run.single rfl)
  . exact ⟨rfl, by simp [requested, ForwardedStream.accepted], rfl, rfl, rfl, rfl, rfl, rfl⟩

end Attached
