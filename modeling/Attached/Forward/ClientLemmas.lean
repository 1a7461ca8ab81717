import Attached.Forward.Client
import Attached.Forward.StreamLemmas
import Attached.Library.SingleFlight

/-!
This module contains the proof that a client has at most one connection to the publisher, and that its
streams are served only on a connection that asked for their port and proved the capability.
-/

namespace Attached

open Forward

namespace ForwardClient

variable {Ticket : Type} {iroh : Iroh Ticket} {client client' : ForwardClient} {label : ClientLabel}
  {i j c d : Nat} {phase phase' : CallPhase}

/-! What the operations change -/

theorem phaseOf?_modify {calls : List ForwardCall} {f : ForwardCall → ForwardCall}
    (hphase : (calls[i]?).map ForwardCall.phase = some phase) (hf : ∀ call, (f call).phase = phase')
    : ((calls.modify i f)[j]?).map ForwardCall.phase
        =
      if i = j then some phase' else (calls[j]?).map ForwardCall.phase := by
  rw [List.getElem?_modify]
  split
  . next heq =>
    subst heq
    rcases Option.map_eq_some_iff.mp hphase with ⟨call, hcall, _⟩
    simp [hcall, hf]
  . simp

theorem phaseOf?_setPhase (hphase : client.phaseOf? i = some phase)
    : (client.setPhase i phase').phaseOf? j = if i = j then some phase' else client.phaseOf? j :=
  phaseOf?_modify hphase fun _ => rfl

theorem phaseOf?_failCall {error : String} {graceful : Nat → Bool × Bool}
    (hphase : client.phaseOf? i = some phase)
    : (client.failCall i error graceful).phaseOf? j
        =
      if i = j then some (.failed error) else client.phaseOf? j :=
  phaseOf?_modify hphase fun _ => rfl

theorem phaseOf?_connectCall (hphase : client.phaseOf? i = some phase)
    : (client.connectCall i c).phaseOf? j = if i = j then some (.connected c) else client.phaseOf? j :=
  phaseOf?_modify hphase fun _ => rfl

theorem phaseOf?_congr {calls : List ForwardCall} {f : ForwardCall → ForwardCall}
    (hf : ∀ call, (f call).phase = call.phase)
    : ((calls.modify i f)[j]?).map ForwardCall.phase = (calls[j]?).map ForwardCall.phase := by
  rw [List.getElem?_modify]
  cases calls[j]? with
  | none => rfl
  | some call =>
    simp only [Option.map_eq_map, Option.map_some, Option.some.injEq]
    split
    . exact hf call
    . rfl

@[simp]
theorem phaseOf?_setStream {stream : ForwardedStream}
    : (client.setStream i stream).phaseOf? j = client.phaseOf? j :=
  phaseOf?_congr fun _ => rfl

@[simp]
theorem phaseOf?_endServe {tasks : List Nat} {result : Except String Unit}
    {graceful : Nat → Bool × Bool}
    : (client.endServe c tasks result graceful).phaseOf? j = client.phaseOf? j := by
  simp only [phaseOf?, endServe, List.getElem?_mapIdx]
  cases client.calls[j]? with
  | none => rfl
  | some call =>
    simp only [Option.map_some, Option.some.injEq]
    split <;> rfl

theorem connections_updateConnection {f : ForwardConnection → ForwardConnection}
    : (client.updateConnection c f).connections[d]?
        =
      if c = d then (client.connections[d]?).map f else client.connections[d]? := by
  simp only [updateConnection, List.getElem?_modify]
  split <;> simp

/-! What a step is -/

inductive GoesOn : CallPhase → CallPhase → Prop where
  | fetched (host : HostConnection) : GoesOn .fetching (.connecting host false)
  | refetched (host refreshed : HostConnection) (error : String)
    : GoesOn (.refetching host error) (.connecting refreshed true)

inductive Moves (client : ForwardClient) : ForwardClient → Prop where
  | same : Moves client client
  | accepted (hlimit : client.tasks.length < maxStreams)
    : Moves client
        { client with
          calls := client.calls ++
            [{ phase := .waiting, stream := some (ForwardedStream.accepted client.port) }]
          tasks := client.tasks ++ [client.calls.length] }
  | joined (i : Nat) (stream : ForwardedStream) (hstream : client.streamOf? i = some stream)
      (hover : stream.client.over = true)
    : Moves client { client with tasks := client.tasks.erase i }
  | locked (i : Nat) (hphase : client.phaseOf? i = some .waiting)
      (hfree : ∀ j phase, client.phaseOf? j = some phase → phase.holdsLock = false)
      (hopen : client.openConnection = none)
    : Moves client (client.setPhase i .fetching)
  | reused (i c : Nat) (hphase : client.phaseOf? i = some .waiting)
      (hopen : client.openConnection = some c)
    : Moves client (client.connectCall i c)
  | goesOn (i : Nat) (phase phase' : CallPhase) (hphase : client.phaseOf? i = some phase)
      (hnext : GoesOn phase phase')
    : Moves client (client.setPhase i phase')
  | dialed (i : Nat) (host : HostConnection) (retry : Bool) (capability : Vector UInt8 32)
      (hphase : client.phaseOf? i = some (.connecting host retry))
    : Moves client
        { client.setPhase i (.requesting host retry client.connections.length) with
          connections := client.connections ++ [ForwardConnection.dialed capability] }
  | requested (i c : Nat) (host : HostConnection) (retry : Bool) (bytes : List UInt8)
      (hphase : client.phaseOf? i = some (.requesting host retry c))
      (hbytes : (Frames.writeTcpForwardRequest host.attachCapability client.port).run [] = (.ok (), bytes))
    : Moves client
        ((client.setPhase i (.awaitingReply host retry c)).updateConnection c
          fun connection => { connection with request := some bytes })
  | committed (i c : Nat) (host : HostConnection) (retry : Bool) (reply : List UInt8)
      (hphase : client.phaseOf? i = some (.awaitingReply host retry c))
      (hreply : (client.connections[c]?).bind ForwardConnection.reply = some reply)
      (hcheck : checkReply reply = .ok ())
    : Moves client { client.connectCall i c with current := some c }
  | refetching (i : Nat) (phase : CallPhase) (host : HostConnection) (error : String)
      (hphase : client.phaseOf? i = some phase) (hholds : phase.holdsLock = true)
    : Moves client ((client.dropPending phase.pending).setPhase i (.refetching host error))
  | failed (i : Nat) (phase : CallPhase) (error : String) (graceful : Nat → Bool × Bool)
      (hphase : client.phaseOf? i = some phase) (hholds : phase.holdsLock = true)
    : Moves client ((client.dropPending phase.pending).failCall i error graceful)
  | lost (c : Nat)
    : Moves client (client.updateConnection c fun connection => { connection with closed := true })
  | authorized (c : Nat) (connection : ForwardConnection)
      (hconnection : client.connections[c]? = some connection) (hphase : connection.phase = .authorizing)
    : Moves client
        (client.updateConnection c fun connection => { connection with phase := .authenticating })
  | served (c : Nat) (connection : ForwardConnection) (request rest : List UInt8) (port : UInt16)
      (hconnection : client.connections[c]? = some connection)
      (hrequest : connection.request = some request)
      (hport : (Frames.readTcpForwardRequest connection.capability : Reader String _).run request
        = .ok (port, rest))
    : Moves client
        (client.updateConnection c fun connection =>
          { connection with phase := .serving, port := some port, reply := some (statusFrame .ready) })
  | ended (c : Nat) (connection : ForwardConnection) (result : Except String Unit)
      (graceful : Nat → Bool × Bool) (hconnection : client.connections[c]? = some connection)
    : Moves client (client.endServe c connection.tasks result graceful)
  | joinedServe (c i : Nat) (stream : ForwardedStream) (hstream : client.streamOf? i = some stream)
      (hover : stream.server.phase.over = true)
    : Moves client
        (client.updateConnection c fun connection =>
          { connection with tasks := connection.tasks.erase i })
  | streamed (i : Nat) (phase : CallPhase) (stream stream' : ForwardedStream) (action : StreamAction)
      (hphase : client.phaseOf? i = some phase) (hstream : client.streamOf? i = some stream)
      (hallows : client.allows i phase action = true) (hstep : stream.step action = some stream')
    : Moves client ((client.setStream i stream').spawn i phase action)

theorem moves_of_openFailed {error : String} {graceful : Nat → Bool × Bool}
    (hphase : client.phaseOf? i = some phase)
    (h : client.openFailed i phase error graceful = some client') : Moves client client' := by
  have hmoves : ∀ {host : HostConnection} {retry : Bool}, phase.holdsLock = true →
      some (if retry then (client.dropPending phase.pending).failCall i error graceful
        else (client.dropPending phase.pending).setPhase i (.refetching host error)) = some client' →
      Moves client client' := by
    intro host retry hholds heq
    rw [Option.some.injEq] at heq
    subst heq
    split
    . exact .failed i phase error graceful hphase hholds
    . exact .refetching i phase host error hphase hholds
  unfold openFailed at h
  split at h
  . exact hmoves rfl h
  . exact hmoves rfl h
  . exact hmoves rfl h
  . cases h

theorem moves_of_step (h : client.step iroh label = some client') : Moves client client' := by
  rcases label with ⟨event, graceful⟩
  cases event with
  | accept =>
    simp only [ForwardClient.step] at h
    split at h
    . rw [Option.some.injEq] at h
      subst h
      split
      . next hlimit => exact .accepted hlimit
      . exact .same
    . cases h
  | joinTask i =>
    simp only [ForwardClient.step] at h
    split at h
    . next stream hstream =>
      split at h
      . next hover =>
        cases h
        exact .joined i stream hstream hover
      . cases h
    . cases h
  | lock i =>
    simp only [ForwardClient.step] at h
    split at h
    . next hphase =>
      split at h
      . cases h
      . next hfree =>
        split at h
        . next c hopen =>
          cases h
          exact .reused i c hphase hopen
        . next hopen =>
          cases h
          refine .locked i hphase ?_ hopen
          intro j phase hj
          rcases Option.map_eq_some_iff.mp hj with ⟨call, hcall, rfl⟩
          simp only [List.any_eq_true, not_exists, not_and, Bool.not_eq_true] at hfree
          exact hfree call (List.mem_of_getElem? hcall)
    . cases h
  | fetched i result =>
    simp only [ForwardClient.step] at h
    split at h
    . next host hphase =>
      cases h
      exact .goesOn i _ _ hphase (.fetched host)
    . next error hphase =>
      cases h
      exact .failed i _ error graceful hphase rfl
    . cases h
  | connect i now capability result =>
    simp only [ForwardClient.step] at h
    split at h
    . next host retry hphase =>
      split at h
      . cases h
        exact .dialed i host retry capability hphase
      . exact moves_of_openFailed hphase h
      . exact moves_of_openFailed hphase h
    . cases h
  | writeRequest i =>
    simp only [ForwardClient.step] at h
    split at h
    . next host retry c hphase =>
      split at h
      . next bytes hbytes =>
        cases h
        exact .requested i c host retry bytes hphase hbytes
      . exact moves_of_openFailed hphase h
    . cases h
  | readReply i =>
    simp only [ForwardClient.step] at h
    split at h
    . next host retry c hphase =>
      split at h
      . cases h
      . next reply hreply =>
        split at h
        . next hcheck =>
          cases h
          exact .committed i c host retry reply hphase hreply hcheck
        . exact moves_of_openFailed hphase h
    . cases h
  | openFails i error =>
    simp only [ForwardClient.step] at h
    split at h
    . next phase hphase => exact moves_of_openFailed hphase h
    . cases h
  | refetched i result =>
    simp only [ForwardClient.step] at h
    split at h
    . next error hphase =>
      cases h
      exact .failed i _ _ graceful hphase rfl
    . next host error refreshed hphase =>
      split at h
      . cases h
        exact .failed i _ _ graceful hphase rfl
      . cases h
        exact .goesOn i _ _ hphase (.refetched host refreshed error)
    . cases h
  | setupTimesOut i =>
    simp only [ForwardClient.step] at h
    split at h
    . next phase hphase =>
      split at h
      . next hholds =>
        cases h
        exact .failed i phase _ graceful hphase hholds
      . cases h
    . cases h
  | lose c =>
    cases h
    exact .lost c
  | authorize c result =>
    simp only [ForwardClient.step] at h
    split at h
    . next connection hconnection =>
      split at h
      . next hphase =>
        cases h
        exact .authorized c connection hconnection hphase
      . cases h
        exact .same
      . cases h
        exact .ended c connection _ graceful hconnection
      . cases h
        exact .ended c connection _ graceful hconnection
      . cases h
    . cases h
  | authenticate c =>
    simp only [ForwardClient.step] at h
    split at h
    . next connection hconnection =>
      split at h
      . next request _ hrequest =>
        split at h
        . next port rest hport =>
          cases h
          exact .served c connection request rest port hconnection hrequest hport
        . cases h
          exact .ended c connection _ graceful hconnection
      . cases h
    . cases h
  | endServe c result =>
    simp only [ForwardClient.step] at h
    split at h
    . next connection hconnection =>
      split at h
      . cases h
      . cases h
        exact .ended c connection result graceful hconnection
    . cases h
  | joinServe c i =>
    simp only [ForwardClient.step] at h
    split at h
    . next stream hconnection hstream =>
      split at h
      . next hover =>
        cases h
        exact .joinedServe c i stream hstream hover
      . cases h
    . cases h
  | stream i action =>
    simp only [ForwardClient.step] at h
    split at h
    . next phase stream hphase hstream =>
      split at h
      . next hallows =>
        rcases Option.map_eq_some_iff.mp h with ⟨stream', hstep, rfl⟩
        exact .streamed i phase stream stream' action hphase hstream hallows hstep
      . cases h
    . cases h

/-! The connections are made one at a time -/

def lockOf (client : ForwardClient) (i : Nat) : Option (Option Nat) :=
  (client.phaseOf? i).bind fun phase => if phase.holdsLock then some phase.pending else none

def isOpen (client : ForwardClient) (c : Nat) : Bool :=
  match client.connections[c]? with
  | some connection => !connection.closed
  | none => false

structure Flies (client : ForwardClient) (flight : SingleFlight Nat Nat) : Prop where
  lock : ∀ i, client.lockOf i = if flight.maker = some i then some flight.pending else none
  idle : flight.maker = none → flight.pending = none
  current : client.current = flight.current
  bound : ∀ c, client.current = some c → c < client.connections.length
  opened : ∀ c, flight.opened c ↔ client.isOpen c = true

variable {flight : SingleFlight Nat Nat}

theorem lockOf_eq (hphase : client.phaseOf? i = some phase)
    : client.lockOf i = if phase.holdsLock then some phase.pending else none := by
  simp [lockOf, hphase]

theorem lockOf_of_phaseOf? (hphase : client'.phaseOf? j = if i = j then some phase' else client.phaseOf? j)
    : client'.lockOf j
        =
      if i = j then (if phase'.holdsLock then some phase'.pending else none) else client.lockOf j := by
  simp only [lockOf, hphase]
  split <;> rfl

theorem lockOf_of_same (hphase : client.phaseOf? i = some phase)
    (hnext : client'.phaseOf? j = if i = j then some phase' else client.phaseOf? j)
    (hholds : phase'.holdsLock = phase.holdsLock) (hpending : phase'.pending = phase.pending)
    : client'.lockOf j = client.lockOf j := by
  rw [lockOf_of_phaseOf? hnext]
  split
  . next heq =>
    subst heq
    rw [lockOf_eq hphase, hholds, hpending]
  . rfl

theorem lockOf_congr (hphase : client'.phaseOf? j = client.phaseOf? j)
    : client'.lockOf j = client.lockOf j := by
  rw [lockOf, hphase, lockOf]

theorem isOpen_updateConnection {f : ForwardConnection → ForwardConnection}
    (hf : ∀ connection, (f connection).closed = connection.closed)
    : (client.updateConnection c f).isOpen d = client.isOpen d := by
  simp only [isOpen, connections_updateConnection]
  by_cases h : c = d
  . rw [if_pos h]
    cases client.connections[d]? with
    | none => rfl
    | some connection => simp [hf]
  . rw [if_neg h]

theorem isOpen_closeConnection
    : (client.updateConnection c fun connection => { connection with closed := true }).isOpen d = true
        ↔
      d ≠ c ∧ client.isOpen d = true := by
  simp only [isOpen, connections_updateConnection]
  by_cases h : c = d
  . subst h
    cases client.connections[c]? <;> simp
  . rw [if_neg h]
    exact ⟨fun hopen => ⟨Ne.symm h, hopen⟩, And.right⟩

theorem isOpen_dropPending {pending : Option Nat}
    : (client.dropPending pending).isOpen d = true ↔ pending ≠ some d ∧ client.isOpen d = true := by
  cases pending with
  | none => simp [dropPending]
  | some c =>
    rw [dropPending, isOpen_closeConnection]
    exact and_congr_left fun _ =>
      ⟨fun hne heq => hne (Option.some.inj heq).symm, fun hne heq => hne (congrArg some heq.symm)⟩

theorem length_dropPending {pending : Option Nat}
    : (client.dropPending pending).connections.length = client.connections.length := by
  cases pending <;> simp [dropPending, updateConnection]

@[simp]
theorem phaseOf?_dropPending {pending : Option Nat}
    : (client.dropPending pending).phaseOf? j = client.phaseOf? j := by
  cases pending <;> rfl

theorem phaseOf?_setPhase_dropPending {pending : Option Nat} (hphase : client.phaseOf? i = some phase)
    : ((client.dropPending pending).setPhase i phase').phaseOf? j
        =
      if i = j then some phase' else client.phaseOf? j := by
  rw [phaseOf?_setPhase (phaseOf?_dropPending.trans hphase), phaseOf?_dropPending]

theorem phaseOf?_failCall_dropPending {pending : Option Nat} {error : String}
    {graceful : Nat → Bool × Bool} (hphase : client.phaseOf? i = some phase)
    : ((client.dropPending pending).failCall i error graceful).phaseOf? j
        =
      if i = j then some (.failed error) else client.phaseOf? j := by
  rw [phaseOf?_failCall (phaseOf?_dropPending.trans hphase), phaseOf?_dropPending]

@[simp]
theorem current_dropPending {pending : Option Nat}
    : (client.dropPending pending).current = client.current := by
  cases pending <;> rfl

theorem isOpen_spawn {action : StreamAction} : (client.spawn i phase action).isOpen d = client.isOpen d := by
  unfold spawn
  split
  . exact isOpen_updateConnection fun _ => rfl
  . rfl

@[simp]
theorem phaseOf?_spawn {action : StreamAction}
    : (client.spawn i phase action).phaseOf? j = client.phaseOf? j := by
  unfold spawn
  split <;> rfl

@[simp]
theorem current_spawn {action : StreamAction} : (client.spawn i phase action).current = client.current := by
  unfold spawn
  split <;> rfl

theorem length_spawn {action : StreamAction}
    : (client.spawn i phase action).connections.length = client.connections.length := by
  unfold spawn
  split
  . simp [updateConnection]
  . rfl

theorem Flies.maker (h : Flies client flight) (hphase : client.phaseOf? i = some phase)
    (hholds : phase.holdsLock = true) : flight.maker = some i ∧ flight.pending = phase.pending := by
  have hlock := h.lock i
  rw [lockOf_eq hphase, if_pos hholds] at hlock
  split at hlock
  . next hmaker => exact ⟨hmaker, (Option.some.inj hlock).symm⟩
  . cases hlock

theorem Flies.of_same (h : Flies client flight) (hlock : ∀ j, client'.lockOf j = client.lockOf j)
    (hcurrent : client'.current = client.current)
    (hlength : client'.connections.length = client.connections.length)
    (hopen : ∀ c, client'.isOpen c = client.isOpen c) : Flies client' flight where
  lock := fun j => (hlock j).trans (h.lock j)
  idle := h.idle
  current := hcurrent.trans h.current
  bound := by
    rw [hcurrent, hlength]
    exact h.bound
  opened := by
    intro c
    rw [hopen]
    exact h.opened c

theorem Flies.begin (h : Flies client flight) (hphase : client.phaseOf? i = some .waiting)
    (hfree : ∀ j phase, client.phaseOf? j = some phase → phase.holdsLock = false)
    (hopen : client.openConnection = none)
    : flight.Step (.begin i) { flight with maker := some i }
        ∧ Flies (client.setPhase i .fetching) { flight with maker := some i } := by
  have hnone : ∀ j, client.lockOf j = none := by
    intro j
    cases hj : client.phaseOf? j with
    | none => simp [lockOf, hj]
    | some phase => simp [lockOf, hj, hfree j phase hj]
  have hmaker : flight.maker = none := by
    cases hmaker : flight.maker with
    | none => rfl
    | some j =>
      have hlock := h.lock j
      rw [hnone, if_pos hmaker] at hlock
      cases hlock
  constructor
  . apply SingleFlight.Step.begin i hmaker
    intro c hcurrent hopened
    rw [← h.current] at hcurrent
    rw [h.opened, isOpen] at hopened
    rw [openConnection, hcurrent, Option.filter_eq_none_iff] at hopen
    exact hopen c rfl hopened
  . refine ⟨?_, by simp, h.current, h.bound, h.opened⟩
    intro j
    rw [lockOf_of_phaseOf? (phaseOf?_setPhase hphase), hnone]
    simp [CallPhase.holdsLock, CallPhase.pending, h.idle hmaker]

theorem Flies.lock_of_holder (h : Flies client flight) (hphase : client.phaseOf? i = some phase)
    (hholds : phase.holdsLock = true)
    (hnext : client'.phaseOf? j = if i = j then some phase' else client.phaseOf? j)
    : client'.lockOf j
        =
      if i = j ∧ phase'.holdsLock = true then some phase'.pending else none := by
  rcases h.maker hphase hholds with ⟨hmaker, _⟩
  rw [lockOf_of_phaseOf? hnext, h.lock j, hmaker]
  by_cases hj : i = j
  . simp [hj]
  . simp [hj]

theorem Flies.make {host : HostConnection} {retry : Bool} (h : Flies client flight)
    (hphase : client.phaseOf? i = some (.connecting host retry)) (connection : ForwardConnection)
    (hclosed : connection.closed = false)
    : ∃ flight', flight.Step (.make client.connections.length) flight'
        ∧ Flies
            { client.setPhase i (.requesting host retry client.connections.length) with
              connections := client.connections ++ [connection] }
            flight' := by
  rcases h.maker hphase rfl with ⟨hmaker, hpending⟩
  refine ⟨_, SingleFlight.Step.make client.connections.length (by simp [hmaker]) hpending ?_, ?_⟩
  . intro hcurrent
    rw [← h.current] at hcurrent
    exact Nat.lt_irrefl _ (h.bound _ hcurrent)
  . refine ⟨?_, by simp [hmaker], h.current, ?_, ?_⟩
    . intro j
      refine Eq.trans (h.lock_of_holder hphase rfl (phaseOf?_setPhase hphase)) ?_
      simp [hmaker, CallPhase.holdsLock, CallPhase.pending]
    . intro c hcurrent
      simp only [List.length_append, List.length_singleton]
      exact Nat.lt_succ_of_lt (h.bound c hcurrent)
    . intro c
      simp only [isOpen]
      rcases Nat.lt_trichotomy c client.connections.length with hlt | rfl | hgt
      . rw [List.getElem?_append_left hlt, h.opened, isOpen]
        exact ⟨fun hopen => hopen.resolve_left (Nat.ne_of_lt hlt), Or.inr⟩
      . simp [hclosed]
      . rw [List.getElem?_eq_none (by simp; omega)]
        simp only [Bool.false_eq_true, iff_false, not_or]
        refine ⟨Nat.ne_of_gt hgt, ?_⟩
        rw [h.opened, isOpen, List.getElem?_eq_none (Nat.le_of_lt hgt)]
        exact Bool.false_ne_true

theorem Flies.commit {host : HostConnection} {retry : Bool} (h : Flies client flight)
    (hphase : client.phaseOf? i = some (.awaitingReply host retry c)) (hc : c < client.connections.length)
    : ∃ flight', flight.Step .commit flight'
        ∧ Flies { client.connectCall i c with current := some c } flight' := by
  rcases h.maker hphase rfl with ⟨hmaker, hpending⟩
  refine ⟨_, SingleFlight.Step.commit c hpending, ?_, fun _ => rfl, rfl, ?_, h.opened⟩
  . intro j
    refine Eq.trans (h.lock_of_holder hphase rfl (phaseOf?_connectCall hphase)) ?_
    simp [CallPhase.holdsLock]
  . intro d hd
    rw [Option.some.injEq] at hd
    exact hd ▸ hc

theorem Flies.abandon {host : HostConnection} {error : String} (h : Flies client flight)
    (hphase : client.phaseOf? i = some phase) (hholds : phase.holdsLock = true)
    : ∃ flight', flight.Step .abandon flight'
        ∧ Flies ((client.dropPending phase.pending).setPhase i (.refetching host error)) flight' := by
  rcases h.maker hphase hholds with ⟨hmaker, hpending⟩
  refine ⟨_, SingleFlight.Step.abandon, ?_, fun _ => rfl, ?_, ?_, ?_⟩
  . intro j
    refine Eq.trans (h.lock_of_holder hphase hholds (phaseOf?_setPhase_dropPending hphase)) ?_
    simp [hmaker, CallPhase.holdsLock, CallPhase.pending]
  . exact current_dropPending.trans h.current
  . intro c hcurrent
    exact length_dropPending.symm ▸ h.bound c (current_dropPending.symm.trans hcurrent)
  . intro c
    refine Iff.trans ?_ isOpen_dropPending.symm
    rw [← h.opened, ← hpending]

theorem Flies.fail {error : String} {graceful : Nat → Bool × Bool} (h : Flies client flight)
    (hphase : client.phaseOf? i = some phase) (hholds : phase.holdsLock = true)
    : ∃ flight', (singleFlightSystem Nat Nat).Run flight [.abandon, .release] flight'
        ∧ Flies ((client.dropPending phase.pending).failCall i error graceful) flight' := by
  rcases h.maker hphase hholds with ⟨_, hpending⟩
  refine ⟨_, System.Run.snoc (System.Run.single SingleFlight.Step.abandon)
    (SingleFlight.Step.release rfl), ?_, fun _ => rfl, ?_, ?_, ?_⟩
  . intro j
    refine Eq.trans (h.lock_of_holder hphase hholds (phaseOf?_failCall_dropPending hphase)) ?_
    simp [CallPhase.holdsLock]
  . exact current_dropPending.trans h.current
  . intro c hcurrent
    exact length_dropPending.symm ▸ h.bound c (current_dropPending.symm.trans hcurrent)
  . intro c
    refine Iff.trans ?_ isOpen_dropPending.symm
    rw [← h.opened, ← hpending]

theorem Flies.step (h : Flies client flight) (hmoves : Moves client client')
    : ∃ events flight', (singleFlightSystem Nat Nat).Run flight events flight' ∧ Flies client' flight' := by
  have hsame : ∀ {client'}, Flies client' flight →
      ∃ events flight', (singleFlightSystem Nat Nat).Run flight events flight' ∧ Flies client' flight' :=
    fun hflies => ⟨[], flight, System.Run.nil _, hflies⟩
  have hone : ∀ {client' event flight'}, flight.Step event flight' → Flies client' flight' →
      ∃ events flight', (singleFlightSystem Nat Nat).Run flight events flight' ∧ Flies client' flight' :=
    fun hstep hflies => ⟨[_], _, System.Run.single hstep, hflies⟩
  cases hmoves with
  | same => exact hsame h
  | accepted hlimit =>
    refine hsame (h.of_same ?_ rfl rfl fun _ => rfl)
    intro j
    simp only [lockOf, phaseOf?]
    rcases Nat.lt_trichotomy j client.calls.length with hlt | rfl | hgt
    . rw [List.getElem?_append_left hlt]
    . simp [CallPhase.holdsLock]
    . rw [List.getElem?_eq_none (by simp; omega), List.getElem?_eq_none (Nat.le_of_lt hgt)]
  | joined i stream hstream hover => exact hsame (h.of_same (fun _ => rfl) rfl rfl fun _ => rfl)
  | locked i hphase hfree hopen =>
    rcases h.begin hphase hfree hopen with ⟨hstep, hflies⟩
    exact hone hstep hflies
  | reused i c hphase hopen =>
    exact hsame (h.of_same
      (fun _ => lockOf_of_same hphase (phaseOf?_connectCall hphase) rfl rfl) rfl rfl fun _ => rfl)
  | goesOn i phase phase' hphase hnext =>
    refine hsame (h.of_same (fun _ => lockOf_of_same hphase (phaseOf?_setPhase hphase) ?_ ?_) rfl rfl
      fun _ => rfl)
    . cases hnext <;> rfl
    . cases hnext <;> rfl
  | dialed i host retry capability hphase =>
    rcases h.make hphase (.dialed capability) rfl with ⟨flight', hstep, hflies⟩
    exact hone hstep hflies
  | requested i c host retry bytes hphase hbytes =>
    exact hsame (h.of_same (fun _ => lockOf_of_same hphase (phaseOf?_setPhase hphase) rfl rfl) rfl
      (by simp [updateConnection, setPhase]) fun _ => isOpen_updateConnection fun _ => rfl)
  | committed i c host retry reply hphase hreply hcheck =>
    rcases Option.bind_eq_some_iff.mp hreply with ⟨connection, hconnection, _⟩
    rcases h.commit hphase (List.getElem?_eq_some_iff.mp hconnection).1 with ⟨flight', hstep, hflies⟩
    exact hone hstep hflies
  | refetching i phase host error hphase hholds =>
    rcases h.abandon hphase hholds with ⟨flight', hstep, hflies⟩
    exact hone hstep hflies
  | failed i phase error graceful hphase hholds =>
    rcases h.fail hphase hholds with ⟨flight', hrun, hflies⟩
    exact ⟨_, flight', hrun, hflies⟩
  | lost c =>
    refine hone (SingleFlight.Step.lose c) ⟨h.lock, h.idle, h.current, ?_, ?_⟩
    . simpa [updateConnection] using h.bound
    . intro d
      rw [isOpen_closeConnection, ← h.opened]
  | authorized c connection hconnection hphase =>
    exact hsame (h.of_same (fun _ => rfl) rfl (by simp [updateConnection])
      fun _ => isOpen_updateConnection fun _ => rfl)
  | served c connection request rest port hconnection hrequest hport =>
    exact hsame (h.of_same (fun _ => rfl) rfl (by simp [updateConnection])
      fun _ => isOpen_updateConnection fun _ => rfl)
  | ended c connection result graceful hconnection =>
    refine hsame (h.of_same (fun _ => lockOf_congr phaseOf?_endServe) rfl (by simp [endServe])
      fun _ => isOpen_updateConnection fun _ => rfl)
  | joinedServe c i stream hstream hover =>
    exact hsame (h.of_same (fun _ => rfl) rfl (by simp [updateConnection])
      fun _ => isOpen_updateConnection fun _ => rfl)
  | streamed i phase stream stream' action hphase hstream hallows hstep =>
    refine hsame (h.of_same ?_ ?_ ?_ ?_)
    . intro j
      apply lockOf_congr
      rw [phaseOf?_spawn, phaseOf?_setStream]
    . rw [current_spawn]
      rfl
    . rw [length_spawn]
      rfl
    . intro c
      rw [isOpen_spawn]
      rfl

theorem flies_start (port : UInt16)
    : Flies (start port) { maker := none, pending := none, current := none, opened := fun _ => False } where
  lock := by
    intro i
    cases i <;> simp [lockOf, phaseOf?, start, CallPhase.holdsLock]
  idle := fun _ => rfl
  current := rfl
  bound := fun _ h => nomatch h
  opened := by simp [isOpen, start]

theorem simulates_singleFlight
    : (forwardSystem iroh).Simulation (singleFlightSystem Nat Nat) Flies where
  init := by
    rintro _ ⟨port, rfl⟩
    exact ⟨_, ⟨rfl, rfl, rfl, fun _ => id⟩, flies_start port⟩
  step := fun _ hflies hstep => hflies.step (moves_of_step hstep)

theorem holder_unique (h : (forwardSystem iroh).Reachable client) (hi : client.phaseOf? i = some phase)
    (hj : client.phaseOf? j = some phase') (hholds : phase.holdsLock = true)
    (hholds' : phase'.holdsLock = true) : i = j := by
  rcases simulates_singleFlight.reachable h with ⟨flight, _, hflies⟩
  have hmaker := (hflies.maker hi hholds).1
  rw [(hflies.maker hj hholds').1, Option.some.injEq] at hmaker
  exact hmaker.symm

theorem open_unique (h : (forwardSystem iroh).Reachable client) (hc : client.isOpen c = true)
    (hd : client.isOpen d = true) : c = d := by
  rcases simulates_singleFlight.invariant SingleFlight.exclusive_of_reachable h
    with ⟨flight, hflies, hexclusive⟩
  exact hexclusive.eq ((hflies.opened c).mpr hc) ((hflies.opened d).mpr hd)

end ForwardClient

end Attached
