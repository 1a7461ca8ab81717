import Attached.Client.ServeLemmas
import Attached.Client.Transport

/-!
This module contains the proof that the brokers of one identity never have two endpoints bound, as long
as none binds another endpoint while a Connect in its setup still has one that is not closed.
-/

namespace Attached

namespace ClientTransport

open Processes (LockStep)
open ClientBroker (Token Request Response)

section

variable {A B H : Type} [DecidableEq B] [DecidableEq H] {runtime runtime' : Runtime A B H}

structure AcquireStep (identity : Vector UInt8 32) (a : A) (runtime : Runtime A B H)
    (phase : AcquirePhase B H) (runtime' : Runtime A B H) (phase' : AcquirePhase B H) : Prop where
  startup : LockStep a runtime.startup phase.holdsStartup runtime'.startup phase'.holdsStartup
  owner : LockStep (.inl a) runtime.owner phase.holdsOwner runtime'.owner phase'.holdsOwner
  socket : runtime'.socket = runtime.socket
  parent : (runtime'.parent = runtime.parent ∧ (phase.isPastSpawn = true → phase'.isPastSpawn = true))
    ∨ ∃ child, phase = .spawning
      ∧ phase' = .piping child
      ∧ runtime'.parent = Function.update runtime.parent child (some a)
  stream : ∀ h, StreamStep runtime.owner (fun _ => False) (runtime.stream h) (runtime'.stream h)
  returned : ∀ lease, phase' = .returned (.ok lease) →
    ∃ stream pid holder, runtime.stream lease.stream = some stream
      ∧ stream.response = some (.lease identity lease.token pid, holder)

variable {identity : Vector UInt8 32} {a : A} {phase phase' : AcquirePhase B H}

omit [DecidableEq H] in
theorem acquireStep_move (hstartup : phase'.holdsStartup = phase.holdsStartup)
    (howner : phase'.holdsOwner = phase.holdsOwner)
    (hspawn : phase.isPastSpawn = true → phase'.isPastSpawn = true)
    (hreturned : ∀ result, phase' ≠ .returned result)
    : AcquireStep identity a runtime phase runtime phase' where
  startup := by
    rw [hstartup]
    exact .keep _ _
  owner := by
    rw [howner]
    exact .keep _ _
  socket := rfl
  parent := Or.inl ⟨rfl, hspawn⟩
  stream _ := .keep _
  returned := fun _ h => absurd h (hreturned _)

omit [DecidableEq H] in
theorem acquireStep_finish {result : Except Failure (Lease H)}
    (h : finish runtime phase result = some (runtime', phase'))
    (hresult : ∀ lease, result = .ok lease →
      ∃ stream pid holder, runtime.stream lease.stream = some stream
        ∧ stream.response = some (.lease identity lease.token pid, holder))
    : AcquireStep identity a runtime phase runtime' phase' := by
  cases h
  exact
    { startup := by
        cases phase.holdsStartup with
        | true => exact .drop _
        | false => exact .keep _ _
      owner := by
        cases phase.holdsOwner with
        | true => exact .drop _
        | false => exact .keep _ _
      socket := rfl
      parent := Or.inl ⟨rfl, fun _ => rfl⟩
      stream := fun _ => .keep _
      returned := by
        rintro lease ⟨⟩
        exact hresult lease rfl }

theorem acquireStep_of_act {action : AcquireAction B H}
    (h : acquireAct identity a runtime phase action = some (runtime', phase'))
    : AcquireStep identity a runtime phase runtime' phase' := by
  unfold acquireAct at h
  split at h
  . split at h
    . cases h
      exact acquireStep_move rfl rfl nofun nofun
    . exact acquireStep_finish h nofun
  -- connect
  . next started stream =>
    rcases Option.map_eq_some_iff.mp h with ⟨dialed, hdial, hresult⟩
    cases hresult
    have hstream := stream_dial runtime.owner hdial
    rcases dial_eq_some hdial with ⟨b, _, rfl⟩
    exact
      { startup := by cases started <;> exact .keep _ _
        owner := .keep _ _
        socket := rfl
        parent := by
          refine Or.inl ⟨rfl, ?_⟩
          rcases started with _ | _ | _ <;> exact id
        stream := hstream
        returned := nofun }
  -- an attach that failed
  . next started =>
    cases h
    rcases started with _ | _ | _ <;> exact acquireStep_move rfl rfl id nofun
  . next started stream =>
    cases h
    rcases started with _ | _ | _ <;> exact acquireStep_move rfl rfl id nofun
  -- the response
  . next started stream =>
    split at h
    . cases h
    . next actual token pid holder hresponse =>
      split at h
      . next hidentity =>
        apply acquireStep_finish h
        rintro lease ⟨⟩
        rcases Option.bind_eq_some_iff.mp hresponse with ⟨found, hfound, hsome⟩
        rw [beq_iff_eq] at hidentity
        rw [hidentity]
        exact ⟨found, pid, holder, hfound, hsome⟩
      . cases h
        rcases started with _ | _ | _ <;> exact acquireStep_move rfl rfl id nofun
    . cases h
      rcases started with _ | _ | _ <;> exact acquireStep_move rfl rfl id nofun
  . split at h
    . cases h
      exact acquireStep_move rfl rfl nofun nofun
    . exact acquireStep_finish h nofun
  -- startup.lock
  . split at h
    . next hnone =>
      cases h
      exact
        { startup := by
            rw [hnone]
            exact .take
          owner := .keep _ _
          socket := rfl
          parent := Or.inl ⟨rfl, nofun⟩
          stream := fun _ => .keep _
          returned := nofun }
    . cases h
      exact acquireStep_move rfl rfl nofun nofun
  . split at h
    . cases h
      exact acquireStep_move rfl rfl nofun nofun
    . exact acquireStep_finish h nofun
  -- owner.lock
  . next started =>
    cases started with
    | true =>
      cases h
      exact acquireStep_move rfl rfl id nofun
    | false =>
      rw [if_neg Bool.false_ne_true] at h
      split at h
      . next hnone =>
        cases h
        exact
          { startup := .keep _ _
            owner := by
              rw [hnone]
              exact .take
            socket := rfl
            parent := Or.inl ⟨rfl, nofun⟩
            stream := fun _ => .keep _
            returned := nofun }
      . cases h
        exact acquireStep_move rfl rfl id nofun
  . split at h
    . cases h
      exact
        { startup := .keep _ _
          owner := .drop _
          socket := rfl
          parent := Or.inl ⟨rfl, nofun⟩
          stream := fun _ => .keep _
          returned := nofun }
    . exact acquireStep_finish h nofun
  -- spawn
  . next child =>
    split at h
    . cases h
      exact
        { startup := .keep _ _
          owner := .keep _ _
          socket := rfl
          parent := Or.inr ⟨child, rfl, rfl, rfl⟩
          stream := fun _ => .keep _
          returned := nofun }
    . cases h
  . split at h
    . cases h
      exact acquireStep_move rfl rfl id nofun
    . exact acquireStep_finish h nofun
  -- the call ends
  . cases h
  . cases h
  . exact acquireStep_finish h nofun
  . cases h

end

section

variable {A B H : Type} [DecidableEq A] [DecidableEq B] [DecidableEq H] {host : Host B H}
  {s t : Processes (A ⊕ B) (Runtime A B H) (Phase B H)} {event : Event A B H}

structure Consistent (host : Host B H) (s : Processes (A ⊕ B) (Runtime A B H) (Phase B H)) : Prop where
  owner : s.Owns Runtime.owner Phase.holdsOwner
  startup : s.Owns (fun runtime => runtime.startup.map Sum.inl) Phase.holdsStartup
  socket : ∀ b, s.shared.socket = some b →
    (s.phase (.inr b)).holdsOwner = true ∨ s.phase (.inr b) = .broker .ended
  parent : ∀ a b, s.shared.parent b = some a →
    ∃ phase, s.phase (.inl a) = .acquire phase ∧ phase.isPastSpawn = true
  child : ∀ a b b', s.shared.parent b = some a → s.shared.parent b' = some a → b = b'
  response : ∀ h stream response holder, s.shared.stream h = some stream →
    stream.response = some (response, holder) → holder = some (.inr stream.broker)
  returned : ∀ a lease, s.phase (.inl a) = .acquire (.returned (.ok lease)) →
    ∃ stream pid, s.shared.stream lease.stream = some stream
      ∧ stream.response
        = some (.lease host.identity lease.token pid, some (.inr stream.broker))
  serving : ∀ b serve phase, s.phase (.inr b) = .broker (.serving serve phase) →
    Served b s.shared serve
      ∧ Counted serve phase
      ∧ ∀ h ∈ serve.running, h ∈ serve.tasks

inductive SystemStep (host : Host B H) (s : Processes (A ⊕ B) (Runtime A B H) (Phase B H))
    (event : Event A B H) (t : Processes (A ⊕ B) (Runtime A B H) (Phase B H)) : Prop
  | acquire {a : A} {action : AcquireAction B H} {phase phase' : AcquirePhase B H}
      (hevent : event = .process (.inl a) (.acquire action))
      (hbefore : s.phase (.inl a) = .acquire phase) (hafter : t.phase (.inl a) = .acquire phase')
      (hothers : ∀ c, c ≠ .inl a → t.phase c = s.phase c)
      (hact : acquireAct host.identity a s.shared phase action = some (t.shared, phase'))
  | broker {b : B} {action : BrokerAction H} {phase phase' : BrokerPhase H}
      (hevent : event = .process (.inr b) (.broker action))
      (hbefore : s.phase (.inr b) = .broker phase) (hafter : t.phase (.inr b) = .broker phase')
      (hothers : ∀ c, c ≠ .inr b → t.phase c = s.phase c)
      (hact : brokerAct host.identity (host.pid b) (host.token b) b s.shared phase action
        = some (t.shared, phase'))
  | client {h : H} {request : Request} (hevent : event = .client h request)
      (hphase : t.phase = s.phase) (hdial : s.shared.dial h request = some t.shared)

theorem systemStep_of_step (h : (clientTransport host).step s event t)
    : SystemStep host s event t := by
  cases event with
  | process c action =>
    rcases Processes.act_of_step h with ⟨hact, hothers⟩
    unfold act at hact
    split at hact
    . next a phase action heq =>
      rcases Option.map_eq_some_iff.mp hact with ⟨⟨runtime', phase'⟩, hact, hresult⟩
      rw [Prod.mk.injEq] at hresult
      rw [hresult.1] at hact
      exact .acquire rfl heq hresult.2.symm hothers hact
    . next b phase action heq =>
      rcases Option.map_eq_some_iff.mp hact with ⟨⟨runtime', phase'⟩, hact, hresult⟩
      rw [Prod.mk.injEq] at hresult
      rw [hresult.1] at hact
      exact .broker rfl heq hresult.2.symm hothers hact
    . cases hact
  | client stream request =>
    rcases Option.map_eq_some_iff.mp h with ⟨runtime', hdial, hresult⟩
    cases hresult
    exact .client rfl rfl hdial

omit [DecidableEq A] in
theorem stream_step (h : SystemStep host s event t) (stream : H)
    : StreamStep s.shared.owner
        (fun response => ∃ b serve phase, s.phase (.inr b) = .broker (.serving serve phase)
          ∧ serve.Writes stream response)
        (s.shared.stream stream) (t.shared.stream stream) := by
  cases h with
  | acquire _ _ _ _ hact => exact ((acquireStep_of_act hact).stream stream).imp fun _ => False.elim
  | @broker b action phase phase' _ hbefore _ _ hact =>
    apply ((brokerStep_of_act hact).stream stream).imp
    rintro response ⟨serve, servePhase, rfl, hwrites⟩
    exact ⟨b, serve, servePhase, hbefore, hwrites⟩
  | client _ _ hdial => exact (stream_dial _ hdial stream).imp fun _ => False.elim

theorem owner_step (hs : Consistent host s) (hstep : (clientTransport host).step s event t)
    : t.Owns Runtime.owner Phase.holdsOwner := by
  cases systemStep_of_step hstep with
  | acquire hevent hbefore hafter _ hact =>
    rw [hevent] at hstep
    apply hs.owner.step hstep
    rw [hbefore, hafter]
    exact (acquireStep_of_act hact).owner
  | broker hevent hbefore hafter _ hact =>
    rw [hevent] at hstep
    apply hs.owner.step hstep
    rw [hbefore, hafter]
    exact (brokerStep_of_act hact).owner
  | client _ hphase hdial =>
    rcases dial_eq_some hdial with ⟨_, _, hshared⟩
    exact hs.owner.congr (by rw [hshared]) hphase

theorem startup_step (hs : Consistent host s) (hstep : (clientTransport host).step s event t)
    : t.Owns (fun runtime => runtime.startup.map Sum.inl) Phase.holdsStartup := by
  cases systemStep_of_step hstep with
  | acquire hevent hbefore hafter _ hact =>
    rw [hevent] at hstep
    apply hs.startup.step hstep
    rw [hbefore, hafter]
    exact (acquireStep_of_act hact).startup.map Sum.inl
  | broker hevent hbefore hafter _ hact =>
    rw [hevent] at hstep
    apply hs.startup.step hstep
    rw [hbefore, hafter, (brokerStep_of_act hact).startup]
    exact .keep _ _
  | client _ hphase hdial =>
    rcases dial_eq_some hdial with ⟨_, _, hshared⟩
    exact hs.startup.congr (by rw [hshared]) hphase

omit [DecidableEq A] in
theorem socket_step (hs : Consistent host s) (h : SystemStep host s event t) (b : B)
    (hsocket : t.shared.socket = some b)
    : (t.phase (.inr b)).holdsOwner = true ∨ t.phase (.inr b) = .broker .ended := by
  cases h with
  | acquire _ _ _ hothers hact =>
    rw [hothers _ Sum.inr_ne_inl]
    rw [(acquireStep_of_act hact).socket] at hsocket
    exact hs.socket b hsocket
  | @broker b' action phase phase' _ hbefore hafter hothers hact =>
    have hbroker := brokerStep_of_act hact
    by_cases hb : b = b'
    . subst hb
      have hholds : phase.holdsOwner = true := by
        rcases hbroker.socket with hsame | ⟨hholds, _⟩
        . rw [hsame] at hsocket
          rcases hs.socket b hsocket with hholds | hended
          . rw [hbefore] at hholds
            exact hholds
          . rw [hbefore] at hended
            injection hended with hended
            exact absurd hended hbroker.notEnded
        . exact hholds
      rw [hafter]
      rcases hbroker.ends hholds with hholds' | hended
      . exact Or.inl hholds'
      . exact Or.inr (by rw [hended])
    . rw [hothers _ (by simpa using hb)]
      rcases hbroker.socket with hsame | ⟨_, hnone | hsome⟩
      . rw [hsame] at hsocket
        exact hs.socket b hsocket
      . rw [hnone] at hsocket
        cases hsocket
      . rw [hsome, Option.some.injEq] at hsocket
        exact absurd hsocket.symm hb
  | client _ hphase hdial =>
    rcases dial_eq_some hdial with ⟨_, _, hshared⟩
    rw [hshared] at hsocket
    rw [hphase]
    exact hs.socket b hsocket

omit [DecidableEq A] in
theorem parent_step (hs : Consistent host s) (h : SystemStep host s event t)
    : (∀ a b, t.shared.parent b = some a →
        ∃ phase, t.phase (.inl a) = .acquire phase ∧ phase.isPastSpawn = true)
      ∧ ∀ a b b', t.shared.parent b = some a → t.shared.parent b' = some a → b = b' := by
  cases h with
  | @acquire a' action phase phase' _ hbefore hafter hothers hact =>
    have hkeeps : ∀ a b, s.shared.parent b = some a → a ≠ a' →
        ∃ phase, t.phase (.inl a) = .acquire phase ∧ phase.isPastSpawn = true := by
      intro a b hparent ha
      rw [hothers _ (by simpa using ha)]
      exact hs.parent a b hparent
    rcases (acquireStep_of_act hact).parent with ⟨hsame, hpast⟩ | ⟨child, hspawning, hpiping, hupdate⟩
    . rw [hsame]
      refine ⟨?_, hs.child⟩
      intro a b hparent
      by_cases ha : a = a'
      . rw [ha] at hparent ⊢
        rcases hs.parent a' b hparent with ⟨before, hphase, hbeforePast⟩
        rw [hbefore] at hphase
        cases hphase
        exact ⟨phase', hafter, hpast hbeforePast⟩
      . exact hkeeps a b hparent ha
    -- the spawn: the call has no child yet
    . have hchildless : ∀ b, s.shared.parent b ≠ some a' := by
        intro b hparent
        rcases hs.parent a' b hparent with ⟨before, hphase, hpast⟩
        rw [hbefore, hspawning] at hphase
        cases hphase
        cases hpast
      have honly : ∀ b, t.shared.parent b = some a' → b = child := by
        intro b hparent
        by_contra hb
        rw [hupdate, Function.update_of_ne hb] at hparent
        exact hchildless b hparent
      refine ⟨?_, ?_⟩
      . intro a b hparent
        by_cases ha : a = a'
        . rw [ha, hafter, hpiping]
          exact ⟨_, rfl, rfl⟩
        . apply hkeeps a b _ ha
          by_cases hb : b = child
          . rw [hupdate, hb, Function.update_self, Option.some.injEq] at hparent
            exact absurd hparent.symm ha
          . rwa [hupdate, Function.update_of_ne hb] at hparent
      . intro a b b' hparent hparent'
        by_cases ha : a = a'
        . rw [ha] at hparent hparent'
          rw [honly b hparent, honly b' hparent']
        . have hbefore : ∀ b, t.shared.parent b = some a → s.shared.parent b = some a := by
            intro b hparent
            by_cases hb : b = child
            . rw [hupdate, hb, Function.update_self, Option.some.injEq] at hparent
              exact absurd hparent.symm ha
            . rwa [hupdate, Function.update_of_ne hb] at hparent
          exact hs.child a b b' (hbefore b hparent) (hbefore b' hparent')
  | broker _ _ _ hothers hact =>
    rw [(brokerStep_of_act hact).parent]
    refine ⟨?_, hs.child⟩
    intro a b hparent
    rw [hothers _ Sum.inl_ne_inr]
    exact hs.parent a b hparent
  | client _ hphase hdial =>
    rcases dial_eq_some hdial with ⟨_, _, hshared⟩
    rw [hphase, hshared]
    exact ⟨hs.parent, hs.child⟩

omit [DecidableEq A] [DecidableEq B] [DecidableEq H] in
theorem serving_owns (hs : Consistent host s) {b : B} {serve : Serve H} {phase : ServePhase}
    (h : s.phase (.inr b) = .broker (.serving serve phase)) : s.shared.owner = some (.inr b) := by
  apply (hs.owner (.inr b)).mpr
  rw [h]
  rfl

omit [DecidableEq A] in
theorem response_step (hs : Consistent host s) (h : SystemStep host s event t) (d : H)
    (stream : Stream A B) (response : Response) (holder : Option (A ⊕ B))
    (hstream : t.shared.stream d = some stream) (hresponse : stream.response = some (response, holder))
    : holder = some (.inr stream.broker) := by
  have hstep := stream_step h d
  generalize hbefore : s.shared.stream d = before at hstep
  rw [hstream] at hstep
  cases hstep with
  | keep => exact hs.response d stream response holder hbefore hresponse
  | dial => cases hresponse
  | accept stream => exact hs.response d stream response holder hbefore hresponse
  | respond stream response' hwrites hnone =>
    cases hresponse
    rcases hwrites with ⟨b, serve, phase, hserving, hmem, _⟩
    rcases (hs.serving b serve phase hserving).1 d (Or.inl hmem) with ⟨stream', hsome, hbroker, _⟩
    rw [hbefore] at hsome
    cases hsome
    rw [serving_owns hs hserving, hbroker]

theorem returned_step (hs : Consistent host s) (h : SystemStep host s event t) (a : A)
    (lease : Lease H) (hreturned : t.phase (.inl a) = .acquire (.returned (.ok lease)))
    : ∃ stream pid, t.shared.stream lease.stream = some stream
        ∧ stream.response
          = some (.lease host.identity lease.token pid, some (.inr stream.broker)) := by
  have hbefore : ∃ stream pid, s.shared.stream lease.stream = some stream
      ∧ stream.response
        = some (.lease host.identity lease.token pid, some (.inr stream.broker)) := by
    cases h with
    | @acquire a' action phase phase' _ _ hafter hothers hact =>
      by_cases ha : a = a'
      . rw [ha, hafter] at hreturned
        injection hreturned with hreturned
        rcases (acquireStep_of_act hact).returned lease hreturned with
          ⟨stream, pid, holder, hstream, hresponse⟩
        have hholder := hs.response _ _ _ _ hstream hresponse
        rw [hholder] at hresponse
        exact ⟨stream, pid, hstream, hresponse⟩
      . rw [hothers _ (by simpa using ha)] at hreturned
        exact hs.returned a lease hreturned
    | broker _ _ _ hothers _ =>
      rw [hothers _ Sum.inl_ne_inr] at hreturned
      exact hs.returned a lease hreturned
    | client _ hphase _ =>
      rw [hphase] at hreturned
      exact hs.returned a lease hreturned
  rcases hbefore with ⟨stream, pid, hstream, hresponse⟩
  have hstep := stream_step h lease.stream
  rw [hstream] at hstep
  rcases hstep.keeps with ⟨stream', hstream', hbroker, _, hkept⟩
  refine ⟨stream', pid, hstream', ?_⟩
  rw [hbroker]
  exact hkept _ hresponse

omit [DecidableEq A] in
theorem served_step {b : B} {serve : Serve H} (h : SystemStep host s event t)
    (hserved : Served b s.shared serve) : Served b t.shared serve := by
  intro d hd
  rcases hserved d hd with ⟨stream, hstream, hbroker, haccepted⟩
  have hstep := stream_step h d
  rw [hstream] at hstep
  rcases hstep.keeps with ⟨stream', hstream', hbroker', haccepted', _⟩
  exact ⟨stream', hstream', hbroker'.trans hbroker, haccepted' haccepted⟩

omit [DecidableEq A] in
theorem serving_step (hs : Consistent host s) (h : SystemStep host s event t) (b : B)
    (serve' : Serve H) (phase' : ServePhase)
    (hserving : t.phase (.inr b) = .broker (.serving serve' phase'))
    : Served b t.shared serve'
        ∧ Counted serve' phase'
        ∧ ∀ h ∈ serve'.running, h ∈ serve'.tasks := by
  have hkeeps : s.phase (.inr b) = t.phase (.inr b) → Served b t.shared serve'
      ∧ Counted serve' phase' ∧ ∀ h ∈ serve'.running, h ∈ serve'.tasks := by
    intro hsame
    rw [hserving] at hsame
    exact (hs.serving b serve' phase' hsame).imp (served_step h) id
  have hstep := h
  cases h with
  | acquire _ _ _ hothers _ => exact hkeeps (hothers _ Sum.inr_ne_inl).symm
  | client _ hphase _ => exact hkeeps (by rw [hphase])
  | @broker b' action before after _ hbefore hafter hothers hact =>
    by_cases hb : b = b'
    . subst hb
      rw [hafter] at hserving
      injection hserving with hserving
      rcases (brokerStep_of_act hact).serving serve' phase' hserving with
        ⟨_, rfl, instant, system, rfl⟩ | ⟨serve, phase, rfl, hserve⟩
      . refine ⟨?_, ?_, nofun⟩
        . rintro d (hmem | hphase)
          . cases hmem
          . exact absurd rfl hphase
        . exact
            { slot := by
                rintro _ ⟨⟩
                exact Nat.zero_lt_one
              closingOld := nofun
              rebinding := nofun
              dialing := nofun
              closed := nofun }
      . rcases hs.serving b serve phase hbefore with ⟨hserved, hcounted, htasks⟩
        refine ⟨?_, hserve.counted hcounted, hserve.tasks htasks⟩
        intro d hd
        rcases hserve.running d hd with hold | hnew
        . exact served_step hstep hserved d hold
        . exact hnew
    . exact hkeeps (hothers _ (by simpa using hb)).symm

theorem consistent_step (hs : Consistent host s) (h : (clientTransport host).step s event t)
    : Consistent host t :=
  have hstep := systemStep_of_step h
  { owner := owner_step hs h
    startup := startup_step hs h
    socket := socket_step hs hstep
    parent := (parent_step hs hstep).1
    child := (parent_step hs hstep).2
    response := response_step hs hstep
    returned := returned_step hs hstep
    serving := serving_step hs hstep }

theorem consistent_of_init (h : (clientTransport host).init s) : Consistent host s := by
  rcases h with ⟨hidle, hbrokers, hsocket, hstartup, howner, hfresh, hstream⟩
  have hphase : ∀ c, (s.phase c).holdsOwner = false ∧ (s.phase c).holdsStartup = false := by
    rintro (a | b)
    . rw [hidle]
      exact ⟨rfl, rfl⟩
    . rcases hbrokers b with habsent | hended
      . rw [habsent]
        exact ⟨rfl, rfl⟩
      . rw [hended]
        exact ⟨rfl, rfl⟩
  exact
    { owner := by
        intro c
        rw [howner, (hphase c).1]
        simp
      startup := by
        intro c
        dsimp only
        rw [hstartup, (hphase c).2]
        simp
      socket := fun b hb => Or.inr (hsocket b hb)
      parent := by
        intro a b hparent
        rw [(hfresh b).2] at hparent
        cases hparent
      child := by
        intro a b b' hparent
        rw [(hfresh b).2] at hparent
        cases hparent
      response := by
        intro d stream response holder hsome
        rw [hstream] at hsome
        cases hsome
      returned := by
        intro a lease hreturned
        rw [hidle] at hreturned
        cases hreturned
      serving := by
        intro b serve phase hserving
        have howns := (hphase (.inr b)).1
        rw [hserving] at howns
        cases howns }

theorem consistent_of_reachable (h : (clientTransport host).Reachable s) : Consistent host s := by
  apply h.invariant (P := Consistent host)
  . intro s hinit
    exact consistent_of_init hinit
  . intro s t e hs hstep
    exact consistent_step hs hstep

omit [DecidableEq A] in
theorem bound_step (hs : Consistent host s) (h : SystemStep host s event t) {b : B} {endpoint : Nat}
    (hbound : Bound t b endpoint)
    : Bound s b endpoint
        ∨ (∃ serve u, event = .process (.inr b) (.broker (.bind (.ok u)))
          ∧ s.phase (.inr b) = .broker (.serving serve .rebinding)
          ∧ endpoint = serve.endpoints)
        ∨ (s.phase (.inr b) = .broker .bindingEndpoint ∧ endpoint = 0) := by
  rcases hbound with ⟨serve', phase', hserving, hbound⟩
  cases h with
  | acquire _ _ _ hothers _ =>
    rw [hothers _ Sum.inr_ne_inl] at hserving
    exact Or.inl ⟨serve', phase', hserving, hbound⟩
  | client _ hphase _ =>
    rw [hphase] at hserving
    exact Or.inl ⟨serve', phase', hserving, hbound⟩
  | @broker b' action before after hevent hbefore hafter hothers hact =>
    by_cases hb : b = b'
    . subst hb
      rw [hafter] at hserving
      injection hserving with hserving
      rcases (brokerStep_of_act hact).serving serve' phase' hserving with
        ⟨hbinding, rfl, instant, system, rfl⟩ | ⟨serve, phase, rfl, hserve⟩
      -- the first endpoint
      . refine Or.inr (Or.inr ⟨by rw [hbefore, hbinding], ?_⟩)
        . rcases hbound.2 with hslot | hclosing | ⟨d, hmem, _⟩
          . cases hslot
            rfl
          . cases hclosing
          . cases hmem
      . rcases hs.serving b serve phase hbefore with ⟨hserved, _, _⟩
        rcases hserve.bound hserved endpoint hbound with hold | ⟨rfl, rfl, _, hendpoint⟩
        . exact Or.inl ⟨serve, phase, hbefore, hold⟩
        . rw [hserving] at hact
          rcases serveAct_of_brokerAct hact with ⟨_, hended⟩ | hact
          . cases hended
          rcases bind_of_act hact with ⟨u, rfl⟩
          exact Or.inr (Or.inl ⟨serve, u, hevent, hbefore, hendpoint⟩)
    . rw [hothers _ (by simpa using hb)] at hserving
      exact Or.inl ⟨serve', phase', hserving, hbound⟩

omit [DecidableEq A] [DecidableEq B] [DecidableEq H] in
theorem not_bound_of_drained (hs : Consistent host s) {b : B} {serve : Serve H}
    (hphase : s.phase (.inr b) = .broker (.serving serve .rebinding)) (hdrained : serve.Drained)
    (endpoint : Nat) : ¬Bound s b endpoint := by
  rintro ⟨serve', phase', hserving, hopen, hhandled⟩
  rw [hphase] at hserving
  cases hserving
  rcases hhandled with hslot | hclosing | ⟨d, hmem, found, hdialing⟩
  . rw [(hs.serving b serve .rebinding hphase).2.1.rebinding rfl] at hslot
    cases hslot
  . cases hclosing
  . rw [hdrained d hmem found endpoint hdialing] at hopen
    cases hopen

theorem atMostOneBound_step (hs : Consistent host s) (hone : AtMostOneBound s)
    (hstep : (clientTransport host).step s event t) (hmeets : RebindsDrained s event)
    : AtMostOneBound t := by
  have ht := consistent_step hs hstep
  have h := systemStep_of_step hstep
  intro b endpoint b' endpoint' hbound hbound'
  have hb : b = b' := by
    rcases hbound with ⟨_, _, hserving, _⟩
    rcases hbound' with ⟨_, _, hserving', _⟩
    have howner := serving_owns ht hserving
    rw [serving_owns ht hserving'] at howner
    cases howner
    rfl
  subst hb
  refine ⟨rfl, ?_⟩
  have hnone : ∀ serve u, event = .process (.inr b) (.broker (.bind (.ok u))) →
      s.phase (.inr b) = .broker (.serving serve .rebinding) → ∀ endpoint, ¬Bound s b endpoint := by
    rintro serve u rfl hphase
    exact not_bound_of_drained hs hphase (hmeets serve .rebinding hphase)
  have hnotFirst : s.phase (.inr b) = .broker .bindingEndpoint → ∀ endpoint, ¬Bound s b endpoint := by
    rintro hphase endpoint ⟨_, _, hserving, _⟩
    rw [hphase] at hserving
    cases hserving
  rcases bound_step hs h hbound with hold | ⟨serve, u, hevent, hphase, hnew⟩ | ⟨hfirst, hzero⟩
  . rcases bound_step hs h hbound' with hold' | ⟨serve, u, hevent, hphase, _⟩ | ⟨hfirst, _⟩
    . exact (hone b endpoint b endpoint' hold hold').2
    . exact absurd hold (hnone serve u hevent hphase endpoint)
    . exact absurd hold (hnotFirst hfirst endpoint)
  . rcases bound_step hs h hbound' with hold' | ⟨serve', _, _, hphase', hnew'⟩ | ⟨hfirst', _⟩
    . exact absurd hold' (hnone serve u hevent hphase endpoint')
    . rw [hphase] at hphase'
      cases hphase'
      rw [hnew, hnew']
    . rw [hphase] at hfirst'
      cases hfirst'
  . rcases bound_step hs h hbound' with hold' | ⟨serve', _, _, hphase', _⟩ | ⟨_, hzero'⟩
    . exact absurd hold' (hnotFirst hfirst endpoint')
    . rw [hfirst] at hphase'
      cases hphase'
    . rw [hzero, hzero']

theorem not_atMostOneBound_of_rebind (hs : Consistent host s)
    (hstep : (clientTransport host).step s event t) (hmeets : ¬RebindsDrained s event)
    : ¬AtMostOneBound t := by
  unfold RebindsDrained at hmeets
  split at hmeets
  . next b u =>
    push Not at hmeets
    rcases hmeets with ⟨serve, phase, hserving, hdrained⟩
    unfold Serve.Drained at hdrained
    push Not at hdrained
    rcases hdrained with ⟨d, hmem, found, endpoint, hdialing, hopen⟩
    have hafter : t.phase (.inr b) = .broker (.serving serve.bind .selecting) := by
      cases systemStep_of_step hstep with
      | acquire hevent => cases hevent
      | client hevent => cases hevent
      | broker hevent hbefore hafter _ hact =>
        cases hevent
        rw [hserving] at hbefore
        cases hbefore
        rcases serveAct_of_brokerAct hact with ⟨hkill, _⟩ | hserve
        . cases hkill
        . rw [hafter, serveAct_bind hserve]
    have hcounted := (hs.serving b serve phase hserving).2.1
    have hnew : Bound t b serve.endpoints := by
      refine ⟨_, _, hafter, ?_, Or.inl rfl⟩
      change serve.closed serve.endpoints = false
      rw [Bool.eq_false_iff]
      intro hclosed
      exact Nat.lt_irrefl _ (hcounted.closed _ hclosed)
    have hold : Bound t b endpoint :=
      ⟨_, _, hafter, Bool.eq_false_iff.mpr hopen, Or.inr (Or.inr ⟨d, hmem, found, hdialing⟩)⟩
    intro hone
    have hlt := hcounted.dialing d found endpoint hdialing
    rw [(hone b endpoint b serve.endpoints hold hnew).2] at hlt
    exact Nat.lt_irrefl _ hlt
  . exact absurd trivial hmeets

theorem atMostOneBound_of_reachable
    (h : ((clientTransport host).restrict RebindsDrained).Reachable s) : AtMostOneBound s := by
  have hboth : Consistent host s ∧ AtMostOneBound s := by
    apply h.invariant (P := fun s => Consistent host s ∧ AtMostOneBound s)
    . intro s hinit
      have hs : Consistent host s := consistent_of_init hinit
      refine ⟨hs, ?_⟩
      rintro b endpoint b' endpoint' ⟨_, _, hserving, _⟩
      have howner := serving_owns hs hserving
      rw [hinit.2.2.2.2.1] at howner
      cases howner
    . intro s t e hs hstep
      exact ⟨consistent_step hs.1 hstep.1, atMostOneBound_step hs.1 hs.2 hstep.1 hstep.2⟩
  exact hboth.2

omit [DecidableEq A] in
theorem socket_by (hs : Consistent host s) (h : SystemStep host s event t)
    (hsocket : t.shared.socket ≠ s.shared.socket)
    : ∃ b action, event = .process (.inr b) (.broker action)
        ∧ s.shared.owner = some (.inr b)
        ∧ ∀ b', s.shared.socket = some b' → b' = b ∨ s.phase (.inr b') = .broker .ended := by
  cases h with
  | acquire _ _ _ _ hact => exact absurd (acquireStep_of_act hact).socket hsocket
  | client _ _ hdial =>
    rcases dial_eq_some hdial with ⟨_, _, hshared⟩
    rw [hshared] at hsocket
    exact absurd rfl hsocket
  | @broker b action phase phase' hevent hbefore _ _ hact =>
    have hholds : phase.holdsOwner = true := by
      rcases (brokerStep_of_act hact).socket with hsame | ⟨hholds, _⟩
      . exact absurd hsame hsocket
      . exact hholds
    have howner : s.shared.owner = some (.inr b) := by
      apply (hs.owner (.inr b)).mpr
      rw [hbefore]
      exact hholds
    refine ⟨b, action, hevent, howner, ?_⟩
    intro b' hb'
    rcases hs.socket b' hb' with hholds' | hended
    . have howner' := (hs.owner (.inr b')).mpr hholds'
      rw [howner, Option.some.injEq, Sum.inr.injEq] at howner'
      exact Or.inl howner'.symm
    . exact Or.inr hended

omit [DecidableEq A] in
theorem granted_by (hs : Consistent host s) (h : SystemStep host s event t) {d : H}
    {stream : Stream A B} {token : Token} {pid : UInt32} {identity : Vector UInt8 32}
    {holder : Option (A ⊕ B)} (hstream : t.shared.stream d = some stream)
    (hresponse : stream.response = some (.lease identity token pid, holder))
    (hnew : (s.shared.stream d).bind Stream.response ≠ stream.response)
    : ∃ serve phase, s.phase (.inr stream.broker) = .broker (.serving serve phase)
        ∧ s.shared.owner = some (.inr stream.broker)
        ∧ serve.handlers.phase d = .granting token := by
  have hstep := stream_step h d
  generalize hbefore : s.shared.stream d = before at hstep hnew
  rw [hstream] at hstep
  cases hstep with
  | keep => exact absurd rfl hnew
  | dial => cases hresponse
  | accept stream => exact absurd rfl hnew
  | respond stream response hwrites hnone =>
    cases hresponse
    rcases hwrites with ⟨b, serve, phase, hserving, hmem, hwritten⟩
    rcases (hs.serving b serve phase hserving).1 d (Or.inl hmem) with ⟨stream', hsome, hbroker, _⟩
    rw [hbefore] at hsome
    cases hsome
    subst hbroker
    refine ⟨serve, phase, hserving, serving_owns hs hserving, ?_⟩
    rcases hwritten with hwritten | ⟨message, herror⟩
    . cases hphase : serve.handlers.phase d <;> rw [hphase] at hwritten <;> cases hwritten
      rfl
    . cases herror

omit [DecidableEq A] in
theorem spawned_by (hs : Consistent host s) (h : SystemStep host s event t) {b : B}
    (hparent : t.shared.parent b ≠ s.shared.parent b)
    : ∃ a action, event = .process (.inl a) (.acquire action)
        ∧ s.shared.startup = some a
        ∧ t.shared.parent b = some a := by
  cases h with
  | broker _ _ _ _ hact =>
    rw [(brokerStep_of_act hact).parent] at hparent
    exact absurd rfl hparent
  | client _ _ hdial =>
    rcases dial_eq_some hdial with ⟨_, _, hshared⟩
    rw [hshared] at hparent
    exact absurd rfl hparent
  | @acquire a action phase phase' hevent hbefore _ _ hact =>
    rcases (acquireStep_of_act hact).parent with ⟨hsame, _⟩ | ⟨child, hspawning, _, hupdate⟩
    . rw [hsame] at hparent
      exact absurd rfl hparent
    . have hstartup : s.shared.startup.map Sum.inl = some (.inl a : A ⊕ B) := by
        apply (hs.startup (.inl a)).mpr
        rw [hbefore, hspawning]
        rfl
      rcases Option.map_eq_some_iff.mp hstartup with ⟨a', hsome, ha⟩
      cases ha
      refine ⟨a, action, hevent, hsome, ?_⟩
      by_cases hb : b = child
      . rw [hupdate, hb, Function.update_self]
      . rw [hupdate, Function.update_of_ne hb] at hparent
        exact absurd rfl hparent

omit [DecidableEq A] in
theorem idle_exit (hs : Consistent host s) (h : SystemStep host s event t) {b : B}
    {serve serve' : Serve H} {instant system : Nat}
    (hserving : s.phase (.inr b) = .broker (.serving serve .selecting))
    (hevent : event = .process (.inr b) (.broker (.tick instant system)))
    (hexit : t.phase (.inr b) = .broker (.serving serve' .cancelling))
    : serve.tasks = []
        ∧ serve.running = []
        ∧ serve.handlers.shared.leases.isEmpty = true
        ∧ instant - serve.idleSince ≥ idleTimeout := by
  cases h with
  | acquire hevent' => rw [hevent'] at hevent; cases hevent
  | client hevent' => rw [hevent'] at hevent; cases hevent
  | broker hevent' hbefore hafter _ hact =>
    rw [hevent'] at hevent
    cases hevent
    rw [hserving] at hbefore
    cases hbefore
    rw [hafter] at hexit
    cases hexit
    rcases serveAct_of_brokerAct hact with ⟨hkill, _⟩ | hserve
    . cases hkill
    . have htick : (serve.tick instant system).2 = .cancelling := by
        simp only [serveAct, Option.some.injEq, Prod.mk.injEq, BrokerPhase.serving.injEq] at hserve
        exact hserve.2.2
      rcases idle_of_tick htick with ⟨hidle, htimeout⟩
      rw [Serve.isIdle, Bool.and_eq_true, List.isEmpty_iff] at hidle
      refine ⟨hidle.1, ?_, hidle.2, htimeout⟩
      rw [List.eq_nil_iff_forall_not_mem]
      intro d hmem
      have htask := (hs.serving b serve .selecting hserving).2.2 d hmem
      rw [hidle.1] at htask
      cases htask

theorem one_bound_endpoint
    : (∀ s : Processes (A ⊕ B) (Runtime A B H) (Phase B H),
        ((clientTransport host).restrict RebindsDrained).Reachable s → AtMostOneBound s)
      ∧ ∀ s : Processes (A ⊕ B) (Runtime A B H) (Phase B H), (clientTransport host).Reachable s →
        (∀ event t, (clientTransport host).step s event t → ¬RebindsDrained s event →
          ¬AtMostOneBound t)
        ∧ (∀ b endpoint, Bound s b endpoint → s.shared.owner = some (.inr b))
        ∧ (∀ event t, (clientTransport host).step s event t →
          t.shared.socket ≠ s.shared.socket →
          ∃ b action, event = .process (.inr b) (.broker action)
            ∧ s.shared.owner = some (.inr b)
            ∧ ∀ b', s.shared.socket = some b' → b' = b ∨ s.phase (.inr b') = .broker .ended)
        ∧ (∀ a lease, s.phase (.inl a) = .acquire (.returned (.ok lease)) →
          ∃ stream pid, s.shared.stream lease.stream = some stream
            ∧ stream.response
              = some (.lease host.identity lease.token pid, some (.inr stream.broker)))
        ∧ (∀ event t d stream identity token pid holder, (clientTransport host).step s event t →
          t.shared.stream d = some stream →
          stream.response = some (.lease identity token pid, holder) →
          (s.shared.stream d).bind Stream.response ≠ stream.response →
          ∃ serve phase, s.phase (.inr stream.broker) = .broker (.serving serve phase)
            ∧ s.shared.owner = some (.inr stream.broker)
            ∧ serve.handlers.phase d = .granting token)
        ∧ (∀ a b b', s.shared.parent b = some a → s.shared.parent b' = some a → b = b')
        ∧ (∀ event t b, (clientTransport host).step s event t →
          t.shared.parent b ≠ s.shared.parent b →
          ∃ a action, event = .process (.inl a) (.acquire action)
            ∧ s.shared.startup = some a
            ∧ t.shared.parent b = some a)
        ∧ (∀ b serve serve' instant system t, s.phase (.inr b) = .broker (.serving serve .selecting) →
          (clientTransport host).step s (.process (.inr b) (.broker (.tick instant system))) t →
          t.phase (.inr b) = .broker (.serving serve' .cancelling) →
          serve.tasks = []
            ∧ serve.running = []
            ∧ serve.handlers.shared.leases.isEmpty = true
            ∧ instant - serve.idleSince ≥ idleTimeout) := by
  refine ⟨fun s => atMostOneBound_of_reachable, ?_⟩
  intro s h
  have hs := consistent_of_reachable h
  refine ⟨?_, ?_, ?_, hs.returned, ?_, hs.child, ?_, ?_⟩
  . intro event t hstep
    exact not_atMostOneBound_of_rebind hs hstep
  . rintro b endpoint ⟨serve, phase, hserving, _⟩
    exact serving_owns hs hserving
  . intro event t hstep
    exact socket_by hs (systemStep_of_step hstep)
  . intro event t d stream identity token pid holder hstep
    exact granted_by hs (systemStep_of_step hstep)
  . intro event t b hstep
    exact spawned_by hs (systemStep_of_step hstep)
  . intro b serve serve' instant system t hserving hstep
    exact idle_exit hs (systemStep_of_step hstep) hserving rfl

end

end ClientTransport

namespace Fixture

open ClientTransport

def clientHost : Host Unit Bool where
  identity := brokerIdentity
  pid _ := 1
  token _ c := clientToken c

def freshTransport : Processes (Unit ⊕ Unit) (Runtime Unit Unit Bool) (ClientTransport.Phase Unit Bool) where
  shared :=
    { startup := none, owner := none, socket := none, listening _ := false, parent _ := none
      stream _ := none }
  phase c :=
    match c with
    | .inl _ => .acquire .idle
    | .inr _ => .broker .absent

def acquires (actions : List (AcquireAction Unit Bool)) : List (ClientTransport.Event Unit Unit Bool) :=
  actions.map fun action => .process (.inl ()) (.acquire action)

def brokers (actions : List (BrokerAction Bool)) : List (ClientTransport.Event Unit Unit Bool) :=
  actions.map fun action => .process (.inr ()) (.broker action)

def connectRequest : ClientBroker.Request where
  version := ClientBroker.version
  operation := .connect (.replicate _ 0) (Bytes.ofString "attached-ssh/1")

def connectInSetup : List (ClientTransport.Event Unit Unit Bool) :=
  acquires [.begin (.ok ()), .attachFails, .openStartup (.ok ()), .lockStartup, .verify (.ok ()),
      .attachFails, .probe, .unlock (.ok ()), .spawn (), .pipe (.ok ())]
    ++ brokers [.start, .open (.ok ()), .lock (.ok ()), .verify (.ok ()), .removeSocket (.ok ()),
      .bindSocket (.ok ()), .setPermissions (.ok ()), .bindFirst (.ok ()) 0 0]
    ++ acquires [.connect false]
    ++ brokers [.accept false, .handler false (clientRequest (.lease brokerIdentity)),
      .handler false .step, .deliver false, .handler false (.write (.ok ()))]
    ++ acquires [.read]
    ++ [.client true connectRequest]
    ++ brokers [.accept true, .handler true (.request (.ok connectRequest)), .handler true .step,
      .handler true .step, .handler true .step]

def rebound : List (ClientTransport.Event Unit Unit Bool) :=
  connectInSetup ++ brokers [.tick 0 30000, .close false, .bind (.ok ())]

def reboundClosed : List (ClientTransport.Event Unit Unit Bool) :=
  connectInSetup ++ brokers [.tick 0 30000, .close true]

def dialed (phase : ClientBroker.Phase Bool) : Option Nat :=
  match phase with
  | .dialing _ endpoint => some endpoint
  | _ => none

def endpoints (s : Processes (Unit ⊕ Unit) (Runtime Unit Unit Bool) (ClientTransport.Phase Unit Bool))
    : Option (List Bool × List (Option Nat)) :=
  match s.phase (.inr ()) with
  | .broker (.serving serve _) =>
    some ([serve.running.contains true, serve.closed 0, serve.closed 1],
      [serve.handlers.shared.endpoint, dialed (serve.handlers.phase true),
        dialed (serve.handlers.phase false)])
  | _ => none

def bindsNone (event : ClientTransport.Event Unit Unit Bool) : Bool :=
  match event with
  | .process _ (.broker (.bind _)) => false
  | _ => true

theorem freshTransport_init : (clientTransport clientHost).init freshTransport :=
  ⟨fun _ => rfl, fun _ => Or.inl rfl, nofun, rfl, rfl, fun _ => ⟨rfl, rfl⟩, fun _ => rfl⟩

end Fixture

/--
The close of an endpoint times out while a Connect still dials with it, and another one is bound.
-/
theorem two_bound_endpoints
    : ¬∀ s, (clientTransport (A := Unit) Fixture.clientHost).Reachable s →
        ClientTransport.AtMostOneBound s := by
  intro hall
  have hresult : (System.replay (ClientTransport.step Fixture.clientHost) Fixture.freshTransport
      Fixture.rebound).bind Fixture.endpoints
        = some ([true, false, false], [some 1, some 0, none]) := by
    decide +kernel
  rcases Option.bind_eq_some_iff.mp hresult with ⟨s, hreplay, hs⟩
  have hone := hall s ⟨_, _, Fixture.freshTransport_init, System.Run.of_replay id hreplay⟩
  unfold Fixture.endpoints at hs
  split at hs
  . next serve phase hserving =>
    simp only [Option.some.injEq, Prod.mk.injEq, List.cons.injEq, and_true] at hs
    rcases hs with ⟨⟨hrunning, hopen, hopen'⟩, hslot, hdialed, _⟩
    unfold Fixture.dialed at hdialed
    split at hdialed
    . next found endpoint hphase =>
      cases hdialed
      have hold : ClientTransport.Bound s () 0 :=
        ⟨serve, phase, hserving, hopen, Or.inr (Or.inr ⟨true, by simpa using hrunning, found, hphase⟩)⟩
      have hnew : ClientTransport.Bound s () 1 := ⟨serve, phase, hserving, hopen', Or.inl hslot⟩
      exact absurd (hone () 0 () 1 hold hnew).2 (by decide)
    . cases hdialed
  . cases hs

theorem ClientTransport.one_bound_endpoint_closed
    : ∃ s t, ((clientTransport (A := Unit) Fixture.clientHost).restrict
          ClientTransport.RebindsDrained).Reachable s
        ∧ (clientTransport Fixture.clientHost).step s
          (.process (.inr ()) (.broker (.bind (.ok ())))) t
        ∧ ClientTransport.AtMostOneBound t := by
  have hresult : (System.replay
      (fun s e => if Fixture.bindsNone e then ClientTransport.step Fixture.clientHost s e else none)
      Fixture.freshTransport Fixture.reboundClosed).map
        (fun s => ((ClientTransport.step Fixture.clientHost s
          (.process (.inr ()) (.broker (.bind (.ok ()))))).isSome, Fixture.endpoints s))
        = some (true, some ([true, true, false], [none, some 0, none])) := by
    decide +kernel
  rcases Option.map_eq_some_iff.mp hresult with ⟨s, hreplay, hs⟩
  rw [Prod.mk.injEq] at hs
  rcases hs with ⟨hsome, hendpoints⟩
  rcases Option.isSome_iff_exists.mp hsome with ⟨t, hstep⟩
  have hreachable : ((clientTransport Fixture.clientHost).restrict
      ClientTransport.RebindsDrained).Reachable s := by
    refine ⟨_, _, Fixture.freshTransport_init, System.Run.of_replay ?_ hreplay⟩
    intro s t e h
    split at h
    . next hnone =>
      refine ⟨h, ?_⟩
      unfold ClientTransport.RebindsDrained
      split
      . cases hnone
      . trivial
    . cases h
  have hdrained : ClientTransport.RebindsDrained s (.process (.inr ()) (.broker (.bind (.ok ())))) := by
    intro serve phase hserving d hmem found endpoint hdialing
    simp only [Fixture.endpoints, hserving, Option.some.injEq, Prod.mk.injEq, List.cons.injEq,
      and_true] at hendpoints
    rcases hendpoints with ⟨⟨_, hclosed, _⟩, _, htrue, hfalse⟩
    cases d with
    | false =>
      rw [hdialing] at hfalse
      cases hfalse
    | true =>
      rw [hdialing] at htrue
      cases htrue
      exact hclosed
  exact ⟨s, t, hreachable, hstep,
    ClientTransport.one_bound_endpoint.1 t (hreachable.step ⟨hstep, hdrained⟩)⟩

end Attached
