import Attached.Client.Serve
import Attached.Library.Transition

/-!
This module contains the acquire calls of the client commands, and the system that they form with
the brokers that they spawn and with all other clients, for one identity and one runtime directory.
-/

namespace Attached

namespace ClientTransport

open ClientBroker (Token Request Response)

structure Lease (H : Type) where
  stream : H
  token : Token

inductive AcquirePhase (B H : Type) where
  | idle
  /--
  Connects to the socket: at first without a lock, and then with `startup.lock` and with whether it
  spawned a broker already.
  -/
  | attaching (started : Option Bool)
  | requesting (started : Option Bool) (stream : H)
  | opening
  | locking
  | verifying
  | checking (started : Bool)
  | probing
  | spawning
  | piping (child : B)
  | returned (result : Except Failure (Lease H))

namespace AcquirePhase

variable {B H : Type}

def holdsStartup (phase : AcquirePhase B H) : Bool :=
  match phase with
  | .attaching (some _) => true
  | .requesting (some _) _ => true
  | .verifying => true
  | .checking _ => true
  | .probing => true
  | .spawning => true
  | .piping _ => true
  | _ => false

def holdsOwner (phase : AcquirePhase B H) : Bool :=
  match phase with
  | .probing => true
  | _ => false

def isPastSpawn (phase : AcquirePhase B H) : Bool :=
  match phase with
  | .attaching (some true) => true
  | .requesting (some true) _ => true
  | .checking true => true
  | .piping _ => true
  | .returned _ => true
  | _ => false

def afterAttach (started : Option Bool) : AcquirePhase B H :=
  match started with
  | none => .opening
  | some started => .checking started

end AcquirePhase

inductive AcquireAction (B H : Type) where
  | begin (result : Except Failure Unit)
  | connect (stream : H)
  | read
  | attachFails
  | openStartup (result : Except Failure Unit)
  | lockStartup
  | verify (result : Except Failure Unit)
  | probe
  | unlock (result : Except Failure Unit)
  | spawn (child : B)
  | pipe (result : Except Failure Unit)
  /-- The call ends with an error: a lock or a spawn that failed, the deadline, or its caller. -/
  | fail (error : Failure)

section

variable {A B H : Type} [DecidableEq B] [DecidableEq H]

def finish (runtime : Runtime A B H) (phase : AcquirePhase B H)
    (result : Except Failure (Lease H)) : Option (Runtime A B H × AcquirePhase B H) :=
  some
    ({ runtime with
        startup := if phase.holdsStartup then none else runtime.startup
        owner := if phase.holdsOwner then none else runtime.owner }, .returned result)

/-- The atomic steps of `acquire`. -/
def acquireAct (identity : Vector UInt8 32) (a : A) (runtime : Runtime A B H)
    (phase : AcquirePhase B H) (action : AcquireAction B H)
    : Option (Runtime A B H × AcquirePhase B H) :=
  match phase, action with
  | .idle, .begin result =>
    match result with
    | .ok _ => some (runtime, .attaching none)
    | .error e => finish runtime phase (.error e)
  | .attaching started, .connect h =>
    (runtime.dial h { version := ClientBroker.version, operation := .lease identity }).map
      fun runtime => (runtime, .requesting started h)
  | .attaching started, .attachFails => some (runtime, .afterAttach started)
  | .requesting started _, .attachFails => some (runtime, .afterAttach started)
  | .requesting started h, .read =>
    match (runtime.stream h).bind Stream.response with
    | none => none
    | some (.lease actual token _, _) =>
      if identity == actual then
        finish runtime phase (.ok { stream := h, token })
      else
        some (runtime, .afterAttach started)
    | some _ => some (runtime, .afterAttach started)
  | .opening, .openStartup result =>
    match result with
    | .ok _ => some (runtime, .locking)
    | .error e => finish runtime phase (.error e)
  | .locking, .lockStartup =>
    match runtime.startup with
    | none => some ({ runtime with startup := some a }, .verifying)
    | some _ => some (runtime, .locking)
  | .verifying, .verify result =>
    match result with
    | .ok _ => some (runtime, .attaching (some false))
    | .error e => finish runtime phase (.error e)
  | .checking started, .probe =>
    if started then
      some (runtime, .attaching (some true))
    else
      match runtime.owner with
      | none => some ({ runtime with owner := some (.inl a) }, .probing)
      | some _ => some (runtime, .attaching (some false))
  | .probing, .unlock result =>
    match result with
    | .ok _ => some ({ runtime with owner := none }, .spawning)
    | .error e => finish runtime phase (.error e)
  | .spawning, .spawn child =>
    match runtime.parent child with
    | none =>
      some ({ runtime with parent := Function.update runtime.parent child (some a) }, .piping child)
    | some _ => none
  | .piping _, .pipe result =>
    match result with
    | .ok _ => some (runtime, .attaching (some true))
    | .error e => finish runtime phase (.error e)
  | .idle, .fail _ => none
  | .returned _, .fail _ => none
  | phase, .fail e => finish runtime phase (.error e)
  | _, _ => none

end

inductive Phase (B H : Type) where
  | acquire (phase : AcquirePhase B H)
  | broker (phase : BrokerPhase H)

namespace Phase

variable {B H : Type}

def holdsStartup (phase : Phase B H) : Bool :=
  match phase with
  | .acquire phase => phase.holdsStartup
  | .broker _ => false

def holdsOwner (phase : Phase B H) : Bool :=
  match phase with
  | .acquire phase => phase.holdsOwner
  | .broker phase => phase.holdsOwner

end Phase

inductive Action (B H : Type) where
  | acquire (action : AcquireAction B H)
  | broker (action : BrokerAction H)

structure Host (B H : Type) where
  identity : Vector UInt8 32
  pid : B → UInt32
  token : B → H → Except Failure Token

section

variable {A B H : Type} [DecidableEq B] [DecidableEq H]

def act (host : Host B H) (c : A ⊕ B) (runtime : Runtime A B H) (phase : Phase B H)
    (action : Action B H) : Option (Runtime A B H × Phase B H) :=
  match c, phase, action with
  | .inl a, .acquire phase, .acquire action =>
    (acquireAct host.identity a runtime phase action).map fun (runtime, phase) =>
      (runtime, .acquire phase)
  | .inr b, .broker phase, .broker action =>
    (brokerAct host.identity (host.pid b) (host.token b) b runtime phase action).map
      fun (runtime, phase) => (runtime, .broker phase)
  | _, _, _ => none

inductive Event (A B H : Type) where
  | process (c : A ⊕ B) (action : Action B H)
  | client (stream : H) (request : Request)

def step [DecidableEq A] (host : Host B H) (s : Processes (A ⊕ B) (Runtime A B H) (Phase B H))
    (event : Event A B H) : Option (Processes (A ⊕ B) (Runtime A B H) (Phase B H)) :=
  match event with
  | .process c action => s.step (act host) c action
  | .client h request =>
    (s.shared.dial h request).map fun shared => { s with shared }

end

def Bound {A B H : Type} (s : Processes (A ⊕ B) (Runtime A B H) (Phase B H)) (b : B) (endpoint : Nat)
    : Prop :=
  ∃ serve phase, s.phase (.inr b) = .broker (.serving serve phase) ∧ serve.Bound phase endpoint

def AtMostOneBound {A B H : Type} (s : Processes (A ⊕ B) (Runtime A B H) (Phase B H)) : Prop :=
  ∀ b endpoint b' endpoint', Bound s b endpoint → Bound s b' endpoint' →
    b = b' ∧ endpoint = endpoint'

def RebindsDrained {A B H : Type} (s : Processes (A ⊕ B) (Runtime A B H) (Phase B H))
    (event : Event A B H) : Prop :=
  match event with
  | .process (.inr b) (.broker (.bind (.ok _))) =>
    ∀ serve phase, s.phase (.inr b) = .broker (.serving serve phase) → serve.Drained
  | _ => True

end ClientTransport

/--
Acquire calls, brokers and other clients. The directory may be left over from brokers that are gone.
-/
def clientTransport {A B H : Type} [DecidableEq A] [DecidableEq B] [DecidableEq H]
    (host : ClientTransport.Host B H)
    : System (Processes (A ⊕ B) (ClientTransport.Runtime A B H) (ClientTransport.Phase B H))
        (ClientTransport.Event A B H) where
  init s :=
    (∀ a, s.phase (.inl a) = .acquire .idle)
      ∧ (∀ b, s.phase (.inr b) = .broker .absent ∨ s.phase (.inr b) = .broker .ended)
      ∧ (∀ b, s.shared.socket = some b → s.phase (.inr b) = .broker .ended)
      ∧ s.shared.startup = none
      ∧ s.shared.owner = none
      ∧ (∀ b, s.shared.listening b = false ∧ s.shared.parent b = none)
      ∧ ∀ h, s.shared.stream h = none
  step s event t := ClientTransport.step host s event = some t

end Attached
