import Attached.Library.JsonLemmas
import Attached.Library.Keyed
import Attached.Library.Serde
import Attached.Library.Transition
import Attached.Local.Migration

/-!
This module contains the pins of SSH host keys. The first connection to a publisher pins the name and
the host key it presents, and a later one may replace them only if the user says so.
-/

open Std

namespace Attached

abbrev HostPins := TreeMap String (String × String) compare

namespace HostPins

def pinToJson (pin : String × String) : Json :=
  .array [.ofText pin.1, .ofText pin.2]

def toVec (pins : HostPins) : List UInt8 :=
  (Json.object (pins.toList.map fun (peer, pin) => (Bytes.ofString peer, pinToJson pin))).print

def pinOfJson (json : Json) : Option (String × String) :=
  match json with
  | .array [username, hostKey] => do
    return (← Serde.asText username, ← Serde.asText hostKey)
  | _ => none

def memberOfJson (member : List UInt8 × Json) : Option (String × (String × String)) := do
  return (← Bytes.toString? member.1, ← pinOfJson member.2)

def fromSlice (bytes : List UInt8) : Option HostPins := do
  match ← Json.parse bytes with
  | .object members => return TreeMap.ofList (← members.mapM memberOfJson) compare
  | _ => none

def file : String := "ssh-pins.json"

def limit : Nat := 1024 * 1024

def read (io : LocalIo) : FileEffect HostPins := do
  match ← io.readSecretOptionalBounded file limit with
  | some bytes => Effect.lift (Except.okOr (fromSlice bytes) (.error "invalid JSON"))
  | none => return ∅

def store (io : LocalIo) (pins : HostPins) (peer : String) (pin : String × String)
    : FileEffect Unit := do
  let bytes := toVec (pins.insert peer pin)
  Effect.lift (Except.ensure (bytes.length ≤ limit) (.error "SSH host pin storage is full"))
  io.atomicReplace bytes

def changed (peer : String) : Failure :=
  .error ("publisher SSH identity changed; verify the publisher, then deliberately rerun "
    ++ s!"`attached ssh --trust-new-host-key {peer}`")

end HostPins

section

variable {Peer : Type} (toText : Peer → String)

open HostPins

def checkHostPin (io : LocalIo) (peer : Peer) (username hostKey : String) : FileEffect Bool := do
  Effect.lift io.lock
  match ← io.readSecretOptionalBounded file limit with
  | some bytes =>
    let pins ← Effect.lift (Except.okOr (fromSlice bytes) (.error "invalid JSON"))
    match pins[toText peer]? with
    | some previous => return previous == (username, hostKey)
    | none => return true
  | none => return true

def pinHost (io : LocalIo) (peer : Peer) (username hostKey : String) (trustNewHostKey : Bool)
    : FileEffect Unit := do
  let pin := (username, hostKey)
  Effect.lift io.lock
  let pins ← HostPins.read io
  match pins[toText peer]? with
  | some previous =>
    Effect.lift (Except.ensure (previous == pin || trustNewHostKey) (changed (toText peer)))
    if previous == pin then
      return ()
    else
      store io pins (toText peer) pin
  | none => store io pins (toText peer) pin

end

inductive HostPinCall (Peer : Type) where
  | pin (io : LocalIo) (peer : Peer) (username hostKey : String) (trustNewHostKey : Bool)
  | check (io : LocalIo) (peer : Peer) (username hostKey : String)

namespace HostPinCall

variable {Peer : Type} (toText : Peer → String)

def effect (call : HostPinCall Peer) : FileEffect Bool :=
  match call with
  | .pin io peer username hostKey trustNewHostKey => do
    pinHost toText io peer username hostKey trustNewHostKey
    return true
  | .check io peer username hostKey => checkHostPin toText io peer username hostKey

end HostPinCall

/--
Any sequence of calls from an absent store, each with what it returned. The lock makes them atomic.
-/
def hostPinSystem {Peer : Type} (toText : Peer → String)
    : System StateFile (HostPinCall Peer × Except Failure Bool) where
  init file := file = none
  step file label file' := (label.1.effect toText).run file = (label.2, file')

namespace HostPins

theorem pinOfJson_pinToJson (pin : String × String) : pinOfJson (pinToJson pin) = some pin := by
  simp [pinOfJson, pinToJson, Json.ofText, Serde.asText, Serde.asString]

theorem mapM_memberOfJson (pins : List (String × (String × String)))
    : (pins.map fun (peer, pin) => (Bytes.ofString peer, pinToJson pin)).mapM memberOfJson
        = some pins := by
  induction pins with
  | nil => rfl
  | cons pin pins ih =>
    simp [List.mapM_cons, memberOfJson, pinOfJson_pinToJson, ih]

theorem parse_toVec (pins : HostPins)
    : Json.parse (toVec pins)
        = some (.object (pins.toList.map fun (peer, pin) => (Bytes.ofString peer, pinToJson pin))) := by
  apply Json.parse_print
  apply Json.reads_object_of_text (by decide)
  intro m hm
  rcases List.mem_map.mp hm with ⟨⟨peer, pin⟩, _, rfl⟩
  refine ⟨by simp, ?_⟩
  apply Json.reads_array (by decide)
  intro element helement
  simp only [List.mem_cons, List.not_mem_nil, or_false] at helement
  rcases helement with rfl | rfl
  . exact Json.reads_ofText _
  . exact Json.reads_ofText _

theorem fromSlice_toVec (pins : HostPins)
    : fromSlice (toVec pins) = some (TreeMap.ofList pins.toList compare) := by
  unfold fromSlice
  rw [parse_toVec, Option.bind_eq_bind, Option.bind_some]
  dsimp only
  rw [mapM_memberOfJson]
  rfl

def pinned (file : StateFile) (peer : String) : Option (String × String) := do
  let pins ← fromSlice (← file)
  pins[peer]?

theorem full_ne_changed (peer : String)
    : Failure.error "SSH host pin storage is full" ≠ changed peer := by
  intro h
  have hhead := congrArg (fun s => s.toList.head?) (Failure.error.inj h)
  simp at hhead

def Written (file : StateFile) : Prop :=
  file = none ∨ ∃ pins, file = some (toVec pins) ∧ (toVec pins).length ≤ limit

theorem pinned_toVec (pins : HostPins) (peer : String)
    : pinned (some (toVec pins)) peer = pins[peer]? := by
  rw [pinned, Option.bind_eq_bind, Option.bind_some, fromSlice_toVec]
  exact Keyed.getElem?_ofList_toList

variable {io : LocalIo} {file file' : StateFile}

theorem readOnly_read : (HostPins.read io).ReadOnly := by
  apply Effect.ReadOnly.bind (SecretStore.readOnly_readSecretOptionalBounded _ _)
  intro bytes
  cases bytes with
  | none => exact Effect.readOnly_pure _
  | some bytes => exact Effect.readOnly_lift _

theorem run_readSecret (h : Written file) (hread : io.read = .ok ())
    : (io.readSecretOptionalBounded HostPins.file limit).run file = (.ok file, file) := by
  rcases h with rfl | ⟨pins, rfl, hlength⟩
  . simp [LocalIo.readSecretOptionalBounded, LocalEncryption.readSecretOptionalBounded, hread]
  . exact SecretStore.run_readSecretOptionalBounded hread hlength

theorem run_read (h : Written file) (hread : io.read = .ok ())
    : ∃ pins : HostPins, (HostPins.read io).run file = (.ok pins, file)
        ∧ ∀ peer, pins[peer]? = pinned file peer := by
  unfold HostPins.read
  rw [Effect.run_bind_of_ok (run_readSecret h hread)]
  rcases h with rfl | ⟨pins, rfl, _⟩
  . refine ⟨∅, rfl, ?_⟩
    intro peer
    simp [pinned]
  . refine ⟨TreeMap.ofList pins.toList compare, ?_, ?_⟩
    . simp [fromSlice_toVec]
    . intro peer
      rw [pinned_toVec]
      exact Keyed.getElem?_ofList_toList

theorem store_eq_ok {pins : HostPins} {peer : String} {pin : String × String} {u : Unit}
    (h : (store io pins peer pin).run file = (.ok u, file'))
    : file' = some (toVec (pins.insert peer pin)) ∧ (toVec (pins.insert peer pin)).length ≤ limit := by
  simp only [store, LocalIo.atomicReplace, Effect.run_bind_eq_ok_iff, Effect.run_lift,
    Effect.run_set, Prod.mk.injEq, Except.ensure_eq_ok_iff, decide_eq_true_eq] at h
  rcases h with ⟨_, _, ⟨hlength, rfl⟩, _, _, _, _, rfl⟩
  exact ⟨rfl, hlength⟩

theorem store_ne_changed {pins : HostPins} {peer text : String} {pin : String × String}
    (hinstall : io.install = .ok ())
    : ((store io pins peer pin).run file).1 ≠ .error (changed text) := by
  unfold store LocalIo.atomicReplace
  by_cases hlength : (toVec (pins.insert peer pin)).length ≤ limit
  . rw [Effect.run_ensure_bind (decide_eq_true hlength), hinstall]
    nofun
  . rw [Effect.run_ensure_bind_of_false (decide_eq_false hlength)]
    intro h
    exact full_ne_changed text (Except.error.inj h)

theorem failsClosed_store (pins : HostPins) (peer : String) (pin : String × String)
    : (store io pins peer pin).FailsClosed := by
  apply Effect.FailsClosed.bind (Effect.readOnly_lift _)
  intro _
  exact SecretStore.failsClosed_atomicReplace _

end HostPins

section

variable {Peer : Type} {toText : Peer → String} {io : LocalIo} {file file' : StateFile}
  {peer : Peer} {username hostKey : String} {trustNewHostKey : Bool}

open HostPins

theorem failsClosed_pinHost
    : (pinHost toText io peer username hostKey trustNewHostKey).FailsClosed := by
  apply Effect.FailsClosed.bind (Effect.readOnly_lift _)
  intro _
  apply Effect.FailsClosed.bind readOnly_read
  intro pins
  split
  . apply Effect.FailsClosed.bind (Effect.readOnly_lift _)
    intro _
    split
    . exact (Effect.readOnly_pure _).failsClosed
    . exact failsClosed_store pins _ _
  . exact failsClosed_store pins _ _

theorem readOnly_checkHostPin : (checkHostPin toText io peer username hostKey).ReadOnly := by
  apply Effect.ReadOnly.bind (Effect.readOnly_lift _)
  intro _
  apply Effect.ReadOnly.bind (SecretStore.readOnly_readSecretOptionalBounded _ _)
  intro bytes
  cases bytes with
  | none => exact Effect.readOnly_pure _
  | some bytes =>
    apply Effect.ReadOnly.bind (Effect.readOnly_lift _)
    intro pins
    split
    . exact Effect.readOnly_pure _
    . exact Effect.readOnly_pure _

theorem file_of_check {result : Except Failure Bool}
    (h : (checkHostPin toText io peer username hostKey).run file = (result, file'))
    : file' = file := by
  have hreadOnly : (checkHostPin toText io peer username hostKey).ReadOnly := readOnly_checkHostPin
  have hsame := hreadOnly file
  rw [h] at hsame
  exact hsame

theorem io_of_pinHost {u : Unit}
    (h : (pinHost toText io peer username hostKey trustNewHostKey).run file = (.ok u, file'))
    : io.lock = .ok () ∧ io.read = .ok () := by
  rcases Effect.run_bind_eq_ok_iff.mp h with ⟨_, _, hlock, hrest⟩
  rcases Effect.run_bind_eq_ok_iff.mp hrest with ⟨_, _, hpins, _⟩
  rcases Effect.run_bind_eq_ok_iff.mp hpins with ⟨_, _, hbytes, _⟩
  rcases Effect.run_bind_eq_ok_iff.mp hbytes with ⟨_, _, hread, _⟩
  rw [Effect.run_lift, Prod.mk.injEq] at hlock hread
  exact ⟨hlock.1, hread.1⟩

theorem written_of_store {pins : HostPins} {pin : String × String} {text : String} {u : Unit}
    (hpins : ∀ text, pins[text]? = pinned file text)
    (h : (store io pins text pin).run file = (.ok u, file'))
    : Written file'
        ∧ ∀ text', pinned file' text' = if text' = text then some pin else pinned file text' := by
  rcases store_eq_ok h with ⟨rfl, hlength⟩
  refine ⟨Or.inr ⟨_, rfl, hlength⟩, ?_⟩
  intro text'
  rw [pinned_toVec, TreeMap.getElem?_insert, hpins]
  by_cases htext : text' = text
  . simp [htext]
  . simp [htext, Ne.symm htext]

theorem run_pinHost (toText : Peer → String) (peer : Peer) (username hostKey : String)
    (trustNewHostKey : Bool) (h : Written file) (hlock : io.lock = .ok ()) (hread : io.read = .ok ())
    : ∃ pins : HostPins, (∀ peer, pins[peer]? = pinned file peer)
        ∧ (pinHost toText io peer username hostKey trustNewHostKey).run file
          =
        match pinned file (toText peer) with
        | some previous =>
          if previous = (username, hostKey) then
            (.ok (), file)
          else if trustNewHostKey then
            (store io pins (toText peer) (username, hostKey)).run file
          else
            (.error (changed (toText peer)), file)
        | none => (store io pins (toText peer) (username, hostKey)).run file := by
  rcases run_read h hread with ⟨pins, hpins, hlookup⟩
  refine ⟨pins, hlookup, ?_⟩
  unfold pinHost
  dsimp only
  rw [hlock, Effect.run_bind_of_ok (Effect.run_lift _ _), Effect.run_bind_of_ok hpins, hlookup]
  cases pinned file (toText peer) with
  | none => rfl
  | some previous =>
    dsimp only
    by_cases hsame : previous = (username, hostKey)
    . rw [if_pos hsame, Effect.run_ensure_bind (by simp [hsame])]
      simp [hsame]
    . rw [if_neg hsame]
      cases trustNewHostKey with
      | true =>
        rw [Effect.run_ensure_bind (by simp)]
        simp [hsame]
      | false =>
        rw [Effect.run_ensure_bind_of_false (by simp [hsame])]
        rfl

theorem run_pinHost_untrusted {previous : String × String} (h : Written file)
    (hlock : io.lock = .ok ()) (hread : io.read = .ok ())
    (hprevious : pinned file (toText peer) = some previous)
    : (pinHost toText io peer username hostKey false).run file
        =
      if previous = (username, hostKey) then
        (.ok (), file)
      else
        (.error (changed (toText peer)), file) := by
  rcases run_pinHost toText peer username hostKey false h hlock hread with ⟨pins, _, hrun⟩
  rw [hrun, hprevious]
  simp

theorem pinHost_eq_ok {u : Unit} (h : Written file)
    (hrun : (pinHost toText io peer username hostKey trustNewHostKey).run file = (.ok u, file'))
    : Written file'
        ∧ (∀ text, pinned file' text
          = if text = toText peer then some (username, hostKey) else pinned file text)
        ∧ (pinned file (toText peer) = none
          ∨ pinned file (toText peer) = some (username, hostKey)
          ∨ trustNewHostKey = true) := by
  rcases io_of_pinHost hrun with ⟨hlock, hread⟩
  rcases run_pinHost toText peer username hostKey trustNewHostKey h hlock hread with
    ⟨pins, hpins, hcases⟩
  rw [hcases] at hrun
  cases hprevious : pinned file (toText peer) with
  | none =>
    rw [hprevious] at hrun
    rcases written_of_store hpins hrun with ⟨hwritten, hlookup⟩
    exact ⟨hwritten, hlookup, Or.inl rfl⟩
  | some previous =>
    rw [hprevious] at hrun
    dsimp only at hrun
    by_cases hsame : previous = (username, hostKey)
    . rw [if_pos hsame] at hrun
      cases hrun
      refine ⟨h, ?_, Or.inr (Or.inl (congrArg some hsame))⟩
      intro text
      split
      . next htext => rw [htext, hprevious, hsame]
      . rfl
    . rw [if_neg hsame] at hrun
      cases trustNewHostKey with
      | true =>
        rw [if_pos rfl] at hrun
        rcases written_of_store hpins hrun with ⟨hwritten, hlookup⟩
        exact ⟨hwritten, hlookup, Or.inr (Or.inr rfl)⟩
      | false => cases hrun

theorem checkHostPin_eq_ok {answer : Bool} (h : Written file)
    (hrun : (checkHostPin toText io peer username hostKey).run file = (.ok answer, file'))
    : answer = (pinned file (toText peer)).all (· == (username, hostKey)) := by
  rcases Effect.run_bind_eq_ok_iff.mp hrun with ⟨_, _, hlock, hrest⟩
  rw [Effect.run_lift, Prod.mk.injEq] at hlock
  rcases hlock with ⟨_, rfl⟩
  rcases Effect.run_bind_eq_ok_iff.mp hrest with ⟨bytes, _, hbytes, hrest⟩
  rcases h with rfl | ⟨pins, rfl, hlength⟩
  . rcases SecretStore.readSecretOptionalBounded_none_eq_ok hbytes with ⟨rfl, rfl⟩
    cases hrest
    rfl
  . rcases SecretStore.readSecretOptionalBounded_eq_ok hbytes with ⟨rfl, rfl⟩
    rcases Effect.run_bind_eq_ok_iff.mp hrest with ⟨pins', _, hpins, hrest⟩
    rw [Effect.run_lift, HostPins.fromSlice_toVec, Prod.mk.injEq] at hpins
    rcases hpins with ⟨hpins, rfl⟩
    cases hpins
    rw [Keyed.getElem?_ofList_toList] at hrest
    rw [pinned_toVec]
    cases hpin : pins[toText peer]? with
    | none =>
      rw [hpin] at hrest
      cases hrest
      rfl
    | some previous =>
      rw [hpin] at hrest
      cases hrest
      rfl

def pinAfter [DecidableEq Peer] (peer : Peer) (pin : Option (String × String))
    (e : HostPinCall Peer × Except Failure Bool) : Option (String × String) :=
  match e with
  | (.pin _ peer' username hostKey _, .ok _) =>
    if peer' = peer then some (username, hostKey) else pin
  | _ => pin

def lastPin [DecidableEq Peer] (peer : Peer) (es : List (HostPinCall Peer × Except Failure Bool))
    : Option (String × String) :=
  es.foldl (pinAfter peer) none

theorem failsClosed_effect (call : HostPinCall Peer) : (call.effect toText).FailsClosed := by
  cases call with
  | pin io peer username hostKey trustNewHostKey => exact Effect.FailsClosed.map failsClosed_pinHost
  | check io peer username hostKey => exact readOnly_checkHostPin.failsClosed

theorem pinHost_of_effect {answer : Bool}
    (h : ((HostPinCall.pin io peer username hostKey trustNewHostKey).effect toText).run file
      = (.ok answer, file'))
    : answer = true
        ∧ (pinHost toText io peer username hostKey trustNewHostKey).run file = (.ok (), file') := by
  rcases Effect.run_bind_eq_ok_iff.mp h with ⟨_, _, hpin, hrest⟩
  cases hrest
  exact ⟨rfl, hpin⟩

theorem written_step {label : HostPinCall Peer × Except Failure Bool} (h : Written file)
    (hstep : (hostPinSystem toText).step file label file') : Written file' := by
  rcases label with ⟨call, result⟩
  change (call.effect toText).run file = (result, file') at hstep
  cases result with
  | error e =>
    rw [failsClosed_effect call hstep]
    exact h
  | ok answer =>
    cases call with
    | pin io peer username hostKey trustNewHostKey =>
      exact (pinHost_eq_ok h (pinHost_of_effect hstep).2).1
    | check io peer username hostKey =>
      rw [file_of_check hstep]
      exact h

theorem pinned_step [DecidableEq Peer] (htext : Function.Injective toText)
    {label : HostPinCall Peer × Except Failure Bool} (h : Written file)
    (hstep : (hostPinSystem toText).step file label file') (peer : Peer)
    : pinned file' (toText peer) = pinAfter peer (pinned file (toText peer)) label := by
  rcases label with ⟨call, result⟩
  change (call.effect toText).run file = (result, file') at hstep
  cases call with
  | pin io peer' username hostKey trustNewHostKey =>
    cases result with
    | error e =>
      rw [failsClosed_effect _ hstep]
      rfl
    | ok answer =>
      rw [(pinHost_eq_ok h (pinHost_of_effect hstep).2).2.1, pinAfter]
      simp only [htext.eq_iff, eq_comm]
  | check io peer' username hostKey =>
    rw [file_of_check hstep]
    rfl

theorem written_run {es : List (HostPinCall Peer × Except Failure Bool)}
    (h : (hostPinSystem toText).Run none es file) : Written file :=
  h.invariant written_step (Or.inl rfl)

theorem pinned_run [DecidableEq Peer] (htext : Function.Injective toText)
    {es : List (HostPinCall Peer × Except Failure Bool)}
    (h : (hostPinSystem toText).Run none es file) (peer : Peer)
    : pinned file (toText peer) = lastPin peer es := by
  induction h with
  | nil => rfl
  | snoc hrun hstep ih =>
    rw [pinned_step htext (written_run hrun) hstep peer, ih, lastPin, lastPin, List.foldl_append]
    rfl

theorem trust_on_first_use [DecidableEq Peer] (htext : Function.Injective toText)
    {es : List (HostPinCall Peer × Except Failure Bool)}
    (h : (hostPinSystem toText).Run none es file)
    : (∀ peer, pinned file (toText peer) = lastPin peer es)
      ∧ (∀ io, io.read = .ok () →
        ∃ pins : HostPins, (HostPins.read io).run file = (.ok pins, file)
          ∧ ∀ peer, pins[toText peer]? = lastPin peer es)
      ∧ (∀ call e file', (hostPinSystem toText).step file (call, .error e) file' → file' = file)
      ∧ (∀ call result file' peer, (hostPinSystem toText).step file (call, result) file' →
        pinned file' (toText peer) ≠ pinned file (toText peer) →
        ∃ io username hostKey trustNewHostKey answer,
          call = .pin io peer username hostKey trustNewHostKey
            ∧ result = .ok answer
            ∧ pinned file' (toText peer) = some (username, hostKey)
            ∧ (pinned file (toText peer) = none ∨ trustNewHostKey = true))
      ∧ (∀ io peer username hostKey previous, pinned file (toText peer) = some previous →
        io.lock = .ok () → io.read = .ok () →
        (((pinHost toText io peer username hostKey false).run file).1 = .ok ()
          ↔
        previous = (username, hostKey)))
      ∧ ∀ io peer username hostKey result file',
        (checkHostPin toText io peer username hostKey).run file = (result, file') →
        file' = file
          ∧ ∀ answer, result = .ok answer →
            ∀ io, io.lock = .ok () → io.read = .ok () → io.install = .ok () →
            (answer = false
              ↔
            ((pinHost toText io peer username hostKey false).run file).1
              = .error (changed (toText peer))) := by
  have hwritten := written_run h
  have hpinned := pinned_run htext h
  refine ⟨hpinned, ?_, ?_, ?_, ?_, ?_⟩
  . intro io hread
    rcases run_read hwritten hread with ⟨pins, hrun, hpins⟩
    refine ⟨pins, hrun, ?_⟩
    intro peer
    rw [hpins, hpinned]
  . intro call e file' hstep
    exact failsClosed_effect call hstep
  . intro call result file' peer hstep hne
    have hpin := pinned_step htext hwritten hstep peer
    cases call with
    | check io peer' username hostKey => exact absurd hpin hne
    | pin io peer' username hostKey trustNewHostKey =>
      cases result with
      | error e => exact absurd hpin hne
      | ok answer =>
        by_cases hpeer : peer' = peer
        . subst hpeer
          rw [pinAfter, if_pos rfl] at hpin
          refine ⟨io, username, hostKey, trustNewHostKey, answer, rfl, rfl, hpin, ?_⟩
          rcases (pinHost_eq_ok hwritten (pinHost_of_effect hstep).2).2.2 with hnone | hsame | htrust
          . exact Or.inl hnone
          . rw [hpin, hsame] at hne
            exact absurd rfl hne
          . exact Or.inr htrust
        . rw [pinAfter, if_neg hpeer] at hpin
          exact absurd hpin hne
  . intro io peer username hostKey previous hprevious hlock hread
    rw [run_pinHost_untrusted hwritten hlock hread hprevious]
    split
    . next hsame => simp [hsame]
    . next hsame => simp [hsame]
  . intro io peer username hostKey result file' hrun
    refine ⟨file_of_check hrun, ?_⟩
    rintro answer rfl io' hlock hread hinstall
    rw [checkHostPin_eq_ok hwritten hrun]
    cases hprevious : pinned file (toText peer) with
    | none =>
      rcases run_pinHost toText peer username hostKey false hwritten hlock hread with
        ⟨pins, _, hcases⟩
      rw [hcases, hprevious]
      simp [store_ne_changed hinstall]
    | some previous =>
      rw [run_pinHost_untrusted hwritten hlock hread hprevious]
      by_cases hsame : previous = (username, hostKey)
      . simp [hsame]
      . simp [hsame]

end

namespace Fixture

def peerText (trusted : Bool) : String :=
  if trusted then "b" else "a"

def pinCall (hostKey : String) (trustNewHostKey : Bool) : HostPinCall Bool :=
  .pin localIo true "account" hostKey trustNewHostKey

def checkCall (hostKey : String) : HostPinCall Bool :=
  .check localIo true "account" hostKey

def pinnedFile (hostKey : String) : StateFile :=
  some (HostPins.toVec (TreeMap.ofList [("b", ("account", hostKey))] compare))

def pinCalls : List (HostPinCall Bool × Except Failure Bool) :=
  [(pinCall "key-one" false, .ok true), (pinCall "key-two" false, .error (HostPins.changed "b")),
    (checkCall "key-two", .ok false), (pinCall "key-two" true, .ok true),
    (checkCall "key-two", .ok true)]

theorem run_pinCalls : (hostPinSystem peerText).Run none pinCalls (pinnedFile "key-two") := by
  have hfirst : ((pinCall "key-one" false).effect peerText).run none
      = (.ok true, pinnedFile "key-one") := by
    decide +kernel
  have hrefused : ((pinCall "key-two" false).effect peerText).run (pinnedFile "key-one")
      = (.error (HostPins.changed "b"), pinnedFile "key-one") := by
    decide +kernel
  have hchanged : ((checkCall "key-two").effect peerText).run (pinnedFile "key-one")
      = (.ok false, pinnedFile "key-one") := by
    decide +kernel
  have htrusted : ((pinCall "key-two" true).effect peerText).run (pinnedFile "key-one")
      = (.ok true, pinnedFile "key-two") := by
    decide +kernel
  have hsame : ((checkCall "key-two").effect peerText).run (pinnedFile "key-two")
      = (.ok true, pinnedFile "key-two") := by
    decide +kernel
  exact .cons hfirst (.cons hrefused (.cons hchanged (.cons htrusted (.single hsame))))

end Fixture

theorem trust_on_first_use_first
    : HostPins.pinned (Fixture.pinnedFile "key-two") "b" = some ("account", "key-two")
        ∧ HostPins.pinned (Fixture.pinnedFile "key-two") "a" = none
        ∧ ((pinHost Fixture.peerText Fixture.localIo true "account" "key-one" false).run
          (Fixture.pinnedFile "key-two")).1 ≠ .ok ()
        ∧ ∀ result file',
          (checkHostPin Fixture.peerText Fixture.localIo true "account" "key-one").run
            (Fixture.pinnedFile "key-two") = (result, file') →
          file' = Fixture.pinnedFile "key-two" := by
  have htext : Function.Injective Fixture.peerText := by
    decide
  have hfirst : lastPin true Fixture.pinCalls = some ("account", "key-two") := by
    decide
  have hother : lastPin false Fixture.pinCalls = none := by
    decide
  rcases trust_on_first_use htext Fixture.run_pinCalls with ⟨hpinned, _, _, _, hiff, hcheck⟩
  have hkey : HostPins.pinned (Fixture.pinnedFile "key-two") "b" = some ("account", "key-two") := by
    rw [← hfirst]
    exact hpinned true
  refine ⟨hkey, ?_, ?_, ?_⟩
  . rw [← hother]
    exact hpinned false
  . intro hok
    have hsame := (hiff Fixture.localIo true "account" "key-one" _ hkey rfl rfl).mp hok
    simp at hsame
  . intro result file' hrun
    exact (hcheck Fixture.localIo true "account" "key-one" result file' hrun).1

end Attached
