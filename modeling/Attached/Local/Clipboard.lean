import Attached.Library.Processes
import Attached.Local.SecretStore
import Attached.Protocol.Basic

/-!
This module contains the helpers that keep an exported account bundle on the clipboard. A helper
claims the clipboard with its generation, and clears it later if no other helper claimed it since.
-/

namespace Attached

structure ClipboardStore where
  contents : Option String
  generation : StateFile

abbrev ClipboardEffect := Effect ClipboardStore Failure

structure ClipboardIo where
  root : Except Failure Unit
  files : LocalIo
  set : Except Failure Unit
  readable : Bool
  clear : Except Failure Unit

structure ClipboardIo.Places (io : ClipboardIo) : Prop where
  root : io.root = .ok ()
  lock : io.files.lock = .ok ()
  set : io.set = .ok ()

structure ClipboardIo.Reads (io : ClipboardIo) : Prop where
  root : io.root = .ok ()
  lock : io.files.lock = .ok ()
  read : io.files.read = .ok ()

structure ClipboardIo.Clears (io : ClipboardIo) : Prop where
  readable : io.readable = true
  clear : io.clear = .ok ()

namespace Clipboard

def generationBytes : Nat := 16

def generationFile : String := "generation"

def readBundle (input : List UInt8) : Except Failure String := do
  let bundle ←
    Except.okOr (Bytes.toString? (input.take (maxBundleEncodedBytes + 1)))
      (.error "clipboard helper input is not valid UTF-8")
  Except.ensure (bundle != "") (.error "clipboard helper received an empty bundle")
  Except.ensure ((Bytes.ofString bundle).length ≤ maxBundleEncodedBytes)
    (.error "clipboard helper input exceeds the account bundle limit")
  return bundle

def setSecret (io : ClipboardIo) (secret : String) : ClipboardEffect Unit := do
  Effect.lift io.set
  Effect.modify fun store => { store with contents := some secret }

def currentMatches (io : ClipboardIo) (secret : String) : ClipboardEffect Bool := do
  let store ← Effect.get
  return io.readable && store.contents == some secret

def clearSecret (io : ClipboardIo) : ClipboardEffect Unit := do
  Effect.lift io.clear
  Effect.modify fun store => { store with contents := none }

def clearIfCurrent (io : ClipboardIo) (bundle : String) : ClipboardEffect Unit := do
  if ← currentMatches io bundle then
    (clearSecret io).mapError
      (·.context "could not clear the exported account bundle from the clipboard")
  else
    return ()

def writeGeneration (io : LocalIo) (generation : Vector UInt8 generationBytes)
    : FileEffect Unit := do
  match ← io.readSecretOptionalBounded generationFile generationBytes with
  | some existing =>
    Effect.lift
      (Except.ensure (existing.length == generationBytes)
        (.error "clipboard generation file has invalid length"))
    io.atomicReplace generation.toList
  | none =>
    if ← io.createNoclobber generation.toList then
      return ()
    else
      Effect.lift (.error (.error "clipboard generation appeared while its lock was held"))

def onGeneration (x : FileEffect α) : ClipboardEffect α :=
  x.focus ClipboardStore.generation fun store generation => { store with generation }

def withCoordinationLock (io : ClipboardIo) (operation : ClipboardEffect α)
    : ClipboardEffect α := do
  Effect.lift io.root
  (Effect.lift io.files.lock >>= fun _ => operation).mapError
    (·.context "could not coordinate clipboard ownership")

def claimClipboard (io : ClipboardIo) (bundle : String)
    (generation : Vector UInt8 generationBytes) : ClipboardEffect Unit :=
  withCoordinationLock io do
    (setSecret io bundle).mapError
      (·.context "could not place the account bundle on the clipboard")
    match ← (onGeneration (writeGeneration io.files generation)).attempt with
    | .error error =>
      let _ ← (clearIfCurrent io bundle).attempt
      Effect.lift (.error error)
    | .ok _ => return ()

def clearIfLatest (io : ClipboardIo) (bundle : String)
    (generation : Vector UInt8 generationBytes) : ClipboardEffect Unit :=
  withCoordinationLock io do
    match ← onGeneration (io.files.readSecretOptionalBounded generationFile generationBytes) with
    | none => return ()
    | some current =>
      Effect.lift
        (Except.ensure (current.length == generationBytes)
          (.error "clipboard generation file has invalid length"))
      if current == generation.toList then
        clearIfCurrent io bundle
      else
        return ()

inductive Phase where
  | started
  | ready (bundle : String)
  | claimed (bundle : String)
  | unconfirmed (bundle : String)
  | retaining (bundle : String)
  | finished (bundle : String) (result : Except Failure Unit)
  | failed (error : Failure)

def Phase.owed (phase : Phase) : Option String :=
  match phase with
  | .claimed bundle => some bundle
  | .unconfirmed bundle => some bundle
  | .retaining bundle => some bundle
  | _ => none

inductive Action where
  | input (bytes : List UInt8)
  | claim (io : ClipboardIo)
  | confirm (works : Bool)
  | clear (io : ClipboardIo)

structure Shared (C : Type) where
  store : ClipboardStore
  latest : Option C

/-- The atomic steps of `serve_with`. -/
def act (generation : C → Vector UInt8 generationBytes) (c : C) (shared : Shared C) (phase : Phase)
    (action : Action) : Option (Shared C × Phase) :=
  match phase, action with
  | .started, .input bytes =>
    match readBundle bytes with
    | .ok bundle => some (shared, .ready bundle)
    | .error e => some (shared, .failed e)
  | .ready bundle, .claim io =>
    match (claimClipboard io bundle (generation c)).run shared.store with
    | (.ok _, store) => some ({ store, latest := some c }, .claimed bundle)
    | (.error e, store) => some ({ shared with store }, .failed e)
  | .claimed bundle, .confirm works =>
    some (shared, if works then .retaining bundle else .unconfirmed bundle)
  | .unconfirmed bundle, .clear io =>
    let (result, store) := (clearIfLatest io bundle (generation c)).run shared.store
    some ({ shared with store }, .finished bundle result)
  | .retaining bundle, .clear io =>
    let (result, store) := (clearIfLatest io bundle (generation c)).run shared.store
    some ({ shared with store }, .finished bundle result)
  | _, _ => none

inductive Event (C : Type) where
  | helper (c : C) (action : Action)
  | user (contents : Option String)

def Event.Quiet {C : Type} (event : Event C) : Prop :=
  match event with
  | .helper _ (.claim io) => io.Clears
  | .helper _ (.clear io) => io.Clears
  | .helper _ _ => True
  | .user _ => False

def step [DecidableEq C] (generation : C → Vector UInt8 generationBytes)
    (s : Processes C (Shared C) Phase) (event : Event C) : Option (Processes C (Shared C) Phase) :=
  match event with
  | .helper c action => s.step (act generation) c action
  | .user contents =>
    some { s with shared := { s.shared with store := { s.shared.store with contents } } }

end Clipboard

/--
Any number of helpers, and a user who copies at any time. The generation file may be left over from
helpers that are gone.
-/
def clipboardSystem {C : Type} [DecidableEq C]
    (generation : C → Vector UInt8 Clipboard.generationBytes)
    : System (Processes C (Clipboard.Shared C) Clipboard.Phase) (Clipboard.Event C) where
  init s :=
    (∀ c, s.phase c = .started)
      ∧ s.shared.latest = none
      ∧ ∀ c, s.shared.store.generation ≠ some (generation c).toList
  step s event t := Clipboard.step generation s event = some t

end Attached
