import Mathlib.Logic.Function.Basic
import Attached.Library.Bytes
import Attached.Library.Transition

/-!
This module contains the registry of the endpoints that are served on this machine. Each endpoint
has a marker file, and whoever serves it holds an advisory lock on the marker. A probe finds out
whether an endpoint is served by trying to take the lock itself.
-/

namespace Attached

abbrev EndpointIdentity := Vector UInt8 32

def markerName (endpointIdentity : EndpointIdentity) : List UInt8 :=
  Bytes.hex endpointIdentity.toList ++ Bytes.ofString ".lock"

theorem markerName_inj {e e' : EndpointIdentity} (h : markerName e = markerName e') : e = e' := by
  have hhex : Bytes.hex e.toList = Bytes.hex e'.toList := List.append_cancel_right h
  have hsome := congrArg Bytes.unhex hhex
  rw [Bytes.unhex_hex, Bytes.unhex_hex, Option.some.injEq] at hsome
  exact Vector.toList_inj.mp hsome

inductive RegisterStage where
  | opening
  | opened
  | locked
  deriving DecidableEq

inductive ProbeStage where
  | opening
  | opened
  | blocked
  | locked
  | verified
  deriving DecidableEq

/--
A call of `register` or `is_active`. Every call has a name of its own, so a process may make any
number of them.
-/
inductive RegistryCall where
  | idle
  | registering (endpointIdentity : EndpointIdentity) (stage : RegisterStage)
  | active (endpointIdentity : EndpointIdentity)
  | alreadyRegistered (endpointIdentity : EndpointIdentity)
  | probing (endpointIdentity : EndpointIdentity) (stage : ProbeStage)
  | answered (endpointIdentity : EndpointIdentity) (active : Bool)
  | failed
  | gone
  deriving DecidableEq

namespace RegistryCall

def locks (call : RegistryCall) : Option EndpointIdentity :=
  match call with
  | .registering e .locked => some e
  | .active e => some e
  | .probing e .locked => some e
  | .probing e .verified => some e
  | _ => none

def opens (call : RegistryCall) : Option EndpointIdentity :=
  match call with
  | .registering e .opened => some e
  | .probing e .opened => some e
  | .probing e .blocked => some e
  | _ => call.locks

def isActive (call : RegistryCall) : Bool :=
  match call with
  | .active _ => true
  | _ => false

end RegistryCall

inductive RegistryAction where
  | register (endpointIdentity : EndpointIdentity)
  | isActive (endpointIdentity : EndpointIdentity)
  | openMarker (works : Bool)
  /-- `FileExt::try_lock`, with whether the operating system could tell who has the lock. -/
  | tryLock (works : Bool)
  | verify (valid : Bool)
  | unlock (works : Bool)
  | drop
  | exit
  deriving DecidableEq

structure Marker (C : Type) where
  present : Bool
  holder : Option C

structure EndpointRegistry (C : Type) where
  markers : List UInt8 → Marker C
  calls : C → RegistryCall

namespace EndpointRegistry

variable {C : Type} [DecidableEq C]

def marker (registry : EndpointRegistry C) (e : EndpointIdentity) : Marker C :=
  registry.markers (markerName e)

def setCall (registry : EndpointRegistry C) (c : C) (call : RegistryCall) : EndpointRegistry C :=
  { registry with calls := Function.update registry.calls c call }

def setMarker (registry : EndpointRegistry C) (e : EndpointIdentity) (marker : Marker C)
    : EndpointRegistry C :=
  { registry with markers := Function.update registry.markers (markerName e) marker }

def create (registry : EndpointRegistry C) (e : EndpointIdentity) : EndpointRegistry C :=
  registry.setMarker e { registry.marker e with present := true }

def lock (registry : EndpointRegistry C) (c : C) (e : EndpointIdentity) : EndpointRegistry C :=
  registry.setMarker e { registry.marker e with holder := some c }

/-- A lock is released when its file is unlocked or closed. -/
def release (registry : EndpointRegistry C) (c : C) : EndpointRegistry C :=
  match (registry.calls c).locks with
  | some e => registry.setMarker e { registry.marker e with holder := none }
  | none => registry

def act (registry : EndpointRegistry C) (c : C) (action : RegistryAction)
    : Option (EndpointRegistry C) :=
  match registry.calls c, action with
  | .idle, .register e => some (registry.setCall c (.registering e .opening))
  | .idle, .isActive e => some (registry.setCall c (.probing e .opening))
  | .registering e .opening, .openMarker works =>
    if works then
      some ((registry.create e).setCall c (.registering e .opened))
    else
      some (registry.setCall c .failed)
  | .registering e .opened, .tryLock works =>
    -- Every error of `try_lock` is reported as a registration of someone else.
    if works && (registry.marker e).holder.isNone then
      some ((registry.lock c e).setCall c (.registering e .locked))
    else
      some (registry.setCall c (.alreadyRegistered e))
  | .registering e .locked, .verify valid =>
    if valid then
      some (registry.setCall c (.active e))
    else
      some ((registry.release c).setCall c .failed)
  | .active _, .drop => some ((registry.release c).setCall c .gone)
  | .probing e .opening, .openMarker works =>
    if !works then
      some (registry.setCall c .failed)
    else if (registry.marker e).present then
      some (registry.setCall c (.probing e .opened))
    else
      some (registry.setCall c (.answered e false))
  | .probing e .opened, .tryLock works =>
    if !works then
      some (registry.setCall c .failed)
    else if (registry.marker e).holder.isNone then
      some ((registry.lock c e).setCall c (.probing e .locked))
    else
      some (registry.setCall c (.probing e .blocked))
  | .probing e .blocked, .verify valid =>
    if valid then
      some (registry.setCall c (.answered e true))
    else
      some (registry.setCall c .failed)
  | .probing e .locked, .verify valid =>
    if valid then
      some (registry.setCall c (.probing e .verified))
    else
      some ((registry.release c).setCall c .failed)
  | .probing e .verified, .unlock works =>
    if works then
      some ((registry.release c).setCall c (.answered e false))
    else
      some ((registry.release c).setCall c .failed)
  | _, .exit => some ((registry.release c).setCall c .gone)
  | _, _ => none

def Active (registry : EndpointRegistry C) (e : EndpointIdentity) : Prop :=
  ∃ c, registry.calls c = .active e

/-- The lock of the marker is not held by a probe, or by a `register` that has not returned yet. -/
def heldByActive (registry : EndpointRegistry C) (e : EndpointIdentity) : Bool :=
  (registry.marker e).holder.all fun c => (registry.calls c).isActive

/--
A step that tries to lock a marker finds it free or locked by an `ActiveEndpoint`, and for a
`register` the operating system knows which of both.
-/
def uncontended (registry : EndpointRegistry C) (label : C × RegistryAction) : Bool :=
  match registry.calls label.1, label.2 with
  | .registering e .opened, .tryLock works => works && registry.heldByActive e
  | .probing e .opened, .tryLock _ => registry.heldByActive e
  | _, _ => true

end EndpointRegistry

/--
Any number of processes that register and probe endpoints, in any order of their steps. Markers may
be left over from earlier processes.
-/
def endpointRegistry (C : Type) [DecidableEq C]
    : System (EndpointRegistry C) (C × RegistryAction) where
  init registry :=
    (∀ c, registry.calls c = .idle) ∧ ∀ name, (registry.markers name).holder = none
  step registry label registry' := registry.act label.1 label.2 = some registry'

namespace EndpointRegistry

variable {C : Type} [DecidableEq C] {registry registry' : EndpointRegistry C} {c : C}
  {e : EndpointIdentity} {action : RegistryAction}

structure Consistent (registry : EndpointRegistry C) : Prop where
  holder_iff : ∀ e c, (registry.marker e).holder = some c ↔ (registry.calls c).locks = some e
  present : ∀ c e, (registry.calls c).opens = some e → (registry.marker e).present = true

@[simp]
theorem calls_setCall_self {call : RegistryCall} : (registry.setCall c call).calls c = call := by
  simp [setCall]

theorem calls_setCall_of_ne {c' : C} {call : RegistryCall} (h : c' ≠ c)
    : (registry.setCall c call).calls c' = registry.calls c' := by
  simp [setCall, h]

@[simp]
theorem marker_setCall {call : RegistryCall}
    : (registry.setCall c call).marker e = registry.marker e := rfl

omit [DecidableEq C] in
@[simp]
theorem calls_setMarker {m : Marker C} : (registry.setMarker e m).calls = registry.calls := rfl

omit [DecidableEq C] in
theorem marker_setMarker {e' : EndpointIdentity} {m : Marker C}
    : (registry.setMarker e m).marker e' = if e' = e then m else registry.marker e' := by
  unfold marker setMarker
  dsimp
  rw [Function.update_apply]
  by_cases h : e' = e
  . simp [h]
  . have hname : markerName e' ≠ markerName e := fun heq => h (markerName_inj heq)
    simp [h, hname]

theorem opens_of_locks {call : RegistryCall} (h : call.locks = some e) : call.opens = some e := by
  cases call with
  | registering _ stage => cases stage <;> simp_all [RegistryCall.locks, RegistryCall.opens]
  | probing _ stage => cases stage <;> simp_all [RegistryCall.locks, RegistryCall.opens]
  | active _ => exact h
  | _ => simp [RegistryCall.locks] at h

namespace Consistent

theorem setCall {call : RegistryCall} (h : registry.Consistent)
    (hlocks : call.locks = (registry.calls c).locks)
    (hopens : ∀ e, call.opens = some e → (registry.marker e).present = true)
    : (registry.setCall c call).Consistent where
  holder_iff := by
    intro e c'
    rw [marker_setCall, h.holder_iff]
    by_cases hc : c' = c
    . subst hc
      rw [calls_setCall_self, hlocks]
    . rw [calls_setCall_of_ne hc]
  present := by
    intro c' e hopen
    rw [marker_setCall]
    by_cases hc : c' = c
    . subst hc
      rw [calls_setCall_self] at hopen
      exact hopens e hopen
    . rw [calls_setCall_of_ne hc] at hopen
      exact h.present c' e hopen

omit [DecidableEq C] in
theorem create (h : registry.Consistent) : (registry.create e).Consistent where
  holder_iff := by
    intro e' c'
    rw [EndpointRegistry.create, calls_setMarker, ← h.holder_iff, marker_setMarker]
    split
    . next heq => rw [heq]
    . rfl
  present := by
    intro c' e' hopen
    rw [EndpointRegistry.create, marker_setMarker]
    split
    . rfl
    . exact h.present c' e' hopen

theorem lock {call : RegistryCall} (h : registry.Consistent)
    (hfree : (registry.marker e).holder = none) (hopens : (registry.calls c).opens = some e)
    (hlocks : (registry.calls c).locks = none) (hcall : call.locks = some e)
    : ((registry.lock c e).setCall c call).Consistent where
  holder_iff := by
    intro e' c'
    rw [marker_setCall, EndpointRegistry.lock, marker_setMarker]
    have hnone : ∀ c, (registry.calls c).locks ≠ some e := by
      intro c hc
      rw [(h.holder_iff e c).mpr hc] at hfree
      simp at hfree
    by_cases hc : c' = c
    . subst hc
      rw [calls_setCall_self, hcall]
      split
      . next heq => simp [heq]
      . next hne =>
        rw [h.holder_iff, hlocks]
        simp [Ne.symm hne]
    . rw [calls_setCall_of_ne hc, calls_setMarker]
      split
      . next heq =>
        subst heq
        simp [hnone c', Ne.symm hc]
      . exact h.holder_iff e' c'
  present := by
    intro c' e' hopen
    have hpresent := h.present c e hopens
    rw [marker_setCall, EndpointRegistry.lock, marker_setMarker]
    split
    . exact hpresent
    . by_cases hc : c' = c
      . subst hc
        rw [calls_setCall_self, opens_of_locks hcall] at hopen
        injection hopen with heq
        subst heq
        exact hpresent
      . rw [calls_setCall_of_ne hc] at hopen
        exact h.present c' e' hopen

theorem release {call : RegistryCall} (h : registry.Consistent) (hopens : call.opens = none)
    : ((registry.release c).setCall c call).Consistent := by
  have hcall : call.locks = none := by
    rw [Option.eq_none_iff_forall_ne_some]
    intro e he
    rw [opens_of_locks he] at hopens
    simp at hopens
  unfold EndpointRegistry.release
  split
  . next e hlocks =>
    constructor
    . intro e' c'
      rw [marker_setCall, marker_setMarker]
      by_cases hc : c' = c
      . subst hc
        rw [calls_setCall_self, hcall]
        split
        . simp
        . next hne =>
          rw [h.holder_iff, hlocks]
          simp [Ne.symm hne]
      . rw [calls_setCall_of_ne hc, calls_setMarker]
        split
        . next heq =>
          subst heq
          have hholder := (h.holder_iff e' c).mpr hlocks
          have hother : (registry.calls c').locks ≠ some e' := by
            intro hlocks'
            rw [(h.holder_iff e' c').mpr hlocks', Option.some.injEq] at hholder
            exact hc hholder
          simp [hother]
        . exact h.holder_iff e' c'
    . intro c' e' hopen
      have hold : (registry.calls c').opens = some e' := by
        by_cases hc : c' = c
        . subst hc
          rw [calls_setCall_self, hopens] at hopen
          simp at hopen
        . rwa [calls_setCall_of_ne hc] at hopen
      rw [marker_setCall, marker_setMarker]
      split
      . next heq =>
        subst heq
        exact h.present c' e' hold
      . exact h.present c' e' hold
  . next hlocks =>
    apply h.setCall
    . rw [hcall, hlocks]
    . simp [hopens]

end Consistent

omit [DecidableEq C] in
@[simp]
theorem calls_release : (registry.release c).calls = registry.calls := by
  unfold release
  split
  . rfl
  . rfl

def Before (registry : EndpointRegistry C) (c : C) (action : RegistryAction) (call : RegistryCall)
    : Prop :=
  match call with
  | .alreadyRegistered e =>
    registry.calls c = .registering e .opened
      ∧ ∃ works, action = .tryLock works ∧ (works = true → (registry.marker e).holder ≠ none)
  | .probing e .blocked =>
    registry.calls c = .probing e .opened
      ∧ ∃ works, action = .tryLock works ∧ (registry.marker e).holder ≠ none
  | .probing e .locked =>
    registry.calls c = .probing e .opened ∧ (registry.marker e).holder = none
  | .probing e .verified => registry.calls c = .probing e .locked
  | .answered e true => registry.calls c = .probing e .blocked
  | .answered e false =>
    registry.calls c = .probing e .verified
      ∨ (registry.calls c = .probing e .opening ∧ (registry.marker e).present = false)
  | _ => True

inductive Turn (registry : EndpointRegistry C) (c : C) (action : RegistryAction)
    : EndpointRegistry C → Prop
  | move (call : RegistryCall) : call.locks = (registry.calls c).locks →
      (∀ e, call.opens = some e →
        (registry.calls c).opens = some e ∨ (registry.marker e).present = true) →
      registry.Before c action call → Turn registry c action (registry.setCall c call)
  | create (e : EndpointIdentity) : (registry.calls c).locks = none →
      Turn registry c action ((registry.create e).setCall c (.registering e .opened))
  | lock (e : EndpointIdentity) (call : RegistryCall) : (registry.marker e).holder = none →
      (registry.calls c).opens = some e → (registry.calls c).locks = none → call.locks = some e →
      registry.Before c action call → Turn registry c action ((registry.lock c e).setCall c call)
  | release (call : RegistryCall) : call.opens = none → registry.Before c action call →
      Turn registry c action ((registry.release c).setCall c call)

theorem act_spec (h : registry.act c action = some registry') : registry.Turn c action registry' := by
  unfold act at h
  split at h
  . next hcall =>
    injection h with h
    subst h
    apply Turn.move <;> simp [hcall, RegistryCall.locks, RegistryCall.opens, Before]
  . next hcall =>
    injection h with h
    subst h
    apply Turn.move <;> simp [hcall, RegistryCall.locks, RegistryCall.opens, Before]
  . next e works hcall =>
    split at h
    . injection h with h
      subst h
      exact Turn.create e (by simp [hcall, RegistryCall.locks])
    . injection h with h
      subst h
      apply Turn.move <;> simp [hcall, RegistryCall.locks, RegistryCall.opens, Before]
  . next e works hcall =>
    split at h
    . next hfree =>
      injection h with h
      subst h
      simp only [Bool.and_eq_true, Option.isNone_iff_eq_none] at hfree
      apply Turn.lock e <;> simp [hcall, hfree, RegistryCall.locks, RegistryCall.opens, Before]
    . next hheld =>
      injection h with h
      subst h
      apply Turn.move <;> simp [hcall, RegistryCall.locks, RegistryCall.opens, Before]
      simpa using hheld
  . next e valid hcall =>
    split at h
    . injection h with h
      subst h
      apply Turn.move <;> simp [hcall, RegistryCall.locks, RegistryCall.opens, Before]
    . injection h with h
      subst h
      exact Turn.release _ rfl trivial
  . injection h with h
    subst h
    exact Turn.release _ rfl trivial
  . next e works hcall =>
    split at h
    . injection h with h
      subst h
      apply Turn.move <;> simp [hcall, RegistryCall.locks, RegistryCall.opens, Before]
    . split at h
      . next hpresent =>
        injection h with h
        subst h
        apply Turn.move <;> simp [hcall, hpresent, RegistryCall.locks, RegistryCall.opens, Before]
      . next habsent =>
        injection h with h
        subst h
        apply Turn.move <;> simp [hcall, habsent, RegistryCall.locks, RegistryCall.opens, Before]
  . next e works hcall =>
    split at h
    . injection h with h
      subst h
      apply Turn.move <;> simp [hcall, RegistryCall.locks, RegistryCall.opens, Before]
    . split at h
      . next hfree =>
        injection h with h
        subst h
        rw [Option.isNone_iff_eq_none] at hfree
        apply Turn.lock e <;> simp [hcall, hfree, RegistryCall.locks, RegistryCall.opens, Before]
      . next hheld =>
        injection h with h
        subst h
        rw [Option.isNone_iff_eq_none] at hheld
        apply Turn.move <;> simp [hcall, hheld, RegistryCall.locks, RegistryCall.opens, Before]
  . next e valid hcall =>
    split at h
    . injection h with h
      subst h
      apply Turn.move <;> simp [hcall, RegistryCall.locks, RegistryCall.opens, Before]
    . injection h with h
      subst h
      apply Turn.move <;> simp [hcall, RegistryCall.locks, RegistryCall.opens, Before]
  . next e valid hcall =>
    split at h
    . injection h with h
      subst h
      apply Turn.move <;> simp [hcall, RegistryCall.locks, RegistryCall.opens, Before]
    . injection h with h
      subst h
      exact Turn.release _ rfl trivial
  . next e works hcall =>
    split at h
    . injection h with h
      subst h
      exact Turn.release _ rfl (Or.inl hcall)
    . injection h with h
      subst h
      exact Turn.release _ rfl trivial
  . injection h with h
    subst h
    exact Turn.release _ rfl trivial
  . simp at h

theorem consistent_act (h : registry.Consistent) (hact : registry.act c action = some registry')
    : registry'.Consistent := by
  cases act_spec hact with
  | move call hlocks hopens _ =>
    apply h.setCall hlocks
    intro e he
    rcases hopens e he with hopen | hpresent
    . exact h.present c e hopen
    . exact hpresent
  | create e hlocks =>
    apply h.create.setCall
    . rw [EndpointRegistry.create, calls_setMarker, hlocks]
      rfl
    . intro e' he'
      injection he' with he'
      subst he'
      simp [EndpointRegistry.create, marker_setMarker]
  | lock e call hfree hopens hlocks hcall _ => exact h.lock hfree hopens hlocks hcall
  | release call hopens _ => exact h.release hopens

theorem calls_act (h : registry.act c action = some registry')
    : (∀ c', c' ≠ c → registry'.calls c' = registry.calls c')
        ∧ registry.Before c action (registry'.calls c) := by
  cases act_spec h with
  | move call _ _ hbefore =>
    rw [calls_setCall_self]
    exact ⟨fun c' hc => calls_setCall_of_ne hc, hbefore⟩
  | create e _ =>
    rw [calls_setCall_self]
    exact ⟨fun c' hc => calls_setCall_of_ne hc, trivial⟩
  | lock e call _ _ _ _ hbefore =>
    rw [calls_setCall_self]
    exact ⟨fun c' hc => calls_setCall_of_ne hc, hbefore⟩
  | release call _ hbefore =>
    rw [calls_setCall_self]
    refine ⟨fun c' hc => ?_, hbefore⟩
    rw [calls_setCall_of_ne hc, calls_release]

theorem consistent_of_init (h : (endpointRegistry C).init registry) : registry.Consistent where
  holder_iff := by
    intro e c
    simp [marker, h.1, h.2, RegistryCall.locks]
  present := by
    intro c e hopen
    simp [h.1, RegistryCall.opens, RegistryCall.locks] at hopen

omit [DecidableEq C] in
theorem not_active_of_free (h : registry.Consistent) (hfree : (registry.marker e).holder = none)
    : ¬registry.Active e := by
  rintro ⟨c, hc⟩
  have hholder := (h.holder_iff e c).mpr (by rw [hc]; rfl)
  rw [hfree] at hholder
  simp at hholder

omit [DecidableEq C] in
omit [DecidableEq C] in
theorem active_of_held (h : registry.Consistent) (hheld : (registry.marker e).holder ≠ none)
    (hactive : registry.heldByActive e = true)
    : ∃ c, (registry.marker e).holder = some c ∧ registry.calls c = .active e := by
  rcases Option.ne_none_iff_exists'.mp hheld with ⟨c, hc⟩
  have hlocks := (h.holder_iff e c).mp hc
  simp only [heldByActive, hc, Option.all_some] at hactive
  unfold RegistryCall.isActive at hactive
  split at hactive
  . next e' he' =>
    rw [he'] at hlocks
    injection hlocks with hlocks
    subst hlocks
    exact ⟨c, hc, he'⟩
  . simp at hactive

def Probing (c : C) (e : EndpointIdentity) (registry : EndpointRegistry C) : Prop :=
  ∃ stage, registry.calls c = .probing e stage

theorem consistent_run {registry₀ : EndpointRegistry C} {labels : List (C × RegistryAction)}
    (hinit : (endpointRegistry C).init registry₀)
    (hrun : (endpointRegistry C).Run registry₀ labels registry) : registry.Consistent := by
  apply hrun.invariant (P := Consistent)
  . intro s t e h hstep
    exact consistent_act h hstep
  . exact consistent_of_init hinit

theorem visits_inactive {registry₀ : EndpointRegistry C} {labels : List (C × RegistryAction)}
    (hinit : (endpointRegistry C).init registry₀)
    (hrun : (endpointRegistry C).Run registry₀ labels registry)
    (hcall : registry.calls c = .answered e false ∨ registry.calls c = .probing e .locked
      ∨ registry.calls c = .probing e .verified)
    : (endpointRegistry C).Visits (fun m => m.Probing c e ∧ ¬m.Active e) registry₀ labels
        registry := by
  induction hrun with
  | nil =>
    rw [hinit.1 c] at hcall
    simp at hcall
  | @snoc r r' labels label hrun hstep ih =>
    have hr := consistent_run hinit hrun
    rcases calls_act hstep with ⟨hothers, hbefore⟩
    by_cases hc : c = label.1
    . subst hc
      rcases hcall with hcall | hcall | hcall
      . rw [hcall] at hbefore
        rcases hbefore with hverified | ⟨hopening, habsent⟩
        . exact (ih (Or.inr (Or.inr hverified))).snoc hstep
        . refine (hrun.visits ⟨⟨_, hopening⟩, ?_⟩).snoc hstep
          rintro ⟨c', hc'⟩
          have hpresent := hr.present c' e (by rw [hc']; rfl)
          rw [habsent] at hpresent
          simp at hpresent
      . rw [hcall] at hbefore
        exact (hrun.visits ⟨⟨_, hbefore.1⟩, not_active_of_free hr hbefore.2⟩).snoc hstep
      . rw [hcall] at hbefore
        exact (ih (Or.inr (Or.inl hbefore))).snoc hstep
    . rw [hothers c hc] at hcall
      exact (ih hcall).snoc hstep

theorem visits_active {registry₀ : EndpointRegistry C} {labels : List (C × RegistryAction)}
    (hinit : (endpointRegistry C).init registry₀)
    (hrun : ((endpointRegistry C).restrict fun r label => r.uncontended label = true).Run
      registry₀ labels registry)
    (hcall : registry.calls c = .answered e true ∨ registry.calls c = .probing e .blocked)
    : (endpointRegistry C).Visits (fun m => m.Probing c e ∧ m.Active e) registry₀ labels
        registry := by
  induction hrun with
  | nil =>
    rw [hinit.1 c] at hcall
    simp at hcall
  | @snoc r r' labels label hrun hstep ih =>
    have hr := consistent_run hinit hrun.of_restrict
    rcases hstep with ⟨hstep, huncontended⟩
    rcases calls_act hstep with ⟨hothers, hbefore⟩
    by_cases hc : c = label.1
    . subst hc
      rcases hcall with hcall | hcall
      . rw [hcall] at hbefore
        exact (ih (Or.inr hbefore)).snoc hstep
      . rw [hcall] at hbefore
        rcases hbefore with ⟨hopened, works, haction, hheld⟩
        rw [uncontended, hopened, haction] at huncontended
        rcases active_of_held hr hheld huncontended with ⟨c', _, hc'⟩
        exact (hrun.of_restrict.visits ⟨⟨_, hopened⟩, c', hc'⟩).snoc hstep
    . rw [hothers c hc] at hcall
      exact (ih hcall).snoc hstep

theorem already_registered (h : registry.Consistent) {label : C × RegistryAction}
    (hstep : registry.act label.1 label.2 = some registry')
    (huncontended : registry.uncontended label = true)
    (hcall : registry'.calls c = .alreadyRegistered e)
    (hnew : registry.calls c ≠ .alreadyRegistered e)
    : ∃ c' ≠ c, registry.calls c' = .active e := by
  rcases calls_act hstep with ⟨hothers, hbefore⟩
  by_cases hc : c = label.1
  . subst hc
    rw [hcall] at hbefore
    rcases hbefore with ⟨hopened, works, haction, hheld⟩
    rw [uncontended, hopened, haction, Bool.and_eq_true] at huncontended
    rcases active_of_held h (hheld huncontended.1) huncontended.2 with ⟨c', _, hc'⟩
    refine ⟨c', ?_, hc'⟩
    rintro rfl
    rw [hopened] at hc'
    simp at hc'
  . rw [hothers c hc] at hcall
    exact absurd hcall hnew

end EndpointRegistry

theorem endpoint_registry_exact (C : Type) [DecidableEq C]
    : (∀ registry₀ labels registry, (endpointRegistry C).init registry₀ →
        (endpointRegistry C).Run registry₀ labels registry →
        ∀ c e, registry.calls c = .answered e false →
          (endpointRegistry C).Visits (fun m => m.Probing c e ∧ ¬m.Active e) registry₀ labels
            registry)
      ∧ ∀ registry₀ labels registry, (endpointRegistry C).init registry₀ →
        ((endpointRegistry C).restrict fun r label => r.uncontended label = true).Run registry₀
          labels registry →
        (∀ c e, registry.calls c = .answered e true →
          (endpointRegistry C).Visits (fun m => m.Probing c e ∧ m.Active e) registry₀ labels
            registry)
        ∧ ∀ label registry', (endpointRegistry C).step registry label registry' →
          registry.uncontended label = true →
          ∀ c e, registry'.calls c = .alreadyRegistered e →
            registry.calls c ≠ .alreadyRegistered e →
            ∃ c' ≠ c, registry.calls c' = .active e := by
  constructor
  . intro registry₀ labels registry hinit hrun c e hcall
    exact EndpointRegistry.visits_inactive hinit hrun (Or.inl hcall)
  . intro registry₀ labels registry hinit hrun
    constructor
    . intro c e hcall
      exact EndpointRegistry.visits_active hinit hrun (Or.inl hcall)
    . intro label registry' hstep huncontended c e hcall hnew
      have hr := EndpointRegistry.consistent_run hinit hrun.of_restrict
      exact EndpointRegistry.already_registered hr hstep huncontended hcall hnew

namespace Fixture

def servedIdentity : EndpointIdentity :=
  Vector.replicate 32 0x83

def staleRegistry : EndpointRegistry (Fin 3) where
  markers _ := ⟨true, none⟩
  calls _ := .idle

def crossedProbes : List (Fin 3 × RegistryAction) :=
  [(0, .isActive servedIdentity), (1, .isActive servedIdentity), (2, .register servedIdentity),
    (0, .openMarker true), (1, .openMarker true), (2, .openMarker true), (0, .tryLock true),
    (1, .tryLock true), (1, .verify true), (2, .tryLock true)]

def quietProbe : List (Fin 3 × RegistryAction) :=
  [(0, .register servedIdentity), (0, .openMarker true), (0, .tryLock true), (0, .verify true),
    (1, .isActive servedIdentity), (1, .openMarker true), (1, .tryLock true), (1, .verify true)]

end Fixture

theorem endpoint_registry_exact_served
    : ∃ registry, registry.calls 1 = .answered Fixture.servedIdentity true
        ∧ (endpointRegistry (Fin 3)).Visits
          (fun m => m.Probing 1 Fixture.servedIdentity ∧ m.Active Fixture.servedIdentity)
          Fixture.staleRegistry Fixture.quietProbe registry := by
  have hinit : (endpointRegistry (Fin 3)).init Fixture.staleRegistry :=
    ⟨fun _ => rfl, fun _ => rfl⟩
  have hresult : (System.replay (fun r l => if r.uncontended l then r.act l.1 l.2 else none)
      Fixture.staleRegistry Fixture.quietProbe).map (fun r => r.calls 1)
        = some (.answered Fixture.servedIdentity true) := by
    decide +kernel
  rcases Option.map_eq_some_iff.mp hresult with ⟨registry, hreplay, hcall⟩
  refine ⟨registry, hcall, ?_⟩
  apply ((endpoint_registry_exact (Fin 3)).2 _ _ _ hinit _).1 1 _ hcall
  apply System.Run.of_replay _ hreplay
  intro s t e h
  split at h
  . next hun => exact ⟨h, hun⟩
  . simp at h

/--
Two listings at the same time hide a host that is served nowhere on this machine, and keep its
server from starting.
-/
theorem endpoint_registry_inexact
    : ∃ registry, (endpointRegistry (Fin 3)).Run Fixture.staleRegistry Fixture.crossedProbes registry
        ∧ registry.calls 1 = .answered Fixture.servedIdentity true
        ∧ registry.calls 2 = .alreadyRegistered Fixture.servedIdentity
        ∧ ¬(endpointRegistry (Fin 3)).Visits (fun m => m.Active Fixture.servedIdentity)
          Fixture.staleRegistry Fixture.crossedProbes registry := by
  have hresult : (System.replay (fun r l => r.act l.1 l.2) Fixture.staleRegistry
      Fixture.crossedProbes).map (fun r => (r.calls 1, r.calls 2))
        = some (.answered Fixture.servedIdentity true,
          .alreadyRegistered Fixture.servedIdentity) := by
    decide +kernel
  rcases Option.map_eq_some_iff.mp hresult with ⟨registry, hreplay, hcalls⟩
  rw [Prod.mk.injEq] at hcalls
  refine ⟨registry, System.Run.of_replay id hreplay, hcalls.1, hcalls.2, ?_⟩
  intro hvisits
  rcases hvisits.exists_take (f := fun r l => r.act l.1 l.2) id with ⟨n, hn, m, hm, c, hc⟩
  have hnone : ∀ n < 11, ∀ c, ((System.replay (fun r l => r.act l.1 l.2) Fixture.staleRegistry
      (Fixture.crossedProbes.take n)).map fun r => r.calls c)
        ≠ some (.active Fixture.servedIdentity) := by
    decide +kernel
  apply hnone n hn c
  rw [hm, Option.map_some, hc]

end Attached
