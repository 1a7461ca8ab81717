import Mathlib.Tactic.Common
import Attached.Library.Transition

/-!
This module contains a shared resource that callers make when there is none, one at a time: a caller
commits what it made or abandons it, and what was committed can be lost.
-/

structure SingleFlight (C : Type u) (K : Type v) where
  maker : Option C
  pending : Option K
  current : Option K
  opened : K → Prop

namespace SingleFlight

variable {C : Type u} {K : Type v} {flight flight' : SingleFlight C K}

inductive Event (C : Type u) (K : Type v) where
  | begin (caller : C)
  | make (k : K)
  | abandon
  | commit
  | release
  | lose (k : K)

def Vacant (flight : SingleFlight C K) : Prop :=
  ∀ k, flight.current = some k → ¬ flight.opened k

inductive Step (flight : SingleFlight C K) : Event C K → SingleFlight C K → Prop
  | begin (caller : C) (hmaker : flight.maker = none) (hvacant : flight.Vacant)
    : Step flight (.begin caller) { flight with maker := some caller }
  | make (k : K) (hmaker : flight.maker.isSome = true) (hpending : flight.pending = none)
      (hcurrent : flight.current ≠ some k)
    : Step flight (.make k)
        { flight with pending := some k, opened := fun k' => k' = k ∨ flight.opened k' }
  | abandon
    : Step flight .abandon
        { flight with
          pending := none
          opened := fun k' => flight.pending ≠ some k' ∧ flight.opened k' }
  | commit (k : K) (hpending : flight.pending = some k)
    : Step flight .commit { flight with maker := none, pending := none, current := some k }
  | release (hpending : flight.pending = none) : Step flight .release { flight with maker := none }
  | lose (k : K)
    : Step flight (.lose k) { flight with opened := fun k' => k' ≠ k ∧ flight.opened k' }

end SingleFlight

def singleFlightSystem (C : Type u) (K : Type v) : System (SingleFlight C K) (SingleFlight.Event C K) where
  init flight :=
    flight.maker = none ∧ flight.pending = none ∧ flight.current = none ∧ ∀ k, ¬ flight.opened k
  step flight event flight' := flight.Step event flight'

namespace SingleFlight

variable {C : Type u} {K : Type v} {flight flight' : SingleFlight C K} {event : Event C K}

structure Exclusive (flight : SingleFlight C K) : Prop where
  opened : ∀ k, flight.opened k → flight.current = some k ∨ flight.pending = some k
  vacant : flight.maker.isSome = true → flight.Vacant
  pending : flight.pending.isSome = true → flight.maker.isSome = true

theorem Exclusive.step (h : Exclusive flight) (hstep : flight.Step event flight') : Exclusive flight' := by
  cases hstep with
  | begin caller hmaker hvacant => exact ⟨h.opened, fun _ => hvacant, fun _ => rfl⟩
  | make k hmaker hpending hcurrent =>
    refine ⟨?_, ?_, fun _ => hmaker⟩
    . rintro k' (rfl | hopened)
      . exact Or.inr rfl
      . rcases h.opened k' hopened with hcurrent' | hpending'
        . exact Or.inl hcurrent'
        . rw [hpending] at hpending'
          cases hpending'
    . rintro _ k' hcurrent' (rfl | hopened)
      . exact hcurrent hcurrent'
      . exact h.vacant hmaker k' hcurrent' hopened
  | abandon =>
    refine ⟨?_, ?_, by simp⟩
    . rintro k ⟨hpending, hopened⟩
      exact Or.inl ((h.opened k hopened).resolve_right hpending)
    . rintro hmaker k hcurrent ⟨_, hopened⟩
      exact h.vacant hmaker k hcurrent hopened
  | commit k hpending =>
    refine ⟨?_, by simp, by simp⟩
    intro k' hopened
    have hmaker : flight.maker.isSome = true := h.pending (by simp [hpending])
    rcases h.opened k' hopened with hcurrent | hpending'
    . exact absurd hopened (h.vacant hmaker k' hcurrent)
    . rw [hpending] at hpending'
      exact Or.inl hpending'
  | release hpending => exact ⟨h.opened, by simp, by simp [hpending]⟩
  | lose k =>
    refine ⟨fun k' hopened => h.opened k' hopened.2, ?_, h.pending⟩
    intro hmaker k' hcurrent hopened
    exact h.vacant hmaker k' hcurrent hopened.2

theorem exclusive_of_reachable (h : (singleFlightSystem C K).Reachable flight) : Exclusive flight := by
  apply h.invariant
  . rintro _ ⟨hmaker, hpending, hcurrent, hopened⟩
    exact ⟨fun k hk => absurd hk (hopened k), by simp [hmaker], by simp [hpending]⟩
  . exact fun hs hstep => hs.step hstep

theorem Exclusive.eq {k k' : K} (h : Exclusive flight) (hk : flight.opened k) (hk' : flight.opened k')
    : k = k' := by
  have hdistinct : ∀ {k k' : K}, flight.opened k → flight.current = some k →
      flight.pending = some k' → False := by
    intro k k' hk hcurrent hpending
    exact h.vacant (h.pending (by simp [hpending])) k hcurrent hk
  rcases h.opened k hk with hcurrent | hpending
  . rcases h.opened k' hk' with hcurrent' | hpending'
    . rw [hcurrent, Option.some.injEq] at hcurrent'
      exact hcurrent'
    . exact (hdistinct hk hcurrent hpending').elim
  . rcases h.opened k' hk' with hcurrent' | hpending'
    . exact (hdistinct hk' hcurrent' hpending).elim
    . rw [hpending, Option.some.injEq] at hpending'
      exact hpending'

end SingleFlight
