import Attached.Library.Transition

/-!
This module contains forward simulations between transition systems: what one system does the other
one can do as well, in any number of steps.
-/

/--
`R` relates every state that `S` reaches to a state of `T` that does what `S` did, in no step at all,
in one or in several.
-/
structure System.Simulation {σ : Type u} {ε : Type v} {τ : Type w} {δ : Type x} (S : System σ ε)
    (T : System τ δ) (R : σ → τ → Prop) : Prop where
  init : ∀ {s}, S.init s → ∃ t, T.init t ∧ R s t
  step : ∀ {s s' e t}, S.Reachable s → R s t → S.step s e s' → ∃ ds t', T.Run t ds t' ∧ R s' t'

namespace System.Simulation

variable {σ : Type u} {ε : Type v} {τ : Type w} {δ : Type x} {S : System σ ε} {T : System τ δ}
  {R : σ → τ → Prop}

theorem run (h : S.Simulation T R) {s s' : σ} {t : τ} {es : List ε} (hs : S.Reachable s)
    (hrun : S.Run s es s') (hR : R s t) : ∃ ds t', T.Run t ds t' ∧ R s' t' := by
  induction hrun with
  | nil => exact ⟨[], t, Run.nil t, hR⟩
  | snoc hpre hstep ih =>
    rcases ih with ⟨ds, u, hu, hRu⟩
    rcases h.step (hs.run hpre) hRu hstep with ⟨ds', t', ht', hRt'⟩
    exact ⟨ds ++ ds', t', hu.append ht', hRt'⟩

theorem reachable (h : S.Simulation T R) {s : σ} (hs : S.Reachable s) : ∃ t, T.Reachable t ∧ R s t := by
  rcases hs with ⟨s₀, es, hinit, hrun⟩
  rcases h.init hinit with ⟨t₀, ht₀, hR₀⟩
  rcases h.run (Reachable.of_init hinit) hrun hR₀ with ⟨ds, t, ht, hR⟩
  exact ⟨t, ⟨t₀, ds, ht₀, ht⟩, hR⟩

theorem invariant (h : S.Simulation T R) {P : τ → Prop} (hP : ∀ {t}, T.Reachable t → P t) {s : σ}
    (hs : S.Reachable s) : ∃ t, R s t ∧ P t := by
  rcases h.reachable hs with ⟨t, ht, hR⟩
  exact ⟨t, hR, hP ht⟩

end System.Simulation

theorem System.Run.map {σ : Type u} {ε : Type v} {τ : Type w} {δ : Type x} {S : System σ ε}
    {T : System τ δ} {f : σ → τ} {g : ε → δ}
    (hstep : ∀ {s e s'}, S.step s e s' → T.step (f s) (g e) (f s')) {s t : σ} {es : List ε}
    (h : S.Run s es t) : T.Run (f s) (es.map g) (f t) := by
  induction h with
  | nil => exact Run.nil _
  | snoc _ h ih =>
    rw [List.map_append, List.map_singleton]
    exact Run.snoc ih (hstep h)
