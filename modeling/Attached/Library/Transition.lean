import Mathlib.Tactic.Common

/-!
This module contains labelled transition systems together with the rules that the system level
proofs use: runs, reachable states, and the invariant rules over both of them.
-/

/--
A transition system with states `σ` and labels `ε`. The step is a relation, so failures, crashes and
the choices of a scheduler are just further labels.
-/
structure System (σ : Type u) (ε : Type v) where
  init : σ → Prop
  step : σ → ε → σ → Prop

namespace System

variable {σ : Type u} {ε : Type v} {S : System σ ε}

inductive Run (S : System σ ε) : σ → List ε → σ → Prop
  | nil (s : σ) : Run S s [] s
  | snoc {s t u : σ} {es : List ε} {e : ε} : Run S s es t → S.step t e u → Run S s (es ++ [e]) u

def Reachable (S : System σ ε) (s : σ) : Prop :=
  ∃ (s₀ : σ) (es : List ε), S.init s₀ ∧ S.Run s₀ es s

theorem Run.single {s t : σ} {e : ε} (h : S.step s e t) : S.Run s [e] t := by
  have := Run.snoc (Run.nil (S := S) s) h
  simpa using this

theorem Run.append {s t u : σ} {es fs : List ε} (h1 : S.Run s es t) (h2 : S.Run t fs u)
    : S.Run s (es ++ fs) u := by
  induction h2 with
  | nil => simpa using h1
  | snoc _ hstep ih =>
    rw [← List.append_assoc]
    exact Run.snoc ih hstep

theorem Run.cons {s t u : σ} {e : ε} {es : List ε} (h1 : S.step s e t) (h2 : S.Run t es u)
    : S.Run s (e :: es) u := by
  have := Run.append (Run.single h1) h2
  simpa using this

theorem Run.nil_inv {s t : σ} (h : S.Run s [] t) : s = t := by
  generalize hes : [] = es at h
  cases h with
  | nil => rfl
  | snoc => simp at hes

theorem Run.cons_inv {s u : σ} {e : ε} {es : List ε} (h : S.Run s (e :: es) u)
    : ∃ t, S.step s e t ∧ S.Run t es u := by
  generalize hes : e :: es = fs at h
  induction h generalizing e es with
  | nil => simp at hes
  | @snoc t' u' es' e' hrun hstep ih =>
    cases es' with
    | nil =>
      have := hrun.nil_inv
      subst this
      simp only [List.nil_append, List.cons.injEq] at hes
      rcases hes with ⟨rfl, rfl⟩
      exact ⟨u', hstep, Run.nil u'⟩
    | cons hd tl =>
      simp only [List.cons_append, List.cons.injEq] at hes
      rcases hes with ⟨rfl, rfl⟩
      rcases ih rfl with ⟨t, hfirst, hrest⟩
      exact ⟨t, hfirst, Run.snoc hrest hstep⟩

theorem Run.eq_of_deterministic (hstep : ∀ {s t u e}, S.step s e t → S.step s e u → t = u)
    {s t u : σ} {es : List ε} (h1 : S.Run s es t) (h2 : S.Run s es u) : t = u := by
  induction es generalizing s with
  | nil => rw [← h1.nil_inv, ← h2.nil_inv]
  | cons e es ih =>
    rcases h1.cons_inv with ⟨v, hv, h1⟩
    rcases h2.cons_inv with ⟨v', hv', h2⟩
    rw [hstep hv' hv] at h2
    exact ih h1 h2

theorem Reachable.of_init {s : σ} (h : S.init s) : S.Reachable s :=
  ⟨s, [], h, Run.nil s⟩

theorem Reachable.run {s t : σ} {es : List ε} (h1 : S.Reachable s) (h2 : S.Run s es t)
    : S.Reachable t := by
  rcases h1 with ⟨s₀, fs, hinit, hrun⟩
  exact ⟨s₀, fs ++ es, hinit, hrun.append h2⟩

theorem Reachable.step {s t : σ} {e : ε} (h1 : S.Reachable s) (h2 : S.step s e t)
    : S.Reachable t :=
  h1.run (Run.single h2)

theorem Run.invariant {P : σ → Prop} (hstep : ∀ {s t e}, P s → S.step s e t → P t)
    {s t : σ} {es : List ε} (hrun : S.Run s es t) (hs : P s) : P t := by
  induction hrun with
  | nil => exact hs
  | snoc _ h ih => exact hstep ih h

theorem Run.relates {P : σ → Prop} {R : σ → σ → Prop} (hrefl : ∀ s, R s s)
    (htrans : ∀ {s t u}, R s t → R t u → R s u) (hP : ∀ {s t e}, P s → S.step s e t → P t)
    (hstep : ∀ {s t e}, P s → S.step s e t → R s t)
    {s t : σ} {es : List ε} (hrun : S.Run s es t) (hs : P s) : R s t := by
  induction hrun with
  | nil => exact hrefl _
  | snoc hpre h ih => exact htrans ih (hstep (hpre.invariant hP hs) h)

theorem Run.forall_label {P : σ → Prop} {Q : ε → Prop}
    (hstep : ∀ {s t e}, P s → S.step s e t → P t) (hlabel : ∀ {s t e}, P s → S.step s e t → Q e)
    {s t : σ} {es : List ε} (hrun : S.Run s es t) (hs : P s) : ∀ e ∈ es, Q e := by
  induction hrun with
  | nil => simp
  | snoc hpre h ih =>
    intro e he
    rcases List.mem_append.mp he with he | he
    . exact ih e he
    . rw [List.mem_singleton.mp he]
      exact hlabel (hpre.invariant hstep hs) h

theorem Reachable.invariant {P : σ → Prop} (hinit : ∀ {s}, S.init s → P s)
    (hstep : ∀ {s t e}, P s → S.step s e t → P t) {s : σ} (h : S.Reachable s) : P s := by
  rcases h with ⟨s₀, es, h0, hrun⟩
  exact hrun.invariant hstep (hinit h0)

def restrict (S : System σ ε) (C : σ → ε → Prop) : System σ ε where
  init := S.init
  step s e t := S.step s e t ∧ C s e

theorem Run.of_restrict {C : σ → ε → Prop} {s t : σ} {es : List ε} (h : (S.restrict C).Run s es t)
    : S.Run s es t := by
  induction h with
  | nil => exact Run.nil _
  | snoc _ hstep ih => exact Run.snoc ih hstep.1

theorem Run.restrict {C : σ → ε → Prop} {s t : σ} {es : List ε} (h : S.Run s es t)
    (hC : ∀ (u : σ), ∀ e ∈ es, C u e) : (S.restrict C).Run s es t := by
  induction h with
  | nil => exact Run.nil _
  | snoc _ hstep ih =>
    apply Run.snoc (ih fun u e he => hC u e (List.mem_append_left _ he))
    exact ⟨hstep, hC _ _ (List.mem_append_right _ (List.mem_singleton_self _))⟩

def Visits (S : System σ ε) (P : σ → Prop) (s : σ) (es : List ε) (t : σ) : Prop :=
  ∃ (es₁ es₂ : List ε) (m : σ), es = es₁ ++ es₂ ∧ S.Run s es₁ m ∧ P m ∧ S.Run m es₂ t

theorem Run.visits {P : σ → Prop} {s t : σ} {es : List ε} (h : S.Run s es t) (ht : P t)
    : S.Visits P s es t :=
  ⟨es, [], t, by simp, h, ht, Run.nil t⟩

theorem Visits.snoc {P : σ → Prop} {s t u : σ} {es : List ε} {e : ε} (h : S.Visits P s es t)
    (hstep : S.step t e u) : S.Visits P s (es ++ [e]) u := by
  rcases h with ⟨es₁, es₂, m, rfl, h1, hm, h2⟩
  exact ⟨es₁, es₂ ++ [e], m, by simp, h1, hm, Run.snoc h2 hstep⟩

def replay (f : σ → ε → Option σ) (s : σ) (es : List ε) : Option σ :=
  match es with
  | [] => some s
  | e :: es => (f s e).bind fun t => replay f t es

theorem Run.of_replay {f : σ → ε → Option σ} (hf : ∀ {s t e}, f s e = some t → S.step s e t)
    {s t : σ} {es : List ε} (h : replay f s es = some t) : S.Run s es t := by
  induction es generalizing s with
  | nil =>
    simp only [replay, Option.some.injEq] at h
    subst h
    exact Run.nil s
  | cons e es ih =>
    simp only [replay, Option.bind_eq_some_iff] at h
    rcases h with ⟨u, hstep, hrest⟩
    exact Run.cons (hf hstep) (ih hrest)

theorem Run.replay {f : σ → ε → Option σ} (hf : ∀ {s t e}, S.step s e t → f s e = some t)
    {s t : σ} {es : List ε} (h : S.Run s es t) : replay f s es = some t := by
  induction es generalizing s with
  | nil => rw [System.replay, h.nil_inv]
  | cons e es ih =>
    rcases h.cons_inv with ⟨u, hstep, hrest⟩
    rw [System.replay, hf hstep]
    exact ih hrest

theorem Visits.exists_take {f : σ → ε → Option σ} (hf : ∀ {s t e}, S.step s e t → f s e = some t)
    {P : σ → Prop} {s t : σ} {es : List ε} (h : S.Visits P s es t)
    : ∃ n < es.length + 1, ∃ m, System.replay f s (es.take n) = some m ∧ P m := by
  rcases h with ⟨es₁, es₂, m, rfl, h1, hm, _⟩
  refine ⟨es₁.length, by rw [List.length_append]; omega, m, ?_, hm⟩
  rw [List.take_left' rfl]
  exact h1.replay hf

end System
