import Mathlib.Logic.Function.Basic
import Attached.Library.Transition

/-!
This module contains processes that share a state. Any number of them take their steps in any order,
and a lock in the shared state belongs to the process that thinks so.
-/

/--
A shared state `σ`, and the phase `π` that each of the processes `C` is in.
-/
structure Processes (C : Type u) (σ : Type v) (π : Type w) where
  shared : σ
  phase : C → π

namespace Processes

variable {C : Type u} {σ : Type v} {π : Type w} {α : Type x}

def Owns (holder : σ → Option C) (holds : π → Bool) (s : Processes C σ π) : Prop :=
  ∀ c, holder s.shared = some c ↔ holds (s.phase c) = true

theorem Owns.eq {holder : σ → Option C} {holds : π → Bool} {s : Processes C σ π} {c d : C}
    (h : s.Owns holder holds) (hc : holds (s.phase c) = true) (hd : holds (s.phase d) = true)
    : c = d := by
  have hsome := (h c).mpr hc
  rw [(h d).mpr hd, Option.some.injEq] at hsome
  exact hsome.symm

theorem Owns.congr {holder : σ → Option C} {holds : π → Bool} {s t : Processes C σ π}
    (h : s.Owns holder holds) (hholder : holder t.shared = holder s.shared)
    (hphase : t.phase = s.phase) : t.Owns holder holds := by
  intro c
  rw [hholder, hphase]
  exact h c

inductive LockStep (c : C) : Option C → Bool → Option C → Bool → Prop
  | keep (holder : Option C) (holds : Bool) : LockStep c holder holds holder holds
  | take : LockStep c none false (some c) true
  | drop (holder : Option C) : LockStep c holder true none false

theorem LockStep.map {D : Type x} {c : C} {holder holder' : Option C} {holds holds' : Bool} (f : C → D)
    (h : LockStep c holder holds holder' holds')
    : LockStep (f c) (holder.map f) holds (holder'.map f) holds' := by
  cases h with
  | keep => exact .keep _ _
  | take => exact .take
  | drop => exact .drop _

variable [DecidableEq C]

/--
A process takes a step of `act`. It may change what is shared, but no phase other than its own.
-/
def step (act : C → σ → π → α → Option (σ × π)) (s : Processes C σ π) (c : C) (a : α)
    : Option (Processes C σ π) :=
  (act c s.shared (s.phase c) a).map fun (shared, phase) =>
    { shared, phase := Function.update s.phase c phase }

variable {act : C → σ → π → α → Option (σ × π)} {s t : Processes C σ π} {c : C} {a : α}

theorem step_eq_some_iff
    : s.step act c a = some t
        ↔
      ∃ phase, act c s.shared (s.phase c) a = some (t.shared, phase)
        ∧ t.phase = Function.update s.phase c phase := by
  rcases t with ⟨shared, phases⟩
  simp only [step, Option.map_eq_some_iff, mk.injEq, Prod.exists]
  constructor
  . rintro ⟨shared, phase, hact, rfl, rfl⟩
    exact ⟨phase, hact, rfl⟩
  . rintro ⟨phase, hact, rfl⟩
    exact ⟨shared, phase, hact, rfl, rfl⟩

theorem act_of_step (h : s.step act c a = some t)
    : act c s.shared (s.phase c) a = some (t.shared, t.phase c)
        ∧ ∀ d, d ≠ c → t.phase d = s.phase d := by
  rcases step_eq_some_iff.mp h with ⟨phase, hact, hphase⟩
  rw [hphase, Function.update_self]
  refine ⟨hact, ?_⟩
  intro d hd
  exact Function.update_of_ne hd _ _

theorem forall_of_step {P : σ → C → π → Prop} (h : s.step act c a = some t)
    (hown : P t.shared c (t.phase c)) (hothers : ∀ d, d ≠ c → P t.shared d (s.phase d))
    : ∀ d, P t.shared d (t.phase d) := by
  intro d
  by_cases hd : d = c
  . rw [hd]
    exact hown
  . rw [(act_of_step h).2 d hd]
    exact hothers d hd

theorem Owns.step {holder : σ → Option C} {holds : π → Bool} (hs : s.Owns holder holds)
    (h : s.step act c a = some t)
    (hlock : LockStep c (holder s.shared) (holds (s.phase c)) (holder t.shared) (holds (t.phase c)))
    : t.Owns holder holds := by
  have hown := hs c
  apply forall_of_step (P := fun shared d phase => holder shared = some d ↔ holds phase = true) h
  . generalize holder s.shared = before at hlock hown
    generalize holder t.shared = after at hlock ⊢
    generalize holds (s.phase c) = holding at hlock hown
    generalize holds (t.phase c) = holding' at hlock ⊢
    cases hlock with
    | keep => exact hown
    | take => simp
    | drop => simp
  . intro d hd
    rw [← hs d]
    generalize holder s.shared = before at hlock hown ⊢
    generalize holder t.shared = after at hlock ⊢
    generalize holds (s.phase c) = holding at hlock hown
    generalize holds (t.phase c) = holding' at hlock
    cases hlock with
    | keep => rfl
    | take => simp [Ne.symm hd]
    | drop =>
      rw [hown.mpr rfl]
      simp [Ne.symm hd]

end Processes
