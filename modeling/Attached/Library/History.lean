import Mathlib.Tactic.Common

/-!
This module contains what can be said about a record of everything that happened: every event of it
may depend on the events before it.
-/

/--
Every event of the history, the latest one first, was warranted by the events before it.
-/
def History.Warranted {ε : Type u} (W : ε → List ε → Prop) (history : List ε) : Prop :=
  match history with
  | [] => True
  | event :: before => W event before ∧ Warranted W before

namespace History.Warranted

variable {ε : Type u} {W : ε → List ε → Prop} {event : ε} {history later before : List ε}

theorem cons (h : Warranted W history) (hevent : W event history) : Warranted W (event :: history) :=
  ⟨hevent, h⟩

theorem warrants (h : Warranted W (later ++ event :: before)) : W event before := by
  induction later with
  | nil => exact h.1
  | cons _ later ih => exact ih h.2

theorem of_mem (h : Warranted W history) (hmem : event ∈ history)
    : ∃ later before, history = later ++ event :: before ∧ W event before := by
  rcases List.append_of_mem hmem with ⟨later, before, rfl⟩
  exact ⟨later, before, rfl, h.warrants⟩

theorem count_le_one [DecidableEq ε] (h : Warranted W history)
    (honce : ∀ before, W event before → event ∉ before) : history.count event ≤ 1 := by
  induction history with
  | nil => simp
  | cons latest before ih =>
    rw [List.count_cons]
    split
    . next heq =>
      rw [beq_iff_eq] at heq
      subst heq
      simp [List.count_eq_zero_of_not_mem (honce before h.1)]
    . exact ih h.2

end History.Warranted
