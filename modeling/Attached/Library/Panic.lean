import Attached.Library.Except

/-!
This module contains computations that may panic: indexing and slicing out of range, which a caller
has to rule out, next to the errors that a function returns.
-/

inductive Failure where
  | error (message : String)
  | panic
  deriving DecidableEq

namespace Failure

def context (failure : Failure) (message : String) : Failure :=
  match failure with
  | .error inner => .error s!"{message}: {inner}"
  | .panic => .panic

/--
`xs[i]`
-/
def index (xs : List α) (i : Nat) : Except Failure α :=
  Except.okOr xs[i]? .panic

/--
`xs[start..stop]`
-/
def slice (xs : List α) (start stop : Nat) : Except Failure (List α) :=
  if start ≤ stop ∧ stop ≤ xs.length then .ok ((xs.drop start).take (stop - start)) else .error .panic

@[simp]
theorem index_eq_ok_iff {xs : List α} {i : Nat} {a : α} : index xs i = .ok a ↔ xs[i]? = some a := by
  simp [index]

@[simp]
theorem slice_eq_ok_iff {xs ys : List α} {start stop : Nat}
    : slice xs start stop = .ok ys
        ↔
      start ≤ stop ∧ stop ≤ xs.length ∧ (xs.drop start).take (stop - start) = ys := by
  unfold slice
  split
  . next h => simp [h]
  . next h =>
    simp only [reduceCtorEq, false_iff]
    rintro ⟨hstart, hstop, _⟩
    exact h ⟨hstart, hstop⟩

@[simp]
theorem index_eq_error_iff {xs : List α} {i : Nat} {e : Failure}
    : index xs i = .error e ↔ xs.length ≤ i ∧ e = .panic := by
  unfold index
  rw [Except.okOr_eq_error_iff, List.getElem?_eq_none_iff, eq_comm (a := e)]

@[simp]
theorem slice_eq_error_iff {xs : List α} {start stop : Nat} {e : Failure}
    : slice xs start stop = .error e ↔ ¬(start ≤ stop ∧ stop ≤ xs.length) ∧ e = .panic := by
  unfold slice
  split
  . next h => simp [h]
  . next h => simp [h, eq_comm]

theorem slice_append {as bs cs : List α} {start stop : Nat} (hstart : as.length = start)
    (hstop : start + bs.length = stop) : slice (as ++ bs ++ cs) start stop = .ok bs := by
  subst hstart hstop
  simp

end Failure
