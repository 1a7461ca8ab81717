import Mathlib

/-!
This module contains the rules to take a failing computation apart: a chain of binds succeeds if and
only if each of its links does.
-/

namespace Except

variable {ε : Type u} {α β : Type v}

@[simp]
theorem bind_eq_ok_iff {x : Except ε α} {f : α → Except ε β} {b : β}
    : (x >>= f) = .ok b ↔ ∃ a, x = .ok a ∧ f a = .ok b := by
  cases x with
  | error e => simp [bind, Except.bind]
  | ok a => simp [bind, Except.bind]

theorem ok_bind {a : α} {f : α → Except ε β} : ((.ok a : Except ε α) >>= f) = f a := rfl

theorem bind_eq_error_iff {x : Except ε α} {f : α → Except ε β} {e : ε}
    : (x >>= f) = .error e ↔ x = .error e ∨ ∃ a, x = .ok a ∧ f a = .error e := by
  cases x with
  | error e => simp [bind, Except.bind]
  | ok a => simp [bind, Except.bind]

@[simp]
theorem pure_eq_ok_iff {a b : α} : (pure a : Except ε α) = .ok b ↔ a = b := by
  simp [pure, Except.pure]

@[simp]
theorem throw_eq_ok_iff {e : ε} {b : α} : (throw e : Except ε α) = .ok b ↔ False := by
  simp [throw, throwThe, MonadExceptOf.throw]

@[simp]
theorem mapError_eq_ok_iff {δ : Type w} {x : Except ε α} {f : ε → δ} {a : α}
    : x.mapError f = .ok a ↔ x = .ok a := by
  cases x with
  | error e => simp [Except.mapError]
  | ok b => simp [Except.mapError]

@[simp]
theorem toOption_eq_some_iff {x : Except ε α} {a : α} : x.toOption = some a ↔ x = .ok a := by
  cases x with
  | error e => simp [Except.toOption]
  | ok b => simp [Except.toOption]

theorem mapM_some_eq_ok_iff {f : α → Except ε β} {a : α} {b : Option β}
    : (some a).mapM f = .ok b ↔ ∃ c, f a = .ok c ∧ b = some c := by
  cases h : f a with
  | error e => simp [Option.mapM, h, Functor.map, Except.map]
  | ok c => simp [Option.mapM, h, Functor.map, Except.map, eq_comm]

theorem mapM_eq_ok_map {f : α → Except ε β} {g : α → β} {l : List α} (h : ∀ a ∈ l, f a = .ok (g a))
    : l.mapM f = .ok (l.map g) := by
  induction l with
  | nil => rfl
  | cons a l ih =>
    rw [List.mapM_cons, h a List.mem_cons_self, ih fun a ha => h a (List.mem_cons_of_mem _ ha)]
    rfl

theorem mem_of_mapM_eq_ok {f : α → Except ε β} {l : List α} {bs : List β} (h : l.mapM f = .ok bs) {b : β}
    : b ∈ bs ↔ ∃ a ∈ l, f a = .ok b := by
  induction l generalizing bs with
  | nil =>
    rw [List.mapM_nil, pure_eq_ok_iff] at h
    simp [← h]
  | cons a l ih =>
    rw [List.mapM_cons] at h
    simp only [bind_eq_ok_iff, pure_eq_ok_iff] at h
    rcases h with ⟨c, hc, cs, hcs, rfl⟩
    rw [List.mem_cons, ih hcs]
    constructor
    . rintro (rfl | ⟨a', ha', hb⟩)
      . exact ⟨a, List.mem_cons_self, hc⟩
      . exact ⟨a', List.mem_cons_of_mem _ ha', hb⟩
    . rintro ⟨a', ha', hb⟩
      rcases List.mem_cons.mp ha' with rfl | ha'
      . rw [hc, Except.ok.injEq] at hb
        exact Or.inl hb.symm
      . exact Or.inr ⟨a', ha', hb⟩

/--
`ensure!(condition, message)`.
-/
def ensure (condition : Bool) (message : ε) : Except ε PUnit :=
  if condition then .ok () else .error message

@[simp]
theorem ensure_eq_ok_iff {condition : Bool} {message : ε} {u : PUnit}
    : ensure condition message = .ok u ↔ condition = true := by
  cases condition with
  | true => simp [ensure]
  | false => simp [ensure]

@[simp]
theorem ensure_eq_error_iff {condition : Bool} {message error : ε}
    : ensure condition message = .error error ↔ condition = false ∧ message = error := by
  cases condition with
  | true => simp [ensure]
  | false => simp [ensure]

def okOr (x : Option α) (message : ε) : Except ε α :=
  match x with
  | some a => .ok a
  | none => .error message

@[simp]
theorem okOr_eq_ok_iff {x : Option α} {message : ε} {a : α}
    : okOr x message = .ok a ↔ x = some a := by
  cases x with
  | none => simp [okOr]
  | some a => simp [okOr]

@[simp]
theorem okOr_eq_error_iff {x : Option α} {message error : ε}
    : okOr x message = .error error ↔ x = none ∧ message = error := by
  cases x with
  | none => simp [okOr]
  | some a => simp [okOr]

end Except
