import Attached.Library.Except

/-!
This module contains readers, which take values off the front of a byte string or fail, and the
rules to show that a reader accepts exactly what a writer produces.

For each reader `r` the development proves a statement of the shape

`r.run input = .ok (a, rest) ↔ P a ∧ input = write a ++ rest`

which contains both directions of a codec at once: the reader undoes the writer, and nothing but the
output of the writer is ever accepted. The rules below chain such statements along `do` blocks.
-/

/--
A reader that produces an `α` and the unread rest of its input, or fails with an `ε`.
-/
structure Reader (ε : Type) (α : Type) where
  run : List UInt8 → Except ε (α × List UInt8)

namespace Reader

variable {ε : Type} {α β : Type}

instance : Monad (Reader ε) where
  pure a := ⟨fun input => .ok (a, input)⟩
  bind r f := ⟨fun input =>
    match r.run input with
    | .ok (a, rest) => (f a).run rest
    | .error e => .error e⟩

theorem bind_def (r : Reader ε α) (f : α → Reader ε β) (input : List UInt8)
    : (r >>= f).run input
        =
      match r.run input with
      | .ok (a, rest) => (f a).run rest
      | .error e => .error e := rfl

def lift (x : Except ε α) : Reader ε α where
  run input :=
    match x with
    | .ok a => .ok (a, input)
    | .error e => .error e

def fail (error : ε) : Reader ε α :=
  lift (.error error)

def ensure (condition : Bool) (error : ε) : Reader ε Unit :=
  lift (Except.ensure condition error)

def byte (error : ε) : Reader ε UInt8 where
  run input :=
    match input with
    | [] => .error error
    | b :: rest => .ok (b, rest)

def take (length : Nat) (error : ε) : Reader ε (List UInt8) where
  run input :=
    if length ≤ input.length then .ok (input.take length, input.drop length) else .error error

@[simp]
theorem run_pure_eq_ok_iff {a b : α} {input rest : List UInt8}
    : (pure a : Reader ε α).run input = .ok (b, rest) ↔ a = b ∧ input = rest := by
  change (Except.ok (a, input) : Except ε _) = .ok (b, rest) ↔ _
  simp

@[simp]
theorem run_bind_eq_ok_iff {r : Reader ε α} {f : α → Reader ε β} {input rest : List UInt8} {b : β}
    : (r >>= f).run input = .ok (b, rest)
        ↔
      ∃ a middle, r.run input = .ok (a, middle) ∧ (f a).run middle = .ok (b, rest) := by
  simp only [bind]
  cases r.run input with
  | error e => simp
  | ok p =>
    rcases p with ⟨a, middle⟩
    simp

@[simp]
theorem run_map_eq_ok_iff {r : Reader ε α} {f : α → β} {input rest : List UInt8} {b : β}
    : (f <$> r).run input = .ok (b, rest) ↔ ∃ a, r.run input = .ok (a, rest) ∧ f a = b := by
  change (r >>= fun a => pure (f a)).run input = .ok (b, rest) ↔ _
  simp only [run_bind_eq_ok_iff, run_pure_eq_ok_iff]
  constructor
  . rintro ⟨a, middle, h, rfl, rfl⟩
    exact ⟨a, h, rfl⟩
  . rintro ⟨a, h, rfl⟩
    exact ⟨a, rest, h, rfl, rfl⟩

@[simp]
theorem run_lift_eq_ok_iff {x : Except ε α} {a : α} {input rest : List UInt8}
    : (lift x).run input = .ok (a, rest) ↔ x = .ok a ∧ input = rest := by
  cases x with
  | error e => simp [lift]
  | ok b => simp [lift]

@[simp]
theorem run_fail_eq_ok_iff {e : ε} {a : α} {input rest : List UInt8}
    : (fail e : Reader ε α).run input = .ok (a, rest) ↔ False := by
  simp [fail]

@[simp]
theorem run_ensure_eq_ok_iff {condition : Bool} {error : ε} {u : Unit} {input rest : List UInt8}
    : (ensure condition error).run input = .ok (u, rest) ↔ condition = true ∧ input = rest := by
  simp [ensure]

@[simp]
theorem run_byte_eq_ok_iff {error : ε} {b : UInt8} {input rest : List UInt8}
    : (byte error).run input = .ok (b, rest) ↔ input = b :: rest := by
  cases input with
  | nil => simp [byte]
  | cons hd tl => simp [byte]

@[simp]
theorem run_take_eq_ok_iff {length : Nat} {error : ε} {bs input rest : List UInt8}
    : (take length error).run input = .ok (bs, rest) ↔ bs.length = length ∧ input = bs ++ rest := by
  simp only [take]
  split
  . next hle =>
    simp only [Except.ok.injEq, Prod.mk.injEq]
    constructor
    . rintro ⟨rfl, rfl⟩
      simp [hle]
    . rintro ⟨rfl, rfl⟩
      simp
  . next hlt =>
    simp only [reduceCtorEq, false_iff, not_and]
    rintro rfl rfl
    simp at hlt

end Reader
