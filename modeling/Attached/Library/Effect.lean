import Attached.Library.Except

/-!
This module contains computations that may fail after they changed a state: unlike a transaction, a
failing computation keeps what it did so far.
-/

/--
A computation on the state `σ` that returns an `α` or fails with an `ε`.
-/
@[ext]
structure Effect (σ ε α : Type) where
  run : σ → Except ε α × σ

namespace Effect

variable {σ ε α β γ : Type}

instance : Monad (Effect σ ε) where
  pure a := ⟨fun s => (.ok a, s)⟩
  bind x f := ⟨fun s =>
    match x.run s with
    | (.ok a, t) => (f a).run t
    | (.error e, t) => (.error e, t)⟩

theorem bind_def (x : Effect σ ε α) (f : α → Effect σ ε β) (s : σ)
    : (x >>= f).run s
        =
      match x.run s with
      | (.ok a, t) => (f a).run t
      | (.error e, t) => (.error e, t) := rfl

theorem bind_pure_id (x : Effect σ ε α) : (x >>= fun a => pure a) = x := by
  apply Effect.ext
  funext s
  rw [bind_def]
  rcases x.run s with ⟨result, t⟩
  cases result <;> rfl

theorem bind_assoc (x : Effect σ ε α) (f : α → Effect σ ε β) (g : β → Effect σ ε γ)
    : (x >>= f >>= g) = (x >>= fun a => f a >>= g) := by
  apply Effect.ext
  funext s
  rw [bind_def, bind_def, bind_def]
  rcases x.run s with ⟨result, t⟩
  cases result <;> rfl

instance : LawfulMonad (Effect σ ε) :=
  LawfulMonad.mk' _ bind_pure_id (fun _ _ => rfl) bind_assoc

def lift (x : Except ε α) : Effect σ ε α where
  run s := (x, s)

def get : Effect σ ε σ where
  run s := (.ok s, s)

def set (s : σ) : Effect σ ε Unit where
  run _ := (.ok (), s)

def modify (f : σ → σ) : Effect σ ε Unit where
  run s := (.ok (), f s)

def attempt (x : Effect σ ε α) : Effect σ ε (Except ε α) where
  run s := (.ok (x.run s).1, (x.run s).2)

def mapError (f : ε → ε) (x : Effect σ ε α) : Effect σ ε α where
  run s := ((x.run s).1.mapError f, (x.run s).2)

def focus {τ : Type} (get : σ → τ) (set : σ → τ → σ) (x : Effect τ ε α) : Effect σ ε α where
  run s := ((x.run (get s)).1, set s (x.run (get s)).2)

@[simp]
theorem run_pure (a : α) (s : σ) : (pure a : Effect σ ε α).run s = (.ok a, s) := rfl

@[simp]
theorem run_lift (x : Except ε α) (s : σ) : (lift x : Effect σ ε α).run s = (x, s) := rfl

@[simp]
theorem run_get (s : σ) : (get : Effect σ ε σ).run s = (.ok s, s) := rfl

@[simp]
theorem run_set (s t : σ) : (set t : Effect σ ε Unit).run s = (.ok (), t) := rfl

@[simp]
theorem run_modify (f : σ → σ) (s : σ) : (modify f : Effect σ ε Unit).run s = (.ok (), f s) := rfl

@[simp]
theorem run_attempt (x : Effect σ ε α) (s : σ)
    : x.attempt.run s = (.ok (x.run s).1, (x.run s).2) := rfl

@[simp]
theorem run_mapError (f : ε → ε) (x : Effect σ ε α) (s : σ)
    : (x.mapError f).run s = ((x.run s).1.mapError f, (x.run s).2) := rfl

@[simp]
theorem run_focus {τ : Type} (get : σ → τ) (set : σ → τ → σ) (x : Effect τ ε α) (s : σ)
    : (x.focus get set).run s = ((x.run (get s)).1, set s (x.run (get s)).2) := rfl

theorem lift_ok (a : α) : (lift (.ok a) : Effect σ ε α) = pure a := rfl

theorem lift_bind (x : Except ε α) (f : α → Except ε β)
    : (lift (x >>= f) : Effect σ ε β) = lift x >>= fun a => lift (f a) := by
  cases x with
  | error e => rfl
  | ok a => rfl

theorem run_bind_of_ok {x : Effect σ ε α} {f : α → Effect σ ε β} {s t : σ} {a : α}
    (h : x.run s = (.ok a, t)) : (x >>= f).run s = (f a).run t := by
  simp only [bind, h]

theorem run_bind_of_error {x : Effect σ ε α} {f : α → Effect σ ε β} {s t : σ} {e : ε}
    (h : x.run s = (.error e, t)) : (x >>= f).run s = (.error e, t) := by
  simp only [bind, h]

theorem run_ensure_bind {condition : Bool} {message : ε} {f : PUnit → Effect σ ε β} {s : σ}
    (h : condition = true)
    : (lift (Except.ensure condition message) >>= f).run s = (f ()).run s := by
  rw [h]
  rfl

theorem run_ensure_bind_of_false {condition : Bool} {message : ε} {f : PUnit → Effect σ ε β} {s : σ}
    (h : condition = false)
    : (lift (Except.ensure condition message) >>= f).run s = (.error message, s) := by
  rw [h]
  rfl

@[simp]
theorem run_bind_eq_ok_iff {x : Effect σ ε α} {f : α → Effect σ ε β} {s u : σ} {b : β}
    : (x >>= f).run s = (.ok b, u)
        ↔
      ∃ a t, x.run s = (.ok a, t) ∧ (f a).run t = (.ok b, u) := by
  rcases hx : x.run s with ⟨result, t⟩
  cases result with
  | ok a =>
    rw [run_bind_of_ok hx]
    simp
  | error e =>
    rw [run_bind_of_error hx]
    simp

@[simp]
theorem run_bind_eq_error_iff {x : Effect σ ε α} {f : α → Effect σ ε β} {s u : σ} {e : ε}
    : (x >>= f).run s = (.error e, u)
        ↔
      x.run s = (.error e, u) ∨ ∃ a t, x.run s = (.ok a, t) ∧ (f a).run t = (.error e, u) := by
  rcases hx : x.run s with ⟨result, t⟩
  cases result with
  | ok a =>
    rw [run_bind_of_ok hx]
    simp
  | error e' =>
    rw [run_bind_of_error hx]
    simp

def FailsClosed (x : Effect σ ε α) : Prop :=
  ∀ {s t : σ} {e : ε}, x.run s = (.error e, t) → t = s

def ReadOnly (x : Effect σ ε α) : Prop :=
  ∀ s : σ, (x.run s).2 = s

theorem readOnly_pure (a : α) : (pure a : Effect σ ε α).ReadOnly :=
  fun _ => rfl

theorem readOnly_lift (x : Except ε α) : (lift x : Effect σ ε α).ReadOnly :=
  fun _ => rfl

theorem readOnly_get : (get : Effect σ ε σ).ReadOnly :=
  fun _ => rfl

theorem ReadOnly.bind {x : Effect σ ε α} {f : α → Effect σ ε β} (hx : x.ReadOnly)
    (hf : ∀ a, (f a).ReadOnly) : (x >>= f).ReadOnly := by
  intro s
  have hsame := hx s
  rcases h : x.run s with ⟨result, t⟩
  rw [h] at hsame
  dsimp at hsame
  subst hsame
  cases result with
  | ok a =>
    rw [run_bind_of_ok h]
    exact hf a t
  | error e => rw [run_bind_of_error h]

theorem run_bind_snd {x : Effect σ ε α} {f : α → Effect σ ε β} {s : σ} (hf : ∀ a, (f a).ReadOnly)
    : ((x >>= f).run s).2 = (x.run s).2 := by
  rcases h : x.run s with ⟨result, t⟩
  cases result with
  | ok a =>
    rw [run_bind_of_ok h]
    exact hf a t
  | error e => rw [run_bind_of_error h]

theorem ReadOnly.attempt {x : Effect σ ε α} (hx : x.ReadOnly) : x.attempt.ReadOnly :=
  hx

theorem ReadOnly.failsClosed {x : Effect σ ε α} (hx : x.ReadOnly) : x.FailsClosed := by
  intro s t e h
  have := hx s
  rw [h] at this
  exact this

theorem FailsClosed.bind {x : Effect σ ε α} {f : α → Effect σ ε β} (hx : x.ReadOnly)
    (hf : ∀ a, (f a).FailsClosed) : (x >>= f).FailsClosed := by
  intro s t e h
  rcases run_bind_eq_error_iff.mp h with hfirst | ⟨a, u, hok, hrest⟩
  . exact hx.failsClosed hfirst
  . have hsame := hx s
    rw [hok] at hsame
    dsimp at hsame
    subst hsame
    exact hf a hrest

theorem FailsClosed.map {x : Effect σ ε α} {f : α → β} (hx : x.FailsClosed)
    : (x >>= fun a => pure (f a)).FailsClosed := by
  intro s t e h
  rcases run_bind_eq_error_iff.mp h with hfirst | ⟨a, u, _, hrest⟩
  . exact hx hfirst
  . simp at hrest

/--
A computation that starts in a state with `P` returns with `Q`, or fails with `E`.
-/
def Triple (P : σ → Prop) (x : Effect σ ε α) (Q : α → σ → Prop) (E : ε → σ → Prop) : Prop :=
  ∀ (s t : σ) (result : Except ε α), P s → x.run s = (result, t) →
    match result with
    | .ok a => Q a t
    | .error e => E e t

namespace Triple

variable {P P' : σ → Prop} {Q Q' : α → σ → Prop} {R : β → σ → Prop} {E E' : ε → σ → Prop}

theorem pure {a : α} (h : ∀ s, P s → Q a s) : Triple P (pure a : Effect σ ε α) Q E := by
  intro s t result hs hrun
  rw [run_pure, Prod.mk.injEq] at hrun
  rcases hrun with ⟨rfl, rfl⟩
  exact h s hs

theorem lift_error {e : ε} (h : ∀ s, P s → E e s) : Triple P (lift (.error e) : Effect σ ε α) Q E := by
  intro s t result hs hrun
  rw [run_lift, Prod.mk.injEq] at hrun
  rcases hrun with ⟨rfl, rfl⟩
  exact h s hs

theorem get {Q : σ → σ → Prop} (h : ∀ s, P s → Q s s) : Triple P (get : Effect σ ε σ) Q E := by
  intro s t result hs hrun
  rw [run_get, Prod.mk.injEq] at hrun
  rcases hrun with ⟨rfl, rfl⟩
  exact h s hs

theorem modify {f : σ → σ} {Q : Unit → σ → Prop} (h : ∀ s, P s → Q () (f s))
    : Triple P (modify f : Effect σ ε Unit) Q E := by
  intro s t result hs hrun
  rw [run_modify, Prod.mk.injEq] at hrun
  rcases hrun with ⟨rfl, rfl⟩
  exact h s hs

theorem bind {x : Effect σ ε α} {f : α → Effect σ ε β} (hx : Triple P x Q E)
    (hf : ∀ a, Triple (Q a) (f a) R E) : Triple P (x >>= f) R E := by
  intro s t result hs hrun
  rw [bind_def] at hrun
  rcases hfirst : x.run s with ⟨first, u⟩
  have hmid := hx s u first hs hfirst
  rw [hfirst] at hrun
  cases first with
  | ok a => exact hf a u t result hmid hrun
  | error e =>
    rw [Prod.mk.injEq] at hrun
    rcases hrun with ⟨rfl, rfl⟩
    exact hmid

theorem mono {x : Effect σ ε α} (h : Triple P x Q E) (hP : ∀ s, P' s → P s)
    (hQ : ∀ a s, Q a s → Q' a s) (hE : ∀ e s, E e s → E' e s) : Triple P' x Q' E' := by
  intro s t result hs hrun
  have hpost := h s t result (hP s hs) hrun
  cases result with
  | ok a => exact hQ a t hpost
  | error e => exact hE e t hpost

theorem intro {x : Effect σ ε α} (h : ∀ s, P s → Triple (fun s' => s' = s) x Q E)
    : Triple P x Q E := by
  intro s t result hs hrun
  exact h s hs s t result rfl hrun

end Triple

end Effect
