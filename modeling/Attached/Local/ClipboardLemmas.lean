import Attached.Local.Clipboard

/-!
This module contains the proof that only the helper of the latest claim clears the clipboard, and that
no bundle stays there once that helper did.
-/

namespace Attached

namespace Clipboard

section

variable {α : Type} {io : ClipboardIo} {bundle : String}
  {generation : Vector UInt8 generationBytes} {store after : ClipboardStore}

theorem run_currentMatches
    : (currentMatches io bundle).run store
        = (.ok (io.readable && store.contents == some bundle), store) := rfl

theorem run_setSecret
    : (setSecret io bundle).run store
        =
      (io.set, if io.set = .ok () then { store with contents := some bundle } else store) := by
  unfold setSecret
  rw [Effect.bind_def, Effect.run_lift]
  cases io.set with
  | error e => rfl
  | ok u => rfl

theorem run_clearSecret
    : (clearSecret io).run store
        =
      (io.clear, if io.clear = .ok () then { store with contents := none } else store) := by
  unfold clearSecret
  rw [Effect.bind_def, Effect.run_lift]
  cases io.clear with
  | error e => rfl
  | ok u => rfl

theorem run_clearIfCurrent
    : (clearIfCurrent io bundle).run store
        =
      if io.readable && store.contents == some bundle then
        (io.clear.mapError
            (·.context "could not clear the exported account bundle from the clipboard"),
          if io.clear = .ok () then { store with contents := none } else store)
      else
        (.ok (), store) := by
  unfold clearIfCurrent
  rw [Effect.run_bind_of_ok run_currentMatches]
  split
  . rw [Effect.run_mapError, run_clearSecret]
  . rfl

theorem clearIfCurrent_cases
    : ((clearIfCurrent io bundle).run store).2 = store
        ∨ (store.contents = some bundle
          ∧ ((clearIfCurrent io bundle).run store).2 = { store with contents := none }) := by
  rw [run_clearIfCurrent]
  split
  . next hmatch =>
    simp only [Bool.and_eq_true, beq_iff_eq] at hmatch
    split
    . exact Or.inr ⟨hmatch.2, rfl⟩
    . exact Or.inl rfl
  . exact Or.inl rfl

theorem run_clearIfCurrent_of_clears (h : io.Clears)
    : (clearIfCurrent io bundle).run store
        =
      (.ok (), if store.contents = some bundle then { store with contents := none } else store) := by
  rw [run_clearIfCurrent, h.readable, h.clear]
  simp only [Bool.true_and, beq_iff_eq, Except.mapError, if_true]
  split <;> rfl

theorem withCoordinationLock_cases {operation : ClipboardEffect α} {result : Except Failure α}
    (h : (withCoordinationLock io operation).run store = (result, after))
    : (after = store
          ∧ (∃ e, result = .error e)
          ∧ (io.root ≠ .ok () ∨ io.files.lock ≠ .ok ()))
        ∨ ∃ inner, operation.run store = (inner, after)
          ∧ result = inner.mapError (·.context "could not coordinate clipboard ownership") := by
  unfold withCoordinationLock at h
  rw [Effect.bind_def, Effect.run_lift] at h
  cases hroot : io.root with
  | error e =>
    rw [hroot] at h
    cases h
    exact Or.inl ⟨rfl, ⟨e, rfl⟩, Or.inl nofun⟩
  | ok u =>
    rw [hroot] at h
    dsimp only at h
    rw [Effect.run_mapError, Effect.bind_def, Effect.run_lift] at h
    cases hlock : io.files.lock with
    | error e =>
      rw [hlock] at h
      cases h
      exact Or.inl ⟨rfl, ⟨_, rfl⟩, Or.inr nofun⟩
    | ok u =>
      rw [hlock] at h
      dsimp only at h
      rw [Prod.mk.injEq] at h
      exact Or.inr ⟨(operation.run store).1, by rw [← h.2], h.1.symm⟩

variable {files : LocalIo} {file file' : StateFile}

theorem writeGeneration_eq_ok {u : Unit}
    (h : (writeGeneration files generation).run file = (.ok u, file'))
    : file' = some generation.toList := by
  rcases Effect.run_bind_eq_ok_iff.mp h with ⟨existing, _, _, hrest⟩
  cases existing with
  | some existing =>
    simp only [LocalIo.atomicReplace, Effect.run_bind_eq_ok_iff, Effect.run_lift, Effect.run_set,
      Prod.mk.injEq] at hrest
    rcases hrest with ⟨_, _, _, _, _, _, _, rfl⟩
    rfl
  | none =>
    rcases Effect.run_bind_eq_ok_iff.mp hrest with ⟨created, _, hcreate, hcreated⟩
    rcases SecretStore.createNoclobber_eq_ok hcreate with ⟨rfl, _, rfl⟩ | ⟨rfl, _, rfl⟩
    . cases hcreated
      rfl
    . cases hcreated

theorem failsClosed_writeGeneration : (writeGeneration files generation).FailsClosed := by
  apply Effect.FailsClosed.bind (SecretStore.readOnly_readSecretOptionalBounded _ _)
  intro existing
  cases existing with
  | some existing =>
    apply Effect.FailsClosed.bind (Effect.readOnly_lift _)
    intro _
    exact SecretStore.failsClosed_atomicReplace _
  | none =>
    intro file file' e h
    rcases Effect.run_bind_eq_error_iff.mp h with hcreate | ⟨created, _, hcreate, hrest⟩
    . exact SecretStore.failsClosed_createNoclobber _ hcreate
    . rcases SecretStore.createNoclobber_eq_ok hcreate with ⟨rfl, _, _⟩ | ⟨rfl, _, rfl⟩
      . cases hrest
      . cases hrest
        rfl

theorem claimClipboard_cases {result : Except Failure Unit}
    (h : (claimClipboard io bundle generation).run store = (result, after))
    : (result = .ok () ∧ after = ⟨some bundle, some generation.toList⟩)
        ∨ ((∃ e, result = .error e)
          ∧ ((after = store ∧ ¬io.Places)
            ∨ (after.generation = store.generation
              ∧ (after.contents = none ∨ (after.contents = some bundle ∧ ¬io.Clears))))) := by
  rcases withCoordinationLock_cases h with ⟨hsame, herror, hlock⟩ | ⟨inner, hrun, rfl⟩
  . refine Or.inr ⟨herror, Or.inl ⟨hsame, ?_⟩⟩
    intro hplaces
    rcases hlock with hroot | hlock
    . exact hroot hplaces.root
    . exact hlock hplaces.lock
  rw [Effect.bind_def, Effect.run_mapError, run_setSecret] at hrun
  cases hset : io.set with
  | error e =>
    rw [hset] at hrun
    cases hrun
    refine Or.inr ⟨⟨_, rfl⟩, Or.inl ⟨rfl, ?_⟩⟩
    intro hplaces
    rw [hplaces.set] at hset
    cases hset
  | ok u =>
    rw [hset] at hrun
    dsimp only [Except.mapError] at hrun
    rw [if_pos rfl, Effect.bind_def, Effect.run_attempt, onGeneration, Effect.run_focus] at hrun
    dsimp only at hrun
    rcases hwrite : (writeGeneration io.files generation).run store.generation with ⟨written, file⟩
    rw [hwrite] at hrun
    cases written with
    | ok u =>
      cases hrun
      left
      rw [writeGeneration_eq_ok hwrite]
      exact ⟨rfl, rfl⟩
    | error e =>
      dsimp only at hrun
      rw [failsClosed_writeGeneration hwrite, Effect.bind_def, Effect.run_attempt] at hrun
      cases hrun
      refine Or.inr ⟨⟨_, rfl⟩, Or.inr ?_⟩
      by_cases hclears : io.Clears
      . rw [run_clearIfCurrent_of_clears hclears, if_pos rfl]
        exact ⟨rfl, Or.inl rfl⟩
      . have hcases : ((clearIfCurrent io bundle).run ⟨some bundle, store.generation⟩).2
            = ⟨some bundle, store.generation⟩ ∨ _ := clearIfCurrent_cases
        rcases hcases with hsame | ⟨_, hcleared⟩
        . rw [hsame]
          exact ⟨rfl, Or.inr ⟨rfl, hclears⟩⟩
        . rw [hcleared]
          exact ⟨rfl, Or.inl rfl⟩

theorem run_onGeneration_read {result : Except Failure (Option (List UInt8))}
    (h : (onGeneration (files.readSecretOptionalBounded generationFile generationBytes)).run store
      = (result, after))
    : after = store ∧ ∀ found, result = .ok found → found = store.generation := by
  have hreadOnly : (files.readSecretOptionalBounded generationFile generationBytes).ReadOnly :=
    SecretStore.readOnly_readSecretOptionalBounded _ _
  have hsame := hreadOnly store.generation
  rw [onGeneration, Effect.run_focus, hsame, Prod.mk.injEq] at h
  refine ⟨h.2.symm, ?_⟩
  rintro found rfl
  have hrun : (files.readSecretOptionalBounded generationFile generationBytes).run store.generation
      = (.ok found, store.generation) := Prod.ext h.1 hsame
  cases hfile : store.generation with
  | none =>
    rw [hfile] at hrun
    exact (SecretStore.readSecretOptionalBounded_none_eq_ok hrun).1
  | some stored =>
    rw [hfile] at hrun
    exact (SecretStore.readSecretOptionalBounded_eq_ok hrun).1

theorem clearIfLatest_spec {result : Except Failure Unit}
    (h : (clearIfLatest io bundle generation).run store = (result, after))
    : (after = store
          ∧ ((∃ e, result = .error e) ∨ store.generation ≠ some generation.toList))
        ∨ (store.generation = some generation.toList
          ∧ ∃ inner, (clearIfCurrent io bundle).run store = (inner, after)
            ∧ result = inner.mapError (·.context "could not coordinate clipboard ownership")) := by
  rcases withCoordinationLock_cases h with ⟨hsame, herror, _⟩ | ⟨inner, hrun, rfl⟩
  . exact Or.inl ⟨hsame, Or.inl herror⟩
  rcases hread : (onGeneration (io.files.readSecretOptionalBounded generationFile
    generationBytes)).run store with ⟨found, after'⟩
  rcases run_onGeneration_read hread with ⟨rfl, hfound⟩
  cases found with
  | error e =>
    rw [Effect.run_bind_of_error hread] at hrun
    cases hrun
    exact Or.inl ⟨rfl, Or.inl ⟨_, rfl⟩⟩
  | ok found =>
    rw [Effect.run_bind_of_ok hread] at hrun
    have hgeneration := hfound found rfl
    cases found with
    | none =>
      cases hrun
      left
      rw [← hgeneration]
      exact ⟨rfl, Or.inr nofun⟩
    | some current =>
      dsimp only at hrun
      by_cases hlength : (current.length == generationBytes) = true
      . rw [Effect.run_ensure_bind hlength] at hrun
        by_cases hsame : current = generation.toList
        . rw [if_pos (beq_iff_eq.mpr hsame)] at hrun
          right
          rw [← hgeneration, hsame]
          exact ⟨rfl, inner, hrun, rfl⟩
        . rw [if_neg (by simpa using hsame)] at hrun
          cases hrun
          left
          rw [← hgeneration]
          refine ⟨rfl, Or.inr ?_⟩
          intro heq
          exact hsame (Option.some.inj heq)
      . rw [Effect.run_ensure_bind_of_false (by simpa using hlength)] at hrun
        cases hrun
        exact Or.inl ⟨rfl, Or.inl ⟨_, rfl⟩⟩

theorem clearIfLatest_cases {result : Except Failure Unit}
    (h : (clearIfLatest io bundle generation).run store = (result, after))
    : after = store
        ∨ (store.generation = some generation.toList
          ∧ store.contents = some bundle
          ∧ after = { store with contents := none }) := by
  rcases clearIfLatest_spec h with ⟨hsame, _⟩ | ⟨hgeneration, inner, hrun, _⟩
  . exact Or.inl hsame
  . have hcases : ((clearIfCurrent io bundle).run store).2 = store ∨ _ := clearIfCurrent_cases
    rw [hrun] at hcases
    rcases hcases with hsame | ⟨hcontents, hcleared⟩
    . exact Or.inl hsame
    . exact Or.inr ⟨hgeneration, hcontents, hcleared⟩

theorem contents_of_clearIfLatest {u : Unit} (hclears : io.Clears)
    (hgeneration : store.generation = some generation.toList)
    (h : (clearIfLatest io bundle generation).run store = (.ok u, after))
    : after.contents = none ∨ (after.contents = store.contents ∧ store.contents ≠ some bundle) := by
  rcases clearIfLatest_spec h with ⟨_, ⟨_, herror⟩ | hother⟩ | ⟨_, inner, hrun, _⟩
  . cases herror
  . exact absurd hgeneration hother
  . rw [run_clearIfCurrent_of_clears hclears, Prod.mk.injEq] at hrun
    rw [← hrun.2]
    split
    . exact Or.inl rfl
    . next hne => exact Or.inr ⟨rfl, hne⟩

theorem clearIfLatest_eq_ok (hreads : io.Reads) (hclears : io.Clears)
    (hgeneration : store.generation = some generation.toList)
    : ∃ after, (clearIfLatest io bundle generation).run store = (.ok (), after) := by
  have hread : (onGeneration (io.files.readSecretOptionalBounded generationFile
      generationBytes)).run store = (.ok (some generation.toList), store) := by
    rw [onGeneration, Effect.run_focus, hgeneration,
      SecretStore.run_readSecretOptionalBounded hreads.read (by simp), ← hgeneration]
  unfold clearIfLatest withCoordinationLock
  rw [hreads.root, hreads.lock, Effect.bind_def, Effect.run_lift]
  dsimp only
  rw [Effect.run_mapError, Effect.bind_def, Effect.run_lift]
  dsimp only
  rw [Effect.run_bind_of_ok hread]
  dsimp only
  rw [Effect.run_ensure_bind (by simp), if_pos (beq_iff_eq.mpr rfl),
    run_clearIfCurrent_of_clears hclears]
  exact ⟨_, rfl⟩

end

section

variable {C : Type} [DecidableEq C] {generation : C → Vector UInt8 generationBytes}
  {s t : Processes C (Shared C) Phase} {event : Event C}

omit [DecidableEq C] in
theorem act_cases {c : C} {shared shared' : Shared C} {phase phase' : Phase} {action : Action}
    (h : act generation c shared phase action = some (shared', phase'))
    : (shared' = shared
          ∧ (phase = .started ∨ ∃ bundle, phase.owed = some bundle ∧ phase'.owed = some bundle))
        ∨ (∃ bundle io result, phase = .ready bundle
          ∧ action = .claim io
          ∧ (claimClipboard io bundle (generation c)).run shared.store = (result, shared'.store)
          ∧ ((result = .ok () ∧ shared'.latest = some c ∧ phase' = .claimed bundle)
            ∨ ∃ e, result = .error e ∧ shared'.latest = shared.latest ∧ phase' = .failed e))
        ∨ ∃ bundle io result, phase.owed = some bundle
          ∧ action = .clear io
          ∧ (clearIfLatest io bundle (generation c)).run shared.store = (result, shared'.store)
          ∧ shared'.latest = shared.latest
          ∧ phase' = .finished bundle result := by
  unfold act at h
  split at h
  -- input
  . split at h <;> cases h <;> exact Or.inl ⟨rfl, Or.inl rfl⟩
  -- claim
  . next bundle io =>
    right
    left
    rcases hrun : (claimClipboard io bundle (generation c)).run shared.store with ⟨result, after⟩
    rw [hrun] at h
    refine ⟨bundle, io, result, rfl, rfl, ?_⟩
    cases result with
    | ok u =>
      cases h
      exact ⟨hrun, Or.inl ⟨rfl, rfl, rfl⟩⟩
    | error e =>
      cases h
      exact ⟨hrun, Or.inr ⟨e, rfl, rfl, rfl⟩⟩
  -- confirm
  . next bundle works =>
    cases h
    refine Or.inl ⟨rfl, Or.inr ⟨bundle, rfl, ?_⟩⟩
    cases works <;> rfl
  -- clear
  . next bundle io =>
    cases h
    exact Or.inr (Or.inr ⟨bundle, io, _, rfl, rfl, rfl, rfl, rfl⟩)
  . next bundle io =>
    cases h
    exact Or.inr (Or.inr ⟨bundle, io, _, rfl, rfl, rfl, rfl, rfl⟩)
  . cases h

omit [DecidableEq C] in
theorem act_claim {c : C} {shared shared' : Shared C} {phase phase' : Phase} {io : ClipboardIo}
    (h : act generation c shared phase (.claim io) = some (shared', phase'))
    : ∃ bundle result, (claimClipboard io bundle (generation c)).run shared.store
          = (result, shared'.store)
        ∧ ((result = .ok () ∧ shared'.latest = some c ∧ phase' = .claimed bundle)
          ∨ ∃ e, result = .error e ∧ shared'.latest = shared.latest ∧ phase' = .failed e) := by
  cases phase with
  | ready bundle =>
    rcases act_cases h with ⟨_, hstarted | ⟨_, howed, _⟩⟩ | ⟨_, _, result, hready, hclaim, hrest⟩
      | ⟨_, _, _, howed, _⟩
    . cases hstarted
    . cases howed
    . cases hready
      cases hclaim
      exact ⟨bundle, result, hrest⟩
    . cases howed
  | _ => cases h

omit [DecidableEq C] in
theorem act_clear {c : C} {shared shared' : Shared C} {phase phase' : Phase} {io : ClipboardIo}
    (h : act generation c shared phase (.clear io) = some (shared', phase'))
    : ∃ bundle result, phase.owed = some bundle
        ∧ (clearIfLatest io bundle (generation c)).run shared.store = (result, shared'.store)
        ∧ phase' = .finished bundle result := by
  cases phase with
  | unconfirmed bundle =>
    cases h
    exact ⟨bundle, _, rfl, rfl, rfl⟩
  | retaining bundle =>
    cases h
    exact ⟨bundle, _, rfl, rfl, rfl⟩
  | _ => cases h

def Tells (generation : C → Vector UInt8 generationBytes) (s : Processes C (Shared C) Phase)
    : Prop :=
  ∀ c, s.shared.store.generation = some (generation c).toList ↔ s.shared.latest = some c

theorem tells_step (hgeneration : Function.Injective generation) (hs : Tells generation s)
    (h : (clipboardSystem generation).step s event t) : Tells generation t := by
  cases event with
  | user contents =>
    cases h
    exact hs
  | helper c action =>
    have hact := (Processes.act_of_step h).1
    have hsame : t.shared.store.generation = s.shared.store.generation →
        t.shared.latest = s.shared.latest → Tells generation t := by
      intro hfile hlatest d
      rw [hfile, hlatest]
      exact hs d
    rcases act_cases hact with ⟨hshared, _⟩ | ⟨bundle, io, result, _, _, hrun, hresult⟩
      | ⟨bundle, io, result, _, _, hrun, hlatest, _⟩
    . rw [hshared] at hsame
      exact hsame rfl rfl
    . rcases hresult with ⟨rfl, hlatest, _⟩ | ⟨e, rfl, hlatest, _⟩
      . rcases claimClipboard_cases hrun with ⟨_, hafter⟩ | ⟨⟨_, herror⟩, _⟩
        . intro d
          rw [hafter, hlatest, Option.some.injEq, Option.some.injEq, Vector.toList_inj,
            hgeneration.eq_iff]
        . cases herror
      . rcases claimClipboard_cases hrun with ⟨hok, _⟩ | ⟨_, ⟨hstore, _⟩ | ⟨hfile, _⟩⟩
        . cases hok
        . exact hsame (by rw [hstore]) hlatest
        . exact hsame hfile hlatest
    . rcases clearIfLatest_cases hrun with hstore | ⟨_, _, hstore⟩
      . exact hsame (by rw [hstore]) hlatest
      . exact hsame (by rw [hstore]) hlatest

theorem tells_of_reachable (hgeneration : Function.Injective generation)
    (h : (clipboardSystem generation).Reachable s) : Tells generation s := by
  apply h.invariant (P := Tells generation)
  . rintro s ⟨_, hlatest, hfile⟩ c
    rw [hlatest]
    simp [hfile c]
  . intro s t e hs hstep
    exact tells_step hgeneration hs hstep

def Settled (phase : Phase) (contents : Option String) : Prop :=
  match phase with
  | .claimed bundle => contents = some bundle ∨ contents = none
  | .unconfirmed bundle => contents = some bundle ∨ contents = none
  | .retaining bundle => contents = some bundle ∨ contents = none
  | .finished _ (.ok _) => contents = none
  | .finished _ (.error _) => True
  | _ => False

theorem settled_of_owed {phase : Phase} {bundle : String} {contents : Option String}
    (h : phase.owed = some bundle)
    : Settled phase contents ↔ contents = some bundle ∨ contents = none := by
  cases phase <;> cases h <;> rfl

theorem Settled.none {phase : Phase} {contents : Option String} (h : Settled phase contents)
    : Settled phase none := by
  cases phase with
  | finished bundle result =>
    cases result with
    | error e => trivial
    | ok u => rfl
  | claimed bundle => exact Or.inr rfl
  | unconfirmed bundle => exact Or.inr rfl
  | retaining bundle => exact Or.inr rfl
  | started => exact h
  | ready bundle => exact h
  | failed e => exact h

def LatestSettled (s : Processes C (Shared C) Phase) : Prop :=
  ∀ c, s.shared.latest = some c → Settled (s.phase c) s.shared.store.contents

theorem latestSettled_step (htells : Tells generation s) (hs : LatestSettled s)
    (h : (clipboardSystem generation).step s event t) (hquiet : event.Quiet)
    : LatestSettled t := by
  cases event with
  | user contents => exact hquiet.elim
  | helper c action =>
    have hact := (Processes.act_of_step h).1
    apply Processes.forall_of_step
      (P := fun shared d phase => shared.latest = some d → Settled phase shared.store.contents) h
    -- the helper itself
    . intro hlatest
      rcases act_cases hact with ⟨hshared, hphase⟩ | ⟨bundle, io, result, hphase, _, hrun, hresult⟩
        | ⟨bundle, io, result, hphase, rfl, hrun, hsame, hfinished⟩
      . rw [hshared] at hlatest ⊢
        have hsettled := hs c hlatest
        rcases hphase with hstarted | ⟨bundle, howed, howed'⟩
        . rw [hstarted] at hsettled
          exact hsettled.elim
        . rwa [settled_of_owed howed', ← settled_of_owed howed]
      . rcases hresult with ⟨rfl, _, hclaimed⟩ | ⟨e, _, hsame, _⟩
        . rcases claimClipboard_cases hrun with ⟨_, hafter⟩ | ⟨⟨_, herror⟩, _⟩
          . rw [hclaimed, hafter]
            exact Or.inl rfl
          . cases herror
        . rw [hsame] at hlatest
          have hsettled := hs c hlatest
          rw [hphase] at hsettled
          exact hsettled.elim
      . rw [hsame] at hlatest
        have hbefore := (settled_of_owed hphase).mp (hs c hlatest)
        rw [hfinished]
        cases result with
        | error e => trivial
        | ok u =>
          rcases contents_of_clearIfLatest hquiet ((htells c).mpr hlatest) hrun with hnone
            | ⟨hunchanged, hother⟩
          . exact hnone
          . rw [hunchanged]
            exact hbefore.resolve_left hother
    -- the helper of the last successful claim, while another one takes a step
    . intro d hd hlatest
      rcases act_cases hact with ⟨hshared, _⟩ | ⟨bundle, io, result, _, rfl, hrun, hresult⟩
        | ⟨bundle, io, result, _, _, hrun, hsame, _⟩
      . rw [hshared] at hlatest ⊢
        exact hs d hlatest
      . rcases hresult with ⟨_, hclaimed, _⟩ | ⟨e, rfl, hsame, _⟩
        . rw [hclaimed] at hlatest
          cases hlatest
          exact absurd rfl hd
        . rw [hsame] at hlatest
          rcases claimClipboard_cases hrun with ⟨hok, _⟩ | ⟨_, ⟨hstore, _⟩
            | ⟨_, hnone | ⟨_, hclears⟩⟩⟩
          . cases hok
          . rw [hstore]
            exact hs d hlatest
          . rw [hnone]
            exact (hs d hlatest).none
          . exact absurd hquiet hclears
      . rw [hsame] at hlatest
        rcases clearIfLatest_cases hrun with hstore | ⟨hgeneration, _, _⟩
        . rw [hstore]
          exact hs d hlatest
        . rw [(htells c).mp hgeneration] at hlatest
          cases hlatest
          exact absurd rfl hd

theorem latestSettled_of_reachable (hgeneration : Function.Injective generation)
    (h : ((clipboardSystem generation).restrict fun _ event => event.Quiet).Reachable s)
    : LatestSettled s := by
  have hboth : Tells generation s ∧ LatestSettled s := by
    apply h.invariant (P := fun s => Tells generation s ∧ LatestSettled s)
    . intro s hinit
      refine ⟨tells_of_reachable hgeneration (System.Reachable.of_init hinit), ?_⟩
      intro c hlatest
      rw [hinit.2.1] at hlatest
      cases hlatest
    . intro s t e hs hstep
      exact ⟨tells_step hgeneration hs.1 hstep.1, latestSettled_step hs.1 hs.2 hstep.1 hstep.2⟩
  exact hboth.2

theorem cleared_by_latest (hgeneration : Function.Injective generation)
    : (∀ s c io t, (clipboardSystem generation).Reachable s →
        (clipboardSystem generation).step s (.helper c (.clear io)) t →
        ∃ bundle, (s.phase c).owed = some bundle
          ∧ (t.shared.store = s.shared.store
            ∨ (s.shared.latest = some c
              ∧ s.shared.store.contents = some bundle
              ∧ t.shared.store = { s.shared.store with contents := none }))
          ∧ (s.shared.latest = some c → io.Reads → io.Clears →
            t.phase c = .finished bundle (.ok ())))
      ∧ (∀ s c io t, (clipboardSystem generation).Reachable s →
        (clipboardSystem generation).step s (.helper c (.claim io)) t →
        (∃ bundle, t.phase c = .claimed bundle
            ∧ t.shared.latest = some c
            ∧ t.shared.store = ⟨some bundle, some (generation c).toList⟩)
          ∨ ((∃ e, t.phase c = .failed e)
            ∧ t.shared.latest = s.shared.latest
            ∧ t.shared.store.generation = s.shared.store.generation
            ∧ (io.Clears → t.shared.store.contents = none ∨ t.shared.store = s.shared.store)
            ∧ (io.Clears → io.Places → t.shared.store.contents = none)))
      ∧ ∀ s c bundle,
        ((clipboardSystem generation).restrict fun _ event => event.Quiet).Reachable s →
        s.shared.latest = some c → s.phase c = .finished bundle (.ok ()) →
        s.shared.store.contents = none := by
  refine ⟨?_, ?_, ?_⟩
  . intro s c io t hs hstep
    have htells := tells_of_reachable hgeneration hs
    have hact := (Processes.act_of_step hstep).1
    rcases act_clear hact with ⟨bundle, result, howed, hrun, hphase⟩
    refine ⟨bundle, howed, ?_, ?_⟩
    . rcases clearIfLatest_cases hrun with hsame | ⟨hfile, hcontents, hcleared⟩
      . exact Or.inl hsame
      . exact Or.inr ⟨(htells c).mp hfile, hcontents, hcleared⟩
    . intro hlatest hreads hclears
      rcases clearIfLatest_eq_ok hreads hclears ((htells c).mpr hlatest) with ⟨after, hok⟩
      rw [hok, Prod.mk.injEq] at hrun
      rw [hphase, ← hrun.1]
  . intro s c io t _ hstep
    have hact := (Processes.act_of_step hstep).1
    rcases act_claim hact with ⟨bundle, result, hrun, hresult⟩
    rcases claimClipboard_cases hrun with ⟨rfl, hstore⟩ | ⟨⟨e, rfl⟩, hfailed⟩
    . rcases hresult with ⟨_, hlatest, hphase⟩ | ⟨_, herror, _⟩
      . exact Or.inl ⟨bundle, hphase, hlatest, hstore⟩
      . cases herror
    . rcases hresult with ⟨hok, _⟩ | ⟨_, _, hlatest, hphase⟩
      . cases hok
      . refine Or.inr ⟨⟨_, hphase⟩, hlatest, ?_⟩
        rcases hfailed with ⟨hstore, hplaces⟩ | ⟨hfile, hcontents⟩
        . exact ⟨by rw [hstore], fun _ => Or.inr hstore, fun _ h => absurd h hplaces⟩
        . have hnone : io.Clears → t.shared.store.contents = none := by
            intro hclears
            rcases hcontents with hnone | ⟨_, hstays⟩
            . exact hnone
            . exact absurd hclears hstays
          exact ⟨hfile, fun h => Or.inl (hnone h), fun h _ => hnone h⟩
  . intro s c bundle hs hlatest hphase
    have hsettled := latestSettled_of_reachable hgeneration hs c hlatest
    rw [hphase] at hsettled
    exact hsettled

end

end Clipboard

namespace Fixture

def clipboardIo : ClipboardIo where
  root := .ok ()
  files :=
    { lock := .ok (), read := .ok (), masterKey _ := .ok masterKey, random := none, install := .ok () }
  set := .ok ()
  readable := true
  clear := .ok ()

def clipboardGeneration (newer : Bool) : Vector UInt8 Clipboard.generationBytes :=
  .replicate _ (if newer then 1 else 0)

def emptyClipboard : Processes Bool (Clipboard.Shared Bool) Clipboard.Phase where
  shared := { store := { contents := none, generation := none }, latest := none }
  phase _ := .started

def exportedTwice : List (Clipboard.Event Bool) :=
  [.helper false (.input (Bytes.ofString "bundle")), .helper false (.claim clipboardIo),
    .helper false (.confirm true), .helper true (.input (Bytes.ofString "bundle")),
    .helper true (.claim clipboardIo)]

end Fixture

theorem Clipboard.cleared_by_latest_exported_twice
    : ∃ s t, (clipboardSystem Fixture.clipboardGeneration).Reachable s
        ∧ (clipboardSystem Fixture.clipboardGeneration).step s
          (.helper false (.clear Fixture.clipboardIo)) t
        ∧ (s.phase false).owed = some "bundle"
        ∧ t.shared.store.contents = some "bundle" := by
  have hgeneration : Function.Injective Fixture.clipboardGeneration := by
    intro newer newer' h
    revert h
    cases newer <;> cases newer' <;> decide
  have hinit : (clipboardSystem Fixture.clipboardGeneration).init Fixture.emptyClipboard :=
    ⟨fun _ => rfl, rfl, fun _ => nofun⟩
  have hresult : (System.replay (Clipboard.step Fixture.clipboardGeneration) Fixture.emptyClipboard
      Fixture.exportedTwice).map
        (fun s => (s.shared.store.contents, s.shared.latest, (s.phase false).owed,
          (s.step (Clipboard.act Fixture.clipboardGeneration) false
            (.clear Fixture.clipboardIo)).isSome))
        = some (some "bundle", some true, some "bundle", true) := by
    decide +kernel
  rcases Option.map_eq_some_iff.mp hresult with ⟨s, hreplay, hs⟩
  simp only [Prod.mk.injEq] at hs
  rcases hs with ⟨hcontents, hlatest, howed, hsome⟩
  rcases Option.isSome_iff_exists.mp hsome with ⟨t, hstep⟩
  have hreachable : (clipboardSystem Fixture.clipboardGeneration).Reachable s :=
    ⟨_, _, hinit, System.Run.of_replay id hreplay⟩
  refine ⟨s, t, hreachable, hstep, howed, ?_⟩
  rcases (Clipboard.cleared_by_latest hgeneration).1 s false _ t hreachable hstep with
    ⟨_, _, hsame | ⟨hother, _⟩, _⟩
  . rw [hsame]
    exact hcontents
  . rw [hlatest] at hother
    cases hother

end Attached
