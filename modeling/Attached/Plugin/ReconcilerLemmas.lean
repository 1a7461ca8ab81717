import Attached.Plugin.Reconciler

/-!
This module contains the rules for the interactions of the reconciler, over assertions about the
state file, the reconciler and what happened so far.
-/

open Std

namespace Attached

structure Attempt where
  endpoint : String
  deadline : Option Nat
  startedAt : Nat

def ReconcileEvent.attempt? (event : ReconcileEvent) : Option Attempt :=
  match event with
  | .attempting endpoint deadline now => some ⟨endpoint, deadline, now⟩
  | _ => none

def attemptsOf (trace : List ReconcileEvent) : List Attempt :=
  trace.reverse.filterMap ReconcileEvent.attempt?

theorem attemptsOf_append (new old : List ReconcileEvent)
    : attemptsOf (new ++ old) = attemptsOf old ++ attemptsOf new := by
  simp [attemptsOf]

abbrev ReconcileAssertion := Option PluginState → Reconciler → List ReconcileEvent → Prop

@[simp]
theorem attemptsOf_nil : attemptsOf [] = [] := rfl

def ReconcileAssertion.Holds (I : ReconcileAssertion) (world : ReconcileWorld) : Prop :=
  I world.file world.reconciler world.trace

namespace Reconciler

variable {I J K : ReconcileAssertion}

def Runs (I : ReconcileAssertion) (x : Reconcile α) (J : α → ReconcileAssertion)
    (K : ReconcileAssertion) : Prop :=
  Effect.Triple I.Holds x (fun a => (J a).Holds) (fun _ => K.Holds)

namespace Runs

theorem pure {a : α} {J : α → ReconcileAssertion} (h : ∀ file r trace, I file r trace → J a file r trace)
    : Runs I (pure a) J K :=
  Effect.Triple.pure fun s hI => h s.file s.reconciler s.trace hI

theorem bind {x : Reconcile α} {f : α → Reconcile β} {J : α → ReconcileAssertion}
    {L : β → ReconcileAssertion} (hx : Runs I x J K) (hf : ∀ a, Runs (J a) (f a) L K)
    : Runs I (x >>= f) L K :=
  Effect.Triple.bind hx hf

theorem mono {x : Reconcile α} {J J' : α → ReconcileAssertion} {I' K' : ReconcileAssertion}
    (h : Runs I x J K) (hI : ∀ file r trace, I' file r trace → I file r trace)
    (hJ : ∀ a file r trace, J a file r trace → J' a file r trace)
    (hK : ∀ file r trace, K file r trace → K' file r trace) : Runs I' x J' K' :=
  Effect.Triple.mono h (fun _ => hI _ _ _) (fun _ _ => hJ _ _ _ _) (fun _ _ => hK _ _ _)

theorem assume {x : Reconcile α} {J : α → ReconcileAssertion} {P : Prop} (h : P → Runs I x J K)
    : Runs (fun file r trace => I file r trace ∧ P) x J K :=
  fun s t result hpre hrun => h hpre.2 s t result hpre.1 hrun

theorem fail {e : Interruption} {J : α → ReconcileAssertion}
    (h : ∀ file r trace, I file r trace → K file r trace)
    : Runs I (Effect.lift (.error e)) J K :=
  Effect.Triple.lift_error fun s hI => h s.file s.reconciler s.trace hI

theorem record {event : ReconcileEvent} {J : Unit → ReconcileAssertion}
    (h : ∀ file r trace, I file r trace → J () file r (event :: trace))
    : Runs I (record event) J K :=
  Effect.Triple.modify fun s hI => h s.file s.reconciler s.trace hI

theorem update {f : Reconciler → Reconciler} {J : Unit → ReconcileAssertion}
    (h : ∀ file r trace, I file r trace → J () file (f r) trace)
    : Runs I (update f) J K :=
  Effect.Triple.modify fun s hI => h s.file s.reconciler s.trace hI

theorem update_bind {f : Reconciler → Reconciler} {x : Unit → Reconcile β}
    {L : β → ReconcileAssertion} (h : ∀ file r trace, I file r trace → I file (f r) trace)
    (hx : Runs I (x ()) L K) : Runs I (Reconciler.update f >>= x) L K :=
  bind (J := fun _ => I) (update h) fun _ => hx

theorem get_bind {f : ReconcileWorld → Reconcile β} {L : β → ReconcileAssertion}
    (h : ∀ world, Runs (fun file r trace => I file r trace ∧ file = world.file
      ∧ r = world.reconciler ∧ trace = world.trace) (f world) L K)
    : Runs I (Effect.get >>= f) L K := by
  apply Effect.Triple.bind (Q := fun world world' => I.Holds world' ∧ world' = world)
  . exact Effect.Triple.get fun s hs => ⟨hs, rfl⟩
  . intro world
    apply Effect.Triple.mono (h world)
    . rintro s ⟨hI, rfl⟩
      exact ⟨hI, rfl, rfl, rfl⟩
    . intro a s hL
      exact hL
    . intro e s hK
      exact hK

theorem answer (h : ∀ file r trace, I file r trace → K file r trace)
    : Runs I answer (fun _ => I) K := by
  apply get_bind
  intro world
  cases world.answers with
  | nil =>
    apply fail
    rintro file r trace ⟨hI, _⟩
    exact h _ _ _ hI
  | cons answer answers =>
    apply bind (J := fun _ => I)
    . apply Effect.Triple.modify
      rintro s ⟨hI, _⟩
      exact hI
    . intro _
      split
      . exact fail h
      . exact pure fun _ _ _ hI => hI

theorem load (h : ∀ file r trace, I file r trace → K file r trace)
    : Runs I load (fun state file r trace => I file r trace ∧ state = file.getD .default) K := by
  apply bind (answer h)
  intro answer
  split
  . exact fail h
  . apply get_bind
    intro world
    apply pure
    rintro file r trace ⟨hI, rfl, rfl, rfl⟩
    exact ⟨hI, rfl⟩

theorem save {state : PluginState} {J : Unit → ReconcileAssertion}
    (hfail : ∀ file r trace, I file r trace → K file r trace)
    (hsaveFailed : ∀ file r trace, I file r trace → K file r (.saveFailed :: trace))
    (hsaved : ∀ file r trace, I file r trace → J () (some state) r (.saved state :: trace))
    (hJ : ∀ file r trace, J () file r trace → K file r trace)
    : Runs I (save state) J K := by
  apply bind (answer hfail)
  intro answer
  split
  . apply bind (J := fun _ => K)
    . exact record hsaveFailed
    . intro _
      exact fail fun _ _ _ hK => hK
  . apply bind (J := J)
    . apply Effect.Triple.modify
      intro s hI
      exact hsaved _ _ _ hI
    . intro _
      split
      . exact fail hJ
      . exact pure fun _ _ _ hJ => hJ

theorem machines {hosts : List DiscoveryHost} {J : List Machine → ReconcileAssertion}
    (hfail : ∀ file r trace, I file r trace → K file r trace)
    (hlisted : ∀ machines file r trace, I file r trace →
      J machines file r (.listed hosts machines :: trace))
    : Runs I (machines hosts) J K := by
  apply bind (answer hfail)
  intro answer
  split
  . exact fail hfail
  . apply bind (J := fun _ => J answer.machines)
    . exact record (hlisted _)
    . intro _
      exact pure fun _ _ _ hJ => hJ

theorem instant {J : Nat → ReconcileAssertion} (h : ∀ file r trace, I file r trace → K file r trace)
    (hclock : ∀ now file r trace, I file r trace → J now file r (.clock now :: trace))
    : Runs I instant J K := by
  apply bind (answer h)
  intro answer
  apply bind (J := fun _ => J answer.now)
  . exact record (hclock _)
  . intro _
    exact pure fun _ _ _ hJ => hJ

theorem ready {endpoint : String} {J : Option Bool → ReconcileAssertion}
    (h : ∀ file r trace, I file r trace → K file r trace)
    (hanswered : ∀ ready file r trace, I file r trace →
      J ready file r (.answered endpoint ready :: trace))
    : Runs I (ready endpoint) J K := by
  apply bind (answer h)
  intro answer
  apply bind (J := fun _ => J (if answer.fails then none else some answer.ready))
  . exact record (hanswered _)
  . intro _
    exact pure fun _ _ _ hJ => hJ

theorem add {endpoint : String} {J : Option String → ReconcileAssertion}
    (hadding : ∀ file r trace, I file r trace → K file r (.adding endpoint :: trace))
    (hfailed : ∀ file r trace, I file r trace →
      J none file r (.addFailed endpoint :: .adding endpoint :: trace))
    (hadded : ∀ profile file r trace, I file r trace →
      J (some profile) file r (.added endpoint profile :: .adding endpoint :: trace))
    : Runs I (add endpoint) J K := by
  apply bind (J := fun _ file r trace => ∃ before, trace = .adding endpoint :: before ∧ I file r before)
  . apply record
    intro file r trace hI
    exact ⟨trace, rfl, hI⟩
  . intro _
    apply bind (answer ?_)
    . intro answer
      split
      . apply bind (J := fun _ => J none)
        . apply record
          rintro file r _ ⟨trace, rfl, hI⟩
          exact hfailed file r trace hI
        . intro _
          exact pure fun _ _ _ hJ => hJ
      . apply bind (J := fun _ => J (some answer.profile))
        . apply record
          rintro file r _ ⟨trace, rfl, hI⟩
          exact hadded _ file r trace hI
        . intro _
          exact pure fun _ _ _ hJ => hJ
    . rintro file r _ ⟨trace, rfl, hI⟩
      exact hadding file r trace hI

theorem remove {endpoint profile : String} {J : Bool → ReconcileAssertion}
    (hremoving : ∀ file r trace, I file r trace → K file r (.removing endpoint profile :: trace))
    (hfailed : ∀ file r trace, I file r trace →
      J false file r (.removeFailed endpoint profile :: .removing endpoint profile :: trace))
    (hremoved : ∀ file r trace, I file r trace →
      J true file r (.removed endpoint profile :: .removing endpoint profile :: trace))
    : Runs I (remove endpoint profile) J K := by
  apply bind (J := fun _ file r trace =>
    ∃ before, trace = .removing endpoint profile :: before ∧ I file r before)
  . apply record
    intro file r trace hI
    exact ⟨trace, rfl, hI⟩
  . intro _
    apply bind (answer ?_)
    . intro answer
      split
      . apply bind (J := fun _ => J false)
        . apply record
          rintro file r _ ⟨trace, rfl, hI⟩
          exact hfailed file r trace hI
        . intro _
          exact pure fun _ _ _ hJ => hJ
      . apply bind (J := fun _ => J true)
        . apply record
          rintro file r _ ⟨trace, rfl, hI⟩
          exact hremoved file r trace hI
        . intro _
          exact pure fun _ _ _ hJ => hJ
    . rintro file r _ ⟨trace, rfl, hI⟩
      exact hremoving file r trace hI

end Runs

/--
A computation that forgets nothing that happened before. It fails only if that is excused, if an answer
crashes or fails, or if there is no answer left.
-/
def Proceeds (excused : Prop) (x : Reconcile α) : Prop :=
  ∀ before answers, Effect.Triple
    (fun world => before <:+ world.trace ∧ world.answers <:+ answers) x
    (fun _ world => before <:+ world.trace ∧ world.answers <:+ answers)
    fun _ world => before <:+ world.trace
      ∧ (excused ∨ world.answers = []
        ∨ ∃ answer ∈ answers, answer.crashes = true ∨ answer.fails = true)

theorem run_answer_nil {world : ReconcileWorld} (h : world.answers = [])
    : answer.run world = (.error .crashed, world) := by
  unfold answer
  rw [Effect.bind_def, Effect.run_get]
  dsimp only
  rw [h]
  rfl

theorem run_answer_cons {world : ReconcileWorld} {a : Answer} {rest : List Answer}
    (h : world.answers = a :: rest)
    : answer.run world
        =
      (if a.crashes then .error .crashed else .ok a, { world with answers := rest }) := by
  unfold answer
  rw [Effect.bind_def, Effect.run_get]
  dsimp only
  rw [h]
  dsimp only
  rw [Effect.bind_def, Effect.run_modify]
  dsimp only
  split
  . rfl
  . rfl

theorem Runs.frame {x : Reconcile α} {J : α → ReconcileAssertion}
    {F : List ReconcileEvent → Prop} (h : Runs I x J K) (hproceeds : Proceeds False x)
    (hF : ∀ event trace, F trace → F (event :: trace))
    : Runs (fun file r trace => I file r trace ∧ F trace) x
        (fun a file r trace => J a file r trace ∧ F trace) K := by
  intro s t result hpre hrun
  have hpost := h s t result hpre.1 hrun
  have hproceeded := hproceeds s.trace s.answers s t result ⟨List.suffix_rfl, List.suffix_rfl⟩ hrun
  cases result with
  | error e => exact hpost
  | ok a =>
    refine ⟨hpost, ?_⟩
    rcases hproceeded.1 with ⟨new, hnew⟩
    rw [← hnew]
    clear hnew
    induction new with
    | nil => exact hpre.2
    | cons event new ih => exact hF event _ ih

namespace Proceeds

variable {excused : Prop}

theorem pure {a : α} : Proceeds excused (pure a) :=
  fun _ _ => Effect.Triple.pure fun _ h => h

theorem bind {x : Reconcile α} {f : α → Reconcile β} (hx : Proceeds excused x)
    (hf : ∀ a, Proceeds excused (f a)) : Proceeds excused (x >>= f) :=
  fun before answers => Effect.Triple.bind (hx before answers) fun a => hf a before answers

theorem fail {e : Interruption} (h : excused)
    : Proceeds excused (Effect.lift (.error e) : Reconcile α) :=
  fun _ _ => Effect.Triple.lift_error fun _ hs => ⟨hs.1, .inl h⟩

theorem update {f : Reconciler → Reconciler} : Proceeds excused (update f) :=
  fun _ _ => Effect.Triple.modify fun _ h => h

theorem record {event : ReconcileEvent} : Proceeds excused (record event) :=
  fun _ _ => Effect.Triple.modify fun _ h => ⟨h.1.trans (List.suffix_cons _ _), h.2⟩

theorem get_bind {f : ReconcileWorld → Reconcile β} (h : ∀ world, Proceeds excused (f world))
    : Proceeds excused (Effect.get >>= f) :=
  fun before answers => Effect.Triple.bind (Effect.Triple.get fun _ h => h) fun world =>
    h world before answers

theorem answer_bind {f : Answer → Reconcile β}
    (h : ∀ answer, Proceeds (excused ∨ answer.fails = true) (f answer))
    : Proceeds excused (answer >>= f) := by
  intro before answers s t result hpre hrun
  cases hanswers : s.answers with
  | nil =>
    rw [Effect.run_bind_of_error (run_answer_nil hanswers), Prod.mk.injEq] at hrun
    rcases hrun with ⟨rfl, rfl⟩
    exact ⟨hpre.1, .inr (.inl hanswers)⟩
  | cons a rest =>
    have hsuffix : a :: rest <:+ answers := by
      rw [← hanswers]
      exact hpre.2
    have hmem : a ∈ answers := hsuffix.subset List.mem_cons_self
    have hanswer := run_answer_cons hanswers
    by_cases hcrashes : a.crashes = true
    . rw [if_pos hcrashes] at hanswer
      rw [Effect.run_bind_of_error hanswer, Prod.mk.injEq] at hrun
      rcases hrun with ⟨rfl, rfl⟩
      exact ⟨hpre.1, .inr (.inr ⟨a, hmem, .inl hcrashes⟩)⟩
    . rw [if_neg hcrashes] at hanswer
      rw [Effect.run_bind_of_ok hanswer] at hrun
      have hpost := h a before answers { s with answers := rest } t result
        ⟨hpre.1, (List.suffix_cons a rest).trans hsuffix⟩ hrun
      cases result with
      | ok b => exact hpost
      | error e =>
        refine ⟨hpost.1, ?_⟩
        rcases hpost.2 with (hexcused | hfails) | hrest
        . exact .inl hexcused
        . exact .inr (.inr ⟨a, hmem, .inr hfails⟩)
        . exact .inr hrest

theorem load : Proceeds excused load := by
  apply answer_bind
  intro answer
  split
  . next hfails => exact fail (.inr hfails)
  . exact get_bind fun _ => pure

theorem save {state : PluginState} : Proceeds excused (save state) := by
  apply answer_bind
  intro answer
  split
  . next hfails =>
    rw [Bool.and_eq_true] at hfails
    exact bind record fun _ => fail (.inr hfails.1)
  . apply bind
    . exact fun _ _ => Effect.Triple.modify fun _ h => ⟨h.1.trans (List.suffix_cons _ _), h.2⟩
    . intro _
      split
      . next hfails => exact fail (.inr hfails)
      . exact pure

theorem machines {hosts : List DiscoveryHost} : Proceeds excused (machines hosts) := by
  apply answer_bind
  intro answer
  split
  . next hfails => exact fail (.inr hfails)
  . exact bind record fun _ => pure

theorem instant : Proceeds excused instant :=
  answer_bind fun _ => bind record fun _ => pure

theorem ready {endpoint : String} : Proceeds excused (ready endpoint) :=
  answer_bind fun _ => bind record fun _ => pure

theorem add {endpoint : String} : Proceeds excused (add endpoint) := by
  apply bind record
  intro _
  apply answer_bind
  intro answer
  split
  . exact bind record fun _ => pure
  . exact bind record fun _ => pure

theorem remove {endpoint profile : String} : Proceeds excused (remove endpoint profile) := by
  apply bind record
  intro _
  apply answer_bind
  intro answer
  split
  . exact bind record fun _ => pure
  . exact bind record fun _ => pure

theorem tryAdd {host : DiscoveryHost} : Proceeds excused (tryAdd host) := by
  apply bind ready
  rintro (_ | _ | _)
  . exact pure
  . exact pure
  . exact bind add fun _ => pure

theorem attemptHost {hosts : List DiscoveryHost} {host : DiscoveryHost} {previous : Option (Nat × Nat)}
    {state : PluginState} : Proceeds excused (attemptHost hosts host previous state) := by
  apply bind instant
  intro now
  apply bind record
  intro _
  apply bind update
  intro _
  apply bind tryAdd
  rintro (_ | _ | profile)
  . exact pure
  . exact bind instant fun _ => bind update fun _ => pure
  . exact bind save fun _ => pure

theorem pollHost {hosts : List DiscoveryHost} {targets : List String} {host : DiscoveryHost}
    {state : PluginState × Nat} : Proceeds excused (pollHost hosts targets host state) := by
  unfold Reconciler.pollHost
  dsimp only
  split
  . exact pure
  . split
    . exact bind save fun _ => pure
    . split
      . exact bind record fun _ => pure
      . apply get_bind
        intro world
        split
        . apply bind instant
          intro now
          split
          . exact bind record fun _ => pure
          . exact bind attemptHost fun _ => pure
        . exact bind attemptHost fun _ => pure

theorem pollHosts {hosts : List DiscoveryHost} {targets : List String} {candidates : List DiscoveryHost}
    {state : PluginState × Nat} : Proceeds excused (pollHosts hosts targets candidates state) := by
  induction candidates generalizing state with
  | nil => exact pure
  | cons host candidates ih => exact bind pollHost fun _ => ih

theorem notifyPending {labels : List (String × String)} {state : PluginState}
    : Proceeds excused (notifyPending labels state) := by
  induction labels generalizing state excused with
  | nil => exact pure
  | cons label labels ih =>
    rcases label with ⟨id, label⟩
    apply answer_bind
    intro answer
    split
    . exact bind record fun _ => bind save fun _ => ih
    . exact ih

theorem pruneEndpoint {hosts : List DiscoveryHost} {machines : List Machine} {endpoint profile : String}
    {state : PluginState} : Proceeds excused (pruneEndpoint hosts machines endpoint profile state) := by
  unfold Reconciler.pruneEndpoint
  split
  . exact bind update fun _ => bind save fun _ => pure
  . split
    . exact bind update fun _ => pure
    . apply get_bind
      intro world
      apply bind update
      intro _
      split
      . exact pure
      . apply bind remove
        intro removed
        split
        . exact bind update fun _ => bind save fun _ => pure
        . exact pure

theorem pruneEndpoints {hosts : List DiscoveryHost} {machines : List Machine}
    {managed : List (String × String)} {state : PluginState}
    : Proceeds excused (pruneEndpoints hosts machines managed state) := by
  induction managed generalizing state with
  | nil => exact pure
  | cons entry managed ih => exact bind pruneEndpoint fun _ => ih

theorem prune {hosts : List DiscoveryHost} : Proceeds excused (prune hosts) := by
  apply bind load
  intro state
  apply bind machines
  intro machines
  exact bind update fun _ => pruneEndpoints

theorem poll {hosts : List DiscoveryHost} : Proceeds excused (poll hosts) := by
  apply bind load
  intro state
  apply bind machines
  intro machines
  apply bind update
  intro _
  apply get_bind
  intro world
  exact bind pollHosts fun _ => notifyPending

theorem check {discovery : Discovery} : Proceeds excused (check discovery) := by
  apply bind record
  intro _
  apply bind poll
  intro _
  split
  . exact bind update fun _ => update
  . apply get_bind
    intro world
    split
    . exact bind prune fun _ => update
    . exact update

end Proceeds

theorem getElem?_retain {retry : TreeMap String (Nat × Nat)} {hosts : List DiscoveryHost}
    {host : DiscoveryHost} (hhost : host ∈ hosts)
    : (retry.filter fun id _ => hosts.any fun host => host.endpointId == id)[host.endpointId]?
        =
      retry[host.endpointId]? := by
  have hany : (hosts.any fun other => other.endpointId == host.endpointId) = true :=
    List.any_eq_true.mpr ⟨host, hhost, beq_self_eq_true _⟩
  rw [TreeMap.getElem?_filter', hany]
  cases retry[host.endpointId]? <;> rfl

end Reconciler

end Attached
