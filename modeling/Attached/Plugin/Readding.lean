import Attached.Plugin.ReconcilerLemmas

/-!
This module contains when a host that the reconciler removed can come back: as long as every change
to its profile is persisted right away, no state keeps it as seen without its profile.
-/

open Std

namespace Attached

namespace ReconcileEvent

def isSaved (event : ReconcileEvent) : Bool :=
  match event with
  | .saved _ => true
  | _ => false

def changes (e : String) (event : ReconcileEvent) : Bool :=
  match event with
  | .added endpoint _ => endpoint == e
  | .removed endpoint _ => endpoint == e
  | _ => false

end ReconcileEvent

namespace Reconciler

def profileOf (e : String) (trace : List ReconcileEvent) : Option String :=
  match trace with
  | [] => none
  | .added endpoint profile :: trace => if endpoint = e then some profile else profileOf e trace
  | .removed endpoint _ :: trace => if endpoint = e then none else profileOf e trace
  | _ :: trace => profileOf e trace

def pending (e : String) (trace : List ReconcileEvent) : Bool :=
  match trace with
  | [] => false
  | event :: _ => event.changes e

def targetsOf (machines : List Machine) : List String :=
  machines.map fun machine => toAsciiLowercase machine.target

/--
The listed machines are what they are if nobody but the reconciler touches the profile of the
endpoint: its profile is among them, otherwise there is none for the endpoint, and in any case there
is none for its label.
-/
def untouched (e : String) (hosts : List DiscoveryHost) (machines : List Machine) (profile : Option String)
    : Bool :=
  (match profile with
    | some profile => machines.any (isProfile e profile)
    | none => !(targetsOf machines).contains (attachedTarget e))
    && hosts.all fun host =>
      host.endpointId != e || !equivalentLabel hosts (targetsOf machines) host

def leftAlone (e : String) (trace : List ReconcileEvent) : Bool :=
  match trace with
  | [] => true
  | .listed hosts machines :: trace =>
    untouched e hosts machines (profileOf e trace) && leftAlone e trace
  | _ :: trace => leftAlone e trace

def savesTakeEffect (e : String) (trace : List ReconcileEvent) : Bool :=
  match trace with
  | [] => true
  | event :: trace => (!pending e trace || event.isSaved) && savesTakeEffect e trace

def Undisturbed (e : String) (trace : List ReconcileEvent) : Prop :=
  leftAlone e trace = true ∧ savesTakeEffect e trace = true

structure Faithful (e : String) (state : PluginState) (trace : List ReconcileEvent) : Prop where
  managed : state.managed[e]? = profileOf e trace
  seen : e ∈ state.seen ↔ (profileOf e trace).isSome = true

def NeverStuck (e : String) (trace : List ReconcileEvent) : Prop :=
  ∀ state, .saved state ∈ trace → e ∈ state.seen → (state.managed[e]?).isSome = true

/-- Why a check does not add the endpoint, which waits for the deadline of `retry` if there is one. -/
inductive Hindered (e : String) (retry : Option (Nat × Nat)) (new : List ReconcileEvent) : Prop where
  | attempts {earlier later : List ReconcileEvent} (split : new = later ++ .deferred e :: earlier)
    (enough : 4 ≤ (attemptsOf earlier).length)
  | cooldown {earlier later : List ReconcileEvent} {deadline failures now : Nat}
    (split : new = later ++ .deferred e :: .clock now :: earlier)
    (recorded : retry = some (deadline, failures)) (early : now < deadline)
  | notReady {ready : Option Bool} (answered : .answered e ready ∈ new) (not : ready ≠ some true)
  | addFailed (failed : .addFailed e ∈ new)

def Tried (e : String) (retry : Option (Nat × Nat)) (before trace : List ReconcileEvent) : Prop :=
  ∃ new, trace = new ++ before ∧ ((∃ profile, .added e profile ∈ new) ∨ Hindered e retry new)

def Waits (e : String) (before : List ReconcileEvent) (retry : Option (Nat × Nat))
    (deadline failures now : Nat) (trace : List ReconcileEvent) : Prop :=
  Tried e retry before trace
    ∨ (retry = some (deadline, failures) ∧ ∃ earlier, trace = .clock now :: earlier ++ before)

def Rest (e : String) : ReconcileAssertion := fun file _ trace =>
  Undisturbed e trace →
    NeverStuck e trace ∧ (pending e trace = false → Faithful e (file.getD .default) trace)

def Working (e : String) (state : PluginState) : ReconcileAssertion := fun file _ trace =>
  Undisturbed e trace →
    NeverStuck e trace ∧ Faithful e state trace
      ∧ (pending e trace = false → Faithful e (file.getD .default) trace)

section

variable {e : String} {state : PluginState} {file : Option PluginState} {r : Reconciler}
  {trace before new : List ReconcileEvent} {event : ReconcileEvent} {retry : Option (Nat × Nat)}

def quiet (e : String) (event : ReconcileEvent) : Bool :=
  !event.changes e && !event.isSaved

theorem profileOf_cons_of_quiet (h : event.changes e = false)
    : profileOf e (event :: trace) = profileOf e trace := by
  cases event with
  | added endpoint profile =>
    simp only [ReconcileEvent.changes, beq_eq_false_iff_ne] at h
    simp [profileOf, h]
  | removed endpoint profile =>
    simp only [ReconcileEvent.changes, beq_eq_false_iff_ne] at h
    simp [profileOf, h]
  | _ => rfl

theorem Faithful.cons (h : Faithful e state trace) (hquiet : event.changes e = false)
    : Faithful e state (event :: trace) := by
  constructor
  . rw [profileOf_cons_of_quiet hquiet]
    exact h.managed
  . rw [profileOf_cons_of_quiet hquiet]
    exact h.seen

theorem NeverStuck.cons (h : NeverStuck e trace) (hquiet : event.isSaved = false)
    : NeverStuck e (event :: trace) := by
  intro state hmem
  rcases List.mem_cons.mp hmem with rfl | hmem
  . simp [ReconcileEvent.isSaved] at hquiet
  . exact h state hmem

theorem Undisturbed.of_cons (h : Undisturbed e (event :: trace)) : Undisturbed e trace := by
  rcases h with ⟨halone, hsaves⟩
  simp only [savesTakeEffect, Bool.and_eq_true] at hsaves
  refine ⟨?_, hsaves.2⟩
  cases event with
  | listed hosts machines =>
    simp only [leftAlone, Bool.and_eq_true] at halone
    exact halone.2
  | _ => exact halone

theorem Undisturbed.untouched {hosts : List DiscoveryHost} {machines : List Machine}
    (h : Undisturbed e (.listed hosts machines :: trace))
    : untouched e hosts machines (profileOf e trace) = true := by
  have halone := h.1
  simp only [leftAlone, Bool.and_eq_true] at halone
  exact halone.1

theorem equivalentLabel_of_untouched {hosts : List DiscoveryHost} {machines : List Machine}
    {profile : Option String} (h : Reconciler.untouched e hosts machines profile = true)
    : ∀ host ∈ hosts, host.endpointId = e →
      equivalentLabel hosts (targetsOf machines) host = false := by
  rintro host hmem rfl
  simp only [Reconciler.untouched, Bool.and_eq_true, List.all_eq_true] at h
  simpa using h.2 host hmem

theorem not_contains_of_untouched {hosts : List DiscoveryHost} {machines : List Machine}
    (h : Reconciler.untouched e hosts machines none = true)
    : (targetsOf machines).contains (attachedTarget e) = false := by
  simp only [Reconciler.untouched, Bool.and_eq_true, Bool.not_eq_true'] at h
  exact h.1

theorem isProfile_of_untouched {hosts : List DiscoveryHost} {machines : List Machine} {profile : String}
    (h : Reconciler.untouched e hosts machines (some profile) = true)
    : machines.any (isProfile e profile) = true := by
  simp only [Reconciler.untouched, Bool.and_eq_true] at h
  exact h.1

theorem Undisturbed.settled (h : Undisturbed e (event :: trace)) (hquiet : event.isSaved = false)
    : pending e trace = false := by
  have hsaves := h.2
  simp only [savesTakeEffect, Bool.and_eq_true, Bool.or_eq_true, Bool.not_eq_true', hquiet,
    Bool.false_eq_true, or_false] at hsaves
  exact hsaves.1

theorem Hindered.cons (h : Hindered e retry new) : Hindered e retry (event :: new) := by
  cases h with
  | attempts split enough => exact .attempts (by rw [split, List.cons_append]) enough
  | cooldown split recorded early => exact .cooldown (by rw [split, List.cons_append]) recorded early
  | notReady answered not => exact .notReady (List.mem_cons_of_mem _ answered) not
  | addFailed failed => exact .addFailed (List.mem_cons_of_mem _ failed)

theorem Hindered.append (h : Hindered e retry new) (older : List ReconcileEvent)
    : Hindered e retry (new ++ older) := by
  cases h with
  | @attempts earlier later split enough =>
    have hsplit : new ++ older = later ++ .deferred e :: (earlier ++ older) := by
      rw [split, List.append_assoc, List.cons_append]
    refine .attempts hsplit ?_
    rw [attemptsOf_append, List.length_append]
    omega
  | @cooldown earlier later _ _ now split recorded early =>
    have hsplit : new ++ older = later ++ .deferred e :: .clock now :: (earlier ++ older) := by
      rw [split, List.append_assoc, List.cons_append, List.cons_append]
    exact .cooldown hsplit recorded early
  | notReady answered not => exact .notReady (List.mem_append_left _ answered) not
  | addFailed failed => exact .addFailed (List.mem_append_left _ failed)

theorem Tried.cons (h : Tried e retry before trace) : Tried e retry before (event :: trace) := by
  rcases h with ⟨new, rfl, ⟨profile, hadded⟩ | hhindered⟩
  . exact ⟨event :: new, rfl, .inl ⟨profile, List.mem_cons_of_mem _ hadded⟩⟩
  . exact ⟨event :: new, rfl, .inr hhindered.cons⟩

theorem Tried.earlier (h : Tried e retry (event :: before) trace) : Tried e retry before trace := by
  rcases h with ⟨new, rfl, htried⟩
  refine ⟨new ++ [event], by simp, ?_⟩
  rcases htried with ⟨profile, hadded⟩ | hhindered
  . exact .inl ⟨profile, List.mem_append_left _ hadded⟩
  . exact .inr (hhindered.append _)

theorem tried_of_enough (henough : 4 ≤ (attemptsOf new).length)
    : Tried e retry before (.deferred e :: new ++ before) := by
  have hsplit : .deferred e :: new = [] ++ .deferred e :: new := rfl
  exact ⟨_, rfl, .inr (.attempts hsplit henough)⟩

theorem Waits.deferred {deadline failures now : Nat}
    (h : Waits e before retry deadline failures now trace) (hearly : now < deadline)
    : Tried e retry before (.deferred e :: trace) := by
  rcases h with htried | ⟨hretry, earlier, rfl⟩
  . exact htried.cons
  . have hsplit : .deferred e :: .clock now :: earlier
        = [] ++ .deferred e :: .clock now :: earlier := rfl
    exact ⟨_, rfl, .inr (.cooldown hsplit hretry hearly)⟩

theorem Working.rest (h : Working e state file r trace) : Rest e file r trace := by
  intro hundisturbed
  rcases h hundisturbed with ⟨hstuck, _, hfile⟩
  exact ⟨hstuck, hfile⟩

theorem Rest.cons (h : Rest e file r trace) (hquiet : quiet e event = true)
    : Rest e file r (event :: trace) := by
  simp only [quiet, Bool.and_eq_true, Bool.not_eq_true'] at hquiet
  intro hundisturbed
  rcases h hundisturbed.of_cons with ⟨hstuck, hfile⟩
  refine ⟨hstuck.cons hquiet.2, fun _ => ?_⟩
  exact (hfile (hundisturbed.settled hquiet.2)).cons hquiet.1

theorem Working.cons (h : Working e state file r trace) (hquiet : quiet e event = true)
    : Working e state file r (event :: trace) := by
  intro hundisturbed
  rcases (h.rest.cons hquiet) hundisturbed with ⟨hstuck, hfile⟩
  simp only [quiet, Bool.and_eq_true, Bool.not_eq_true'] at hquiet
  exact ⟨hstuck, (h hundisturbed.of_cons).2.1.cons hquiet.1, hfile⟩

theorem Working.saved (h : Working e state file r trace)
    : Working e state (some state) r (.saved state :: trace) := by
  intro hundisturbed
  rcases h hundisturbed.of_cons with ⟨hstuck, hfaithful, _⟩
  refine ⟨?_, hfaithful.cons rfl, fun _ => hfaithful.cons rfl⟩
  intro state' hmem hseen
  rcases List.mem_cons.mp hmem with heq | hmem
  . injection heq with heq
    subst heq
    rw [hfaithful.managed]
    exact hfaithful.seen.mp hseen
  . exact hstuck state' hmem hseen

end

section

variable {e : String} {state : PluginState} {M : Reconciler → List ReconcileEvent → Prop}

def WorkingWith (e : String) (M : Reconciler → List ReconcileEvent → Prop) (state : PluginState)
    : ReconcileAssertion := fun file r trace =>
  Working e state file r trace ∧ M r trace

theorem runs_save (hM : ∀ r trace, M r trace → M r (.saved state :: trace))
    : Runs (WorkingWith e M state) (save state)
        (fun _ file r trace => WorkingWith e M state file r trace ∧ pending e trace = false)
        (Rest e) := by
  apply Runs.save
  . rintro file r trace ⟨hworking, _⟩
    exact hworking.rest
  . rintro file r trace ⟨hworking, _⟩
    exact hworking.rest.cons rfl
  . rintro file r trace ⟨hworking, hM'⟩
    exact ⟨⟨hworking.saved, hM _ _ hM'⟩, rfl⟩
  . rintro file r trace ⟨⟨hworking, _⟩, _⟩
    exact hworking.rest

end

/--
What else holds while the hosts are polled, after `n` attempts: where the endpoint has no profile no
machine looks like one, and if it is fresh then it was tried in the meantime, or is still not seen and
its deadline is the one from before.
-/
def Polling (e : String) (hosts : List DiscoveryHost) (machines : List Machine)
    (before : List ReconcileEvent) (retry : Option (Nat × Nat)) (fresh : Prop) (n : Nat)
    (state : PluginState) (r : Reconciler) (trace : List ReconcileEvent) : Prop :=
  (∃ new, trace = new ++ before ∧ (attemptsOf new).length = n)
    ∧ (Undisturbed e trace →
      (profileOf e trace = none → (targetsOf machines).contains (attachedTarget e) = false)
        ∧ (∀ host ∈ hosts, host.endpointId = e →
          equivalentLabel hosts (targetsOf machines) host = false)
        ∧ (fresh → Tried e retry before trace ∨ (e ∉ state.seen ∧ r.retry[e]? = retry)))

section

variable {e : String} {hosts : List DiscoveryHost} {machines : List Machine}
  {before trace : List ReconcileEvent} {retry : Option (Nat × Nat)} {fresh : Prop} {n m : Nat}
  {state : PluginState} {file : Option PluginState} {r : Reconciler} {event : ReconcileEvent}

theorem Polling.cons (h : Polling e hosts machines before retry fresh n state r trace)
    (hquiet : event.changes e = false) (hcount : n + (attemptsOf [event]).length = m)
    : Polling e hosts machines before retry fresh m state r (event :: trace) := by
  rcases h with ⟨⟨new, rfl, rfl⟩, h⟩
  refine ⟨⟨event :: new, rfl, ?_⟩, ?_⟩
  . rw [← hcount, ← List.singleton_append, attemptsOf_append, List.length_append]
  . intro hundisturbed
    rcases h hundisturbed.of_cons with ⟨hnone, hlabel, hfresh⟩
    rw [profileOf_cons_of_quiet hquiet]
    refine ⟨hnone, hlabel, fun hf => ?_⟩
    rcases hfresh hf with htried | hnot
    . exact .inl htried.cons
    . exact .inr hnot

theorem Working.added {endpoint profile label : String} (h : Working e state file r trace)
    : Working e (manage state endpoint profile label) file r (.added endpoint profile :: trace) := by
  intro hundisturbed
  have hsettled := hundisturbed.settled rfl
  rcases h hundisturbed.of_cons with ⟨hstuck, hfaithful, hfile⟩
  refine ⟨hstuck.cons rfl, ?_, ?_⟩
  . by_cases he : endpoint = e
    . subst he
      constructor
      . simp [manage, profileOf]
      . simp [manage, profileOf]
    . have hkeep : Faithful e state (.added endpoint profile :: trace) :=
        hfaithful.cons (by simp [ReconcileEvent.changes, he])
      constructor
      . rw [← hkeep.managed]
        simp [manage, TreeMap.getElem?_insert, he]
      . rw [← hkeep.seen]
        simp [manage, he]
  . intro hnot
    exact (hfile hsettled).cons hnot

theorem Polling.added {endpoint profile label : String}
    (h : Polling e hosts machines before retry fresh n state r trace)
    : Polling e hosts machines before retry fresh n (manage state endpoint profile label) r
        (.added endpoint profile :: trace) := by
  rcases h with ⟨⟨new, rfl, rfl⟩, h⟩
  refine ⟨⟨.added endpoint profile :: new, rfl, ?_⟩, ?_⟩
  . rw [← List.singleton_append, attemptsOf_append, List.length_append]
    rfl
  . intro hundisturbed
    rcases h hundisturbed.of_cons with ⟨hnone, hlabel, hfresh⟩
    refine ⟨?_, hlabel, fun hf => ?_⟩
    . intro hprofile
      apply hnone
      simp only [profileOf] at hprofile
      split at hprofile
      . simp at hprofile
      . exact hprofile
    . by_cases he : endpoint = e
      . subst he
        exact .inl ⟨_, rfl, .inl ⟨profile, List.mem_cons_self⟩⟩
      . rcases hfresh hf with htried | ⟨hnot, hretry⟩
        . exact .inl htried.cons
        . refine .inr ⟨?_, hretry⟩
          simp [manage, he, hnot]

end

def Polled (e : String) (hosts : List DiscoveryHost) (machines : List Machine)
    (before : List ReconcileEvent) (retry : Option (Nat × Nat)) (fresh : Prop) (n : Nat)
    (state : PluginState) : ReconcileAssertion :=
  fun file r trace =>
    WorkingWith e (Polling e hosts machines before retry fresh n state) state file r trace
      ∧ pending e trace = false

section

variable {e : String} {hosts : List DiscoveryHost} {machines : List Machine}
  {before trace : List ReconcileEvent} {retry : Option (Nat × Nat)} {fresh : Prop} {n m : Nat}
  {state : PluginState} {file : Option PluginState} {r : Reconciler} {event : ReconcileEvent}
  {host : DiscoveryHost}

theorem Polled.rest (h : Polled e hosts machines before retry fresh n state file r trace)
    : Rest e file r trace :=
  h.1.1.rest

theorem Polled.cons (h : Polled e hosts machines before retry fresh n state file r trace)
    (hquiet : quiet e event = true) (hcount : n + (attemptsOf [event]).length = m)
    : Polled e hosts machines before retry fresh m state file r (event :: trace) := by
  have hchanges : event.changes e = false := by
    simp only [quiet, Bool.and_eq_true, Bool.not_eq_true'] at hquiet
    exact hquiet.1
  exact ⟨⟨h.1.1.cons hquiet, h.1.2.cons hchanges hcount⟩, hchanges⟩

theorem Polled.new (h : Polled e hosts machines before retry fresh n state file r trace)
    : ∃ new, trace = new ++ before ∧ (attemptsOf new).length = n :=
  h.1.2.1

theorem Polled.weaken {fresh' : Prop} (hfresh : fresh' → fresh)
    (h : Polled e hosts machines before retry fresh n state file r trace)
    : Polled e hosts machines before retry fresh' n state file r trace := by
  rcases h with ⟨⟨hworking, hnew, hpolling⟩, hpending⟩
  refine ⟨⟨hworking, hnew, ?_⟩, hpending⟩
  intro hundisturbed
  rcases hpolling hundisturbed with ⟨hnone, hlabel, hseen⟩
  exact ⟨hnone, hlabel, fun hf => hseen (hfresh hf)⟩

theorem Polled.of_tried {endpoint : String}
    (h : Polled e hosts machines before retry (fresh ∧ endpoint ≠ e) n state file r trace)
    (htried : endpoint = e → Tried e retry before trace)
    : Polled e hosts machines before retry fresh n state file r trace := by
  rcases h with ⟨⟨hworking, hnew, hpolling⟩, hpending⟩
  refine ⟨⟨hworking, hnew, ?_⟩, hpending⟩
  intro hundisturbed
  rcases hpolling hundisturbed with ⟨hnone, hlabel, hseen⟩
  refine ⟨hnone, hlabel, fun hf => ?_⟩
  by_cases he : endpoint = e
  . exact .inl (htried he)
  . exact hseen ⟨hf, he⟩

theorem runs_tryAdd
    : Runs (Polled e hosts machines before retry fresh n state) (tryAdd host)
        (fun added file r trace =>
          (host.endpointId = e → Tried e retry before trace)
            ∧ match added with
              | some (some profile) => ∀ label,
                WorkingWith e
                  (Polling e hosts machines before retry fresh n
                    (manage state host.endpointId profile label))
                  (manage state host.endpointId profile label) file r trace
              | _ => Polled e hosts machines before retry fresh n state file r trace)
        (Rest e) := by
  apply Runs.bind (J := fun ready file r trace =>
    Polled e hosts machines before retry fresh n state file r trace
      ∧ (host.endpointId = e → ready ≠ some true → Tried e retry before trace))
  . apply Runs.ready
    . exact fun _ _ _ h => h.rest
    . intro ready file r trace h
      refine ⟨h.cons rfl rfl, ?_⟩
      rintro rfl hnot
      rcases h.new with ⟨new, rfl, _⟩
      exact ⟨_ :: new, rfl, .inr (.notReady List.mem_cons_self hnot)⟩
  . rintro (_ | _ | _)
    . exact Runs.pure fun _ _ _ h => ⟨fun he => h.2 he nofun, h.1⟩
    . exact Runs.pure fun _ _ _ h => ⟨fun he => h.2 he nofun, h.1⟩
    . apply Runs.bind (J := fun added file r trace =>
        (host.endpointId = e → Tried e retry before trace)
          ∧ match added with
            | some profile => ∀ label,
              WorkingWith e
                (Polling e hosts machines before retry fresh n
                  (manage state host.endpointId profile label))
                (manage state host.endpointId profile label) file r trace
            | none => Polled e hosts machines before retry fresh n state file r trace)
      . apply Runs.add
        . intro file r trace h
          exact (h.1.cons rfl rfl : Polled e hosts machines before retry fresh n state file r _).rest
        . intro file r trace h
          have hadding : Polled e hosts machines before retry fresh n state file r
              (.adding host.endpointId :: trace) := h.1.cons rfl rfl
          refine ⟨?_, hadding.cons rfl rfl⟩
          rintro rfl
          rcases hadding.new with ⟨new, hnew, _⟩
          rw [hnew]
          exact ⟨_ :: new, rfl, .inr (.addFailed List.mem_cons_self)⟩
        . intro profile file r trace h
          have hadding : Polled e hosts machines before retry fresh n state file r
              (.adding host.endpointId :: trace) := h.1.cons rfl rfl
          refine ⟨?_, fun label => ⟨hadding.1.1.added, hadding.1.2.added⟩⟩
          rintro rfl
          rcases hadding.new with ⟨new, hnew, _⟩
          rw [hnew]
          exact ⟨_ :: new, rfl, .inl ⟨profile, List.mem_cons_self⟩⟩
      . intro added
        apply Runs.pure
        cases added with
        | none => exact fun _ _ _ h => h
        | some profile => exact fun _ _ _ h => h

theorem runs_setRetry (endpoint : String) (deadline failures : Nat)
    : Runs (Polled e hosts machines before retry (fresh ∧ endpoint ≠ e) n state)
        (setRetry endpoint deadline failures)
        (fun _ => Polled e hosts machines before retry (fresh ∧ endpoint ≠ e) n state) (Rest e) := by
  apply Runs.update
  rintro file r trace ⟨⟨hworking, hnew, hpolling⟩, hpending⟩
  refine ⟨⟨hworking, hnew, ?_⟩, hpending⟩
  intro hundisturbed
  rcases hpolling hundisturbed with ⟨hnone, hlabel, hseen⟩
  refine ⟨hnone, hlabel, fun hfresh => ?_⟩
  rcases hseen hfresh with htried | ⟨hnot, hretry⟩
  . exact .inl htried
  . refine .inr ⟨hnot, ?_⟩
    simp [TreeMap.getElem?_insert, hfresh.2, hretry]

theorem runs_attemptHost (previous : Option (Nat × Nat))
    : Runs (Polled e hosts machines before retry fresh n state) (attemptHost hosts host previous state)
        (fun state' file r trace =>
          Polled e hosts machines before retry fresh (n + 1) state' file r trace
            ∧ (host.endpointId = e → Tried e retry before trace))
        (Rest e) := by
  -- The deadline of the host changes, which is no longer the one from before if it is the endpoint.
  apply Runs.mono (I := Polled e hosts machines before retry (fresh ∧ host.endpointId ≠ e) n state)
    (J := fun state' file r trace =>
      Polled e hosts machines before retry (fresh ∧ host.endpointId ≠ e) (n + 1) state' file r trace
        ∧ (host.endpointId = e → Tried e retry before trace)) _
    (fun _ _ _ h => h.weaken And.left) (fun _ _ _ _ h => ⟨h.1.of_tried h.2, h.2⟩) (fun _ _ _ h => h)
  apply Runs.bind (J := fun _ =>
    Polled e hosts machines before retry (fresh ∧ host.endpointId ≠ e) n state)
  . exact Runs.instant (fun _ _ _ h => h.rest) fun _ _ _ _ h => h.cons rfl rfl
  intro now
  apply Runs.bind (J := fun _ =>
    Polled e hosts machines before retry (fresh ∧ host.endpointId ≠ e) (n + 1) state)
  . exact Runs.record fun _ _ _ h => h.cons rfl rfl
  intro _
  apply Runs.bind (runs_setRetry _ _ _)
  intro _
  apply Runs.bind runs_tryAdd
  rintro (_ | _ | profile)
  . -- The alias is not ready.
    exact Runs.pure fun _ _ _ h => ⟨h.2, h.1⟩
  . -- The attempt failed.
    apply Runs.bind (J := fun _ file r trace =>
      Polled e hosts machines before retry (fresh ∧ host.endpointId ≠ e) (n + 1) state file r trace
        ∧ (host.endpointId = e → Tried e retry before trace))
    . exact Runs.instant (fun _ _ _ h => h.2.rest) fun _ _ _ _ h =>
        ⟨h.2.cons rfl rfl, fun he => (h.1 he).cons⟩
    intro now
    apply Runs.bind (J := fun _ file r trace =>
      Polled e hosts machines before retry (fresh ∧ host.endpointId ≠ e) (n + 1) state file r trace
        ∧ (host.endpointId = e → Tried e retry before trace))
    . exact (runs_setRetry _ _ _).frame Proceeds.update fun _ _ h he => (h he).cons
    intro _
    exact Runs.pure fun _ _ _ h => h
  . -- The profile was added, and is persisted before anything else happens.
    apply Runs.bind (J := fun _ file r trace =>
      Polled e hosts machines before retry (fresh ∧ host.endpointId ≠ e) (n + 1)
          (manage state host.endpointId profile (displayLabel hosts host)) file r trace
        ∧ (host.endpointId = e → Tried e retry before trace))
    . apply Runs.mono (runs_save (M := fun r trace =>
        Polling e hosts machines before retry (fresh ∧ host.endpointId ≠ e) (n + 1)
            (manage state host.endpointId profile (displayLabel hosts host)) r trace
          ∧ (host.endpointId = e → Tried e retry before trace)) ?_)
      . intro file r trace h
        rcases h.2 (displayLabel hosts host) with ⟨hworking, hpolling⟩
        exact ⟨hworking, hpolling, h.1⟩
      . rintro _ file r trace ⟨⟨hworking, hpolling, htried⟩, hpending⟩
        exact ⟨⟨⟨hworking, hpolling⟩, hpending⟩, htried⟩
      . exact fun _ _ _ h => h
      . rintro r trace ⟨hpolling, htried⟩
        exact ⟨hpolling.cons rfl rfl, fun he => (htried he).cons⟩
    . intro _
      exact Runs.pure fun _ _ _ h => h

theorem runs_savePresent
    (hother : ∀ file r trace, Polled e hosts machines before retry fresh n state file r trace →
      Undisturbed e trace → host.endpointId ≠ e)
    : Runs (Polled e hosts machines before retry fresh n state)
        (save { state with seen := state.seen.insert host.endpointId })
        (fun _ file r trace =>
          Polled e hosts machines before retry fresh n
              { state with seen := state.seen.insert host.endpointId } file r trace
            ∧ (Undisturbed e trace → host.endpointId ≠ e))
        (Rest e) := by
  apply Runs.mono (runs_save (M := fun r trace =>
    Polling e hosts machines before retry fresh n
        { state with seen := state.seen.insert host.endpointId } r trace
      ∧ (Undisturbed e trace → host.endpointId ≠ e)) ?_)
  . intro file r trace h
    have hne := hother file r trace h
    refine ⟨?_, ⟨h.new, ?_⟩, hne⟩
    . intro hundisturbed
      rcases h.1.1 hundisturbed with ⟨hstuck, hfaithful, hfile⟩
      refine ⟨hstuck, ⟨hfaithful.managed, ?_⟩, hfile⟩
      rw [← hfaithful.seen]
      simp [hne hundisturbed]
    . intro hundisturbed
      rcases h.1.2.2 hundisturbed with ⟨hnone, hlabel, hfresh⟩
      refine ⟨hnone, hlabel, fun hf => ?_⟩
      rcases hfresh hf with htried | ⟨hnot, hretry⟩
      . exact .inl htried
      . refine .inr ⟨?_, hretry⟩
        simp [hne hundisturbed, hnot]
  . rintro _ file r trace ⟨⟨hworking, hpolling, hne⟩, hpending⟩
    exact ⟨⟨⟨hworking, hpolling⟩, hpending⟩, hne⟩
  . exact fun _ _ _ h => h
  . rintro r trace ⟨hpolling, hne⟩
    exact ⟨hpolling.cons rfl rfl, fun hundisturbed => hne hundisturbed.of_cons⟩

theorem runs_deferEnough (henough : 4 ≤ n)
    : Runs (Polled e hosts machines before retry fresh n state)
        (do record (.deferred host.endpointId); return (state, n))
        (fun state' file r trace =>
          Polled e hosts machines before retry fresh state'.2 state'.1 file r trace
            ∧ (Undisturbed e trace → fresh → host.endpointId = e → Tried e retry before trace))
        (Rest e) := by
  apply Runs.bind (J := fun _ file r trace =>
    Polled e hosts machines before retry fresh n state file r trace
      ∧ (host.endpointId = e → Tried e retry before trace))
  . apply Runs.record
    intro file r trace h
    refine ⟨h.cons rfl rfl, ?_⟩
    rintro rfl
    rcases h.new with ⟨new, rfl, hcount⟩
    exact tried_of_enough (hcount ▸ henough)
  . intro _
    exact Runs.pure fun _ _ _ h => ⟨h.1, fun _ _ => h.2⟩

theorem runs_readClock {world : ReconcileWorld} {deadline failures : Nat}
    (hrecorded : world.reconciler.retry[host.endpointId]? = some (deadline, failures))
    : Runs (fun file r trace => Polled e hosts machines before retry fresh n state file r trace
          ∧ file = world.file ∧ r = world.reconciler ∧ trace = world.trace)
        instant
        (fun now file r trace => Polled e hosts machines before retry fresh n state file r trace
          ∧ (Undisturbed e trace → fresh → host.endpointId = e →
            Waits e before retry deadline failures now trace))
        (Rest e) := by
  apply Runs.instant
  . exact fun _ _ _ h => h.1.rest
  . rintro now file r trace ⟨h, _, rfl, _⟩
    refine ⟨h.cons rfl rfl, ?_⟩
    rintro hundisturbed hfresh rfl
    rcases (h.1.2.2 hundisturbed.of_cons).2.2 hfresh with htried | ⟨_, hretry⟩
    . exact .inl htried.cons
    . rcases h.new with ⟨new, rfl, _⟩
      exact .inr ⟨hretry.symm.trans hrecorded, new, rfl⟩

theorem runs_deferEarly {deadline failures now : Nat} (hearly : now < deadline)
    : Runs (fun file r trace => Polled e hosts machines before retry fresh n state file r trace
          ∧ (Undisturbed e trace → fresh → host.endpointId = e →
            Waits e before retry deadline failures now trace))
        (do record (.deferred host.endpointId); return (state, n))
        (fun state' file r trace =>
          Polled e hosts machines before retry fresh state'.2 state'.1 file r trace
            ∧ (Undisturbed e trace → fresh → host.endpointId = e → Tried e retry before trace))
        (Rest e) := by
  apply Runs.bind (J := fun _ file r trace =>
    Polled e hosts machines before retry fresh n state file r trace
      ∧ (Undisturbed e trace → fresh → host.endpointId = e → Tried e retry before trace))
  . apply Runs.record
    rintro file r trace ⟨h, hwaits⟩
    refine ⟨h.cons rfl rfl, ?_⟩
    rintro hundisturbed hfresh rfl
    exact (hwaits hundisturbed.of_cons hfresh rfl).deferred hearly
  . intro _
    exact Runs.pure fun _ _ _ h => h

theorem runs_pollHost (hvalid : host.Valid) (hmem : host ∈ hosts)
    : Runs (Polled e hosts machines before retry fresh n state)
        (pollHost hosts (targetsOf machines) host (state, n))
        (fun state' file r trace =>
          Polled e hosts machines before retry fresh state'.2 state'.1 file r trace
            ∧ (Undisturbed e trace → fresh → host.endpointId = e → Tried e retry before trace))
        (Rest e) := by
  unfold pollHost
  dsimp only
  split
  . next hseen =>
    apply Runs.pure
    intro file r trace h
    refine ⟨h, ?_⟩
    rintro hundisturbed hfresh rfl
    rcases (h.1.2.2 hundisturbed).2.2 hfresh with htried | ⟨hnot, _⟩
    . exact htried
    . exact absurd (TreeSet.mem_iff_contains.mpr hseen) hnot
  . next hunseen =>
    have hnot : host.endpointId ∉ state.seen := by
      rw [TreeSet.mem_iff_contains]
      exact hunseen
    split
    . next hequivalent =>
      have hother : ∀ file r trace, Polled e hosts machines before retry fresh n state file r trace →
          Undisturbed e trace → host.endpointId ≠ e := by
        rintro file r trace h hundisturbed rfl
        rcases h.1.1 hundisturbed with ⟨_, hfaithful, _⟩
        rcases h.1.2.2 hundisturbed with ⟨hnone, hlabel, _⟩
        have hprofile : profileOf host.endpointId trace = none := by
          rw [← Option.not_isSome_iff_eq_none, ← hfaithful.seen]
          exact hnot
        rw [hvalid.2, hnone hprofile, hlabel host hmem rfl] at hequivalent
        simp at hequivalent
      apply Runs.bind (runs_savePresent hother)
      intro _
      apply Runs.pure
      rintro file r trace ⟨h, hne⟩
      exact ⟨h, fun hundisturbed _ he => absurd he (hne hundisturbed)⟩
    . have hattempt : ∀ previous, Runs (Polled e hosts machines before retry fresh n state)
          (attemptHost hosts host previous state >>= fun state => Pure.pure (state, n + 1))
          (fun state' file r trace =>
            Polled e hosts machines before retry fresh state'.2 state'.1 file r trace
              ∧ (Undisturbed e trace → fresh → host.endpointId = e → Tried e retry before trace))
          (Rest e) := by
        intro previous
        apply Runs.bind (runs_attemptHost previous)
        intro state'
        exact Runs.pure fun _ _ _ h => ⟨h.1, fun _ _ => h.2⟩
      split
      . next henough => exact runs_deferEnough henough
      . apply Runs.get_bind
        intro world
        split
        . next deadline failures hrecorded =>
          apply Runs.bind (runs_readClock hrecorded)
          intro now
          split
          . next hearly => exact runs_deferEarly hearly
          . exact (hattempt (some (deadline, failures))).mono (fun _ _ _ h => h.1)
              (fun _ _ _ _ h => h) (fun _ _ _ h => h)
        . exact (hattempt none).mono (fun _ _ _ h => h.1) (fun _ _ _ _ h => h) (fun _ _ _ h => h)

theorem runs_pollHosts {candidates : List DiscoveryHost} (hvalid : ∀ host ∈ hosts, host.Valid)
    (hmem : ∀ host ∈ candidates, host ∈ hosts) (state : PluginState) (n : Nat)
    : Runs (Polled e hosts machines before retry fresh n state)
        (pollHosts hosts (targetsOf machines) candidates (state, n))
        (fun state' file r trace =>
          Polled e hosts machines before retry fresh state'.2 state'.1 file r trace
            ∧ (Undisturbed e trace → fresh → (∃ host ∈ candidates, host.endpointId = e) →
              Tried e retry before trace))
        (Rest e) := by
  induction candidates generalizing state n with
  | nil =>
    apply Runs.pure
    intro file r trace h
    exact ⟨h, by simp⟩
  | cons host candidates ih =>
    have hhost := hmem host List.mem_cons_self
    apply Runs.bind (runs_pollHost (hvalid host hhost) hhost)
    rintro ⟨state', n'⟩
    have htail := ih (fun host h => hmem host (List.mem_cons_of_mem _ h)) state' n'
    apply Runs.mono (htail.frame Proceeds.pollHosts (F := fun trace =>
      Undisturbed e trace → fresh → host.endpointId = e → Tried e retry before trace) ?_)
    . exact fun _ _ _ h => h
    . rintro state'' file r trace ⟨⟨hpolled, htail⟩, hhead⟩
      refine ⟨hpolled, ?_⟩
      rintro hundisturbed hfresh ⟨host', hmem', he⟩
      rcases List.mem_cons.mp hmem' with rfl | hmem'
      . exact hhead hundisturbed hfresh he
      . exact htail hundisturbed hfresh ⟨host', hmem', he⟩
    . exact fun _ _ _ h => h
    . intro event trace h hundisturbed hfresh he
      exact (h hundisturbed.of_cons hfresh he).cons

theorem runs_notifyPending (state : PluginState) (labels : List (String × String))
    : Runs (fun file r trace => Working e state file r trace ∧ pending e trace = false)
        (notifyPending labels state)
        (fun _ file r trace => Rest e file r trace ∧ pending e trace = false)
        (Rest e) := by
  induction labels generalizing state with
  | nil => exact Runs.pure fun _ _ _ h => ⟨h.1.rest, h.2⟩
  | cons label labels ih =>
    rcases label with ⟨id, label⟩
    apply Runs.bind (Runs.answer fun _ _ _ h => h.1.rest)
    intro answer
    split
    . apply Runs.bind (J := fun _ => Working e { state with pending := state.pending.erase id })
      . apply Runs.record
        intro file r trace h
        have hnotified : Working e state file r (.notified label :: trace) := h.1.cons rfl
        intro hundisturbed
        rcases hnotified hundisturbed with ⟨hstuck, hfaithful, hfile⟩
        exact ⟨hstuck, ⟨hfaithful.managed, hfaithful.seen⟩, hfile⟩
      . intro _
        apply Runs.bind (J := fun _ file r trace =>
          Working e { state with pending := state.pending.erase id } file r trace
            ∧ pending e trace = false)
        . apply Runs.save
          . exact fun _ _ _ h => h.rest
          . exact fun _ _ _ h => h.rest.cons rfl
          . exact fun _ _ _ h => ⟨h.saved, rfl⟩
          . exact fun _ _ _ h => h.1.rest
        . intro _
          exact ih _
    . exact ih _

theorem runs_poll (hvalid : ∀ host ∈ hosts, host.Valid)
    : Runs
        (fun file r trace => Rest e file r trace ∧ pending e trace = false ∧ r.retry[e]? = retry
          ∧ trace = before)
        (poll hosts)
        (fun _ file r trace =>
          (Rest e file r trace ∧ pending e trace = false)
            ∧ (Undisturbed e trace → profileOf e before = none →
              (∃ host ∈ hosts, host.endpointId = e) → Tried e retry before trace))
        (Rest e) := by
  apply Runs.bind (Runs.load fun _ _ _ h => h.1)
  intro state
  apply Runs.bind (J := fun machines => Polled e hosts machines before retry
    (profileOf e before = none ∧ ∃ host ∈ hosts, host.endpointId = e) 0 state)
  . apply Runs.machines
    . exact fun _ _ _ h => h.1.1
    . rintro machines file r trace ⟨⟨hrest, hpending, hretry, rfl⟩, rfl⟩
      refine ⟨⟨?_, ⟨[_], rfl, rfl⟩, ?_⟩, rfl⟩
      . intro hundisturbed
        rcases hrest hundisturbed.of_cons with ⟨hstuck, hfile⟩
        exact ⟨hstuck.cons rfl, (hfile hpending).cons rfl, fun _ => (hfile hpending).cons rfl⟩
      . intro hundisturbed
        have huntouched := hundisturbed.untouched
        rcases hrest hundisturbed.of_cons with ⟨_, hfile⟩
        refine ⟨?_, equivalentLabel_of_untouched huntouched, fun hfresh => .inr ⟨?_, hretry⟩⟩
        . intro hnone
          rw [profileOf_cons_of_quiet rfl] at hnone
          rw [hnone] at huntouched
          exact not_contains_of_untouched huntouched
        . rw [(hfile hpending).seen, hfresh.1]
          simp
  . intro machines
    apply Runs.bind (J := fun _ => Polled e hosts machines before retry
      (profileOf e before = none ∧ ∃ host ∈ hosts, host.endpointId = e) 0 state)
    . apply Runs.update
      rintro file r trace ⟨⟨hworking, hnew, hpolling⟩, hpending⟩
      refine ⟨⟨hworking, hnew, ?_⟩, hpending⟩
      intro hundisturbed
      rcases hpolling hundisturbed with ⟨hnone, hlabel, hseen⟩
      refine ⟨hnone, hlabel, fun hfresh => ?_⟩
      rcases hseen hfresh with htried | ⟨hnot, hretry⟩
      . exact .inl htried
      . rcases hfresh.2 with ⟨host, hhost, rfl⟩
        exact .inr ⟨hnot, (getElem?_retain hhost).trans hretry⟩
    . intro _
      apply Runs.get_bind
      intro world
      apply Runs.mono (I := Polled e hosts machines before retry
        (profileOf e before = none ∧ ∃ host ∈ hosts, host.endpointId = e) 0 state) _
        (fun _ _ _ h => h.1) (fun _ _ _ _ h => h) (fun _ _ _ h => h)
      have hperm := List.perm_insertionSort
        (fun a b : DiscoveryHost => retryLe world.reconciler.retry[a.endpointId]?
          world.reconciler.retry[b.endpointId]? = true) hosts
      apply Runs.bind (runs_pollHosts hvalid (fun host h => hperm.mem_iff.mp h) _ 0)
      rintro ⟨state', n⟩
      apply Runs.mono ((runs_notifyPending state' state'.pending.toList).frame
        Proceeds.notifyPending (F := fun trace => Undisturbed e trace → profileOf e before = none →
          (∃ host ∈ hosts, host.endpointId = e) → Tried e retry before trace) ?_)
      . rintro file r trace ⟨hpolled, htried⟩
        refine ⟨⟨hpolled.1.1, hpolled.2⟩, ?_⟩
        rintro hundisturbed hnone ⟨host, hmem, he⟩
        exact htried hundisturbed ⟨hnone, host, hmem, he⟩ ⟨host, hperm.mem_iff.mpr hmem, he⟩
      . exact fun _ _ _ _ h => h
      . exact fun _ _ _ h => h
      . intro event trace h hundisturbed hnone hmem
        exact (h hundisturbed.of_cons hnone hmem).cons

end

section

variable {e : String} {hosts : List DiscoveryHost} {machines : List Machine} {endpoint profile : String}
  {trace : List ReconcileEvent} {state : PluginState} {file : Option PluginState} {r : Reconciler}
  {event : ReconcileEvent}

theorem Working.removed (h : Working e state file r trace)
    : Working e { forget state endpoint with seen := state.seen.erase endpoint } file r
        (.removed endpoint profile :: trace) := by
  intro hundisturbed
  have hsettled := hundisturbed.settled rfl
  rcases h hundisturbed.of_cons with ⟨hstuck, hfaithful, hfile⟩
  refine ⟨hstuck.cons rfl, ?_, fun hnot => (hfile hsettled).cons hnot⟩
  by_cases he : endpoint = e
  . subst he
    constructor
    . simp [forget, profileOf]
    . simp [profileOf]
  . have hkeep : Faithful e state (.removed endpoint profile :: trace) :=
      hfaithful.cons (by simp [ReconcileEvent.changes, he])
    constructor
    . rw [← hkeep.managed]
      simp [forget, TreeMap.getElem?_erase, he]
    . rw [← hkeep.seen]
      simp [he]

def Pruned (e : String) (state : PluginState) : ReconcileAssertion := fun file r trace =>
  Working e state file r trace ∧ pending e trace = false

theorem Pruned.cons (h : Pruned e state file r trace) (hquiet : quiet e event = true)
    : Pruned e state file r (event :: trace) := by
  refine ⟨h.1.cons hquiet, ?_⟩
  simp only [quiet, Bool.and_eq_true, Bool.not_eq_true'] at hquiet
  exact hquiet.1

theorem runs_savePruned
    : Runs (Working e state) (save state) (fun _ => Pruned e state) (Rest e) := by
  apply Runs.save
  . exact fun _ _ _ h => h.rest
  . exact fun _ _ _ h => h.rest.cons rfl
  . exact fun _ _ _ h => ⟨h.saved, rfl⟩
  . exact fun _ _ _ h => h.1.rest

theorem runs_pruneEndpoint
    : Runs
        (fun file r trace => Pruned e state file r trace
          ∧ (Undisturbed e trace → endpoint = e → machines.any (isProfile e profile) = true))
        (pruneEndpoint hosts machines endpoint profile state)
        (fun state' => Pruned e state') (Rest e) := by
  unfold pruneEndpoint
  split
  . next hgone =>
    -- The profile of the endpoint is still there, so this is another one.
    apply Runs.bind (J := fun _ => Working e (forget state endpoint))
    . apply Runs.update
      rintro file r trace ⟨h, hpresent⟩ hundisturbed
      have hother : endpoint ≠ e := by
        rintro rfl
        simp [hpresent hundisturbed rfl] at hgone
      rcases h.1 hundisturbed with ⟨hstuck, hfaithful, hfile⟩
      refine ⟨hstuck, ⟨?_, hfaithful.seen⟩, hfile⟩
      rw [← hfaithful.managed]
      simp [forget, TreeMap.getElem?_erase, hother]
    . intro _
      apply Runs.bind runs_savePruned
      intro _
      exact Runs.pure fun _ _ _ h => h
  . split
    . apply Runs.bind (J := fun _ => Pruned e state)
      . exact Runs.update fun _ _ _ h => h.1
      . intro _
        exact Runs.pure fun _ _ _ h => h
    . apply Runs.get_bind
      intro world
      apply Runs.bind (J := fun _ => Pruned e state)
      . exact Runs.update fun _ _ _ h => h.1.1
      . intro _
        split
        . exact Runs.pure fun _ _ _ h => h
        . apply Runs.bind (J := fun removed =>
            if removed then
              Working e { forget state endpoint with seen := state.seen.erase endpoint }
            else
              Pruned e state)
          . apply Runs.remove
            . exact fun _ _ _ h => (h.cons rfl).1.rest
            . exact fun _ _ _ h => (h.cons rfl).cons rfl
            . exact fun _ _ _ h => (h.cons rfl).1.removed
          . intro removed
            cases removed with
            | true =>
              apply Runs.bind (J := fun _ =>
                Working e { forget state endpoint with seen := state.seen.erase endpoint })
              . exact Runs.update fun _ _ _ h => h
              . intro _
                apply Runs.bind runs_savePruned
                intro _
                exact Runs.pure fun _ _ _ h => h
            | false => exact Runs.pure fun _ _ _ h => h

theorem runs_pruneEndpoints (managed : List (String × String))
    : Runs
        (fun file r trace => Pruned e state file r trace
          ∧ (Undisturbed e trace → ∀ p, (e, p) ∈ managed → machines.any (isProfile e p) = true))
        (pruneEndpoints hosts machines managed state)
        (fun _ file r trace => Rest e file r trace ∧ pending e trace = false) (Rest e) := by
  induction managed generalizing state with
  | nil => exact Runs.pure fun _ _ _ h => ⟨h.1.1.rest, h.1.2⟩
  | cons entry managed ih =>
    rcases entry with ⟨endpoint, profile⟩
    apply Runs.bind (J := fun state' file r trace => Pruned e state' file r trace
      ∧ (Undisturbed e trace → ∀ p, (e, p) ∈ managed → machines.any (isProfile e p) = true))
    . apply Runs.mono (runs_pruneEndpoint.frame Proceeds.pruneEndpoint (F := fun trace =>
        Undisturbed e trace → ∀ p, (e, p) ∈ managed → machines.any (isProfile e p) = true) ?_)
      . rintro file r trace ⟨h, hpresent⟩
        refine ⟨⟨h, ?_⟩, ?_⟩
        . rintro hundisturbed rfl
          exact hpresent hundisturbed profile List.mem_cons_self
        . intro hundisturbed p hp
          exact hpresent hundisturbed p (List.mem_cons_of_mem _ hp)
      . exact fun _ _ _ _ h => h
      . exact fun _ _ _ h => h
      . exact fun _ _ h hundisturbed => h hundisturbed.of_cons
    . intro state'
      exact ih

theorem runs_prune
    : Runs (fun file r trace => Rest e file r trace ∧ pending e trace = false) (prune hosts)
        (fun _ file r trace => Rest e file r trace ∧ pending e trace = false) (Rest e) := by
  apply Runs.bind (Runs.load fun _ _ _ h => h.1)
  intro state
  apply Runs.bind (J := fun machines file r trace => Pruned e state file r trace
    ∧ (Undisturbed e trace → ∀ p, (e, p) ∈ state.managed.toList →
      machines.any (isProfile e p) = true))
  . apply Runs.machines
    . exact fun _ _ _ h => h.1.1
    . rintro machines file r trace ⟨⟨hrest, hpending⟩, rfl⟩
      refine ⟨⟨?_, rfl⟩, ?_⟩
      . intro hundisturbed
        rcases hrest hundisturbed.of_cons with ⟨hstuck, hfile⟩
        exact ⟨hstuck.cons rfl, (hfile hpending).cons rfl, fun _ => (hfile hpending).cons rfl⟩
      . intro hundisturbed p hp
        rcases hrest hundisturbed.of_cons with ⟨_, hfile⟩
        have huntouched := hundisturbed.untouched
        rw [← (hfile hpending).managed, TreeMap.mem_toList_iff_getElem?_eq_some.mp hp] at huntouched
        exact isProfile_of_untouched huntouched
  . intro machines
    apply Runs.update_bind
    . exact fun _ _ _ h => h
    . exact runs_pruneEndpoints state.managed.toList

theorem runs_check (discovery : Discovery) (hvalid : ∀ host ∈ discovery.hosts, host.Valid)
    (before : List ReconcileEvent) (retry : Option (Nat × Nat))
    : Runs (fun file r trace => Rest e file r trace ∧ r.retry[e]? = retry ∧ trace = before)
        (check discovery)
        (fun _ file r trace =>
          Rest e file r trace
            ∧ (Undisturbed e trace → profileOf e before = none →
              (∃ host ∈ discovery.hosts, host.endpointId = e) → Tried e retry before trace))
        (Rest e) := by
  have hfinish : Runs
      (fun file r trace => (Rest e file r trace ∧ pending e trace = false)
        ∧ (Undisturbed e trace → profileOf e before = none →
          (∃ host ∈ discovery.hosts, host.endpointId = e) → Tried e retry before trace))
      (update fun reconciler => { reconciler with lastGeneration := some discovery.generation })
      (fun _ file r trace => Rest e file r trace
        ∧ (Undisturbed e trace → profileOf e before = none →
          (∃ host ∈ discovery.hosts, host.endpointId = e) → Tried e retry before trace))
      (Rest e) :=
    Runs.update fun _ _ _ h => ⟨h.1.1, h.2⟩
  apply Runs.bind (J := fun _ file r trace => Rest e file r trace ∧ pending e trace = false
    ∧ r.retry[e]? = retry ∧ trace = .checking discovery :: before)
  . apply Runs.record
    rintro file r trace ⟨hrest, hretry, rfl⟩
    exact ⟨hrest.cons rfl, rfl, hretry, rfl⟩
  . intro _
    apply Runs.bind (J := fun _ file r trace => (Rest e file r trace ∧ pending e trace = false)
      ∧ (Undisturbed e trace → profileOf e before = none →
        (∃ host ∈ discovery.hosts, host.endpointId = e) → Tried e retry before trace))
    . apply (runs_poll hvalid).mono (fun _ _ _ h => h) _ (fun _ _ _ h => h)
      rintro _ file r trace ⟨hrest, htried⟩
      refine ⟨hrest, ?_⟩
      intro hundisturbed hnone hmem
      exact (htried hundisturbed hnone hmem).earlier
    . intro _
      split
      . exact Runs.update_bind (fun _ _ _ h => h) hfinish
      . apply Runs.get_bind
        intro world
        apply Runs.mono (I := fun file r trace => (Rest e file r trace ∧ pending e trace = false)
          ∧ (Undisturbed e trace → profileOf e before = none →
            (∃ host ∈ discovery.hosts, host.endpointId = e) → Tried e retry before trace)) _
          (fun _ _ _ h => h.1) (fun _ _ _ _ h => h) (fun _ _ _ h => h)
        split
        . apply Runs.bind (runs_prune.frame Proceeds.prune (F := fun trace => Undisturbed e trace →
            profileOf e before = none → (∃ host ∈ discovery.hosts, host.endpointId = e) →
            Tried e retry before trace) ?_)
          . intro _
            exact hfinish
          . intro event trace h hundisturbed hnone hmem
            exact (h hundisturbed.of_cons hnone hmem).cons
        . exact hfinish

end

end Reconciler

namespace ReconcileWorld

open Reconciler

variable {e : String} {world : ReconcileWorld}

theorem rest_resetAbsences (h : (Rest e).Holds world) : (Rest e).Holds world.resetAbsences :=
  Rest.cons h rfl

theorem rest_restart (h : (Rest e).Holds world) : (Rest e).Holds world.restart :=
  Rest.cons h rfl

theorem rest_step {label : ReconcileLabel} (hvalid : label.Valid) (h : (Rest e).Holds world) : (Rest e).Holds (world.step label) := by
  cases label with
  | check discovery answers =>
    unfold step
    dsimp only
    rcases hrun : (Reconciler.check discovery).run { world with answers := answers } with
      ⟨result, world'⟩
    have hpost := runs_check (e := e) discovery hvalid world.trace world.reconciler.retry[e]?
      { world with answers := answers } world' result ⟨h, rfl, rfl⟩ hrun
    cases result with
    | ok _ => exact hpost.1
    | error failure =>
      cases failure with
      | error => exact rest_resetAbsences hpost
      | crashed => exact rest_restart hpost
  | resetAbsences => exact rest_resetAbsences h
  | restart => exact rest_restart h

theorem run_foldl (labels : List ReconcileLabel) (hvalid : ∀ label ∈ labels, label.Valid)
    (world : ReconcileWorld)
    : reconcilerSystem.Run world labels (labels.foldl step world) := by
  induction labels generalizing world with
  | nil => exact System.Run.nil world
  | cons label labels ih =>
    apply System.Run.cons (t := world.step label)
    . exact ⟨hvalid label List.mem_cons_self, rfl⟩
    . exact ih (fun l hl => hvalid l (List.mem_cons_of_mem _ hl)) _

theorem rest_reachable (h : reconcilerSystem.Reachable world) : (Rest e).Holds world := by
  apply h.invariant (P := (Rest e).Holds)
  . rintro s rfl _
    refine ⟨by simp [NeverStuck], fun _ => ⟨?_, ?_⟩⟩
    . simp [PluginState.default, profileOf]
    . simp [PluginState.default, profileOf]
  . rintro s t label hs ⟨hvalid, rfl⟩
    exact rest_step hvalid hs

end ReconcileWorld

open Reconciler in
theorem removed_host_returns {world : ReconcileWorld} (h : reconcilerSystem.Reachable world) (e : String)
    (halone : leftAlone e world.trace = true) (hsaves : savesTakeEffect e world.trace = true)
    : (∀ state, .saved state ∈ world.trace → e ∈ state.seen → (state.managed[e]?).isSome = true)
      ∧ ∀ discovery answers result world', (∀ host ∈ discovery.hosts, host.Valid) →
        (Reconciler.check discovery).run { world with answers := answers } = (result, world') →
        leftAlone e world'.trace = true → savesTakeEffect e world'.trace = true →
        profileOf e world.trace = none → (∃ host ∈ discovery.hosts, host.endpointId = e) →
        match result with
        | .ok () => ∃ new, world'.trace = new ++ world.trace
          ∧ ((∃ profile, .added e profile ∈ new) ∨ Hindered e world.reconciler.retry[e]? new)
        | .error _ => world'.answers = []
          ∨ ∃ answer ∈ answers, answer.crashes = true ∨ answer.fails = true := by
  have hrest := ReconcileWorld.rest_reachable (e := e) h
  refine ⟨(hrest ⟨halone, hsaves⟩).1, ?_⟩
  intro discovery answers result world' hvalid hrun halone' hsaves' hnone hlisted
  cases result with
  | ok _ =>
    have hpost := runs_check (e := e) discovery hvalid world.trace world.reconciler.retry[e]?
      { world with answers := answers } world' (.ok ()) ⟨hrest, rfl, rfl⟩ hrun
    exact hpost.2 ⟨halone', hsaves'⟩ hnone hlisted
  | error failure =>
    have hproceeds : Proceeds False (check discovery) := Proceeds.check
    have hpost := hproceeds world.trace answers { world with answers := answers } world'
      (.error failure) ⟨List.suffix_rfl, List.suffix_rfl⟩ hrun
    rcases hpost.2 with hexcused | hanswers
    . exact hexcused.elim
    . exact hanswers

namespace Fixture

def endpointId : String :=
  "0101010101010101010101010101010101010101010101010101010101010101"

def office : DiscoveryHost where
  host := "Office"
  endpointId := endpointId
  sshTarget := attachedTarget endpointId

def snapshot (generation : String) (hosts : List DiscoveryHost) : Discovery where
  version := 1
  generation := generation
  checkedAt := 0
  complete := true
  hosts := hosts

def works (machines : List Machine) : Answer where
  crashes := false
  fails := false
  machines := machines
  ready := true
  profile := "profile"
  notified := true
  now := 0
  persisted := true

def full : Answer :=
  { works [] with fails := true, persisted := false }

def officeMachine : Machine where
  id := "profile"
  target := attachedTarget endpointId

def appearAndVanish : List ReconcileLabel :=
  [.check (snapshot "1" [office]) (List.replicate 9 (works []) ++ [works [officeMachine]]),
    .check (snapshot "2" []) (List.replicate 4 (works [officeMachine])),
    .check (snapshot "3" []) (List.replicate 4 (works [officeMachine]))]

def comeBack (save : Answer) : List ReconcileLabel :=
  [.check (snapshot "4" []) (List.replicate 5 (works [officeMachine]) ++ [save]),
    .check (snapshot "5" []) (List.replicate 5 (works []))]

def freshWorld : ReconcileWorld where
  file := none
  reconciler := .new
  answers := []
  trace := []

def isStuck (event : ReconcileEvent) : Bool :=
  match event with
  | .saved state => state.seen.contains endpointId && (state.managed[endpointId]?).isNone
  | _ => false

def isRemoval (event : ReconcileEvent) : Bool :=
  match event with
  | .removed endpoint _ => endpoint == endpointId
  | _ => false

def isAdding (event : ReconcileEvent) : Bool :=
  match event with
  | .adding endpoint => endpoint == endpointId
  | _ => false

def isInterruption (event : ReconcileEvent) : Bool :=
  match event with
  | .reset => true
  | .started => true
  | _ => false

def after (labels : List ReconcileLabel) : ReconcileWorld :=
  labels.foldl ReconcileWorld.step freshWorld

def checkAgain (world : ReconcileWorld) : ReconcileWorld :=
  world.step (.check (snapshot "6" [office])
    (List.replicate 9 (works []) ++ [works [officeMachine]]))

end Fixture

/--
Where the state cannot be saved after the removal, the next check takes it for a removal by the user,
and the host is not added again.
-/
theorem removed_host_stuck
    : reconcilerSystem.Reachable (Fixture.after (Fixture.appearAndVanish ++ Fixture.comeBack Fixture.full))
        ∧ Reconciler.leftAlone Fixture.endpointId
          (Fixture.after (Fixture.appearAndVanish ++ Fixture.comeBack Fixture.full)).trace = true
        ∧ (Fixture.after (Fixture.appearAndVanish ++ Fixture.comeBack Fixture.full)).trace.countP
          Fixture.isRemoval = 1
        ∧ ((Fixture.after (Fixture.appearAndVanish ++ Fixture.comeBack Fixture.full)).trace.takeWhile
          fun event => !Fixture.isRemoval event).any Fixture.isStuck = true
        ∧ (Fixture.checkAgain
          (Fixture.after (Fixture.appearAndVanish ++ Fixture.comeBack Fixture.full))).trace.countP
          Fixture.isAdding = 1 := by
  have hrun := ReconcileWorld.run_foldl
    (Fixture.appearAndVanish ++ Fixture.comeBack Fixture.full) (by decide +kernel)
    Fixture.freshWorld
  refine ⟨⟨_, _, rfl, hrun⟩, ?_⟩
  decide +kernel

theorem removed_host_returns_office
    : ∃ new, (Fixture.checkAgain
          (Fixture.after (Fixture.appearAndVanish ++ Fixture.comeBack (Fixture.works [])))).trace
          = new ++ (Fixture.after (Fixture.appearAndVanish ++ Fixture.comeBack (Fixture.works []))).trace
        ∧ ((∃ profile, .added Fixture.endpointId profile ∈ new)
          ∨ Reconciler.Hindered Fixture.endpointId (Fixture.after (Fixture.appearAndVanish
            ++ Fixture.comeBack (Fixture.works []))).reconciler.retry[Fixture.endpointId]? new)
        ∧ (Fixture.checkAgain (Fixture.after
          (Fixture.appearAndVanish ++ Fixture.comeBack (Fixture.works [])))).trace.countP
          Fixture.isAdding = 2 := by
  have hrun := ReconcileWorld.run_foldl
    (Fixture.appearAndVanish ++ Fixture.comeBack (Fixture.works [])) (by decide +kernel)
    Fixture.freshWorld
  have hreachable : reconcilerSystem.Reachable
      (Fixture.after (Fixture.appearAndVanish ++ Fixture.comeBack (Fixture.works []))) :=
    ⟨_, _, rfl, hrun⟩
  have hvalid : ∀ host ∈ (Fixture.snapshot "6" [Fixture.office]).hosts, host.Valid := by
    decide +kernel
  have hchecks : (Reconciler.leftAlone Fixture.endpointId
        (Fixture.after (Fixture.appearAndVanish ++ Fixture.comeBack (Fixture.works []))).trace = true
      ∧ Reconciler.savesTakeEffect Fixture.endpointId
        (Fixture.after (Fixture.appearAndVanish ++ Fixture.comeBack (Fixture.works []))).trace = true
      ∧ Reconciler.profileOf Fixture.endpointId
        (Fixture.after (Fixture.appearAndVanish ++ Fixture.comeBack (Fixture.works []))).trace = none)
      ∧ (Fixture.checkAgain (Fixture.after
        (Fixture.appearAndVanish ++ Fixture.comeBack (Fixture.works [])))).trace.head?.any
          Fixture.isInterruption = false
      ∧ Reconciler.leftAlone Fixture.endpointId (Fixture.checkAgain (Fixture.after
        (Fixture.appearAndVanish ++ Fixture.comeBack (Fixture.works [])))).trace = true
      ∧ Reconciler.savesTakeEffect Fixture.endpointId (Fixture.checkAgain (Fixture.after
        (Fixture.appearAndVanish ++ Fixture.comeBack (Fixture.works [])))).trace = true
      ∧ (Fixture.checkAgain (Fixture.after
        (Fixture.appearAndVanish ++ Fixture.comeBack (Fixture.works [])))).trace.countP
          Fixture.isAdding = 2 := by
    decide +kernel
  rcases hchecks with ⟨⟨hbefore, hbeforeSaves, hnone⟩, hcompleted, halone, hsaves, hadding⟩
  unfold Fixture.checkAgain ReconcileWorld.step at hcompleted halone hsaves hadding ⊢
  dsimp only at hcompleted halone hsaves hadding ⊢
  split at hcompleted
  . next world' hcheck =>
    simp only [hcheck] at halone hsaves hadding ⊢
    have hall := removed_host_returns hreachable Fixture.endpointId hbefore hbeforeSaves
    rcases hall.2 _ _ (.ok ()) world' hvalid hcheck halone hsaves hnone
      ⟨Fixture.office, List.mem_singleton_self _, rfl⟩ with ⟨new, hnew, hreturned⟩
    exact ⟨new, hnew, hreturned, hadding⟩
  . simp [ReconcileWorld.resetAbsences, Fixture.isInterruption] at hcompleted
  . simp [ReconcileWorld.restart, Fixture.isInterruption] at hcompleted

end Attached
