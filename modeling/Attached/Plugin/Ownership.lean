import Mathlib.Data.List.Chain
import Attached.Library.History
import Attached.Plugin.Readding

/-!
This module contains what the reconciler may remove and add: it only removes profiles that it added
itself, once three snapshots lack their endpoint, and it does not add an endpoint that was seen.
-/

open Std

namespace Attached

namespace ReconcileEvent

def isWithin (event : ReconcileEvent) : Bool :=
  match event with
  | .started => false
  | .checking _ => false
  | .reset => false
  | .listed _ _ => false
  | _ => true

def keepsAbsence (e : String) (event : ReconcileEvent) : Bool :=
  match event with
  | .started => false
  | .reset => false
  | .checking discovery =>
    discovery.complete && discovery.hosts.all fun host => host.endpointId != e
  | _ => true

theorem keepsAbsence_of_isWithin {e : String} {event : ReconcileEvent} (h : event.isWithin = true)
    : event.keepsAbsence e = true := by
  cases event with
  | started => cases h
  | reset => cases h
  | checking discovery => cases h
  | _ => rfl

end ReconcileEvent

namespace Ownership

open Reconciler

def lastSaved (trace : List ReconcileEvent) : PluginState :=
  match trace with
  | [] => .default
  | .saved state :: _ => state
  | _ :: trace => lastSaved trace

/-- A generation determines the hosts of its snapshot, and whether the snapshot is complete. -/
def Determined (trace : List ReconcileEvent) : Prop :=
  ∀ discovery discovery', .checking discovery ∈ trace → .checking discovery' ∈ trace →
    discovery.generation = discovery'.generation →
    discovery.hosts = discovery'.hosts ∧ discovery.complete = discovery'.complete

def addedProfile (event : ReconcileEvent) : Option String :=
  match event with
  | .added _ p => some p
  | _ => none

def Polls (discovery : Discovery) (earlier trace : List ReconcileEvent) : Prop :=
  ∃ polled machines,
    trace = polled ++ .listed discovery.hosts machines :: .checking discovery :: earlier
      ∧ ∀ event ∈ polled, event.isWithin = true

def Prunes (discovery : Discovery) (machines : List Machine) (earlier trace : List ReconcileEvent)
    : Prop :=
  ∃ pruned before,
    trace = pruned ++ .listed discovery.hosts machines :: before
      ∧ (∀ event ∈ pruned, event.isWithin = true)
      ∧ Polls discovery earlier before

structure Absent (e : String) (snapshots : List Discovery) (trace : List ReconcileEvent) : Prop where
  recent : ∃ recent rest, trace = recent ++ rest
    ∧ (∀ event ∈ recent, event.keepsAbsence e = true)
    ∧ (snapshots.map ReconcileEvent.checking).Sublist recent
  chain : snapshots.IsChain fun discovery discovery' => discovery.generation ≠ discovery'.generation

structure Owned (e p : String) (before : List ReconcileEvent) : Prop where
  added : .added e p ∈ before
  managed : (lastSaved before).managed[e]? = some p
  listed : ∃ discovery machines earlier, Prunes discovery machines earlier before
    ∧ ∃ machine ∈ machines, machine.id = p
      ∧ toAsciiLowercase machine.target = toAsciiLowercase (attachedTarget e)

def Warranted (event : ReconcileEvent) (before : List ReconcileEvent) : Prop :=
  match event with
  | .removing e p =>
    Owned e p before
      ∧ (Determined before → ∃ snapshots, Absent e snapshots before ∧ 3 ≤ snapshots.length)
  | .adding e => e ∉ (lastSaved before).seen
  | _ => True

section

variable {e : String} {event : ReconcileEvent} {trace earlier new : List ReconcileEvent}
  {snapshots : List Discovery} {discovery : Discovery} {machines : List Machine}

theorem Determined.of_suffix (h : Determined trace) (hsuffix : earlier <:+ trace)
    : Determined earlier :=
  fun _ _ hmem hmem' => h _ _ (hsuffix.subset hmem) (hsuffix.subset hmem')

theorem Determined.of_cons (h : Determined (event :: trace)) : Determined trace :=
  h.of_suffix (List.suffix_cons event trace)

theorem eq_of_added {e' p : String} (h : (trace.filterMap addedProfile).Nodup)
    (hadded : .added e p ∈ trace) (hadded' : .added e' p ∈ trace) : e' = e := by
  by_contra hne
  have hpairwise := List.pairwise_filterMap.mp h
  have : Std.Symm fun event event' => ∀ q, addedProfile event = some q →
      ∀ q', addedProfile event' = some q' → q ≠ q' :=
    ⟨fun _ _ hdifferent q hq q' hq' => (hdifferent q' hq' q hq).symm⟩
  have hevents : ReconcileEvent.added e p ≠ .added e' p := by
    intro heq
    injection heq with heq
    exact hne heq.symm
  exact hpairwise.forall hadded hadded' hevents p rfl p rfl rfl

theorem Polls.cons (h : Polls discovery earlier trace) (hwithin : event.isWithin = true)
    : Polls discovery earlier (event :: trace) := by
  rcases h with ⟨polled, machines, rfl, hpolled⟩
  refine ⟨event :: polled, machines, rfl, ?_⟩
  intro event' hmem
  rcases List.mem_cons.mp hmem with rfl | hmem
  . exact hwithin
  . exact hpolled event' hmem

theorem Prunes.cons (h : Prunes discovery machines earlier trace) (hwithin : event.isWithin = true)
    : Prunes discovery machines earlier (event :: trace) := by
  rcases h with ⟨pruned, before, rfl, hpruned, hpolls⟩
  refine ⟨event :: pruned, before, rfl, ?_, hpolls⟩
  intro event' hmem
  rcases List.mem_cons.mp hmem with rfl | hmem
  . exact hwithin
  . exact hpruned event' hmem

theorem Polls.keeps (h : Polls discovery earlier trace)
    : ∃ new, trace = new ++ .checking discovery :: earlier
        ∧ ∀ event ∈ new, ∀ e, event.keepsAbsence e = true := by
  rcases h with ⟨polled, machines, rfl, hpolled⟩
  refine ⟨polled ++ [.listed discovery.hosts machines], by simp, ?_⟩
  intro event hmem e
  rcases List.mem_append.mp hmem with hmem | hmem
  . exact ReconcileEvent.keepsAbsence_of_isWithin (hpolled event hmem)
  . rw [List.mem_singleton.mp hmem]
    rfl

theorem Prunes.keeps (h : Prunes discovery machines earlier trace)
    : ∃ new, trace = new ++ .checking discovery :: earlier
        ∧ ∀ event ∈ new, ∀ e, event.keepsAbsence e = true := by
  rcases h with ⟨pruned, before, rfl, hpruned, hpolls⟩
  rcases hpolls.keeps with ⟨new, rfl, hnew⟩
  refine ⟨pruned ++ .listed discovery.hosts machines :: new, by simp, ?_⟩
  intro event hmem e
  rcases List.mem_append.mp hmem with hmem | hmem
  . exact ReconcileEvent.keepsAbsence_of_isWithin (hpruned event hmem)
  . rcases List.mem_cons.mp hmem with rfl | hmem
    . rfl
    . exact hnew event hmem e

theorem absent_nil : Absent e [] trace :=
  ⟨⟨[], trace, rfl, by simp, List.Sublist.refl _⟩, List.isChain_nil⟩

theorem Absent.append (h : Absent e snapshots trace)
    (hkeeps : ∀ event ∈ new, event.keepsAbsence e = true) : Absent e snapshots (new ++ trace) := by
  rcases h with ⟨⟨recent, rest, rfl, hrecent, hsublist⟩, hchain⟩
  refine ⟨⟨new ++ recent, rest, by simp, ?_, ?_⟩, hchain⟩
  . intro event hmem
    rcases List.mem_append.mp hmem with hmem | hmem
    . exact hkeeps event hmem
    . exact hrecent event hmem
  . exact hsublist.trans (List.sublist_append_right _ _)

theorem Absent.cons (h : Absent e snapshots trace) (hkeeps : event.keepsAbsence e = true)
    : Absent e snapshots (event :: trace) := by
  have hkeeps : ∀ event' ∈ [event], event'.keepsAbsence e = true := by
    intro event' hmem
    rw [List.mem_singleton.mp hmem]
    exact hkeeps
  exact h.append hkeeps

theorem Absent.checking (h : Absent e snapshots trace)
    (hkeeps : (ReconcileEvent.checking discovery).keepsAbsence e = true)
    (hhead : ∀ discovery' ∈ snapshots.head?, discovery.generation ≠ discovery'.generation)
    : Absent e (discovery :: snapshots) (.checking discovery :: trace) := by
  rcases h with ⟨⟨recent, rest, rfl, hrecent, hsublist⟩, hchain⟩
  refine ⟨⟨.checking discovery :: recent, rest, rfl, ?_, hsublist.cons_cons _⟩, ?_⟩
  . intro event hmem
    rcases List.mem_cons.mp hmem with rfl | hmem
    . exact hkeeps
    . exact hrecent event hmem
  . exact List.isChain_cons.mpr ⟨hhead, hchain⟩

theorem Absent.mem (h : Absent e snapshots trace) (hmem : discovery ∈ snapshots)
    : .checking discovery ∈ trace ∧ (ReconcileEvent.checking discovery).keepsAbsence e = true := by
  rcases h with ⟨⟨recent, rest, rfl, hrecent, hsublist⟩, _⟩
  have hin : ReconcileEvent.checking discovery ∈ recent :=
    hsublist.subset (List.mem_map_of_mem hmem)
  exact ⟨List.mem_append_left _ hin, hrecent _ hin⟩

end

def Counted (e : String) (misses : Nat) (last : Option String) (trace : List ReconcileEvent) : Prop :=
  ∃ snapshots, Absent e snapshots trace ∧ misses ≤ snapshots.length
    ∧ snapshots.head?.map (·.generation) = last

section

variable {e : String} {misses : Nat} {last : Option String} {event : ReconcileEvent}
  {trace new : List ReconcileEvent} {discovery : Discovery}

theorem Counted.append (h : Counted e misses last trace)
    (hkeeps : ∀ event ∈ new, event.keepsAbsence e = true) : Counted e misses last (new ++ trace) := by
  rcases h with ⟨snapshots, habsent, hmisses, hlast⟩
  exact ⟨snapshots, habsent.append hkeeps, hmisses, hlast⟩

theorem Counted.cons (h : Counted e misses last trace) (hkeeps : event.keepsAbsence e = true)
    : Counted e misses last (event :: trace) := by
  rcases h with ⟨snapshots, habsent, hmisses, hlast⟩
  exact ⟨snapshots, habsent.cons hkeeps, hmisses, hlast⟩

theorem counted_first (hkeeps : (ReconcileEvent.checking discovery).keepsAbsence e = true)
    : Counted e 1 (some discovery.generation) (.checking discovery :: trace) := by
  refine ⟨[discovery], absent_nil.checking hkeeps ?_, Nat.le_refl 1, rfl⟩
  simp

theorem Counted.checking (h : Counted e misses last trace)
    (hkeeps : (ReconcileEvent.checking discovery).keepsAbsence e = true)
    (hlast : last ≠ some discovery.generation)
    : Counted e (misses + 1) (some discovery.generation) (.checking discovery :: trace) := by
  rcases h with ⟨snapshots, habsent, hmisses, rfl⟩
  refine ⟨discovery :: snapshots, habsent.checking hkeeps ?_, ?_, rfl⟩
  . rintro discovery' hhead heq
    rw [Option.mem_def] at hhead
    rw [hhead, heq] at hlast
    exact hlast rfl
  . simp only [List.length_cons]
    omega

theorem Counted.again (h : Counted e misses (some discovery.generation) trace)
    (hdetermined : Determined (.checking discovery :: trace))
    : Counted e misses (some discovery.generation) (.checking discovery :: trace) := by
  apply h.cons
  rcases h with ⟨snapshots, habsent, _, hhead⟩
  rcases Option.map_eq_some_iff.mp hhead with ⟨discovery', hdiscovery', hgeneration⟩
  rcases habsent.mem (List.mem_of_mem_head? hdiscovery') with ⟨hmem, hkeeps⟩
  rcases hdetermined discovery' discovery (List.mem_cons_of_mem _ hmem) List.mem_cons_self
    hgeneration with ⟨hhosts, hcomplete⟩
  simp only [ReconcileEvent.keepsAbsence] at hkeeps ⊢
  rw [← hhosts, ← hcomplete]
  exact hkeeps

end

structure Accounted (file : Option PluginState) (trace : List ReconcileEvent) : Prop where
  file : file.getD .default = lastSaved trace
  managed : ∀ e p, (lastSaved trace).managed[e]? = some p → .added e p ∈ trace
  warranted : History.Warranted Warranted trace

def Safe : ReconcileAssertion := fun file _ trace =>
  Accounted file trace

def Keeps (F : Reconciler → List ReconcileEvent → Prop) (state : PluginState) : ReconcileAssertion :=
  fun file r trace => Accounted file trace ∧ state = lastSaved trace ∧ F r trace

def Changed (F : Reconciler → List ReconcileEvent → Prop) (state : PluginState) : ReconcileAssertion :=
  fun file r trace =>
    Accounted file trace ∧ (∀ e p, state.managed[e]? = some p → .added e p ∈ trace) ∧ F r trace

structure Framed (F : Reconciler → List ReconcileEvent → Prop) : Prop where
  within : ∀ {event r trace}, event.isWithin = true → F r trace → F r (event :: trace)
  retry : ∀ {r trace} retry, F r trace → F { r with retry := retry } trace

section

variable {F : Reconciler → List ReconcileEvent → Prop} {state : PluginState}
  {file : Option PluginState} {r : Reconciler} {trace : List ReconcileEvent} {event : ReconcileEvent}

theorem lastSaved_cons (h : event.isSaved = false) : lastSaved (event :: trace) = lastSaved trace := by
  cases event with
  | saved state => cases h
  | _ => rfl

theorem Accounted.cons (h : Accounted file trace) (hsaved : event.isSaved = false)
    (hwarranted : Warranted event trace) : Accounted file (event :: trace) := by
  rcases h with ⟨hfile, hmanaged, hhistory⟩
  constructor
  . rw [lastSaved_cons hsaved]
    exact hfile
  . rw [lastSaved_cons hsaved]
    intro e p hp
    exact List.mem_cons_of_mem _ (hmanaged e p hp)
  . exact hhistory.cons hwarranted

theorem Accounted.saved (h : Accounted file trace)
    (hmanaged : ∀ e p, state.managed[e]? = some p → .added e p ∈ trace)
    : Accounted (some state) (.saved state :: trace) := by
  constructor
  . rfl
  . intro e p hp
    exact List.mem_cons_of_mem _ (hmanaged e p hp)
  . exact h.warranted.cons trivial

theorem Keeps.cons (h : Keeps F state file r trace) (hsaved : event.isSaved = false)
    (hwarranted : Warranted event trace) (hF : F r (event :: trace))
    : Keeps F state file r (event :: trace) := by
  rcases h with ⟨haccounted, hcopy, _⟩
  refine ⟨haccounted.cons hsaved hwarranted, ?_, hF⟩
  rw [lastSaved_cons hsaved]
  exact hcopy

theorem Keeps.added (h : Keeps F state file r trace) {e p : String} (hp : state.managed[e]? = some p)
    : .added e p ∈ trace := by
  rcases h with ⟨haccounted, rfl, _⟩
  exact haccounted.managed e p hp

theorem runs_save (hF : ∀ r trace, F r trace → F r (.saved state :: trace))
    : Runs (Changed F state) (save state) (fun _ => Keeps F state) Safe := by
  apply Runs.save
  . rintro file r trace ⟨haccounted, _⟩
    exact haccounted
  . rintro file r trace ⟨haccounted, _⟩
    exact haccounted.cons rfl trivial
  . rintro file r trace ⟨haccounted, hmanaged, h⟩
    exact ⟨haccounted.saved hmanaged, rfl, hF r trace h⟩
  . rintro file r trace ⟨haccounted, _⟩
    exact haccounted

theorem runs_record (event : ReconcileEvent) (hF : Framed F) (hsaved : event.isSaved = false)
    (hwithin : event.isWithin = true) (hwarranted : ∀ trace, Warranted event trace)
    : Runs (Keeps F state) (record event) (fun _ => Keeps F state) Safe :=
  Runs.record fun _ _ _ h => h.cons hsaved (hwarranted _) (hF.within hwithin h.2.2)

end

section

variable {F : Reconciler → List ReconcileEvent → Prop} {state : PluginState}
  {hosts : List DiscoveryHost} {targets : List String} {host : DiscoveryHost}

theorem runs_instant (hF : Framed F)
    : Runs (Keeps F state) instant (fun _ => Keeps F state) Safe :=
  Runs.instant (fun _ _ _ h => h.1) fun _ _ _ _ h => h.cons rfl trivial (hF.within rfl h.2.2)

theorem runs_setRetry (hF : Framed F) (endpoint : String) (deadline failures : Nat)
    : Runs (Keeps F state) (setRetry endpoint deadline failures) (fun _ => Keeps F state) Safe :=
  Runs.update fun _ _ _ h => ⟨h.1, h.2.1, hF.retry _ h.2.2⟩

theorem runs_tryAdd (hF : Framed F) (hunseen : host.endpointId ∉ state.seen)
    : Runs (Keeps F state) (tryAdd host)
        (fun added file r trace => Keeps F state file r trace
          ∧ ∀ profile, added = some (some profile) → .added host.endpointId profile ∈ trace)
        Safe := by
  apply Runs.bind (J := fun _ => Keeps F state)
  . exact Runs.ready (fun _ _ _ h => h.1) fun _ _ _ _ h => h.cons rfl trivial (hF.within rfl h.2.2)
  . rintro (_ | _ | _)
    . exact Runs.pure fun _ _ _ h => ⟨h, by simp⟩
    . exact Runs.pure fun _ _ _ h => ⟨h, by simp⟩
    . have hadding : ∀ file r trace, Keeps F state file r trace →
          Keeps F state file r (.adding host.endpointId :: trace) := by
        intro file r trace h
        apply h.cons rfl _ (hF.within rfl h.2.2)
        rw [Warranted, ← h.2.1]
        exact hunseen
      apply Runs.bind (J := fun added file r trace => Keeps F state file r trace
        ∧ ∀ profile, added = some profile → .added host.endpointId profile ∈ trace)
      . apply Runs.add
        . intro file r trace h
          exact (hadding file r trace h).1
        . intro file r trace h
          have h' := hadding file r trace h
          exact ⟨h'.cons rfl trivial (hF.within rfl h'.2.2), by simp⟩
        . intro profile file r trace h
          have h' := hadding file r trace h
          refine ⟨h'.cons rfl trivial (hF.within rfl h'.2.2), ?_⟩
          rintro _ ⟨⟩
          exact List.mem_cons_self
      . intro added
        apply Runs.pure
        rintro file r trace ⟨h, hadded⟩
        refine ⟨h, ?_⟩
        intro profile heq
        exact hadded profile (Option.some.inj heq)

theorem runs_attemptHost (hF : Framed F) (hunseen : host.endpointId ∉ state.seen)
    (previous : Option (Nat × Nat))
    : Runs (Keeps F state) (attemptHost hosts host previous state)
        (fun state' => Keeps F state') Safe := by
  apply Runs.bind (runs_instant hF)
  intro now
  apply Runs.bind (runs_record (.attempting _ _ _) hF rfl rfl fun _ => trivial)
  intro _
  apply Runs.bind (runs_setRetry hF _ _ _)
  intro _
  apply Runs.bind (runs_tryAdd hF hunseen)
  rintro (_ | _ | profile)
  . -- The alias is not ready.
    exact Runs.pure fun _ _ _ h => h.1
  . -- The attempt failed.
    apply Runs.bind (J := fun _ => Keeps F state)
    . exact (runs_instant hF).mono (fun _ _ _ h => h.1) (fun _ _ _ _ h => h) (fun _ _ _ h => h)
    . intro now
      apply Runs.bind (runs_setRetry hF _ _ _)
      intro _
      exact Runs.pure fun _ _ _ h => h
  . -- The profile that was added is the only one that the copy has in addition.
    apply Runs.bind (J := fun _ =>
      Keeps F (manage state host.endpointId profile (displayLabel hosts host)))
    . apply (runs_save fun r trace h => hF.within rfl h).mono _ (fun _ _ _ _ h => h)
        (fun _ _ _ h => h)
      rintro file r trace ⟨h, hadded⟩
      refine ⟨h.1, ?_, h.2.2⟩
      intro e p hp
      simp only [manage, TreeMap.getElem?_insert, Std.LawfulEqCmp.compare_eq_iff_eq] at hp
      split at hp
      . next he =>
        subst he
        rw [← Option.some.inj hp]
        exact hadded profile rfl
      . exact h.added hp
    . intro _
      exact Runs.pure fun _ _ _ h => h

theorem runs_pollHost (hF : Framed F) (attempts : Nat)
    : Runs (Keeps F state) (pollHost hosts targets host (state, attempts))
        (fun state' => Keeps F state'.1) Safe := by
  unfold pollHost
  dsimp only
  split
  . exact Runs.pure fun _ _ _ h => h
  . next hseen =>
    have hunseen : host.endpointId ∉ state.seen := by
      rw [TreeSet.mem_iff_contains]
      exact hseen
    split
    . apply Runs.bind (J := fun _ =>
        Keeps F { state with seen := state.seen.insert host.endpointId })
      . apply (runs_save fun r trace h => hF.within rfl h).mono _ (fun _ _ _ _ h => h)
          (fun _ _ _ h => h)
        intro file r trace h
        exact ⟨h.1, fun e p => h.added, h.2.2⟩
      . intro _
        exact Runs.pure fun _ _ _ h => h
    . have hdeferred : Runs (Keeps F state)
          (record (.deferred host.endpointId) >>= fun _ => Pure.pure (state, attempts))
          (fun state' => Keeps F state'.1) Safe := by
        apply Runs.bind (runs_record (.deferred _) hF rfl rfl fun _ => trivial)
        intro _
        exact Runs.pure fun _ _ _ h => h
      have hattempt : ∀ previous, Runs (Keeps F state)
          (attemptHost hosts host previous state >>= fun state => Pure.pure (state, attempts + 1))
          (fun state' => Keeps F state'.1) Safe := by
        intro previous
        apply Runs.bind (runs_attemptHost hF hunseen previous)
        intro state'
        exact Runs.pure fun _ _ _ h => h
      split
      . exact hdeferred
      . apply Runs.get_bind
        intro world
        apply Runs.mono (I := Keeps F state) _ (fun _ _ _ h => h.1) (fun _ _ _ _ h => h)
          (fun _ _ _ h => h)
        split
        . next deadline failures _ =>
          apply Runs.bind (runs_instant hF)
          intro now
          split
          . exact hdeferred
          . exact hattempt (some (deadline, failures))
        . exact hattempt none

theorem runs_pollHosts {candidates : List DiscoveryHost} (hF : Framed F) (state : PluginState)
    (attempts : Nat)
    : Runs (Keeps F state) (pollHosts hosts targets candidates (state, attempts))
        (fun state' => Keeps F state'.1) Safe := by
  induction candidates generalizing state attempts with
  | nil => exact Runs.pure fun _ _ _ h => h
  | cons host candidates ih =>
    apply Runs.bind (runs_pollHost hF attempts)
    rintro ⟨state', attempts'⟩
    exact ih state' attempts'

theorem runs_notifyPending (hF : Framed F) (state : PluginState) (labels : List (String × String))
    : Runs (Keeps F state) (notifyPending labels state)
        (fun _ file r trace => Accounted file trace ∧ F r trace) Safe := by
  induction labels generalizing state with
  | nil => exact Runs.pure fun _ _ _ h => ⟨h.1, h.2.2⟩
  | cons label labels ih =>
    rcases label with ⟨id, label⟩
    apply Runs.bind (Runs.answer fun _ _ _ h => h.1)
    intro answer
    split
    . apply Runs.bind (runs_record (.notified _) hF rfl rfl fun _ => trivial)
      intro _
      apply Runs.bind (J := fun _ => Keeps F { state with pending := state.pending.erase id })
      . apply (runs_save fun r trace h => hF.within rfl h).mono _ (fun _ _ _ _ h => h)
          (fun _ _ _ h => h)
        intro file r trace h
        exact ⟨h.1, fun e p => h.added, h.2.2⟩
      . intro _
        exact ih _
    . exact ih _

end

structure Pruning (discovery : Discovery) (machines : List Machine) (earlier : List ReconcileEvent)
    (last : Option String) (left : List (String × String)) (missing : TreeMap String Nat)
    (trace : List ReconcileEvent) : Prop where
  prunes : Prunes discovery machines earlier trace
  waiting : ∀ e misses, e ∈ left.map (·.1) → missing[e]? = some misses → Determined trace →
    Counted e misses last earlier
  counted : ∀ e misses, e ∉ left.map (·.1) → missing[e]? = some misses → Determined trace →
    Counted e misses (some discovery.generation) trace

section

variable {discovery : Discovery} {machines : List Machine} {earlier trace : List ReconcileEvent}
  {last : Option String} {left : List (String × String)} {missing : TreeMap String Nat}
  {event : ReconcileEvent} {endpoint profile : String} {misses : Nat}

theorem Counted.mono {e : String} {fewer : Nat} (h : Counted e misses last trace)
    (hle : fewer ≤ misses) : Counted e fewer last trace := by
  rcases h with ⟨snapshots, habsent, hmisses, hlast⟩
  exact ⟨snapshots, habsent, hle.trans hmisses, hlast⟩

theorem Pruning.cons (h : Pruning discovery machines earlier last left missing trace)
    (hwithin : event.isWithin = true)
    : Pruning discovery machines earlier last left missing (event :: trace) := by
  constructor
  . exact h.prunes.cons hwithin
  . intro e misses hleft hmisses hdetermined
    exact h.waiting e misses hleft hmisses hdetermined.of_cons
  . intro e misses hleft hmisses hdetermined
    exact (h.counted e misses hleft hmisses hdetermined.of_cons).cons
      (ReconcileEvent.keepsAbsence_of_isWithin hwithin)

theorem Pruning.erase (h : Pruning discovery machines earlier last left missing trace)
    (endpoint : String)
    : Pruning discovery machines earlier last left (missing.erase endpoint) trace := by
  have hbefore : ∀ {e : String} {misses : Nat}, (missing.erase endpoint)[e]? = some misses →
      missing[e]? = some misses := by
    intro e misses hmisses
    rw [TreeMap.getElem?_erase] at hmisses
    split at hmisses
    . cases hmisses
    . exact hmisses
  constructor
  . exact h.prunes
  . intro e misses hleft hmisses
    exact h.waiting e misses hleft (hbefore hmisses)
  . intro e misses hleft hmisses
    exact h.counted e misses hleft (hbefore hmisses)

theorem Pruning.erase_next
    (h : Pruning discovery machines earlier last ((endpoint, profile) :: left) missing trace)
    : Pruning discovery machines earlier last left (missing.erase endpoint) trace := by
  have herased := h.erase endpoint
  constructor
  . exact h.prunes
  . intro e misses hleft
    exact herased.waiting e misses (List.mem_cons_of_mem _ hleft)
  . intro e misses hleft hmisses
    apply herased.counted e misses _ hmisses
    simp only [List.map_cons, List.mem_cons, not_or]
    refine ⟨?_, hleft⟩
    rintro rfl
    simp at hmisses

theorem Pruning.missed
    (h : Pruning discovery machines earlier last ((endpoint, profile) :: left) missing trace)
    (hnew : endpoint ∉ left.map (·.1)) (hlast : last ≠ some discovery.generation)
    (hkeeps : (ReconcileEvent.checking discovery).keepsAbsence endpoint = true)
    (hmisses : misses ≤ missing.getD endpoint 0 + 1)
    : Pruning discovery machines earlier last left (missing.insert endpoint misses) trace := by
  constructor
  . exact h.prunes
  . intro e misses' hleft hmisses'
    have hne : endpoint ≠ e := by
      rintro rfl
      exact hnew hleft
    rw [TreeMap.getElem?_insert, if_neg (by simpa using hne)] at hmisses'
    exact h.waiting e misses' (List.mem_cons_of_mem _ hleft) hmisses'
  . intro e misses' hleft hmisses' hdetermined
    by_cases he : endpoint = e
    . subst he
      rw [TreeMap.getElem?_insert, if_pos Std.ReflCmp.compare_self, Option.some.injEq] at hmisses'
      subst hmisses'
      have hwaiting := h.waiting endpoint
      rcases h.prunes.keeps with ⟨new, rfl, hnew'⟩
      apply Counted.append _ fun event hmem => hnew' event hmem endpoint
      rw [TreeMap.getD_eq_getD_getElem?] at hmisses
      cases hbefore : missing[endpoint]? with
      | none =>
        rw [hbefore] at hmisses
        exact (counted_first hkeeps).mono hmisses
      | some before =>
        rw [hbefore] at hmisses
        have hcounted := hwaiting before List.mem_cons_self hbefore hdetermined
        exact (hcounted.checking hkeeps hlast).mono hmisses
    . rw [TreeMap.getElem?_insert, if_neg (by simpa using he)] at hmisses'
      apply h.counted e misses' _ hmisses' hdetermined
      simp only [List.map_cons, List.mem_cons, not_or]
      exact ⟨fun heq => he heq.symm, hleft⟩

theorem managed_forget {state : PluginState} {e p : String}
    (h : (forget state endpoint).managed[e]? = some p) : state.managed[e]? = some p := by
  simp only [forget, TreeMap.getElem?_erase] at h
  split at h
  . cases h
  . exact h

theorem managed_forget_of_left {state : PluginState} (hnew : endpoint ∉ left.map (·.1))
    (hmanaged : ∀ entry ∈ left, state.managed[entry.1]? = some entry.2)
    : ∀ entry ∈ left, (forget state endpoint).managed[entry.1]? = some entry.2 := by
  intro entry hmem
  have hne : endpoint ≠ entry.1 := by
    rintro rfl
    exact hnew (List.mem_map_of_mem hmem)
  simp only [forget, TreeMap.getElem?_erase]
  rw [if_neg (by simpa using hne)]
  exact hmanaged entry hmem

end

section

variable {discovery : Discovery} {machines : List Machine} {earlier : List ReconcileEvent}
  {last : Option String} {left : List (String × String)} {endpoint profile : String}
  {state : PluginState} {missing : TreeMap String Nat}

def PruningWith (discovery : Discovery) (machines : List Machine) (earlier : List ReconcileEvent)
    (last : Option String) (left : List (String × String)) (state : PluginState)
    : ReconcileAssertion :=
  Keeps (fun r trace => Pruning discovery machines earlier last left r.missing trace) state

theorem PruningWith.cons {file : Option PluginState} {r : Reconciler} {trace : List ReconcileEvent}
    {event : ReconcileEvent} (h : PruningWith discovery machines earlier last left state file r trace)
    (hsaved : event.isSaved = false) (hwithin : event.isWithin = true)
    (hwarranted : Warranted event trace)
    : PruningWith discovery machines earlier last left state file r (event :: trace) :=
  Keeps.cons h hsaved hwarranted (h.2.2.cons hwithin)

theorem owned_of_pruning {file : Option PluginState} {r : Reconciler} {trace : List ReconcileEvent}
    (h : PruningWith discovery machines earlier last left state file r trace)
    (hmanaged : state.managed[endpoint]? = some profile)
    (hlisted : machines.any (isProfile endpoint profile) = true) : Owned endpoint profile trace := by
  constructor
  . exact Keeps.added h hmanaged
  . rw [← h.2.1]
    exact hmanaged
  . refine ⟨discovery, machines, earlier, h.2.2.prunes, ?_⟩
    rcases List.any_eq_true.mp hlisted with ⟨machine, hmem, hmachine⟩
    simp only [isProfile, Bool.and_eq_true, beq_iff_eq] at hmachine
    exact ⟨machine, hmem, hmachine.1, hmachine.2⟩

theorem runs_forget {state' : PluginState}
    (hmanaged : ∀ e p : String, state'.managed[e]? = some p → state.managed[e]? = some p)
    : Runs (PruningWith discovery machines earlier last left state) (save state')
        (fun _ => PruningWith discovery machines earlier last left state') Safe := by
  apply (runs_save fun r trace h => Pruning.cons h rfl).mono _ (fun _ _ _ _ h => h)
    (fun _ _ _ h => h)
  intro file r trace h
  exact ⟨h.1, fun e p hp => Keeps.added h (hmanaged e p hp), h.2.2⟩

theorem runs_pruneEndpoint (hcomplete : discovery.complete = true)
    (hlast : last ≠ some discovery.generation) (hnew : endpoint ∉ left.map (·.1))
    (hmanaged : ∀ entry ∈ (endpoint, profile) :: left, state.managed[entry.1]? = some entry.2)
    : Runs (PruningWith discovery machines earlier last ((endpoint, profile) :: left) state)
        (pruneEndpoint discovery.hosts machines endpoint profile state)
        (fun state' file r trace =>
          PruningWith discovery machines earlier last left state' file r trace
            ∧ ∀ entry ∈ left, state'.managed[entry.1]? = some entry.2)
        Safe := by
  have hleft : ∀ entry ∈ left, state.managed[entry.1]? = some entry.2 :=
    fun entry hmem => hmanaged entry (List.mem_cons_of_mem _ hmem)
  unfold pruneEndpoint
  split
  . apply Runs.bind (J := fun _ => PruningWith discovery machines earlier last left state)
    . exact Runs.update fun _ _ _ h => ⟨h.1, h.2.1, h.2.2.erase_next⟩
    . intro _
      apply Runs.bind (runs_forget fun e p => managed_forget)
      intro _
      exact Runs.pure fun _ _ _ h => ⟨h, managed_forget_of_left hnew hleft⟩
  . next hlisted =>
    rw [Bool.not_eq_true, Bool.not_eq_false'] at hlisted
    split
    . apply Runs.bind (J := fun _ => PruningWith discovery machines earlier last left state)
      . exact Runs.update fun _ _ _ h => ⟨h.1, h.2.1, h.2.2.erase_next⟩
      . intro _
        exact Runs.pure fun _ _ _ h => ⟨h, hleft⟩
    . next habsent =>
      have hkeeps : (ReconcileEvent.checking discovery).keepsAbsence endpoint = true := by
        simp only [ReconcileEvent.keepsAbsence, hcomplete, Bool.true_and, List.all_eq_true, bne_iff_ne]
        intro host hmem heq
        exact habsent (List.any_eq_true.mpr ⟨host, hmem, by simp [heq]⟩)
      apply Runs.get_bind
      intro world
      -- The misses are those that were counted before, and the one of this snapshot.
      apply Runs.bind (J := fun _ file r trace =>
        PruningWith discovery machines earlier last left state file r trace
          ∧ r.missing[endpoint]? = some (min (world.reconciler.missing.getD endpoint 0 + 1) u32Max))
      . apply Runs.update
        rintro file r trace ⟨h, rfl, rfl, rfl⟩
        refine ⟨⟨h.1, h.2.1, h.2.2.missed hnew hlast hkeeps (Nat.min_le_left _ _)⟩, ?_⟩
        exact TreeMap.getElem?_insert_self
      . intro _
        split
        . exact Runs.pure fun _ _ _ h => ⟨h.1, hleft⟩
        . next hmisses =>
          apply Runs.bind (J := fun _ => PruningWith discovery machines earlier last left state)
          . have hremoving : ∀ file r trace,
                (PruningWith discovery machines earlier last left state file r trace
                  ∧ r.missing[endpoint]?
                    = some (min (world.reconciler.missing.getD endpoint 0 + 1) u32Max)) →
                PruningWith discovery machines earlier last left state file r
                  (.removing endpoint profile :: trace) := by
              rintro file r trace ⟨h, hcount⟩
              apply h.cons rfl rfl
              refine ⟨owned_of_pruning h (hmanaged _ List.mem_cons_self) hlisted, ?_⟩
              intro hdetermined
              rcases h.2.2.counted endpoint _ hnew hcount hdetermined with
                ⟨snapshots, hsnapshots, hle, _⟩
              exact ⟨snapshots, hsnapshots, by omega⟩
            apply Runs.remove
            . exact fun file r trace h => (hremoving file r trace h).1
            . exact fun file r trace h => (hremoving file r trace h).cons rfl rfl trivial
            . exact fun file r trace h => (hremoving file r trace h).cons rfl rfl trivial
          . intro removed
            split
            . apply Runs.bind (J := fun _ => PruningWith discovery machines earlier last left state)
              . apply Runs.update
                intro file r trace h
                exact ⟨h.1, h.2.1, h.2.2.erase endpoint⟩
              . intro _
                apply Runs.bind (J := fun _ => PruningWith discovery machines earlier last left
                  { forget state endpoint with seen := state.seen.erase endpoint })
                . exact runs_forget fun e p => managed_forget
                . intro _
                  exact Runs.pure fun _ _ _ h => ⟨h, managed_forget_of_left hnew hleft⟩
            . exact Runs.pure fun _ _ _ h => ⟨h, hleft⟩

theorem runs_pruneEndpoints (hcomplete : discovery.complete = true)
    (hlast : last ≠ some discovery.generation) (hnodup : (left.map (·.1)).Nodup)
    (hmanaged : ∀ entry ∈ left, state.managed[entry.1]? = some entry.2)
    : Runs (PruningWith discovery machines earlier last left state)
        (pruneEndpoints discovery.hosts machines left state)
        (fun _ file r trace => Accounted file trace
          ∧ Pruning discovery machines earlier last [] r.missing trace)
        Safe := by
  induction left generalizing state with
  | nil => exact Runs.pure fun _ _ _ h => ⟨h.1, h.2.2⟩
  | cons entry left ih =>
    rcases entry with ⟨endpoint, profile⟩
    rcases List.nodup_cons.mp hnodup with ⟨hnew, hnodup⟩
    apply Runs.bind (runs_pruneEndpoint hcomplete hlast hnew hmanaged)
    intro state'
    apply Runs.assume
    intro hmanaged'
    exact ih hnodup hmanaged'

theorem nodup_endpoints (managed : TreeMap String String) : (managed.toList.map (·.1)).Nodup := by
  rw [TreeMap.map_fst_toList_eq_keys]
  exact TreeMap.nodup_keys

def CountedBefore (missing : TreeMap String Nat) (last : Option String) (earlier : List ReconcileEvent)
    : Prop :=
  ∀ e misses, missing[e]? = some misses → Determined earlier → Counted e misses last earlier

def Checking (discovery : Discovery) (missing : TreeMap String Nat) (last : Option String)
    (earlier : List ReconcileEvent) (r : Reconciler) (trace : List ReconcileEvent) : Prop :=
  Polls discovery earlier trace ∧ r.missing = missing ∧ r.lastGeneration = last

theorem framed_checking : Framed (Checking discovery missing last earlier) := by
  constructor
  . rintro event r trace hwithin ⟨hpolls, hmissing, hlast⟩
    exact ⟨hpolls.cons hwithin, hmissing, hlast⟩
  . rintro r trace retry ⟨hpolls, hmissing, hlast⟩
    exact ⟨hpolls, hmissing, hlast⟩

theorem runs_poll
    : Runs
        (fun file r trace => Accounted file trace
          ∧ trace = .checking discovery :: earlier ∧ r.missing = missing ∧ r.lastGeneration = last)
        (poll discovery.hosts)
        (fun _ file r trace => Accounted file trace ∧ Checking discovery missing last earlier r trace)
        Safe := by
  apply Runs.bind (Runs.load fun _ _ _ h => h.1)
  intro state
  apply Runs.bind (J := fun _ => Keeps (Checking discovery missing last earlier) state)
  . apply Runs.machines
    . exact fun _ _ _ h => h.1.1
    . rintro machines file r trace ⟨⟨haccounted, rfl, hmissing, hlast⟩, rfl⟩
      refine ⟨haccounted.cons rfl trivial, haccounted.file, ⟨[], machines, rfl, ?_⟩, hmissing, hlast⟩
      simp
  . intro machines
    apply Runs.bind (J := fun _ => Keeps (Checking discovery missing last earlier) state)
    . exact Runs.update fun _ _ _ h => ⟨h.1, h.2.1, framed_checking.retry _ h.2.2⟩
    . intro _
      apply Runs.get_bind
      intro world
      apply Runs.mono (I := Keeps (Checking discovery missing last earlier) state) _
        (fun _ _ _ h => h.1) (fun _ _ _ _ h => h) (fun _ _ _ h => h)
      apply Runs.bind (runs_pollHosts framed_checking _ 0)
      rintro ⟨state', attempts⟩
      exact runs_notifyPending framed_checking state' _

theorem runs_prune (hcomplete : discovery.complete = true) (hlast : last ≠ some discovery.generation)
    (hbefore : CountedBefore missing last earlier)
    : Runs
        (fun file r trace => Accounted file trace ∧ Checking discovery missing last earlier r trace)
        (prune discovery.hosts)
        (fun _ file r trace => Accounted file trace
          ∧ ∃ machines, Pruning discovery machines earlier last [] r.missing trace)
        Safe := by
  apply Runs.bind (Runs.load fun _ _ _ h => h.1)
  intro state
  apply Runs.bind (J := fun machines => Keeps (fun r trace =>
    Prunes discovery machines earlier trace ∧ r.missing = missing) state)
  . apply Runs.machines
    . exact fun _ _ _ h => h.1.1
    . rintro machines file r trace ⟨⟨haccounted, hpolls, hmissing, _⟩, rfl⟩
      exact ⟨haccounted.cons rfl trivial, haccounted.file, ⟨[], trace, rfl, by simp, hpolls⟩, hmissing⟩
  . intro machines
    apply Runs.bind (J := fun _ =>
      PruningWith discovery machines earlier last state.managed.toList state)
    . apply Runs.update
      rintro file r trace ⟨haccounted, hcopy, hprunes, rfl⟩
      have hmem : ∀ {e misses}, (r.missing.filter fun id _ => state.managed.contains id)[e]?
          = some misses → r.missing[e]? = some misses ∧ e ∈ state.managed := by
        intro e misses hmisses
        rw [TreeMap.getElem?_filter', Option.filter_eq_some_iff] at hmisses
        exact ⟨hmisses.1, TreeMap.mem_iff_contains.mpr hmisses.2⟩
      refine ⟨haccounted, hcopy, hprunes, ?_, ?_⟩
      . intro e misses _ hmisses hdetermined
        rcases hprunes.keeps with ⟨new, rfl, _⟩
        apply hbefore e misses (hmem hmisses).1
        exact hdetermined.of_suffix ((List.suffix_cons _ _).trans (List.suffix_append _ _))
      . intro e misses hnot hmisses
        rw [TreeMap.map_fst_toList_eq_keys, TreeMap.mem_keys] at hnot
        exact absurd (hmem hmisses).2 hnot
    . intro _
      have hmanaged : ∀ entry ∈ state.managed.toList, state.managed[entry.1]? = some entry.2 :=
        fun entry hmem => TreeMap.mem_toList_iff_getElem?_eq_some.mp hmem
      apply (runs_pruneEndpoints hcomplete hlast (nodup_endpoints state.managed) hmanaged).mono
      . exact fun _ _ _ h => h
      . exact fun _ _ _ _ h => ⟨h.1, machines, h.2⟩
      . exact fun _ _ _ h => h

theorem runs_check (hbefore : CountedBefore missing last earlier)
    : Runs
        (fun file r trace => Accounted file trace
          ∧ trace = earlier ∧ r.missing = missing ∧ r.lastGeneration = last)
        (check discovery)
        (fun _ file r trace => Accounted file trace
          ∧ CountedBefore r.missing r.lastGeneration trace)
        Safe := by
  apply Runs.bind (J := fun _ file r trace => Accounted file trace
    ∧ trace = .checking discovery :: earlier ∧ r.missing = missing ∧ r.lastGeneration = last)
  . apply Runs.record
    rintro file r trace ⟨haccounted, rfl, hmissing, hlast⟩
    exact ⟨haccounted.cons rfl trivial, rfl, hmissing, hlast⟩
  . intro _
    apply Runs.bind runs_poll
    intro _
    have hfinish : Runs
        (fun file r trace => Accounted file trace
          ∧ CountedBefore r.missing (some discovery.generation) trace)
        (update fun reconciler => { reconciler with lastGeneration := some discovery.generation })
        (fun _ file r trace => Accounted file trace
          ∧ CountedBefore r.missing r.lastGeneration trace)
        Safe :=
      Runs.update fun _ _ _ h => h
    split
    . apply Runs.bind (J := fun _ file r trace => Accounted file trace
        ∧ CountedBefore r.missing (some discovery.generation) trace)
      . apply Runs.update
        intro file r trace h
        refine ⟨h.1, ?_⟩
        intro e misses hmisses
        simp at hmisses
      . intro _
        exact hfinish
    . next hcomplete =>
      have hcomplete : discovery.complete = true := by simpa using hcomplete
      apply Runs.get_bind
      intro world
      apply Runs.mono (I := fun file r trace =>
        (Accounted file trace ∧ Checking discovery missing last earlier r trace)
          ∧ world.reconciler.lastGeneration = last) _ _ (fun _ _ _ _ h => h) (fun _ _ _ h => h)
      . apply Runs.assume
        rintro rfl
        split
        . next hlast =>
          apply Runs.bind (J := fun _ file r trace => Accounted file trace
            ∧ CountedBefore r.missing (some discovery.generation) trace)
          . apply (runs_prune hcomplete hlast hbefore).mono (fun _ _ _ h => h) _ (fun _ _ _ h => h)
            rintro _ file r trace ⟨haccounted, machines, hpruning⟩
            exact ⟨haccounted, fun e misses => hpruning.counted e misses (by simp)⟩
          . intro _
            exact hfinish
        . next hlast =>
          rw [ne_eq, not_not] at hlast
          apply hfinish.mono _ (fun _ _ _ _ h => h) (fun _ _ _ h => h)
          rintro file r trace ⟨haccounted, hpolls, rfl, _⟩
          refine ⟨haccounted, ?_⟩
          intro e misses hmisses hdetermined
          rcases hpolls.keeps with ⟨new, rfl, hnew⟩
          have hchecking := hdetermined.of_suffix (List.suffix_append _ _)
          have hcounted := hbefore e misses hmisses hchecking.of_cons
          rw [hlast] at hcounted
          exact (hcounted.again hchecking).append fun event hmem => hnew event hmem e
      . rintro file r trace ⟨⟨haccounted, hchecking⟩, _, rfl, _⟩
        exact ⟨⟨haccounted, hchecking⟩, hchecking.2.2⟩

end

def Between : ReconcileAssertion := fun file r trace =>
  Accounted file trace ∧ CountedBefore r.missing r.lastGeneration trace

variable {world : ReconcileWorld}

theorem between_of_safe {event : ReconcileEvent} {r : Reconciler} {file : Option PluginState}
    {trace : List ReconcileEvent} (h : Accounted file trace) (hsaved : event.isSaved = false)
    (hwarranted : Warranted event trace) (hmissing : r.missing = ∅) : Between file r (event :: trace) := by
  refine ⟨h.cons hsaved hwarranted, ?_⟩
  intro e misses hmisses
  rw [hmissing] at hmisses
  simp at hmisses

theorem between_resetAbsences (h : Safe.Holds world) : Between.Holds world.resetAbsences :=
  between_of_safe h rfl trivial rfl

theorem between_restart (h : Safe.Holds world) : Between.Holds world.restart :=
  between_of_safe h rfl trivial rfl

theorem between_step {label : ReconcileLabel} (h : Between.Holds world)
    : Between.Holds (world.step label) := by
  cases label with
  | check discovery answers =>
    unfold ReconcileWorld.step
    dsimp only
    rcases hrun : (Reconciler.check discovery).run { world with answers := answers } with
      ⟨result, world'⟩
    have hpost := runs_check h.2 { world with answers := answers } world' result
      ⟨h.1, rfl, rfl, rfl⟩ hrun
    cases result with
    | ok _ => exact hpost
    | error failure =>
      cases failure with
      | error => exact between_resetAbsences hpost
      | crashed => exact between_restart hpost
  | resetAbsences => exact between_resetAbsences h.1
  | restart => exact between_restart h.1

theorem between_reachable (h : reconcilerSystem.Reachable world) : Between.Holds world := by
  apply h.invariant (P := Between.Holds)
  . rintro s rfl
    refine ⟨⟨rfl, ?_, trivial⟩, ?_⟩
    . intro e p hp
      simp [lastSaved, PluginState.default] at hp
    . intro e misses hmisses
      simp [Reconciler.new] at hmisses
  . rintro s t label hs ⟨_, rfl⟩
    exact between_step hs

end Ownership

open Ownership in
theorem removals_warranted {world : ReconcileWorld} (h : reconcilerSystem.Reachable world)
    : Reconciler.persisted world = lastSaved world.trace
        ∧ (∀ later before e p, world.trace = later ++ .removing e p :: before →
          Owned e p before
            ∧ (Determined world.trace →
              ∃ snapshots, Absent e snapshots before ∧ 3 ≤ snapshots.length))
        ∧ ∀ later before e, world.trace = later ++ .adding e :: before →
          e ∉ (lastSaved before).seen := by
  have hbetween := between_reachable h
  have hhistory := hbetween.1.warranted
  refine ⟨hbetween.1.file, ?_, ?_⟩
  . intro later before e p heq
    rw [heq] at hhistory
    rcases hhistory.warrants with ⟨howned, habsent⟩
    refine ⟨howned, fun hdetermined => habsent ?_⟩
    rw [heq] at hdetermined
    exact hdetermined.of_suffix ((List.suffix_cons _ _).trans (List.suffix_append _ _))
  . intro later before e heq
    rw [heq] at hhistory
    exact hhistory.warrants

open Ownership in
theorem reconciler_ownership {world : ReconcileWorld} (h : reconcilerSystem.Reachable world)
    (hgenerations : Determined world.trace) (hprofiles : (world.trace.filterMap addedProfile).Nodup)
    : Reconciler.persisted world = lastSaved world.trace
        ∧ (∀ later before e p, world.trace = later ++ .removing e p :: before →
          .added e p ∈ before ∧ (∀ e', .added e' p ∈ world.trace → e' = e)
            ∧ (lastSaved before).managed[e]? = some p
            ∧ (∃ discovery machines earlier, Prunes discovery machines earlier before
              ∧ ∃ machine ∈ machines, machine.id = p
                ∧ toAsciiLowercase machine.target = toAsciiLowercase (attachedTarget e))
            ∧ ∃ (snapshots : List Discovery) (recent earlier : List ReconcileEvent),
              before = recent ++ earlier ∧ 3 ≤ snapshots.length
              ∧ (snapshots.map ReconcileEvent.checking).Sublist recent
              ∧ (snapshots.IsChain fun discovery discovery' =>
                discovery.generation ≠ discovery'.generation)
              ∧ ∀ event ∈ recent, event.keepsAbsence e = true)
        ∧ ∀ later before e, world.trace = later ++ .adding e :: before →
          e ∉ (lastSaved before).seen := by
  have hbetween := between_reachable h
  have hwarranted {later before : List ReconcileEvent} {event : ReconcileEvent}
      (heq : world.trace = later ++ event :: before) : Warranted event before := by
    have hhistory := hbetween.1.warranted
    rw [heq] at hhistory
    exact hhistory.warrants
  refine ⟨hbetween.1.file, ?_, fun _ _ _ heq => hwarranted heq⟩
  intro later before e p heq
  have hsuffix : before <:+ world.trace := by
    rw [heq]
    exact (List.suffix_cons _ _).trans (List.suffix_append _ _)
  rcases hwarranted heq with ⟨howned, habsent⟩
  rcases habsent (hgenerations.of_suffix hsuffix) with
    ⟨snapshots, ⟨⟨recent, earlier, hrecent, hkeeps, hchecks⟩, hchain⟩, hlength⟩
  refine ⟨howned.added, ?_, howned.managed, howned.listed, ?_⟩
  . intro e' hadded
    exact eq_of_added hprofiles (hsuffix.subset howned.added) hadded
  . exact ⟨snapshots, recent, earlier, hrecent, hlength, hchecks, hchain, hkeeps⟩

namespace Fixture

def isRemoving (event : ReconcileEvent) : Bool :=
  match event with
  | .removing endpoint profile => endpoint == endpointId && profile == "profile"
  | _ => false

def checked (trace : List ReconcileEvent) : List Discovery :=
  trace.filterMap fun event =>
    match event with
    | .checking discovery => some discovery
    | _ => none

def capitalMachine : Machine where
  id := "profile"
  target := "ATTACHED-" ++ endpointId

def renameAndVanish : List ReconcileLabel :=
  [.check (snapshot "1" [office]) (List.replicate 9 (works []) ++ [works [capitalMachine]]),
    .check (snapshot "2" []) (List.replicate 4 (works [capitalMachine])),
    .check (snapshot "3" []) (List.replicate 4 (works [capitalMachine])),
    .check (snapshot "4" []) (List.replicate 6 (works [capitalMachine]))]

def listsTarget (event : ReconcileEvent) : Bool :=
  match event with
  | .listed _ machines => machines.any fun machine => machine.target == attachedTarget endpointId
  | _ => false

theorem mem_checked {trace : List ReconcileEvent} {discovery : Discovery}
    (h : .checking discovery ∈ trace) : discovery ∈ checked trace :=
  List.mem_filterMap.mpr ⟨_, h, rfl⟩

theorem determined_of_checked {trace : List ReconcileEvent}
    (h : ∀ discovery ∈ checked trace, ∀ discovery' ∈ checked trace,
      discovery.generation = discovery'.generation →
        discovery.hosts = discovery'.hosts ∧ discovery.complete = discovery'.complete)
    : Ownership.Determined trace :=
  fun _ _ hmem hmem' => h _ (mem_checked hmem) _ (mem_checked hmem')

theorem reachable_after (labels : List ReconcileLabel) (hvalid : ∀ label ∈ labels, label.Valid)
    : reconcilerSystem.Reachable (after labels) :=
  ⟨_, _, rfl, ReconcileWorld.run_foldl labels hvalid freshWorld⟩

theorem exists_removing {trace : List ReconcileEvent} (h : trace.any isRemoving = true)
    : ∃ later before, trace = later ++ .removing endpointId "profile" :: before := by
  rcases List.any_eq_true.mp h with ⟨event, hmem, hevent⟩
  rcases List.append_of_mem hmem with ⟨later, before, heq⟩
  cases event with
  | removing e p =>
    simp only [isRemoving, Bool.and_eq_true, beq_iff_eq] at hevent
    rcases hevent with ⟨rfl, rfl⟩
    exact ⟨later, before, heq⟩
  | _ => cases hevent

theorem office_removed
    : reconcilerSystem.Reachable (after (appearAndVanish ++ comeBack (works [])))
        ∧ Ownership.Determined (after (appearAndVanish ++ comeBack (works []))).trace
        ∧ ((after (appearAndVanish ++ comeBack (works []))).trace.filterMap
          Ownership.addedProfile).Nodup
        ∧ ∃ later before, (after (appearAndVanish ++ comeBack (works []))).trace
          = later ++ .removing endpointId "profile" :: before := by
  have hchecks : (∀ discovery ∈ checked (after (appearAndVanish ++ comeBack (works []))).trace,
      ∀ discovery' ∈ checked (after (appearAndVanish ++ comeBack (works []))).trace,
        discovery.generation = discovery'.generation →
          discovery.hosts = discovery'.hosts ∧ discovery.complete = discovery'.complete)
      ∧ ((after (appearAndVanish ++ comeBack (works []))).trace.filterMap
        Ownership.addedProfile).Nodup
      ∧ (after (appearAndVanish ++ comeBack (works []))).trace.any isRemoving = true := by
    decide +kernel
  exact ⟨reachable_after _ (by decide +kernel), determined_of_checked hchecks.1, hchecks.2.1,
    exists_removing hchecks.2.2⟩

end Fixture

theorem removals_warranted_office
    : ∃ later before snapshots,
        (Fixture.after (Fixture.appearAndVanish ++ Fixture.comeBack (Fixture.works []))).trace
            = later ++ .removing Fixture.endpointId "profile" :: before
          ∧ Ownership.Owned Fixture.endpointId "profile" before
          ∧ Ownership.Absent Fixture.endpointId snapshots before ∧ 3 ≤ snapshots.length := by
  rcases Fixture.office_removed with ⟨hreachable, hdetermined, _, later, before, heq⟩
  rcases (removals_warranted hreachable).2.1 later before _ _ heq with ⟨howned, habsent⟩
  rcases habsent hdetermined with ⟨snapshots, hsnapshots, hlength⟩
  exact ⟨later, before, snapshots, heq, howned, hsnapshots, hlength⟩

theorem reconciler_ownership_office
    : ∃ (later before recent earlier : List ReconcileEvent) (snapshots : List Discovery),
        (Fixture.after (Fixture.appearAndVanish ++ Fixture.comeBack (Fixture.works []))).trace
            = later ++ .removing Fixture.endpointId "profile" :: before
          ∧ .added Fixture.endpointId "profile" ∈ before
          ∧ before = recent ++ earlier ∧ 3 ≤ snapshots.length
          ∧ (snapshots.map ReconcileEvent.checking).Sublist recent := by
  rcases Fixture.office_removed with ⟨hreachable, hdetermined, hprofiles, later, before, heq⟩
  rcases (reconciler_ownership hreachable hdetermined hprofiles).2.1 later before _ _ heq with
    ⟨hadded, _, _, _, snapshots, recent, earlier, hrecent, hlength, hsnapshots, _⟩
  exact ⟨later, before, recent, earlier, snapshots, heq, hadded, hrecent, hlength, hsnapshots⟩

/-- The reconciler compares targets without their case, like the registry. -/
theorem removals_other_target
    : reconcilerSystem.Reachable (Fixture.after Fixture.renameAndVanish)
        ∧ Ownership.Determined (Fixture.after Fixture.renameAndVanish).trace
        ∧ ((Fixture.after Fixture.renameAndVanish).trace.filterMap Ownership.addedProfile).Nodup
        ∧ (Fixture.after Fixture.renameAndVanish).trace.any Fixture.isRemoving = true
        ∧ (Fixture.after Fixture.renameAndVanish).trace.any Fixture.listsTarget = false := by
  have hchecks : (∀ discovery ∈ Fixture.checked (Fixture.after Fixture.renameAndVanish).trace,
      ∀ discovery' ∈ Fixture.checked (Fixture.after Fixture.renameAndVanish).trace,
        discovery.generation = discovery'.generation →
          discovery.hosts = discovery'.hosts ∧ discovery.complete = discovery'.complete)
      ∧ ((Fixture.after Fixture.renameAndVanish).trace.filterMap Ownership.addedProfile).Nodup
      ∧ (Fixture.after Fixture.renameAndVanish).trace.any Fixture.isRemoving = true
      ∧ (Fixture.after Fixture.renameAndVanish).trace.any Fixture.listsTarget = false := by
    decide +kernel
  exact ⟨Fixture.reachable_after _ (by decide +kernel), Fixture.determined_of_checked hchecks.1,
    hchecks.2⟩

end Attached
