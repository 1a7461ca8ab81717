import Attached.Ssh.Export

/-!
This module contains the invariant of the exporter's event loop: which tasks exist, which brokers
run, and what is published for them.
-/

open Std

namespace Attached

namespace Broker

theorem replaceFirst_append {pattern replacement rest : List Char} (h : pattern ≠ [])
    : replaceFirst pattern replacement (pattern ++ rest) = replacement ++ rest := by
  cases pattern with
  | nil => simp at h
  | cons c pattern =>
    simp only [List.cons_append, replaceFirst]
    rw [if_pos]
    . simp
    . simp

theorem configuration_eq_ok_iff {broker : Broker} {currentExe : Except String String}
    {aliases stanza : String}
    : broker.configuration currentExe aliases = .ok stanza
        ↔
      ∃ executable settings, currentExe = .ok executable ∧ broker.settings executable = .ok settings
        ∧ stanza = hostLine aliases ++ settings := by
  have hnonempty : (hostLine broker.hostAlias).toList ≠ [] := by
    simp [hostLine]
  have htext (settings : String)
      : String.ofList (replaceFirst (hostLine broker.hostAlias).toList (hostLine aliases).toList
          (hostLine broker.hostAlias ++ settings).toList) = hostLine aliases ++ settings := by
    rw [String.toList_append, replaceFirst_append hnonempty, ← String.toList_append,
      String.ofList_toList]
  unfold configuration
  simp only [htext, Except.bind_eq_ok_iff, Except.mapError_eq_ok_iff, Except.pure_eq_ok_iff]
  constructor
  . rintro ⟨executable, hexe, settings, hsettings, hstanza⟩
    exact ⟨executable, settings, hexe, hsettings, hstanza.symm⟩
  . rintro ⟨executable, settings, hexe, hsettings, hstanza⟩
    exact ⟨executable, hexe, settings, hsettings, hstanza.symm⟩

end Broker

def RunEnd.Panics (result : RunEnd) : Prop :=
  result = .missingKey ∨ result = .unwrap

namespace Exporter

def Sound (x : Except RunEnd α) : Prop :=
  ∀ result, x = .error result → ¬result.Panics

namespace Sound

theorem ok {a : α} : Sound (.ok a : Except RunEnd α) := by
  intro result h
  simp at h

theorem error {result : RunEnd} (h : ¬result.Panics) : Sound (.error result : Except RunEnd α) := by
  intro result' heq
  injection heq with heq
  rw [← heq]
  exact h

theorem bind {x : Except RunEnd α} {f : α → Except RunEnd β} (hx : Sound x)
    (hf : ∀ a, x = .ok a → Sound (f a)) : Sound (x >>= f) := by
  intro result h
  rcases Except.bind_eq_error_iff.mp h with h | ⟨a, ha, h⟩
  . exact hx result h
  . exact hf a ha result h

theorem mapError {x : Except String α} : Sound (x.mapError RunEnd.error) := by
  cases x with
  | error message => exact error (by simp [RunEnd.Panics])
  | ok a => exact ok

theorem ensure {condition : Bool} {message : String}
    : Sound (Except.ensure condition (RunEnd.error message)) := by
  cases condition with
  | false => exact error (by simp [RunEnd.Panics])
  | true => exact ok

theorem lookup {map : TreeMap String α} {key : String} (h : key ∈ map)
    : Sound (lookup map key) := by
  rw [TreeMap.mem_iff_isSome_getElem?, Option.isSome_iff_exists] at h
  rcases h with ⟨a, ha⟩
  unfold Exporter.lookup
  rw [ha]
  exact ok

theorem mapM {f : α → Except RunEnd β} {l : List α} (h : ∀ a ∈ l, Sound (f a)) : Sound (l.mapM f) := by
  induction l with
  | nil => exact ok
  | cons a l ih =>
    rw [List.mapM_cons]
    apply bind (h a List.mem_cons_self)
    intro b _
    apply bind (ih fun a ha => h a (List.mem_cons_of_mem _ ha))
    intro bs _
    exact ok

theorem settings {broker : Broker} {executable : String} : Sound (broker.settings executable) := by
  have hword (path : String) : Sound (Broker.shellWord path) := by
    unfold Broker.shellWord
    split
    . exact error (by simp [RunEnd.Panics])
    . exact ok
  have hpath (path : String) : Sound (Broker.configPath path) := by
    unfold Broker.configPath
    split
    . exact error (by simp [RunEnd.Panics])
    . exact ok
  unfold Broker.settings
  apply bind (hword _)
  intro _ _
  apply bind (hword _)
  intro _ _
  apply bind (hpath _)
  intro _ _
  apply bind (hpath _)
  intro _ _
  exact ok

end Sound

@[simp]
theorem lookup_eq_ok_iff {map : TreeMap String α} {key : String} {a : α}
    : lookup map key = .ok a ↔ map[key]? = some a := by
  simp [lookup]

/--
What holds about the tasks at any time: the pending targets are those of the preparations, none of
them runs, and every running host has a serving task of its own.
-/
structure Tasks (exporter : Exporter) : Prop where
  preparing_nodup : (exporter.preparing.map (·.target)).Nodup
  pending_iff : ∀ target, target ∈ exporter.pending ↔ target ∈ exporter.preparing.map (·.target)
  bounded : exporter.pending.size ≤ prepareConcurrency
  not_pending : ∀ target ∈ exporter.running, target ∉ exporter.pending
  serving_nodup : (exporter.serving.map (·.generation)).Nodup
  serving_le : ∀ task ∈ exporter.serving, task.generation ≤ exporter.generation
  served : ∀ target host, exporter.running[target]? = some host →
    { target := target, generation := host.generation } ∈ exporter.serving

section

variable {exporter exporter' : Exporter}

theorem mem_running_iff {target : String}
    : target ∈ exporter.running ↔ ∃ host, exporter.running[target]? = some host := by
  rw [TreeMap.mem_iff_isSome_getElem?, Option.isSome_iff_exists]

theorem tasks_start {now : Int} : (start now).Tasks := by
  constructor
  . exact List.nodup_nil
  . intro target
    simp [start]
  . simp [start]
  . intro target hrunning
    simp [start] at hrunning
  . exact List.nodup_nil
  . intro task hmem
    simp [start] at hmem
  . intro target host hrunning
    simp [start] at hrunning

theorem Tasks.of_running (h : exporter.Tasks) {running : TreeMap String RunningHost}
    (hrunning : ∀ (target : String) (host : RunningHost), running[target]? = some host →
      ∃ host', exporter.running[target]? = some host' ∧ host'.generation = host.generation)
    : Tasks { exporter with running := running } := by
  refine { h with not_pending := ?_, served := ?_ }
  . intro target hmem
    rcases mem_running_iff.mp hmem with ⟨host, hhost⟩
    rcases hrunning target host hhost with ⟨host', hhost', _⟩
    exact h.not_pending target (mem_running_iff.mpr ⟨host', hhost'⟩)
  . intro target host hhost
    rcases hrunning target host hhost with ⟨host', hhost', hgeneration⟩
    rw [← hgeneration]
    exact h.served target host' hhost'

theorem getElem?_finishServing {task : ServeTask} {target : String} {host : RunningHost}
    : (exporter.finishServing task).running[target]? = some host
        ↔
      exporter.running[target]? = some host
        ∧ task ≠ { target := target, generation := host.generation } := by
  have hne (htarget : task.target ≠ target)
      : task ≠ { target := target, generation := host.generation } := by
    rintro rfl
    exact htarget rfl
  unfold finishServing
  dsimp only
  split
  . next hsame =>
    rw [TreeMap.getElem?_erase]
    by_cases htarget : task.target = target
    . simp only [htarget, compare_self, if_true, reduceCtorEq, false_iff, not_and, not_not]
      intro hhost
      rw [htarget, hhost] at hsame
      simp only [Option.any_some, beq_iff_eq] at hsame
      rcases task with ⟨target', generation⟩
      simp_all
    . simp [htarget, hne htarget]
  . next hother =>
    constructor
    . intro hhost
      refine ⟨hhost, ?_⟩
      rintro rfl
      simp [hhost] at hother
    . rintro ⟨hhost, _⟩
      exact hhost

theorem Tasks.finishServing (h : exporter.Tasks) (task : ServeTask)
    : (exporter.finishServing task).Tasks := by
  have hrunning {target : String} {host : RunningHost}
      (hhost : (exporter.finishServing task).running[target]? = some host)
      : exporter.running[target]? = some host :=
    (getElem?_finishServing.mp hhost).1
  refine { h with not_pending := ?_, serving_nodup := ?_, serving_le := ?_, served := ?_ }
  . intro target hmem
    rcases mem_running_iff.mp hmem with ⟨host, hhost⟩
    exact h.not_pending target (mem_running_iff.mpr ⟨host, hrunning hhost⟩)
  . exact h.serving_nodup.sublist (List.erase_sublist.map _)
  . intro task' hmem
    exact h.serving_le task' (List.mem_of_mem_erase hmem)
  . intro target host hhost
    have hne := (getElem?_finishServing.mp hhost).2
    exact (List.mem_erase_of_ne hne.symm).mpr (h.served target host (hrunning hhost))

theorem Tasks.erasePreparing (h : exporter.Tasks) {task : PrepareTask} (hmem : task ∈ exporter.preparing)
    : Tasks { exporter with
        preparing := exporter.preparing.erase task
        pending := exporter.pending.erase task.target } := by
  have hnodup : exporter.preparing.Nodup := List.Nodup.of_map _ h.preparing_nodup
  refine { h with preparing_nodup := ?_, pending_iff := ?_, bounded := ?_, not_pending := ?_ }
  . exact h.preparing_nodup.sublist (List.erase_sublist.map _)
  . intro target
    rw [TreeSet.mem_erase, h.pending_iff]
    simp only [List.mem_map, hnodup.mem_erase_iff]
    constructor
    . rintro ⟨hne, task', hmem', rfl⟩
      refine ⟨task', ⟨?_, hmem'⟩, rfl⟩
      rintro rfl
      simp at hne
    . rintro ⟨task', ⟨hne, hmem'⟩, rfl⟩
      refine ⟨?_, task', hmem', rfl⟩
      intro heq
      have htarget : task.target = task'.target := LawfulEqOrd.eq_of_compare heq
      exact hne (List.inj_on_of_nodup_map h.preparing_nodup hmem' hmem htarget.symm)
  . exact TreeSet.size_erase_le.trans h.bounded
  . intro target hrunning hpending
    exact h.not_pending target hrunning (TreeSet.mem_of_mem_erase hpending)

theorem Tasks.insertRunning (h : exporter.Tasks) {target : String} {broker : Broker}
    (hpending : target ∉ exporter.pending)
    : Tasks { exporter with
        generation := exporter.generation + 1
        running := exporter.running.insert target
          { broker := broker, generation := exporter.generation + 1 }
        serving := exporter.serving
          ++ [{ target := target, generation := exporter.generation + 1 }] } := by
  refine { h with not_pending := ?_, serving_nodup := ?_, serving_le := ?_, served := ?_ }
  . intro target' hmem
    dsimp only at hmem ⊢
    rw [TreeMap.mem_insert] at hmem
    rcases hmem with heq | hmem
    . rw [← LawfulEqOrd.eq_of_compare heq]
      exact hpending
    . exact h.not_pending target' hmem
  . simp only [List.map_append, List.map_cons, List.map_nil]
    apply List.nodup_append.mpr
    refine ⟨h.serving_nodup, List.nodup_singleton _, ?_⟩
    intro generation hmem generation' hlast
    rcases List.mem_map.mp hmem with ⟨task, htask, rfl⟩
    have hle := h.serving_le task htask
    rw [List.mem_singleton.mp hlast]
    omega
  . intro task hmem
    dsimp only at hmem ⊢
    rcases List.mem_append.mp hmem with hmem | hmem
    . exact (h.serving_le task hmem).trans (Nat.le_succ _)
    . rw [List.mem_singleton.mp hmem]
  . intro target' host hhost
    dsimp only at hhost ⊢
    rw [TreeMap.getElem?_insert] at hhost
    split at hhost
    . next heq =>
      injection hhost with hhost
      rw [← hhost, LawfulEqOrd.eq_of_compare heq]
      simp
    . exact List.mem_append_left _ (h.served target' host hhost)

theorem finishPreparing_eq_ok {refreshInterval now : Nat} {task : PrepareTask}
    {result : Except String Broker}
    (h : exporter.finishPreparing refreshInterval task result now = .ok exporter')
    : (∃ broker, result = .ok broker ∧ task.target ∈ exporter.known
        ∧ exporter' = ({ exporter with
          preparing := exporter.preparing.erase task
          pending := exporter.pending.erase task.target
          generation := exporter.generation + 1
          running := exporter.running.insert task.target
            { broker := broker, generation := exporter.generation + 1 }
          serving := exporter.serving
            ++ [{ target := task.target, generation := exporter.generation + 1 }] } : Exporter))
      ∨ ∃ retryAfter : TreeMap String Nat,
        (∀ broker, result = .ok broker → task.target ∉ exporter.known)
        ∧ (∀ message, result = .error message →
          retryAfter[task.target]? = some (now + refreshInterval))
        ∧ exporter' = ({ exporter with
          preparing := exporter.preparing.erase task
          pending := exporter.pending.erase task.target
          retryAfter := retryAfter } : Exporter) := by
  unfold finishPreparing at h
  cases result with
  | error message =>
    simp only [Except.pure_eq_ok_iff] at h
    refine Or.inr ⟨_, by simp, ?_, h.symm⟩
    intro message' _
    exact TreeMap.getElem?_insert_self
  | ok broker =>
    dsimp only at h
    split at h
    . next hknown =>
      simp only [Except.bind_eq_ok_iff, Except.okOr_eq_ok_iff, checkedSucc_eq_some,
        Except.pure_eq_ok_iff] at h
      rcases h with ⟨generation, ⟨_, rfl⟩, rfl⟩
      exact Or.inl ⟨broker, rfl, hknown, rfl⟩
    . next hunknown =>
      simp only [Except.pure_eq_ok_iff] at h
      refine Or.inr ⟨exporter.retryAfter, ?_, by simp, h.symm⟩
      intro broker' _ hmem
      exact hunknown (TreeMap.contains_iff_mem.mpr hmem)

theorem Tasks.finishPreparing (h : exporter.Tasks) {refreshInterval now : Nat} {task : PrepareTask}
    {result : Except String Broker} (hmem : task ∈ exporter.preparing)
    (hfinish : exporter.finishPreparing refreshInterval task result now = .ok exporter')
    : exporter'.Tasks := by
  have herase := h.erasePreparing hmem
  rcases finishPreparing_eq_ok hfinish with ⟨broker, _, _, rfl⟩ | ⟨retryAfter, _, _, rfl⟩
  . have hpending : task.target ∉ exporter.pending.erase task.target := by
      simp
    exact herase.insertRunning hpending
  . exact { herase with }

theorem Tasks.handle (h : exporter.Tasks) {refreshInterval : Nat} {event : ExportEvent}
    (henabled : exporter.Enabled event)
    (hhandle : exporter.handle refreshInterval event = .ok exporter') : exporter'.Tasks := by
  cases event with
  | cancelled => simp [Exporter.handle] at hhandle
  | tick now =>
    simp only [Exporter.handle] at hhandle
    split at hhandle
    . simp at hhandle
    . injection hhandle with hhandle
      subst hhandle
      exact { h with }
  | discovered snapshot hosts complete written =>
    simp only [Exporter.handle, publishDiscovery, Except.bind_eq_ok_iff, Except.pure_eq_ok_iff] at hhandle
    rcases hhandle with ⟨_, ⟨_, _, rfl⟩, rfl⟩
    exact { h with }
  | discoveryFailed written =>
    simp only [Exporter.handle, publishDiscovery, Except.bind_eq_ok_iff, Except.pure_eq_ok_iff] at hhandle
    rcases hhandle with ⟨_, _, rfl⟩
    exact { h with }
  | discoveryEnded => simp [Exporter.handle] at hhandle
  | prepared task result now => exact h.finishPreparing henabled hhandle
  | served task =>
    simp only [Exporter.handle, Except.ok.injEq] at hhandle
    subst hhandle
    exact h.finishServing task
  | taskFailed message => simp [Exporter.handle] at hhandle

theorem Tasks.running_handle (h : exporter.Tasks) {refreshInterval : Nat} {event : ExportEvent}
    (henabled : exporter.Enabled event)
    (hhandle : exporter.handle refreshInterval event = .ok exporter') {target : String}
    {host : RunningHost} (hhost : exporter.running[target]? = some host)
    (hevent : event ≠ .served { target := target, generation := host.generation })
    : exporter'.running[target]? = some host := by
  cases event with
  | cancelled => simp [Exporter.handle] at hhandle
  | tick now =>
    simp only [Exporter.handle] at hhandle
    split at hhandle
    . simp at hhandle
    . injection hhandle with hhandle
      rw [← hhandle]
      exact hhost
  | discovered snapshot hosts complete written =>
    simp only [Exporter.handle, publishDiscovery, Except.bind_eq_ok_iff, Except.pure_eq_ok_iff] at hhandle
    rcases hhandle with ⟨_, ⟨_, _, rfl⟩, rfl⟩
    exact hhost
  | discoveryFailed written =>
    simp only [Exporter.handle, publishDiscovery, Except.bind_eq_ok_iff, Except.pure_eq_ok_iff] at hhandle
    rcases hhandle with ⟨_, _, rfl⟩
    exact hhost
  | discoveryEnded => simp [Exporter.handle] at hhandle
  | prepared task result now =>
    have hpending : task.target ∈ exporter.pending :=
      (h.pending_iff _).mpr (List.mem_map_of_mem henabled)
    have hne : task.target ≠ target := by
      rintro rfl
      exact h.not_pending _ (mem_running_iff.mpr ⟨host, hhost⟩) hpending
    rcases finishPreparing_eq_ok hhandle with ⟨broker, _, _, rfl⟩ | ⟨retryAfter, _, _, rfl⟩
    . simp [TreeMap.getElem?_insert, hne, hhost]
    . exact hhost
  | served task =>
    simp only [Exporter.handle, Except.ok.injEq] at hhandle
    rw [← hhandle]
    apply getElem?_finishServing.mpr
    refine ⟨hhost, ?_⟩
    rintro rfl
    exact hevent rfl
  | taskFailed message => simp [Exporter.handle] at hhandle

theorem Tasks.not_running_handle (h : exporter.Tasks) {refreshInterval now : Nat} {task : PrepareTask}
    {result : Except String Broker} (henabled : task ∈ exporter.preparing)
    (hhandle : exporter.handle refreshInterval (.prepared task result now) = .ok exporter')
    (hunknown : task.target ∉ exporter.known) : task.target ∉ exporter'.running := by
  have hpending : task.target ∈ exporter.pending :=
    (h.pending_iff _).mpr (List.mem_map_of_mem henabled)
  rcases finishPreparing_eq_ok hhandle with ⟨broker, _, hknown, _⟩ | ⟨retryAfter, _, _, rfl⟩
  . exact absurd hknown hunknown
  . intro hrunning
    exact h.not_pending _ hrunning hpending

theorem Tasks.prepared_handle (h : exporter.Tasks) {refreshInterval now : Nat} {task : PrepareTask}
    {result : Except String Broker} (henabled : task ∈ exporter.preparing)
    (hhandle : exporter.handle refreshInterval (.prepared task result now) = .ok exporter')
    : task.target ∉ exporter'.preparing.map (·.target) ∧ exporter'.known = exporter.known
        ∧ (∀ broker, result = .ok broker → task.target ∈ exporter.known →
          exporter'.running[task.target]?
            = some { broker := broker, generation := exporter.generation + 1 })
        ∧ ∀ message, result = .error message →
          exporter'.retryAfter[task.target]? = some (now + refreshInterval) := by
  have herased : task.target ∉ (exporter.preparing.erase task).map (·.target) := by
    rw [← (h.erasePreparing henabled).pending_iff]
    simp
  rcases finishPreparing_eq_ok hhandle with ⟨broker, rfl, _, rfl⟩ | ⟨retryAfter, hok, hfailed, rfl⟩
  . refine ⟨herased, rfl, ?_, by simp⟩
    intro broker' hbroker _
    rw [← Except.ok.inj hbroker]
    exact TreeMap.getElem?_insert_self
  . exact ⟨herased, rfl, fun broker hbroker hknown => absurd hknown (hok broker hbroker), hfailed⟩

theorem sound_handle {refreshInterval : Nat} {event : ExportEvent}
    : Sound (exporter.handle refreshInterval event) := by
  have hdiscovery (hosts : List SyncedHost) (complete : Bool) (written : Except String Unit)
      : Sound (exporter.publishDiscovery hosts complete written) := by
    unfold publishDiscovery
    apply Sound.bind Sound.mapError
    intro _ _
    exact Sound.ok
  cases event with
  | cancelled => exact Sound.error (by simp [RunEnd.Panics])
  | tick now =>
    unfold Exporter.handle
    dsimp only
    split
    . exact Sound.error (by simp [RunEnd.Panics])
    . exact Sound.ok
  | discovered snapshot hosts complete written =>
    apply Sound.bind (hdiscovery _ _ _)
    intro _ _
    exact Sound.ok
  | discoveryFailed written => exact hdiscovery _ _ _
  | discoveryEnded => exact Sound.error (by simp [RunEnd.Panics])
  | prepared task result now =>
    unfold Exporter.handle finishPreparing
    dsimp only
    split
    . split
      . apply Sound.bind
        . unfold Except.okOr
          split
          . exact Sound.ok
          . exact Sound.error (by simp [RunEnd.Panics])
        . intro _ _
          exact Sound.ok
      . exact Sound.ok
    . exact Sound.ok
  | served task => exact Sound.ok
  | taskFailed message => exact Sound.error (by simp [RunEnd.Panics])

theorem getElem?_retain_known {now : String → DateTime} {target : String}
    {advertisement : Advertisement}
    : (exporter.retain now).known[target]? = some advertisement
        ↔
      exporter.known[target]? = some advertisement ∧ now target < advertisement.connection.expiresAt := by
  unfold retain
  rw [TreeMap.getElem?_filter']
  simp [Option.filter_eq_some_iff]

theorem getElem?_retain_running {now : String → DateTime} {target : String} {host : RunningHost}
    : (exporter.retain now).running[target]? = some host
        ↔
      exporter.running[target]? = some host ∧ target ∈ (exporter.retain now).known := by
  unfold retain
  rw [TreeMap.getElem?_filter']
  simp [Option.filter_eq_some_iff, TreeMap.contains_iff_mem]

theorem getElem?_retain_retryAfter {now : String → DateTime} {target : String}
    (h : target ∈ (exporter.retain now).known)
    : (exporter.retain now).retryAfter[target]? = exporter.retryAfter[target]? := by
  change (exporter.retryAfter.filter fun target _ => (exporter.retain now).known.contains target)[target]?
    = exporter.retryAfter[target]?
  rw [TreeMap.getElem?_filter']
  simp only [TreeMap.contains_iff_mem.mpr h]
  cases exporter.retryAfter[target]? <;> rfl

theorem Tasks.retain (h : exporter.Tasks) (now : String → DateTime) : (exporter.retain now).Tasks := by
  have hrunning : ∀ (target : String) (host : RunningHost),
      (exporter.retain now).running[target]? = some host →
        ∃ host', exporter.running[target]? = some host' ∧ host'.generation = host.generation := by
    intro target host hhost
    exact ⟨host, (getElem?_retain_running.mp hhost).1, rfl⟩
  exact { h.of_running hrunning with }

theorem retain_running_known {now : String → DateTime} {target : String}
    (h : target ∈ (exporter.retain now).running) : target ∈ (exporter.retain now).known := by
  rcases mem_running_iff.mp h with ⟨host, hhost⟩
  exact (getElem?_retain_running.mp hhost).2

theorem observeHosts_spec {known : Snapshot} (contended : String → Bool)
    {hosts : List (String × RunningHost)} (running : TreeMap String RunningHost)
    (hknown : ∀ entry ∈ hosts, entry.1 ∈ known)
    (hhosts : ∀ entry ∈ hosts, running[entry.1]?.map RunningHost.generation = some entry.2.generation)
    : ∃ running', observeHosts known contended hosts running = .ok running'
        ∧ ∀ target : String, running'[target]?.map RunningHost.generation
          = running[target]?.map RunningHost.generation := by
  induction hosts generalizing running with
  | nil => exact ⟨running, rfl, fun _ => rfl⟩
  | cons entry hosts ih =>
    rcases entry with ⟨target, host⟩
    have hmem := hknown _ List.mem_cons_self
    rw [TreeMap.mem_iff_isSome_getElem?, Option.isSome_iff_exists] at hmem
    rcases hmem with ⟨advertisement, hadvertisement⟩
    let broker := host.broker.observe advertisement.connection (contended target)
    have hsame : ∀ target' : String,
        (running.insert target { host with broker := broker })[target']?.map RunningHost.generation
          = running[target']?.map RunningHost.generation := by
      intro target'
      rw [TreeMap.getElem?_insert]
      split
      . next heq =>
        rw [← LawfulEqOrd.eq_of_compare heq, hhosts _ List.mem_cons_self]
        rfl
      . rfl
    rcases ih (running.insert target { host with broker := broker })
      (fun entry hentry => hknown entry (List.mem_cons_of_mem _ hentry))
      (fun entry hentry => by rw [hsame, hhosts entry (List.mem_cons_of_mem _ hentry)])
      with ⟨running', hrunning', hrest⟩
    refine ⟨running', ?_, fun target' => by rw [hrest, hsame]⟩
    simp only [observeHosts]
    rw [lookup_eq_ok_iff.mpr hadvertisement]
    exact hrunning'

theorem mem_preparationOrder {hosts : Snapshot} {retryAfter : TreeMap String Nat} {now : Nat}
    {target : String}
    : target ∈ preparationOrder hosts retryAfter now
        ↔
      target ∈ hosts ∧ ∀ retry, retryAfter[target]? = some retry → retry ≤ now := by
  unfold preparationOrder
  rw [List.mem_insertionSort, List.mem_filter, TreeMap.mem_keys, Option.all_eq_true]
  simp

theorem Tasks.insertPreparing (h : exporter.Tasks) {target : String} (connection : HostConnection)
    (retryAfter : TreeMap String Nat) (hsize : exporter.pending.size < prepareConcurrency)
    (hrunning : target ∉ exporter.running) (hpending : target ∉ exporter.pending)
    : Tasks { exporter with
        retryAfter := retryAfter
        pending := exporter.pending.insert target
        preparing := exporter.preparing ++ [{ target := target, connection := connection }] } := by
  refine { h with preparing_nodup := ?_, pending_iff := ?_, bounded := ?_, not_pending := ?_ }
  . simp only [List.map_append, List.map_cons, List.map_nil]
    apply List.nodup_append.mpr
    refine ⟨h.preparing_nodup, List.nodup_singleton _, ?_⟩
    rintro target' hmem _ hlast rfl
    rw [List.mem_singleton.mp hlast, ← h.pending_iff] at hmem
    exact hpending hmem
  . intro target'
    simp only [TreeSet.mem_insert, h.pending_iff, List.map_append, List.mem_append, List.map_cons,
      List.map_nil, List.mem_singleton, Std.compare_eq_iff_eq]
    rw [or_comm, eq_comm (a := target)]
  . exact TreeSet.size_insert_le.trans hsize
  . intro target' hmem hmem'
    rw [TreeSet.mem_insert] at hmem'
    rcases hmem' with heq | hmem'
    . rw [LawfulEqOrd.eq_of_compare heq] at hrunning
      exact hrunning hmem
    . exact h.not_pending target' hmem hmem'

theorem Tasks.prepareHosts (h : exporter.Tasks) {candidates : List String} (refreshInterval : Nat)
    (startedAt : String → Nat) (hknown : ∀ target ∈ candidates, target ∈ exporter.known)
    : ∃ (retryAfter : TreeMap String Nat) (pending : TreeSet String) (started : List PrepareTask),
        prepareHosts candidates refreshInterval startedAt exporter = .ok { exporter with
          retryAfter := retryAfter
          pending := pending
          preparing := exporter.preparing ++ started }
        ∧ Tasks { exporter with
          retryAfter := retryAfter
          pending := pending
          preparing := exporter.preparing ++ started }
        ∧ ∀ task ∈ started, task.target ∈ candidates := by
  have hnone : { exporter with preparing := exporter.preparing ++ [] } = exporter := by
    rw [List.append_nil]
  induction candidates generalizing exporter with
  | nil =>
    refine ⟨exporter.retryAfter, exporter.pending, [], ?_, ?_, by simp⟩
    . rw [hnone]
      rfl
    . rw [hnone]
      exact h
  | cons target candidates ih =>
    have hrest : ∀ target ∈ candidates, target ∈ exporter.known :=
      fun target hmem => hknown target (List.mem_cons_of_mem _ hmem)
    unfold Exporter.prepareHosts
    split
    . refine ⟨exporter.retryAfter, exporter.pending, [], ?_, ?_, by simp⟩
      . rw [hnone]
      . rw [hnone]
        exact h
    . next hsize =>
      split
      . rcases ih h hrest hnone with ⟨retryAfter, pending, started, hok, htasks, hstarted⟩
        exact ⟨retryAfter, pending, started, hok, htasks,
          fun task hmem => List.mem_cons_of_mem _ (hstarted task hmem)⟩
      . next hskip =>
        have hmem := hknown target List.mem_cons_self
        rw [TreeMap.mem_iff_isSome_getElem?, Option.isSome_iff_exists] at hmem
        rcases hmem with ⟨advertisement, hadvertisement⟩
        simp only [Bool.or_eq_true, not_or, TreeMap.contains_iff_mem, TreeSet.contains_iff_mem] at hskip
        rw [lookup_eq_ok_iff.mpr hadvertisement]
        have hinsert := h.insertPreparing advertisement.connection
          (exporter.retryAfter.insert target (startedAt target + refreshInterval))
          (Nat.lt_of_not_le hsize) hskip.1 hskip.2
        rcases ih hinsert hrest (by rw [List.append_nil]) with
          ⟨retryAfter, pending, started, hok, htasks, hstarted⟩
        rw [List.append_assoc] at hok htasks
        refine ⟨retryAfter, pending, _, hok, htasks, ?_⟩
        intro task hmem
        rcases List.mem_cons.mp hmem with rfl | hmem
        . exact List.mem_cons_self
        . exact List.mem_cons_of_mem _ (hstarted task hmem)

end

section

variable {Ticket : Type} (iroh : Iroh Ticket)

def labelCount (hosts : List Advertisement) (label : String) : Nat :=
  hosts.countP fun host => toAsciiLowercase host.label == label

def aliasesOf (hosts : Snapshot) (target : String) (host : Advertisement) : String :=
  if labelCount (Keyed.intoValues hosts) (toAsciiLowercase host.label) = 1
      ∧ iroh.endpointIdFromStr (toAsciiLowercase host.label) = none then
    attachedTarget target ++ " " ++ attachedTarget (toAsciiLowercase host.label)
  else
    attachedTarget target

theorem getD_labelCounts {hosts : List Advertisement} {counts : TreeMap String Nat} {label : String}
    : (labelCounts hosts counts).getD label 0 = counts.getD label 0 + labelCount hosts label := by
  induction hosts generalizing counts with
  | nil => simp [labelCounts, labelCount]
  | cons host hosts ih =>
    unfold labelCounts
    rw [ih, TreeMap.getD_insert]
    unfold labelCount
    rw [List.countP_cons]
    by_cases hlabel : toAsciiLowercase host.label = label
    . simp [hlabel]
      omega
    . simp [hlabel]

theorem mem_labelCounts {hosts : List Advertisement} {counts : TreeMap String Nat} {label : String}
    (h : label ∈ counts ∨ ∃ host ∈ hosts, toAsciiLowercase host.label = label)
    : label ∈ labelCounts hosts counts := by
  induction hosts generalizing counts with
  | nil => simpa [labelCounts] using h
  | cons host hosts ih =>
    unfold labelCounts
    apply ih
    rw [TreeMap.mem_insert]
    rcases h with hmem | ⟨host', hmem, hlabel⟩
    . exact Or.inl (Or.inr hmem)
    . rcases List.mem_cons.mp hmem with rfl | hmem
      . rw [hlabel]
        exact Or.inl (Or.inl compare_self)
      . exact Or.inr ⟨host', hmem, hlabel⟩

theorem aliases_eq {hosts : Snapshot} : aliases iroh hosts
    = .ok (TreeMap.ofList (hosts.toList.map fun p => (p.1, aliasesOf iroh hosts p.1 p.2)) compare) := by
  have hentry : ∀ entry ∈ hosts.toList,
      hostAliases iroh (labelCounts (Keyed.intoValues hosts) ∅) entry.1 entry.2
        = .ok (entry.1, aliasesOf iroh hosts entry.1 entry.2) := by
    rintro ⟨target, host⟩ hmem
    have hhost : host ∈ Keyed.intoValues hosts := List.mem_map_of_mem hmem
    have hlabel : toAsciiLowercase host.label ∈ labelCounts (Keyed.intoValues hosts) ∅ :=
      mem_labelCounts (Or.inr ⟨host, hhost, rfl⟩)
    have hcount : _ = some (TreeMap.getD _ _ 0) := TreeMap.getElem?_eq_some_getD hlabel
    rw [getD_labelCounts] at hcount
    rw [TreeMap.getD_emptyc, Nat.zero_add] at hcount
    unfold hostAliases aliasesOf
    dsimp only
    rw [lookup_eq_ok_iff.mpr hcount]
    change (if _ then _ else _) = _
    split <;> rfl
  unfold aliases
  exact Except.bind_eq_ok_iff.mpr ⟨_, Except.mapM_eq_ok_map hentry, rfl⟩

theorem getElem?_of_aliases {hosts : Snapshot} {names : TreeMap String String}
    (h : aliases iroh hosts = .ok names) (target : String)
    : names[target]? = hosts[target]?.map (aliasesOf iroh hosts target) := by
  rw [aliases_eq, Except.ok.injEq] at h
  rw [← h, Keyed.getElem?_ofList_map_toList]

theorem mem_of_aliases {hosts : Snapshot} {names : TreeMap String String}
    (h : aliases iroh hosts = .ok names) {target : String} : target ∈ names ↔ target ∈ hosts := by
  rw [TreeMap.mem_iff_isSome_getElem?, TreeMap.mem_iff_isSome_getElem?, getElem?_of_aliases iroh h,
    Option.isSome_map]

theorem isSome_lastWord {text : String} {c : Char} (hmem : c ∈ text.toList)
    (hc : c.isWhitespace = false) : (lastWord text).isSome = true := by
  have hdrop : text.toList.reverse.dropWhile Char.isWhitespace ≠ [] := by
    intro hnil
    have := List.dropWhile_eq_nil_iff.mp hnil c (List.mem_reverse.mpr hmem)
    simp [hc] at this
  unfold lastWord
  dsimp only
  cases hword : text.toList.reverse.dropWhile Char.isWhitespace with
  | nil => exact absurd hword hdrop
  | cons first rest =>
    have hfirst : first.isWhitespace = false := by
      have := List.head_dropWhile_not Char.isWhitespace hdrop
      simpa [hword] using this
    simp [hfirst]

theorem isSome_lastWord_aliasesOf (hosts : Snapshot) (target : String) (host : Advertisement)
    : (lastWord (aliasesOf iroh hosts target host)).isSome = true := by
  have hbegins : ∃ rest, aliasesOf iroh hosts target host = "attached-" ++ rest := by
    unfold aliasesOf attachedTarget
    split
    . exact ⟨_, by rw [String.append_assoc, String.append_assoc]⟩
    . exact ⟨_, rfl⟩
  rcases hbegins with ⟨rest, hrest⟩
  apply isSome_lastWord (c := 'a')
  . rw [hrest]
    simp
  . decide

theorem sound_announce {hosts : Snapshot} {names : TreeMap String String} {targets : List String}
    (hnames : aliases iroh hosts = .ok names) (htargets : ∀ target ∈ targets, target ∈ hosts)
    : Sound (announce names targets) := by
  apply Sound.mapM
  intro target hmem
  apply Sound.bind
  . exact Sound.lookup ((mem_of_aliases iroh hnames).mpr (htargets target hmem))
  . intro text htext
    rw [lookup_eq_ok_iff, getElem?_of_aliases iroh hnames, Option.map_eq_some_iff] at htext
    rcases htext with ⟨host, _, rfl⟩
    rcases Option.isSome_iff_exists.mp (isSome_lastWord_aliasesOf iroh hosts target host) with
      ⟨word, hword⟩
    rw [hword]
    exact Sound.ok

def Stanza (names : TreeMap String String) (currentExe : Except String String)
    (entry : String × RunningHost) (stanza : String) : Prop :=
  ∃ aliases executable settings, names[entry.1]? = some aliases ∧ currentExe = .ok executable
    ∧ entry.2.broker.settings executable = .ok settings
    ∧ stanza = Broker.hostLine aliases ++ settings

variable {names : TreeMap String String} {currentExe : Except String String}

theorem sound_configuration {hosts : List (String × RunningHost)} {text : String}
    (hnames : ∀ entry ∈ hosts, entry.1 ∈ names)
    : Sound (configuration names currentExe hosts text) := by
  induction hosts generalizing text with
  | nil => exact Sound.ok
  | cons entry hosts ih =>
    apply Sound.bind
    . exact Sound.lookup (hnames entry List.mem_cons_self)
    . intro aliases _
      apply Sound.bind
      . apply Sound.bind Sound.mapError
        intro _ _
        apply Sound.bind Sound.settings
        intro _ _
        exact Sound.ok
      . intro stanza _
        exact ih fun entry hmem => hnames entry (List.mem_cons_of_mem _ hmem)

theorem configuration_eq_ok {hosts : List (String × RunningHost)} {text text' : String}
    (h : configuration names currentExe hosts text = .ok text')
    : ∃ stanzas, List.Forall₂ (Stanza names currentExe) hosts stanzas
        ∧ text' = stanzas.foldl (· ++ ·) text := by
  induction hosts generalizing text with
  | nil =>
    simp only [configuration, Except.ok.injEq] at h
    exact ⟨[], List.Forall₂.nil, h.symm⟩
  | cons entry hosts ih =>
    simp only [configuration, Except.bind_eq_ok_iff, lookup_eq_ok_iff] at h
    rcases h with ⟨aliases, haliases, stanza, hstanza, hrest⟩
    rcases ih hrest with ⟨stanzas, hstanzas, htext⟩
    refine ⟨stanza :: stanzas, List.Forall₂.cons ?_ hstanzas, htext⟩
    rcases Broker.configuration_eq_ok_iff.mp hstanza with ⟨executable, settings, hexe, hsettings, rfl⟩
    exact ⟨aliases, executable, settings, haliases, hexe, hsettings, rfl⟩

def Publishes (exporter : Exporter) : Prop :=
  ∃ names currentExe stanzas, aliases iroh exporter.known = .ok names
    ∧ List.Forall₂ (Stanza names currentExe) exporter.running.toList stanzas
    ∧ exporter.published = String.join stanzas
    ∧ exporter.config = header ++ exporter.published ++ fallback

structure AtRest (exporter : Exporter) : Prop extends exporter.Tasks where
  running_known : ∀ target ∈ exporter.running, target ∈ exporter.known
  publishes : exporter.Publishes iroh

theorem atRest_start {now : Int} : (start now).AtRest iroh := by
  refine { tasks_start with running_known := ?_, publishes := ?_ }
  . intro target hrunning
    simp [start] at hrunning
  . refine ⟨_, .error "", [], aliases_eq iroh, ?_, rfl, ?_⟩
    . exact List.Forall₂.nil
    . simp [start]

theorem AtRest.renew {exporter : Exporter} (h : exporter.AtRest iroh) (target : String)
    (descriptors : Descriptors) : (exporter.renew target descriptors).AtRest iroh := by
  let renewed (host : RunningHost) : RunningHost :=
    { host with broker := { host.broker with descriptors := descriptors } }
  have hrunning : ∀ target' : String, (exporter.renew target descriptors).running[target']?
      = exporter.running[target']?.map fun host => if target' = target then renewed host else host := by
    intro target'
    unfold Exporter.renew
    dsimp only
    split
    . next host hhost =>
      rw [TreeMap.getElem?_insert]
      by_cases htarget : target' = target
      . rw [htarget, if_pos compare_self, hhost]
        simp [renewed]
      . rw [if_neg]
        . simp [htarget]
        . exact fun heq => htarget (LawfulEqOrd.eq_of_compare heq).symm
    . next hnone =>
      by_cases htarget : target' = target
      . rw [htarget, hnone]
        rfl
      . simp [htarget]
  have hold : ∀ (target' : String) (host : RunningHost),
      (exporter.renew target descriptors).running[target']? = some host →
        ∃ host', exporter.running[target']? = some host' ∧ host'.generation = host.generation := by
    intro target' host hhost
    rw [hrunning, Option.map_eq_some_iff] at hhost
    rcases hhost with ⟨host', hhost', rfl⟩
    refine ⟨host', hhost', ?_⟩
    split <;> rfl
  refine { h.toTasks.of_running hold with running_known := ?_, publishes := ?_ }
  . intro target' hmem
    rcases mem_running_iff.mp hmem with ⟨host, hhost⟩
    rcases hold target' host hhost with ⟨host', hhost', _⟩
    exact h.running_known target' (mem_running_iff.mpr ⟨host', hhost'⟩)
  . rcases h.publishes with ⟨names, currentExe, stanzas, hnames, hstanzas, hpublished, hconfig⟩
    refine ⟨names, currentExe, stanzas, hnames, ?_, hpublished, hconfig⟩
    rw [Keyed.toList_eq_map (f := fun target' host => if target' = target then renewed host else host)
      hrunning, List.forall₂_map_left_iff]
    apply hstanzas.imp
    rintro ⟨target', host⟩ stanza ⟨aliases, executable, settings, haliases, hexe, hsettings, hstanza⟩
    refine ⟨aliases, executable, settings, haliases, hexe, ?_, hstanza⟩
    dsimp only
    split
    . exact hsettings
    . exact hsettings

theorem handle_config {exporter exporter' : Exporter} {refreshInterval : Nat} {event : ExportEvent}
    (h : exporter.handle refreshInterval event = .ok exporter')
    : exporter'.config = exporter.config ∧ exporter'.published = exporter.published := by
  cases event with
  | cancelled => simp [Exporter.handle] at h
  | tick now =>
    simp only [Exporter.handle] at h
    split at h
    . simp at h
    . injection h with h
      rw [← h]
      exact ⟨rfl, rfl⟩
  | discovered snapshot hosts complete written =>
    simp only [Exporter.handle, publishDiscovery, Except.bind_eq_ok_iff, Except.pure_eq_ok_iff] at h
    rcases h with ⟨_, ⟨_, _, rfl⟩, rfl⟩
    exact ⟨rfl, rfl⟩
  | discoveryFailed written =>
    simp only [Exporter.handle, publishDiscovery, Except.bind_eq_ok_iff, Except.pure_eq_ok_iff] at h
    rcases h with ⟨_, _, rfl⟩
    exact ⟨rfl, rfl⟩
  | discoveryEnded => simp [Exporter.handle] at h
  | prepared task result now =>
    rcases finishPreparing_eq_ok h with ⟨broker, _, _, rfl⟩ | ⟨retryAfter, _, _, rfl⟩
    . exact ⟨rfl, rfl⟩
    . exact ⟨rfl, rfl⟩
  | served task =>
    simp only [Exporter.handle, Except.ok.injEq] at h
    rw [← h]
    exact ⟨rfl, rfl⟩
  | taskFailed message => simp [Exporter.handle] at h

variable {exporter exporter' : Exporter} {refreshInterval : Nat} {event : ExportEvent}
  {surroundings : Surroundings}

theorem sound_publish {hosts : String} {written : Except String Unit}
    : Sound (exporter.publish hosts written) := by
  apply Sound.bind Sound.ensure
  intro _ _
  apply Sound.bind Sound.mapError
  intro _ _
  exact Sound.ok

theorem sound_publishHosts (hrunning : ∀ target ∈ exporter.running, target ∈ exporter.known)
    : Sound (exporter.publishHosts iroh surroundings) := by
  unfold publishHosts
  apply Sound.bind
  . rw [aliases_eq]
    exact Sound.ok
  . intro names hnames
    have hentries : ∀ entry ∈ exporter.running.toList, entry.1 ∈ names := by
      intro entry hmem
      rw [mem_of_aliases iroh hnames]
      apply hrunning
      exact mem_running_iff.mpr ⟨entry.2, TreeMap.mem_toList_iff_getElem?_eq_some.mp hmem⟩
    apply Sound.bind (sound_configuration hentries)
    intro text _
    split
    . apply Sound.bind sound_publish
      intro published hpublished
      simp only [publish, Except.bind_eq_ok_iff, Except.pure_eq_ok_iff] at hpublished
      rcases hpublished with ⟨_, _, _, _, rfl⟩
      apply Sound.bind
      . apply sound_announce iroh hnames
        intro target hmem
        exact hrunning target (TreeMap.mem_keys.mp hmem)
      . intro _ _
        exact Sound.ok
    . exact Sound.ok

theorem announce_eq_ok {hosts : Snapshot} {names : TreeMap String String} {targets : List String}
    (hnames : aliases iroh hosts = .ok names) (htargets : ∀ target ∈ targets, target ∈ hosts)
    : ∃ words, announce names targets = .ok words := by
  have hword : ∀ target ∈ targets,
      (do
        let names ← lookup names target
        Except.okOr (lastWord names) RunEnd.unwrap)
          = .ok ((names[target]?.bind lastWord).getD "") := by
    intro target hmem
    have hmem' := htargets target hmem
    rw [TreeMap.mem_iff_isSome_getElem?, Option.isSome_iff_exists] at hmem'
    rcases hmem' with ⟨host, hhost⟩
    have hname : names[target]? = some (aliasesOf iroh hosts target host) := by
      rw [getElem?_of_aliases iroh hnames, hhost]
      rfl
    rcases Option.isSome_iff_exists.mp (isSome_lastWord_aliasesOf iroh hosts target host) with
      ⟨word, hword⟩
    rw [lookup_eq_ok_iff.mpr hname, Except.ok_bind, hname, Option.bind_some, hword]
    rfl
  exact ⟨_, Except.mapM_eq_ok_map hword⟩

theorem publishHosts_eq_ok {names : TreeMap String String} {text : String}
    (hrunning : ∀ target ∈ exporter.running, target ∈ exporter.known)
    (hnames : aliases iroh exporter.known = .ok names)
    (htext : configuration names surroundings.currentExe exporter.running.toList "" = .ok text)
    (hsize : (Bytes.ofString (header ++ text ++ fallback)).length ≤ maxConfigBytes)
    (hwritten : surroundings.written = .ok ())
    : ∃ exporter', exporter.publishHosts iroh surroundings = .ok exporter'
        ∧ exporter'.published = text ∧ exporter'.known = exporter.known := by
  have hpublish : exporter.publish text surroundings.written
      = .ok { exporter with config := header ++ text ++ fallback } := by
    unfold publish
    simp only [hwritten, Except.ensure, hsize, decide_true]
    rfl
  have htargets : ∀ target ∈ exporter.running.keys, target ∈ exporter.known :=
    fun target hmem => hrunning target (TreeMap.mem_keys.mp hmem)
  rcases announce_eq_ok iroh hnames htargets with ⟨words, hwords⟩
  unfold publishHosts
  rw [hnames, Except.ok_bind, htext, Except.ok_bind]
  split
  . rw [hpublish, Except.ok_bind, hwords]
    exact ⟨_, rfl, rfl, rfl⟩
  . next hsame => exact ⟨exporter, rfl, (not_not.mp hsame).symm, rfl⟩

theorem Tasks.publishHosts (h : exporter.Tasks)
    (hrunning : ∀ target ∈ exporter.running, target ∈ exporter.known)
    (hconfig : exporter.config = header ++ exporter.published ++ fallback)
    (hok : exporter.publishHosts iroh surroundings = .ok exporter')
    : exporter'.AtRest iroh ∧ exporter'.known = exporter.known
        ∧ exporter'.running = exporter.running ∧ exporter'.serving = exporter.serving
        ∧ exporter'.preparing = exporter.preparing := by
  simp only [Exporter.publishHosts, Except.bind_eq_ok_iff] at hok
  rcases hok with ⟨names, hnames, text, htext, hok⟩
  rcases configuration_eq_ok htext with ⟨stanzas, hstanzas, rfl⟩
  split at hok
  . simp only [publish, Except.bind_eq_ok_iff, Except.pure_eq_ok_iff] at hok
    rcases hok with ⟨_, ⟨_, _, _, _, rfl⟩, _, _, rfl⟩
    refine ⟨?_, rfl, rfl, rfl, rfl⟩
    exact { h with
      running_known := hrunning
      publishes := ⟨names, surroundings.currentExe, stanzas, hnames, hstanzas, rfl, rfl⟩ }
  . next hsame =>
    rw [Except.pure_eq_ok_iff] at hok
    subst hok
    refine ⟨?_, rfl, rfl, rfl, rfl⟩
    exact { h with
      running_known := hrunning
      publishes := ⟨names, surroundings.currentExe, stanzas, hnames, hstanzas,
        (not_not.mp hsame).symm, hconfig⟩ }

theorem Tasks.serveHosts (h : exporter.Tasks) (surroundings : Surroundings) (refreshInterval : Nat)
    (hknown : ∀ target ∈ exporter.running, target ∈ exporter.known)
    : ∃ (running : TreeMap String RunningHost) (retryAfter : TreeMap String Nat)
        (pending : TreeSet String) (started : List PrepareTask),
        observeHosts exporter.known surroundings.contended exporter.running.toList exporter.running
          = .ok running
        ∧ Exporter.prepareHosts
            (preparationOrder exporter.known exporter.retryAfter surroundings.instant)
            refreshInterval surroundings.startedAt { exporter with running := running }
          = .ok { exporter with
            running := running
            retryAfter := retryAfter
            pending := pending
            preparing := exporter.preparing ++ started }
        ∧ Tasks { exporter with
            running := running
            retryAfter := retryAfter
            pending := pending
            preparing := exporter.preparing ++ started }
        ∧ (∀ task ∈ started, task.target ∈
          preparationOrder exporter.known exporter.retryAfter surroundings.instant)
        ∧ ∀ target : String, running[target]?.map RunningHost.generation
          = exporter.running[target]?.map RunningHost.generation := by
  have hentry {entry : String × RunningHost} (hmem : entry ∈ exporter.running.toList)
      : exporter.running[entry.1]? = some entry.2 :=
    TreeMap.mem_toList_iff_getElem?_eq_some.mp hmem
  have hentries : ∀ entry ∈ exporter.running.toList, entry.1 ∈ exporter.known :=
    fun entry hmem => hknown entry.1 (mem_running_iff.mpr ⟨entry.2, hentry hmem⟩)
  rcases observeHosts_spec surroundings.contended exporter.running hentries
    (fun entry hmem => by rw [hentry hmem]; rfl) with ⟨running, hobserve, hsame⟩
  have hobserved : Tasks { exporter with running := running } := by
    apply h.of_running
    intro target host hhost
    have := hsame target
    rw [hhost, eq_comm, Option.map_some, Option.map_eq_some_iff] at this
    exact this
  have hcandidates : ∀ target ∈ preparationOrder exporter.known exporter.retryAfter
      surroundings.instant, target ∈ exporter.known :=
    fun target hmem => (mem_preparationOrder.mp hmem).1
  rcases hobserved.prepareHosts refreshInterval surroundings.startedAt hcandidates with
    ⟨retryAfter, pending, started, hprepare, hprepared, hstarted⟩
  exact ⟨running, retryAfter, pending, started, hobserve, hprepare, hprepared, hstarted, hsame⟩

structure Iterated (surroundings : Surroundings) (handled : Exporter) (started : List PrepareTask)
    (exporter : Exporter) : Prop where
  known : exporter.known = (handled.retain surroundings.now).known
  serving : exporter.serving = handled.serving
  preparing : exporter.preparing = handled.preparing ++ started
  started : ∀ task ∈ started, task.target ∈ preparationOrder exporter.known
    (handled.retain surroundings.now).retryAfter surroundings.instant
  running : ∀ target : String, exporter.running[target]?.map RunningHost.generation
    = (handled.retain surroundings.now).running[target]?.map RunningHost.generation

theorem Tasks.iterate (h : exporter.Tasks)
    (hconfig : exporter.config = header ++ exporter.published ++ fallback)
    (henabled : exporter.Enabled event)
    : Sound (exporter.iterate iroh refreshInterval event surroundings)
        ∧ ∀ exporter', exporter.iterate iroh refreshInterval event surroundings = .ok exporter' →
          exporter'.AtRest iroh
            ∧ ∃ handled started, exporter.handle refreshInterval event = .ok handled
              ∧ Iterated surroundings handled started exporter' := by
  unfold Exporter.iterate
  cases hhandle : exporter.handle refreshInterval event with
  | error result =>
    constructor
    . intro result' herror
      injection herror with herror
      rw [← herror]
      exact sound_handle result hhandle
    . intro exporter' hok
      simp at hok
  | ok handled =>
    rcases handle_config hhandle with ⟨hconfig', hpublished'⟩
    have hretained := (h.handle henabled hhandle).retain surroundings.now
    have hknown : ∀ target ∈ (handled.retain surroundings.now).running,
        target ∈ (handled.retain surroundings.now).known :=
      fun target hmem => retain_running_known hmem
    rcases hretained.serveHosts surroundings refreshInterval hknown with
      ⟨running, retryAfter, pending, started, hobserve, hprepare, hprepared, hstarted, hsame⟩
    have hrunning : ∀ target ∈ running, target ∈ (handled.retain surroundings.now).known := by
      intro target hmem
      apply hknown
      rw [TreeMap.mem_iff_isSome_getElem?] at hmem ⊢
      rw [← Option.isSome_map (f := RunningHost.generation), ← hsame, Option.isSome_map]
      exact hmem
    rw [Except.ok_bind]
    dsimp only
    rw [hobserve, Except.ok_bind, hprepare, Except.ok_bind]
    refine ⟨sound_publishHosts iroh hrunning, ?_⟩
    intro exporter' hok
    have hretainedConfig : handled.config = header ++ handled.published ++ fallback := by
      rw [hconfig', hpublished', hconfig]
    rcases hprepared.publishHosts iroh hrunning hretainedConfig hok with
      ⟨hrest, hknown', hrunning', hserving, hpreparing⟩
    refine ⟨hrest, handled, started, rfl, hknown', hserving, hpreparing, ?_, ?_⟩
    . rw [hknown']
      exact hstarted
    . intro target
      rw [hrunning', ← hsame]

section

variable {handled : Exporter} {started : List PrepareTask} {target : String}

theorem Iterated.mem_known (h : Iterated surroundings handled started exporter')
    (hmem : target ∈ exporter'.known) : target ∈ handled.known := by
  rw [h.known] at hmem
  rcases Option.isSome_iff_exists.mp (TreeMap.mem_iff_isSome_getElem?.mp hmem) with
    ⟨advertisement, hadvertisement⟩
  rw [TreeMap.mem_iff_isSome_getElem?, (getElem?_retain_known.mp hadvertisement).1]
  rfl

theorem Iterated.not_running (h : Iterated surroundings handled started exporter')
    (hnot : target ∉ handled.running) : target ∉ exporter'.running := by
  rw [TreeMap.mem_iff_isSome_getElem?, ← Option.isSome_map (f := RunningHost.generation), h.running,
    Option.isSome_map]
  intro hsome
  rcases Option.isSome_iff_exists.mp hsome with ⟨host, hhost⟩
  exact hnot (mem_running_iff.mpr ⟨host, (getElem?_retain_running.mp hhost).1⟩)

theorem Iterated.keeps_running (h : Iterated surroundings handled started exporter')
    {host : RunningHost} (hhost : handled.running[target]? = some host)
    (hmem : target ∈ exporter'.known)
    : exporter'.running[target]?.map RunningHost.generation = some host.generation := by
  rw [h.known] at hmem
  rw [h.running, getElem?_retain_running.mpr ⟨hhost, hmem⟩]
  rfl

theorem Iterated.known_of_started (h : Iterated surroundings handled started exporter')
    (hmem : target ∈ started.map (·.target)) : target ∈ exporter'.known := by
  rcases List.mem_map.mp hmem with ⟨task, htask, rfl⟩
  exact (mem_preparationOrder.mp (h.started task htask)).1

theorem Iterated.retry_le_of_started (h : Iterated surroundings handled started exporter')
    (hmem : target ∈ started.map (·.target)) {retry : Nat}
    (hretry : handled.retryAfter[target]? = some retry) : retry ≤ surroundings.instant := by
  have hknown := h.known_of_started hmem
  rcases List.mem_map.mp hmem with ⟨task, htask, rfl⟩
  apply (mem_preparationOrder.mp (h.started task htask)).2
  rw [h.known] at hknown
  rw [getElem?_retain_retryAfter hknown, hretry]

theorem Iterated.not_preparing (h : Iterated surroundings handled started exporter')
    (hnot : target ∉ handled.preparing.map (·.target))
    (hstarted : target ∉ started.map (·.target)) : target ∉ exporter'.preparing.map (·.target) := by
  rw [h.preparing, List.map_append, List.mem_append, not_or]
  exact ⟨hnot, hstarted⟩

end

theorem AtRest.step (h : exporter.AtRest iroh) {label : ExportLabel}
    (hstep : exporter.act iroh refreshInterval label = some exporter') : exporter'.AtRest iroh := by
  cases label with
  | iterate event surroundings =>
    simp only [act] at hstep
    split at hstep
    . next henabled =>
      rw [Except.toOption_eq_some_iff] at hstep
      rcases h.publishes with ⟨_, _, _, _, _, _, hconfig⟩
      exact ((h.toTasks.iterate iroh hconfig henabled).2 exporter' hstep).1
    . simp at hstep
  | renew target descriptors =>
    simp only [act, Option.some.injEq] at hstep
    rw [← hstep]
    exact h.renew iroh target descriptors

theorem atRest_reachable (h : (exportSystem iroh refreshInterval).Reachable exporter)
    : exporter.AtRest iroh := by
  apply h.invariant (P := fun exporter => exporter.AtRest iroh)
  . rintro s ⟨now, rfl⟩
    exact atRest_start iroh
  . intro s t label hs hstep
    exact hs.step iroh hstep

end

end Exporter

theorem export_run_loop {Ticket : Type} {iroh : Iroh Ticket} {refreshInterval : Nat}
    {exporter : Exporter} (h : (exportSystem iroh refreshInterval).Reachable exporter)
    : exporter.AtRest iroh
      ∧ ∀ event surroundings, exporter.Enabled event →
        Exporter.Sound (exporter.iterate iroh refreshInterval event surroundings)
        ∧ ∀ exporter', exporter.iterate iroh refreshInterval event surroundings = .ok exporter' →
          (∀ (target : String) (advertisement : Advertisement),
            exporter'.known[target]? = some advertisement →
              surroundings.now target < advertisement.connection.expiresAt)
          ∧ (∀ (target : String) (host : RunningHost), exporter.running[target]? = some host →
            event ≠ .served { target := target, generation := host.generation } →
            target ∈ exporter'.known →
              exporter'.running[target]?.map RunningHost.generation = some host.generation)
          ∧ (∀ task, event = .served task →
            task ∉ exporter'.serving
            ∧ ∀ host, exporter.running[task.target]? = some host → host.generation = task.generation →
              task.target ∉ exporter'.running)
          ∧ (∀ task result now, event = .prepared task result now → task.target ∉ exporter.known →
            task.target ∉ exporter'.running)
          ∧ (∀ task broker now, event = .prepared task (.ok broker) now →
            task.target ∉ exporter'.preparing.map (·.target)
            ∧ (task.target ∈ exporter'.known →
              exporter'.running[task.target]?.map RunningHost.generation
                = some (exporter.generation + 1)))
          ∧ ∀ task message now, event = .prepared task (.error message) now →
            surroundings.instant < now + refreshInterval →
              task.target ∉ exporter'.preparing.map (·.target) := by
  have hrest := Exporter.atRest_reachable iroh h
  refine ⟨hrest, ?_⟩
  intro event surroundings henabled
  rcases hrest.publishes with ⟨_, _, _, _, _, _, hconfig⟩
  refine ⟨(hrest.toTasks.iterate iroh hconfig henabled).1, ?_⟩
  intro exporter' hok
  rcases (hrest.toTasks.iterate iroh hconfig henabled).2 exporter' hok with
    ⟨hrest', handled, started, hhandle, hiterated⟩
  refine ⟨?_, ?_, ?_, ?_, ?_, ?_⟩
  . intro target advertisement hadvertisement
    rw [hiterated.known] at hadvertisement
    exact (Exporter.getElem?_retain_known.mp hadvertisement).2
  . intro target host hhost hevent hmem
    exact hiterated.keeps_running (hrest.toTasks.running_handle henabled hhandle hhost hevent) hmem
  . rintro task rfl
    simp only [Exporter.handle, Except.ok.injEq] at hhandle
    subst hhandle
    constructor
    . rw [hiterated.serving]
      exact (List.Nodup.of_map _ hrest.serving_nodup).not_mem_erase
    . intro host hhost hgeneration
      apply hiterated.not_running
      intro hmem
      rcases Exporter.mem_running_iff.mp hmem with ⟨host', hhost'⟩
      rcases Exporter.getElem?_finishServing.mp hhost' with ⟨hhost', hne⟩
      rw [hhost, Option.some.injEq] at hhost'
      subst hhost'
      exact hne (by rw [hgeneration])
  . rintro task result now rfl hunknown
    exact hiterated.not_running (hrest.toTasks.not_running_handle henabled hhandle hunknown)
  . rintro task broker now rfl
    rcases hrest.toTasks.prepared_handle henabled hhandle with ⟨hnot, hsame, hbroker, _⟩
    have hrunning (hmem : task.target ∈ exporter'.known)
        : exporter'.running[task.target]?.map RunningHost.generation
          = some (exporter.generation + 1) :=
      hiterated.keeps_running (hbroker broker rfl (hsame ▸ hiterated.mem_known hmem)) hmem
    refine ⟨hiterated.not_preparing hnot ?_, hrunning⟩
    -- A host that was started is known, so the broker runs, and no host is both.
    intro hstarted
    have hmem : task.target ∈ exporter'.running := by
      rw [TreeMap.mem_iff_isSome_getElem?, ← Option.isSome_map (f := RunningHost.generation),
        hrunning (hiterated.known_of_started hstarted)]
      rfl
    apply hrest'.not_pending _ hmem
    rw [hrest'.pending_iff, hiterated.preparing, List.map_append]
    exact List.mem_append_right _ hstarted
  . rintro task message now rfl hinstant
    rcases hrest.toTasks.prepared_handle henabled hhandle with ⟨hnot, _, _, hretry⟩
    refine hiterated.not_preparing hnot ?_
    intro hstarted
    have hdue := hiterated.retry_le_of_started hstarted (hretry message rfl)
    omega

namespace Fixture

def exporterHost : String :=
  "ae58ff8833241ac82d6ff7611046ed67b5072d142c588d0063e942d9a75502b6"

def hostConnection : HostConnection where
  recordId := ⟨Vector.replicate 16 1⟩
  serviceRevision := 1
  endpointTicket := ticket
  endpointIdentity := identity
  attachCapability := Vector.replicate 32 2
  attachedVersion := ⟨0, 1, 0⟩
  expiresAt := time 300
  sshEnabled := true

def hostBroker : Broker where
  descriptors := .new hostConnection
  hostAlias := attachedTarget exporterHost
  username := "account"
  runtime := "/tmp/attached-ssh-1"

def surroundings (seconds : Fin 1000) : Surroundings where
  now _ := time seconds
  contended _ := false
  instant := seconds
  startedAt _ := seconds
  currentExe := .ok "/usr/bin/attached"
  written := .ok ()

def prepareHost : PrepareTask where
  target := exporterHost
  connection := hostConnection

def exportLabels : List ExportLabel :=
  [.iterate (.discovered
    (TreeMap.ofList [(exporterHost, { label := "Office", connection := hostConnection })] compare)
    [] true (.ok ())) (surroundings 1)]

def exporter : Exporter :=
  (System.replay (Exporter.act iroh 30) (.start 0) exportLabels).getD (.start 0)

def servedExporter : Except RunEnd Exporter := do
  let exporter ← exporter.handle 30 (.prepared prepareHost (.ok hostBroker) 2)
  let exporter := exporter.retain (surroundings 2).now
  let running ← Exporter.observeHosts exporter.known (surroundings 2).contended
    exporter.running.toList exporter.running
  let candidates := Exporter.preparationOrder exporter.known exporter.retryAfter
    (surroundings 2).instant
  Exporter.prepareHosts candidates 30 (surroundings 2).startedAt { exporter with running := running }

theorem iterate_exporter
    : exporter.iterate iroh 30 (.prepared prepareHost (.ok hostBroker) 2) (surroundings 2)
      = servedExporter >>= fun exporter => exporter.publishHosts iroh (surroundings 2) := by
  unfold Exporter.iterate servedExporter
  simp only [bind_assoc]

theorem settings_hostBroker
    : ∃ settings, hostBroker.settings "/usr/bin/attached" = .ok settings
        ∧ (Bytes.ofString settings).length ≤ 2000 := by
  have hexecutable : Broker.shellWord "/usr/bin/attached" = .ok "'/usr/bin/attached'" := by
    decide +kernel
  have hproxy : Broker.shellWord (Broker.join hostBroker.runtime "proxy")
      = .ok "'/tmp/attached-ssh-1/proxy'" := by
    decide +kernel
  have hidentity : Broker.configPath (Broker.join hostBroker.runtime "identity")
      = .ok "\"/tmp/attached-ssh-1/identity\"" := by
    decide +kernel
  have hknownHosts : Broker.configPath (Broker.join hostBroker.runtime "known_hosts")
      = .ok "\"/tmp/attached-ssh-1/known_hosts\"" := by
    decide +kernel
  unfold Broker.settings
  rw [hexecutable, hproxy, hidentity, hknownHosts]
  refine ⟨_, rfl, ?_⟩
  simp only [Bytes.ofString_append, List.length_append]
  decide +kernel

def hostNames : String :=
  "attached-ae58ff8833241ac82d6ff7611046ed67b5072d142c588d0063e942d9a75502b6 attached-office"

theorem published_exporter
    : ∃ exporter' settings,
      exporter.iterate iroh 30 (.prepared prepareHost (.ok hostBroker) 2) (surroundings 2) = .ok exporter'
      ∧ exporterHost ∈ exporter'.known ∧ hostBroker.settings "/usr/bin/attached" = .ok settings
      ∧ exporter'.published = "Host " ++ hostNames ++ "\n" ++ settings := by
  have hserved : servedExporter.toOption.any (fun exporter =>
      exporter.running.toList == [(exporterHost, { broker := hostBroker, generation := 1 })]
        && exporter.known.toList
          == [(exporterHost, { label := "Office", connection := hostConnection })]) = true := by
    decide +kernel
  rcases (Option.any_eq_true _ _).mp hserved with ⟨served, hok, hlists⟩
  rw [Except.toOption_eq_some_iff] at hok
  simp only [Bool.and_eq_true, beq_iff_eq] at hlists
  rcases hlists with ⟨hrunning, hknown⟩
  have hhost : served.known[exporterHost]? = some { label := "Office", connection := hostConnection } := by
    apply TreeMap.mem_toList_iff_getElem?_eq_some.mp
    rw [hknown]
    exact List.mem_singleton_self _
  have haliases : Exporter.aliasesOf iroh served.known exporterHost
      { label := "Office", connection := hostConnection } = hostNames := by
    unfold Exporter.aliasesOf Keyed.intoValues
    rw [hknown]
    decide +kernel
  have htargets : ∀ target ∈ served.running, target ∈ served.known := by
    intro target hmem
    rcases Exporter.mem_running_iff.mp hmem with ⟨host, hhost'⟩
    rw [← TreeMap.mem_toList_iff_getElem?_eq_some, hrunning, List.mem_singleton] at hhost'
    injection hhost' with htarget
    rw [htarget, TreeMap.mem_iff_isSome_getElem?, hhost]
    rfl
  rcases settings_hostBroker with ⟨settings, hsettings, hlength⟩
  rcases show ∃ names, Exporter.aliases iroh served.known = .ok names from
    ⟨_, Exporter.aliases_eq iroh⟩ with ⟨names, hnames⟩
  have htext : Exporter.configuration names (surroundings 2).currentExe served.running.toList ""
      = .ok ("" ++ (Broker.hostLine hostNames ++ settings)) := by
    have hname := Exporter.getElem?_of_aliases iroh hnames exporterHost
    rw [hhost, Option.map_some, haliases] at hname
    have hstanza : hostBroker.configuration (surroundings 2).currentExe hostNames
        = .ok (Broker.hostLine hostNames ++ settings) :=
      Broker.configuration_eq_ok_iff.mpr ⟨"/usr/bin/attached", settings, rfl, hsettings, rfl⟩
    rw [hrunning]
    unfold Exporter.configuration
    rw [Exporter.lookup_eq_ok_iff.mpr hname, Except.ok_bind]
    dsimp only
    rw [hstanza]
    rfl
  have hsize : (Bytes.ofString (Exporter.header ++ ("" ++ (Broker.hostLine hostNames ++ settings))
      ++ Exporter.fallback)).length ≤ Exporter.maxConfigBytes := by
    have hrest : (Bytes.ofString (Exporter.header)).length + (Bytes.ofString "").length
        + (Bytes.ofString (Broker.hostLine hostNames)).length
        + (Bytes.ofString Exporter.fallback).length ≤ 1000 := by
      decide +kernel
    simp only [Bytes.ofString_append, List.length_append]
    have hmax : 3000 ≤ Exporter.maxConfigBytes := by
      decide
    omega
  rcases Exporter.publishHosts_eq_ok iroh htargets hnames htext hsize rfl with
    ⟨exporter', hpublish, hpublished, hsame⟩
  refine ⟨exporter', settings, ?_, ?_, hsettings, ?_⟩
  . rw [iterate_exporter, hok, Except.ok_bind]
    exact hpublish
  . rw [hsame, TreeMap.mem_iff_isSome_getElem?, hhost]
    rfl
  . rw [hpublished, String.empty_append]
    rfl

end Fixture

theorem export_run_loop_office
    : Fixture.exporter.AtRest Fixture.iroh ∧ Fixture.exporterHost ∈ Fixture.exporter.pending
        ∧ ∃ exporter' settings, exporter'.AtRest Fixture.iroh
          ∧ Fixture.exporter.iterate Fixture.iroh 30
            (.prepared Fixture.prepareHost (.ok Fixture.hostBroker) 2) (Fixture.surroundings 2)
              = .ok exporter'
          ∧ Fixture.exporterHost ∉ exporter'.preparing.map (·.target)
          ∧ Fixture.exporterHost ∈ exporter'.running
          ∧ Fixture.hostBroker.settings "/usr/bin/attached" = .ok settings
          ∧ exporter'.published = "Host " ++ Fixture.hostNames ++ "\n" ++ settings := by
  have hpreparing : (System.replay (Exporter.act Fixture.iroh 30) (.start 0) Fixture.exportLabels).any
      (fun exporter => exporter.preparing.contains Fixture.prepareHost
        && exporter.pending.contains Fixture.exporterHost) = true := by
    decide +kernel
  rcases (Option.any_eq_true _ _).mp hpreparing with ⟨exporter, hreplay, hcontains⟩
  have hexporter : Fixture.exporter = exporter := by
    unfold Fixture.exporter
    rw [hreplay]
    rfl
  have hreachable : (exportSystem Fixture.iroh 30).Reachable Fixture.exporter := by
    rw [hexporter]
    exact ⟨_, _, ⟨0, rfl⟩, System.Run.of_replay (fun hstep => hstep) hreplay⟩
  simp only [Bool.and_eq_true, List.contains_iff_mem, ← hexporter] at hcontains
  rcases hcontains with ⟨hprepared, hpending⟩
  have hloop := export_run_loop hreachable
  rcases Fixture.published_exporter with ⟨exporter', settings, hok, hknown, hsettings, hpublished⟩
  have henabled : Fixture.exporter.Enabled
      (.prepared Fixture.prepareHost (.ok Fixture.hostBroker) 2) :=
    hprepared
  have hstep : (exportSystem Fixture.iroh 30).step Fixture.exporter
      (.iterate (.prepared Fixture.prepareHost (.ok Fixture.hostBroker) 2) (Fixture.surroundings 2))
      exporter' := by
    change Exporter.act _ _ _ _ = _
    unfold Exporter.act
    dsimp only
    rw [if_pos henabled, hok]
    rfl
  rcases (hloop.2 _ _ henabled).2 exporter' hok with ⟨_, _, _, _, hbroker, _⟩
  rcases hbroker _ _ _ rfl with ⟨hdone, hruns⟩
  refine ⟨hloop.1, hpending, exporter', settings, (export_run_loop (hreachable.step hstep)).1, hok, hdone,
    ?_, hsettings, hpublished⟩
  rw [TreeMap.mem_iff_isSome_getElem?, ← Option.isSome_map (f := RunningHost.generation)]
  change (exporter'.running[Fixture.prepareHost.target]?.map RunningHost.generation).isSome = true
  rw [hruns hknown]
  rfl

end Attached
