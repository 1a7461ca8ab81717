import Attached.Plugin.ReconcilerLemmas

/-!
This module contains that the reconciler starves no host: every poll first attempts the hosts that it
never attempted before, as many as it may, and retries a host only after its deadline.
-/

open Std

namespace Attached

namespace Reconciler

variable {hosts candidates : List DiscoveryHost} {targets : List String} {host : DiscoveryHost}
  {world world' : ReconcileWorld} {state state' : PluginState} {n n' : Nat}

theorem run_answer_eq_ok_iff {a : Answer}
    : answer.run world = (.ok a, world')
        ↔
      ∃ rest, world.answers = a :: rest ∧ a.crashes = false ∧ world' = { world with answers := rest } := by
  cases hanswers : world.answers with
  | nil => simp [run_answer_nil hanswers]
  | cons b rest =>
    rw [run_answer_cons hanswers]
    cases hcrashes : b.crashes with
    | true =>
      simp only [if_true, Prod.mk.injEq, reduceCtorEq, false_and, List.cons.injEq, false_iff,
        not_exists]
      rintro _ ⟨⟨rfl, _⟩, hnot, _⟩
      rw [hnot] at hcrashes
      cases hcrashes
    | false =>
      simp only [Bool.false_eq_true, if_false, Prod.mk.injEq, Except.ok.injEq, List.cons.injEq]
      constructor
      . rintro ⟨rfl, rfl⟩
        exact ⟨rest, ⟨rfl, rfl⟩, hcrashes, rfl⟩
      . rintro ⟨_, ⟨rfl, rfl⟩, _, rfl⟩
        exact ⟨rfl, rfl⟩

@[simp]
theorem run_record (event : ReconcileEvent)
    : (record event).run world = (.ok (), { world with trace := event :: world.trace }) := rfl

structure Progress (world world' : ReconcileWorld) (state state' : PluginState)
    (attempts : List Attempt) : Prop where
  trace : ∃ new, world'.trace = new ++ world.trace ∧ attemptsOf new = attempts
  answers : ∃ used, world.answers = used ++ world'.answers
  retry : ∀ id, id ∉ attempts.map (·.endpoint) →
    world'.reconciler.retry[id]? = world.reconciler.retry[id]?
  tried : ∀ id ∈ attempts.map (·.endpoint), id ∈ world'.reconciler.retry
  kept : ∀ id ∈ state.seen, id ∈ state'.seen
  seen : ∀ id ∈ state'.seen, id ∈ state.seen ∨ id ∈ attempts.map (·.endpoint)
  file : ∀ id ∈ (persisted world').seen,
    id ∈ (persisted world).seen ∨ id ∈ state.seen ∨ id ∈ attempts.map (·.endpoint)

namespace Progress

variable {world'' : ReconcileWorld} {state'' : PluginState} {attempts attempts' : List Attempt}

theorem refl : Progress world world state state [] where
  trace := ⟨[], rfl, rfl⟩
  answers := ⟨[], rfl⟩
  retry := fun _ _ => rfl
  tried := nofun
  kept := fun _ h => h
  seen := fun _ h => .inl h
  file := fun _ h => .inl h

theorem mem_retry (h : Progress world world' state state' attempts) {id : String}
    : id ∈ world'.reconciler.retry
        ↔
      id ∈ world.reconciler.retry ∨ id ∈ attempts.map (·.endpoint) := by
  by_cases hattempted : id ∈ attempts.map (·.endpoint)
  . simp [hattempted, h.tried id hattempted]
  . rw [TreeMap.mem_iff_isSome_getElem?, TreeMap.mem_iff_isSome_getElem?, h.retry id hattempted]
    simp [hattempted]

theorem trans (h : Progress world world' state state' attempts)
    (h' : Progress world' world'' state' state'' attempts')
    : Progress world world'' state state'' (attempts ++ attempts') where
  trace := by
    rcases h.trace with ⟨new, htrace, hattempts⟩
    rcases h'.trace with ⟨new', htrace', hattempts'⟩
    refine ⟨new' ++ new, ?_, ?_⟩
    . rw [htrace', htrace, List.append_assoc]
    . rw [attemptsOf_append, hattempts, hattempts']
  answers := by
    rcases h.answers with ⟨used, hused⟩
    rcases h'.answers with ⟨used', hused'⟩
    exact ⟨used ++ used', by rw [hused, hused', List.append_assoc]⟩
  retry := by
    intro id hid
    simp only [List.map_append, List.mem_append, not_or] at hid
    rw [h'.retry id hid.2, h.retry id hid.1]
  tried := by
    intro id hid
    rw [List.map_append, List.mem_append] at hid
    rw [h'.mem_retry]
    rcases hid with hid | hid
    . exact .inl (h.tried id hid)
    . exact .inr hid
  kept := fun id hid => h'.kept id (h.kept id hid)
  seen := by
    intro id hid
    rw [List.map_append, List.mem_append]
    rcases h'.seen id hid with hid | hid
    . rcases h.seen id hid with hid | hid
      . exact .inl hid
      . exact .inr (.inl hid)
    . exact .inr (.inr hid)
  file := by
    intro id hid
    rw [List.map_append, List.mem_append]
    rcases h'.file id hid with hid | hid | hid
    . rcases h.file id hid with hid | hid | hid
      . exact .inl hid
      . exact .inr (.inl hid)
      . exact .inr (.inr (.inl hid))
    . rcases h.seen id hid with hid | hid
      . exact .inr (.inl hid)
      . exact .inr (.inr (.inl hid))
    . exact .inr (.inr (.inr hid))

end Progress

section

variable {attempts : List Attempt}

theorem Progress.answer {a : Answer} (h : answer.run world = (.ok a, world'))
    : Progress world world' state state [] := by
  rcases run_answer_eq_ok_iff.mp h with ⟨rest, hanswers, _, rfl⟩
  exact { refl with answers := ⟨[a], hanswers⟩ }

theorem Progress.record {event : ReconcileEvent} (h : event.attempt? = none)
    : Progress world { world with trace := event :: world.trace } state state [] where
  trace := ⟨[event], rfl, by simp [attemptsOf, h]⟩
  answers := ⟨[], rfl⟩
  retry := fun _ _ => rfl
  tried := nofun
  kept := fun _ h => h
  seen := fun _ h => .inl h
  file := fun _ h => .inl h

theorem Progress.setRetry (h : Progress world world' state state' attempts) {endpoint : String}
    (hattempted : endpoint ∈ attempts.map (·.endpoint)) (deadline failures : Nat)
    : Progress world
        { world' with
          reconciler := { world'.reconciler with
            retry := world'.reconciler.retry.insert endpoint (deadline, failures) } }
        state state' attempts :=
  { h with
    retry := by
      intro id hid
      have hne : endpoint ≠ id := by
        rintro rfl
        exact hid hattempted
      rw [TreeMap.getElem?_insert, if_neg (by rwa [LawfulEqOrd.compare_eq_iff_eq])]
      exact h.retry id hid
    tried := by
      intro id hid
      exact TreeMap.mem_insert.mpr (.inr (h.tried id hid)) }

theorem run_instant_eq_ok_iff {now : Nat}
    : instant.run world = (.ok now, world')
        ↔
      ∃ a middle, answer.run world = (.ok a, middle) ∧ a.now = now
        ∧ world' = { middle with trace := .clock now :: middle.trace } := by
  unfold instant
  simp only [Effect.run_bind_eq_ok_iff, run_record, Effect.run_pure, Prod.mk.injEq, Except.ok.injEq,
    true_and]
  constructor
  . rintro ⟨a, middle, hanswer, _, _, rfl, rfl, rfl⟩
    exact ⟨a, middle, hanswer, rfl, rfl⟩
  . rintro ⟨a, middle, hanswer, rfl, rfl⟩
    exact ⟨a, middle, hanswer, (), _, rfl, rfl, rfl⟩

theorem Progress.instant {now : Nat} (h : instant.run world = (.ok now, world'))
    : Progress world world' state state [] := by
  rcases run_instant_eq_ok_iff.mp h with ⟨a, middle, hanswer, _, rfl⟩
  exact (Progress.answer hanswer).trans (Progress.record rfl)

theorem run_save_eq_ok {saved : PluginState} (h : (save saved).run world = (.ok (), world'))
    : ∃ middle, (∃ a, answer.run world = (.ok a, middle))
        ∧ world' = { middle with file := some saved, trace := .saved saved :: middle.trace } := by
  unfold save at h
  simp only [Effect.run_bind_eq_ok_iff] at h
  rcases h with ⟨a, middle, hanswer, h⟩
  refine ⟨middle, ⟨a, hanswer⟩, ?_⟩
  split at h
  . simp at h
  . simp only [Effect.run_bind_eq_ok_iff, Effect.run_modify, Prod.mk.injEq, true_and] at h
    rcases h with ⟨_, _, rfl, h⟩
    split at h
    . simp at h
    . simp only [Effect.run_pure, Prod.mk.injEq, true_and] at h
      exact h.symm

theorem Progress.save {middle : ReconcileWorld} {saved : PluginState}
    (h : Progress world middle state state' attempts)
    (hsave : (save saved).run middle = (.ok (), world'))
    (hkept : ∀ id ∈ state'.seen, id ∈ saved.seen)
    (hseen : ∀ id ∈ saved.seen, id ∈ state'.seen ∨ id ∈ attempts.map (·.endpoint))
    : Progress world world' state saved attempts := by
  rcases run_save_eq_ok hsave with ⟨asked, ⟨a, hanswer⟩, rfl⟩
  have hasked := h.trans (Progress.answer hanswer : Progress middle asked state' state' [])
  rw [List.append_nil] at hasked
  have hsaved : ∀ id ∈ saved.seen, id ∈ state.seen ∨ id ∈ attempts.map (·.endpoint) := by
    intro id hid
    rcases hseen id hid with hid | hid
    . exact hasked.seen id hid
    . exact .inr hid
  exact {
    trace := by
      rcases hasked.trace with ⟨new, htrace, hattempts⟩
      refine ⟨.saved saved :: new, by rw [htrace]; rfl, ?_⟩
      rw [← List.singleton_append, attemptsOf_append, hattempts]
      exact List.append_nil _
    answers := hasked.answers
    retry := hasked.retry
    tried := hasked.tried
    kept := fun id hid => hkept id (hasked.kept id hid)
    seen := hsaved
    file := fun id hid => .inr (hsaved id hid)
  }

theorem Progress.add {endpoint : String} {profile : Option String}
    (h : (add endpoint).run world = (.ok profile, world'))
    : Progress world world' state state [] := by
  unfold Reconciler.add at h
  simp only [Effect.run_bind_eq_ok_iff, run_record, Prod.mk.injEq, true_and] at h
  rcases h with ⟨_, _, rfl, a, middle, hanswer, h⟩
  have hmiddle : Progress world middle state state [] :=
    (Progress.record rfl).trans (Progress.answer hanswer)
  split at h
  . simp only [Effect.run_bind_eq_ok_iff, run_record, Prod.mk.injEq, true_and, Effect.run_pure] at h
    rcases h with ⟨_, _, rfl, _, rfl⟩
    exact hmiddle.trans (Progress.record rfl)
  . simp only [Effect.run_bind_eq_ok_iff, run_record, Prod.mk.injEq, true_and, Effect.run_pure] at h
    rcases h with ⟨_, _, rfl, _, rfl⟩
    exact hmiddle.trans (Progress.record rfl)

theorem Progress.ready {endpoint : String} {result : Option Bool}
    (h : (ready endpoint).run world = (.ok result, world'))
    : Progress world world' state state [] := by
  unfold Reconciler.ready at h
  simp only [Effect.run_bind_eq_ok_iff, run_record, Prod.mk.injEq, true_and, Effect.run_pure] at h
  rcases h with ⟨a, middle, hanswer, _, _, rfl, _, rfl⟩
  exact (Progress.answer hanswer).trans (Progress.record rfl)

theorem Progress.tryAdd {result : Option (Option String)}
    (h : (tryAdd host).run world = (.ok result, world'))
    : Progress world world' state state [] := by
  unfold Reconciler.tryAdd at h
  simp only [Effect.run_bind_eq_ok_iff] at h
  rcases h with ⟨answered, middle, hready, h⟩
  have hmiddle : Progress world middle state state [] := Progress.ready hready
  rcases answered with _ | _ | _
  . simp only [Effect.run_pure, Prod.mk.injEq] at h
    rw [← h.2]
    exact hmiddle
  . simp only [Effect.run_pure, Prod.mk.injEq] at h
    rw [← h.2]
    exact hmiddle
  . simp only [Effect.run_bind_eq_ok_iff, Effect.run_pure, Prod.mk.injEq] at h
    rcases h with ⟨profile, _, hadd, _, rfl⟩
    exact hmiddle.trans (Progress.add hadd)

theorem Progress.attempting (endpoint : String) (previous : Option Nat) (now deadline failures : Nat)
    : Progress world
        { world with
          trace := .attempting endpoint previous now :: world.trace
          reconciler := { world.reconciler with
            retry := world.reconciler.retry.insert endpoint (deadline, failures) } }
        state state [⟨endpoint, previous, now⟩] where
  trace := ⟨[.attempting endpoint previous now], rfl, rfl⟩
  answers := ⟨[], rfl⟩
  retry := by
    intro id hid
    have hne : endpoint ≠ id := by
      rintro rfl
      exact hid (List.mem_singleton_self _)
    rw [TreeMap.getElem?_insert, if_neg (by rwa [LawfulEqOrd.compare_eq_iff_eq])]
  tried := by
    intro id hid
    cases List.mem_singleton.mp hid
    exact TreeMap.mem_insert_self
  kept := fun _ h => h
  seen := fun _ h => .inl h
  file := fun _ h => .inl h

structure Due (world : ReconcileWorld) (attempt : Attempt) : Prop where
  recorded : attempt.deadline = world.reconciler.retry[attempt.endpoint]?.map (·.1)
  past : ∀ deadline, attempt.deadline = some deadline → deadline ≤ attempt.startedAt

def registered (hosts : List DiscoveryHost) (targets : List String) (host : DiscoveryHost) : Bool :=
  targets.contains host.sshTarget || equivalentLabel hosts targets host

def Ordered (answers : List Answer) : Prop :=
  answers.Pairwise fun a b => a.now ≤ b.now

structure Attempts (world : ReconcileWorld) (state : PluginState) (candidates : List DiscoveryHost)
    (n : Nat) (attempts : List Attempt) : Prop where
  limit : n + attempts.length ≤ max n 4
  among : ∀ attempt ∈ attempts, attempt.endpoint ∈ candidates.map (·.endpointId)
  due : ∀ attempt ∈ attempts, Due world attempt
  untried : (∀ host ∈ candidates, host.endpointId ∉ state.seen
      ∧ host.endpointId ∉ world.reconciler.retry) →
    attempts.map (·.endpoint) = (candidates.take (4 - n)).map (·.endpointId)

section

variable {asked : ReconcileWorld} {middle : PluginState} {attempt : Attempt}

theorem Due.congr (h : Due asked attempt)
    (hretry : asked.reconciler.retry[attempt.endpoint]? = world.reconciler.retry[attempt.endpoint]?)
    : Due world attempt where
  recorded := by rw [← hretry]; exact h.recorded
  past := h.past

theorem Attempts.passed (h : Attempts asked middle candidates n attempts)
    (hpassed : host.endpointId ∈ state.seen ∨ 4 ≤ n ∨ host.endpointId ∈ world.reconciler.retry)
    (hprogress : Progress world asked state middle [])
    : Attempts world state (host :: candidates) n attempts where
  limit := h.limit
  among := fun attempt hattempt => List.mem_cons_of_mem _ (h.among attempt hattempt)
  due := fun attempt hattempt => (h.due attempt hattempt).congr (hprogress.retry _ List.not_mem_nil)
  untried := by
    intro huntried
    have hhead := huntried host List.mem_cons_self
    have hn : 4 ≤ n := by
      rcases hpassed with hseen | hn | hretry
      . exact absurd hseen hhead.1
      . exact hn
      . exact absurd hretry hhead.2
    have htail := h.limit
    have hnil : attempts = [] := List.eq_nil_of_length_eq_zero (by omega)
    rw [hnil, show 4 - n = 0 by omega]
    rfl

theorem Attempts.attempted (h : Attempts asked middle candidates (n + 1) attempts) (hn : n < 4)
    (hendpoint : attempt.endpoint = host.endpointId) (hdue : Due world attempt)
    (hother : host.endpointId ∉ candidates.map (·.endpointId))
    (hprogress : Progress world asked state middle [attempt])
    : Attempts world state (host :: candidates) n (attempt :: attempts) where
  limit := by
    have := h.limit
    rw [List.length_cons]
    omega
  among := by
    intro other hattempt
    rcases List.mem_cons.mp hattempt with rfl | hattempt
    . rw [hendpoint]
      exact List.mem_cons_self
    . exact List.mem_cons_of_mem _ (h.among other hattempt)
  due := by
    intro other hattempt
    rcases List.mem_cons.mp hattempt with rfl | hattempt
    . exact hdue
    . apply (h.due other hattempt).congr
      apply hprogress.retry
      rw [List.map_singleton, List.mem_singleton, hendpoint]
      intro heq
      rw [← heq] at hother
      exact hother (h.among other hattempt)
  untried := by
    intro huntried
    have htail : ∀ other ∈ candidates, other.endpointId ∉ middle.seen
        ∧ other.endpointId ∉ asked.reconciler.retry := by
      intro other hmem
      have hbefore := huntried other (List.mem_cons_of_mem _ hmem)
      have hne : other.endpointId ∉ [attempt].map (·.endpoint) := by
        rw [List.map_singleton, List.mem_singleton, hendpoint]
        intro heq
        rw [← heq] at hother
        exact hother (List.mem_map_of_mem hmem)
      constructor
      . intro hseen
        rcases hprogress.seen _ hseen with hseen | hattempted
        . exact hbefore.1 hseen
        . exact hne hattempted
      . rw [hprogress.mem_retry]
        rintro (hretry | hattempted)
        . exact hbefore.2 hretry
        . exact hne hattempted
    rw [List.map_cons, h.untried htail, hendpoint, show 4 - n = 4 - (n + 1) + 1 by omega,
      List.take_succ_cons, List.map_cons]

end

structure PollSucceeds (hosts : List DiscoveryHost) (before after : ReconcileWorld) : Prop where
  succeeds : ∃ answers, Ordered answers
    ∧ (poll hosts).run { before with answers := answers } = (.ok (), after)
  unregistered : ∀ machines new, after.trace = new ++ before.trace → .listed hosts machines ∈ new →
    ∀ host ∈ hosts, host.endpointId ∉ (persisted before).seen →
      registered hosts (machines.map fun machine => toAsciiLowercase machine.target) host = false

structure PollAttempts (hosts : List DiscoveryHost) (before after : ReconcileWorld)
    (attempts : List Attempt) : Prop where
  trace : ∃ new, after.trace = new ++ before.trace ∧ attemptsOf new = attempts
  limit : attempts.length ≤ 4
  due : ∀ attempt ∈ attempts, Due before attempt
  among : ∀ attempt ∈ attempts, attempt.endpoint ∈ hosts.map (·.endpointId)
  order : ∃ us ts first second, hosts.Perm (us ++ ts)
    ∧ (∀ host ∈ us, host.endpointId ∉ before.reconciler.retry)
    ∧ (∀ host ∈ ts, host.endpointId ∈ before.reconciler.retry)
    ∧ attempts = first ++ second
    ∧ first.map (·.endpoint) = (us.take 4).map (·.endpointId)
    ∧ ∀ attempt ∈ second, attempt.endpoint ∈ ts.map (·.endpointId)
  tried : ∀ host ∈ hosts, host.endpointId ∈ after.reconciler.retry
    ↔ host.endpointId ∈ before.reconciler.retry ∨ host.endpointId ∈ attempts.map (·.endpoint)
  seen : ∀ id ∈ (persisted after).seen,
    id ∈ (persisted before).seen ∨ id ∈ attempts.map (·.endpoint)

def listing (hosts : List DiscoveryHost) (machines : List Machine) (answers : List Answer)
    (before : ReconcileWorld) : ReconcileWorld where
  file := before.file
  reconciler := { before.reconciler with
    retry := before.reconciler.retry.filter fun id _ => hosts.any fun host => host.endpointId == id
  }
  answers := answers
  trace := .listed hosts machines :: before.trace

theorem Proceeds.suffix {x : Reconcile α} {a : α} (hx : Proceeds False x)
    (h : x.run world = (.ok a, world')) : world.trace <:+ world'.trace :=
  (hx world.trace world.answers world world' (.ok a) ⟨List.suffix_rfl, List.suffix_rfl⟩ h).1

inductive Polls (hosts : List DiscoveryHost) : Nat → ReconcileWorld → ReconcileWorld → Prop where
  | nil {start : ReconcileWorld} : Polls hosts 0 start start
  | snoc {k : Nat} {start world next : ReconcileWorld} : Polls hosts k start world →
    PollSucceeds hosts world next → Polls hosts (k + 1) start next

def attempted (start : ReconcileWorld) (trace : List ReconcileEvent) (endpoint : String) : Bool :=
  start.reconciler.retry.contains endpoint || (attemptsOf trace).any fun attempt =>
    attempt.endpoint == endpoint

theorem attempted_iff {start : ReconcileWorld} {trace : List ReconcileEvent} {endpoint : String}
    : attempted start trace endpoint = true
        ↔
      endpoint ∈ start.reconciler.retry ∨ endpoint ∈ (attemptsOf trace).map (·.endpoint) := by
  simp [attempted]

structure Attained (hosts : List DiscoveryHost) (k : Nat) (start world : ReconcileWorld)
    (sofar : List ReconcileEvent) : Prop where
  trace : world.trace = sofar ++ start.trace
  tried : ∀ host ∈ hosts, host.endpointId ∈ world.reconciler.retry
    ↔ attempted start sofar host.endpointId = true
  seen : ∀ host ∈ hosts, host.endpointId ∈ (persisted world).seen →
    host.endpointId ∈ world.reconciler.retry
  count : min hosts.length (4 * k) ≤ hosts.countP fun host => attempted start sofar host.endpointId

theorem attempted_append {start : ReconcileWorld} {sofar new : List ReconcileEvent} {endpoint : String}
    : attempted start (new ++ sofar) endpoint = true
        ↔
      attempted start sofar endpoint = true ∨ endpoint ∈ (attemptsOf new).map (·.endpoint) := by
  rw [attempted_iff, attempted_iff, attemptsOf_append, List.map_append, List.mem_append, or_assoc]

theorem Attained.count_next {k : Nat} {start world next : ReconcileWorld}
    {sofar new : List ReconcileEvent} (h : Attained hosts k start world sofar)
    (hattempts : PollAttempts hosts world next (attemptsOf new))
    : min hosts.length (4 * (k + 1))
        ≤
      hosts.countP fun host => attempted start (new ++ sofar) host.endpointId := by
  rcases hattempts.order with ⟨us, ts, first, second, hperm, hus, hts, hnew, hfirst, _⟩
  have htried : ∀ host ∈ us ++ ts, host.endpointId ∈ world.reconciler.retry
      ↔ attempted start sofar host.endpointId = true :=
    fun host hhost => h.tried host (hperm.mem_iff.mpr hhost)
  have hbefore : (hosts.countP fun host => attempted start sofar host.endpointId) = ts.length := by
    rw [hperm.countP_eq, List.countP_append, List.countP_eq_zero.mpr, List.countP_eq_length.mpr,
      Nat.zero_add]
    . intro host hhost
      exact (htried host (List.mem_append_right _ hhost)).mp (hts host hhost)
    . intro host hhost hattempted
      exact hus host hhost ((htried host (List.mem_append_left _ hhost)).mpr hattempted)
  have htail : (ts.countP fun host => attempted start (new ++ sofar) host.endpointId) = ts.length := by
    rw [List.countP_eq_length]
    intro host hhost
    rw [attempted_append]
    exact .inl ((htried host (List.mem_append_right _ hhost)).mp (hts host hhost))
  have hhead : ((us.take 4).countP fun host => attempted start (new ++ sofar) host.endpointId)
      = (us.take 4).length := by
    rw [List.countP_eq_length]
    intro host hhost
    rw [attempted_append, hnew, List.map_append, hfirst]
    exact .inr (List.mem_append_left _ (List.mem_map_of_mem hhost))
  have hus : (us.take 4).length
      ≤ us.countP fun host => attempted start (new ++ sofar) host.endpointId := by
    rw [← hhead]
    exact (List.take_sublist 4 us).countP_le
  have hlength := hperm.length_eq
  have hcount := h.count
  rw [hperm.countP_eq, List.countP_append, htail]
  rw [List.length_append] at hlength
  rw [List.length_take] at hus
  omega

theorem Attained.next {k : Nat} {start world next : ReconcileWorld} {sofar : List ReconcileEvent}
    (h : Attained hosts k start world sofar) (hattempts : PollAttempts hosts world next attempts)
    : ∃ new, Attained hosts (k + 1) start next (new ++ sofar) := by
  rcases hattempts.trace with ⟨new, htrace, rfl⟩
  have htried : ∀ host ∈ hosts, host.endpointId ∈ next.reconciler.retry
      ↔ attempted start (new ++ sofar) host.endpointId = true := by
    intro host hhost
    rw [hattempts.tried host hhost, h.tried host hhost, attempted_append]
  refine ⟨new, by rw [htrace, h.trace, List.append_assoc], htried, ?_, h.count_next hattempts⟩
  intro host hhost hseen
  rw [hattempts.tried host hhost]
  rcases hattempts.seen _ hseen with hseen | hattempted
  . exact .inl (h.seen host hhost hseen)
  . exact .inr hattempted

end

end Reconciler

namespace Fixture

end Fixture

end Attached
