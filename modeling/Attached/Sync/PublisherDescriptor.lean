import Attached.Library.Transition
import Attached.Sync.Catalog

/-!
This module contains the lease of a publisher that the connections to it share. A connection that
finds the lease expired fetches a new one, while it holds the lock of the lease.
-/

namespace Attached

structure Descriptors where
  current : HostConnection
  /-- A reading of the monotonic clock, in nanoseconds. -/
  lastAttempt : Option Nat
  deriving DecidableEq

inductive FetchResult where
  | timedOut
  | failed
  | fetched (next : HostConnection)
  deriving DecidableEq

namespace Descriptors

def refreshRetryDelay : Nat := 2 * 1000000000

def new (current : HostConnection) : Descriptors where
  current := current
  lastAttempt := none

def observe (state : Descriptors) (next : HostConnection) : Descriptors :=
  if next.endpointIdentity = state.current.endpointIdentity
      ∧ next.recordId = state.current.recordId
      ∧ state.current.serviceRevision ≤ next.serviceRevision
      ∧ next ≠ state.current then
    { state with current := next }
  else
    state

/--
`get_with` from the moment it has the lock up to the fetch. It returns what the call returns, `none`
if it awaits the fetch. The readings are those of `utc_now_seconds`, `elapsed` and `Instant::now`.
-/
def begin (state : Descriptors) (failed : Option HostConnection) (wall : DateTime)
    (elapsedAt startAt : Nat) : Descriptors × Option (Except String HostConnection) :=
  let live : Bool := wall < state.current.expiresAt
  if live && failed.all (· ≠ state.current) then
    (state, some (.ok state.current))
  else if state.lastAttempt.any fun attempt => elapsedAt - attempt < refreshRetryDelay then
    (state, some (do
      Except.ensure live
        "publisher descriptor expired and discovery refresh is temporarily unavailable; retry shortly"
      return state.current))
  else
    ({ state with lastAttempt := some startAt }, none)

variable {Ticket : Type} (iroh : Iroh Ticket)

def validate (current : HostConnection) (result : FetchResult) (wall : DateTime)
    : Except String HostConnection := do
  match result with
  | .timedOut => .error "publisher discovery refresh timed out"
  | .failed =>
    .error "could not refresh publisher; existing application streams are unaffected"
  | .fetched next =>
    Except.ensure (next.endpointIdentity = current.endpointIdentity
        ∧ next.recordId = current.recordId)
      "publisher identity changed during discovery refresh"
    Except.ensure (current.serviceRevision ≤ next.serviceRevision)
      "publisher record revision moved backwards"
    Except.ensure (wall < next.expiresAt) "refreshed publisher descriptor is already expired"
    let ticket ← Except.okOr (iroh.ticketFromStr next.endpointTicket) "invalid endpoint ticket"
    Except.ensure (iroh.ticketIdentity ticket = next.endpointIdentity)
      "refreshed publisher ticket identity mismatch"
    return next

def Rejected (current : HostConnection) (result : FetchResult) (wall : DateTime) : Prop :=
  match result with
  | .timedOut => True
  | .failed => True
  | .fetched next =>
    next.endpointIdentity ≠ current.endpointIdentity
      ∨ next.recordId ≠ current.recordId
      ∨ next.serviceRevision < current.serviceRevision
      ∨ next.expiresAt ≤ wall
      ∨ ∀ ticket, iroh.ticketFromStr next.endpointTicket = some ticket →
        iroh.ticketIdentity ticket ≠ next.endpointIdentity

def finish (state : Descriptors) (result : FetchResult) (wall : DateTime) (endAt : Nat)
    : Descriptors × Except String HostConnection :=
  let state := { state with lastAttempt := some endAt }
  match validate iroh state.current result wall with
  | .ok next => ({ state with current := next }, .ok next)
  | .error e => (state, .error e)

end Descriptors

inductive DescriptorCall where
  | idle
  | waiting (failed : Option HostConnection)
  | locked (failed : Option HostConnection)
  | fetching (previous : HostConnection)
  | returned (result : Except String HostConnection)
  | cancelled
  deriving DecidableEq

def DescriptorCall.holds (call : DescriptorCall) : Bool :=
  match call with
  | .locked _ => true
  | .fetching _ => true
  | _ => false

inductive DescriptorEvent (C : Type) where
  | getWith (c : C) (failed : Option HostConnection)
  | lock (c : C)
  | begin (c : C) (wall : DateTime) (elapsedAt startAt : Nat)
  | finish (c : C) (result : FetchResult) (wall : DateTime) (endAt : Nat)
  /-- The future of a call is dropped at one of its awaits. -/
  | cancel (c : C)
  /-- A call of `observe`, which may find the lock taken by another observer. -/
  | observe (next : HostConnection) (contended : Bool)
  deriving DecidableEq

def DescriptorEvent.reading (event : DescriptorEvent C) : Option (C × DateTime) :=
  match event with
  | .begin c wall _ _ => some (c, wall)
  | .finish c _ wall _ => some (c, wall)
  | _ => none

structure DescriptorCache (C : Type) where
  state : Descriptors
  holder : Option C
  calls : C → DescriptorCall
  clock : Nat
  starts : List Nat

namespace DescriptorCache

variable {C : Type} [DecidableEq C] {Ticket : Type} (iroh : Iroh Ticket)

def setCall (cache : DescriptorCache C) (c : C) (call : DescriptorCall) : DescriptorCache C :=
  { cache with calls := fun c' => if c' = c then call else cache.calls c' }

def act (cache : DescriptorCache C) (event : DescriptorEvent C) : Option (DescriptorCache C) :=
  match event with
  | .getWith c failed =>
    if cache.calls c = .idle then some (cache.setCall c (.waiting failed)) else none
  | .lock c =>
    match cache.calls c, cache.holder with
    | .waiting failed, none => some { cache.setCall c (.locked failed) with holder := some c }
    | _, _ => none
  | .begin c wall elapsedAt startAt =>
    match cache.calls c with
    | .locked failed =>
      if cache.clock ≤ elapsedAt ∧ elapsedAt ≤ startAt then
        match cache.state.begin failed wall elapsedAt startAt with
        | (_, some result) =>
          some { cache.setCall c (.returned result) with holder := none, clock := elapsedAt }
        | (state, none) =>
          some { cache.setCall c (.fetching state.current) with
            state := state
            clock := startAt
            starts := startAt :: cache.starts
          }
      else
        none
    | _ => none
  | .finish c result wall endAt =>
    match cache.calls c with
    | .fetching _ =>
      if cache.clock ≤ endAt then
        let (state, returned) := cache.state.finish iroh result wall endAt
        some { cache.setCall c (.returned returned) with
          state := state
          holder := none
          clock := endAt
        }
      else
        none
    | _ => none
  | .cancel c =>
    match cache.calls c with
    | .waiting _ => some (cache.setCall c .cancelled)
    | .fetching _ => some { cache.setCall c .cancelled with holder := none }
    | _ => none
  | .observe next contended =>
    if contended || cache.holder.isSome then
      some cache
    else
      some { cache with state := cache.state.observe next }

end DescriptorCache

/--
One lease and any number of calls, in any order of their steps.
-/
def descriptorCache {Ticket : Type} (iroh : Iroh Ticket) (C : Type) [DecidableEq C]
    : System (DescriptorCache C) (DescriptorEvent C) where
  init cache :=
    (∃ current, cache.state = .new current) ∧ cache.holder = none
      ∧ (∀ c, cache.calls c = .idle) ∧ cache.starts = []
  step cache event cache' := cache.act iroh event = some cache'

/-- Both leases are of the same publisher, and the second one is not older. -/
structure HostConnection.Renews (next current : HostConnection) : Prop where
  endpointIdentity : next.endpointIdentity = current.endpointIdentity
  recordId : next.recordId = current.recordId
  serviceRevision : current.serviceRevision ≤ next.serviceRevision

theorem HostConnection.Renews.refl (current : HostConnection) : current.Renews current :=
  ⟨rfl, rfl, Nat.le_refl _⟩

theorem HostConnection.Renews.trans {first second third : HostConnection}
    (h1 : second.Renews first) (h2 : third.Renews second) : third.Renews first where
  endpointIdentity := h2.endpointIdentity.trans h1.endpointIdentity
  recordId := h2.recordId.trans h1.recordId
  serviceRevision := Nat.le_trans h1.serviceRevision h2.serviceRevision

namespace Descriptors

variable {Ticket : Type} {iroh : Iroh Ticket} {state : Descriptors} {current next : HostConnection}
  {failed : Option HostConnection} {wall : DateTime} {elapsedAt startAt : Nat}

theorem renews_observe : (state.observe next).current.Renews state.current := by
  unfold observe
  split
  . next h => exact ⟨h.1, h.2.1, h.2.2.1⟩
  . exact HostConnection.Renews.refl _

theorem lastAttempt_observe : (state.observe next).lastAttempt = state.lastAttempt := by
  unfold observe
  split
  . rfl
  . rfl

theorem begin_eq_some {state' : Descriptors} {result : Except String HostConnection}
    (h : state.begin failed wall elapsedAt startAt = (state', some result))
    : state' = state ∧ ∀ d, result = .ok d → d = state.current ∧ wall < d.expiresAt := by
  unfold begin at h
  dsimp only at h
  split at h
  . next hlive =>
    simp only [Prod.mk.injEq, Option.some.injEq] at h
    rcases h with ⟨rfl, rfl⟩
    simp only [Bool.and_eq_true, decide_eq_true_eq] at hlive
    refine ⟨rfl, ?_⟩
    rintro d hd
    injection hd with hd
    subst hd
    exact ⟨rfl, hlive.1⟩
  . split at h
    . simp only [Prod.mk.injEq, Option.some.injEq] at h
      rcases h with ⟨rfl, rfl⟩
      refine ⟨rfl, ?_⟩
      intro d hd
      rcases Except.bind_eq_ok_iff.mp hd with ⟨_, hlive, hd⟩
      rw [Except.ensure_eq_ok_iff, decide_eq_true_eq] at hlive
      rw [Except.pure_eq_ok_iff] at hd
      subst hd
      exact ⟨rfl, hlive⟩
    . simp at h

theorem begin_eq_none {state' : Descriptors}
    (h : state.begin failed wall elapsedAt startAt = (state', none))
    : state' = { state with lastAttempt := some startAt }
        ∧ ∀ attempt ∈ state.lastAttempt, attempt + refreshRetryDelay ≤ elapsedAt := by
  unfold begin at h
  dsimp only at h
  split at h
  . simp at h
  . split at h
    . simp at h
    . next hcooled =>
      simp only [Prod.mk.injEq, and_true] at h
      refine ⟨h.symm, ?_⟩
      intro attempt hattempt
      rw [Option.mem_def] at hattempt
      rw [hattempt, Option.any_some, decide_eq_true_eq] at hcooled
      have hdelay : refreshRetryDelay = 2000000000 := rfl
      omega

theorem validate_eq_ok_iff {result : FetchResult}
    : validate iroh current result wall = .ok next
        ↔
      result = .fetched next ∧ next.Renews current ∧ wall < next.expiresAt
        ∧ ∃ ticket, iroh.ticketFromStr next.endpointTicket = some ticket
          ∧ iroh.ticketIdentity ticket = next.endpointIdentity := by
  cases result with
  | timedOut => simp [validate]
  | failed => simp [validate]
  | fetched next' =>
    simp only [validate, Except.bind_eq_ok_iff, Except.ensure_eq_ok_iff, Except.okOr_eq_ok_iff,
      Except.pure_eq_ok_iff, FetchResult.fetched.injEq, decide_eq_true_eq]
    constructor
    . rintro ⟨_, ⟨hidentity, hrecord⟩, _, hrevision, _, hlive, ticket, hticket, _, hsame, rfl⟩
      exact ⟨rfl, ⟨hidentity, hrecord, hrevision⟩, hlive, ticket, hticket, hsame⟩
    . rintro ⟨rfl, ⟨hidentity, hrecord, hrevision⟩, hlive, ticket, hticket, hsame⟩
      exact ⟨(), ⟨hidentity, hrecord⟩, (), hrevision, (), hlive, ticket, hticket, (), hsame, rfl⟩

theorem not_rejected_of_validate {result : FetchResult}
    (h : validate iroh current result wall = .ok next) : ¬Rejected iroh current result wall := by
  rcases validate_eq_ok_iff.mp h with ⟨rfl, hrenews, hlive, ticket, hticket, hsame⟩
  rintro (hidentity | hrecord | hrevision | hexpired | hother)
  . exact hidentity hrenews.endpointIdentity
  . exact hrecord hrenews.recordId
  . exact absurd hrenews.serviceRevision (Nat.not_le.mpr hrevision)
  . rw [DateTime.le_def] at hexpired
    rw [DateTime.lt_def] at hlive
    omega
  . exact hother ticket hticket hsame

end Descriptors

namespace DescriptorCache

variable {C : Type} [DecidableEq C] {Ticket : Type} {iroh : Iroh Ticket}
  {cache cache' : DescriptorCache C} {event : DescriptorEvent C}

inductive Turn (iroh : Iroh Ticket) (cache : DescriptorCache C)
    : DescriptorEvent C → DescriptorCache C → Prop
  | getWith (c : C) (failed : Option HostConnection) : cache.calls c = .idle →
      Turn iroh cache (.getWith c failed) (cache.setCall c (.waiting failed))
  | lock (c : C) (failed : Option HostConnection) : cache.calls c = .waiting failed →
      cache.holder = none →
      Turn iroh cache (.lock c) { cache.setCall c (.locked failed) with holder := some c }
  | answer (c : C) (failed : Option HostConnection) (result : Except String HostConnection)
      (wall : DateTime) (elapsedAt startAt : Nat) : cache.calls c = .locked failed →
      cache.clock ≤ elapsedAt →
      (∀ d, result = .ok d → d = cache.state.current ∧ wall < d.expiresAt) →
      Turn iroh cache (.begin c wall elapsedAt startAt)
        { cache.setCall c (.returned result) with holder := none, clock := elapsedAt }
  | fetch (c : C) (failed : Option HostConnection) (wall : DateTime) (elapsedAt startAt : Nat) :
      cache.calls c = .locked failed → cache.clock ≤ startAt →
      (∀ attempt ∈ cache.state.lastAttempt, attempt + Descriptors.refreshRetryDelay ≤ startAt) →
      Turn iroh cache (.begin c wall elapsedAt startAt)
        { cache.setCall c (.fetching cache.state.current) with
          state := { cache.state with lastAttempt := some startAt }
          clock := startAt
          starts := startAt :: cache.starts }
  | keep (c : C) (previous : HostConnection) (result : FetchResult) (wall : DateTime)
      (endAt : Nat) (e : String) : cache.calls c = .fetching previous → cache.clock ≤ endAt →
      Descriptors.validate iroh cache.state.current result wall = .error e →
      Turn iroh cache (.finish c result wall endAt)
        { cache.setCall c (.returned (.error e)) with
          state := { cache.state with lastAttempt := some endAt }
          holder := none
          clock := endAt }
  | renew (c : C) (previous next : HostConnection) (result : FetchResult) (wall : DateTime)
      (endAt : Nat) : cache.calls c = .fetching previous → cache.clock ≤ endAt →
      Descriptors.validate iroh cache.state.current result wall = .ok next →
      Turn iroh cache (.finish c result wall endAt)
        { cache.setCall c (.returned (.ok next)) with
          state := { current := next, lastAttempt := some endAt }
          holder := none
          clock := endAt }
  | cancelWaiting (c : C) (failed : Option HostConnection) : cache.calls c = .waiting failed →
      Turn iroh cache (.cancel c) (cache.setCall c .cancelled)
  | cancelFetching (c : C) (previous : HostConnection) : cache.calls c = .fetching previous →
      Turn iroh cache (.cancel c) { cache.setCall c .cancelled with holder := none }
  | contended (next : HostConnection) (contended : Bool) :
      Turn iroh cache (.observe next contended) cache
  | observe (next : HostConnection) (contended : Bool) : cache.holder = none →
      Turn iroh cache (.observe next contended) { cache with state := cache.state.observe next }

theorem act_spec (h : cache.act iroh event = some cache') : cache.Turn iroh event cache' := by
  cases event with
  | getWith c failed =>
    simp only [act] at h
    split at h
    . next hcall =>
      injection h with h
      subst h
      exact Turn.getWith c failed hcall
    . simp at h
  | lock c =>
    simp only [act] at h
    split at h
    . next failed hcall hfree =>
      injection h with h
      subst h
      exact Turn.lock c failed hcall hfree
    . simp at h
  | begin c wall elapsedAt startAt =>
    simp only [act] at h
    split at h
    . next failed hcall =>
      split at h
      . next hclock =>
        split at h
        . next state result hbegin =>
          injection h with h
          subst h
          exact Turn.answer c failed result wall elapsedAt startAt hcall hclock.1
            (Descriptors.begin_eq_some hbegin).2
        . next state hbegin =>
          rcases Descriptors.begin_eq_none hbegin with ⟨rfl, hcooled⟩
          injection h with h
          subst h
          apply Turn.fetch c failed wall elapsedAt startAt hcall (by omega)
          intro attempt hattempt
          have := hcooled attempt hattempt
          omega
      . simp at h
    . simp at h
  | finish c result wall endAt =>
    simp only [act] at h
    split at h
    . next previous hcall =>
      split at h
      . next hclock =>
        injection h with h
        subst h
        unfold Descriptors.finish
        dsimp only
        cases hvalid : Descriptors.validate iroh cache.state.current result wall with
        | ok next => exact Turn.renew c previous next result wall endAt hcall hclock hvalid
        | error e => exact Turn.keep c previous result wall endAt e hcall hclock hvalid
      . simp at h
    . simp at h
  | cancel c =>
    simp only [act] at h
    split at h
    . next failed hcall =>
      injection h with h
      subst h
      exact Turn.cancelWaiting c failed hcall
    . next previous hcall =>
      injection h with h
      subst h
      exact Turn.cancelFetching c previous hcall
    . simp at h
  | observe next contended =>
    simp only [act] at h
    split at h
    . injection h with h
      subst h
      exact Turn.contended next contended
    . next hfree =>
      injection h with h
      subst h
      simp only [Bool.or_eq_true, not_or, Bool.not_eq_true, Option.isSome_eq_false_iff,
        Option.isNone_iff_eq_none] at hfree
      exact Turn.observe next contended hfree.2

structure Consistent (cache : DescriptorCache C) : Prop where
  holder_iff : ∀ c, cache.holder = some c ↔ (cache.calls c).holds = true
  previous : ∀ {c : C} {previous : HostConnection}, cache.calls c = .fetching previous →
    cache.state.current = previous
  attempted : ∀ {attempt : Nat}, cache.state.lastAttempt = some attempt → attempt ≤ cache.clock
  recorded : ∀ {start : Nat}, start ∈ cache.starts →
    ∃ attempt, cache.state.lastAttempt = some attempt ∧ start ≤ attempt
  spaced : cache.starts.Pairwise fun later earlier =>
    earlier + Descriptors.refreshRetryDelay ≤ later

@[simp]
theorem calls_setCall {c c' : C} {call : DescriptorCall}
    : (cache.setCall c call).calls c' = if c' = c then call else cache.calls c' := rfl

@[simp]
theorem starts_setCall {c : C} {call : DescriptorCall}
    : (cache.setCall c call).starts = cache.starts := rfl

@[simp]
theorem state_setCall {c : C} {call : DescriptorCall}
    : (cache.setCall c call).state = cache.state := rfl

@[simp]
theorem holder_setCall {c : C} {call : DescriptorCall}
    : (cache.setCall c call).holder = cache.holder := rfl

@[simp]
theorem clock_setCall {c : C} {call : DescriptorCall}
    : (cache.setCall c call).clock = cache.clock := rfl

theorem consistent_act (hcache : cache.Consistent) (h : cache.act iroh event = some cache')
    : cache'.Consistent := by
  rcases hcache with ⟨hholder, hprevious, hattempted, hrecorded, hspaced⟩
  cases act_spec h with
  | getWith c failed hcall =>
    refine ⟨?_, ?_, hattempted, hrecorded, hspaced⟩
    . grind [DescriptorCall.holds, calls_setCall, holder_setCall]
    . grind [calls_setCall, state_setCall]
  | lock c failed hcall hfree =>
    refine ⟨?_, ?_, hattempted, hrecorded, hspaced⟩
    . grind [DescriptorCall.holds, calls_setCall]
    . grind [calls_setCall, state_setCall]
  | answer c failed result wall elapsedAt startAt hcall hclock hresult =>
    refine ⟨?_, ?_, ?_, hrecorded, hspaced⟩
    . grind [DescriptorCall.holds, calls_setCall]
    . grind [calls_setCall, state_setCall]
    . grind [state_setCall]
  | fetch c failed wall elapsedAt startAt hcall hclock hcooled =>
    refine ⟨?_, ?_, ?_, ?_, ?_⟩
    . grind [DescriptorCall.holds, calls_setCall, holder_setCall]
    . grind [DescriptorCall.holds, calls_setCall]
    . grind
    . intro start hstart
      rcases List.mem_cons.mp hstart with rfl | hstart
      . exact ⟨_, rfl, Nat.le_refl _⟩
      . rcases hrecorded hstart with ⟨attempt, hattempt, hle⟩
        have := hattempted hattempt
        exact ⟨startAt, rfl, by omega⟩
    . refine List.pairwise_cons.mpr ⟨?_, hspaced⟩
      intro start hstart
      rcases hrecorded hstart with ⟨attempt, hattempt, hle⟩
      have := hcooled attempt hattempt
      omega
  | keep c previous result wall endAt e hcall hclock hvalid =>
    refine ⟨?_, ?_, ?_, ?_, hspaced⟩
    . grind [DescriptorCall.holds, calls_setCall]
    . grind [DescriptorCall.holds, calls_setCall]
    . grind
    . intro start hstart
      rcases hrecorded hstart with ⟨attempt, hattempt, hle⟩
      have := hattempted hattempt
      exact ⟨endAt, rfl, by omega⟩
  | renew c previous next result wall endAt hcall hclock hvalid =>
    refine ⟨?_, ?_, ?_, ?_, hspaced⟩
    . grind [DescriptorCall.holds, calls_setCall]
    . grind [DescriptorCall.holds, calls_setCall]
    . grind
    . intro start hstart
      rcases hrecorded hstart with ⟨attempt, hattempt, hle⟩
      have := hattempted hattempt
      exact ⟨endAt, rfl, by omega⟩
  | cancelWaiting c failed hcall =>
    refine ⟨?_, ?_, hattempted, hrecorded, hspaced⟩
    . grind [DescriptorCall.holds, calls_setCall, holder_setCall]
    . grind [calls_setCall, state_setCall]
  | cancelFetching c previous hcall =>
    refine ⟨?_, ?_, hattempted, hrecorded, hspaced⟩
    . grind [DescriptorCall.holds, calls_setCall]
    . grind [calls_setCall, state_setCall]
  | contended next contended => exact ⟨hholder, hprevious, hattempted, hrecorded, hspaced⟩
  | observe next contended hfree =>
    refine ⟨hholder, ?_, ?_, ?_, hspaced⟩
    . grind [DescriptorCall.holds]
    . intro attempt hattempt
      rw [Descriptors.lastAttempt_observe] at hattempt
      exact hattempted hattempt
    . intro start hstart
      rw [Descriptors.lastAttempt_observe]
      exact hrecorded hstart

theorem consistent_of_init (h : (descriptorCache iroh C).init cache) : cache.Consistent := by
  rcases h with ⟨⟨current, hstate⟩, hholder, hcalls, hstarts⟩
  constructor
  . simp [hholder, hcalls, DescriptorCall.holds]
  . simp [hcalls]
  . simp [hstate, Descriptors.new]
  . simp [hstarts]
  . simp [hstarts]

theorem consistent_reachable (h : (descriptorCache iroh C).Reachable cache) : cache.Consistent := by
  apply h.invariant
  . exact consistent_of_init
  . intro s t e hs hstep
    exact consistent_act hs hstep

theorem renews_act (h : cache.act iroh event = some cache')
    : cache'.state.current.Renews cache.state.current := by
  cases act_spec h with
  | renew c previous next result wall endAt _ _ hvalid =>
    exact (Descriptors.validate_eq_ok_iff.mp hvalid).2.1
  | observe next contended _ => exact Descriptors.renews_observe
  | _ => exact HostConnection.Renews.refl _

theorem current_of_rejected {c : C} {result : FetchResult} {wall : DateTime} {endAt : Nat}
    (h : cache.act iroh (.finish c result wall endAt) = some cache')
    (hrejected : Descriptors.Rejected iroh cache.state.current result wall)
    : cache'.state.current = cache.state.current := by
  cases act_spec h with
  | keep => rfl
  | renew _ previous next _ _ _ _ _ hvalid =>
    exact absurd hrejected (Descriptors.not_rejected_of_validate hvalid)

theorem current_of_cancel {c : C} (h : cache.act iroh (.cancel c) = some cache')
    : cache'.state.current = cache.state.current := by
  cases act_spec h with
  | cancelWaiting => rfl
  | cancelFetching => rfl

theorem unexpired_of_returned (hcache : cache.Consistent)
    (h : cache.act iroh event = some cache') {c : C} {d : HostConnection}
    (hcall' : cache'.calls c = .returned (.ok d)) (hnew : cache.calls c ≠ .returned (.ok d))
    : ∃ wall, event.reading = some (c, wall) ∧ cache.holder = some c ∧ wall < d.expiresAt := by
  cases act_spec h with
  | answer c' failed result wall elapsedAt startAt hcall hclock hresult =>
    by_cases hc : c = c'
    . subst hc
      simp only [calls_setCall, if_true, DescriptorCall.returned.injEq] at hcall'
      refine ⟨wall, rfl, ?_, (hresult d hcall').2⟩
      rw [hcache.holder_iff, hcall]
      rfl
    . simp only [calls_setCall, hc, if_false] at hcall'
      exact absurd hcall' hnew
  | renew c' previous next result wall endAt hcall hclock hvalid =>
    by_cases hc : c = c'
    . subst hc
      simp only [calls_setCall, if_true, DescriptorCall.returned.injEq, Except.ok.injEq] at hcall'
      subst hcall'
      refine ⟨wall, rfl, ?_, (Descriptors.validate_eq_ok_iff.mp hvalid).2.2.1⟩
      rw [hcache.holder_iff, hcall]
      rfl
    . simp only [calls_setCall, hc, if_false] at hcall'
      exact absurd hcall' hnew
  | contended => exact absurd hcall' hnew
  | observe => exact absurd hcall' hnew
  | _ =>
    simp only [calls_setCall] at hcall'
    split at hcall'
    . simp at hcall'
    . exact absurd hcall' hnew

end DescriptorCache

theorem publisher_lease_cache {Ticket : Type} (iroh : Iroh Ticket) (C : Type) [DecidableEq C]
    {cache : DescriptorCache C} (h : (descriptorCache iroh C).Reachable cache)
    : (∀ events cache', (descriptorCache iroh C).Run cache events cache' →
        cache'.state.current.Renews cache.state.current)
      ∧ (∀ c result wall endAt cache',
        (descriptorCache iroh C).step cache (.finish c result wall endAt) cache' →
        Descriptors.Rejected iroh cache.state.current result wall →
        cache'.state.current = cache.state.current)
      ∧ (∀ c cache', (descriptorCache iroh C).step cache (.cancel c) cache' →
        cache'.state.current = cache.state.current)
      ∧ (∀ c previous, cache.calls c = .fetching previous → cache.state.current = previous)
      ∧ (∀ event cache' c d, (descriptorCache iroh C).step cache event cache' →
        cache'.calls c = .returned (.ok d) → cache.calls c ≠ .returned (.ok d) →
        ∃ wall, event.reading = some (c, wall) ∧ cache.holder = some c ∧ wall < d.expiresAt)
      ∧ (∀ c c' previous previous', cache.calls c = .fetching previous →
        cache.calls c' = .fetching previous' → c = c')
      ∧ cache.starts.Pairwise fun later earlier =>
        earlier + Descriptors.refreshRetryDelay ≤ later := by
  have hcache := DescriptorCache.consistent_reachable h
  refine ⟨?_, ?_, ?_, ?_, ?_, ?_, hcache.spaced⟩
  . intro events cache' hrun
    refine hrun.relates (P := fun _ => True)
      (R := fun s t => t.state.current.Renews s.state.current) ?_ ?_ ?_ ?_ trivial
    . intro s
      exact HostConnection.Renews.refl _
    . intro s t u h1 h2
      exact h1.trans h2
    . intro s t e _ _
      trivial
    . intro s t e _ hstep
      exact DescriptorCache.renews_act hstep
  . intro c result wall endAt cache' hstep hrejected
    exact DescriptorCache.current_of_rejected hstep hrejected
  . intro c cache' hstep
    exact DescriptorCache.current_of_cancel hstep
  . intro c previous hcall
    exact hcache.previous hcall
  . intro event cache' c d hstep hcall' hnew
    exact DescriptorCache.unexpired_of_returned hcache hstep hcall' hnew
  . intro c c' previous previous' hcall hcall'
    have hholder := (hcache.holder_iff c).mpr (by rw [hcall]; rfl)
    rw [(hcache.holder_iff c').mpr (by rw [hcall']; rfl), Option.some.injEq] at hholder
    exact hholder.symm

namespace Fixture

def lease (revision : Nat) (expiresAt : DateTime) : HostConnection where
  recordId := ⟨.replicate 16 1⟩
  serviceRevision := revision
  endpointTicket := ticket
  endpointIdentity := identity
  attachCapability := .replicate 32 2
  attachedVersion := ⟨0, 0, 0⟩
  expiresAt := expiresAt
  sshEnabled := true

def expiredLease : DescriptorCache (Fin 2) where
  state := .new (lease 1 (time 0))
  holder := none
  calls _ := .idle
  clock := 0
  starts := []

def renewal : List (DescriptorEvent (Fin 2)) :=
  [.getWith 0 none, .getWith 1 none, .lock 0, .begin 0 (time 1) 5 5, .cancel 0, .lock 1,
    .begin 1 (time 3) 2000000005 2000000006,
    .finish 1 (.fetched (lease 2 (time 300))) (time 4) 2000000007]

end Fixture

theorem publisher_lease_cache_renewed
    : ∃ cache : DescriptorCache (Fin 2),
        cache.calls 1 = .returned (.ok (Fixture.lease 2 (Fixture.time 300)))
          ∧ cache.starts = [2000000006, 5]
          ∧ cache.starts.Pairwise fun later earlier =>
            earlier + Descriptors.refreshRetryDelay ≤ later := by
  have hresult : (System.replay (DescriptorCache.act Fixture.iroh) Fixture.expiredLease
      Fixture.renewal).map (fun cache => (cache.calls 1, cache.starts))
        = some (.returned (.ok (Fixture.lease 2 (Fixture.time 300))), [2000000006, 5]) := by
    decide +kernel
  rcases Option.map_eq_some_iff.mp hresult with ⟨cache, hreplay, hcache⟩
  rw [Prod.mk.injEq] at hcache
  refine ⟨cache, hcache.1, hcache.2, ?_⟩
  have hreachable : (descriptorCache Fixture.iroh (Fin 2)).Reachable cache :=
    ⟨Fixture.expiredLease, Fixture.renewal, ⟨⟨_, rfl⟩, rfl, fun _ => rfl, rfl⟩,
      System.Run.of_replay id hreplay⟩
  exact (publisher_lease_cache Fixture.iroh (Fin 2) hreachable).2.2.2.2.2.2

end Attached
