import Attached.Sync.CatalogLemmas
import Attached.Sync.Publisher

/-!
This module contains what a publisher remembers: it skips a publication only if the same inputs were
published within the interval, and whether the renewals of a periodic publication are ever skipped.
-/

namespace Attached

namespace SnapshotInput

theorem toBeBytes_inj {width a b : Nat} (ha : a < 256 ^ width) (hb : b < 256 ^ width)
    (h : Bytes.toBeBytes width a = Bytes.toBeBytes width b) : a = b := by
  have hvalue := congrArg Bytes.ofBeBytes h
  rw [Bytes.ofBeBytes_toBeBytes, Bytes.ofBeBytes_toBeBytes, Nat.mod_eq_of_lt ha,
    Nat.mod_eq_of_lt hb] at hvalue
  exact hvalue

theorem framed_append_inj {a b : String} {rest rest' : List UInt8}
    (ha : (Bytes.ofString a).length < 2 ^ 32) (hb : (Bytes.ofString b).length < 2 ^ 32)
    (h : framed a ++ rest = framed b ++ rest') : a = b ∧ rest = rest' := by
  unfold framed at h
  rw [List.append_assoc, List.append_assoc] at h
  rcases List.append_inj h (by simp) with ⟨hlengths, h⟩
  have hlength := toBeBytes_inj (by omega) (by omega) hlengths
  rcases List.append_inj h hlength with ⟨hbytes, hrest⟩
  exact ⟨Bytes.ofString_inj.mp hbytes, hrest⟩

theorem uint16_inj {a b : UInt16} (h : Bytes.toBeBytes 2 a.toNat = Bytes.toBeBytes 2 b.toNat)
    : a = b :=
  UInt16.toNat_inj.mp (toBeBytes_inj a.toNat_lt b.toNat_lt h)

theorem bytes_inj {input input' : SnapshotInput}
    (hhost : (Bytes.ofString input.host).length < 2 ^ 32)
    (hticket : (Bytes.ofString input.ticket).length < 2 ^ 32)
    (hhost' : (Bytes.ofString input'.host).length < 2 ^ 32)
    (hticket' : (Bytes.ofString input'.ticket).length < 2 ^ 32)
    (h : input.bytes = input'.bytes) : input = input' := by
  rcases input with ⟨host, ticket, capability, version, sshEnabled⟩
  rcases input' with ⟨host', ticket', capability', version', sshEnabled'⟩
  simp only [bytes, List.append_assoc, List.append_cancel_left_eq] at h
  rcases framed_append_inj hhost hhost' h with ⟨rfl, h⟩
  rcases framed_append_inj hticket hticket' h with ⟨rfl, h⟩
  rcases List.append_inj h (by simp) with ⟨hcapability, h⟩
  rcases List.append_inj h (by simp) with ⟨hmajor, h⟩
  rcases List.append_inj h (by simp) with ⟨hminor, h⟩
  rcases List.append_inj h (by simp) with ⟨hpatch, hssh⟩
  have hversion : version = version' := by
    rcases version with ⟨major, minor, patch⟩
    rcases version' with ⟨major', minor', patch'⟩
    simp only [AttachedVersion.mk.injEq]
    exact ⟨uint16_inj hmajor, uint16_inj hminor, uint16_inj hpatch⟩
  have hflag : sshEnabled = sshEnabled' := by
    revert hssh
    cases sshEnabled <;> cases sshEnabled' <;> simp
  rw [Vector.toList_inj.mp hcapability, hversion, hflag]

end SnapshotInput

namespace Publisher

def published (label : PublishCall × Except Failure PublishOutcome) : Option PublishCall :=
  match label.2 with
  | .ok (.published _) => some label.1
  | _ => none

def lastPublished (labels : List (PublishCall × Except Failure PublishOutcome)) : Option PublishCall :=
  (labels.filterMap published).getLast?

theorem lastPublished_snoc (labels : List (PublishCall × Except Failure PublishOutcome))
    (label : PublishCall × Except Failure PublishOutcome)
    : lastPublished (labels ++ [label]) = (published label).or (lastPublished labels) := by
  unfold lastPublished
  rw [List.filterMap_append]
  cases h : published label with
  | none => simp [h]
  | some call => simp [h]

theorem mem_of_lastPublished {labels : List (PublishCall × Except Failure PublishOutcome)}
    {last : PublishCall} (h : lastPublished labels = some last) : last ∈ labels.map Prod.fst := by
  have hmem := List.mem_of_getLast? h
  rw [List.mem_filterMap] at hmem
  rcases hmem with ⟨label, hlabel, hpublished⟩
  unfold published at hpublished
  split at hpublished
  . injection hpublished with hpublished
    rw [← hpublished]
    exact List.mem_map_of_mem hlabel
  . simp at hpublished

section

variable {Ticket : Type} {sha256 : List UInt8 → Vector UInt8 32} {iroh : Iroh Ticket}
  {primitives : SealingPrimitives} {publisher publisher' : Publisher} {call : PublishCall}
  {outcome : Except Failure PublishOutcome}

theorem run_of_outcome
    (h : ((publishSnapshot sha256 iroh primitives call).run publisher).1 = outcome)
    : (publishSnapshot sha256 iroh primitives call).run publisher
        = (outcome, ((publishSnapshot sha256 iroh primitives call).run publisher).2) := by
  rw [← h]

theorem step_of_outcome
    (h : ((publishSnapshot sha256 iroh primitives call).run publisher).1 = outcome)
    : (publisherSystem sha256 iroh primitives).step publisher (call, outcome)
        ((publishSnapshot sha256 iroh primitives call).run publisher).2 :=
  run_of_outcome h

def remember (sha256 : List UInt8 → Vector UInt8 32) (publisher : Publisher) (input : SnapshotInput)
    (call : PublishCall) : Publisher :=
  { publisher with
    lastInputDigest := some (snapshotDigest sha256 input)
    nextRefreshAt := some (call.startedAt + republishInterval) }

theorem run_publishSnapshot_cases
    (h : (publishSnapshot sha256 iroh primitives call).run publisher = (outcome, publisher'))
    : (∃ e, outcome = .error e ∧ publisher' = publisher)
      ∨ (∃ input, snapshotInput publisher.authorizedConsumer call = .ok input
        ∧ publisher.isFresh (snapshotDigest sha256 input) call.checkedAt = true
        ∧ outcome = .ok .unchanged ∧ publisher' = publisher)
      ∨ (∃ input revision, snapshotInput publisher.authorizedConsumer call = .ok input
        ∧ publisher.isFresh (snapshotDigest sha256 input) call.checkedAt = false
        ∧ putSnapshot iroh primitives publisher.account publisher.recordId call input = .ok revision
        ∧ outcome = .ok (.published revision)
        ∧ publisher' = remember sha256 publisher input call) := by
  simp only [publishSnapshot, Effect.bind_def, Effect.run_get, Effect.run_lift] at h
  cases hinput : snapshotInput publisher.authorizedConsumer call with
  | error e =>
    simp only [hinput, Prod.mk.injEq] at h
    exact Or.inl ⟨e, h.1.symm, h.2.symm⟩
  | ok input =>
    simp only [hinput] at h
    split at h
    . next hfresh =>
      simp only [Effect.run_pure, Prod.mk.injEq] at h
      exact Or.inr (Or.inl ⟨input, rfl, hfresh, h.1.symm, h.2.symm⟩)
    . next hdue =>
      rw [Bool.not_eq_true] at hdue
      cases hput : putSnapshot iroh primitives publisher.account publisher.recordId call input with
      | error e =>
        simp only [Effect.bind_def, Effect.run_lift, hput, Prod.mk.injEq] at h
        exact Or.inl ⟨e, h.1.symm, h.2.symm⟩
      | ok revision =>
        simp only [Effect.bind_def, Effect.run_lift, hput, Effect.run_set, Effect.run_pure,
          Prod.mk.injEq] at h
        exact Or.inr (Or.inr ⟨input, revision, rfl, hdue, hput, h.1.symm, h.2.symm⟩)

structure Remembers (sha256 : List UInt8 → Vector UInt8 32) (publisher : Publisher)
    (last : Option PublishCall) : Prop where
  digest : publisher.lastInputDigest = last.bind fun call =>
    (snapshotInput publisher.authorizedConsumer call).toOption.map (snapshotDigest sha256)
  refresh : publisher.nextRefreshAt = last.map fun call => call.startedAt + republishInterval

theorem remembers_step {labels : List (PublishCall × Except Failure PublishOutcome)}
    (hremembers : Remembers sha256 publisher (lastPublished labels))
    (h : (publishSnapshot sha256 iroh primitives call).run publisher = (outcome, publisher'))
    : Remembers sha256 publisher' (lastPublished (labels ++ [(call, outcome)])) := by
  rw [lastPublished_snoc]
  rcases run_publishSnapshot_cases h with ⟨e, rfl, rfl⟩ | ⟨_, _, _, rfl, rfl⟩
    | ⟨input, revision, hinput, _, _, rfl, rfl⟩
  . exact hremembers
  . exact hremembers
  . constructor
    . simp [published, remember, hinput, Except.toOption]
    . simp [published, remember]

theorem remembers_run {labels : List (PublishCall × Except Failure PublishOutcome)}
    (hinit : (publisherSystem sha256 iroh primitives).init publisher)
    (hrun : (publisherSystem sha256 iroh primitives).Run publisher labels publisher')
    : Remembers sha256 publisher' (lastPublished labels)
      ∧ publisher'.authorizedConsumer = publisher.authorizedConsumer := by
  induction hrun with
  | nil =>
    rcases hinit with ⟨account, consumer, identity, rfl⟩
    exact ⟨⟨rfl, rfl⟩, rfl⟩
  | snoc _ hstep ih =>
    rcases ih with ⟨hremembers, hconsumer⟩
    refine ⟨remembers_step hremembers hstep, ?_⟩
    rw [← hconsumer]
    rcases run_publishSnapshot_cases hstep with ⟨_, _, rfl⟩ | ⟨_, _, _, _, rfl⟩
      | ⟨_, _, _, _, _, _, rfl⟩
    . rfl
    . rfl
    . rfl

theorem snapshotInput_eq_ok {authorizedConsumer : Option (Vector UInt8 32)} {input : SnapshotInput}
    (h : snapshotInput authorizedConsumer call = .ok input)
    : validateHostLabel input.host = true ∧ input.ticket = call.endpointTicket := by
  simp only [snapshotInput, Except.bind_eq_ok_iff, Except.ensure_eq_ok_iff, Except.pure_eq_ok_iff] at h
  rcases h with ⟨_, hlabel, _, _, _, _, rfl⟩
  exact ⟨hlabel, rfl⟩

def hashed (authorizedConsumer : Option (Vector UInt8 32)) (calls : List PublishCall)
    : Set (List UInt8) :=
  {bytes | ∃ call ∈ calls, ∃ input, snapshotInput authorizedConsumer call = .ok input
    ∧ bytes = input.bytes}

theorem eq_of_snapshotDigest {authorizedConsumer : Option (Vector UInt8 32)} {calls : List PublishCall}
    {call' : PublishCall} {input input' : SnapshotInput}
    (hcollision : Set.InjOn sha256 (hashed authorizedConsumer calls))
    (htickets : ∀ call ∈ calls, (Bytes.ofString call.endpointTicket).length < 2 ^ 32)
    (hcall : call ∈ calls) (hcall' : call' ∈ calls)
    (hinput : snapshotInput authorizedConsumer call = .ok input)
    (hinput' : snapshotInput authorizedConsumer call' = .ok input')
    (h : snapshotDigest sha256 input = snapshotDigest sha256 input') : input = input' := by
  have hbytes : input.bytes = input'.bytes :=
    hcollision ⟨call, hcall, input, hinput, rfl⟩ ⟨call', hcall', input', hinput', rfl⟩ h
  rcases snapshotInput_eq_ok hinput with ⟨hlabel, hticket⟩
  rcases snapshotInput_eq_ok hinput' with ⟨hlabel', hticket'⟩
  have hlength := validateHostLabel_length hlabel
  have hlength' := validateHostLabel_length hlabel'
  rw [maxHostLabelBytes] at hlength hlength'
  apply SnapshotInput.bytes_inj _ _ _ _ hbytes
  . omega
  . rw [hticket]
    exact htickets call hcall
  . omega
  . rw [hticket']
    exact htickets call' hcall'

end

end Publisher

section

open Publisher

variable {Ticket : Type} {sha256 : List UInt8 → Vector UInt8 32} {iroh : Iroh Ticket}
  {primitives : SealingPrimitives}

theorem publication_memoization {start publisher : Publisher}
    {labels : List (PublishCall × Except Failure PublishOutcome)}
    (hinit : (publisherSystem sha256 iroh primitives).init start)
    (hrun : (publisherSystem sha256 iroh primitives).Run start labels publisher) {call : PublishCall}
    {outcome : Except Failure PublishOutcome} {publisher' : Publisher}
    (hcall : (publishSnapshot sha256 iroh primitives call).run publisher = (outcome, publisher'))
    (hcollision : Set.InjOn sha256 (hashed start.authorizedConsumer (labels.map Prod.fst ++ [call])))
    (htickets : ∀ c ∈ labels.map Prod.fst ++ [call],
      (Bytes.ofString c.endpointTicket).length < 2 ^ 32)
    : (outcome = .ok .unchanged →
        ∃ last input, lastPublished labels = some last
          ∧ snapshotInput start.authorizedConsumer last = .ok input
          ∧ snapshotInput start.authorizedConsumer call = .ok input
          ∧ call.checkedAt < last.startedAt + republishInterval)
      ∧ (∀ e, outcome = .error e → publisher'.lastInputDigest = publisher.lastInputDigest
        ∧ publisher'.nextRefreshAt = publisher.nextRefreshAt)
      ∧ ∀ input input' : SnapshotInput, (Bytes.ofString input.host).length < 2 ^ 32 →
        (Bytes.ofString input.ticket).length < 2 ^ 32 →
        (Bytes.ofString input'.host).length < 2 ^ 32 →
        (Bytes.ofString input'.ticket).length < 2 ^ 32 → input.bytes = input'.bytes →
        input = input' := by
  rcases remembers_run hinit hrun with ⟨hremembers, hconsumer⟩
  refine ⟨?_, ?_, fun _ _ => SnapshotInput.bytes_inj⟩
  . rintro rfl
    rcases run_publishSnapshot_cases hcall with ⟨_, h, _⟩ | ⟨input, hinput, hfresh, _, _⟩
      | ⟨_, _, _, _, _, h, _⟩
    . simp at h
    . simp only [isFresh, Bool.and_eq_true, beq_iff_eq, Option.any_eq_true, decide_eq_true_eq] at hfresh
      rcases hfresh with ⟨hdigest, deadline, hdeadline, hearlier⟩
      rw [hremembers.refresh, Option.map_eq_some_iff] at hdeadline
      rcases hdeadline with ⟨last, hlast, rfl⟩
      rw [hremembers.digest, hlast, Option.bind_some, Option.map_eq_some_iff] at hdigest
      rcases hdigest with ⟨input', hinput', hsame⟩
      rw [hconsumer] at hinput hinput'
      have hinput' := Except.toOption_eq_some_iff.mp hinput'
      have hmem : last ∈ labels.map Prod.fst ++ [call] :=
        List.mem_append_left _ (mem_of_lastPublished hlast)
      have heq := eq_of_snapshotDigest hcollision htickets hmem (by simp) hinput' hinput hsame
      subst heq
      exact ⟨last, input', hlast, hinput', hinput, hearlier⟩
    . simp at h
  . rintro e rfl
    rcases run_publishSnapshot_cases hcall with ⟨_, _, rfl⟩ | ⟨_, _, _, h, _⟩
      | ⟨_, _, _, _, _, h, _⟩
    . exact ⟨rfl, rfl⟩
    . simp at h
    . simp at h

theorem Publisher.published_iff {publisher publisher' : Publisher} {last : Option PublishCall}
    {call : PublishCall} {outcome : Except Failure PublishOutcome} {input : SnapshotInput}
    {revision : Nat} (hremembers : Remembers sha256 publisher last)
    (hlast : ∀ call ∈ last, snapshotInput publisher.authorizedConsumer call = .ok input)
    (hinput : snapshotInput publisher.authorizedConsumer call = .ok input)
    (hput : putSnapshot iroh primitives publisher.account publisher.recordId call input = .ok revision)
    (hcall : (publishSnapshot sha256 iroh primitives call).run publisher = (outcome, publisher'))
    : (∃ revision, outcome = .ok (.published revision))
        ↔
      ∀ previous ∈ last, previous.startedAt + republishInterval ≤ call.checkedAt := by
  have hfresh : publisher.isFresh (snapshotDigest sha256 input) call.checkedAt = true
      ↔ ∃ previous ∈ last, call.checkedAt < previous.startedAt + republishInterval := by
    unfold isFresh
    rw [hremembers.digest, hremembers.refresh]
    cases last with
    | none =>
      simp only [Option.map_none, Option.any_none, Bool.and_false, Bool.false_eq_true, false_iff]
      rintro ⟨previous, hprevious, _⟩
      cases hprevious
    | some previous =>
      have hdigest : (snapshotInput publisher.authorizedConsumer previous).toOption.map
          (snapshotDigest sha256) = some (snapshotDigest sha256 input) := by
        rw [hlast previous rfl]
        rfl
      rw [Option.bind_some, hdigest, beq_self_eq_true, Bool.true_and, Option.map_some, Option.any_some,
        decide_eq_true_iff]
      constructor
      . intro hearlier
        exact ⟨previous, rfl, hearlier⟩
      . rintro ⟨previous', hprevious, hearlier⟩
        rw [Option.mem_some_iff.mp hprevious]
        exact hearlier
  simp only [publishSnapshot, Effect.bind_def, Effect.run_get, Effect.run_lift, hinput] at hcall
  split at hcall
  . next hskip =>
    rcases hfresh.mp hskip with ⟨previous, hprevious, hearlier⟩
    rw [Effect.run_pure, Prod.mk.injEq] at hcall
    rw [← hcall.1]
    constructor
    . rintro ⟨revision, h⟩
      simp at h
    . intro h
      exact absurd (h previous hprevious) (Nat.not_le_of_lt hearlier)
  . next hdue =>
    rw [Effect.bind_def, Effect.run_lift, hput] at hcall
    constructor
    . intro _ previous hprevious
      by_contra hearlier
      exact hdue (hfresh.mpr ⟨previous, hprevious, Nat.lt_of_not_le hearlier⟩)
    . intro _
      exact ⟨revision, (congrArg Prod.fst hcall).symm⟩

theorem Publisher.beforeTick_constant (publisher : Publisher) (calls : Nat → PublishCall) (tick : Nat)
    : (publisher.beforeTick sha256 iroh primitives calls tick).account = publisher.account
      ∧ (publisher.beforeTick sha256 iroh primitives calls tick).authorizedConsumer
        = publisher.authorizedConsumer
      ∧ (publisher.beforeTick sha256 iroh primitives calls tick).recordId = publisher.recordId := by
  induction tick with
  | zero => exact ⟨rfl, rfl, rfl⟩
  | succ tick ih =>
    rw [beforeTick]
    rcases hcall : (publishSnapshot sha256 iroh primitives (calls tick)).run
      (publisher.beforeTick sha256 iroh primitives calls tick) with ⟨outcome, publisher'⟩
    rcases run_publishSnapshot_cases hcall with ⟨_, _, rfl⟩ | ⟨_, _, _, _, rfl⟩
      | ⟨_, _, _, _, _, _, rfl⟩
    . exact ih
    . exact ih
    . exact ih

def previousCall (calls : Nat → PublishCall) (tick : Nat) : Option PublishCall :=
  match tick with
  | 0 => none
  | tick + 1 => some (calls tick)

theorem Publisher.remembers_beforeTick {publisher : Publisher} {calls : Nat → PublishCall}
    {tick : Nat}
    (hinit : (publisherSystem sha256 iroh primitives).init publisher)
    (hpublished : ∀ earlier < tick, ∃ revision,
      publisher.tickOutcome sha256 iroh primitives calls earlier = .ok (.published revision))
    : Remembers sha256 (publisher.beforeTick sha256 iroh primitives calls tick)
        (previousCall calls tick) := by
  cases tick with
  | zero =>
    rcases hinit with ⟨account, consumer, identity, rfl⟩
    exact ⟨rfl, rfl⟩
  | succ tick =>
    rcases hpublished tick (Nat.lt_succ_self tick) with ⟨revision, hrevision⟩
    unfold tickOutcome at hrevision
    rw [beforeTick]
    rcases hcall : (publishSnapshot sha256 iroh primitives (calls tick)).run
      (publisher.beforeTick sha256 iroh primitives calls tick) with ⟨outcome, publisher'⟩
    rw [hcall] at hrevision
    rcases run_publishSnapshot_cases hcall with ⟨e, rfl, rfl⟩ | ⟨_, _, _, rfl, rfl⟩
      | ⟨input, _, hinput, _, _, _, rfl⟩
    . simp at hrevision
    . simp at hrevision
    . constructor
      . simp [previousCall, remember, hinput, Except.toOption]
      . rfl

theorem periodic_renewal_iff {account : AccountCredentials} {consumer : Option (Vector UInt8 32)}
    {identity : Vector UInt8 32} {input : SnapshotInput} {calls : Nat → PublishCall}
    (hinput : ∀ tick, snapshotInput consumer (calls tick) = .ok input)
    (hput : ∀ tick, ∃ revision, putSnapshot iroh primitives account
      (deriveRecordId sha256 account.accountId identity) (calls tick) input = .ok revision)
    {origin : Nat} {latency lag : Nat → Nat}
    (hchecked : ∀ tick, (calls tick).checkedAt = origin + tick * publishInterval + latency tick)
    (hstarted : ∀ tick, (calls tick).startedAt = origin + tick * publishInterval + lag tick)
    (ticks : Nat)
    : (∀ tick < ticks, ∃ revision,
        (Publisher.load sha256 account consumer identity).tickOutcome sha256 iroh primitives calls tick
          = .ok (.published revision))
        ↔
      ∀ tick, tick + 1 < ticks → lag tick ≤ latency (tick + 1) := by
  let start : Publisher := .load sha256 account consumer identity
  have hload : (publisherSystem sha256 iroh primitives).init start :=
    ⟨account, consumer, identity, rfl⟩
  -- A tick after others that all published depends on the one just before it.
  have htick (tick : Nat) (hpublished : ∀ earlier < tick, ∃ revision,
        start.tickOutcome sha256 iroh primitives calls earlier = .ok (.published revision))
      : (∃ revision, start.tickOutcome sha256 iroh primitives calls tick = .ok (.published revision))
        ↔
        ∀ previous ∈ previousCall calls tick,
          previous.startedAt + republishInterval ≤ (calls tick).checkedAt := by
    have hconstant : (start.beforeTick sha256 iroh primitives calls tick).account = account
        ∧ (start.beforeTick sha256 iroh primitives calls tick).authorizedConsumer = consumer
        ∧ (start.beforeTick sha256 iroh primitives calls tick).recordId
          = deriveRecordId sha256 account.accountId identity :=
      beforeTick_constant start calls tick
    rcases hconstant with ⟨haccount, hconsumer, hrecord⟩
    rcases hput tick with ⟨revision, hrevision⟩
    rw [← hrecord, ← haccount] at hrevision
    apply published_iff (remembers_beforeTick hload hpublished) _ _ hrevision rfl
    . intro previous hprevious
      cases tick with
      | zero => cases hprevious
      | succ tick =>
        rw [hconsumer, ← Option.mem_some_iff.mp hprevious]
        exact hinput tick
    . rw [hconsumer]
      exact hinput tick
  have hdue (tick : Nat)
      : (∀ previous ∈ previousCall calls (tick + 1),
          previous.startedAt + republishInterval ≤ (calls (tick + 1)).checkedAt)
        ↔
        lag tick ≤ latency (tick + 1) := by
    have hinterval : republishInterval = publishInterval := rfl
    have hnext : (tick + 1) * publishInterval = tick * publishInterval + publishInterval :=
      Nat.succ_mul tick publishInterval
    have hsome : (calls tick).startedAt + republishInterval ≤ (calls (tick + 1)).checkedAt
        ↔ lag tick ≤ latency (tick + 1) := by
      rw [hstarted, hchecked, hinterval, hnext]
      omega
    rw [← hsome]
    constructor
    . intro h
      exact h (calls tick) rfl
    . intro h previous hprevious
      rw [← Option.mem_some_iff.mp hprevious]
      exact h
  induction ticks with
  | zero => simp
  | succ ticks ih =>
    constructor
    . intro hall tick hlt
      rcases Nat.lt_or_ge (tick + 1) ticks with hearlier | hlast
      . exact ih.mp (fun tick h => hall tick (Nat.lt_succ_of_lt h)) tick hearlier
      . have heq : ticks = tick + 1 := by omega
        subst heq
        exact (hdue tick).mp ((htick _ fun tick h => hall tick (Nat.lt_succ_of_lt h)).mp
          (hall _ (Nat.lt_succ_self _)))
    . intro hall
      have hpublished := ih.mpr fun tick h => hall tick (Nat.lt_succ_of_lt h)
      intro tick hlt
      rcases Nat.lt_or_ge tick ticks with hearlier | hlast
      . exact hpublished tick hearlier
      . have heq : tick = ticks := by omega
        subst heq
        apply (htick tick hpublished).mpr
        cases tick with
        | zero =>
          intro previous hprevious
          cases hprevious
        | succ tick => exact (hdue tick).mpr (hall tick (Nat.lt_succ_self _))

end

namespace Fixture

def recordIdHash : Vector UInt8 32 :=
  #v[
    208, 55, 22, 30, 165, 81, 116, 248, 24, 18, 87, 33, 201, 47, 120, 189, 114, 97, 60, 195, 204,
    93, 243, 156, 109, 33, 243, 237, 116, 146, 47, 11]

def publishedDigest : Vector UInt8 32 :=
  #v[
    220, 208, 71, 42, 139, 114, 244, 102, 58, 1, 53, 6, 62, 34, 34, 163, 150, 8, 173, 117, 131,
    151, 18, 136, 216, 57, 1, 111, 174, 178, 196, 178]

def publishedInput : SnapshotInput where
  host := "office"
  ticket := ticket
  capability := .replicate 32 6
  version := ⟨4, 5, 6⟩
  sshEnabled := true

def sha256 (bytes : List UInt8) : Vector UInt8 32 :=
  if bytes = publishedInput.bytes then publishedDigest
  else if bytes = recordIdDomain ++ account.accountId.bytes.toList ++ identity.toList then recordIdHash
  else .replicate 32 0

def publishedRecord : RecordId :=
  deriveRecordId sha256 account.accountId identity

def publishedKey : Vector UInt8 32 :=
  #v[206, 221, 147, 196, 98, 142, 141, 125, 173, 72, 231, 114, 110, 25, 223, 181, 216, 5, 195, 23,
    249, 115, 114, 214, 22, 40, 114, 76, 29, 15, 180, 101]

def publishedFields (seconds : Fin 900) : DescriptorFields where
  hostLabel := "office"
  issuedAt := time ⟨seconds, by omega⟩
  expiresAt := time ⟨seconds + 90, by omega⟩
  endpointTicket := ticket
  attachCapability := .replicate 32 6
  attachedVersion := ⟨4, 5, 6⟩
  sshEnabled := true

def firstCiphertext : List UInt8 :=
  [
    153, 247, 139, 66, 189, 249, 114, 140, 5, 127, 216, 188, 190, 155, 92, 149, 17, 228, 199, 49,
    8, 160, 167, 106, 153, 82, 46, 208, 169, 36, 190, 198, 82, 175, 220, 234, 174, 8, 120, 186,
    85, 111, 213, 216, 171, 202, 229, 31, 2, 136, 214, 105, 54, 45, 51, 12, 136, 196, 46, 164,
    138, 158, 175, 136, 251, 204, 154, 101, 159, 245, 5, 68, 227, 186, 195, 102, 240, 19, 138,
    169, 16, 33, 159, 91, 140, 236, 73, 99, 166, 139, 68, 79, 176, 77, 80, 39, 157, 86, 122, 163,
    81, 23, 226, 20, 17, 140, 247, 182, 251, 117, 107, 31, 103, 215, 75, 174, 34, 44, 154, 109,
    236, 208, 233, 19, 208, 3, 23, 114, 159, 168, 77, 169, 135, 173, 185, 104, 193, 232, 23, 205,
    78, 156, 64, 192, 61, 123, 53, 68, 6, 47, 9, 231, 204, 116, 77, 27, 232, 124, 81, 89, 99, 158,
    17, 115, 52, 199, 162, 122, 183, 54, 165, 3, 34, 0, 116, 105, 63, 173, 20, 134, 161, 233, 104,
    35, 239, 52]

def secondCiphertext : List UInt8 :=
  [
    176, 220, 199, 176, 216, 227, 55, 4, 99, 55, 20, 234, 225, 220, 140, 242, 71, 13, 221, 212,
    88, 207, 54, 146, 144, 171, 69, 84, 129, 27, 80, 22, 175, 54, 192, 252, 80, 66, 238, 200, 247,
    153, 243, 65, 25, 185, 82, 126, 206, 179, 169, 34, 125, 184, 231, 143, 52, 161, 107, 52, 219,
    150, 158, 103, 37, 48, 199, 137, 14, 104, 178, 152, 203, 34, 138, 212, 234, 242, 27, 20, 105,
    66, 147, 144, 44, 128, 138, 81, 129, 31, 38, 77, 43, 161, 115, 255, 34, 152, 85, 192, 38, 125,
    11, 187, 145, 63, 48, 246, 124, 52, 96, 190, 30, 45, 158, 126, 142, 75, 60, 173, 187, 81, 43,
    199, 104, 2, 177, 111, 122, 15, 132, 153, 0, 84, 231, 131, 15, 1, 178, 143, 19, 221, 213, 196,
    110, 88, 239, 7, 118, 147, 209, 226, 111, 113, 34, 4, 15, 137, 238, 58, 124, 64, 18, 86, 95,
    29, 213, 66, 59, 40, 171, 137, 97, 149, 58, 210, 254, 101, 123, 130, 150, 237, 93, 34, 168,
    151]

def sealingPrimitives : SealingPrimitives where
  hkdfExpand salt key info :=
    if salt = account.accountId.bytes.toList ∧ key = account.accountRootKey.toList
        ∧ info = keyInfo then
      some publishedKey
    else
      none
  aead := {
    encrypt := fun key nonce aad plaintext =>
      if key = publishedKey ∧ aad = envelopeAad account.accountId publishedRecord then
        if nonce = .replicate 24 9 ∧ plaintext = (publishedFields 0).encoding then
          some firstCiphertext
        else if nonce = .replicate 24 10 ∧ plaintext = (publishedFields 30).encoding then
          some secondCiphertext
        else
          none
      else
        none
    decrypt := fun key nonce aad ciphertext =>
      if key = publishedKey ∧ aad = envelopeAad account.accountId publishedRecord then
        if nonce = .replicate 24 9 ∧ ciphertext = firstCiphertext then
          some (publishedFields 0).encoding
        else if nonce = .replicate 24 10 ∧ ciphertext = secondCiphertext then
          some (publishedFields 30).encoding
        else
          none
      else
        none
  }

def publication (first : Bool) (checkedAt : Nat) : PublishCall where
  hostLabel := "office"
  endpointTicket := ticket
  capability := .replicate 32 6
  accessEnabled _ := true
  version := ⟨4, 5, 6⟩
  now := if first then time 0 else time 30
  checkedAt := checkedAt
  startedAt := checkedAt
  random := some (if first then .replicate 24 9 else .replicate 24 10)
  client := .ok ()
  putRecord _ _ _ := .ok 1

def consumer : Vector UInt8 32 :=
  .replicate 32 5

def loaded : Publisher :=
  .load sha256 account (some consumer) identity

theorem snapshotInput_publication (first : Bool) (checkedAt : Nat)
    : Publisher.snapshotInput (some consumer) (publication first checkedAt) = .ok publishedInput := by
  change Publisher.snapshotInput (some consumer) (publication true 0) = .ok publishedInput
  decide +kernel

theorem putSnapshot_publication (first : Bool) (checkedAt : Nat)
    : Publisher.putSnapshot iroh sealingPrimitives account
        (deriveRecordId sha256 account.accountId identity) (publication first checkedAt) publishedInput
          = .ok 1 := by
  change Publisher.putSnapshot iroh sealingPrimitives account
    (deriveRecordId sha256 account.accountId identity) (publication first 0) publishedInput = .ok 1
  cases first with
  | false => decide +kernel
  | true => decide +kernel

def ticks (latency : Nat → Nat) (tick : Nat) : PublishCall :=
  publication (tick == 0) (tick * publishInterval + latency tick)

def firstLate (tick : Nat) : Nat :=
  if tick = 0 then 1000000000 else 0

end Fixture

theorem publication_memoization_office
    : ∃ publisher, (publisherSystem Fixture.sha256 Fixture.iroh Fixture.sealingPrimitives).Run
          Fixture.loaded [(Fixture.publication true 0, .ok (.published 1))] publisher
        ∧ ∃ last input, Publisher.lastPublished
            [(Fixture.publication true 0, .ok (.published 1))] = some last
          ∧ Publisher.snapshotInput (some Fixture.consumer) last = .ok input
          ∧ Publisher.snapshotInput (some Fixture.consumer) (Fixture.publication false 1000000000)
            = .ok input
          ∧ (Fixture.publication false 1000000000).checkedAt
            < last.startedAt + republishInterval := by
  have hinit : (publisherSystem Fixture.sha256 Fixture.iroh Fixture.sealingPrimitives).init
      Fixture.loaded :=
    ⟨Fixture.account, some Fixture.consumer, Fixture.identity, rfl⟩
  have hfirst : ((Publisher.publishSnapshot Fixture.sha256 Fixture.iroh Fixture.sealingPrimitives
      (Fixture.publication true 0)).run Fixture.loaded).1 = .ok (.published 1) := by
    decide +kernel
  have hsecond : ((Publisher.publishSnapshot Fixture.sha256 Fixture.iroh Fixture.sealingPrimitives
      (Fixture.publication false 1000000000)).run ((Publisher.publishSnapshot Fixture.sha256 Fixture.iroh
        Fixture.sealingPrimitives (Fixture.publication true 0)).run Fixture.loaded).2).1
          = .ok .unchanged := by
    decide +kernel
  have hrun : (publisherSystem Fixture.sha256 Fixture.iroh Fixture.sealingPrimitives).Run Fixture.loaded
      [(Fixture.publication true 0, .ok (.published 1))]
      ((Publisher.publishSnapshot Fixture.sha256 Fixture.iroh Fixture.sealingPrimitives
        (Fixture.publication true 0)).run Fixture.loaded).2 :=
    System.Run.single (Publisher.step_of_outcome hfirst)
  have hcollision : Set.InjOn Fixture.sha256 (Publisher.hashed (some Fixture.consumer)
      [Fixture.publication true 0, Fixture.publication false 1000000000]) := by
    rintro _ ⟨call, hcall, input, hinput, rfl⟩ _ ⟨call', hcall', input', hinput', rfl⟩ _
    have hsame : ∀ call ∈ [Fixture.publication true 0, Fixture.publication false 1000000000],
        Publisher.snapshotInput (some Fixture.consumer) call = .ok Fixture.publishedInput := by
      simp [Fixture.snapshotInput_publication]
    have hinput := Except.ok.inj ((hsame call hcall).symm.trans hinput)
    have hinput' := Except.ok.inj ((hsame call' hcall').symm.trans hinput')
    rw [← hinput, ← hinput']
  refine ⟨_, hrun, ?_⟩
  have htickets : ∀ call ∈ [Fixture.publication true 0, Fixture.publication false 1000000000],
      (Bytes.ofString call.endpointTicket).length < 2 ^ 32 := by
    decide +kernel
  have hskip := publication_memoization hinit hrun (Publisher.run_of_outcome hsecond) hcollision htickets
  exact hskip.1 rfl

/--
The second tick finds the publication of the first one fresh, because it checks one second earlier in
its interval.
-/
theorem periodic_renewal_skipped
    : (∀ tick, (Fixture.ticks Fixture.firstLate tick).checkedAt
          = tick * publishInterval + Fixture.firstLate tick
        ∧ Fixture.firstLate tick < publishInterval)
      ∧ (∀ tick, Publisher.snapshotInput (some Fixture.consumer)
          (Fixture.ticks Fixture.firstLate tick) = .ok Fixture.publishedInput)
      ∧ (∀ tick, Publisher.putSnapshot Fixture.iroh Fixture.sealingPrimitives Fixture.account
          (deriveRecordId Fixture.sha256 Fixture.account.accountId Fixture.identity)
          (Fixture.ticks Fixture.firstLate tick) Fixture.publishedInput = .ok 1)
      ∧ Fixture.loaded.tickOutcome Fixture.sha256 Fixture.iroh Fixture.sealingPrimitives
          (Fixture.ticks Fixture.firstLate) 1 = .ok .unchanged := by
  refine ⟨?_, ?_, ?_, by decide +kernel⟩
  . intro tick
    refine ⟨rfl, ?_⟩
    unfold Fixture.firstLate
    split <;> decide
  . intro tick
    exact Fixture.snapshotInput_publication _ _
  . intro tick
    exact Fixture.putSnapshot_publication _ _

theorem periodic_renewal_punctual
    : ∃ revision, Fixture.loaded.tickOutcome Fixture.sha256 Fixture.iroh Fixture.sealingPrimitives
        (Fixture.ticks fun _ => 0) 1 = .ok (.published revision) := by
  have hinput (tick : Nat) : Publisher.snapshotInput (some Fixture.consumer)
      (Fixture.ticks (fun _ => 0) tick) = .ok Fixture.publishedInput :=
    Fixture.snapshotInput_publication _ _
  have hput (tick : Nat) : ∃ revision, Publisher.putSnapshot Fixture.iroh Fixture.sealingPrimitives
      Fixture.account (deriveRecordId Fixture.sha256 Fixture.account.accountId Fixture.identity)
      (Fixture.ticks (fun _ => 0) tick) Fixture.publishedInput = .ok revision :=
    ⟨1, Fixture.putSnapshot_publication _ _⟩
  have htime (tick : Nat) : tick * publishInterval + 0 = 0 + tick * publishInterval + 0 := by
    omega
  exact (periodic_renewal_iff hinput hput htime htime 2).mpr (fun _ _ => Nat.le_refl 0) 1 (by decide)

end Attached
