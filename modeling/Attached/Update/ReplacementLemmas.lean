import Attached.Update.Replacement
import Attached.Update.StartLemmas

/-!
This module contains that the replacement of the executable is exclusive and always resolved, as long
as no preparation starts while the blocking task of an earlier one outlives its deadline.
-/

namespace Attached

namespace StartPhase

def updates (phase : StartPhase) : Bool :=
  match phase with
  | .preparing _ => true
  | .prepared _ _ => true
  | .announced _ _ => true
  | .waiting _ _ => true
  | .failed _ => true
  | .aborting _ => true
  | _ => false

theorem holdsPermit_of_updates {phase : StartPhase} (h : phase.updates = true)
    : phase.holdsPermit = true := by
  cases phase with
  | preparing _ | prepared _ _ | announced _ _ | waiting _ _ | failed _ | aborting _ => rfl
  | _ => cases h

end StartPhase

theorem UpdateResources.updates_act {resources resources' : UpdateResources} {phase phase' : StartPhase}
    {action : StartAction} (h : resources.act phase action = some (resources', phase'))
    (hupdates : phase.updates = true) (hfailed : action ≠ .prepareFailed)
    (hcurrent : action ≠ .prepareCurrent) (habort : action ≠ .abort) : phase'.updates = true := by
  unfold act at h
  split at h
  -- Neither an arrived handler nor one that replies has an update.
  any_goals cases hupdates
  . exact absurd rfl hfailed
  . exact absurd rfl hcurrent
  . split at h
    . cases h
    . cases h
      rfl
  . cases h
    rfl
  . cases h
    rfl
  . cases h
    rfl
  . cases h
    rfl
  . cases h
    rfl
  . exact absurd rfl habort
  . cases h

namespace UpdateServer

variable {server server' : UpdateServer} {event : UpdateServerEvent}

theorem handlers_step (h : server.step event = some server') {i : Nat} {phase : StartPhase}
    (hphase : server.handlers[i]? = some phase)
    : (∃ index, event = .rolledBack index)
        ∨ server'.handlers[i]? = some phase
        ∨ ∃ action phase', event = .handler i action
          ∧ server.resources.act phase action = some (server'.resources, phase')
          ∧ server'.handlers[i]? = some phase' := by
  cases event with
  | start =>
    simp only [step] at h
    split at h
    . cases h
      have hlt := (List.getElem?_eq_some_iff.mp hphase).choose
      exact .inr (.inl ((List.getElem?_append_left hlt).trans hphase))
    . cases h
  | handler index action =>
    simp only [step, Option.bind_eq_bind, Option.bind_eq_some_iff, Option.pure_def,
      Option.some.injEq] at h
    rcases h with ⟨old, hold, ⟨resources', phase'⟩, hact, rfl⟩
    by_cases hne : index = i
    . cases hne
      cases hphase.symm.trans hold
      have hlt := (List.getElem?_eq_some_iff.mp hphase).choose
      exact .inr (.inr ⟨action, phase', rfl, hact, List.getElem?_set_self hlt⟩)
    . exact .inr (.inl ((List.getElem?_set_ne hne).trans hphase))
  | confirm operationId observedVersion response =>
    simp only [step] at h
    split at h
    . cases h
      exact .inr (.inl hphase)
    . cases h
  | dispose disposition =>
    simp only [step, Option.bind_eq_bind, Option.bind_eq_some_iff] at h
    rcases h with ⟨candidate, hcandidate, h⟩
    split at h
    . cases h
      exact .inr (.inl hphase)
    . cases h
  | close =>
    cases h
    exact .inr (.inl hphase)
  | rolledBack index => exact .inl ⟨index, rfl⟩

theorem updates_step (h : server.step event = some server')
    (hevent : event.isPlain = true ∨ ∃ index version, event = .handler index (.prepareHandoff version))
    {i : Nat} {phase : StartPhase} (hphase : server.handlers[i]? = some phase)
    (hupdates : phase.updates = true)
    : ∃ phase', server'.handlers[i]? = some phase' ∧ phase'.updates = true := by
  rcases handlers_step h hphase with ⟨index, rfl⟩ | hsame | ⟨action, phase', rfl, hact, hphase'⟩
  . rcases hevent with hplain | ⟨_, _, heq⟩
    . cases hplain
    . cases heq
  . exact ⟨phase, hsame, hupdates⟩
  . refine ⟨phase', hphase', UpdateResources.updates_act hact hupdates ?_ ?_ ?_⟩
    . rintro rfl
      rcases hevent with hplain | ⟨_, _, heq⟩
      . cases hplain
      . cases heq
    . rintro rfl
      rcases hevent with hplain | ⟨_, _, heq⟩
      . cases hplain
      . cases heq
    . rintro rfl
      rcases hevent with hplain | ⟨_, _, heq⟩
      . cases hplain
      . cases heq

end UpdateServer

namespace Installation

variable {β : Type} {versionOf : β → ExecutableVersion} {world world' : Installation β}
  {event : InstallationEvent β} {index : Nat}

theorem updatingCopy_eq_some_iff {copy : β}
    : world.updatingCopy index = some copy
        ↔
      world.preparations index = some (.updating copy) := by
  unfold updatingCopy
  split
  . next heq => simp [heq]
  . next hne =>
    simp only [reduceCtorEq, false_iff]
    exact hne copy

theorem preparedUpdate_eq_some_iff {copy binary : β}
    : world.preparedUpdate index = some (copy, binary)
        ↔
      world.preparations index = some (.prepared copy binary) := by
  unfold preparedUpdate
  split
  . next heq => simp [heq]
  . next hne =>
    simp only [reduceCtorEq, false_iff]
    exact hne copy binary

theorem isAwaited_eq_true (h : world.isAwaited index = true)
    : world.stopped = false ∧ ∃ id, world.server.handlers[index]? = some (.preparing id) := by
  unfold isAwaited at h
  split at h
  . next id hpreparing =>
    rw [Bool.not_eq_true'] at h
    exact ⟨h, id, hpreparing⟩
  . cases h

theorem serverStep_eq_some_iff {event : UpdateServerEvent}
    : world.serverStep event = some world'
        ↔
      world.stopped = false
        ∧ ∃ server, world.server.step event = some server ∧ world' = { world with server } := by
  unfold serverStep
  split
  . next hstopped => simp [hstopped]
  . next hstopped =>
    simp only [Option.bind_eq_bind, Option.bind_eq_some_iff, Option.pure_def, Option.some.injEq,
      eq_comm (a := world')]
    exact (and_iff_right (Bool.eq_false_iff.mpr hstopped)).symm

def Good (world : Installation β) (binary : β) : Prop :=
  binary = world.original ∨ binary ∈ world.accepted

def resolutionsOf (world : Installation β) (index : Nat) : List Resolution :=
  (world.resolutions.filter fun entry => entry.1 == index).map Prod.snd

def expected (preparation : Option (Preparation β)) : List Resolution :=
  match preparation with
  | some (.resolved (some how)) => [how]
  | _ => []

structure Sound (world : Installation β) : Prop where
  exclusive : world.server.Exclusive
  held : ∀ {i : Nat} {copy binary : β}, world.preparations i = some (.prepared copy binary) →
    world.stopped = false
      ∧ ∃ phase, world.server.handlers[i]? = some phase ∧ phase.updates = true
  alone : ∀ {i j : Nat} {p q : Preparation β}, world.preparations i = some p →
    world.preparations j = some q → p.isActive = true → q.isActive = true → i = j
  copies : ∀ {i : Nat} {p : Preparation β} {copy : β}, world.preparations i = some p →
    p.copy? = some copy → world.Good copy
  candidate : ∀ {i : Nat} {copy binary : β}, world.preparations i = some (.prepared copy binary) →
    world.installed = binary
  settled : (∀ i p, world.preparations i = some p → p.copy? = none) → world.Good world.installed
  resolved : ∀ i, world.resolutionsOf i = expected (world.preparations i)
  kept : ∀ entry ∈ world.resolutions, entry.2 ≠ .lost

theorem Sound.resolve (h : world.Sound) {p : Preparation β} (hp : world.preparations index = some p)
    (hactive : p.isActive = true) (how : Resolution) (hkept : how ≠ .lost)
    (hserver : world'.server.Exclusive)
    (hpreparations : world'.preparations
      = Function.update world.preparations index (some (.resolved (some how))))
    (hresolutions : world'.resolutions = world.resolutions ++ [(index, how)])
    (hgood : world'.Good world'.installed) : world'.Sound := by
  have hnone {j : Nat} {q : Preparation β} (hq : world'.preparations j = some q)
      : q.isActive = false := by
    rw [hpreparations] at hq
    by_cases hj : j = index
    . cases hj
      rw [Function.update_self] at hq
      cases hq
      rfl
    . rw [Function.update_of_ne hj] at hq
      rw [Bool.eq_false_iff]
      intro hactive'
      exact hj (h.alone hq hp hactive' hactive)
  refine ⟨hserver, fun hq => (nomatch hnone hq), ?_, ?_, fun hq => (nomatch hnone hq), fun _ => hgood,
    ?_, ?_⟩
  . intro i j q r hq _ hq' _
    rw [hnone hq] at hq'
    cases hq'
  . intro i q copy hq hcopy
    have := hnone hq
    cases q with
    | updating _ | prepared _ _ => cases this
    | copying | resolved _ => cases hcopy
  . intro i
    unfold resolutionsOf
    rw [hresolutions, hpreparations, List.filter_append, List.map_append]
    have hold := h.resolved i
    unfold resolutionsOf at hold
    rw [hold]
    by_cases hi : i = index
    . cases hi
      rw [hp, Function.update_self]
      cases p with
      | resolved _ => cases hactive
      | _ => simp [expected]
    . rw [Function.update_of_ne hi]
      simp [show ¬ index = i from fun heq => hi heq.symm]
  . rw [hresolutions]
    intro entry hentry
    rcases List.mem_append.mp hentry with hentry | hentry
    . exact h.kept entry hentry
    . rw [List.mem_singleton.mp hentry]
      exact hkept

theorem Sound.server (h : world.Sound) {server : UpdateServer} (hserver : server.Exclusive)
    (hupdates : ∀ {i : Nat} {copy binary : β} {phase : StartPhase},
      world.preparations i = some (.prepared copy binary) → world.server.handlers[i]? = some phase →
      phase.updates = true → ∃ phase', server.handlers[i]? = some phase' ∧ phase'.updates = true)
    : { world with server }.Sound where
  exclusive := hserver
  held := by
    intro i copy binary hp
    rcases h.held hp with ⟨hstopped, phase, hphase, hu⟩
    exact ⟨hstopped, hupdates hp hphase hu⟩
  alone := h.alone
  copies := h.copies
  candidate := h.candidate
  settled := h.settled
  resolved := h.resolved
  kept := h.kept

theorem Sound.setPreparation (h : world.Sound) {preparation : Preparation β}
    (hfree : ∀ {i : Nat} {p : Preparation β}, world.preparations i = some p → p.isActive = true →
      i = index)
    (hresolved : expected (world.preparations index) = expected (some preparation))
    (hcopy : ∀ copy, preparation.copy? = some copy → world.Good copy)
    (hheld : ∀ copy binary, preparation = .prepared copy binary → world.stopped = false
      ∧ (∃ phase, world.server.handlers[index]? = some phase ∧ phase.updates = true)
      ∧ world.installed = binary)
    (hsettled : preparation.copy? = none → world.Good world.installed)
    : (world.setPreparation index preparation).Sound := by
  have hcases {i : Nat} {p : Preparation β}
      (hp : (world.setPreparation index preparation).preparations i = some p)
      : (i = index ∧ p = preparation) ∨ (i ≠ index ∧ world.preparations i = some p) := by
    unfold Installation.setPreparation at hp
    dsimp only at hp
    by_cases hi : i = index
    . cases hi
      rw [Function.update_self] at hp
      cases hp
      exact .inl ⟨rfl, rfl⟩
    . rw [Function.update_of_ne hi] at hp
      exact .inr ⟨hi, hp⟩
  have hother {i : Nat} {p : Preparation β}
      (hp : (world.setPreparation index preparation).preparations i = some p)
      (hactive : p.isActive = true) : i = index ∧ p = preparation := by
    rcases hcases hp with hsame | ⟨hne, hp⟩
    . exact hsame
    . exact absurd (hfree hp hactive) hne
  refine ⟨h.exclusive, ?_, ?_, ?_, ?_, ?_, ?_, h.kept⟩
  . intro i copy binary hp
    rcases hother hp rfl with ⟨rfl, hprepared⟩
    rcases hheld copy binary hprepared.symm with ⟨hstopped, hphase, _⟩
    exact ⟨hstopped, hphase⟩
  . intro i j p q hp hq hp' hq'
    rw [(hother hp hp').left, (hother hq hq').left]
  . intro i p copy hp hpcopy
    rcases hcases hp with ⟨rfl, rfl⟩ | ⟨_, hp⟩
    . exact hcopy copy hpcopy
    . exact h.copies hp hpcopy
  . intro i copy binary hp
    rcases hother hp rfl with ⟨rfl, hprepared⟩
    exact (hheld copy binary hprepared.symm).2.2
  . intro hnone
    refine hsettled (hnone index preparation ?_)
    exact Function.update_self ..
  . intro i
    refine (h.resolved i).trans ?_
    unfold Installation.setPreparation
    dsimp only
    by_cases hi : i = index
    . cases hi
      rw [hresolved, Function.update_self]
    . rw [Function.update_of_ne hi]

theorem Sound.restore (h : world.Sound) {p : Preparation β} {copy : β}
    (hp : world.preparations index = some p) (hcopy : p.copy? = some copy) {server : UpdateServer}
    (hserver : server.Exclusive) {stopped : Bool}
    : { world.restore index copy true with server, stopped }.Sound := by
  have hactive : p.isActive = true := by
    cases p with
    | resolved _ => cases hcopy
    | _ => rfl
  refine h.resolve hp hactive .restored nofun hserver ?_ ?_ ?_
  . rw [Installation.restore, if_pos rfl]
    rfl
  . rw [Installation.restore, if_pos rfl]
    rfl
  . rw [Installation.restore, if_pos rfl]
    exact h.copies hp hcopy

theorem Sound.good_installed (h : world.Sound) (hp : world.preparations index = some .copying)
    : world.Good world.installed := by
  apply h.settled
  intro i p hi
  cases hcopy : p.copy? with
  | none => rfl
  | some copy =>
    have hactive : p.isActive = true := by
      cases p with
      | resolved _ => cases hcopy
      | _ => rfl
    cases h.alone hi hp hactive rfl
    rw [hp] at hi
    cases hi
    cases hcopy

theorem Sound.prepareFailed (h : world.Sound)
    (hindex : ∀ copy binary, world.preparations index ≠ some (.prepared copy binary))
    {server : UpdateServer} (hstep : world.server.step (.handler index .prepareFailed) = some server)
    : { world with server }.Sound := by
  refine h.server (UpdateServer.exclusive_step h.exclusive hstep) ?_
  intro i copy binary phase hp hphase hupdates
  rcases UpdateServer.handlers_step hstep hphase with ⟨_, heq⟩ | hsame | ⟨_, _, heq, _, _⟩
  . cases heq
  . exact ⟨phase, hsame, hupdates⟩
  . cases heq
    exact absurd hp (hindex copy binary)

end Installation

def InstallationEvent.isKept {β : Type} (event : InstallationEvent β) : Bool :=
  match event with
  | .updateFailed _ renamed => renamed
  | .updated _ renamed => renamed
  | .deadline _ renamed => renamed
  | .current _ removed => removed
  | .spawnFailed _ renamed => renamed
  | .abort _ renamed => renamed
  | .dropped _ renamed => renamed
  | _ => true

namespace Installation

variable {β : Type} {versionOf : β → ExecutableVersion} {world world' : Installation β}
  {event : InstallationEvent β} {index : Nat}

structure Owned (world : Installation β) (event : InstallationEvent β) : Prop where
  alone : ∀ index, event = .spawn index → ∀ i p, world.preparations i = some p → p.isRunning = false
  kept : event.isKept = true

theorem sound_spawn (h : world.Sound)
    (halone : ∀ i p, world.preparations i = some p → p.isRunning = false)
    (hawaited : world.isAwaited index = true) (hnone : world.preparations index = none)
    : (world.setPreparation index .copying).Sound := by
  have hfree {i : Nat} {p : Preparation β} (hp : world.preparations i = some p)
      : p.isActive = false := by
    cases p with
    | copying | updating _ => cases halone i _ hp
    | resolved _ => rfl
    | prepared copy binary =>
      -- The handler with the update would hold the permit as well.
      rcases h.held hp with ⟨_, phase, hphase, hupdates⟩
      rcases isAwaited_eq_true hawaited with ⟨_, id, hpreparing⟩
      cases h.exclusive.unique hphase hpreparing (StartPhase.holdsPermit_of_updates hupdates) rfl
      rw [hnone] at hp
      cases hp
  apply h.setPreparation
  . intro i p hp hactive
    rw [hfree hp] at hactive
    cases hactive
  . rw [hnone]
    rfl
  . exact nofun
  . exact nofun
  . intro _
    apply h.settled
    intro i p hp
    cases p with
    | copying | resolved _ => rfl
    | updating _ | prepared _ _ => cases hfree hp

theorem sound_step (h : world.Sound) (howned : world.Owned event)
    (hstep : world.step versionOf event = some world') : world'.Sound := by
  have hkept := howned.kept
  cases event with
  | server event =>
    simp only [step, Option.ite_none_right_eq_some, serverStep_eq_some_iff] at hstep
    rcases hstep with ⟨hplain, _, server, hserver, rfl⟩
    refine h.server (UpdateServer.exclusive_step h.exclusive hserver) ?_
    intro i copy binary phase _ hphase hupdates
    exact UpdateServer.updates_step hserver (.inl hplain) hphase hupdates
  | spawn index =>
    simp only [step, Option.ite_none_right_eq_some, Bool.and_eq_true, Option.isNone_iff_eq_none,
      Option.some.injEq] at hstep
    rcases hstep with ⟨⟨hawaited, hnone⟩, rfl⟩
    exact sound_spawn h (howned.alone index rfl) hawaited hnone
  | copied index =>
    simp only [step] at hstep
    split at hstep
    . next hp =>
      cases hstep
      have hgood := h.good_installed hp
      refine h.setPreparation (fun hq hactive => h.alone hq hp hactive rfl) (by rw [hp]; rfl) ?_ nofun
        (fun _ => hgood)
      rintro copy ⟨⟩
      exact hgood
    . cases hstep
  | copyFailed index =>
    simp only [step] at hstep
    split at hstep
    . next hp =>
      cases hstep
      exact h.setPreparation (fun hq hactive => h.alone hq hp hactive rfl) (by rw [hp]; rfl) nofun nofun
        (fun _ => h.good_installed hp)
    . cases hstep
  | replaced index binary =>
    simp only [step, Option.bind_eq_bind, Option.bind_eq_some_iff, updatingCopy_eq_some_iff,
      Option.pure_def, Option.some.injEq] at hstep
    rcases hstep with ⟨copy, hp, rfl⟩
    refine ⟨h.exclusive, h.held, h.alone, h.copies, ?_, ?_, h.resolved, h.kept⟩
    . -- The one preparation that is active has not returned yet.
      intro i copy' binary' hq
      cases h.alone hq hp rfl rfl
      rw [hp] at hq
      cases hq
    . intro hnone
      cases hnone index _ hp
  | updateFailed index renamed =>
    simp only [step, Option.bind_eq_bind, Option.bind_eq_some_iff, updatingCopy_eq_some_iff,
      Option.pure_def, Option.some.injEq] at hstep
    rcases hstep with ⟨copy, hp, rfl⟩
    cases hkept
    exact h.restore hp rfl h.exclusive
  | updated index renamed =>
    simp only [step, Option.bind_eq_bind, Option.bind_eq_some_iff, updatingCopy_eq_some_iff,
      Option.pure_def] at hstep
    rcases hstep with ⟨copy, hp, hstep⟩
    cases hkept
    split at hstep
    . cases hstep
    . split at hstep
      . next hawaited =>
        cases hstep
        refine h.setPreparation (fun hq hactive => h.alone hq hp hactive rfl) (by rw [hp]; rfl) ?_ ?_ nofun
        . rintro copy ⟨⟩
          exact h.copies hp rfl
        . rintro copy binary ⟨⟩
          rcases isAwaited_eq_true hawaited with ⟨hstopped, id, hpreparing⟩
          exact ⟨hstopped, ⟨_, hpreparing, rfl⟩, rfl⟩
      . cases hstep
        exact h.restore hp rfl h.exclusive
  | taskFailed index =>
    simp only [step] at hstep
    split at hstep
    . next how hp =>
      rw [serverStep_eq_some_iff] at hstep
      rcases hstep with ⟨_, server, hserver, rfl⟩
      exact h.prepareFailed (by simp [hp]) hserver
    . cases hstep
  | deadline index renamed =>
    simp only [step] at hstep
    cases hkept
    split at hstep
    . next copy binary hp =>
      rw [serverStep_eq_some_iff] at hstep
      rcases hstep with ⟨_, server, hserver, rfl⟩
      exact h.restore hp rfl (UpdateServer.exclusive_step h.exclusive hserver)
    . next hp =>
      rw [serverStep_eq_some_iff] at hstep
      rcases hstep with ⟨_, server, hserver, rfl⟩
      exact h.prepareFailed (by simp [hp]) hserver
    . next copy hp =>
      rw [serverStep_eq_some_iff] at hstep
      rcases hstep with ⟨_, server, hserver, rfl⟩
      exact h.prepareFailed (by simp [hp]) hserver
    . cases hstep
  | current index removed =>
    simp only [step, Option.bind_eq_bind, Option.bind_eq_some_iff, Prod.exists,
      preparedUpdate_eq_some_iff] at hstep
    rcases hstep with ⟨copy, binary, hp, hstep⟩
    cases hkept
    split at hstep
    . simp only [if_true, serverStep_eq_some_iff] at hstep
      rcases hstep with ⟨_, server, hserver, rfl⟩
      refine h.resolve hp rfl .current nofun (UpdateServer.exclusive_step h.exclusive hserver) rfl rfl
        (.inr ?_)
      exact h.candidate hp ▸ List.mem_cons_self
    . cases hstep
  | spawnFailed index renamed =>
    simp only [step, Option.bind_eq_bind, Option.bind_eq_some_iff, Prod.exists,
      preparedUpdate_eq_some_iff] at hstep
    rcases hstep with ⟨copy, binary, hp, hstep⟩
    cases hkept
    split at hstep
    . cases hstep
    . rw [serverStep_eq_some_iff] at hstep
      rcases hstep with ⟨_, server, hserver, rfl⟩
      exact h.restore hp rfl (UpdateServer.exclusive_step h.exclusive hserver)
  | candidate index =>
    simp only [step, Option.bind_eq_bind, Option.bind_eq_some_iff, Prod.exists,
      preparedUpdate_eq_some_iff, serverStep_eq_some_iff] at hstep
    rcases hstep with ⟨copy, binary, hp, _, server, hserver, rfl⟩
    refine h.server (UpdateServer.exclusive_step h.exclusive hserver) ?_
    intro i copy binary phase _ hphase hupdates
    exact UpdateServer.updates_step hserver (.inr ⟨_, _, rfl⟩) hphase hupdates
  | abort index renamed =>
    simp only [step, Option.bind_eq_bind, Option.bind_eq_some_iff, Prod.exists,
      preparedUpdate_eq_some_iff, serverStep_eq_some_iff] at hstep
    rcases hstep with ⟨copy, binary, hp, _, server, hserver, rfl⟩
    cases hkept
    exact h.restore hp rfl (UpdateServer.exclusive_step h.exclusive hserver)
  | committed index =>
    simp only [step, Option.bind_eq_bind, Option.bind_eq_some_iff, Prod.exists,
      preparedUpdate_eq_some_iff, Option.ite_none_right_eq_some, Option.pure_def,
      Option.some.injEq] at hstep
    rcases hstep with ⟨copy, binary, hp, _, rfl⟩
    refine h.resolve hp rfl .committed nofun h.exclusive rfl rfl (.inr ?_)
    exact h.candidate hp ▸ List.mem_cons_self
  | rolledBack index =>
    simp only [step, Option.bind_eq_bind, Option.bind_eq_some_iff, Prod.exists,
      preparedUpdate_eq_some_iff, serverStep_eq_some_iff] at hstep
    rcases hstep with ⟨copy, binary, hp, _, server, hserver, rfl⟩
    exact h.restore hp rfl (UpdateServer.exclusive_step h.exclusive hserver)
  | dropped index renamed =>
    simp only [step, Option.bind_eq_bind, Option.bind_eq_some_iff, Prod.exists,
      preparedUpdate_eq_some_iff, Option.ite_none_right_eq_some, Option.pure_def,
      Option.some.injEq] at hstep
    rcases hstep with ⟨copy, binary, hp, _, rfl⟩
    cases hkept
    exact h.restore hp rfl h.exclusive
  | shutdown =>
    simp only [step, Option.ite_none_right_eq_some, Bool.and_eq_true, List.all_eq_true, beq_iff_eq,
      Option.some.injEq] at hstep
    rcases hstep with ⟨⟨_, hfinished⟩, rfl⟩
    refine ⟨h.exclusive, ?_, h.alone, h.copies, h.candidate, h.settled, h.resolved, h.kept⟩
    intro i copy binary hp
    rcases h.held hp with ⟨_, phase, hphase, hupdates⟩
    rw [hfinished phase (List.mem_of_getElem? hphase)] at hupdates
    cases hupdates

theorem sound_of_init (h : (installation versionOf).init world) : world.Sound := by
  rcases h with ⟨hserver, hnone, _, horiginal, _, hresolutions⟩
  refine ⟨UpdateServer.exclusive_of_init hserver, ?_, ?_, ?_, ?_, fun _ => .inl horiginal.symm, ?_, ?_⟩
  . simp [hnone]
  . simp [hnone]
  . simp [hnone]
  . simp [hnone]
  . intro i
    simp [resolutionsOf, hresolutions, hnone, expected]
  . simp [hresolutions]

theorem sound_of_reachable
    (h : ((installation versionOf).restrict Owned).Reachable world) : world.Sound := by
  apply h.invariant
  . intro s hinit
    exact @sound_of_init β versionOf s hinit
  . rintro s t e hs ⟨hstep, howned⟩
    exact sound_step hs howned hstep

end Installation

theorem executable_replacement {β : Type} {versionOf : β → ExecutableVersion} {world : Installation β}
    (h : ((installation versionOf).restrict Installation.Owned).Reachable world)
    : (∀ i j p q, world.preparations i = some p → world.preparations j = some q →
        p.isActive = true → q.isActive = true → i = j)
      ∧ (∀ i p, world.preparations i = some p → p.isActive = true → world.resolutionsOf i = [])
      ∧ (∀ i how, world.preparations i = some (.resolved (some how)) →
        world.resolutionsOf i = [how] ∧ how ≠ .lost)
      ∧ ((∀ i p, world.preparations i = some p → p.isRunning = false) →
        world.server.resources.permitFree = true ∨ world.stopped = true →
        ∀ i p, world.preparations i = some p → p.isActive = false)
      ∧ ((∀ i p, world.preparations i = some p → p.isActive = false) →
        world.installed = world.original ∨ world.installed ∈ world.accepted)
      ∧ ∀ world' index, (installation versionOf).step world (.spawn index) world' →
        ∀ i p, world.preparations i = some p → p.isRunning = true →
        i ≠ index ∧ world'.preparations i = some p ∧ world'.preparations index = some .copying := by
  have hsound := Installation.sound_of_reachable h
  refine ⟨fun i j p q => hsound.alone, ?_, ?_, ?_, ?_, ?_⟩
  . intro i p hp hactive
    rw [hsound.resolved, hp]
    cases p with
    | resolved _ => cases hactive
    | _ => rfl
  . intro i how hp
    have hresolutions : world.resolutionsOf i = [how] := by
      rw [hsound.resolved, hp]
      rfl
    refine ⟨hresolutions, ?_⟩
    have hmem : how ∈ world.resolutionsOf i := by
      rw [hresolutions]
      exact List.mem_singleton_self how
    rcases List.mem_map.mp hmem with ⟨entry, hentry, rfl⟩
    exact hsound.kept entry (List.mem_of_mem_filter hentry)
  . intro hidle hrest i p hp
    cases p with
    | copying | updating _ => cases hidle i _ hp
    | resolved _ => rfl
    | prepared copy binary =>
      rcases hsound.held hp with ⟨hstopped, phase, hphase, hupdates⟩
      have htaken := hsound.exclusive.taken hphase (StartPhase.holdsPermit_of_updates hupdates)
      rcases hrest with hfree | hrest
      . rw [htaken] at hfree
        cases hfree
      . rw [hstopped] at hrest
        cases hrest
  . intro hnone
    apply hsound.settled
    intro i p hp
    have hresolved := hnone i p hp
    cases p with
    | resolved _ => rfl
    | _ => cases hresolved
  . intro world' index hstep i p hp hrunning
    simp only [installation, Installation.step, Option.ite_none_right_eq_some, Bool.and_eq_true,
      Option.isNone_iff_eq_none, Option.some.injEq] at hstep
    rcases hstep with ⟨⟨_, hnone⟩, rfl⟩
    have hne : i ≠ index := by
      rintro rfl
      rw [hnone] at hp
      cases hp
    exact ⟨hne, (Function.update_of_ne hne ..).trans hp, Function.update_self ..⟩

namespace Fixture

def freshInstallation : Installation ExecutableVersion where
  server := freshUpdateServer
  installed := updateVersion 0
  preparations _ := none
  stopped := false
  original := updateVersion 0
  accepted := []
  resolutions := []

theorem init_freshInstallation : (installation id).init freshInstallation :=
  ⟨⟨rfl, rfl, rfl, nofun⟩, fun _ => rfl, rfl, rfl, rfl, rfl⟩

def starts (index : Nat) (id : UInt8) : List (InstallationEvent ExecutableVersion) :=
  [.server .start, .server (.handler index .acquire),
    .server (.handler index (.setOperation (operation id))), .spawn index, .copied index]

def updateCommitted : List (InstallationEvent ExecutableVersion) :=
  starts 0 1 ++ [.replaced 0 (updateVersion 1), .updated 0 true, .candidate 0,
    .server (.handler 0 .announce), .server (.handler 0 .send), .server .close, .committed 0]

def committedInstallation : Installation ExecutableVersion where
  server := {
    resources := {
      currentVersion := updateVersion 0
      permitFree := false
      activeOperation := some (operation 1)
      candidate := none
      rollback := none
      issued := [operation 1]
    }
    handlers := [.waiting (operation 1) (updateVersion 1)]
    accepting := false
  }
  installed := updateVersion 1
  preparations :=
    let started := Function.update (Function.update (fun _ => none) 0 (some .copying)) 0
      (some (.updating (updateVersion 0)))
    Function.update (Function.update started 0 (some (.prepared (updateVersion 0) (updateVersion 1)))) 0
      (some (.resolved (some .committed)))
  stopped := true
  original := updateVersion 0
  accepted := [updateVersion 1]
  resolutions := [(0, .committed)]

def updateOverlapped : List (InstallationEvent ExecutableVersion) :=
  starts 0 1 ++ [.replaced 0 (updateVersion 1), .deadline 0 true] ++ starts 1 2
    ++ [.updateFailed 0 true, .updateFailed 1 true, .taskFailed 1]

def overlappedInstallation : Installation ExecutableVersion where
  server := {
    resources := {
      currentVersion := updateVersion 0
      permitFree := true
      activeOperation := some (operation 2)
      candidate := none
      rollback := none
      issued := [operation 2, operation 1]
    }
    handlers := [.released (operation 1) (.failed "remote Attached update could not be prepared"),
      .released (operation 2) (.failed "remote Attached update could not be prepared")]
    accepting := true
  }
  installed := updateVersion 1
  preparations :=
    let first := Function.update (Function.update (fun _ => none) 0 (some .copying)) 0
      (some (.updating (updateVersion 0)))
    let second := Function.update (Function.update first 1 (some .copying)) 1
      (some (.updating (updateVersion 1)))
    Function.update (Function.update second 0 (some (.resolved (some .restored)))) 1
      (some (.resolved (some .restored)))
  stopped := false
  original := updateVersion 0
  accepted := []
  resolutions := [(0, .restored), (1, .restored)]

end Fixture

theorem executable_replacement_committed
    : ((installation id).restrict Installation.Owned).Reachable Fixture.committedInstallation
        ∧ (Fixture.committedInstallation.installed = Fixture.committedInstallation.original
          ∨ Fixture.committedInstallation.installed ∈ Fixture.committedInstallation.accepted) := by
  have hrest {s t : Installation ExecutableVersion} (es : List (InstallationEvent ExecutableVersion))
      (h : System.replay (Installation.step id) s es = some t)
      (hspawn : ∀ event ∈ es, ∀ index, event ≠ .spawn index)
      (hkept : ∀ event ∈ es, event.isKept = true)
      : ((installation id).restrict Installation.Owned).Run s es t := by
    refine (System.Run.of_replay (f := Installation.step id) (fun h => h) h).restrict ?_
    intro world event hevent
    exact ⟨fun index heq => absurd heq (hspawn event hevent index), hkept event hevent⟩
  have hreachable : ((installation id).restrict Installation.Owned).Reachable
      Fixture.committedInstallation := by
    refine ⟨_, _, Fixture.init_freshInstallation, System.Run.append
      (hrest (Fixture.updateCommitted.take 3) rfl ?_ (by decide))
      (System.Run.cons (e := .spawn 0) ⟨show Installation.step id _ _ = some _ from rfl, ?_, rfl⟩
        (hrest (Fixture.updateCommitted.drop 4) rfl ?_ (by decide)))⟩
    . simp [Fixture.updateCommitted, Fixture.starts]
    . intro _ _ i p hp
      cases hp
    . simp [Fixture.updateCommitted, Fixture.starts]
  refine ⟨hreachable, (executable_replacement hreachable).2.2.2.2.1 ?_⟩
  intro i p hp
  simp only [Fixture.committedInstallation, Function.update_apply] at hp
  split at hp
  . cases hp
    rfl
  . cases hp

/--
A preparation that outlives its deadline overlaps with the next one, and a binary that nobody accepted
stays installed.
-/
theorem executable_left_unaccepted
    : ∃ between world, (installation id).Reachable between
        ∧ between.preparations 0 = some (.updating (Fixture.updateVersion 0))
        ∧ between.preparations 1 = some (.updating (Fixture.updateVersion 1))
        ∧ (installation id).Reachable world
        ∧ (∀ i p, world.preparations i = some p → p.isActive = false)
        ∧ world.server.resources.permitFree = true
        ∧ world.installed = Fixture.updateVersion 1
        ∧ world.original = Fixture.updateVersion 0
        ∧ world.accepted = [] := by
  have hreachable {world : Installation ExecutableVersion}
      (es : List (InstallationEvent ExecutableVersion))
      (hrun : System.replay (Installation.step id) Fixture.freshInstallation es = some world)
      : (installation id).Reachable world :=
    ⟨_, es, Fixture.init_freshInstallation, System.Run.of_replay (fun h => h) hrun⟩
  refine ⟨_, Fixture.overlappedInstallation, hreachable (Fixture.updateOverlapped.take 12) rfl, rfl,
    rfl, hreachable Fixture.updateOverlapped rfl, ?_, rfl, rfl, rfl, rfl⟩
  intro i p hp
  simp only [Fixture.overlappedInstallation, Function.update_apply] at hp
  split at hp
  . cases hp
    rfl
  split at hp
  . cases hp
    rfl
  . cases hp

end Attached
