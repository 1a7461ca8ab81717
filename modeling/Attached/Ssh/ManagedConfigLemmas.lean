import Attached.Ssh.ManagedConfig

/-!
This module contains that the exporter only ever puts its block in front of a configuration, and only
ever takes it away from the front, whatever the user does in between.
-/

namespace Attached

namespace ManagedConfig

open Exporter (header fallback maxConfigBytes)

structure Wrote (idle : Prop) (user : UserFiles) (writes : List ConfigWrite) (euid : Nat)
    (world : ConfigWorld) : Prop where
  writes : world.writes = writes
  euid : world.euid = euid
  idle : idle → (∀ turn ∈ world.turns, turn.edit = id) ∧ world.user = user

structure Replaces (euid : Nat) (source target : String) (previous : ConfigFile) (bytes : List UInt8)
    (write : ConfigWrite) : Prop where
  at_target : write.target = target
  writes_bytes : write.bytes = bytes
  resolved : resolve source write.before.entry = .ok target
  unchanged : ∃ latest, readOpened euid (write.before.files target) = .ok latest
    ∧ latest.bytes = previous.bytes ∧ identity latest.metadata = identity previous.metadata

section

variable {idle : Prop} {user : UserFiles} {writes : List ConfigWrite} {euid : Nat} {P : ConfigWorld → Prop}
  {E : String → ConfigWorld → Prop}

theorem triple_lift {x : Except String α} (hE : ∀ e s, P s → E e s)
    : Effect.Triple P (Effect.lift x) (fun a s => x = .ok a ∧ P s) E := by
  intro s t result hP hrun
  rw [Effect.run_lift, Prod.mk.injEq] at hrun
  rcases hrun with ⟨rfl, rfl⟩
  cases x with
  | error e => exact hE e s hP
  | ok a => exact ⟨rfl, hP⟩

theorem triple_turn
    : Effect.Triple (Wrote idle user writes euid) turn (fun _ => Wrote idle user writes euid) E := by
  intro s t result hP hrun
  unfold turn at hrun
  rw [Effect.bind_def, Effect.run_get] at hrun
  dsimp only at hrun
  cases hturns : s.turns with
  | nil =>
    rw [hturns] at hrun
    cases hrun
    exact hP
  | cons first turns =>
    rw [hturns] at hrun
    cases hrun
    refine ⟨hP.writes, hP.euid, ?_⟩
    intro hidle
    rcases hP.idle hidle with ⟨hturn, huser⟩
    rw [hturns] at hturn
    refine ⟨fun turn hmem => hturn turn (List.mem_cons_of_mem _ hmem), ?_⟩
    dsimp only
    rw [hturn first List.mem_cons_self]
    exact huser

theorem triple_step (message : String)
    : Effect.Triple (Wrote idle user writes euid) (step message) (fun _ => Wrote idle user writes euid)
        (fun _ => Wrote idle user writes euid) := by
  apply Effect.Triple.bind triple_turn
  intro turn
  split
  . exact Effect.Triple.lift_error fun _ h => h
  . exact Effect.Triple.pure fun _ h => h

theorem triple_resolveConfig (source : String)
    : Effect.Triple (Wrote idle user writes euid) (resolveConfig source) (fun _ => Wrote idle user writes euid)
        (fun _ => Wrote idle user writes euid) := by
  apply Effect.Triple.bind triple_turn
  intro turn
  split
  . exact Effect.Triple.lift_error fun _ h => h
  . apply Effect.Triple.bind (Q := fun _ => Wrote idle user writes euid) (Effect.Triple.get fun _ h => h)
    intro world
    exact (triple_lift fun _ _ h => h).mono (fun _ h => h) (fun _ _ h => h.2) fun _ _ h => h

theorem triple_readConfig (path : String)
    : Effect.Triple (Wrote idle user writes euid) (readConfig path) (fun _ => Wrote idle user writes euid)
        (fun _ => Wrote idle user writes euid) := by
  apply Effect.Triple.bind triple_turn
  intro turn
  split
  . exact Effect.Triple.lift_error fun _ h => h
  . apply Effect.Triple.bind (Q := fun _ => Wrote idle user writes euid) (Effect.Triple.get fun _ h => h)
    intro world
    exact (triple_lift fun _ _ h => h).mono (fun _ h => h) (fun _ _ h => h.2) fun _ _ h => h

theorem triple_publish (hosts : String)
    : Effect.Triple (Wrote idle user writes euid) (publish hosts) (fun _ => Wrote idle user writes euid)
        (fun _ => Wrote idle user writes euid) := by
  apply Effect.Triple.bind (triple_lift fun _ _ h => h)
  intro _
  apply Effect.Triple.bind (triple_turn.mono (fun _ h => h.2) (fun _ _ h => h) fun _ _ h => h)
  intro _
  exact Effect.Triple.modify fun _ h => ⟨h.writes, h.euid, h.idle⟩

theorem triple_clearDiscovery
    : Effect.Triple (Wrote idle user writes euid) clearDiscovery (fun _ => Wrote idle user writes euid) E := by
  apply Effect.Triple.bind triple_turn
  intro _
  exact Effect.Triple.pure fun _ h => h

theorem triple_recheckAndRename (source target : String) (previous : ConfigFile) (bytes : List UInt8)
    : Effect.Triple (Wrote idle user writes euid) (recheckAndRename source target previous bytes)
        (fun _ s => ∃ write, Wrote False user (write :: writes) euid s
          ∧ Replaces euid source target previous bytes write)
        (fun _ => Wrote idle user writes euid) := by
  apply Effect.Triple.bind triple_turn
  intro turn
  apply Effect.Triple.bind (Q := fun world s => Wrote idle user writes euid s ∧ s = world)
    (Effect.Triple.get fun _ h => ⟨h, rfl⟩)
  intro world
  apply Effect.Triple.bind (triple_lift fun _ _ h => h.1)
  intro resolved
  apply Effect.Triple.bind (triple_lift fun _ _ h => h.2.1)
  intro _
  apply Effect.Triple.bind (triple_lift fun _ _ h => h.2.2.1)
  intro latest
  apply Effect.Triple.bind (triple_lift fun _ _ h => h.2.2.2.1)
  intro _
  split
  . exact Effect.Triple.lift_error fun _ h => h.2.2.2.2.1
  . apply Effect.Triple.modify
    rintro s ⟨hsame, hlatest, htarget, hresolved, ⟨hwrites, heuid, _⟩, rfl⟩
    simp only [Except.ensure_eq_ok_iff, Bool.and_eq_true, beq_iff_eq] at hsame htarget
    refine ⟨_, ⟨congrArg _ hwrites, heuid, False.elim⟩, rfl, rfl, ?_, latest, ?_, hsame.1, hsame.2⟩
    . rw [hresolved, htarget]
    . rw [← heuid]
      exact hlatest

theorem triple_replaceConfig (source target : String) (previous : ConfigFile) (bytes : List UInt8)
    : Effect.Triple (Wrote idle user writes euid) (replaceConfig source target previous bytes)
        (fun _ s => (previous.bytes = bytes ∧ Wrote idle user writes euid s)
          ∨ ∃ write, previous.bytes ≠ bytes ∧ Wrote False user (write :: writes) euid s
            ∧ Replaces euid source target previous bytes write)
        (fun _ => Wrote idle user writes euid) := by
  unfold replaceConfig
  split
  . next hsame => exact Effect.Triple.pure fun _ h => .inl ⟨beq_iff_eq.mp hsame, h⟩
  . next hdiffers =>
    apply Effect.Triple.bind (triple_lift fun _ _ h => h)
    intro _
    apply Effect.Triple.bind (triple_lift fun _ _ h => h.2)
    intro _
    apply Effect.Triple.bind ((triple_step ioError).mono (fun _ h => h.2.2) (fun _ _ h => h) fun _ _ h => h)
    intro _
    apply Effect.Triple.bind (triple_step ioError)
    intro _
    apply Effect.Triple.bind (triple_step ioError)
    intro _
    apply Effect.Triple.bind (triple_step ioError)
    intro _
    apply (triple_recheckAndRename source target previous bytes).mono (fun _ h => h) _ fun _ _ h => h
    rintro _ s ⟨write, h, hreplaces⟩
    exact .inr ⟨write, fun heq => hdiffers (beq_iff_eq.mpr heq), h, hreplaces⟩

def Unmarked (bytes : List UInt8) : Prop :=
  containsMarker bytes beginMarker = false ∧ containsMarker bytes endMarker = false

theorem withoutBlock_eq_ok_iff {bytes block original : List UInt8}
    : withoutBlock bytes block = .ok original
        ↔
      original = (if block.isPrefixOf bytes then bytes.drop block.length else bytes)
        ∧ Unmarked original := by
  unfold withoutBlock Unmarked
  simp only [Except.bind_eq_ok_iff, Except.ensure_eq_ok_iff, Bool.and_eq_true, Bool.not_eq_true',
    Except.pure_eq_ok_iff]
  constructor
  . rintro ⟨_, h, rfl⟩
    exact ⟨rfl, h⟩
  . rintro ⟨rfl, h⟩
    exact ⟨(), h, rfl⟩

theorem eq_append_of_isPrefixOf {block bytes : List UInt8} (h : block.isPrefixOf bytes = true)
    : bytes = block ++ bytes.drop block.length :=
  (List.prefix_iff_eq_append.mp (List.isPrefixOf_iff_prefix.mp h)).symm

def PutsBlock (euid : Nat) (managed : ManagedConfig) (write : ConfigWrite) : Prop :=
  ∃ previous, Unmarked previous.bytes
    ∧ Replaces euid managed.source managed.target previous (managed.block ++ previous.bytes) write

def TakesBlock (euid : Nat) (managed : ManagedConfig) (write : ConfigWrite) : Prop :=
  ∃ previous bytes, previous.bytes = managed.block ++ bytes
    ∧ Replaces euid managed.source managed.target previous bytes write

theorem triple_install (ssh : String)
    : Effect.Triple (Wrote idle user writes euid) (install ssh)
        (fun managed s => managed.source = Broker.join ssh "config"
          ∧ blockOf (Broker.join ssh "attached") = .ok managed.block
          ∧ (Wrote idle user writes euid s
            ∨ ∃ write, Wrote False user (write :: writes) euid s ∧ PutsBlock euid managed write))
        (fun _ => Wrote idle user writes euid) := by
  unfold install
  apply Effect.Triple.bind (triple_step ioError)
  intro _
  apply Effect.Triple.bind (Q := fun _ => Wrote idle user writes euid) (Effect.Triple.get fun _ h => h)
  intro world
  apply Effect.Triple.bind (triple_lift fun _ _ h => h)
  intro _
  apply Effect.Triple.bind ((triple_resolveConfig _).mono (fun _ h => h.2) (fun _ _ h => h) fun _ _ h => h)
  intro target
  apply Effect.Triple.bind (triple_lift fun _ _ h => h)
  intro _
  apply Effect.Triple.bind (triple_lift fun _ _ h => h.2)
  intro block
  apply Effect.Triple.intro
  rintro s ⟨hblock, _, h⟩
  apply Effect.Triple.bind ((triple_readConfig target).mono (by rintro _ rfl; exact h) (fun _ _ h => h)
    fun _ _ h => h)
  intro current
  apply Effect.Triple.bind (triple_lift fun _ _ h => h)
  intro original
  apply Effect.Triple.intro
  rintro t ⟨horiginal, h⟩
  rcases withoutBlock_eq_ok_iff.mp horiginal with ⟨hrest, hunmarked⟩
  apply Effect.Triple.bind ((triple_publish "").mono (by rintro _ rfl; exact h) (fun _ _ h => h)
    fun _ _ h => h)
  intro _
  apply Effect.Triple.bind (triple_replaceConfig _ target current (block ++ original))
  intro _
  apply Effect.Triple.intro
  rintro u (⟨_, h⟩ | ⟨write, hdiffers, h, hreplaces⟩)
  . apply Effect.Triple.bind (triple_clearDiscovery.mono (by rintro _ rfl; exact h) (fun _ _ h => h)
      fun _ _ h => h)
    intro _
    exact Effect.Triple.pure fun _ h => ⟨rfl, hblock, .inl h⟩
  . apply Effect.Triple.bind (triple_clearDiscovery.mono (by rintro _ rfl; exact h) (fun _ _ h => h)
      fun _ _ h => h)
    intro _
    have hcurrent : current.bytes = original := by
      by_cases hbegins : block.isPrefixOf current.bytes = true
      . rw [if_pos hbegins] at hrest
        rw [hrest] at hdiffers
        exact absurd (eq_append_of_isPrefixOf hbegins) hdiffers
      . rw [if_neg hbegins] at hrest
        exact hrest.symm
    rw [← hcurrent] at hunmarked hreplaces
    exact Effect.Triple.pure fun _ h => ⟨rfl, hblock, .inr ⟨write, h, current, hunmarked, hreplaces⟩⟩

theorem triple_cleanup (managed : ManagedConfig)
    : Effect.Triple (Wrote idle user writes euid) managed.cleanup
        (fun _ s => Wrote idle user writes euid s
          ∨ ∃ write, Wrote False user (write :: writes) euid s ∧ TakesBlock euid managed write)
        (fun _ => Wrote idle user writes euid) := by
  unfold cleanup
  apply Effect.Triple.bind triple_clearDiscovery
  intro _
  apply Effect.Triple.bind (triple_publish "")
  intro _
  apply Effect.Triple.bind (triple_resolveConfig _)
  intro target
  apply Effect.Triple.bind (triple_lift fun _ _ h => h)
  intro _
  apply Effect.Triple.bind ((triple_readConfig _).mono (fun _ h => h.2) (fun _ _ h => h) fun _ _ h => h)
  intro current
  split
  . next hblock =>
    apply (triple_replaceConfig _ _ current _).mono (fun _ h => h) _ fun _ _ h => h
    rintro _ s (⟨_, h⟩ | ⟨write, _, h, hreplaces⟩)
    . exact .inl h
    . exact .inr ⟨write, h, current, _, eq_append_of_isPrefixOf hblock, hreplaces⟩
  . split
    . exact Effect.Triple.lift_error fun _ h => h
    . exact Effect.Triple.pure fun _ h => .inl h

end

def IsConfig (euid : Nat) (source target : String) (current : ConfigFile) (user : UserFiles) : Prop :=
  resolve source user.entry = .ok target ∧ readOpened euid (user.files target) = .ok current

section

variable {world : ConfigWorld} {source target : String} {current : ConfigFile}

theorem run_turn (hturns : world.turns = []) : turn.run world = (.ok .idle, world) := by
  unfold turn
  rw [Effect.bind_def, Effect.run_get]
  dsimp only
  rw [hturns]
  rfl

theorem run_step (hturns : world.turns = []) (message : String)
    : (step message).run world = (.ok (), world) := by
  unfold step
  rw [Effect.run_bind_of_ok (run_turn hturns)]
  rfl

theorem run_resolveConfig (hturns : world.turns = [])
    : (resolveConfig source).run world = (resolve source world.user.entry, world) := by
  unfold resolveConfig
  rw [Effect.run_bind_of_ok (run_turn hturns)]
  rfl

theorem run_readConfig (hturns : world.turns = [])
    : (readConfig target).run world = (readOpened world.euid (world.user.files target), world) := by
  unfold readConfig
  rw [Effect.run_bind_of_ok (run_turn hturns)]
  rfl

theorem run_clearDiscovery (hturns : world.turns = []) : clearDiscovery.run world = (.ok (), world) := by
  unfold clearDiscovery
  rw [Effect.run_bind_of_ok (run_turn hturns)]
  rfl

def noHosts : List UInt8 :=
  Bytes.ofString (header ++ "" ++ fallback)

theorem run_publish (hturns : world.turns = [])
    : (publish "").run world = (.ok (), { world with managed := some noHosts }) := by
  have hsize : Except.ensure (decide (noHosts.length ≤ maxConfigBytes))
      "generated SSH configuration is too large" = .ok PUnit.unit := by
    rw [Except.ensure_eq_ok_iff]
    decide +kernel
  unfold publish
  dsimp only
  rw [show Bytes.ofString (header ++ "" ++ fallback) = noHosts from rfl, hsize, Effect.lift_ok, pure_bind,
    Effect.run_bind_of_ok (run_turn hturns)]
  rfl

theorem checkManaged_noHosts : checkManaged (some noHosts) = .ok () := by
  decide +kernel

def replaced (target : String) (current : ConfigFile) (bytes : List UInt8) (world : ConfigWorld)
    : ConfigWorld :=
  { world with
    user := persist target (newFile world.euid (0, 0) current.metadata bytes) world.user
    writes := ⟨world.user, target, bytes⟩ :: world.writes }

theorem run_recheckAndRename (hturns : world.turns = [])
    (h : IsConfig world.euid source target current world.user) (bytes : List UInt8)
    : (recheckAndRename source target current bytes).run world
        =
      (.ok (), replaced target current bytes world) := by
  unfold recheckAndRename
  rw [Effect.run_bind_of_ok (run_turn hturns), Effect.bind_def, Effect.run_get]
  dsimp only
  rw [h.1, h.2]
  simp only [Effect.lift_ok, pure_bind, beq_self_eq_true, Bool.and_self, Except.ensure]
  rfl

theorem run_replaceConfig (hturns : world.turns = [])
    (h : IsConfig world.euid source target current world.user) (hparent : target ≠ "/")
    {bytes : List UInt8} (hdiffers : current.bytes ≠ bytes) (hsize : bytes.length ≤ maxConfigBytes)
    : (replaceConfig source target current bytes).run world
        =
      (.ok (), replaced target current bytes world) := by
  unfold replaceConfig
  rw [if_neg (by simpa using hdiffers)]
  simp only [decide_eq_true hsize, bne_iff_ne.mpr hparent, Except.ensure, if_true, Effect.lift_ok, pure_bind]
  rw [Effect.run_bind_of_ok (run_step hturns _), Effect.run_bind_of_ok (run_step hturns _),
    Effect.run_bind_of_ok (run_step hturns _), Effect.run_bind_of_ok (run_step hturns _)]
  exact run_recheckAndRename hturns h bytes

theorem resolve_persist {entry : ConfigEntry} {files : String → Opened} {file : UserFile}
    (h : resolve source entry = .ok target)
    : resolve source (persist target file ⟨entry, files⟩).entry = .ok target := by
  cases entry with
  | missing => rfl
  | resolves other => exact h
  | broken => cases h

theorem mode_newFile {euid : Nat} {opened : Opened} (h : readOpened euid opened = .ok current)
    (created : Nat × Nat) (bytes : List UInt8)
    : (newFile euid created current.metadata bytes).metadata.mode &&& 0o022 = 0 := by
  have hmode (mode : Nat) (hmode : mode &&& 0o022 = 0)
      : (0o100000 ||| (mode &&& 0o777)) &&& 0o022 = 0 := by
    rw [Nat.and_or_distrib_right, Nat.and_assoc]
    simpa using hmode
  unfold readOpened validateOwnerPermissions at h
  split at h
  . cases h
    show (0o100000 ||| 0o600) &&& 0o022 = 0
    decide
  . cases h
  . simp only [Except.bind_eq_ok_iff, Except.ensure_eq_ok_iff, Except.pure_eq_ok_iff, beq_iff_eq] at h
    rcases h with ⟨_, _, _, ⟨_, _, hpermissions⟩, _, _, rfl⟩
    exact hmode _ hpermissions

theorem isConfig_replaced (h : IsConfig world.euid source target current world.user)
    {bytes : List UInt8} (hsize : bytes.length ≤ maxConfigBytes)
    : ∃ metadata, IsConfig world.euid source target ⟨bytes, metadata⟩
        (replaced target current bytes world).user := by
  refine ⟨some (newFile world.euid (0, 0) current.metadata bytes).metadata, resolve_persist h.1, ?_⟩
  have hmode := mode_newFile h.2 (0, 0) bytes
  unfold replaced persist
  dsimp only
  rw [Function.update_self]
  unfold readOpened validateOwnerPermissions
  dsimp only
  rw [hmode, show (newFile world.euid (0, 0) current.metadata bytes).bytes = bytes from rfl,
    decide_eq_true hsize]
  simp only [newFile, beq_self_eq_true, Bool.and_self, Except.ensure, if_true]
  rfl

structure Installable (ssh target : String) (block : List UInt8) (current : ConfigFile)
    (world : ConfigWorld) : Prop where
  turns : world.turns = []
  managed : checkManaged world.managed = .ok ()
  config : IsConfig world.euid (Broker.join ssh "config") target current world.user
  outside : isInside target (Broker.join ssh "attached") = false
  parent : target ≠ "/"
  block : blockOf (Broker.join ssh "attached") = .ok block

theorem run_install {ssh : String} {block : List UInt8} (h : Installable ssh target block current world)
    : (install ssh).run world
        =
      match withoutBlock current.bytes block with
      | .error message => (.error message, world)
      | .ok original =>
        (do
          replaceConfig (Broker.join ssh "config") target current (block ++ original)
          clearDiscovery
          return ManagedConfig.mk (Broker.join ssh "config") target block).run
            { world with managed := some noHosts } := by
  unfold install
  dsimp only
  rw [Effect.run_bind_of_ok (run_step h.turns _), Effect.bind_def, Effect.run_get]
  dsimp only
  rw [h.managed, Effect.lift_ok, pure_bind, Effect.run_bind_of_ok ((run_resolveConfig h.turns).trans
    (by rw [h.config.1])), h.outside]
  simp only [Bool.not_false, Except.ensure, if_true, Effect.lift_ok, pure_bind, h.block]
  rw [Effect.run_bind_of_ok ((run_readConfig h.turns).trans (by rw [h.config.2]))]
  cases withoutBlock current.bytes block with
  | error message => rfl
  | ok original =>
    rw [Effect.lift_ok, pure_bind, Effect.run_bind_of_ok (run_publish h.turns)]

theorem containsMarker_iff {bytes marker : List UInt8}
    : containsMarker bytes marker = true ↔ marker <:+: bytes := by
  unfold containsMarker
  rw [List.any_eq_true, List.infix_iff_prefix_suffix]
  simp only [List.mem_tails, List.isPrefixOf_iff_prefix]
  constructor
  . rintro ⟨tail, hsuffix, hbegins⟩
    exact ⟨tail, hbegins, hsuffix⟩
  . rintro ⟨tail, hbegins, hsuffix⟩
    exact ⟨tail, hsuffix, hbegins⟩

theorem blockOf_eq_ok {managed : String} {block : List UInt8} (h : blockOf managed = .ok block)
    : beginMarker <+: block := by
  unfold blockOf at h
  simp only [Except.bind_eq_ok_iff, Except.pure_eq_ok_iff] at h
  rcases h with ⟨path, _, rfl⟩
  rw [List.append_assoc]
  exact List.prefix_append _ _

theorem Unmarked.not_isPrefixOf {managed : String} {block bytes : List UInt8} (h : Unmarked bytes)
    (hblock : blockOf managed = .ok block) : block.isPrefixOf bytes = false := by
  rw [← Bool.not_eq_true, List.isPrefixOf_iff_prefix]
  intro hbegins
  have hmarked := containsMarker_iff.mpr ((blockOf_eq_ok hblock).trans hbegins).isInfix
  rw [h.1] at hmarked
  cases hmarked

theorem withoutBlock_append {block bytes : List UInt8} (h : Unmarked bytes)
    : withoutBlock (block ++ bytes) block = .ok bytes := by
  rw [withoutBlock_eq_ok_iff, if_pos (List.isPrefixOf_iff_prefix.mpr (List.prefix_append _ _)),
    List.drop_left]
  exact ⟨rfl, h⟩

theorem withoutBlock_of_unmarked {managed : String} {block bytes : List UInt8} (h : Unmarked bytes)
    (hblock : blockOf managed = .ok block) : withoutBlock bytes block = .ok bytes := by
  rw [withoutBlock_eq_ok_iff, h.not_isPrefixOf hblock]
  exact ⟨rfl, h⟩

theorem block_ne_nil {managed : String} {block : List UInt8} (hblock : blockOf managed = .ok block)
    : block ≠ [] := by
  rintro rfl
  have hbegins := blockOf_eq_ok hblock
  rw [List.prefix_nil] at hbegins
  exact absurd hbegins (by decide +kernel)

variable {ssh : String} {block : List UInt8}

theorem install_puts (h : Installable ssh target block current world) (hunmarked : Unmarked current.bytes)
    (hsize : (block ++ current.bytes).length ≤ maxConfigBytes)
    : ∃ installed metadata, (install ssh).run world
          = (.ok ⟨Broker.join ssh "config", target, block⟩, installed)
        ∧ Installable ssh target block ⟨block ++ current.bytes, metadata⟩ installed := by
  have hdiffers : current.bytes ≠ block ++ current.bytes := by
    intro heq
    have hlength := congrArg List.length heq
    rw [List.length_append] at hlength
    exact block_ne_nil h.block (List.eq_nil_of_length_eq_zero (by omega))
  rcases isConfig_replaced h.config hsize with ⟨metadata, hconfig⟩
  refine ⟨replaced target current (block ++ current.bytes) { world with managed := some noHosts },
    metadata, ?_, ?_⟩
  . rw [run_install h, withoutBlock_of_unmarked hunmarked h.block]
    dsimp only
    have hreplace : (replaceConfig (Broker.join ssh "config") target current (block ++ current.bytes)).run
        { world with managed := some noHosts }
          = (.ok (), replaced target current (block ++ current.bytes)
            { world with managed := some noHosts }) :=
      run_replaceConfig (by exact h.turns) (by exact h.config) h.parent hdiffers hsize
    rw [Effect.run_bind_of_ok hreplace]
    exact Effect.run_bind_of_ok (run_clearDiscovery (by exact h.turns))
  . exact ⟨h.turns, checkManaged_noHosts, hconfig, h.outside, h.parent, h.block⟩

theorem install_keeps {original : List UInt8} (h : Installable ssh target block current world)
    (hcurrent : current.bytes = block ++ original) (hunmarked : Unmarked original)
    : (install ssh).run world
        =
      (.ok ⟨Broker.join ssh "config", target, block⟩, { world with managed := some noHosts }) := by
  rw [run_install h, hcurrent, withoutBlock_append hunmarked]
  dsimp only
  unfold replaceConfig
  rw [if_pos (beq_iff_eq.mpr hcurrent), pure_bind]
  exact Effect.run_bind_of_ok (run_clearDiscovery (by exact h.turns))

theorem install_refuses (h : Installable ssh target block current world)
    (hmarked : ∀ original, withoutBlock current.bytes block ≠ .ok original)
    : ∃ message, (install ssh).run world = (.error message, world) := by
  rw [run_install h]
  cases hrest : withoutBlock current.bytes block with
  | error message => exact ⟨message, rfl⟩
  | ok original => exact absurd hrest (hmarked original)

theorem install_too_large (h : Installable ssh target block current world)
    (hunmarked : Unmarked current.bytes) (hsize : maxConfigBytes < (block ++ current.bytes).length)
    : ∃ message after, (install ssh).run world = (.error message, after) := by
  have hdiffers : (current.bytes == block ++ current.bytes) = false := by
    rw [beq_eq_false_iff_ne]
    intro heq
    have hlength := congrArg List.length heq
    rw [List.length_append] at hlength
    exact block_ne_nil h.block (List.eq_nil_of_length_eq_zero (by omega))
  refine ⟨"SSH configuration is too large", { world with managed := some noHosts }, ?_⟩
  rw [run_install h, withoutBlock_of_unmarked hunmarked h.block]
  dsimp only
  unfold replaceConfig
  rw [hdiffers, decide_eq_false (by omega)]
  rfl

theorem run_cleanup {managed : ManagedConfig} (hturns : world.turns = [])
    (h : IsConfig world.euid managed.source managed.target current world.user)
    : managed.cleanup.run world
        =
      (if managed.block.isPrefixOf current.bytes then
        replaceConfig managed.source managed.target current (current.bytes.drop managed.block.length)
      else if containsMarker current.bytes beginMarker then
        Effect.lift (.error "managed SSH Include was edited; leaving the user's changes untouched")
      else
        return ()).run { world with managed := some noHosts } := by
  unfold cleanup
  rw [Effect.run_bind_of_ok (run_clearDiscovery hturns), Effect.run_bind_of_ok (run_publish hturns)]
  have hresolve : (resolveConfig managed.source).run { world with managed := some noHosts }
      = (.ok managed.target, { world with managed := some noHosts }) := by
    rw [run_resolveConfig (by exact hturns)]
    dsimp only
    rw [h.1]
  have hread : (readConfig managed.target).run { world with managed := some noHosts }
      = (.ok current, { world with managed := some noHosts }) := by
    rw [run_readConfig (by exact hturns)]
    dsimp only
    rw [h.2]
  rw [Effect.run_bind_of_ok hresolve]
  simp only [beq_self_eq_true, Except.ensure, if_true, Effect.lift_ok, pure_bind]
  rw [Effect.run_bind_of_ok hread]

theorem cleanup_unreadable {managed : ManagedConfig} (hturns : world.turns = [])
    (h : ∀ current, ¬IsConfig world.euid managed.source managed.target current world.user)
    : ∃ message, managed.cleanup.run world
        = (.error message, { world with managed := some noHosts }) := by
  unfold cleanup
  rw [Effect.run_bind_of_ok (run_clearDiscovery hturns), Effect.run_bind_of_ok (run_publish hturns)]
  have hresolve : (resolveConfig managed.source).run { world with managed := some noHosts }
      = (resolve managed.source world.user.entry, { world with managed := some noHosts }) :=
    run_resolveConfig (by exact hturns)
  have hread : (readConfig managed.target).run { world with managed := some noHosts }
      = (readOpened world.euid (world.user.files managed.target),
        { world with managed := some noHosts }) :=
    run_readConfig (by exact hturns)
  cases hresolved : resolve managed.source world.user.entry with
  | error message =>
    rw [hresolved] at hresolve
    exact ⟨message, Effect.run_bind_of_error hresolve⟩
  | ok target =>
    rw [hresolved] at hresolve
    rw [Effect.run_bind_of_ok hresolve]
    by_cases htarget : target = managed.target
    . rw [htarget] at hresolved
      cases hopened : readOpened world.euid (world.user.files managed.target) with
      | error message =>
        rw [hopened] at hread
        rw [Effect.run_ensure_bind (beq_iff_eq.mpr htarget)]
        exact ⟨message, Effect.run_bind_of_error hread⟩
      | ok current => exact absurd ⟨hresolved, hopened⟩ (h current)
    . exact ⟨_, Effect.run_ensure_bind_of_false (beq_eq_false_iff_ne.mpr htarget)⟩

theorem length_of_readOpened {euid : Nat} {opened : Opened} (h : readOpened euid opened = .ok current)
    : current.bytes.length ≤ maxConfigBytes := by
  unfold readOpened validateOwnerPermissions at h
  split at h
  . cases h
    exact Nat.zero_le _
  . cases h
  . simp only [Except.bind_eq_ok_iff, Except.ensure_eq_ok_iff, Except.pure_eq_ok_iff,
      decide_eq_true_eq] at h
    rcases h with ⟨_, _, _, _, _, hsize, rfl⟩
    exact hsize

theorem cleanup_takes {managed : ManagedConfig} {bytes : List UInt8} (hturns : world.turns = [])
    (h : IsConfig world.euid managed.source managed.target current world.user)
    (hparent : managed.target ≠ "/") (hblock : managed.block ≠ [])
    (hcurrent : current.bytes = managed.block ++ bytes)
    : ∃ cleaned metadata, managed.cleanup.run world = (.ok (), cleaned)
        ∧ IsConfig world.euid managed.source managed.target ⟨bytes, metadata⟩ cleaned.user := by
  have hdiffers : current.bytes ≠ bytes := by
    rw [hcurrent]
    intro heq
    have hlength := congrArg List.length heq
    rw [List.length_append] at hlength
    exact hblock (List.eq_nil_of_length_eq_zero (by omega))
  have hsize : bytes.length ≤ maxConfigBytes := by
    have hread := length_of_readOpened h.2
    rw [hcurrent, List.length_append] at hread
    omega
  have hreplace : (replaceConfig managed.source managed.target current bytes).run
      { world with managed := some noHosts }
        = (.ok (), replaced managed.target current bytes { world with managed := some noHosts }) :=
    run_replaceConfig (by exact hturns) (by exact h) hparent hdiffers hsize
  rcases isConfig_replaced h hsize with ⟨metadata, hconfig⟩
  refine ⟨replaced managed.target current bytes { world with managed := some noHosts }, metadata, ?_,
    hconfig⟩
  rw [run_cleanup hturns h, hcurrent, if_pos (List.isPrefixOf_iff_prefix.mpr (List.prefix_append _ _)),
    List.drop_left]
  exact hreplace

theorem cleanup_keeps {managed : ManagedConfig} (hturns : world.turns = [])
    (h : IsConfig world.euid managed.source managed.target current world.user)
    (hcurrent : managed.block.isPrefixOf current.bytes = false)
    : (managed.cleanup.run world).2.user = world.user
        ∧ ((∃ message, (managed.cleanup.run world).1 = .error message)
          ↔ containsMarker current.bytes beginMarker = true) := by
  rw [run_cleanup hturns h, hcurrent, if_neg Bool.false_ne_true]
  split
  . next hmarked => exact ⟨rfl, fun _ => hmarked, fun _ => ⟨_, rfl⟩⟩
  . next hmarked =>
    refine ⟨rfl, ?_, fun h => absurd h hmarked⟩
    rintro ⟨message, h⟩
    cases h

theorem install_accepts {managed : ManagedConfig} {installed : ConfigWorld}
    (h : Installable ssh target block current world) (hblock : block.isPrefixOf current.bytes = false)
    (hrun : (install ssh).run world = (.ok managed, installed))
    : Unmarked current.bytes ∧ (block ++ current.bytes).length ≤ maxConfigBytes := by
  have hunmarked : Unmarked current.bytes := by
    rw [run_install h] at hrun
    cases hrest : withoutBlock current.bytes block with
    | error message =>
      rw [hrest] at hrun
      cases hrun
    | ok original =>
      rcases withoutBlock_eq_ok_iff.mp hrest with ⟨horiginal, hunmarked⟩
      rw [hblock, if_neg Bool.false_ne_true] at horiginal
      rwa [← horiginal]
  refine ⟨hunmarked, ?_⟩
  by_contra hsize
  rcases install_too_large h hunmarked (by omega) with ⟨message, after, herror⟩
  rw [herror] at hrun
  cases hrun

end

section

variable {world after : ConfigWorld}

theorem wrote (world : ConfigWorld)
    : Wrote (∀ turn ∈ world.turns, turn.edit = id) world.user world.writes world.euid world :=
  ⟨rfl, rfl, fun hidle => ⟨hidle, rfl⟩⟩

theorem install_writes {ssh : String} {result : Except String ManagedConfig}
    (hrun : (install ssh).run world = (result, after))
    : after.writes = world.writes
        ∨ ∃ managed write, result = .ok managed ∧ after.writes = write :: world.writes
          ∧ blockOf (Broker.join ssh "attached") = .ok managed.block
          ∧ PutsBlock world.euid managed write := by
  have hpost := triple_install ssh world after result (wrote world) hrun
  cases result with
  | error message => exact .inl hpost.writes
  | ok managed =>
    rcases hpost with ⟨_, hblock, h | ⟨write, h, hputs⟩⟩
    . exact .inl h.writes
    . exact .inr ⟨managed, write, rfl, h.writes, hblock, hputs⟩

theorem cleanup_writes {managed : ManagedConfig} {result : Except String Unit}
    (hrun : managed.cleanup.run world = (result, after))
    : after.writes = world.writes
        ∨ ∃ write, result = .ok () ∧ after.writes = write :: world.writes
          ∧ TakesBlock world.euid managed write := by
  have hpost := triple_cleanup managed world after result (wrote world) hrun
  cases result with
  | error message => exact .inl hpost.writes
  | ok _ =>
    rcases hpost with h | ⟨write, h, htakes⟩
    . exact .inl h.writes
    . exact .inr ⟨write, rfl, h.writes, htakes⟩

theorem replaceConfig_writes {source target : String} {previous : ConfigFile} {bytes : List UInt8}
    {result : Except String Unit}
    (hrun : (replaceConfig source target previous bytes).run world = (result, after))
    : after.writes = world.writes
        ∨ ∃ write, after.writes = write :: world.writes
          ∧ Replaces world.euid source target previous bytes write := by
  have hpost := triple_replaceConfig source target previous bytes world after result (wrote world) hrun
  cases result with
  | error message => exact .inl hpost.writes
  | ok _ =>
    rcases hpost with ⟨_, h⟩ | ⟨write, _, h, hreplaces⟩
    . exact .inl h.writes
    . exact .inr ⟨write, h.writes, hreplaces⟩

theorem install_fails {ssh message : String} (hidle : ∀ turn ∈ world.turns, turn.edit = id)
    (hrun : (install ssh).run world = (.error message, after)) : after.user = world.user :=
  ((triple_install ssh world after _ (wrote world) hrun).idle hidle).2

theorem cleanup_fails {managed : ManagedConfig} {message : String}
    (hidle : ∀ turn ∈ world.turns, turn.edit = id)
    (hrun : managed.cleanup.run world = (.error message, after)) : after.user = world.user :=
  ((triple_cleanup managed world after _ (wrote world) hrun).idle hidle).2

end

end ManagedConfig

open ManagedConfig in
theorem install_cleanup_inverse (ssh target : String) (block : List UInt8)
    : (∀ world current, Installable ssh target block current world →
          (block.isPrefixOf current.bytes = false → ∀ managed installed,
            (install ssh).run world = (.ok managed, installed) →
              managed = ⟨Broker.join ssh "config", target, block⟩
              ∧ ∃ metadata again, Installable ssh target block ⟨block ++ current.bytes, metadata⟩ installed
                ∧ (install ssh).run installed = (.ok managed, again) ∧ again.user = installed.user)
          ∧ (containsMarker (if block.isPrefixOf current.bytes then current.bytes.drop block.length
              else current.bytes) beginMarker = true
            ∨ containsMarker (if block.isPrefixOf current.bytes then current.bytes.drop block.length
              else current.bytes) endMarker = true →
              ∃ message, (install ssh).run world = (.error message, world)))
        ∧ (∀ world current (managed : ManagedConfig), world.turns = [] → managed.target ≠ "/" →
          managed.block ≠ [] →
          IsConfig world.euid managed.source managed.target current world.user →
            (∀ bytes, current.bytes = managed.block ++ bytes → ∃ cleaned metadata,
              managed.cleanup.run world = (.ok (), cleaned)
              ∧ IsConfig world.euid managed.source managed.target ⟨bytes, metadata⟩ cleaned.user)
            ∧ (managed.block.isPrefixOf current.bytes = false →
              (managed.cleanup.run world).2.user = world.user
              ∧ ((∃ message, (managed.cleanup.run world).1 = .error message)
                ↔ containsMarker current.bytes beginMarker = true)))
        ∧ (∀ world (managed : ManagedConfig), world.turns = [] →
          (∀ current, ¬IsConfig world.euid managed.source managed.target current world.user) →
            ∃ message after, managed.cleanup.run world = (.error message, after)
              ∧ after.user = world.user)
        ∧ (∀ (world after : ConfigWorld) message, (∀ turn ∈ world.turns, turn.edit = id) →
          ((install ssh).run world = (.error message, after) → after.user = world.user)
          ∧ ∀ managed : ManagedConfig, managed.cleanup.run world = (.error message, after) →
            after.user = world.user)
        ∧ (∀ (world after : ConfigWorld) result, (install ssh).run world = (result, after) →
          after.writes = world.writes
          ∨ ∃ managed write, result = .ok managed ∧ after.writes = write :: world.writes
            ∧ blockOf (Broker.join ssh "attached") = .ok managed.block
            ∧ PutsBlock world.euid managed write)
        ∧ (∀ (managed : ManagedConfig) (world after : ConfigWorld) result,
          managed.cleanup.run world = (result, after) →
          after.writes = world.writes
          ∨ ∃ write, result = .ok () ∧ after.writes = write :: world.writes
            ∧ TakesBlock world.euid managed write)
        ∧ ∀ source target previous bytes (world after : ConfigWorld) result,
          (replaceConfig source target previous bytes).run world = (result, after) →
          after.writes = world.writes
          ∨ ∃ write, after.writes = write :: world.writes
            ∧ Replaces world.euid source target previous bytes write := by
  refine ⟨?_, ?_, ?_, ?_, fun _ _ _ => install_writes, fun _ _ _ _ => cleanup_writes,
    fun _ _ _ _ _ _ _ => replaceConfig_writes⟩
  . intro world current h
    constructor
    . intro hblock managed installed hrun
      rcases install_accepts h hblock hrun with ⟨hunmarked, hsize⟩
      rcases install_puts h hunmarked hsize with ⟨installed', metadata, hputs, hagain⟩
      rw [hputs] at hrun
      cases hrun
      exact ⟨rfl, metadata, _, hagain, install_keeps hagain rfl hunmarked, rfl⟩
    . intro hmarked
      apply install_refuses h
      intro original horiginal
      rcases withoutBlock_eq_ok_iff.mp horiginal with ⟨rfl, hbegin, hend⟩
      rcases hmarked with hmarked | hmarked
      . rw [hbegin] at hmarked
        cases hmarked
      . rw [hend] at hmarked
        cases hmarked
  . intro world current managed hturns hparent hblock hconfig
    exact ⟨fun bytes => cleanup_takes hturns hconfig hparent hblock, cleanup_keeps hturns hconfig⟩
  . intro world managed hturns hunreadable
    rcases cleanup_unreadable hturns hunreadable with ⟨message, hrun⟩
    exact ⟨message, _, hrun, rfl⟩
  . intro world after message hidle
    exact ⟨install_fails hidle, fun managed => cleanup_fails hidle⟩

namespace Fixture

def userMetadata : ConfigMetadata where
  isFile := true
  nlink := 1
  uid := 1000
  dev := 1
  ino := 2
  mode := 0o100600

def configWorld (bytes : List UInt8) : ConfigWorld where
  euid := 1000
  user := {
    entry := .resolves "/home/user/.ssh/config"
    files := fun _ => .file ⟨bytes, userMetadata⟩
  }
  managed := none
  turns := []
  writes := []

def installedConfig : ManagedConfig where
  source := "/home/user/.ssh/config"
  target := "/home/user/.ssh/config"
  block := ManagedConfig.beginMarker
    ++ Bytes.ofString "Include \"/home/user/.ssh/attached/config\"\nHost *\n" ++ ManagedConfig.endMarker

theorem blockOf_installedConfig
    : ManagedConfig.blockOf (Broker.join "/home/user/.ssh" "attached") = .ok installedConfig.block := by
  decide +kernel

def userBytes : List UInt8 :=
  Bytes.ofString "Host build\n  User ci\n"

theorem installable_userBytes
    : ManagedConfig.Installable "/home/user/.ssh" "/home/user/.ssh/config" installedConfig.block
        ⟨userBytes, some userMetadata⟩ (configWorld userBytes) where
  turns := rfl
  managed := rfl
  config := ⟨rfl, rfl⟩
  outside := by decide +kernel
  parent := by decide
  block := blockOf_installedConfig

end Fixture

open ManagedConfig in
theorem install_cleanup_inverse_edited
    : ∃ installed again, (install "/home/user/.ssh").run (Fixture.configWorld Fixture.userBytes)
          = (.ok Fixture.installedConfig, installed)
        ∧ (install "/home/user/.ssh").run installed = (.ok Fixture.installedConfig, again)
        ∧ again.user = installed.user
        ∧ ∃ cleaned metadata, Fixture.installedConfig.cleanup.run
            (Fixture.configWorld (Fixture.installedConfig.block ++ Bytes.ofString "Host other\n"))
            = (.ok (), cleaned)
          ∧ IsConfig 1000 Fixture.installedConfig.source Fixture.installedConfig.target
            ⟨Bytes.ofString "Host other\n", metadata⟩ cleaned.user := by
  have hall := install_cleanup_inverse "/home/user/.ssh" "/home/user/.ssh/config"
    Fixture.installedConfig.block
  have hblock : Fixture.installedConfig.block.isPrefixOf Fixture.userBytes = false := by
    decide +kernel
  have hok : ((install "/home/user/.ssh").run (Fixture.configWorld Fixture.userBytes)).1.isOk = true := by
    decide +kernel
  rcases hrun : (install "/home/user/.ssh").run (Fixture.configWorld Fixture.userBytes) with
    ⟨result, installed⟩
  rw [hrun] at hok
  cases result with
  | error message => cases hok
  | ok managed =>
    rcases (hall.1 _ _ Fixture.installable_userBytes).1 hblock managed installed hrun with
      ⟨rfl, metadata, again, _, hagain, huser⟩
    have hconfig : IsConfig 1000 Fixture.installedConfig.source Fixture.installedConfig.target
        ⟨Fixture.installedConfig.block ++ Bytes.ofString "Host other\n", some Fixture.userMetadata⟩
        (Fixture.configWorld
          (Fixture.installedConfig.block ++ Bytes.ofString "Host other\n")).user := by
      refine ⟨rfl, ?_⟩
      decide +kernel
    exact ⟨installed, again, rfl, hagain, huser,
      (hall.2.1 _ _ Fixture.installedConfig rfl (by decide) (block_ne_nil Fixture.blockOf_installedConfig)
        hconfig).1 _ rfl⟩

namespace Fixture

def largeBytes : List UInt8 :=
  List.replicate (Exporter.maxConfigBytes + 1) 0

theorem not_containsMarker_largeBytes {marker : List UInt8} (h : 0x23 ∈ marker)
    : ManagedConfig.containsMarker largeBytes marker = false := by
  rw [← Bool.not_eq_true, ManagedConfig.containsMarker_iff]
  intro hwithin
  exact absurd (List.eq_of_mem_replicate (hwithin.subset h)) (by decide)

theorem readOpened_largeBytes
    : ManagedConfig.readOpened 1000 (.file ⟨largeBytes, userMetadata⟩)
        =
      .error "SSH configuration is too large" := by
  unfold ManagedConfig.readOpened
  dsimp only
  rw [show largeBytes.length = Exporter.maxConfigBytes + 1 from List.length_replicate]
  rfl

end Fixture

/-- A cleanup fails on a configuration that is too large, without any marker in it. -/
theorem cleanup_large_config
    : ManagedConfig.blockOf "/home/user/.ssh/attached" = .ok Fixture.installedConfig.block
        ∧ (Fixture.configWorld Fixture.largeBytes).user.files "/home/user/.ssh/config"
          = .file ⟨Fixture.largeBytes, Fixture.userMetadata⟩
        ∧ Fixture.installedConfig.block.isPrefixOf Fixture.largeBytes = false
        ∧ ManagedConfig.containsMarker Fixture.largeBytes ManagedConfig.beginMarker = false
        ∧ ∃ message, (Fixture.installedConfig.cleanup.run (Fixture.configWorld Fixture.largeBytes)).1
          = .error message := by
  have hbegin : ManagedConfig.containsMarker Fixture.largeBytes ManagedConfig.beginMarker = false :=
    Fixture.not_containsMarker_largeBytes (by decide +kernel)
  have hend : ManagedConfig.containsMarker Fixture.largeBytes ManagedConfig.endMarker = false :=
    Fixture.not_containsMarker_largeBytes (by decide +kernel)
  have hblock : ManagedConfig.blockOf "/home/user/.ssh/attached" = .ok Fixture.installedConfig.block :=
    Fixture.blockOf_installedConfig
  refine ⟨hblock, rfl, ManagedConfig.Unmarked.not_isPrefixOf ⟨hbegin, hend⟩ hblock, hbegin, ?_⟩
  have hunreadable : ∀ current, ¬ManagedConfig.IsConfig 1000 Fixture.installedConfig.source
      Fixture.installedConfig.target current (Fixture.configWorld Fixture.largeBytes).user := by
    rintro current ⟨_, hread⟩
    cases Fixture.readOpened_largeBytes.symm.trans hread
  rcases ManagedConfig.cleanup_unreadable rfl hunreadable with ⟨message, hrun⟩
  exact ⟨message, by rw [hrun]⟩

end Attached
