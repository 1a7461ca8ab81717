import Attached.Client.Broker
import Attached.Library.Registry

/-!
This module contains the proof that the leases of a client broker are isolated from each other and
bounded, whatever its handlers do in whatever order.
-/

namespace Attached

namespace ClientBroker

variable {C : Type} [DecidableEq C] {token : C → Except Failure Token} {broker broker' : Broker C}
  {phase phase' : Phase C} {s t : Processes C (Broker C) (Phase C)}

structure Moves (broker : Broker C) (phase phase' : Phase C) : Prop where
  notReturned : phase.isReturned = false
  leased : phase'.leased = phase.leased
  registered : phase'.registered = phase.registered
  holdsOwn : phase'.holdsOwn = true → phase.holdsOwn = true ∧ phase'.uses = phase.uses
  uses : ∀ found, phase'.uses = some found →
    phase.uses = some found ∨ broker.leases[found.token]? = some found.lease
  reached : ∀ found c, phase'.reached = some (found, c) →
    phase.reached = some (found, c)
      ∨ (phase.uses = some found
        ∧ ∃ key : Token, (broker.lease found.lease).connections[key]? = some c)
  closed : ∀ found key ready result, phase' ≠ .unregistering found key ready result

omit [DecidableEq C] in
theorem moves_returned (ready : Bool) (result : Except Failure Unit)
    (hphase : phase.isReturned = false) (hleased : phase.leased = none)
    (hregistered : phase.registered = none) : Moves broker phase (.returned ready result) where
  notReturned := hphase
  leased := hleased.symm
  registered := hregistered.symm
  holdsOwn := nofun
  uses := nofun
  reached := nofun
  closed := nofun

inductive Change (token : C → Except Failure Token) (c : C) (broker : Broker C)
    : Phase C → Broker C → Phase C → Prop
  | move {phase phase' : Phase C} (h : Moves broker phase phase') : Change token c broker phase broker phase'
  | grant {key : Token} {identity : Vector UInt8 32} (htoken : token c = .ok key)
      (hsize : broker.leases.size < maxLeases) :
      Change token c broker (.handling (.lease identity))
        { broker with
          leases := broker.leases.insert key c
          lease := Function.update broker.lease c { cancelled := false, connections := ∅ } }
        (.granting key)
  | cancel {key : Token} {ready : Bool} {result : Except Failure Unit} :
      Change token c broker (.ending key ready result)
        { broker with
          lease := Function.update broker.lease c { broker.lease c with cancelled := true } }
        (.removing key ready result)
  | remove {key : Token} {ready : Bool} {result : Except Failure Unit} :
      Change token c broker (.removing key ready result)
        { broker with leases := broker.leases.erase key } (.returned ready result)
  | establish {found : Found C} {endpoint : Nat} :
      Change token c broker (.dialing found endpoint)
        { broker with
          connection := Function.update broker.connection c
            (some { lease := found.token, closed := false }) }
        (.connected found)
  | refuse {found : Found C} {e : Failure} :
      Change token c broker (.connected found) (broker.closeConnection c)
        (.returned false (.error e))
  | register {found : Found C} {key : Token} (htoken : token c = .ok key)
      (hsize : (broker.lease found.lease).connections.size < maxConnections) :
      Change token c broker (.connected found)
        (broker.setConnections found.lease
          ((broker.lease found.lease).connections.insert key c))
        (.introducing found key)
  | close {found : Found C} {key : Token} {ready : Bool} {result : Except Failure Unit} :
      Change token c broker (.closing found key ready result) (broker.closeConnection c)
        (.unregistering found key ready result)
  | unregister {found : Found C} {key : Token} {ready : Bool} {result : Except Failure Unit} :
      Change token c broker (.unregistering found key ready result)
        (broker.setConnections found.lease ((broker.lease found.lease).connections.erase key))
        (.returned ready result)

theorem change_of_fail {c : C} {message : String}
    (h : broker.fail message = some (broker', phase')) (hphase : phase.isReturned = false)
    (hleased : phase.leased = none) (hregistered : phase.registered = none) : Change token c broker phase broker' phase' := by
  cases h
  exact .move (moves_returned _ _ hphase hleased hregistered)

theorem change_of_lookup {c : C} {key : Token} {use : Use}
    (h : broker.lookup key use = some (broker', phase')) (hphase : phase.isReturned = false)
    (hleased : phase.leased = none) (hregistered : phase.registered = none) : Change token c broker phase broker' phase' := by
  unfold Broker.lookup at h
  split at h
  . exact change_of_fail h hphase hleased hregistered
  . next lease hlease =>
    cases h
    refine .move ⟨hphase, hleased.symm, hregistered.symm, nofun, ?_, nofun, nofun⟩
    rintro found ⟨⟩
    exact Or.inr hlease

omit [DecidableEq C] in
theorem moves_of_uses (hphase : phase.isReturned = false) (hleased : phase'.leased = phase.leased)
    (hregistered : phase'.registered = phase.registered) (huses : phase'.uses = phase.uses)
    (hholdsOwn : phase'.holdsOwn = true → phase.holdsOwn = true)
    (hreached : ∀ found c, phase'.reached = some (found, c) → phase.reached = some (found, c))
    (hclosed : ∀ found key ready result, phase' ≠ .unregistering found key ready result)
    : Moves broker phase phase' where
  notReturned := hphase
  leased := hleased
  registered := hregistered
  holdsOwn := fun h => ⟨hholdsOwn h, huses⟩
  uses := by
    intro found hfound
    rw [huses] at hfound
    exact Or.inl hfound
  reached := fun found c h => Or.inl (hreached found c h)
  closed := hclosed

omit [DecidableEq C] in
theorem moves_of_reached {found : Found C} {key : Token} {c : C}
    (hfound : (broker.lease found.lease).connections[key]? = some c)
    (hphase : phase.isReturned = false) (hleased : phase.leased = none) (hregistered : phase.registered = none)
    (huses : phase.uses = some found) (hleased' : phase'.leased = none)
    (hregistered' : phase'.registered = none) (huses' : phase'.uses = some found)
    (hreached : phase'.reached = some (found, c)) (hholdsOwn : phase'.holdsOwn = false)
    : Moves broker phase phase' where
  notReturned := hphase
  leased := by rw [hleased', hleased]
  registered := by rw [hregistered', hregistered]
  holdsOwn := by simp [hholdsOwn]
  uses := by
    intro found' hfound'
    rw [huses', ← huses] at hfound'
    exact Or.inl hfound'
  reached := by
    intro found' d hd
    rw [hreached] at hd
    cases hd
    exact Or.inr ⟨huses, key, hfound⟩
  closed := by
    rintro found' key' ready result rfl
    cases hregistered'

theorem change_of_act {c : C} {action : Action}
    (h : act token c broker phase action = some (broker', phase'))
    : Change token c broker phase broker' phase' := by
  unfold act at h
  split at h
  -- the request
  . split at h
    . cases h
      exact .move (moves_returned _ _ rfl rfl rfl)
    . split at h
      . cases h
        exact .move (moves_of_uses rfl rfl rfl rfl nofun nofun nofun)
      . exact change_of_fail h rfl rfl rfl
  -- Status
  . split at h
    . cases h
      exact .move (moves_of_uses rfl rfl rfl rfl nofun nofun nofun)
    . exact change_of_fail h rfl rfl rfl
  . split at h <;> cases h <;> exact .move (moves_of_uses rfl rfl rfl rfl nofun nofun nofun)
  . cases h
    exact .move (moves_returned _ _ rfl rfl rfl)
  -- Lease
  . split at h
    . split at h
      . cases h
        exact .move (moves_returned _ _ rfl rfl rfl)
      . next key hkey =>
        split at h
        . next hsize =>
          cases h
          exact .grant hkey hsize
        . exact change_of_fail h rfl rfl rfl
    . exact change_of_fail h rfl rfl rfl
  . split at h <;> cases h <;> exact .move (moves_of_uses rfl rfl rfl rfl nofun nofun nofun)
  . cases h
    exact .move (moves_of_uses rfl rfl rfl rfl nofun nofun nofun)
  . cases h
    exact .cancel
  . cases h
    exact .remove
  -- Connect
  . split at h
    . exact change_of_lookup h rfl rfl rfl
    . exact change_of_fail h rfl rfl rfl
  . split at h
    . exact change_of_fail h rfl rfl rfl
    . split at h <;> cases h <;> exact .move (moves_of_uses rfl rfl rfl rfl nofun nofun nofun)
  . split at h
    . cases h
    . split at h
      . exact change_of_fail h rfl rfl rfl
      . cases h
        exact .move (moves_of_uses rfl rfl rfl rfl nofun nofun nofun)
  . split at h
    . exact change_of_fail h rfl rfl rfl
    . cases h
  . exact change_of_fail h rfl rfl rfl
  . cases h
    exact .move (moves_returned _ _ rfl rfl rfl)
  . split at h
    . exact change_of_fail h rfl rfl rfl
    . cases h
  . exact change_of_fail h rfl rfl rfl
  . split at h
    . cases h
      exact .move (moves_returned _ _ rfl rfl rfl)
    . cases h
      exact .establish
  . split at h
    . cases h
      exact .move (moves_returned _ _ rfl rfl rfl)
    . next key hkey =>
      dsimp only at h
      split at h
      . cases h
        exact .refuse
      . next hsize =>
        cases h
        exact .register hkey (by omega)
  . split at h <;> cases h <;> exact .move (moves_of_uses rfl rfl rfl rfl (fun _ => rfl) nofun nofun)
  . split at h <;> cases h
    exact .move (moves_of_uses rfl rfl rfl rfl (fun _ => rfl) nofun nofun)
  . split at h <;> cases h
    exact .move (moves_of_uses rfl rfl rfl rfl (fun _ => rfl) nofun nofun)
  . cases h
    exact .move (moves_of_uses rfl rfl rfl rfl (fun _ => rfl) nofun nofun)
  . cases h
    exact .close
  . cases h
    exact .unregister
  -- Inspect
  . exact change_of_lookup h rfl rfl rfl
  . split at h
    . exact change_of_fail h rfl rfl rfl
    . next hconnection =>
      cases h
      exact .move (moves_of_reached hconnection rfl rfl rfl rfl rfl rfl rfl rfl rfl)
  . split at h
    . exact change_of_fail h rfl rfl rfl
    . cases h
      exact .move (moves_of_uses rfl rfl rfl rfl nofun (fun _ _ h => h) nofun)
  . cases h
    exact .move (moves_returned _ _ rfl rfl rfl)
  -- Open
  . exact change_of_lookup h rfl rfl rfl
  . split at h
    . exact change_of_fail h rfl rfl rfl
    . next hconnection =>
      cases h
      exact .move (moves_of_reached hconnection rfl rfl rfl rfl rfl rfl rfl rfl rfl)
  . split at h
    . exact change_of_fail h rfl rfl rfl
    . cases h
  . split at h <;> cases h
    . exact .move (moves_returned _ _ rfl rfl rfl)
    . exact .move (moves_of_uses rfl rfl rfl rfl nofun (fun _ _ h => h) nofun)
  . split at h <;> cases h
    . exact .move (moves_returned _ _ rfl rfl rfl)
    . exact .move (moves_of_uses rfl rfl rfl rfl nofun (fun _ _ h => h) nofun)
  . cases h
    exact .move (moves_returned _ _ rfl rfl rfl)
  . cases h

theorem dialing_of_act {c : C} {action : Action} {found : Found C} {endpoint : Nat}
    (h : act token c broker phase action = some (broker', .dialing found endpoint))
    : phase = .connecting found ∧ broker.endpoint = some endpoint := by
  unfold act Broker.fail Broker.lookup at h
  repeat' split at h
  all_goals try (cases h; done)
  . next hendpoint =>
    cases h
    exact ⟨rfl, hendpoint⟩
  . dsimp only at h
    split at h <;> cases h

theorem endpoint_of_act {c : C} {action : Action}
    (h : act token c broker phase action = some (broker', phase'))
    : broker'.endpoint = broker.endpoint := by
  cases change_of_act h <;> rfl

def Shares (s : Processes C (Broker C) (Phase C)) (key : Token) (c : C) : Prop :=
  ∃ connection, s.shared.connection c = some connection
    ∧ connection.lease = key
    ∧ ((s.phase c).registered.isSome = true
      ∨ (connection.closed = true ∧ (s.phase c).isReturned = true))

structure Consistent (token : C → Except Failure Token) (s : Processes C (Broker C) (Phase C))
    : Prop where
  leases : Registry.Lists s.shared.leases fun c key => (s.phase c).leased = some key
  connections : ∀ lease, Registry.Lists (s.shared.lease lease).connections
    fun c key => ∃ found, (s.phase c).registered = some (found, key) ∧ found.lease = lease
  leases_le : s.shared.leases.size ≤ maxLeases
  connections_le : ∀ lease, (s.shared.lease lease).connections.size ≤ maxConnections
  leased : ∀ c key, (s.phase c).leased = some key → token c = .ok key
  registered : ∀ c found key, (s.phase c).registered = some (found, key) → token c = .ok key
  uses : ∀ c found, (s.phase c).uses = some found →
    token found.lease = .ok found.token
      ∧ ((s.phase found.lease).leased.isSome = true ∨ (s.phase found.lease).isReturned = true)
  own : ∀ c found, (s.phase c).uses = some found → (s.phase c).holdsOwn = true →
    ∃ connection, s.shared.connection c = some connection ∧ connection.lease = found.token
  closed : ∀ c found key ready result, s.phase c = .unregistering found key ready result →
    ∃ connection, s.shared.connection c = some connection ∧ connection.closed = true
  reached : ∀ c found d, (s.phase c).reached = some (found, d) → Shares s found.token d

omit [DecidableEq C] in
theorem uses_of_registered {found : Found C} {key : Token} (h : phase.registered = some (found, key))
    : phase.uses = some found ∧ phase.holdsOwn = true := by
  cases phase <;> cases h <;> exact ⟨rfl, rfl⟩

omit [DecidableEq C] in
theorem uses_of_reached {found : Found C} {c : C} (h : phase.reached = some (found, c))
    : phase.uses = some found := by
  cases phase <;> cases h <;> rfl

omit [DecidableEq C] in
theorem not_registered_of_fresh {c d : C} {found : Found C} {key : Token}
    (hs : Consistent token s) (hleased : (s.phase c).leased = none)
    (hreturned : (s.phase c).isReturned = false)
    (h : (s.phase d).registered = some (found, key)) : found.lease ≠ c := by
  rintro rfl
  rcases (hs.uses d found (uses_of_registered h).1).2 with hsome | htrue
  . rw [hleased] at hsome
    cases hsome
  . rw [hreturned] at htrue
    cases htrue

section

variable {c : C} (hs : Consistent token s) (hothers : ∀ d, d ≠ c → t.phase d = s.phase d)
  (hchange : Change token c s.shared (s.phase c) t.shared (t.phase c))

include hs hothers

theorem leases_congr (hleases : t.shared.leases = s.shared.leases)
    (hleased : (t.phase c).leased = (s.phase c).leased)
    : Registry.Lists t.shared.leases fun d key => (t.phase d).leased = some key := by
  rw [hleases]
  apply hs.leases.congr
  intro d key
  by_cases hd : d = c
  . rw [hd, hleased]
  . rw [hothers d hd]

include hchange in
theorem leases_step (hdistinct : ∀ {d e key}, token d = .ok key → token e = .ok key → d = e)
    : Registry.Lists t.shared.leases fun d key => (t.phase d).leased = some key := by
  have hcongr := leases_congr hs hothers
  generalize hbefore : s.phase c = phase at hchange hcongr
  generalize hafter : t.phase c = phase' at hchange hcongr
  generalize hshared : t.shared = broker' at hchange hcongr
  cases hchange with
  | move h => exact hcongr rfl h.leased
  | @grant key identity htoken hsize =>
    apply hs.leases.insert (c := c)
    . intro d hd
      rw [hdistinct (hs.leased d key hd) htoken, hbefore] at hd
      cases hd
    . intro key'
      rw [hbefore]
      nofun
    . intro key'
      rw [hafter, Phase.leased, Option.some.injEq, eq_comm]
    . intro d hd key'
      rw [hothers d hd]
  | cancel => exact hcongr rfl rfl
  | @remove key ready result =>
    apply hs.leases.erase (c := c)
    . intro key'
      rw [hbefore, Phase.leased, Option.some.injEq, eq_comm]
    . intro key'
      rw [hafter]
      nofun
    . intro d hd key'
      rw [hothers d hd]
  | establish => exact hcongr rfl rfl
  | refuse => exact hcongr rfl rfl
  | register => exact hcongr rfl rfl
  | close => exact hcongr rfl rfl
  | unregister => exact hcongr rfl rfl

theorem connections_congr (lease : C)
    (hconnections : (t.shared.lease lease).connections = (s.shared.lease lease).connections)
    (hregistered : ∀ key, (∃ found, (t.phase c).registered = some (found, key) ∧ found.lease = lease)
      ↔ ∃ found, (s.phase c).registered = some (found, key) ∧ found.lease = lease)
    : Registry.Lists (t.shared.lease lease).connections
        fun d key => ∃ found, (t.phase d).registered = some (found, key) ∧ found.lease = lease := by
  rw [hconnections]
  apply (hs.connections lease).congr
  intro d key
  by_cases hd : d = c
  . rw [hd, hregistered]
  . rw [hothers d hd]

include hchange in
theorem connections_step (hdistinct : ∀ {d e key}, token d = .ok key → token e = .ok key → d = e)
    (lease : C)
    : Registry.Lists (t.shared.lease lease).connections
        fun d key => ∃ found, (t.phase d).registered = some (found, key) ∧ found.lease = lease := by
  have hcongr := connections_congr hs hothers lease
  have hfresh := @not_registered_of_fresh C token s c
  generalize hbefore : s.phase c = phase at hchange hcongr hfresh
  generalize hafter : t.phase c = phase' at hchange hcongr
  generalize hshared : t.shared = broker' at hchange hcongr
  cases hchange with
  | move h =>
    apply hcongr rfl
    intro key
    rw [h.registered]
  | grant =>
    by_cases hlease : lease = c
    . rw [hlease]
      dsimp only
      rw [Function.update_self]
      apply Registry.lists_empty
      rintro d key' ⟨found, hregistered, hfound⟩
      by_cases hd : d = c
      . rw [hd, hafter] at hregistered
        cases hregistered
      . rw [hothers d hd] at hregistered
        exact hfresh hs rfl rfl hregistered hfound
    . apply hcongr _ (fun _ => Iff.rfl)
      dsimp only
      rw [Function.update_of_ne hlease]
  | cancel =>
    apply hcongr _ (fun _ => Iff.rfl)
    by_cases hlease : lease = c
    . rw [hlease]
      dsimp only
      rw [Function.update_self]
    . dsimp only
      rw [Function.update_of_ne hlease]
  | remove => exact hcongr rfl fun _ => Iff.rfl
  | establish => exact hcongr rfl fun _ => Iff.rfl
  | refuse => exact hcongr rfl fun _ => Iff.rfl
  | @register found key htoken hsize =>
    by_cases hlease : lease = found.lease
    . rw [hlease]
      dsimp only [Broker.setConnections]
      rw [Function.update_self]
      apply (hs.connections found.lease).insert (c := c)
      . rintro d ⟨found', hregistered, _⟩
        rw [hdistinct (hs.registered d found' key hregistered) htoken, hbefore] at hregistered
        cases hregistered
      . rw [hbefore]
        rintro key' ⟨_, hregistered, _⟩
        cases hregistered
      . intro key'
        rw [hafter]
        simp [Phase.registered, eq_comm]
      . intro d hd key'
        rw [hothers d hd]
    . apply hcongr
      . dsimp only [Broker.setConnections]
        rw [Function.update_of_ne hlease]
      . simp [Phase.registered, Ne.symm hlease]
  | close => exact hcongr rfl fun _ => Iff.rfl
  | @unregister found key ready result =>
    by_cases hlease : lease = found.lease
    . rw [hlease]
      dsimp only [Broker.setConnections]
      rw [Function.update_self]
      apply (hs.connections found.lease).erase (c := c)
      . intro key'
        rw [hbefore]
        simp [Phase.registered, eq_comm]
      . rw [hafter]
        rintro key' ⟨_, hregistered, _⟩
        cases hregistered
      . intro d hd key'
        rw [hothers d hd]
    . apply hcongr
      . dsimp only [Broker.setConnections]
        rw [Function.update_of_ne hlease]
      . simp [Phase.registered, Ne.symm hlease]

include hchange in
omit hothers in
theorem leases_le_step : t.shared.leases.size ≤ maxLeases := by
  have hbefore := hs.leases_le
  generalize s.phase c = phase at hchange
  generalize t.phase c = phase' at hchange
  generalize t.shared = broker' at hchange
  cases hchange with
  | @grant key identity htoken hsize =>
    have hinsert := Std.TreeMap.size_insert_le (t := s.shared.leases) (k := key) (v := c)
    dsimp only
    omega
  | @remove key ready result =>
    have herase := Std.TreeMap.size_erase_le (t := s.shared.leases) (k := key)
    dsimp only
    omega
  | _ => exact hbefore

include hchange in
omit hothers in
theorem connections_le_step (lease : C)
    : (t.shared.lease lease).connections.size ≤ maxConnections := by
  have hbefore := hs.connections_le
  generalize s.phase c = phase at hchange
  generalize t.phase c = phase' at hchange
  generalize t.shared = broker' at hchange
  cases hchange with
  | grant =>
    by_cases hlease : lease = c
    . simp [hlease]
    . simpa [hlease] using hbefore lease
  | cancel =>
    by_cases hlease : lease = c
    . simpa [hlease] using hbefore c
    . simpa [hlease] using hbefore lease
  | @register found key htoken hsize =>
    have hinsert := Std.TreeMap.size_insert_le
      (t := (s.shared.lease found.lease).connections) (k := key) (v := c)
    by_cases hlease : lease = found.lease
    . simp only [hlease, Broker.setConnections, Function.update_self]
      omega
    . simpa [Broker.setConnections, hlease] using hbefore lease
  | @unregister found key ready result =>
    have herase := Std.TreeMap.size_erase_le
      (t := (s.shared.lease found.lease).connections) (k := key)
    have hle := hbefore found.lease
    by_cases hlease : lease = found.lease
    . simp only [hlease, Broker.setConnections, Function.update_self]
      omega
    . simpa [Broker.setConnections, hlease] using hbefore lease
  | _ => exact hbefore lease

include hchange in
theorem leased_step (d : C) (key : Token) (h : (t.phase d).leased = some key)
    : token d = .ok key := by
  by_cases hd : d = c
  . rw [hd] at h ⊢
    have hbefore := hs.leased c key
    generalize s.phase c = phase at hchange hbefore
    generalize t.phase c = phase' at hchange h
    generalize t.shared = broker' at hchange
    cases hchange with
    | move hmoves =>
      rw [hmoves.leased] at h
      exact hbefore h
    | grant htoken =>
      cases h
      exact htoken
    | cancel => exact hbefore h
    | _ => cases h
  . rw [hothers d hd] at h
    exact hs.leased d key h

include hchange in
theorem registered_step (d : C) (found : Found C) (key : Token)
    (h : (t.phase d).registered = some (found, key)) : token d = .ok key := by
  by_cases hd : d = c
  . rw [hd] at h ⊢
    have hbefore := hs.registered c found key
    generalize s.phase c = phase at hchange hbefore
    generalize t.phase c = phase' at hchange h
    generalize t.shared = broker' at hchange
    cases hchange with
    | move hmoves =>
      rw [hmoves.registered] at h
      exact hbefore h
    | register htoken =>
      cases h
      exact htoken
    | close => exact hbefore h
    | _ => cases h
  . rw [hothers d hd] at h
    exact hs.registered d found key h

include hchange in
omit hs in
theorem past_step (d : C) (h : (s.phase d).leased.isSome = true ∨ (s.phase d).isReturned = true)
    : (t.phase d).leased.isSome = true ∨ (t.phase d).isReturned = true := by
  by_cases hd : d = c
  . rw [hd] at h ⊢
    generalize s.phase c = phase at hchange h
    generalize t.phase c = phase' at hchange
    generalize t.shared = broker' at hchange
    cases hchange with
    | move hmoves =>
      rw [hmoves.notReturned] at h
      rw [hmoves.leased]
      exact Or.inl (h.resolve_right nofun)
    | cancel => exact Or.inl rfl
    | remove => exact Or.inr rfl
    | _ => rcases h with ⟨⟨⟩⟩ | ⟨⟨⟩⟩
  . rw [hothers d hd]
    exact h

include hchange in
theorem uses_step (d : C) (found : Found C) (h : (t.phase d).uses = some found)
    : token found.lease = .ok found.token
        ∧ ((t.phase found.lease).leased.isSome = true
          ∨ (t.phase found.lease).isReturned = true) := by
  have hpast : token found.lease = .ok found.token
      ∧ ((s.phase found.lease).leased.isSome = true
        ∨ (s.phase found.lease).isReturned = true) := by
    by_cases hd : d = c
    . rw [hd] at h
      have hbefore := hs.uses c found
      generalize s.phase c = phase at hchange hbefore
      generalize t.phase c = phase' at hchange h
      generalize t.shared = broker' at hchange
      cases hchange with
      | move hmoves =>
        rcases hmoves.uses found h with huses | hlease
        . exact hbefore huses
        . have hleased := (hs.leases found.token found.lease).mp hlease
          refine ⟨hs.leased _ _ hleased, Or.inl ?_⟩
          rw [hleased]
          rfl
      | establish => exact hbefore h
      | register => exact hbefore h
      | close => exact hbefore h
      | _ => cases h
    . rw [hothers d hd] at h
      exact hs.uses d found h
  exact ⟨hpast.1, past_step hothers hchange found.lease hpast.2⟩

include hchange in
omit hs hothers in
theorem connection_of_ne {d : C} (hd : d ≠ c) : t.shared.connection d = s.shared.connection d := by
  generalize s.phase c = phase at hchange
  generalize t.phase c = phase' at hchange
  generalize t.shared = broker' at hchange
  cases hchange with
  | establish => exact Function.update_of_ne hd _ _
  | refuse => exact Function.update_of_ne hd _ _
  | close => exact Function.update_of_ne hd _ _
  | _ => rfl

include hchange in
theorem own_step (d : C) (found : Found C) (huses : (t.phase d).uses = some found)
    (hown : (t.phase d).holdsOwn = true)
    : ∃ connection, t.shared.connection d = some connection ∧ connection.lease = found.token := by
  by_cases hd : d = c
  . rw [hd] at huses hown ⊢
    have hbefore := hs.own c found
    generalize s.phase c = phase at hchange hbefore
    generalize t.phase c = phase' at hchange huses hown
    generalize t.shared = broker' at hchange
    cases hchange with
    | move hmoves =>
      rcases hmoves.holdsOwn hown with ⟨hown, hsame⟩
      rw [hsame] at huses
      exact hbefore huses hown
    | establish =>
      cases huses
      exact ⟨_, Function.update_self _ _ _, rfl⟩
    | register => exact hbefore huses rfl
    | close =>
      rcases hbefore huses rfl with ⟨connection, hconnection, hlease⟩
      refine ⟨{ connection with closed := true }, ?_, hlease⟩
      simp [Broker.closeConnection, hconnection]
    | _ => cases huses
  . rw [hothers d hd] at huses hown
    rw [connection_of_ne hchange hd]
    exact hs.own d found huses hown

include hchange in
theorem closed_step (d : C) (found : Found C) (key : Token) (ready : Bool)
    (result : Except Failure Unit) (h : t.phase d = .unregistering found key ready result)
    : ∃ connection, t.shared.connection d = some connection ∧ connection.closed = true := by
  by_cases hd : d = c
  . rw [hd] at h ⊢
    have hbefore := hs.own c found
    generalize s.phase c = phase at hchange hbefore
    generalize t.phase c = phase' at hchange h
    generalize t.shared = broker' at hchange
    cases hchange with
    | move hmoves => exact absurd h (hmoves.closed found key ready result)
    | close =>
      cases h
      rcases hbefore rfl rfl with ⟨connection, hconnection, _⟩
      refine ⟨{ connection with closed := true }, ?_, rfl⟩
      simp [Broker.closeConnection, hconnection]
    | _ => cases h
  . rw [hothers d hd] at h
    rw [connection_of_ne hchange hd]
    exact hs.closed d found key ready result h

include hchange in
theorem shares_step (d : C) (key : Token) (h : Shares s key d) : Shares t key d := by
  rcases h with ⟨connection, hconnection, hlease, h⟩
  unfold Shares
  by_cases hd : d = c
  . rw [hd] at hconnection h ⊢
    have hclosed := hs.closed c
    generalize s.phase c = phase at hchange hclosed h
    generalize t.phase c = phase' at hchange
    generalize t.shared = broker' at hchange
    cases hchange with
    | move hmoves =>
      rw [hmoves.notReturned] at h
      rw [hmoves.registered]
      exact ⟨connection, hconnection, hlease, Or.inl (h.resolve_right (by simp))⟩
    | close =>
      refine ⟨{ connection with closed := true }, ?_, hlease, Or.inl rfl⟩
      simp [Broker.closeConnection, hconnection]
    | @unregister found key' ready result =>
      rcases hclosed found key' ready result rfl with ⟨_, hsome, htrue⟩
      rw [hconnection] at hsome
      cases hsome
      exact ⟨connection, hconnection, hlease, Or.inr ⟨htrue, rfl⟩⟩
    | _ => rcases h with ⟨⟨⟩⟩ | ⟨_, ⟨⟩⟩
  . rw [connection_of_ne hchange hd, hothers d hd]
    exact ⟨connection, hconnection, hlease, h⟩

omit hothers [DecidableEq C] in
theorem shares_of_registered {d : C} {found : Found C} {key : Token}
    (huses : (s.phase c).uses = some found)
    (hfound : (s.shared.lease found.lease).connections[key]? = some d)
    : Shares s found.token d := by
  rcases (hs.connections found.lease key d).mp hfound with ⟨found', hregistered, hlease⟩
  rcases uses_of_registered hregistered with ⟨huses', hown⟩
  rcases hs.own d found' huses' hown with ⟨connection, hconnection, hkey⟩
  have htoken := (hs.uses d found' huses').1
  rw [hlease, (hs.uses c found huses).1, Except.ok.injEq] at htoken
  rw [htoken]
  refine ⟨connection, hconnection, hkey, Or.inl ?_⟩
  rw [hregistered]
  rfl

include hchange in
theorem reached_step (d : C) (found : Found C) (e : C) (h : (t.phase d).reached = some (found, e))
    : Shares t found.token e := by
  apply shares_step hs hothers hchange
  by_cases hd : d = c
  . rw [hd] at h
    have hbefore := hs.reached c found e
    have hshares := @shares_of_registered C token s c hs e found
    generalize s.phase c = phase at hchange hbefore hshares
    generalize t.phase c = phase' at hchange h
    generalize t.shared = broker' at hchange
    cases hchange with
    | move hmoves =>
      rcases hmoves.reached found e h with hreached | ⟨huses, key, hfound⟩
      . exact hbefore hreached
      . exact hshares huses hfound
    | _ => cases h
  . rw [hothers d hd] at h
    exact hs.reached d found e h

end

theorem consistent_handler {c : C} {action : Action}
    (hdistinct : ∀ {d e key}, token d = .ok key → token e = .ok key → d = e)
    (hs : Consistent token s) (h : s.step (act token) c action = some t) : Consistent token t := by
  rcases Processes.act_of_step h with ⟨hact, hothers⟩
  have hchange := change_of_act hact
  exact
    { leases := leases_step hs hothers hchange hdistinct
      connections := connections_step hs hothers hchange hdistinct
      leases_le := leases_le_step hs hchange
      connections_le := connections_le_step hs hchange
      leased := leased_step hs hothers hchange
      registered := registered_step hs hothers hchange
      uses := uses_step hs hothers hchange
      own := own_step hs hothers hchange
      closed := closed_step hs hothers hchange
      reached := reached_step hs hothers hchange }

theorem consistent_lost (hs : Consistent token s) (c : C)
    : Consistent token { s with shared := s.shared.closeConnection c } := by
  have hconnection : ∀ d connection, s.shared.connection d = some connection →
      ∃ connection', (s.shared.closeConnection c).connection d = some connection'
        ∧ connection'.lease = connection.lease
        ∧ (connection.closed = true → connection'.closed = true) := by
    intro d connection hsome
    by_cases hd : d = c
    . refine ⟨{ connection with closed := true }, ?_, rfl, fun _ => rfl⟩
      rw [hd] at hsome ⊢
      simp [Broker.closeConnection, hsome]
    . refine ⟨connection, ?_, rfl, id⟩
      simpa [Broker.closeConnection, hd] using hsome
  exact
    { hs with
      own := by
        intro d found huses hown
        rcases hs.own d found huses hown with ⟨connection, hsome, hlease⟩
        rcases hconnection d connection hsome with ⟨connection', hsome', hsame, _⟩
        exact ⟨connection', hsome', hsame.trans hlease⟩
      closed := by
        intro d found key ready result hphase
        rcases hs.closed d found key ready result hphase with ⟨connection, hsome, hclosed⟩
        rcases hconnection d connection hsome with ⟨connection', hsome', _, hkept⟩
        exact ⟨connection', hsome', hkept hclosed⟩
      reached := by
        intro d found e hreached
        rcases hs.reached d found e hreached with ⟨connection, hsome, hlease, hphase⟩
        rcases hconnection e connection hsome with ⟨connection', hsome', hsame, hkept⟩
        exact ⟨connection', hsome', hsame.trans hlease, hphase.imp id (And.imp_left hkept)⟩ }

theorem consistent_step {event : Event C}
    (hdistinct : ∀ {d e key}, token d = .ok key → token e = .ok key → d = e)
    (hs : Consistent token s) (h : (clientBroker token).step s event t) : Consistent token t := by
  cases event with
  | handler c action => exact consistent_handler hdistinct hs h
  | lost c =>
    cases h
    exact consistent_lost hs c
  | rebuild endpoint rebuilding =>
    cases h
    exact ⟨hs.leases, hs.connections, hs.leases_le, hs.connections_le, hs.leased, hs.registered,
      hs.uses, hs.own, hs.closed, hs.reached⟩

omit [DecidableEq C] in
theorem consistent_initial (identity : Vector UInt8 32) (pid : UInt32) (endpoint : Nat)
    : Consistent token (initial (C := C) identity pid endpoint) where
  leases := Registry.lists_empty fun _ _ => nofun
  connections _ := by
    apply Registry.lists_empty
    rintro c key ⟨_, hregistered, _⟩
    cases hregistered
  leases_le := by simp [initial]
  connections_le := by simp [initial]
  leased := nofun
  registered := nofun
  uses := nofun
  own := nofun
  closed := nofun
  reached := nofun

theorem consistent_of_reachable
    (hdistinct : ∀ {d e key}, token d = .ok key → token e = .ok key → d = e)
    (h : (clientBroker token).Reachable s) : Consistent token s := by
  apply h.invariant (P := Consistent token)
  . rintro s ⟨identity, pid, endpoint, rfl⟩
    exact consistent_initial identity pid endpoint
  . intro s t e hs hstep
    exact consistent_step hdistinct hs hstep

omit [DecidableEq C] in
theorem Consistent.isOpen_iff {c : C} (hs : Consistent token s)
    : IsOpen s c
        ↔
      (∃ connection, s.shared.connection c = some connection ∧ connection.closed = false)
        ∧ (s.phase c).holdsOwn = true := by
  constructor
  . rintro ⟨⟨connection, hconnection, hclosed⟩, hhandled⟩
    refine ⟨⟨connection, hconnection, hclosed⟩, ?_⟩
    rcases hhandled with hown | ⟨lease, key, hfound⟩ | ⟨d, found, hreached⟩
    . exact hown
    . rcases (hs.connections lease key c).mp hfound with ⟨found, hregistered, _⟩
      exact (uses_of_registered hregistered).2
    . rcases hs.reached d found c hreached with ⟨connection', hsome, _, hphase⟩
      rcases hphase with hregistered | ⟨htrue, _⟩
      . rcases Option.isSome_iff_exists.mp hregistered with ⟨⟨found, key⟩, hregistered⟩
        exact (uses_of_registered hregistered).2
      . rw [hconnection] at hsome
        cases hsome
        rw [hclosed] at htrue
        cases htrue
  . rintro ⟨hopen, hown⟩
    exact ⟨hopen, Or.inl hown⟩

omit [DecidableEq C] in
theorem Consistent.holdsOwn_of_registered {c lease : C} {key : Token} (hs : Consistent token s)
    (h : (s.shared.lease lease).connections[key]? = some c)
    : (s.phase c).holdsOwn = true := by
  rcases (hs.connections lease key c).mp h with ⟨found, hregistered, _⟩
  exact (uses_of_registered hregistered).2

omit [DecidableEq C] in
theorem uses_of_holdsOwn (h : phase.holdsOwn = true) : ∃ found, phase.uses = some found := by
  cases phase <;> cases h <;> exact ⟨_, rfl⟩

omit [DecidableEq C] in
theorem holdsOwn_of_leased {key : Token} (h : phase.leased = some key) : phase.holdsOwn = false := by
  cases phase <;> cases h <;> rfl

omit [DecidableEq C] in
theorem holdsOwn_of_isReturned (h : phase.isReturned = true) : phase.holdsOwn = false := by
  cases phase with
  | returned ready result => rfl
  | _ => cases h

theorem closed_by {event : Event C} {c : C} (hs : Consistent token s) (ht : Consistent token t)
    (h : (clientBroker token).step s event t) (hopen : IsOpen s c) (hclosed : ¬IsOpen t c)
    : event = .lost c ∨ ∃ action, event = .handler c action := by
  rw [hs.isOpen_iff] at hopen
  rw [ht.isOpen_iff] at hclosed
  cases event with
  | handler d action =>
    by_cases hd : c = d
    . exact Or.inr ⟨action, by rw [hd]⟩
    . rcases Processes.act_of_step h with ⟨hact, hothers⟩
      rw [connection_of_ne (change_of_act hact) hd, hothers c hd] at hclosed
      exact absurd hopen hclosed
  | lost d =>
    cases h
    by_cases hd : c = d
    . exact Or.inl (by rw [hd])
    . simp only [Broker.closeConnection, Function.update_of_ne hd] at hclosed
      exact absurd hopen hclosed
  | rebuild endpoint rebuilding =>
    cases h
    exact absurd hopen hclosed

theorem lease_step {c : C} {key : Token} {action : Action} (hs : Consistent token s)
    (ht : Consistent token t) (hleased : (s.phase c).leased = some key)
    (h : (clientBroker token).step s (.handler c action) t) (d : C)
    : (IsOpen t d ↔ IsOpen s d) ∧ (d ≠ c → t.shared.lease d = s.shared.lease d) := by
  rw [hs.isOpen_iff, ht.isOpen_iff]
  rcases Processes.act_of_step h with ⟨hact, hothers⟩
  have hchange := change_of_act hact
  have hsame : t.shared.connection d = s.shared.connection d
      ∧ (t.phase c).holdsOwn = (s.phase c).holdsOwn
      ∧ (d ≠ c → t.shared.lease d = s.shared.lease d) := by
    generalize s.phase c = phase at hchange hleased
    generalize t.phase c = phase' at hchange
    generalize t.shared = broker' at hchange
    cases hchange with
    | move hmoves =>
      have hleased' := hleased
      rw [← hmoves.leased] at hleased'
      rw [holdsOwn_of_leased hleased, holdsOwn_of_leased hleased']
      exact ⟨rfl, rfl, fun _ => rfl⟩
    | cancel => exact ⟨rfl, rfl, fun hd => Function.update_of_ne hd _ _⟩
    | remove => exact ⟨rfl, rfl, fun _ => rfl⟩
    | _ => cases hleased
  refine ⟨?_, hsame.2.2⟩
  rw [hsame.1]
  by_cases hd : d = c
  . rw [hd, hsame.2.1]
  . rw [hothers d hd]

theorem cancelled_of_act {c : C} {found : Found C}
    (h : act token c broker phase .cancelled = some (broker', phase'))
    (hown : phase.holdsOwn = true) (huses : phase.uses = some found)
    : (broker.lease found.lease).cancelled = true := by
  cases phase with
  | serving found' key =>
    cases huses
    simp only [act] at h
    split at h
    . next hcancelled => exact hcancelled
    . cases h
  | connected => cases h
  | introducing => cases h
  | closing => cases h
  | unregistering => cases h
  | _ => cases hown

theorem cancelled_by {event : Event C} {lease : C} (h : (clientBroker token).step s event t)
    (hbefore : (s.shared.lease lease).cancelled = false)
    (hafter : (t.shared.lease lease).cancelled = true)
    : ∃ action key, event = .handler lease action ∧ (s.phase lease).leased = some key := by
  cases event with
  | lost c =>
    cases h
    rw [Broker.closeConnection, hbefore] at hafter
    cases hafter
  | rebuild endpoint rebuilding =>
    cases h
    rw [hbefore] at hafter
    cases hafter
  | handler c action =>
    have hchange := change_of_act (Processes.act_of_step h).1
    generalize hphase : s.phase c = phase at hchange
    generalize t.phase c = phase' at hchange
    generalize t.shared = broker' at hchange hafter
    cases hchange with
    | grant =>
      by_cases hlease : lease = c
      . simp [hlease] at hafter
      . simp [hlease, hbefore] at hafter
    | @cancel key ready result =>
      by_cases hlease : lease = c
      . exact ⟨action, key, by rw [hlease], by rw [hlease, hphase]; rfl⟩
      . simp [hlease, hbefore] at hafter
    | @register found key =>
      by_cases hlease : lease = found.lease
      . rw [hlease] at hbefore hafter
        simp [Broker.setConnections, hbefore] at hafter
      . simp [Broker.setConnections, hlease, hbefore] at hafter
    | @unregister found key =>
      by_cases hlease : lease = found.lease
      . rw [hlease] at hbefore hafter
        simp [Broker.setConnections, hbefore] at hafter
      . simp [Broker.setConnections, hlease, hbefore] at hafter
    | _ =>
      change (s.shared.lease lease).cancelled = true at hafter
      rw [hbefore] at hafter
      cases hafter

theorem leases_isolated
    (hdistinct : ∀ {d e key}, token d = .ok key → token e = .ok key → d = e)
    (h : (clientBroker token).Reachable s)
    : s.shared.leases.size ≤ maxLeases
      ∧ (∀ lease, (s.shared.lease lease).connections.size ≤ maxConnections)
      ∧ (∀ c found d, (s.phase c).reached = some (found, d) →
        token found.lease = .ok found.token
          ∧ ∃ connection, s.shared.connection d = some connection
            ∧ connection.lease = found.token)
      ∧ (∀ event t c, (clientBroker token).step s event t → IsOpen s c → ¬IsOpen t c →
        event = .lost c ∨ ∃ action, event = .handler c action)
      ∧ (∀ c key action t, (s.phase c).leased = some key →
        (clientBroker token).step s (.handler c action) t →
        ∀ d, (IsOpen t d ↔ IsOpen s d) ∧ (d ≠ c → t.shared.lease d = s.shared.lease d))
      ∧ (∀ event t lease, (clientBroker token).step s event t →
        (s.shared.lease lease).cancelled = false → (t.shared.lease lease).cancelled = true →
        ∃ action key, event = .handler lease action ∧ (s.phase lease).leased = some key)
      ∧ (∀ c t, (s.phase c).holdsOwn = true →
        (clientBroker token).step s (.handler c .cancelled) t →
        ∃ connection lease, s.shared.connection c = some connection
          ∧ token lease = .ok connection.lease
          ∧ (s.shared.lease lease).cancelled = true)
      ∧ (∀ c, (s.phase c).isReturned = true →
        ¬IsOpen s c
          ∧ ∀ (lease : C) (key : Token), (s.shared.lease lease).connections[key]? ≠ some c)
      ∧ (∀ key, (∀ c, ¬(s.phase c).WorksOn key) →
        s.shared.leases[key]? = none
          ∧ ∀ c connection, s.shared.connection c = some connection → connection.lease = key →
            ¬IsOpen s c
              ∧ ∀ (lease : C) (key : Token), (s.shared.lease lease).connections[key]? ≠ some c)
      ∧ ((∀ c, (s.phase c).isIdle = true) → s.shared.leases.isEmpty = true) := by
  have hs := consistent_of_reachable hdistinct h
  refine ⟨hs.leases_le, hs.connections_le, ?_, ?_, ?_, ?_, ?_, ?_, ?_, ?_⟩
  . intro c found d hreached
    rcases hs.reached c found d hreached with ⟨connection, hconnection, hlease, _⟩
    exact ⟨(hs.uses c found (uses_of_reached hreached)).1, connection, hconnection, hlease⟩
  . intro event t c hstep
    exact closed_by hs (consistent_step hdistinct hs hstep) hstep
  . intro c key action t hleased hstep
    exact lease_step hs (consistent_step hdistinct hs hstep) hleased hstep
  . intro event t lease hstep
    exact cancelled_by hstep
  . intro c t hown hstep
    have hact := (Processes.act_of_step hstep).1
    rcases uses_of_holdsOwn hown with ⟨found, huses⟩
    rcases hs.own c found huses hown with ⟨connection, hconnection, hlease⟩
    refine ⟨connection, found.lease, hconnection, ?_, ?_⟩
    . rw [hlease]
      exact (hs.uses c found huses).1
    . exact cancelled_of_act hact hown huses
  . intro c hreturned
    have hown := holdsOwn_of_isReturned hreturned
    refine ⟨?_, ?_⟩
    . rw [hs.isOpen_iff, hown]
      rintro ⟨_, ⟨⟩⟩
    . intro lease key hfound
      rw [hs.holdsOwn_of_registered hfound] at hown
      cases hown
  . intro key hnone
    refine ⟨?_, ?_⟩
    . rw [Option.eq_none_iff_forall_ne_some]
      intro c hc
      exact hnone c (Or.inl ((hs.leases key c).mp hc))
    . intro c connection hconnection hlease
      have hown : (s.phase c).holdsOwn = false := by
        rw [Bool.eq_false_iff]
        intro hown
        rcases uses_of_holdsOwn hown with ⟨found, huses⟩
        rcases hs.own c found huses hown with ⟨connection', hsome, hsame⟩
        rw [hconnection] at hsome
        cases hsome
        exact hnone c (Or.inr ⟨found, huses, hsame.symm.trans hlease⟩)
      refine ⟨?_, ?_⟩
      . rw [hs.isOpen_iff, hown]
        rintro ⟨_, ⟨⟩⟩
      . intro lease key' hfound
        rw [hs.holdsOwn_of_registered hfound] at hown
        cases hown
  . intro hidle
    apply hs.leases.isEmpty
    intro c key hleased
    have hphase := hidle c
    cases hcase : s.phase c <;> rw [hcase] at hleased hphase <;> cases hleased <;> cases hphase

end ClientBroker

namespace Fixture

def brokerIdentity : Vector UInt8 32 :=
  .replicate _ 0

def clientToken (c : Bool) : Except Failure ClientBroker.Token :=
  .ok (.replicate _ (if c then 1 else 0))

def clientRequest (operation : ClientBroker.Operation) : ClientBroker.Action :=
  .request (.ok { version := ClientBroker.version, operation })

def leaseEnds : List (ClientBroker.Event Bool) :=
  [.handler false (clientRequest (.lease brokerIdentity)), .handler false .step,
    .handler false (.write (.ok ())),
    .handler true (clientRequest (.connect (.replicate _ 0) (Bytes.ofString "attached-ssh/1"))),
    .handler true .step, .handler true .step, .handler true .step,
    .handler true (.connect (.ok ())), .handler true .step, .handler true (.write (.ok ())),
    .handler false .read, .handler false .step, .handler true .cancelled, .handler true .step,
    .handler true .step, .handler false .step]

end Fixture

theorem ClientBroker.leases_isolated_lease_ends
    : ∃ s, (clientBroker Fixture.clientToken).Reachable s
        ∧ (s.shared.connection true).isSome = true
        ∧ ¬ClientBroker.IsOpen s true
        ∧ s.shared.leases.isEmpty = true := by
  have hdistinct : ∀ {c d key}, Fixture.clientToken c = .ok key → Fixture.clientToken d = .ok key →
      c = d := by
    intro c d key hc hd
    rw [← hd] at hc
    revert hc
    cases c <;> cases d <;> decide
  have hresult : (System.replay (ClientBroker.step Fixture.clientToken)
      (ClientBroker.initial Fixture.brokerIdentity 1 0) Fixture.leaseEnds).map
        (fun s => ((s.shared.connection true).isSome, (s.phase true).isReturned,
          (s.phase true).isIdle && (s.phase false).isIdle))
        = some (true, true, true) := by
    decide +kernel
  rcases Option.map_eq_some_iff.mp hresult with ⟨s, hreplay, hs⟩
  simp only [Prod.mk.injEq, Bool.and_eq_true] at hs
  rcases hs with ⟨hconnection, hreturned, htrue, hfalse⟩
  have hreachable : (clientBroker Fixture.clientToken).Reachable s :=
    ⟨_, _, ⟨_, _, _, rfl⟩, System.Run.of_replay id hreplay⟩
  rcases ClientBroker.leases_isolated hdistinct hreachable with ⟨_, _, _, _, _, _, _, hover, _, hempty⟩
  refine ⟨s, hreachable, hconnection, (hover true hreturned).1, hempty ?_⟩
  intro c
  cases c with
  | true => exact htrue
  | false => exact hfalse

end Attached
