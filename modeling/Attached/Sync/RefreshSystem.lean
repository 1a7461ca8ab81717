import Attached.Library.Transition
import Attached.Sync.CatalogLemmas

/-!
This module contains any number of catalog refreshes on one state directory as a transition system,
together with what their saves guarantee under every interleaving.
-/

open Std

namespace Attached

structure RefreshWorld where
  stored : Option Catalog
  loaded : Nat → Option Catalog

/--
What a refresh can do to the catalog file. Both happen below `host-catalog.lock`, and
`write_catalog` installs all of a catalog or nothing.
-/
inductive RefreshEvent where
  | load (refresh : Nat)
  | loadFailed (refresh : Nat)
  | save (refresh : Nat) (refreshed : Catalog)
  | saveFailed (refresh : Nat)

namespace RefreshWorld

variable {Ticket : Type} (iroh : Iroh Ticket) (account : AccountCredentials)

def current (w : RefreshWorld) : Catalog :=
  w.stored.getD (Catalog.empty account)

def setLoaded (w : RefreshWorld) (refresh : Nat) (catalog : Option Catalog) : RefreshWorld :=
  { w with loaded := Function.update w.loaded refresh catalog }

def baseline (catalog : Catalog) : List (RecordId × Nat) :=
  catalog.records.map CatalogRecord.revisionKey

inductive Step : RefreshWorld → RefreshEvent → RefreshWorld → Prop
  | load {w : RefreshWorld} {refresh : Nat} {catalog : Catalog} :
      Catalog.load iroh w.stored account = .ok catalog →
      Step w (.load refresh) (w.setLoaded refresh (some catalog))
  | loadFailed {w : RefreshWorld} {refresh : Nat} :
      Step w (.loadFailed refresh) (w.setLoaded refresh (some (Catalog.empty account)))
  | save {w : RefreshWorld} {refresh : Nat} {catalog refreshed next : Catalog} :
      w.loaded refresh = some catalog →
      -- A refresh replaces the records of the catalog it loaded and keeps its generation.
      refreshed.generation = catalog.generation →
      Catalog.saveRefresh iroh w.stored account (baseline catalog) refreshed = .ok next →
      Step w (.save refresh refreshed) { w.setLoaded refresh none with stored := some next }
  | saveFailed {w : RefreshWorld} {refresh : Nat} {catalog : Catalog} :
      w.loaded refresh = some catalog →
      Step w (.saveFailed refresh) (w.setLoaded refresh none)

def StoredOk (w : RefreshWorld) : Prop :=
  ∀ catalog, w.stored = some catalog →
    Catalog.validate iroh catalog account = .ok ()
      ∧ (catalog.records.map CatalogRecord.recordId).Nodup
      ∧ Catalog.Sorted catalog.records

def system : System RefreshWorld RefreshEvent where
  init w := StoredOk iroh account w ∧ ∀ refresh, w.loaded refresh = none
  step := Step iroh account

variable {iroh account}

theorem StoredOk.validate_current {w : RefreshWorld} (h : StoredOk iroh account w)
    : Catalog.validate iroh (w.current account) account = .ok () := by
  unfold current
  cases hstored : w.stored with
  | none => exact Catalog.validate_empty account
  | some catalog => exact (h catalog hstored).1

theorem StoredOk.load {w : RefreshWorld} (h : StoredOk iroh account w)
    : Catalog.load iroh w.stored account = .ok (w.current account) := by
  unfold current
  cases hstored : w.stored with
  | none => simp [Catalog.load]
  | some catalog => simp [Catalog.load, (h catalog hstored).1]

theorem forall_loaded_setLoaded {P : Catalog → Prop} {w : RefreshWorld} {refresh : Nat}
    {catalog : Option Catalog} (h : ∀ k c, w.loaded k = some c → P c)
    (hcatalog : ∀ c, catalog = some c → P c)
    : ∀ k c, (w.setLoaded refresh catalog).loaded k = some c → P c := by
  intro k c hloaded
  by_cases hk : k = refresh
  . subst hk
    simp only [setLoaded, Function.update_self] at hloaded
    exact hcatalog c hloaded
  . simp only [setLoaded, Function.update_of_ne hk] at hloaded
    exact h k c hloaded

theorem save_spec {w w' : RefreshWorld} {refresh : Nat} {refreshed : Catalog}
    (hw : StoredOk iroh account w) (h : Step iroh account w (.save refresh refreshed) w')
    : ∃ catalog next,
        w.loaded refresh = some catalog
          ∧ refreshed.generation = catalog.generation
          ∧ Catalog.validate iroh refreshed account = .ok ()
          ∧ w' = { w.setLoaded refresh none with stored := some next }
          ∧ next.generation = (w.current account).generation + 1
          ∧ Catalog.validate iroh next account = .ok ()
          ∧ Catalog.Sorted next.records
          ∧ ∀ record, record ∈ next.records
              ↔ Catalog.Merged (baseline catalog) refreshed (w.current account) record := by
  cases h with
  | save hloaded hgen hsave =>
    simp only [Catalog.saveRefresh, Except.bind_eq_ok_iff, hw.load, Except.ok.injEq] at hsave
    rcases hsave with ⟨_, hvalid, _, rfl, hmerge⟩
    have hspec := Catalog.mergeRefresh_eq_ok (Catalog.nodup_of_validate hvalid)
      (Catalog.nodup_of_validate hw.validate_current) hmerge
    exact ⟨_, _, hloaded, hgen, hvalid, rfl, hspec⟩

theorem step_deterministic {w w₁ w₂ : RefreshWorld} {e : RefreshEvent}
    (h₁ : Step iroh account w e w₁) (h₂ : Step iroh account w e w₂) : w₁ = w₂ := by
  cases h₁ with
  | load hload₁ =>
    cases h₂ with
    | load hload₂ =>
      rw [hload₁] at hload₂
      injection hload₂ with hload₂
      rw [hload₂]
  | loadFailed =>
    cases h₂
    rfl
  | save hloaded₁ _ hsave₁ =>
    cases h₂ with
    | save hloaded₂ _ hsave₂ =>
      rw [hloaded₁] at hloaded₂
      injection hloaded₂ with hloaded₂
      subst hloaded₂
      rw [hsave₁] at hsave₂
      injection hsave₂ with hsave₂
      rw [hsave₂]
  | saveFailed =>
    cases h₂
    rfl

theorem storedOk_step {w w' : RefreshWorld} {e : RefreshEvent} (hw : StoredOk iroh account w)
    (h : Step iroh account w e w') : StoredOk iroh account w' := by
  cases e with
  | load =>
    cases h
    exact hw
  | loadFailed =>
    cases h
    exact hw
  | save refresh refreshed =>
    rcases save_spec hw h with ⟨_, next, _, _, _, rfl, _, hvalid, hsorted, _⟩
    intro stored hstored
    injection hstored with hstored
    subst hstored
    exact ⟨hvalid, Catalog.nodup_of_validate hvalid, hsorted⟩
  | saveFailed =>
    cases h
    exact hw

theorem storedOk_of_reachable {w : RefreshWorld} (h : (system iroh account).Reachable w)
    : StoredOk iroh account w :=
  h.invariant And.left storedOk_step

theorem generation_le_of_run {w w' : RefreshWorld} {es : List RefreshEvent}
    (hw : StoredOk iroh account w) (h : (system iroh account).Run w es w')
    : (w.current account).generation ≤ (w'.current account).generation := by
  refine System.Run.relates (P := StoredOk iroh account)
    (R := fun w w' => (w.current account).generation ≤ (w'.current account).generation)
    ?_ ?_ storedOk_step ?_ h hw
  . intro s
    exact Nat.le_refl _
  . intro s t u
    exact Nat.le_trans
  . intro s t e hs hstep
    cases e with
    | load =>
      cases hstep
      exact Nat.le_refl _
    | loadFailed =>
      cases hstep
      exact Nat.le_refl _
    | save refresh refreshed =>
      rcases save_spec hs hstep with ⟨_, next, _, _, _, rfl, hgen, _⟩
      change (s.current account).generation ≤ next.generation
      omega
    | saveFailed =>
      cases hstep
      exact Nat.le_refl _

theorem revision_le_of_merged {baseline : List (RecordId × Nat)} {refreshed current : Catalog}
    {old new : CatalogRecord} (hnodup : (current.records.map CatalogRecord.recordId).Nodup)
    (hold : old ∈ current.records) (hnew : Catalog.Merged baseline refreshed current new)
    (hid : old.recordId = new.recordId) : old.serviceRevision ≤ new.serviceRevision := by
  rcases hnew with ⟨candidate, _, other, hother, heq, rfl⟩ | ⟨_, hnone, _⟩ | ⟨hmem, _, _⟩
  . have hsame : old = other := by
      apply Catalog.eq_of_recordId_eq hnodup hold hother
      rw [hid]
      split
      . rfl
      . exact heq.symm
    subst hsame
    split
    . exact Nat.le_refl _
    . omega
  . exact absurd hid (hnone old hold)
  . rw [Catalog.eq_of_recordId_eq hnodup hold hmem hid]

theorem merged_of_not_mem_baseline {baseline : List (RecordId × Nat)}
    {refreshed current : Catalog} {old : CatalogRecord} (hold : old ∈ current.records)
    (hbaseline : old.revisionKey ∉ baseline)
    : ∃ new, Catalog.Merged baseline refreshed current new
        ∧ new.recordId = old.recordId
        ∧ (new = old
            ∨ new ∈ refreshed.records ∧ old.serviceRevision ≤ new.serviceRevision) := by
  by_cases hcandidate : ∃ candidate ∈ refreshed.records, candidate.recordId = old.recordId
  . rcases hcandidate with ⟨candidate, hmem, hid⟩
    refine ⟨_, Or.inl ⟨candidate, hmem, old, hold, hid.symm, rfl⟩, ?_⟩
    split
    . exact ⟨rfl, Or.inl rfl⟩
    . next hle =>
      refine ⟨hid, Or.inr ⟨hmem, ?_⟩⟩
      omega
  . refine ⟨old, Or.inr (Or.inr ⟨hold, ?_, hbaseline⟩), rfl, Or.inl rfl⟩
    intro candidate hmem heq
    exact hcandidate ⟨candidate, hmem, heq⟩

theorem mem_current_of_merged {baseline : List (RecordId × Nat)} {refreshed current : Catalog}
    {new : CatalogRecord} (hgen : current.generation ≠ refreshed.generation)
    (hnew : Catalog.Merged baseline refreshed current new)
    : ∃ old ∈ current.records, old.recordId = new.recordId := by
  rcases hnew with ⟨candidate, _, other, hother, heq, rfl⟩ | ⟨_, _, habsurd⟩ | ⟨hmem, _, _⟩
  . refine ⟨other, hother, ?_⟩
    split
    . rfl
    . exact heq
  . exact absurd habsurd hgen
  . exact ⟨new, hmem, rfl⟩

def HasRecord (account : AccountCredentials) (w : RefreshWorld) (id : RecordId) : Prop :=
  ∃ record ∈ (w.current account).records, record.recordId = id

theorem merge_safe {w₀ w : RefreshWorld} {es : List RefreshEvent}
    (hinit : (system iroh account).init w₀) (hrun : (system iroh account).Run w₀ es w)
    : StoredOk iroh account w
        ∧ ∀ (refresh : Nat) (refreshed : Catalog) (w' : RefreshWorld),
            (system iroh account).step w (.save refresh refreshed) w' →
            ∃ catalog, w.loaded refresh = some catalog
              -- The stored catalog stays well-formed and advances by one generation.
              ∧ StoredOk iroh account w'
              ∧ (w'.current account).generation = (w.current account).generation + 1
              -- Revisions do not decrease.
              ∧ (∀ old ∈ (w.current account).records, ∀ new ∈ (w'.current account).records,
                  old.recordId = new.recordId → old.serviceRevision ≤ new.serviceRevision)
              -- Removed ids are not put back by a refresh that loaded before their removal.
              ∧ (∀ (id : RecordId) (u v : RefreshWorld) (fs gs hs : List RefreshEvent),
                  (system iroh account).Run w₀ fs u → HasRecord account u id →
                  (system iroh account).Run u gs v → ¬HasRecord account v id →
                  (system iroh account).Run v hs w →
                  catalog.generation < (v.current account).generation →
                  ¬HasRecord account w id → ¬HasRecord account w' id)
              -- Records that the refresh did not see at its load are not lost.
              ∧ (∀ old ∈ (w.current account).records, old.revisionKey ∉ baseline catalog →
                  ∃ new ∈ (w'.current account).records,
                    new.recordId = old.recordId
                      ∧ (new = old
                          ∨ new ∈ refreshed.records
                            ∧ old.serviceRevision ≤ new.serviceRevision)) := by
  have hw : StoredOk iroh account w := storedOk_of_reachable ⟨w₀, es, hinit, hrun⟩
  refine ⟨hw, ?_⟩
  intro refresh refreshed w' hstep
  rcases save_spec hw hstep with
    ⟨catalog, next, hloaded, hrefreshed, _, rfl, hgen, _, _, hmem⟩
  refine ⟨catalog, hloaded, storedOk_step hw hstep, hgen, ?_, ?_, ?_⟩
  . intro old hold new hnew hid
    apply revision_le_of_merged _ hold ((hmem new).mp hnew) hid
    exact Catalog.nodup_of_validate hw.validate_current
  . rintro id u v fs gs hs hu - hv - hvw holder habsent ⟨new, hnew, rfl⟩
    have hv : StoredOk iroh account v := storedOk_of_reachable ⟨w₀, fs ++ gs, hinit, hu.append hv⟩
    have hle := generation_le_of_run hv hvw
    apply habsent
    apply mem_current_of_merged _ ((hmem new).mp hnew)
    omega
  . intro old hold hbaseline
    rcases merged_of_not_mem_baseline hold hbaseline with ⟨new, hnew, hrest⟩
    exact ⟨new, (hmem new).mpr hnew, hrest⟩

end RefreshWorld

namespace Fixture

open RefreshWorld

def world : RefreshWorld where
  stored := none
  loaded _ := none

theorem world_init : (system iroh account).init world := by
  constructor
  . intro catalog hstored
    simp [world] at hstored
  . intro refresh
    rfl

def worldAdded : RefreshWorld :=
  { ((world.setLoaded 0 (some (catalog 0 []))).setLoaded 1 (some (catalog 0 []))).setLoaded 0 none
      with stored := some (catalog 1 [record 1 1]) }

theorem worldAdded_run : (system iroh account).Run world
    [.load 0, .load 1, .save 0 (catalog 0 [record 1 1])] worldAdded := by
  have hload : Catalog.load iroh none account = .ok (catalog 0 []) := rfl
  apply System.Run.cons (Step.load hload)
  apply System.Run.cons (Step.load hload)
  apply System.Run.single
  refine Step.save (show _ = some (catalog 0 []) from ?_) ?_ ?_
  . simp [setLoaded]
  . rfl
  . decide +kernel

end Fixture

theorem RefreshWorld.merge_safe_concurrent_add
    : ∃ w', (RefreshWorld.system Fixture.iroh Fixture.account).step Fixture.worldAdded
          (.save 1 (Fixture.catalog 0 [])) w'
        ∧ RefreshWorld.HasRecord Fixture.account w' (Fixture.recordId 1) := by
  have hstep : (RefreshWorld.system Fixture.iroh Fixture.account).step Fixture.worldAdded
      (.save 1 (Fixture.catalog 0 []))
      { Fixture.worldAdded.setLoaded 1 none with
          stored := some (Fixture.catalog 2 [Fixture.record 1 1]) } := by
    refine RefreshWorld.Step.save (show _ = some (Fixture.catalog 0 []) from ?_) ?_ ?_
    . rfl
    . rfl
    . decide +kernel
  refine ⟨_, hstep, ?_⟩
  rcases (RefreshWorld.merge_safe Fixture.world_init Fixture.worldAdded_run).2 1 _ _ hstep with
    ⟨catalog, hloaded, _, _, _, _, hkept⟩
  have hcatalog : catalog = Fixture.catalog 0 [] := by
    injection hloaded with hloaded
    exact hloaded.symm
  subst hcatalog
  rcases hkept (Fixture.record 1 1) (by decide) (by decide) with ⟨new, hnew, hid, _⟩
  exact ⟨new, hnew, hid⟩

end Attached
