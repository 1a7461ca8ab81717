import Attached.Sync.CachedRefresh

/-!
This module contains what happens to a newly published machine if refreshes overlap: the refresh
that discovers it stores it if and only if no other refresh saved in between.
-/

open Std

namespace Attached

namespace RefreshEvent

def refresh : RefreshEvent → Nat
  | .load refresh => refresh
  | .loadFailed refresh => refresh
  | .save refresh _ => refresh
  | .saveFailed refresh => refresh

def isSave : RefreshEvent → Bool
  | .save _ _ => true
  | _ => false

end RefreshEvent

namespace RefreshWorld

variable {Ticket : Type} {iroh : Iroh Ticket} {primitives : Primitives}
  {account : AccountCredentials}

theorem loaded_of_step {w w' : RefreshWorld} {e : RefreshEvent} {refresh : Nat}
    (h : Step iroh account w e w') (hother : e.refresh ≠ refresh)
    : w'.loaded refresh = w.loaded refresh := by
  cases h with
  | load => exact Function.update_of_ne hother.symm _ _
  | loadFailed => exact Function.update_of_ne hother.symm _ _
  | save => exact Function.update_of_ne hother.symm _ _
  | saveFailed => exact Function.update_of_ne hother.symm _ _

theorem generation_of_step {w w' : RefreshWorld} {e : RefreshEvent} (hw : StoredOk iroh account w)
    (h : Step iroh account w e w')
    : (w'.current account).generation
        =
      (w.current account).generation + if e.isSave then 1 else 0 := by
  cases e with
  | load =>
    cases h
    rfl
  | loadFailed =>
    cases h
    rfl
  | save =>
    rcases save_spec hw h with ⟨_, next, _, _, _, rfl, hgen, _⟩
    exact hgen
  | saveFailed =>
    cases h
    rfl

theorem run_others {w w' : RefreshWorld} {es : List RefreshEvent} {refresh : Nat}
    (hw : StoredOk iroh account w) (h : (system iroh account).Run w es w')
    (hothers : ∀ e ∈ es, e.refresh ≠ refresh)
    : w'.loaded refresh = w.loaded refresh
        ∧ (w'.current account).generation
            = (w.current account).generation + es.countP RefreshEvent.isSave := by
  induction h with
  | nil => simp
  | snoc hrun hstep ih =>
    rcases ih (fun e he => hothers e (by simp [he])) with ⟨hloaded, hgen⟩
    have hok := hrun.invariant storedOk_step hw
    constructor
    . rw [loaded_of_step hstep (hothers _ (by simp)), hloaded]
    . rw [generation_of_step hok hstep, hgen, List.countP_append, List.countP_singleton]
      omega

/--
The refresh listed the record, fetched it and opened what it fetched.
-/
def Authenticated (iroh : Iroh Ticket) (primitives : Primitives) (account : AccountCredentials)
    (now : DateTime) (answers : ServiceAnswers) (record : CatalogRecord) : Prop :=
  ∃ index indexed fetched opened,
    answers.listRecords = .ok index
      ∧ indexed ∈ index.records
      ∧ fetchConsistentRecord answers indexed = .ok (some fetched)
      ∧ openEnvelope iroh primitives account now indexed.recordId fetched.envelope = .ok opened
      ∧ record = CatalogRecord.fromOpened indexed.recordId fetched.revision opened

theorem mem_refreshed {now : DateTime} {answers : ServiceAnswers} {catalog refreshed : Catalog}
    {warnings : List RefreshWarning} {record : CatalogRecord}
    (hvalid : Catalog.validate iroh catalog account = .ok ())
    (hrefresh : refreshUnlockedAt iroh primitives account now answers catalog
      = .ok (refreshed, warnings))
    (hauthenticated : Authenticated iroh primitives account now answers record)
    (hnew : ∀ old ∈ catalog.records, old.recordId ≠ record.recordId)
    : record ∈ refreshed.records := by
  rcases hauthenticated with ⟨index, indexed, fetched, opened, hindex, hmem, hfetched, hopened, rfl⟩
  rcases refreshUnlockedAt_eq_ok hrefresh with ⟨index', hindex', _, hrecords⟩
  rw [hindex] at hindex'
  injection hindex' with hindex'
  subst hindex'
  apply (hrecords _).mpr
  refine ⟨indexed, hmem, ?_⟩
  unfold entryOutcome
  rw [reuse_eq_none (Catalog.nodup_of_validate hvalid) hnew]
  exact fetchOutcome_eq_inl_iff.mpr ⟨fetched, opened, hfetched, hopened, rfl⟩

theorem merged_iff_generation_eq {baseline : List (RecordId × Nat)} {refreshed current : Catalog}
    {record : CatalogRecord} (hmem : record ∈ refreshed.records)
    (habsent : ∀ old ∈ current.records, old.recordId ≠ record.recordId)
    : Catalog.Merged baseline refreshed current record
        ↔
      current.generation = refreshed.generation := by
  constructor
  . intro h
    by_contra hgen
    rcases mem_current_of_merged hgen h with ⟨old, hold, hid⟩
    exact habsent old hold hid
  . intro hgen
    exact Or.inr (Or.inl ⟨hmem, habsent, hgen⟩)

theorem host_ne_publisherNotFound {catalog : Catalog} {record : CatalogRecord} {target : String}
    {now : DateTime} (hmem : record ∈ catalog.records)
    (hmatches : Catalog.matchesTarget iroh target record = true)
    (hfresh : record.isExpiredAt now = false)
    : catalog.host iroh target now ≠ .error Catalog.publisherNotFound := by
  intro h
  unfold Catalog.host at h
  have hfound : record ∈ catalog.records.filter fun record =>
      !record.isExpiredAt now && Catalog.matchesTarget iroh target record := by
    simp [hmem, hmatches, hfresh]
  dsimp at h
  split at h
  . next hnil =>
    rw [hnil] at hfound
    simp at hfound
  . simp at h
  . simp [Catalog.publisherNotFound] at h

theorem sshHost_ne_publisherNotFound {noCache : Bool} {cached : Except String Catalog}
    {after : Catalog} {record : CatalogRecord} {target : String} {now later : DateTime}
    (hmem : record ∈ after.records) (hmatches : Catalog.matchesTarget iroh target record = true)
    (hfresh : record.isExpiredAt later = false)
    : sshHost iroh noCache cached (.ok ()) (.ok after) target now later
        ≠ .error Catalog.publisherNotFound := by
  have hhost := host_ne_publisherNotFound hmem hmatches hfresh
  -- The only other failure after the refresh is that SSH is disabled, with another text.
  have hafter : (do
      let host ← after.host iroh target later
      Except.ensure host.sshEnabled
        "SSH access is unavailable on this publisher; update Attached and run `attached serve` there"
      return host) ≠ .error Catalog.publisherNotFound := by
    rw [ne_eq, Except.bind_eq_error_iff, not_or]
    refine ⟨hhost, ?_⟩
    rintro ⟨host, _, h⟩
    cases hssh : host.sshEnabled with
    | true => simp [hssh, Except.ensure] at h
    | false => simp [hssh, Except.ensure, Catalog.publisherNotFound] at h
  intro h
  unfold sshHost at h
  dsimp at h
  split at h
  . split at h
    . simp at h
    . exact hafter h
  . exact hafter h

theorem new_record_stored_iff {w₁ w₁' w₂ w₃ : RefreshWorld} {es : List RefreshEvent} {refresh : Nat}
    {now : DateTime} {answers : ServiceAnswers} {refreshed : Catalog}
    {warnings : List RefreshWarning} {record : CatalogRecord}
    (hreachable : (system iroh account).Reachable w₁)
    (hload : (system iroh account).step w₁ (.load refresh) w₁')
    (hrun : (system iroh account).Run w₁' es w₂) (hothers : ∀ e ∈ es, e.refresh ≠ refresh)
    (hrefresh : refreshUnlockedAt iroh primitives account now answers (w₁.current account)
      = .ok (refreshed, warnings))
    (hauthenticated : Authenticated iroh primitives account now answers record)
    (hnew : ∀ (v : RefreshWorld) (fs gs : List RefreshEvent), es = fs ++ gs →
      (system iroh account).Run w₁' fs v → (system iroh account).Run v gs w₂ →
      ¬HasRecord account v record.recordId)
    (hsave : (system iroh account).step w₂ (.save refresh refreshed) w₃)
    : (record ∈ (w₃.current account).records ↔ ∀ e ∈ es, e.isSave = false)
        ∧ ((∀ e ∈ es, e.isSave = false) →
            ∀ (noCache : Bool) (cached : Except String Catalog) (target : String)
              (later : DateTime),
              Catalog.matchesTarget iroh target record = true →
              record.isExpiredAt later = false →
              sshHost iroh noCache cached (.ok ()) (Catalog.load iroh w₃.stored account) target now
                  later
                ≠ .error Catalog.publisherNotFound) := by
  have hok₁ := storedOk_of_reachable hreachable
  have hok₁' := storedOk_step hok₁ hload
  have hok₂ := hrun.invariant storedOk_step hok₁'
  have hok₃ := storedOk_step hok₂ hsave
  rcases run_others hok₁' hrun hothers with ⟨hloaded, hgen⟩
  rw [generation_of_step hok₁ hload] at hgen
  rcases refreshUnlockedAt_eq_ok hrefresh with ⟨_, _, hrefreshed, _⟩
  have habsent₁ : ∀ old ∈ (w₁.current account).records, old.recordId ≠ record.recordId := by
    intro old hold hid
    apply hnew w₁' [] es rfl (System.Run.nil _) hrun
    cases hload
    exact ⟨old, hold, hid⟩
  have habsent₂ : ∀ old ∈ (w₂.current account).records, old.recordId ≠ record.recordId := by
    intro old hold hid
    exact hnew w₂ es [] (by simp) hrun (System.Run.nil _) ⟨old, hold, hid⟩
  have hcandidate := mem_refreshed hok₁.validate_current hrefresh hauthenticated habsent₁
  have hstored : record ∈ (w₃.current account).records ↔ ∀ e ∈ es, e.isSave = false := by
    rcases save_spec hok₂ hsave with ⟨_, next, _, _, _, rfl, _, _, _, hmem⟩
    refine (hmem record).trans ((merged_iff_generation_eq hcandidate habsent₂).trans ?_)
    rw [hgen, hrefreshed]
    simp [RefreshEvent.isSave, List.countP_eq_zero]
  refine ⟨hstored, ?_⟩
  intro halone noCache cached target later hmatches hfresh
  rw [hok₃.load]
  exact sshHost_ne_publisherNotFound (hstored.mpr halone) hmatches hfresh

end RefreshWorld

namespace Fixture

open RefreshWorld

def worldLoaded : RefreshWorld :=
  world.setLoaded 0 (some (catalog 0 []))

def worldBothLoaded : RefreshWorld :=
  worldLoaded.setLoaded 1 (some (catalog 0 []))

def worldOvertaken : RefreshWorld :=
  { worldBothLoaded.setLoaded 1 none with stored := some (catalog 1 []) }

theorem worldLoaded_step : (system iroh account).step world (.load 0) worldLoaded :=
  Step.load rfl

theorem worldBothLoaded_run : (system iroh account).Run worldLoaded [.load 1] worldBothLoaded :=
  System.Run.single (Step.load rfl)

theorem saveRefresh_nothing
    : Catalog.saveRefresh iroh none account [] (catalog 0 []) = .ok (catalog 1 []) := by
  decide +kernel

theorem worldOvertaken_run : (system iroh account).Run worldLoaded
    [.load 1, .save 1 (catalog 0 [])] worldOvertaken :=
  System.Run.snoc worldBothLoaded_run
    (Step.save (show _ = some (catalog 0 []) from by simp [worldBothLoaded, setLoaded]) rfl
      saveRefresh_nothing)

theorem refresh_record
    : refreshUnlockedAt iroh primitives account (time 100) (answers fetched)
        (world.current account) = .ok (catalog 0 [record 1 1], []) := by
  decide +kernel

theorem record_authenticated
    : Authenticated iroh primitives account (time 100) (answers fetched) (record 1 1) := by
  have hopened : openEnvelope iroh primitives account (time 100) (recordId 1) envelope
      = .ok descriptor := by
    decide +kernel
  exact ⟨index, ⟨recordId 1, 1⟩, fetched, descriptor, rfl, by simp [index],
    fetchConsistentRecord_of_revision_eq rfl rfl, hopened, by decide +kernel⟩

end Fixture

section

open Fixture RefreshWorld

theorem RefreshWorld.new_record_stored_iff_office
    : ∃ w₃ : RefreshWorld,
        (system iroh account).step worldBothLoaded (.save 0 (catalog 0 [record 1 1])) w₃
          ∧ record 1 1 ∈ (w₃.current account).records := by
  have hsave : (system iroh account).step worldBothLoaded (.save 0 (catalog 0 [record 1 1]))
      { worldBothLoaded.setLoaded 0 none with stored := some (catalog 1 [record 1 1]) } := by
    refine Step.save (show _ = some (catalog 0 []) from ?_) rfl (by decide +kernel)
    simp [worldBothLoaded, worldLoaded, setLoaded]
  refine ⟨_, hsave, ?_⟩
  apply (new_record_stored_iff (System.Reachable.of_init world_init) worldLoaded_step
    worldBothLoaded_run (by simp [RefreshEvent.refresh]) refresh_record record_authenticated ?_
    hsave).1.mpr
  . simp [RefreshEvent.isSave]
  . -- No catalog is stored before the save of the first refresh.
    intro v fs gs hsplit hv _
    have hstored : v.stored = none := by
      cases fs with
      | nil =>
        rw [hv.eq_of_deterministic step_deterministic (System.Run.nil _)]
        rfl
      | cons e fs =>
        simp only [List.cons_append, List.cons.injEq, List.nil_eq, List.append_eq_nil_iff] at hsplit
        rcases hsplit with ⟨rfl, rfl, rfl⟩
        rw [hv.eq_of_deterministic step_deterministic worldBothLoaded_run]
        rfl
    rintro ⟨old, hold, _⟩
    simp [current, hstored, Catalog.empty] at hold

/--
The first refresh discovers a machine that was never stored. The second one listed the service
earlier and saves first, so the machine is dropped and looking it up fails.
-/
theorem RefreshWorld.new_record_lost
    : ∃ w₃ : RefreshWorld,
        (system iroh account).Reachable world
          ∧ (system iroh account).step world (.load 0) worldLoaded
          ∧ (system iroh account).Run worldLoaded [.load 1, .save 1 (catalog 0 [])] worldOvertaken
          ∧ refreshUnlockedAt iroh primitives account (time 100) (answers fetched)
              (world.current account) = .ok (catalog 0 [record 1 1], [])
          ∧ Authenticated iroh primitives account (time 100) (answers fetched) (record 1 1)
          ∧ (∀ (v : RefreshWorld) (fs gs : List RefreshEvent),
              [.load 1, .save 1 (catalog 0 [])] = fs ++ gs →
              (system iroh account).Run worldLoaded fs v →
              (system iroh account).Run v gs worldOvertaken →
              ¬HasRecord account v (recordId 1))
          ∧ (system iroh account).step worldOvertaken (.save 0 (catalog 0 [record 1 1])) w₃
          ∧ record 1 1 ∉ (w₃.current account).records
          ∧ sshHost iroh true (.ok (catalog 0 [])) (.ok ()) (Catalog.load iroh w₃.stored account)
              "office" (time 100) (time 100) = .error Catalog.publisherNotFound := by
  refine ⟨{ worldOvertaken.setLoaded 0 none with stored := some (catalog 2 []) },
    System.Reachable.of_init world_init, worldLoaded_step, worldOvertaken_run, refresh_record,
    record_authenticated, ?_, ?_, ?_, ?_⟩
  . intro v fs gs hsplit hv _
    have hstored : v.stored = none ∨ v.stored = some (catalog 1 []) := by
      rcases fs with _ | ⟨_, _ | ⟨_, fs⟩⟩
      . rw [hv.eq_of_deterministic step_deterministic (System.Run.nil _)]
        exact Or.inl rfl
      . simp only [List.cons_append, List.cons.injEq] at hsplit
        rcases hsplit with ⟨rfl, _⟩
        rw [hv.eq_of_deterministic step_deterministic worldBothLoaded_run]
        exact Or.inl rfl
      . simp only [List.cons_append, List.cons.injEq, List.nil_eq, List.append_eq_nil_iff] at hsplit
        rcases hsplit with ⟨rfl, rfl, rfl, rfl⟩
        rw [hv.eq_of_deterministic step_deterministic worldOvertaken_run]
        exact Or.inr rfl
    rintro ⟨old, hold, _⟩
    rcases hstored with hstored | hstored
    . simp [current, hstored, Catalog.empty] at hold
    . simp [current, hstored, catalog] at hold
  . refine Step.save (show _ = some (catalog 0 []) from ?_) rfl (by decide +kernel)
    simp [worldOvertaken, worldBothLoaded, worldLoaded, setLoaded]
  . simp [current, catalog]
  . decide +kernel

end

end Attached
