import Attached.Sync.RefreshLemmas

/-!
This module contains the proof that the cache of a refresh is transparent: reusing a cached record
gives what fetching, decrypting and checking it again would give.
-/

open Std

namespace Attached

def discardedIds (warnings : List RefreshWarning) : List RecordId :=
  warnings.filterMap fun warning =>
    match warning with
    | .recordDiscarded id _ => some id
    | _ => none

/--
The service never exchanges the envelope of a revision: `envelopeOf` is its whole history.
-/
def ServiceAnswers.Honest (envelopeOf : RecordId → Nat → Envelope) (answers : ServiceAnswers)
    : Prop :=
  ∀ {id : RecordId} {attempt : Nat} {fetched : FetchedRecord},
    answers.getRecord id attempt = .ok (some fetched) →
    fetched.envelope = envelopeOf id fetched.revision

/--
Every request for a listed record succeeds and returns the listed revision: no request fails and
nobody publishes during the refresh.
-/
def ServiceAnswers.Quiet (envelopeOf : RecordId → Nat → Envelope) (answers : ServiceAnswers)
    (index : LiveRecordIndex) : Prop :=
  ∀ indexed ∈ index.records, ∀ attempt, ∃ fetched,
    answers.getRecord indexed.recordId attempt = .ok (some fetched)
      ∧ fetched.envelope = envelopeOf indexed.recordId indexed.revision
      ∧ fetched.revision = indexed.revision

section

variable {Ticket : Type} (iroh : Iroh Ticket) (primitives : Primitives)
  (account : AccountCredentials) (envelopeOf : RecordId → Nat → Envelope) (now : DateTime)

/--
The record is what some refresh got out of its envelope at some time up to `now`.
-/
def CatalogRecord.Genuine (record : CatalogRecord) : Prop :=
  ∃ earlier ≤ now, ∃ opened,
    openEnvelope iroh primitives account earlier record.recordId
        (envelopeOf record.recordId record.serviceRevision) = .ok opened
      ∧ record = CatalogRecord.fromOpened record.recordId record.serviceRevision opened

/--
The steps of refreshes against an honest service with clock values up to `now`. Their loads and
saves interleave freely, they may fail, and records may be published meanwhile.
-/
inductive HonestStep : RefreshWorld → RefreshEvent → RefreshWorld → Prop
  | idle {w w' : RefreshWorld} {e : RefreshEvent} :
      RefreshWorld.Step iroh account w e w' →
      (∀ refresh refreshed, e ≠ .save refresh refreshed) →
      HonestStep w e w'
  | save {w w' : RefreshWorld} {refresh : Nat} {catalog refreshed : Catalog}
      {warnings : List RefreshWarning} {earlier : DateTime} {answers : ServiceAnswers} :
      RefreshWorld.Step iroh account w (.save refresh refreshed) w' →
      w.loaded refresh = some catalog →
      earlier ≤ now →
      answers.Honest envelopeOf →
      refreshUnlockedAt iroh primitives account earlier answers catalog = .ok (refreshed, warnings) →
      HonestStep w (.save refresh refreshed) w'

def honestSystem : System RefreshWorld RefreshEvent where
  init w := w.stored = none ∧ ∀ refresh, w.loaded refresh = none
  step := HonestStep iroh primitives account envelopeOf now

structure GenuineWorld (w : RefreshWorld) : Prop where
  storedOk : RefreshWorld.StoredOk iroh account w
  stored : ∀ record ∈ (w.current account).records,
    record.Genuine iroh primitives account envelopeOf now
  loaded : ∀ refresh catalog, w.loaded refresh = some catalog →
    (catalog.records.map CatalogRecord.recordId).Nodup
      ∧ ∀ record ∈ catalog.records, record.Genuine iroh primitives account envelopeOf now

variable {iroh primitives account envelopeOf now}

theorem genuine_fetchOutcome {earlier : DateTime} {answers : ServiceAnswers}
    {indexed : LiveRecordIndexEntry} {record : CatalogRecord} (hearlier : earlier ≤ now)
    (hhonest : answers.Honest envelopeOf)
    (h : fetchOutcome iroh primitives account earlier answers indexed = .inl record)
    : record.Genuine iroh primitives account envelopeOf now := by
  rcases fetchOutcome_eq_inl_iff.mp h with ⟨fetched, opened, hfetched, hopened, rfl⟩
  rcases fetchConsistentRecord.go_eq_some hfetched with ⟨attempt, hget⟩
  rw [hhonest hget] at hopened
  exact ⟨earlier, hearlier, opened, hopened, rfl⟩

theorem genuine_refreshUnlockedAt {earlier : DateTime} {answers : ServiceAnswers}
    {catalog refreshed : Catalog} {warnings : List RefreshWarning} (hearlier : earlier ≤ now)
    (hhonest : answers.Honest envelopeOf)
    (hnodup : (catalog.records.map CatalogRecord.recordId).Nodup)
    (hcatalog : ∀ record ∈ catalog.records, record.Genuine iroh primitives account envelopeOf now)
    (h : refreshUnlockedAt iroh primitives account earlier answers catalog
      = .ok (refreshed, warnings))
    : ∀ record ∈ refreshed.records, record.Genuine iroh primitives account envelopeOf now := by
  rcases refreshUnlockedAt_eq_ok h with ⟨index, _, _, hmem⟩
  intro record hrecord
  rcases (hmem record).mp hrecord with ⟨indexed, _, houtcome⟩
  rcases entryOutcome_eq_inl hnodup houtcome with hcached | hfetched
  . exact hcatalog record hcached
  . exact genuine_fetchOutcome hearlier hhonest hfetched

theorem mem_or_mem_of_merged {baseline : List (RecordId × Nat)} {refreshed current : Catalog}
    {record : CatalogRecord} (h : Catalog.Merged baseline refreshed current record)
    : record ∈ refreshed.records ∨ record ∈ current.records := by
  rcases h with ⟨candidate, hcandidate, old, hold, _, rfl⟩ | ⟨hmem, _⟩ | ⟨hmem, _⟩
  . split
    . exact Or.inr hold
    . exact Or.inl hcandidate
  . exact Or.inl hmem
  . exact Or.inr hmem

theorem genuineWorld_step {w w' : RefreshWorld} {e : RefreshEvent}
    (hw : GenuineWorld iroh primitives account envelopeOf now w)
    (h : HonestStep iroh primitives account envelopeOf now w e w')
    : GenuineWorld iroh primitives account envelopeOf now w' := by
  cases h with
  | idle hstep hidle =>
    have hok := RefreshWorld.storedOk_step hw.storedOk hstep
    cases hstep with
    | load hload =>
      refine ⟨hok, hw.stored, RefreshWorld.forall_loaded_setLoaded hw.loaded ?_⟩
      rintro _ ⟨⟩
      rw [hw.storedOk.load] at hload
      injection hload with hload
      rw [← hload]
      exact ⟨Catalog.nodup_of_validate hw.storedOk.validate_current, hw.stored⟩
    | loadFailed =>
      refine ⟨hok, hw.stored, RefreshWorld.forall_loaded_setLoaded hw.loaded ?_⟩
      rintro _ ⟨⟩
      simp [Catalog.empty]
    | save => exact absurd rfl (hidle _ _)
    | saveFailed =>
      refine ⟨hok, hw.stored, RefreshWorld.forall_loaded_setLoaded hw.loaded ?_⟩
      rintro _ ⟨⟩
  | save hstep hloaded hearlier hhonest hrefresh =>
    have hok := RefreshWorld.storedOk_step hw.storedOk hstep
    rcases RefreshWorld.save_spec hw.storedOk hstep with
      ⟨catalog, next, hcatalog, _, _, rfl, _, _, _, hmem⟩
    rw [hcatalog] at hloaded
    injection hloaded with hloaded
    subst hloaded
    refine ⟨hok, ?_, RefreshWorld.forall_loaded_setLoaded hw.loaded (by rintro _ ⟨⟩)⟩
    intro record hrecord
    rcases hw.loaded _ _ hcatalog with ⟨hnodup, hgenuine⟩
    rcases mem_or_mem_of_merged ((hmem record).mp hrecord) with hnew | hold
    . exact genuine_refreshUnlockedAt hearlier hhonest hnodup hgenuine hrefresh record hnew
    . exact hw.stored record hold

theorem genuineWorld_of_reachable {w : RefreshWorld}
    (h : (honestSystem iroh primitives account envelopeOf now).Reachable w)
    : GenuineWorld iroh primitives account envelopeOf now w := by
  apply h.invariant _ genuineWorld_step
  rintro s ⟨hstored, hloaded⟩
  refine ⟨?_, ?_, ?_⟩
  . intro catalog hcatalog
    rw [hstored] at hcatalog
    simp at hcatalog
  . intro record hrecord
    simp [RefreshWorld.current, hstored, Catalog.empty] at hrecord
  . intro refresh catalog hcatalog
    rw [hloaded refresh] at hcatalog
    simp at hcatalog

theorem entryOutcome_eq_fetchOutcome {answers : ServiceAnswers} {catalog : Catalog}
    {index : LiveRecordIndex} {indexed : LiveRecordIndexEntry}
    (hnodup : (catalog.records.map CatalogRecord.recordId).Nodup)
    (hgenuine : ∀ record ∈ catalog.records, record.Genuine iroh primitives account envelopeOf now)
    (hquiet : answers.Quiet envelopeOf index) (hindexed : indexed ∈ index.records)
    (hnow : (now.checkedAddSeconds maxFutureClockSkew).isSome)
    : entryOutcome iroh primitives account now answers catalog indexed
        =
      fetchOutcome iroh primitives account now answers indexed := by
  unfold entryOutcome
  cases hreuse : reuse now (Keyed.indexBy CatalogRecord.recordId catalog.records) indexed with
  | none => rfl
  | some outcome =>
    rcases (reuse_eq_some_iff hnodup).mp hreuse with ⟨previous, hmem, hid, hrevision, rfl⟩
    rcases hgenuine previous hmem with ⟨earlier, hearlier, opened, hopened, hprevious⟩
    rw [hid, hrevision] at hopened hprevious
    rcases hquiet indexed hindexed 1 with ⟨fetched, hget, henvelope, hfetched⟩
    have hfetch := fetchConsistentRecord_of_revision_eq hget hfetched
    have hlater := openHostAccessDescriptor_later hearlier hnow hopened
    simp only [Option.getD_some, fetchOutcome, hfetch, hfetched, openEnvelope, henvelope, hlater]
    subst hprevious
    by_cases hexpired : opened.expiresAt ≤ now
    . simp [CatalogRecord.isExpiredAt, CatalogRecord.fromOpened, hexpired, HostAccessError.toText]
    . simp [CatalogRecord.isExpiredAt, CatalogRecord.fromOpened, hexpired]

theorem entryOutcome_empty {answers : ServiceAnswers} {indexed : LiveRecordIndexEntry}
    : entryOutcome iroh primitives account now answers (Catalog.empty account) indexed
        =
      fetchOutcome iroh primitives account now answers indexed := by
  unfold entryOutcome
  rw [reuse_eq_none]
  . rfl
  . simp [Catalog.empty]
  . simp [Catalog.empty]

theorem nodup_fetched {answers : ServiceAnswers} (index : LiveRecordIndex)
    : ((index.records.filterMap fun indexed =>
        (fetchOutcome iroh primitives account now answers indexed).getLeft?).map
          CatalogRecord.recordId).Nodup := by
  have hindex := index.nodup
  rw [List.nodup_iff_pairwise_ne, List.pairwise_map] at *
  rw [List.pairwise_filterMap]
  apply hindex.imp
  intro a b hne record hrecord other hother
  rw [Sum.getLeft?_eq_some_iff, fetchOutcome_eq_inl_iff] at hrecord hother
  rcases hrecord with ⟨_, _, _, _, rfl⟩
  rcases hother with ⟨_, _, _, _, rfl⟩
  exact hne

theorem refresh_cached_eq_refetch {w : RefreshWorld} {catalog : Catalog} {answers : ServiceAnswers}
    {index : LiveRecordIndex}
    (hreachable : (honestSystem iroh primitives account envelopeOf now).Reachable w)
    (hload : Catalog.load iroh w.stored account = .ok catalog)
    (hindex : answers.listRecords = .ok index) (hquiet : answers.Quiet envelopeOf index)
    (hnow : (now.checkedAddSeconds maxFutureClockSkew).isSome)
    : ∃ cached cachedWarnings refetched refetchedWarnings,
        refreshUnlockedAt iroh primitives account now answers catalog
            = .ok (cached, cachedWarnings)
          ∧ refreshUnlockedAt iroh primitives account now answers (Catalog.empty account)
            = .ok (refetched, refetchedWarnings)
          ∧ cached.records = refetched.records
          ∧ ∀ id, id ∈ discardedIds cachedWarnings ↔ id ∈ discardedIds refetchedWarnings := by
  have hworld := genuineWorld_of_reachable hreachable
  rw [hworld.storedOk.load] at hload
  injection hload with hload
  subst hload
  have hnodup := Catalog.nodup_of_validate hworld.storedOk.validate_current
  have hentry : ∀ indexed ∈ index.records,
      entryOutcome iroh primitives account now answers (w.current account) indexed
        = entryOutcome iroh primitives account now answers (Catalog.empty account) indexed := by
    intro indexed hindexed
    rw [entryOutcome_eq_fetchOutcome hnodup hworld.stored hquiet hindexed hnow, entryOutcome_empty]
  rcases refreshUnlockedAt_spec hindex with ⟨records, warnings, heq, hrecords, hwarnings⟩
  rcases refreshUnlockedAt_spec hindex with ⟨records', warnings', heq', hrecords', hwarnings'⟩
  refine ⟨_, _, _, _, heq, heq', ?_, ?_⟩
  . have hsame := List.filterMap_congr fun indexed hindexed =>
      congrArg Sum.getLeft? (hentry indexed hindexed)
    rw [hsame] at hrecords
    apply Catalog.sortByRecordId_eq_of_perm (hrecords.trans hrecords'.symm)
    simp only [entryOutcome_empty] at hrecords
    exact ((hrecords.map CatalogRecord.recordId).nodup_iff).mpr (nodup_fetched index)
  . have hsame := List.filterMap_congr fun indexed hindexed =>
      congrArg Sum.getRight? (hentry indexed hindexed)
    rw [hsame] at hwarnings
    intro id
    exact ((hwarnings.trans hwarnings'.symm).filterMap _).mem_iff

end

namespace Fixture

def lastTime (seconds : Fin 1000) : DateTime where
  nanos := (DateTime.maxTimestamp - 999 + seconds) * DateTime.nanosPerSecond
  lower := by
    simp only [DateTime.minTimestamp, DateTime.maxTimestamp, DateTime.nanosPerSecond]
    omega
  upper := by
    simp only [DateTime.maxTimestamp, DateTime.nanosPerSecond]
    omega

def lastDescriptorFields : DescriptorFields :=
  { descriptorFields with issuedAt := lastTime 600, expiresAt := lastTime 990 }

def descriptorKey : Vector UInt8 32 :=
  ⟨#[206, 221, 147, 196, 98, 142, 141, 125, 173, 72, 231, 114, 110, 25, 223, 181, 216, 5, 195, 23,
    249, 115, 114, 214, 22, 40, 114, 76, 29, 15, 180, 101], by decide⟩

def envelope : Envelope where
  envelopeVersion := 1
  nonce := .replicate 24 9
  ciphertext := [
    153, 247, 139, 66, 189, 249, 114, 140, 5, 127, 216, 188, 190, 155, 92, 149, 17, 228, 199, 50,
    126, 160, 167, 106, 153, 82, 46, 208, 169, 36, 190, 198, 82, 175, 220, 234, 174, 8, 120, 186,
    85, 111, 213, 216, 171, 202, 229, 31, 2, 136, 214, 105, 54, 45, 51, 12, 136, 196, 46, 164, 138,
    158, 175, 136, 251, 204, 154, 101, 159, 245, 5, 68, 227, 186, 195, 102, 240, 19, 138, 169, 16,
    33, 159, 91, 140, 236, 73, 99, 166, 139, 68, 79, 176, 77, 80, 39, 157, 86, 122, 163, 81, 23,
    226, 20, 17, 140, 247, 182, 251, 117, 107, 31, 103, 215, 75, 174, 34, 44, 154, 109, 236, 208,
    233, 19, 208, 3, 23, 114, 159, 168, 77, 169, 135, 173, 185, 104, 193, 232, 23, 205, 78, 156,
    64, 192, 61, 123, 53, 68, 6, 47, 9, 231, 204, 116, 77, 27, 232, 124, 81, 89, 99, 158, 17, 115,
    52, 199, 162, 122, 183, 54, 72, 161, 63, 254, 207, 110, 2, 214, 28, 170, 189, 92, 187, 198,
    218, 33]

def lastEnvelope : Envelope where
  envelopeVersion := 1
  nonce := .replicate 24 10
  ciphertext := [
    176, 220, 199, 176, 216, 227, 55, 4, 99, 55, 21, 143, 178, 42, 229, 107, 87, 1, 126, 38, 59,
    203, 78, 253, 130, 95, 43, 79, 152, 118, 70, 10, 171, 59, 220, 234, 77, 28, 180, 213, 241, 151,
    248, 69, 29, 253, 4, 121, 199, 233, 233, 55, 104, 174, 230, 134, 111, 224, 44, 112, 211, 145,
    135, 110, 115, 55, 196, 220, 23, 110, 161, 151, 197, 35, 136, 199, 254, 225, 28, 29, 111, 71,
    132, 137, 39, 150, 149, 88, 137, 8, 49, 73, 47, 245, 102, 239, 41, 147, 88, 219, 121, 50, 11,
    172, 150, 60, 49, 230, 126, 125, 104, 190, 23, 62, 159, 108, 217, 25, 52, 252, 188, 73, 50,
    215, 111, 2, 180, 49, 30, 54, 197, 254, 98, 51, 128, 236, 12, 95, 148, 143, 19, 221, 213, 196,
    110, 88, 239, 7, 118, 147, 209, 226, 111, 113, 34, 4, 15, 137, 238, 58, 124, 64, 18, 86, 218,
    31, 214, 66, 58, 219, 100, 135, 173, 126, 29, 21, 35, 11, 222, 60, 229, 222, 107, 88, 183, 244,
    11, 92, 36, 204, 194, 194, 208, 82]

def primitives : Primitives where
  hkdfExpand salt key info :=
    if salt = account.accountId.bytes.toList ∧ key = account.accountRootKey.toList
        ∧ info = keyInfo then
      some descriptorKey
    else
      none
  aeadDecrypt key nonce aad ciphertext :=
    if key = descriptorKey ∧ aad = envelopeAad account.accountId (recordId 1) then
      if nonce = envelope.nonce ∧ ciphertext = envelope.ciphertext then
        some descriptorFields.encoding
      else if nonce = lastEnvelope.nonce ∧ ciphertext = lastEnvelope.ciphertext then
        some lastDescriptorFields.encoding
      else
        none
    else
      none

def index : LiveRecordIndex where
  records := [⟨recordId 1, 1⟩]
  valid := by decide

def fetched : FetchedRecord where
  envelope := envelope
  revision := 1
  limit := by decide +kernel

def lastFetched : FetchedRecord where
  envelope := lastEnvelope
  revision := 1
  limit := by decide +kernel

def answers (fetched : FetchedRecord) : ServiceAnswers where
  listRecords := .ok index
  getRecord _ _ := .ok (some fetched)
  recheck _ _ := .ok index

theorem honest_answers (fetched : FetchedRecord)
    : (answers fetched).Honest (fun _ _ => fetched.envelope) := by
  intro id attempt other h
  simp only [answers, Except.ok.injEq, Option.some.injEq] at h
  rw [← h]

theorem quiet_answers {fetched : FetchedRecord} (hrevision : fetched.revision = 1)
    : (answers fetched).Quiet (fun _ _ => fetched.envelope) index := by
  intro indexed hindexed attempt
  simp only [index, List.mem_singleton] at hindexed
  rw [hindexed]
  exact ⟨fetched, rfl, rfl, hrevision⟩

def worldCached (cached : CatalogRecord) : RefreshWorld :=
  { (world.setLoaded 0 (some (catalog 0 []))).setLoaded 0 none with
      stored := some (catalog 1 [cached]) }

theorem worldCached_reachable {fetched : FetchedRecord} {earlier now : DateTime}
    {cached : CatalogRecord} (hearlier : earlier ≤ now)
    (hrefresh : refreshUnlockedAt iroh primitives account earlier (answers fetched) (catalog 0 [])
      = .ok (catalog 0 [cached], []))
    (hsave : Catalog.saveRefresh iroh none account [] (catalog 0 [cached])
      = .ok (catalog 1 [cached]))
    : (honestSystem iroh primitives account (fun _ _ => fetched.envelope) now).Reachable
        (worldCached cached) := by
  have hloaded : (world.setLoaded 0 (some (catalog 0 []))).loaded 0 = some (catalog 0 []) := by
    simp [RefreshWorld.setLoaded]
  refine ⟨world, [.load 0, .save 0 (catalog 0 [cached])], ⟨rfl, fun _ => rfl⟩, ?_⟩
  apply System.Run.cons (HonestStep.idle (RefreshWorld.Step.load rfl) (by simp))
  apply System.Run.single
  exact HonestStep.save (RefreshWorld.Step.save hloaded rfl hsave) hloaded hearlier
    (honest_answers fetched) hrefresh

def lastRecord : CatalogRecord :=
  { record 1 1 with publishedAt := some (lastTime 600), expiresAt := lastTime 990 }

end Fixture

section

open Fixture

theorem refresh_cached_eq_refetch_office
    : ∃ cached cachedWarnings refetched refetchedWarnings,
        refreshUnlockedAt iroh primitives account (time 200) (answers fetched)
            (catalog 1 [record 1 1]) = .ok (cached, cachedWarnings)
          ∧ refreshUnlockedAt iroh primitives account (time 200) (answers fetched)
            (Catalog.empty account) = .ok (refetched, refetchedWarnings)
          ∧ cached.records = refetched.records
          ∧ ∀ id, id ∈ discardedIds cachedWarnings ↔ id ∈ discardedIds refetchedWarnings := by
  have hreachable : (honestSystem iroh primitives account (fun _ _ => fetched.envelope)
      (time 200)).Reachable (worldCached (record 1 1)) := by
    apply worldCached_reachable (show time 100 ≤ time 200 by decide)
    . decide +kernel
    . decide +kernel
  refine refresh_cached_eq_refetch hreachable ?_ rfl (quiet_answers rfl) ?_
  . decide +kernel
  . decide +kernel

/--
In the last minute that `chrono` represents the latest acceptable issue time is not representable,
so the full path discards what the cached path reuses.
-/
theorem refresh_cached_ne_refetch
    : (honestSystem iroh primitives account (fun _ _ => lastFetched.envelope) (lastTime 960)).Reachable
          (worldCached lastRecord)
        ∧ Catalog.load iroh (worldCached lastRecord).stored account = .ok (catalog 1 [lastRecord])
        ∧ (answers lastFetched).listRecords = .ok index
        ∧ (answers lastFetched).Quiet (fun _ _ => lastFetched.envelope) index
        ∧ refreshUnlockedAt iroh primitives account (lastTime 960) (answers lastFetched)
            (catalog 1 [lastRecord]) = .ok (catalog 1 [lastRecord], [])
        ∧ refreshUnlockedAt iroh primitives account (lastTime 960) (answers lastFetched)
            (Catalog.empty account)
          = .ok (catalog 0 [],
              [.recordDiscarded (recordId 1) "invalid host access descriptor field"])
        ∧ (catalog 1 [lastRecord]).records ≠ (catalog 0 []).records := by
  refine ⟨?_, ?_, rfl, quiet_answers rfl, ?_, ?_, ?_⟩
  . apply worldCached_reachable (show lastTime 700 ≤ lastTime 960 by decide)
    . decide +kernel
    . decide +kernel
  . decide +kernel
  . decide +kernel
  . decide +kernel
  . simp [catalog]

end

end Attached
