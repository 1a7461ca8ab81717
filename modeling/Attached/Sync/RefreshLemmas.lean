import Attached.Sync.Refresh

/-!
This module contains what a refresh computes, entry by entry of the index, and what follows for the
interplay of a refresh with its cache and with other refreshes.
-/

open Std

namespace Attached

theorem filterMap_split_perm {α β γ : Type} (first : α → Option β) (second : α → β)
    (pick : β → Option γ) (l : List α)
    : (l.filterMap (fun a => (first a).bind pick)
        ++ (l.filter (fun a => (first a).isNone)).filterMap (fun a => pick (second a))).Perm
      (l.filterMap fun a => pick ((first a).getD (second a))) := by
  induction l with
  | nil => simp
  | cons a l ih =>
    cases hfirst : first a with
    | none =>
      cases hpick : pick (second a) with
      | none => simpa [hfirst, hpick] using ih
      | some c =>
        simp only [List.filterMap_cons, List.filter_cons, hfirst, hpick, Option.bind_none,
          Option.isNone_none, if_true, Option.getD_none]
        exact List.perm_middle.trans (ih.cons c)
    | some b =>
      cases hpick : pick b with
      | none => simpa [hfirst, hpick] using ih
      | some c => simpa [hfirst, hpick] using ih

def reuse (now : DateTime) (existing : TreeMap RecordId CatalogRecord compare)
    (indexed : LiveRecordIndexEntry) : Option (CatalogRecord ⊕ RefreshWarning) :=
  match existing[indexed.recordId]? with
  | some previous =>
    if previous.serviceRevision = indexed.revision then
      if previous.isExpiredAt now then
        some (.inr (.recordDiscarded indexed.recordId "host access descriptor expired"))
      else
        some (.inl previous)
    else
      none
  | none => none

theorem reuse_erase {now : DateTime} {existing : TreeMap RecordId CatalogRecord compare}
    {indexed : LiveRecordIndexEntry} {id : RecordId} (h : id ≠ indexed.recordId)
    : reuse now (existing.erase id) indexed = reuse now existing indexed := by
  unfold reuse
  rw [Keyed.getElem?_erase_of_ne h]

theorem reuseUnchanged_eq {now : DateTime} {index : List LiveRecordIndexEntry}
    {existing : TreeMap RecordId CatalogRecord compare}
    (hnodup : (index.map LiveRecordIndexEntry.recordId).Nodup)
    : reuseUnchanged now index existing
        =
      {
        accepted := index.filterMap fun indexed => (reuse now existing indexed).bind Sum.getLeft?
        changed := index.filter fun indexed => (reuse now existing indexed).isNone
        warnings := index.filterMap fun indexed => (reuse now existing indexed).bind Sum.getRight?
      } := by
  induction index generalizing existing with
  | nil => simp [reuseUnchanged]
  | cons indexed index ih =>
    simp only [List.map_cons, List.nodup_cons] at hnodup
    rcases hnodup with ⟨hfresh, hnodup⟩
    -- The erased id does not occur again.
    have herase : ∀ other ∈ index, reuse now (existing.erase indexed.recordId) other
        = reuse now existing other := by
      intro other hother
      apply reuse_erase
      intro heq
      apply hfresh
      rw [heq]
      exact List.mem_map_of_mem hother
    have haccepted := List.filterMap_congr fun other hother =>
      congrArg (fun o => Option.bind o Sum.getLeft?) (herase other hother)
    have hwarnings := List.filterMap_congr fun other hother =>
      congrArg (fun o => Option.bind o Sum.getRight?) (herase other hother)
    have hchanged := List.filter_congr fun other hother =>
      congrArg Option.isNone (herase other hother)
    rw [reuseUnchanged, ih hnodup, haccepted, hwarnings, hchanged]
    cases hlookup : existing[indexed.recordId]? with
    | none => simp [reuse, hlookup]
    | some previous =>
      by_cases hrevision : previous.serviceRevision = indexed.revision
      . cases hexpired : previous.isExpiredAt now with
        | true => simp [reuse, hlookup, hrevision, hexpired]
        | false => simp [reuse, hlookup, hrevision, hexpired]
      . simp [reuse, hlookup, hrevision]

section

variable {Ticket : Type} (iroh : Iroh Ticket) (primitives : Primitives)
  (account : AccountCredentials)

def openEnvelope (now : DateTime) (id : RecordId) (envelope : Envelope)
    : Except HostAccessError (HostAccessDescriptor iroh) :=
  openHostAccessDescriptor iroh primitives ⟨envelope.nonce, envelope.ciphertext⟩
    account.accountRootKey ⟨account.accountId, id, now⟩

def fetchOutcome (now : DateTime) (answers : ServiceAnswers) (indexed : LiveRecordIndexEntry)
    : CatalogRecord ⊕ RefreshWarning :=
  match fetchConsistentRecord answers indexed with
  | .error error => .inr (.recordUnavailable indexed.recordId error)
  | .ok none => .inr (.recordUnavailable indexed.recordId "record was removed during refresh")
  | .ok (some fetched) =>
    match openEnvelope iroh primitives account now indexed.recordId fetched.envelope with
    | .error error => .inr (.recordDiscarded indexed.recordId error.toText)
    | .ok opened => .inl (CatalogRecord.fromOpened indexed.recordId fetched.revision opened)

def entryOutcome (now : DateTime) (answers : ServiceAnswers) (catalog : Catalog)
    (indexed : LiveRecordIndexEntry) : CatalogRecord ⊕ RefreshWarning :=
  (reuse now (Keyed.indexBy CatalogRecord.recordId catalog.records) indexed).getD
    (fetchOutcome iroh primitives account now answers indexed)

variable {iroh primitives account}

theorem authenticateRecord_eq {now : DateTime} {answers : ServiceAnswers}
    {indexed : LiveRecordIndexEntry}
    : authenticateRecord iroh primitives account now indexed (fetchConsistentRecord answers indexed)
        =
      .ok (fetchOutcome iroh primitives account now answers indexed) := by
  unfold authenticateRecord fetchOutcome
  cases hfetched : fetchConsistentRecord answers indexed with
  | error error => rfl
  | ok fetched =>
    cases fetched with
    | none => rfl
    | some fetched =>
      have henvelope : CryptoEnvelope.new fetched.envelope.nonce fetched.envelope.ciphertext
          = .ok ⟨fetched.envelope.nonce, fetched.envelope.ciphertext⟩ :=
        CryptoEnvelope.new_eq_ok_iff.mpr ⟨fetched.limit, rfl⟩
      simp only [henvelope, openEnvelope]
      cases openHostAccessDescriptor iroh primitives ⟨fetched.envelope.nonce, fetched.envelope.ciphertext⟩
        account.accountRootKey
        { accountId := account.accountId, recordId := indexed.recordId, now := now } with
      | error error => rfl
      | ok opened => rfl

theorem authenticateChanged_eq {now : DateTime} {answers : ServiceAnswers}
    {changed : List LiveRecordIndexEntry}
    : authenticateChanged iroh primitives account now answers changed
        =
      .ok
        (changed.filterMap fun indexed =>
            (fetchOutcome iroh primitives account now answers indexed).getLeft?,
          changed.filterMap fun indexed =>
            (fetchOutcome iroh primitives account now answers indexed).getRight?) := by
  induction changed with
  | nil => rfl
  | cons indexed changed ih =>
    rw [authenticateChanged, authenticateRecord_eq, ih]
    cases houtcome : fetchOutcome iroh primitives account now answers indexed with
    | inl record => simp [houtcome, bind, Except.bind, pure, Except.pure]
    | inr warning => simp [houtcome, bind, Except.bind, pure, Except.pure]

theorem refreshUnlockedAt_spec {now : DateTime} {answers : ServiceAnswers} {catalog : Catalog}
    {index : LiveRecordIndex} (hindex : answers.listRecords = .ok index)
    : ∃ records warnings,
        refreshUnlockedAt iroh primitives account now answers catalog
          = .ok ({ catalog with records := Catalog.sortByRecordId records }, warnings)
        ∧ records.Perm (index.records.filterMap fun indexed =>
            (entryOutcome iroh primitives account now answers catalog indexed).getLeft?)
        ∧ warnings.Perm (index.records.filterMap fun indexed =>
            (entryOutcome iroh primitives account now answers catalog indexed).getRight?) := by
  simp only [refreshUnlockedAt, hindex, reuseUnchanged_eq index.nodup, authenticateChanged_eq,
    bind, Except.bind, pure, Except.pure]
  refine ⟨_, _, rfl, ?_, ?_⟩
  . apply filterMap_split_perm
  . apply filterMap_split_perm

theorem refreshUnlockedAt_eq_ok {now : DateTime} {answers : ServiceAnswers}
    {catalog refreshed : Catalog} {warnings : List RefreshWarning}
    (h : refreshUnlockedAt iroh primitives account now answers catalog = .ok (refreshed, warnings))
    : ∃ index, answers.listRecords = .ok index
        ∧ refreshed.generation = catalog.generation
        ∧ ∀ record, record ∈ refreshed.records
            ↔ ∃ indexed ∈ index.records,
                entryOutcome iroh primitives account now answers catalog indexed = .inl record := by
  cases hindex : answers.listRecords with
  | error error =>
    simp [refreshUnlockedAt, hindex] at h
  | ok index =>
    rcases refreshUnlockedAt_spec hindex with ⟨records, warnings', heq, hperm, _⟩
    rw [h] at heq
    simp only [Except.ok.injEq, Prod.mk.injEq] at heq
    rcases heq with ⟨rfl, rfl⟩
    refine ⟨index, rfl, rfl, ?_⟩
    intro record
    simp only [Catalog.mem_sortByRecordId, hperm.mem_iff, List.mem_filterMap,
      Sum.getLeft?_eq_some_iff]

theorem fetchOutcome_eq_inl_iff {now : DateTime} {answers : ServiceAnswers}
    {indexed : LiveRecordIndexEntry} {record : CatalogRecord}
    : fetchOutcome iroh primitives account now answers indexed = .inl record
        ↔
      ∃ fetched opened,
        fetchConsistentRecord answers indexed = .ok (some fetched)
          ∧ openEnvelope iroh primitives account now indexed.recordId fetched.envelope = .ok opened
          ∧ record = CatalogRecord.fromOpened indexed.recordId fetched.revision opened := by
  unfold fetchOutcome
  constructor
  . intro h
    split at h
    . simp at h
    . simp at h
    . next fetched hfetched =>
      split at h
      . simp at h
      . next opened hopened =>
        injection h with h
        exact ⟨fetched, opened, hfetched, hopened, h.symm⟩
  . rintro ⟨fetched, opened, hfetched, hopened, rfl⟩
    simp [hfetched, hopened]

theorem reuse_eq_some_iff {now : DateTime} {catalog : Catalog} {indexed : LiveRecordIndexEntry}
    {outcome : CatalogRecord ⊕ RefreshWarning}
    (hnodup : (catalog.records.map CatalogRecord.recordId).Nodup)
    : reuse now (Keyed.indexBy CatalogRecord.recordId catalog.records) indexed = some outcome
        ↔
      ∃ previous ∈ catalog.records,
        previous.recordId = indexed.recordId
          ∧ previous.serviceRevision = indexed.revision
          ∧ outcome =
              if previous.isExpiredAt now then
                .inr (.recordDiscarded indexed.recordId "host access descriptor expired")
              else
                .inl previous := by
  have hindex := fun a =>
    Keyed.getElem?_indexBy_eq_some_iff (k := indexed.recordId) (a := a) hnodup
  unfold reuse
  constructor
  . intro h
    split at h
    . next previous hlookup =>
      rcases (hindex previous).mp hlookup with ⟨hmem, hid⟩
      split at h
      . next hrevision =>
        refine ⟨previous, hmem, hid, hrevision, ?_⟩
        split at h
        . next hexpired =>
          injection h with h
          simp [hexpired, h]
        . next hfresh =>
          injection h with h
          simp [hfresh, h]
      . simp at h
    . simp at h
  . rintro ⟨previous, hmem, hid, hrevision, rfl⟩
    rw [(hindex previous).mpr ⟨hmem, hid⟩]
    cases hexpired : previous.isExpiredAt now with
    | true => simp [hrevision, hexpired]
    | false => simp [hrevision, hexpired]

theorem reuse_eq_none {now : DateTime} {catalog : Catalog} {indexed : LiveRecordIndexEntry}
    (hnodup : (catalog.records.map CatalogRecord.recordId).Nodup)
    (habsent : ∀ record ∈ catalog.records, record.recordId ≠ indexed.recordId)
    : reuse now (Keyed.indexBy CatalogRecord.recordId catalog.records) indexed = none := by
  cases h : reuse now (Keyed.indexBy CatalogRecord.recordId catalog.records) indexed with
  | none => rfl
  | some outcome =>
    rcases (reuse_eq_some_iff hnodup).mp h with ⟨previous, hmem, hid, _⟩
    exact absurd hid (habsent previous hmem)

theorem entryOutcome_eq_inl {now : DateTime} {answers : ServiceAnswers} {catalog : Catalog}
    {indexed : LiveRecordIndexEntry} {record : CatalogRecord}
    (hnodup : (catalog.records.map CatalogRecord.recordId).Nodup)
    (h : entryOutcome iroh primitives account now answers catalog indexed = .inl record)
    : record ∈ catalog.records
        ∨ fetchOutcome iroh primitives account now answers indexed = .inl record := by
  unfold entryOutcome at h
  cases hreuse : reuse now (Keyed.indexBy CatalogRecord.recordId catalog.records) indexed with
  | none =>
    rw [hreuse] at h
    exact Or.inr h
  | some outcome =>
    rw [hreuse, Option.getD_some] at h
    subst h
    rcases (reuse_eq_some_iff hnodup).mp hreuse with ⟨previous, hmem, _, _, hrecord⟩
    split at hrecord
    . simp at hrecord
    . injection hrecord with hrecord
      subst hrecord
      exact Or.inl hmem

theorem fetchConsistentRecord.go_eq_some {answers : ServiceAnswers} {indexed : LiveRecordIndexEntry}
    {attempt remaining : Nat} {fetched : FetchedRecord}
    (h : fetchConsistentRecord.go answers indexed attempt remaining = .ok (some fetched))
    : ∃ n, answers.getRecord indexed.recordId n = .ok (some fetched) := by
  induction remaining generalizing indexed attempt with
  | zero => simp [go] at h
  | succ remaining ih =>
    simp only [go, Except.bind_eq_ok_iff] at h
    rcases h with ⟨response, hresponse, h⟩
    split at h
    . simp at h
    . next first =>
      simp only [Except.bind_eq_ok_iff] at h
      rcases h with ⟨_, _, h⟩
      split at h
      . simp only [Except.pure_eq_ok_iff, Option.some.injEq] at h
        subst h
        exact ⟨attempt, hresponse⟩
      . simp only [Except.bind_eq_ok_iff] at h
        rcases h with ⟨index, _, h⟩
        split at h
        . simp at h
        . next current hcurrent =>
          have hid : current.recordId = indexed.recordId := by
            have := List.find?_some hcurrent
            simpa using this
          simp only [Except.bind_eq_ok_iff] at h
          rcases h with ⟨_, _, h⟩
          split at h
          . simp only [Except.pure_eq_ok_iff, Option.some.injEq] at h
            subst h
            exact ⟨attempt, hresponse⟩
          . rw [← hid]
            exact ih h

theorem fetchConsistentRecord_of_revision_eq {answers : ServiceAnswers}
    {indexed : LiveRecordIndexEntry} {fetched : FetchedRecord}
    (hget : answers.getRecord indexed.recordId 1 = .ok (some fetched))
    (hrevision : fetched.revision = indexed.revision)
    : fetchConsistentRecord answers indexed = .ok (some fetched) := by
  simp [fetchConsistentRecord, maxRecordFetchAttempts, fetchConsistentRecord.go, hget, hrevision,
    bind, Except.bind, Except.ensure, pure, Except.pure]

end

end Attached
