import Attached.Sync.Catalog

/-!
This module contains the theory of the catalog: what `validate` accepts and which records the merge
of `save_refresh` stores.
-/

open Std

namespace Attached
namespace Catalog

variable {Ticket : Type} {iroh : Iroh Ticket}

theorem validateRecords_eq_ok_iff {seen : List RecordId} {records : List CatalogRecord}
    : validateRecords iroh seen records = .ok ()
        ↔
      (records.map CatalogRecord.recordId).Nodup
        ∧ (∀ record ∈ records, record.recordId ∉ seen)
        ∧ ∀ record ∈ records, validateRecord iroh record = .ok () := by
  induction records generalizing seen with
  | nil => simp [validateRecords]
  | cons record records ih =>
    simp only [validateRecords, Except.bind_eq_ok_iff, Except.ensure_eq_ok_iff,
      Bool.not_eq_true', List.contains_eq_mem, decide_eq_false_iff_not, exists_const, ih,
      List.map_cons, List.nodup_cons, List.mem_map, not_exists, not_and, List.mem_cons, not_or,
      forall_eq_or_imp]
    constructor
    . rintro ⟨hseen, _, hrecord, hnodup, hfresh, hvalid⟩
      refine ⟨⟨?_, hnodup⟩, ⟨hseen, ?_⟩, hrecord, hvalid⟩
      . intro other hother
        exact (hfresh other hother).1
      . intro other hother
        exact (hfresh other hother).2
    . rintro ⟨⟨hhead, hnodup⟩, ⟨hseen, htail⟩, hrecord, hvalid⟩
      refine ⟨hseen, (), hrecord, hnodup, ?_, hvalid⟩
      intro other hother
      exact ⟨hhead other hother, htail other hother⟩

theorem validate_eq_ok_iff {catalog : Catalog} {account : AccountCredentials}
    : validate iroh catalog account = .ok ()
        ↔
      catalog.accountId = account.accountId
        ∧ catalog.serviceOrigin = account.serviceOrigin
        ∧ catalog.records.length ≤ maxLiveRecords
        ∧ (catalog.records.map CatalogRecord.recordId).Nodup
        ∧ ∀ record ∈ catalog.records, validateRecord iroh record = .ok () := by
  simp [validate, validateRecords_eq_ok_iff]

theorem nodup_of_validate {catalog : Catalog} {account : AccountCredentials}
    (h : validate iroh catalog account = .ok ())
    : (catalog.records.map CatalogRecord.recordId).Nodup :=
  (validate_eq_ok_iff.mp h).2.2.2.1

theorem validate_empty (account : AccountCredentials)
    : validate iroh (empty account) account = .ok () := by
  simp [validate_eq_ok_iff, empty]

theorem eq_of_recordId_eq {records : List CatalogRecord}
    (hnodup : (records.map CatalogRecord.recordId).Nodup) {a b : CatalogRecord}
    (ha : a ∈ records) (hb : b ∈ records) (h : a.recordId = b.recordId) : a = b :=
  List.inj_on_of_nodup_map hnodup ha hb h

theorem sortByRecordId_perm (records : List CatalogRecord)
    : (sortByRecordId records).Perm records := by
  unfold sortByRecordId
  apply List.perm_insertionSort

@[simp]
theorem mem_sortByRecordId {records : List CatalogRecord} {record : CatalogRecord}
    : record ∈ sortByRecordId records ↔ record ∈ records :=
  (sortByRecordId_perm records).mem_iff

def Sorted (records : List CatalogRecord) : Prop :=
  records.Pairwise fun a b => (compare a.recordId b.recordId).isLE = true

theorem sorted_sortByRecordId (records : List CatalogRecord) : Sorted (sortByRecordId records) := by
  have : Std.Total fun a b : CatalogRecord => (compare a.recordId b.recordId).isLE = true := by
    constructor
    intro a b
    rw [OrientedOrd.eq_swap (a := b.recordId)]
    cases compare a.recordId b.recordId <;> simp
  have : IsTrans CatalogRecord fun a b => (compare a.recordId b.recordId).isLE = true := by
    constructor
    intro a b c
    exact TransOrd.isLE_trans
  unfold Sorted sortByRecordId
  apply List.pairwise_insertionSort

theorem sortByRecordId_eq_of_perm {as bs : List CatalogRecord} (hperm : as.Perm bs)
    (hnodup : (as.map CatalogRecord.recordId).Nodup) : sortByRecordId as = sortByRecordId bs := by
  have hperm' : (sortByRecordId as).Perm (sortByRecordId bs) :=
    (sortByRecordId_perm as).trans (hperm.trans (sortByRecordId_perm bs).symm)
  apply List.Perm.eq_of_pairwise _ (sorted_sortByRecordId as) (sorted_sortByRecordId bs) hperm'
  intro a b ha hb hab hba
  rw [mem_sortByRecordId] at ha hb
  apply eq_of_recordId_eq hnodup ha (hperm.mem_iff.mpr hb)
  apply LawfulEqOrd.eq_of_compare
  rw [OrientedOrd.eq_swap (a := b.recordId)] at hba
  cases hcmp : compare a.recordId b.recordId <;> simp_all

def select (currentGeneration refreshedGeneration : Nat)
    (current : TreeMap RecordId CatalogRecord compare) (candidate : CatalogRecord)
    : Option CatalogRecord :=
  match current[candidate.recordId]? with
  | some record =>
    some (if record.serviceRevision > candidate.serviceRevision then record else candidate)
  | none => if currentGeneration = refreshedGeneration then some candidate else none

theorem select_erase {currentGeneration refreshedGeneration : Nat}
    {current : TreeMap RecordId CatalogRecord compare} {candidate : CatalogRecord} {id : RecordId}
    (h : id ≠ candidate.recordId)
    : select currentGeneration refreshedGeneration (current.erase id) candidate
        =
      select currentGeneration refreshedGeneration current candidate := by
  unfold select
  rw [Keyed.getElem?_erase_of_ne h]

theorem reconcile_fst {currentGeneration refreshedGeneration : Nat}
    {candidates : List CatalogRecord} {current : TreeMap RecordId CatalogRecord compare}
    (hnodup : (candidates.map CatalogRecord.recordId).Nodup)
    : (reconcile currentGeneration refreshedGeneration candidates current).1
        =
      candidates.filterMap (select currentGeneration refreshedGeneration current) := by
  induction candidates generalizing current with
  | nil => simp [reconcile]
  | cons candidate candidates ih =>
    simp only [List.map_cons, List.nodup_cons] at hnodup
    rcases hnodup with ⟨hfresh, hnodup⟩
    have herase : candidates.filterMap (select currentGeneration refreshedGeneration
          (current.erase candidate.recordId))
        = candidates.filterMap (select currentGeneration refreshedGeneration current) := by
      apply List.filterMap_congr
      intro other hother
      apply select_erase
      intro heq
      apply hfresh
      rw [heq]
      exact List.mem_map_of_mem hother
    rw [reconcile, TreeMap.contains_eq_isSome_getElem?]
    simp only [List.filterMap_cons]
    cases hlookup : current[candidate.recordId]? with
    | some record => simp [select, hlookup, ih hnodup, herase]
    | none =>
      by_cases hgen : currentGeneration = refreshedGeneration
      . subst hgen
        simp [select, hlookup, ih hnodup, herase]
      . simp [select, hlookup, hgen, ih hnodup]

theorem reconcile_snd {currentGeneration refreshedGeneration : Nat}
    {candidates : List CatalogRecord} {current : TreeMap RecordId CatalogRecord compare}
    {id : RecordId}
    : (reconcile currentGeneration refreshedGeneration candidates current).2[id]?
        =
      if id ∈ candidates.map CatalogRecord.recordId then none else current[id]? := by
  induction candidates generalizing current with
  | nil => simp [reconcile]
  | cons candidate candidates ih =>
    rw [reconcile, TreeMap.contains_eq_isSome_getElem?]
    by_cases hid : candidate.recordId = id
    . subst hid
      cases hlookup : current[candidate.recordId]? with
      | some record => simp [ih]
      | none =>
        split
        . simp [ih, hlookup]
        . simp [ih]
    . have hne : ¬id = candidate.recordId := fun h => hid h.symm
      split
      . simp [ih, hne]
      . simp only [ih, List.map_cons, List.mem_cons, hne, false_or,
          Keyed.getElem?_erase_of_ne hid]

/--
The records `save_refresh` stores for the catalog `current`: for each candidate it selects the newer
one of the candidate and the current record, where candidates without a current record are only
selected if nobody saved since the load. Of the other current records those stay that the refresh
did not see at its load.
-/
def Merged (baseline : List (RecordId × Nat)) (refreshed current : Catalog)
    (record : CatalogRecord) : Prop :=
  (∃ candidate ∈ refreshed.records, ∃ old ∈ current.records,
      old.recordId = candidate.recordId
        ∧ record = if old.serviceRevision > candidate.serviceRevision then old else candidate)
    ∨ (record ∈ refreshed.records
        ∧ (∀ old ∈ current.records, old.recordId ≠ record.recordId)
        ∧ current.generation = refreshed.generation)
    ∨ (record ∈ current.records
        ∧ (∀ candidate ∈ refreshed.records, candidate.recordId ≠ record.recordId)
        ∧ record.revisionKey ∉ baseline)

theorem mem_select_iff {current : Catalog} {refreshedGeneration : Nat}
    (hcurrent : (current.records.map CatalogRecord.recordId).Nodup)
    {candidate record : CatalogRecord}
    : select current.generation refreshedGeneration
        (Keyed.indexBy CatalogRecord.recordId current.records) candidate = some record
        ↔
      (∃ old ∈ current.records,
        old.recordId = candidate.recordId
          ∧ record = if old.serviceRevision > candidate.serviceRevision then old else candidate)
        ∨ (record = candidate
          ∧ (∀ old ∈ current.records, old.recordId ≠ record.recordId)
          ∧ current.generation = refreshedGeneration) := by
  have hindex := fun id a =>
    Keyed.getElem?_indexBy_eq_some_iff (k := id) (a := a) hcurrent
  unfold select
  cases hlookup : (Keyed.indexBy CatalogRecord.recordId current.records)[candidate.recordId]? with
  | some old =>
    have hold := (hindex _ _).mp hlookup
    constructor
    . intro h
      injection h with h
      exact Or.inl ⟨old, hold.1, hold.2, h.symm⟩
    . rintro (⟨other, hmem, hid, hrecord⟩ | ⟨rfl, hnone, -⟩)
      . have := eq_of_recordId_eq hcurrent hmem hold.1 (hid.trans hold.2.symm)
        rw [hrecord, this]
      . exact absurd hold.2 (hnone old hold.1)
  | none =>
    have hnone : ∀ old ∈ current.records, old.recordId ≠ candidate.recordId := by
      intro old hmem hid
      have := (hindex _ _).mpr ⟨hmem, hid⟩
      simp [hlookup] at this
    constructor
    . intro h
      dsimp at h
      split at h
      . next hgen =>
        injection h with h
        subst h
        exact Or.inr ⟨rfl, hnone, hgen⟩
      . simp at h
    . rintro (⟨old, hmem, hid, -⟩ | ⟨rfl, -, hgen⟩)
      . exact absurd hid (hnone old hmem)
      . simp [hgen]

theorem mergeRefresh_eq_ok {account : AccountCredentials} {baseline : List (RecordId × Nat)}
    {refreshed current next : Catalog}
    (hrefreshed : (refreshed.records.map CatalogRecord.recordId).Nodup)
    (hcurrent : (current.records.map CatalogRecord.recordId).Nodup)
    (h : mergeRefresh iroh account baseline refreshed current = .ok next)
    : next.generation = current.generation + 1
        ∧ validate iroh next account = .ok ()
        ∧ Sorted next.records
        ∧ ∀ record, record ∈ next.records ↔ Merged baseline refreshed current record := by
  simp only [mergeRefresh, Except.bind_eq_ok_iff, Except.okOr_eq_ok_iff, checkedSucc_eq_some,
    Except.pure_eq_ok_iff] at h
  rcases h with ⟨generation, ⟨-, rfl⟩, _, hvalid, rfl⟩
  refine ⟨rfl, hvalid, sorted_sortByRecordId _, ?_⟩
  intro record
  simp only [mem_sortByRecordId, List.mem_append, List.mem_filter, Keyed.mem_intoValues,
    reconcile_fst hrefreshed, List.mem_filterMap, mem_select_iff hcurrent, Bool.not_eq_true',
    List.contains_eq_mem, decide_eq_false_iff_not, reconcile_snd]
  constructor
  . rintro (⟨candidate, hcandidate, hold | ⟨rfl, hnone, hgen⟩⟩ | ⟨⟨id, hid⟩, hbaseline⟩)
    . exact Or.inl ⟨candidate, hcandidate, hold⟩
    . exact Or.inr (Or.inl ⟨hcandidate, hnone, hgen⟩)
    . split at hid
      . simp at hid
      . next hfresh =>
        have := (Keyed.getElem?_indexBy_eq_some_iff hcurrent).mp hid
        rcases this with ⟨hmem, rfl⟩
        refine Or.inr (Or.inr ⟨hmem, ?_, hbaseline⟩)
        intro candidate hcandidate heq
        apply hfresh
        rw [← heq]
        exact List.mem_map_of_mem hcandidate
  . rintro (⟨candidate, hcandidate, hold⟩ | ⟨hmem, hnone, hgen⟩ | ⟨hmem, hfresh, hbaseline⟩)
    . exact Or.inl ⟨candidate, hcandidate, Or.inl hold⟩
    . exact Or.inl ⟨record, hmem, Or.inr ⟨rfl, hnone, hgen⟩⟩
    . refine Or.inr ⟨⟨record.recordId, ?_⟩, hbaseline⟩
      rw [if_neg]
      . exact (Keyed.getElem?_indexBy_eq_some_iff hcurrent).mpr ⟨hmem, rfl⟩
      . intro hid
        rw [List.mem_map] at hid
        rcases hid with ⟨candidate, hcandidate, heq⟩
        exact hfresh candidate hcandidate heq

end Catalog

namespace Fixture

def account : AccountCredentials where
  serviceOrigin := "https://sync.example"
  accountId := ⟨#v[1, 142, 41, 0, 0, 0, 0x70, 0, 0x80, 0, 0, 0, 0, 0, 0, 1]⟩
  accountRootKey := .replicate 32 7

def recordId (byte : UInt8) : RecordId :=
  ⟨.replicate 16 byte⟩

def record (byte : UInt8) (revision : Nat) : CatalogRecord where
  recordId := recordId byte
  serviceRevision := revision
  hostLabel := "office"
  publishedAt := some (time 0)
  expiresAt := time 300
  endpointTicket := ticket
  endpointIdentity := identity
  attachCapability := .replicate 32 6
  attachedVersion := ⟨4, 5, 6⟩
  sshEnabled := true

def catalog (generation : Nat) (records : List CatalogRecord) : Catalog where
  accountId := account.accountId
  serviceOrigin := account.serviceOrigin
  generation := generation
  records := records

end Fixture

end Attached
