import Attached.Worker.Storage

/-!
This module contains the proof that an account object stores exactly what was put into it. The rules
on records are enforced both by the code and by the constraints of the tables, the main part is that
the two agree.
-/

open Std

namespace Attached

theorem StoredRecord.validate_eq_ok_iff {revision : Nat} {ciphertext : List UInt8}
    : validate revision ciphertext = .ok ()
        ↔
      0 < revision ∧ revision ≤ i64Max ∧ ciphertext.length ≤ maxCiphertextBytes := by
  simp [validate, Nat.pos_iff_ne_zero, and_assoc]

theorem StoredRecord.fromStorage_eq_ok_iff {revision : Nat} {nonce : Vector UInt8 24}
    {ciphertext : List UInt8} {record : StoredRecord}
    : fromStorage revision nonce ciphertext = .ok record
        ↔
      record.revision = revision
        ∧ record.envelopeNonce = nonce
        ∧ record.envelopeCiphertext = ciphertext := by
  unfold fromStorage
  split
  . next h =>
    constructor
    . intro heq
      injection heq with heq
      simp [← heq]
    . rintro ⟨rfl, rfl, rfl⟩
      rfl
  . next e h =>
    constructor
    . intro heq
      simp at heq
    . rintro ⟨rfl, rfl, rfl⟩
      rw [record.valid] at h
      simp at h

theorem nextRevision_eq_ok_iff {revision next : Nat}
    : nextRevision revision = .ok next ↔ revision + 1 ≤ i64Max ∧ next = revision + 1 := by
  simp only [nextRevision, Except.okOr_eq_ok_iff, Option.filter_eq_some_iff, checkedSucc_eq_some,
    decide_eq_true_eq]
  unfold u64Max i64Max
  omega

def expectedOutcome (current : Option Nat) : MutationOutcome :=
  match current with
  | none => .created 1
  | some revision => .updated (revision + 1)

theorem put_eq_ok_iff {current : Option StoredRecord} {envelope : Envelope} {record : StoredRecord}
    {outcome : MutationOutcome}
    : put current envelope = .ok (record, outcome)
        ↔
      envelope.envelopeVersion = 1
        ∧ outcome = expectedOutcome (current.map StoredRecord.revision)
        ∧ record.revision = outcome.revision
        ∧ record.envelopeNonce = envelope.nonce
        ∧ record.envelopeCiphertext = envelope.ciphertext := by
  simp only [put, Except.bind_eq_ok_iff, Except.ensure_eq_ok_iff, Except.pure_eq_ok_iff,
    StoredRecord.fromStorage_eq_ok_iff, Prod.exists, Prod.mk.injEq, Bool.not_eq_true',
    bne_eq_false_iff_eq, exists_const]
  cases current with
  | none =>
    simp only [put.revision, Except.ok.injEq, Prod.mk.injEq, Option.map_none, expectedOutcome]
    constructor
    . rintro ⟨hversion, revision, outcome', ⟨rfl, rfl⟩, other, hrecord, rfl, rfl⟩
      exact ⟨hversion, rfl, hrecord⟩
    . rintro ⟨hversion, rfl, hrecord⟩
      exact ⟨hversion, 1, _, ⟨rfl, rfl⟩, record, hrecord, rfl, rfl⟩
  | some old =>
    simp only [put.revision, Except.bind_eq_ok_iff, Except.pure_eq_ok_iff, nextRevision_eq_ok_iff,
      Prod.mk.injEq, Option.map_some, expectedOutcome]
    constructor
    . rintro ⟨hversion, revision, outcome', ⟨_, ⟨hle, rfl⟩, rfl, rfl⟩, other, hrecord, rfl, rfl⟩
      exact ⟨hversion, rfl, hrecord⟩
    . rintro ⟨hversion, rfl, hrecord⟩
      -- The revision of a stored record is in range, so the increment did not overflow.
      have hle := (StoredRecord.validate_eq_ok_iff.mp record.valid).2.1
      rw [hrecord.1] at hle
      exact ⟨hversion, _, _, ⟨_, ⟨hle, rfl⟩, rfl, rfl⟩, record, hrecord, rfl, rfl⟩

namespace RecordRow

def Ok (row : RecordRow) : Prop :=
  StoredRecord.validate row.revision row.envelopeCiphertext = .ok ()

def toRecord (row : RecordRow) (h : row.Ok) : StoredRecord :=
  ⟨row.revision, row.envelopeNonce, row.envelopeCiphertext, h⟩

theorem Ok.parseRecord {row : RecordRow} (h : row.Ok)
    : Storage.parseRecord row = .ok (row.toRecord h) := by
  rcases StoredRecord.validate_eq_ok_iff.mp h with ⟨hpos, hle, _⟩
  simp only [Storage.parseRecord, Storage.revisionText, Except.bind_eq_ok_iff,
    Except.ensure_eq_ok_iff, Except.pure_eq_ok_iff, Except.mapError_eq_ok_iff,
    StoredRecord.fromStorage_eq_ok_iff]
  exact ⟨row.revision, ⟨(), by simp [hpos, hle], rfl⟩, rfl, rfl, rfl⟩

end RecordRow

structure Tables.Ok (tables : Tables) : Prop where
  account : ∃ account : StoredAccount, tables.accountState = some account.storageParts
  size : tables.records.size ≤ maxLiveRecords
  row : ∀ {id : RecordId} {row : RecordRow}, tables.records[id]? = some row → row.Ok

namespace Storage

variable {tables : Tables} {id : RecordId}

theorem loadRecord_of_none (h : tables.records[id]? = none)
    : loadRecord ⟨tables⟩ id = .ok none := by
  simp [loadRecord, Storage.tables, Except.okOr, h]

theorem loadRecord_of_some {row : RecordRow} (hrow : row.Ok) (h : tables.records[id]? = some row)
    : loadRecord ⟨tables⟩ id = .ok (some (row.toRecord hrow)) := by
  simp [loadRecord, Storage.tables, Except.okOr, h, hrow.parseRecord]

theorem liveRecordCount_eq : liveRecordCount ⟨tables⟩ = .ok tables.records.size := by
  simp [liveRecordCount, Storage.tables, Except.okOr]

theorem loadRecord_revision (hok : tables.Ok) (id : RecordId)
    : ∃ current, loadRecord ⟨tables⟩ id = .ok current
        ∧ current.map StoredRecord.revision = tables.records[id]?.map RecordRow.revision := by
  cases hlookup : tables.records[id]? with
  | none => exact ⟨none, loadRecord_of_none hlookup, rfl⟩
  | some row => exact ⟨_, loadRecord_of_some (hok.row hlookup) hlookup, rfl⟩

def stored (tables : Tables) (id : RecordId) (envelope : Envelope) (outcome : MutationOutcome)
    : Tables :=
  { tables with
    records := tables.records.insert id ⟨outcome.revision, envelope.nonce, envelope.ciphertext⟩ }

theorem checkStored_eq_ok {record : StoredRecord} {outcome : MutationOutcome}
    : checkStored (some record.revision) record outcome = .ok outcome := by
  rcases StoredRecord.validate_eq_ok_iff.mp record.valid with ⟨hpos, hle, _⟩
  simp only [checkStored, revisionText, Except.bind_eq_ok_iff, Except.okOr_eq_ok_iff,
    Except.ensure_eq_ok_iff, Except.pure_eq_ok_iff]
  exact ⟨_, rfl, _, ⟨(), by simp [hpos, hle], rfl⟩, (), by simp, trivial⟩

theorem checkPut_eq {current : Option StoredRecord}
    (hcurrent : loadRecord ⟨tables⟩ id = .ok current)
    (hsize : tables.records.size ≤ maxLiveRecords) (envelope : Envelope)
    : checkPut ⟨tables⟩ id envelope
        =
      if current.isNone && tables.records.size == maxLiveRecords then
        .error (.mutation .liveQuotaExceeded)
      else
        (put current envelope).mapError .mutation := by
  have hlive : (!decide (tables.records.size > maxLiveRecords)) = true := by
    simp [hsize]
  simp only [checkPut, hcurrent, liveRecordCount_eq, bind, Except.bind, Except.ensure, hlive,
    if_true]
  cases current.isNone && tables.records.size == maxLiveRecords with
  | true => rfl
  | false => rfl

theorem writeRecord_eq {record : StoredRecord} {outcome : MutationOutcome} {envelope : Envelope}
    (hok : tables.Ok) (houtcome : outcome = expectedOutcome (tables.records[id]?.map RecordRow.revision))
    (hrecord : record.revision = outcome.revision) (hnonce : record.envelopeNonce = envelope.nonce)
    (hciphertext : record.envelopeCiphertext = envelope.ciphertext)
    (hroom : tables.records[id]? = none → tables.records.size < maxLiveRecords)
    : writeRecord ⟨tables⟩ id record outcome
        =
      .ok (some record.revision, stored tables id envelope outcome) := by
  rcases StoredRecord.validate_eq_ok_iff.mp record.valid with ⟨_, hle, hlength⟩
  rw [hciphertext, ← Nat.not_lt] at hlength
  cases hlookup : tables.records[id]? with
  | none =>
    simp only [hlookup, Option.map_none, expectedOutcome] at houtcome
    subst houtcome
    have hguard : ¬(maxLiveRecords ≤ tables.records.size
        ∨ tables.records.contains id
        ∨ maxCiphertextBytes < envelope.ciphertext.length) := by
      have := hroom hlookup
      rw [TreeMap.contains_eq_isSome_getElem?, hlookup]
      simp only [Option.isSome_none, Bool.false_eq_true, false_or]
      omega
    have haccount : ¬tables.accountState.isNone := by
      rcases hok.account with ⟨account, haccount⟩
      simp [haccount]
    simp only [writeRecord, Storage.tables, Except.okOr, bind, Except.bind, Tables.insertRecord,
      hrecord, hnonce, hciphertext, stored, MutationOutcome.revision]
    rw [if_neg haccount, if_neg hguard]
  | some row =>
    simp only [hlookup, Option.map_some, expectedOutcome] at houtcome
    subst houtcome
    simp only [MutationOutcome.revision] at hrecord
    have hlt : row.revision < i64Max := by omega
    simp only [writeRecord, Storage.tables, Except.okOr, bind, Except.bind, Tables.updateRecord,
      hlookup, hrecord, hnonce, hciphertext, stored, MutationOutcome.revision]
    rw [if_pos hlt, if_neg hlength]

theorem putRecord_spec (hok : tables.Ok) (id : RecordId) (envelope : Envelope)
    : (∃ error, putRecord ⟨tables⟩ id envelope = (.error (.mutation error), ⟨tables⟩))
        ∨ ∃ outcome,
          putRecord ⟨tables⟩ id envelope = (.ok outcome, ⟨stored tables id envelope outcome⟩)
            ∧ outcome = expectedOutcome (tables.records[id]?.map RecordRow.revision)
            ∧ envelope.envelopeVersion = 1
            ∧ StoredRecord.validate outcome.revision envelope.ciphertext = .ok ()
            ∧ (tables.records[id]? = none → tables.records.size < maxLiveRecords) := by
  rcases loadRecord_revision hok id with ⟨current, hcurrent, hrevision⟩
  have hcheck := checkPut_eq hcurrent hok.size envelope
  split at hcheck
  . refine Or.inl ⟨.liveQuotaExceeded, ?_⟩
    simp [putRecord, hcheck, bind, Except.bind]
  . next hquota =>
    cases hput : put current envelope with
    | error error =>
      refine Or.inl ⟨error, ?_⟩
      simp [putRecord, hcheck, hput, bind, Except.bind, Except.mapError]
    | ok result =>
      rcases result with ⟨record, outcome⟩
      rcases put_eq_ok_iff.mp hput with ⟨hversion, houtcome, hrecord, hnonce, hciphertext⟩
      rw [hrevision] at houtcome
      have hvalid := record.valid
      rw [hrecord, hciphertext] at hvalid
      have hroom : tables.records[id]? = none → tables.records.size < maxLiveRecords := by
        intro hlookup
        rw [hlookup, Option.map_none, Option.map_eq_none_iff] at hrevision
        simp only [hrevision, Option.isNone_none, Bool.true_and, beq_iff_eq] at hquota
        have := hok.size
        omega
      refine Or.inr ⟨outcome, ?_, houtcome, hversion, hvalid, hroom⟩
      have hwrite := writeRecord_eq hok houtcome hrecord hnonce hciphertext hroom
      simp [putRecord, hcheck, hput, hwrite, bind, Except.bind, Except.mapError, pure, Except.pure,
        checkStored_eq_ok]

theorem ok_stored {envelope : Envelope} {outcome : MutationOutcome} (hok : tables.Ok)
    (hvalid : StoredRecord.validate outcome.revision envelope.ciphertext = .ok ())
    (hroom : tables.records[id]? = none → tables.records.size < maxLiveRecords)
    : (stored tables id envelope outcome).Ok := by
  refine ⟨hok.account, ?_, ?_⟩
  . have hsize := hok.size
    simp only [stored, TreeMap.size_insert]
    split
    . exact hsize
    . next hmem =>
      rw [TreeMap.contains_eq_isSome_getElem?, Bool.not_eq_true, Option.isSome_eq_false_iff,
        Option.isNone_iff_eq_none] at hmem
      have := hroom hmem
      omega
  . intro other row hrow
    simp only [stored, TreeMap.getElem?_insert] at hrow
    split at hrow
    . injection hrow with hrow
      rw [← hrow]
      exact hvalid
    . exact hok.row hrow

def created (account : StoredAccount) : Tables where
  accountState := some account.storageParts
  records := ∅

theorem ok_created (account : StoredAccount) : (created account).Ok := by
  refine ⟨⟨account, rfl⟩, ?_, ?_⟩
  . simp [created]
  . intro id row hrow
    simp [created] at hrow

theorem initializeAccount_of_none {storage : Storage} {account : StoredAccount}
    (h : storage.schema = none)
    : storage.initializeAccount account = (.ok .created, ⟨created account⟩) := by
  have hne : ¬account.publishApiTokenHash = account.downloadApiTokenHash := by
    have := account.valid
    simp only [StoredAccount.validate, Except.ensure_eq_ok_iff] at this
    intro heq
    simp [heq] at this
  simp only [initializeAccount, initializeSchema, h, Option.getD_none, Tables.insertAccount,
    if_neg hne, if_true]
  rfl

theorem initializeAccount_of_ok {account : StoredAccount} (hok : tables.Ok)
    : initializeAccount ⟨tables⟩ account = (.ok .alreadyExists, ⟨tables⟩) := by
  rcases hok.account with ⟨other, hother⟩
  simp [initializeAccount, initializeSchema, Tables.insertAccount, hother]

theorem loadAccount_eq {account : StoredAccount}
    (haccount : tables.accountState = some account.storageParts)
    : loadAccount ⟨tables⟩ = .ok (some account) := by
  have hnew : StoredAccount.new account.accountId account.publishApiTokenHash
      account.downloadApiTokenHash = .ok account := by
    unfold StoredAccount.new
    split
    . rfl
    . next h =>
      rw [account.valid] at h
      simp at h
  simp [loadAccount, haccount, parseAccount, StoredAccount.storageParts, hnew, Except.mapError]

theorem loadIndex.go_eq (records : List LiveRecordIndexEntry) {rows : List (RecordId × RecordRow)}
    (hrows : ∀ row ∈ rows, row.2.Ok) (hlength : records.length + rows.length ≤ maxLiveRecords)
    : go records rows = .ok (records ++ rows.map fun row => ⟨row.1, row.2.revision⟩) := by
  induction rows generalizing records with
  | nil => simp [go]
  | cons row rows ih =>
    rcases row with ⟨id, row⟩
    simp only [List.length_cons] at hlength
    rcases StoredRecord.validate_eq_ok_iff.mp (hrows (id, row) (by simp)) with ⟨hpos, hle, _⟩
    have hrest := ih (records ++ [⟨id, row.revision⟩])
      (fun other hother => hrows other (by simp [hother])) (by simp; omega)
    simp only [go, revisionText, Except.bind_eq_ok_iff, Except.ensure_eq_ok_iff,
      Except.pure_eq_ok_iff]
    refine ⟨row.revision, ⟨(), by simp [hpos, hle], rfl⟩, (), ?_, ?_⟩
    . simp only [List.length_append, List.length_singleton, Bool.not_eq_true',
        decide_eq_false_iff_not]
      omega
    . rw [hrest]
      simp

theorem loadIndex_eq (hok : tables.Ok)
    : ∃ index, loadIndex ⟨tables⟩ = .ok index
        ∧ index.records = tables.records.toList.map fun row => ⟨row.1, row.2.revision⟩ := by
  have hlength : tables.records.toList.length ≤ maxLiveRecords := by
    rw [TreeMap.length_toList]
    exact hok.size
  have hrows : ∀ row ∈ tables.records.toList, row.2.Ok := by
    intro row hrow
    exact hok.row (TreeMap.mem_toList_iff_getElem?_eq_some.mp hrow)
  have hvalid : LiveRecordIndex.validate
      (tables.records.toList.map fun row => ⟨row.1, row.2.revision⟩) = .ok () := by
    apply LiveRecordIndex.validate_eq_ok_iff.mpr
    refine ⟨by simpa using hlength, ?_, ?_⟩
    . intro record hrecord
      rw [List.mem_map] at hrecord
      rcases hrecord with ⟨row, hrow, rfl⟩
      have := (StoredRecord.validate_eq_ok_iff.mp (hrows row hrow)).1
      dsimp
      omega
    . rw [List.pairwise_map]
      exact TreeMap.ordered_keys_toList
  refine ⟨⟨_, hvalid⟩, ?_, rfl⟩
  have hgo := loadIndex.go_eq [] hrows (by simpa using hlength)
  simp only [loadIndex, Storage.tables, Except.okOr, Except.bind_eq_ok_iff,
    Except.mapError_eq_ok_iff, LiveRecordIndex.new_eq_ok_iff]
  refine ⟨tables, rfl, _, ?_, rfl⟩
  rw [List.take_of_length_le (by omega), hgo]
  simp

def successfulPuts (trace : List (AccountCall × AccountReply)) (id : RecordId) : List Envelope :=
  trace.filterMap fun event =>
    match event with
    | (.putRecord recordId envelope, .putRecord (.ok _)) =>
      if recordId = id then some envelope else none
    | _ => none

def initialized (trace : List (AccountCall × AccountReply)) : Bool :=
  trace.any fun event =>
    match event.1 with
    | .initializeAccount _ => true
    | _ => false

def expectedRow (puts : List Envelope) : Option RecordRow :=
  puts.getLast?.map fun envelope => ⟨puts.length, envelope.nonce, envelope.ciphertext⟩

theorem expectedRow_append (puts : List Envelope) (envelope : Envelope)
    : expectedRow (puts ++ [envelope])
        =
      some ⟨puts.length + 1, envelope.nonce, envelope.ciphertext⟩ := by
  simp [expectedRow]

theorem exists_expectedRow_iff {puts : List Envelope} {revision : Nat}
    : (∃ row, expectedRow puts = some row ∧ row.revision = revision)
        ↔
      0 < revision ∧ revision = puts.length := by
  simp only [expectedRow, Option.map_eq_some_iff]
  constructor
  . rintro ⟨row, ⟨last, hlast, rfl⟩, rfl⟩
    exact ⟨List.length_pos_of_mem (List.mem_of_getLast? hlast), rfl⟩
  . rintro ⟨hpos, rfl⟩
    rw [List.length_pos_iff] at hpos
    exact ⟨_, ⟨_, List.getLast?_eq_some_getLast hpos, rfl⟩, rfl⟩

theorem revision_expectedOutcome (puts : List Envelope)
    : (expectedOutcome ((expectedRow puts).map RecordRow.revision)).revision = puts.length + 1 := by
  cases hlast : puts.getLast? with
  | none =>
    rw [List.getLast?_eq_none_iff] at hlast
    simp [expectedRow, hlast, expectedOutcome, MutationOutcome.revision]
  | some envelope => simp [expectedRow, hlast, expectedOutcome, MutationOutcome.revision]

def Traced (trace : List (AccountCall × AccountReply)) (storage : Storage) : Prop :=
  match storage.schema with
  | none => initialized trace = false ∧ ∀ id, successfulPuts trace id = []
  | some tables =>
    initialized trace = true
      ∧ tables.Ok
      ∧ (∀ id, tables.records[id]? = expectedRow (successfulPuts trace id))
      ∧ ∀ id, ∀ envelope ∈ successfulPuts trace id, envelope.envelopeVersion = 1

section

variable {trace : List (AccountCall × AccountReply)} {storage storage' : Storage}

theorem Traced.append {event : AccountCall × AccountReply} (h : Traced trace storage)
    (hputs : ∀ id, successfulPuts [event] id = []) (hinit : initialized [event] = false)
    : Traced (trace ++ [event]) storage := by
  have hputs' : ∀ id, successfulPuts (trace ++ [event]) id = successfulPuts trace id := by
    intro id
    have := hputs id
    unfold successfulPuts at *
    rw [List.filterMap_append, this, List.append_nil]
  have hinit' : initialized (trace ++ [event]) = initialized trace := by
    unfold initialized at *
    rw [List.any_append, hinit, Bool.or_false]
  unfold Traced at *
  simpa only [hputs', hinit'] using h

theorem successfulPuts_append {event : AccountCall × AccountReply} {id : RecordId}
    : successfulPuts (trace ++ [event]) id = successfulPuts trace id ++ successfulPuts [event] id := by
  unfold successfulPuts
  rw [List.filterMap_append]

theorem traced_putRecord {id : RecordId} {envelope : Envelope} (h : Traced trace storage)
    : Traced
        (trace ++ [(.putRecord id envelope, .putRecord (storage.putRecord id envelope).1)])
        (storage.putRecord id envelope).2 := by
  rcases storage with ⟨schema⟩
  cases schema with
  | none =>
    have hput : putRecord ⟨none⟩ id envelope = (.error (.unavailable .statement), ⟨none⟩) := rfl
    rw [hput]
    apply h.append
    . intro other
      rfl
    . rfl
  | some tables =>
    have htraced := h
    rcases h with ⟨hinit, hok, hrows, hversions⟩
    rcases putRecord_spec hok id envelope with
      ⟨error, hput⟩ | ⟨outcome, hput, houtcome, hversion, hvalid, hroom⟩
    . rw [hput]
      apply htraced.append
      . intro other
        rfl
      . rfl
    . rw [hput]
      have hsingle : ∀ other, successfulPuts
          [(.putRecord id envelope, .putRecord (.ok outcome))] other
            = if id = other then [envelope] else [] := by
        intro other
        by_cases hid : id = other
        . simp [successfulPuts, hid]
        . simp [successfulPuts, hid]
      refine ⟨?_, ok_stored hok hvalid hroom, ?_, ?_⟩
      . unfold initialized at *
        rw [List.any_append, hinit, Bool.true_or]
      . intro other
        rw [successfulPuts_append, hsingle]
        by_cases hid : id = other
        . subst hid
          rw [if_pos rfl, expectedRow_append, ← revision_expectedOutcome, ← hrows, ← houtcome]
          simp [stored]
        . rw [if_neg hid, List.append_nil, ← hrows]
          simp [stored, TreeMap.getElem?_insert, hid]
      . intro other envelope' hmem
        rw [successfulPuts_append, hsingle, List.mem_append] at hmem
        rcases hmem with hmem | hmem
        . exact hversions other envelope' hmem
        . split at hmem
          . rw [List.mem_singleton] at hmem
            rw [hmem]
            exact hversion
          . simp at hmem

theorem traced_initializeAccount {account : StoredAccount} (h : Traced trace storage)
    : Traced
        (trace
          ++ [(.initializeAccount account, .initializeAccount (storage.initializeAccount account).1)])
        (storage.initializeAccount account).2 := by
  have hputs : ∀ reply id, successfulPuts (trace ++ [(.initializeAccount account, reply)]) id
      = successfulPuts trace id := by
    intro reply id
    rw [successfulPuts_append]
    exact List.append_nil _
  have hinit : ∀ reply, initialized (trace ++ [(.initializeAccount account, reply)]) = true := by
    intro reply
    simp [initialized]
  rcases storage with ⟨schema⟩
  cases schema with
  | none =>
    rw [initializeAccount_of_none rfl]
    refine ⟨hinit _, ok_created account, ?_, ?_⟩
    . intro id
      rw [hputs, h.2]
      simp [created, expectedRow]
    . intro id
      rw [hputs, h.2]
      simp
  | some tables =>
    rcases h with ⟨_, hok, hrows, hversions⟩
    rw [initializeAccount_of_ok hok]
    refine ⟨hinit _, hok, ?_, ?_⟩
    . intro id
      rw [hputs, hrows]
    . intro id
      rw [hputs]
      exact hversions id

theorem traced_of_run {storage₀ : Storage} (hinit : accountObject.init storage₀)
    (hrun : accountObject.Run storage₀ trace storage) : Traced trace storage := by
  induction hrun with
  | nil =>
    unfold Traced
    rw [show storage₀.schema = none from hinit]
    exact ⟨rfl, fun _ => rfl⟩
  | @snoc t u es event hrun hstep ih =>
    rcases event with ⟨call, reply⟩
    cases call with
    | initializeAccount account =>
      injection hstep with hreply hstorage
      subst hreply hstorage
      exact traced_initializeAccount ih
    | putRecord id envelope =>
      injection hstep with hreply hstorage
      subst hreply hstorage
      exact traced_putRecord ih
    | loadRecord id =>
      injection hstep with hreply hstorage
      subst hreply hstorage
      exact ih.append (fun _ => rfl) rfl
    | loadIndex =>
      injection hstep with hreply hstorage
      subst hreply hstorage
      exact ih.append (fun _ => rfl) rfl
    | loadAccount =>
      injection hstep with hreply hstorage
      subst hreply hstorage
      exact ih.append (fun _ => rfl) rfl

theorem Traced.step_spec (h : Traced trace storage) {call : AccountCall} {reply : AccountReply}
    (hstep : accountObject.step storage (call, reply) storage') {error : StoreError}
    (herror : reply.error? = some error)
    : storage' = storage
        ∧ error ≠ .unavailable .revisionMismatch
        ∧ error ≠ .unavailable .tooManyRecords
        ∧ error ≠ .unavailable .missingRow := by
  rcases storage with ⟨schema⟩
  cases schema with
  | none =>
    cases call with
    | initializeAccount account =>
      simp only [accountObject, call, initializeAccount_of_none] at hstep
      injection hstep with hreply hstorage
      subst hreply
      simp [AccountReply.error?] at herror
    | putRecord id envelope =>
      injection hstep with hreply hstorage
      subst hreply hstorage
      injection herror with herror
      subst herror
      exact ⟨rfl, by decide⟩
    | loadRecord id =>
      injection hstep with hreply hstorage
      subst hreply hstorage
      injection herror with herror
      subst herror
      exact ⟨rfl, by decide⟩
    | loadIndex =>
      injection hstep with hreply hstorage
      subst hreply hstorage
      injection herror with herror
      subst herror
      exact ⟨rfl, by decide⟩
    | loadAccount =>
      injection hstep with hreply hstorage
      subst hreply
      simp [AccountReply.error?, loadAccount] at herror
  | some tables =>
    rcases h with ⟨_, hok, _, _⟩
    cases call with
    | initializeAccount account =>
      simp only [accountObject, call, initializeAccount_of_ok hok] at hstep
      injection hstep with hreply hstorage
      subst hreply
      simp [AccountReply.error?] at herror
    | putRecord id envelope =>
      rcases putRecord_spec hok id envelope with ⟨error', hput⟩ | ⟨outcome, hput, _⟩
      . simp only [accountObject, call, hput] at hstep
        injection hstep with hreply hstorage
        subst hreply hstorage
        injection herror with herror
        subst herror
        exact ⟨rfl, by simp⟩
      . simp only [accountObject, call, hput] at hstep
        injection hstep with hreply hstorage
        subst hreply
        simp [AccountReply.error?] at herror
    | loadRecord id =>
      rcases loadRecord_revision hok id with ⟨current, hload, _⟩
      simp only [accountObject, call, hload] at hstep
      injection hstep with hreply hstorage
      subst hreply
      simp [AccountReply.error?] at herror
    | loadIndex =>
      rcases loadIndex_eq hok with ⟨index, hload, _⟩
      simp only [accountObject, call, hload] at hstep
      injection hstep with hreply hstorage
      subst hreply
      simp [AccountReply.error?] at herror
    | loadAccount =>
      rcases hok.account with ⟨account, haccount⟩
      simp only [accountObject, call, loadAccount_eq haccount] at hstep
      injection hstep with hreply hstorage
      subst hreply
      simp [AccountReply.error?] at herror

def recordCount (storage : Storage) : Nat :=
  (storage.schema.map fun tables => tables.records.size).getD 0

def revision (storage : Storage) (id : RecordId) : Option Nat := do
  let tables ← storage.schema
  let row ← tables.records[id]?
  return row.revision

theorem Traced.recordCount_le (h : Traced trace storage)
    : storage.recordCount ≤ maxLiveRecords := by
  rcases storage with ⟨schema⟩
  cases schema with
  | none => exact Nat.zero_le _
  | some tables => exact h.2.1.size

theorem Traced.putRecord_eq_ok (h : Traced trace storage) {id : RecordId} {envelope : Envelope}
    {outcome : MutationOutcome}
    (hstep : accountObject.step storage (.putRecord id envelope, .putRecord (.ok outcome)) storage')
    : outcome.revision = (successfulPuts trace id).length + 1
        ∧ (outcome = .created 1 ↔ successfulPuts trace id = [])
        ∧ storage'.revision id = some outcome.revision := by
  rcases storage with ⟨schema⟩
  cases schema with
  | none =>
    injection hstep with hreply
    injection hreply with hreply
    cases hreply
  | some tables =>
    rcases h with ⟨_, hok, hrows, _⟩
    rcases putRecord_spec hok id envelope with ⟨error, hput⟩ | ⟨other, hput, houtcome, _⟩
    . simp [accountObject, call, hput] at hstep
    . simp only [accountObject, call, hput] at hstep
      injection hstep with hreply hstorage
      injection hreply with hreply
      injection hreply with hreply
      subst hreply hstorage
      refine ⟨?_, ?_, ?_⟩
      . rw [houtcome, hrows, revision_expectedOutcome]
      . rw [houtcome, hrows]
        cases hlast : (successfulPuts trace id).getLast? with
        | none =>
          rw [List.getLast?_eq_none_iff] at hlast
          simp [hlast, expectedRow, expectedOutcome]
        | some last =>
          have hne : successfulPuts trace id ≠ [] := by
            intro hnil
            simp [hnil] at hlast
          simp [expectedRow, hlast, expectedOutcome, hne]
      . simp [revision, stored]

theorem Traced.loadRecord_eq (h : Traced trace storage) (hinit : initialized trace = true)
    (id : RecordId)
    : ∃ result, storage.loadRecord id = .ok result
        ∧ result.map StoredRecord.intoEnvelope
            = (successfulPuts trace id).getLast?.map fun envelope =>
                (envelope, (successfulPuts trace id).length) := by
  rcases storage with ⟨schema⟩
  cases schema with
  | none =>
    rw [h.1] at hinit
    simp at hinit
  | some tables =>
    rcases h with ⟨_, hok, hrows, hversions⟩
    have hrow := hrows id
    cases hlast : (successfulPuts trace id).getLast? with
    | none =>
      simp only [expectedRow, hlast, Option.map_none] at hrow
      exact ⟨none, loadRecord_of_none hrow, rfl⟩
    | some envelope =>
      simp only [expectedRow, hlast, Option.map_some] at hrow
      refine ⟨_, loadRecord_of_some (hok.row hrow) hrow, ?_⟩
      have hversion := hversions id envelope (List.mem_of_getLast? hlast)
      rcases envelope with ⟨version, nonce, ciphertext⟩
      simp only at hversion
      subst hversion
      rfl

theorem Traced.loadIndex_eq (h : Traced trace storage) (hinit : initialized trace = true)
    : ∃ index, storage.loadIndex = .ok index
        ∧ (∀ entry, entry ∈ index.records
            ↔ 0 < entry.revision
              ∧ entry.revision = (successfulPuts trace entry.recordId).length)
        ∧ index.records.Pairwise fun a b => compare a.recordId b.recordId = .lt := by
  rcases storage with ⟨schema⟩
  cases schema with
  | none =>
    rw [h.1] at hinit
    simp at hinit
  | some tables =>
    rcases h with ⟨_, hok, hrows, _⟩
    rcases Storage.loadIndex_eq hok with ⟨index, hload, hrecords⟩
    refine ⟨index, hload, ?_, (LiveRecordIndex.validate_eq_ok_iff.mp index.valid).2.2⟩
    intro entry
    rw [hrecords, List.mem_map, ← exists_expectedRow_iff, ← hrows]
    constructor
    . rintro ⟨⟨id, row⟩, hmem, rfl⟩
      exact ⟨row, TreeMap.mem_toList_iff_getElem?_eq_some.mp hmem, rfl⟩
    . rintro ⟨row, hrow, hrevision⟩
      refine ⟨(entry.recordId, row), TreeMap.mem_toList_iff_getElem?_eq_some.mpr hrow, ?_⟩
      rw [hrevision]

theorem account_object_correct {storage₀ : Storage} (hinit : accountObject.init storage₀)
    (hrun : accountObject.Run storage₀ trace storage)
    : storage.recordCount ≤ maxLiveRecords
        ∧ (∀ id envelope outcome storage',
            accountObject.step storage (.putRecord id envelope, .putRecord (.ok outcome)) storage' →
            outcome.revision = (successfulPuts trace id).length + 1
              ∧ (outcome = .created 1 ↔ successfulPuts trace id = [])
              ∧ storage'.revision id = some outcome.revision)
        ∧ (initialized trace = true → ∀ id,
            ∃ result, storage.loadRecord id = .ok result
              ∧ result.map StoredRecord.intoEnvelope
                  = (successfulPuts trace id).getLast?.map fun envelope =>
                      (envelope, (successfulPuts trace id).length))
        ∧ (initialized trace = true →
            ∃ index, storage.loadIndex = .ok index
              ∧ (∀ entry, entry ∈ index.records
                  ↔ 0 < entry.revision
                    ∧ entry.revision = (successfulPuts trace entry.recordId).length)
              ∧ index.records.Pairwise fun a b => compare a.recordId b.recordId = .lt)
        ∧ (∀ call reply storage' error,
            accountObject.step storage (call, reply) storage' →
            reply.error? = some error →
            storage' = storage
              ∧ error ≠ .unavailable .revisionMismatch
              ∧ error ≠ .unavailable .tooManyRecords
              ∧ error ≠ .unavailable .missingRow) := by
  have htraced := traced_of_run hinit hrun
  refine ⟨htraced.recordCount_le, ?_, ?_, ?_, ?_⟩
  . intro id envelope outcome storage' hstep
    exact htraced.putRecord_eq_ok hstep
  . exact htraced.loadRecord_eq
  . exact htraced.loadIndex_eq
  . intro call reply storage' error hstep herror
    exact htraced.step_spec hstep herror

end

end Storage

namespace Fixture

def storedAccount : StoredAccount where
  accountId := ⟨⟨#[1, 142, 41, 0, 0, 0, 0x70, 0, 0x80, 0, 0, 0, 0, 0, 0, 1], by decide⟩⟩
  publishApiTokenHash := .replicate 32 1
  downloadApiTokenHash := .replicate 32 2
  valid := by decide

def sealed (byte : UInt8) : Envelope where
  envelopeVersion := 1
  nonce := .replicate 24 byte
  ciphertext := [byte]

def putTwice : List (AccountCall × AccountReply) := [
  (.initializeAccount storedAccount, .initializeAccount (.ok .created)),
  (.putRecord ⟨.replicate 16 1⟩ (sealed 7), .putRecord (.ok (.created 1))),
  (.putRecord ⟨.replicate 16 1⟩ (sealed 8), .putRecord (.ok (.updated 2)))]

theorem putTwice_run : ∃ storage, accountObject.Run ⟨none⟩ putTwice storage := by
  have hstep : ∀ {storage : Storage} {id envelope result},
      (storage.putRecord id envelope).1 = result →
      accountObject.step storage (.putRecord id envelope, .putRecord result)
        (storage.putRecord id envelope).2 := by
    rintro storage id envelope result rfl
    rfl
  refine ⟨_, System.Run.cons (Eq.refl (Storage.call ⟨none⟩ (.initializeAccount storedAccount))) (System.Run.cons (hstep ?_)
    (System.Run.single (hstep ?_)))⟩
  . decide +kernel
  . decide +kernel

end Fixture

theorem Storage.account_object_correct_put_twice
    : ∃ storage result, accountObject.Run ⟨none⟩ Fixture.putTwice storage
        ∧ storage.loadRecord ⟨.replicate 16 1⟩ = .ok result
        ∧ result.map StoredRecord.intoEnvelope = some (Fixture.sealed 8, 2) := by
  rcases Fixture.putTwice_run with ⟨storage, hrun⟩
  have hcorrect := Storage.account_object_correct (show accountObject.init ⟨none⟩ from rfl) hrun
  rcases hcorrect.2.2.1 (by decide) ⟨.replicate 16 1⟩ with ⟨result, hload, hresult⟩
  refine ⟨storage, result, hrun, hload, ?_⟩
  rw [hresult]
  decide

end Attached
