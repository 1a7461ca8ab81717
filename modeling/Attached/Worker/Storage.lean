import Attached.Library.Transition
import Attached.Protocol.Api

/-!
This module contains the account object of the synchronization service: the stored account, its
records and the SQL statements on them.
-/

open Std

namespace Attached

inductive MutationOutcome where
  | created (revision : Nat)
  | updated (revision : Nat)
  deriving DecidableEq

def MutationOutcome.revision : MutationOutcome → Nat
  | .created revision => revision
  | .updated revision => revision

inductive MutationError where
  | invalidRequest
  | liveQuotaExceeded
  | revisionOverflow
  | invalidStorage
  deriving DecidableEq

namespace StoredAccount

def validate (accountId : AccountId) (publishApiTokenHash downloadApiTokenHash : Vector UInt8 32)
    : Except MutationError Unit :=
  Except.ensure (!(!accountId.isUuidV7 || publishApiTokenHash == downloadApiTokenHash))
    .invalidStorage

end StoredAccount

structure StoredAccount where
  accountId : AccountId
  publishApiTokenHash : Vector UInt8 32
  downloadApiTokenHash : Vector UInt8 32
  valid : StoredAccount.validate accountId publishApiTokenHash downloadApiTokenHash = .ok ()
  deriving DecidableEq

namespace StoredAccount

def new (accountId : AccountId) (publishApiTokenHash downloadApiTokenHash : Vector UInt8 32)
    : Except MutationError StoredAccount :=
  match h : validate accountId publishApiTokenHash downloadApiTokenHash with
  | .ok () => .ok ⟨accountId, publishApiTokenHash, downloadApiTokenHash, h⟩
  | .error e => .error e

def authenticate (account : StoredAccount) (suppliedHash : Vector UInt8 32) (scope : ApiKeyScope)
    : Bool :=
  let expected :=
    match scope with
    | .publish => account.publishApiTokenHash
    | .download => account.downloadApiTokenHash
  expected == suppliedHash

end StoredAccount

namespace StoredRecord

def validate (revision : Nat) (envelopeCiphertext : List UInt8) : Except MutationError Unit :=
  Except.ensure
    (!(revision == 0 || revision > i64Max || envelopeCiphertext.length > maxCiphertextBytes))
    .invalidStorage

end StoredRecord

structure StoredRecord where
  revision : Nat
  envelopeNonce : Vector UInt8 24
  envelopeCiphertext : List UInt8
  valid : StoredRecord.validate revision envelopeCiphertext = .ok ()
  deriving DecidableEq

namespace StoredRecord

def fromStorage (revision : Nat) (envelopeNonce : Vector UInt8 24) (envelopeCiphertext : List UInt8)
    : Except MutationError StoredRecord :=
  match h : validate revision envelopeCiphertext with
  | .ok () => .ok ⟨revision, envelopeNonce, envelopeCiphertext, h⟩
  | .error e => .error e

def intoEnvelope (record : StoredRecord) : Envelope × Nat :=
  (⟨1, record.envelopeNonce, record.envelopeCiphertext⟩, record.revision)

end StoredRecord

def nextRevision (revision : Nat) : Except MutationError Nat :=
  Except.okOr ((checkedSucc revision).filter (· ≤ i64Max)) .revisionOverflow

def put.revision (current : Option StoredRecord) : Except MutationError (Nat × MutationOutcome) :=
  match current with
  | some record => do
    let revision ← nextRevision record.revision
    return (revision, .updated revision)
  | none => .ok (1, .created 1)

def put (current : Option StoredRecord) (envelope : Envelope)
    : Except MutationError (StoredRecord × MutationOutcome) := do
  Except.ensure (!(envelope.envelopeVersion != 1)) .invalidRequest
  let (revision, outcome) ← put.revision current
  let record ← StoredRecord.fromStorage revision envelope.nonce envelope.ciphertext
  return (record, outcome)

/--
The branches of `storage.rs` that return `StoreError::Unavailable`.
-/
inductive Unavailable where
  /-- A statement failed: a table is missing, or a CHECK, a key or a trigger aborted it. -/
  | statement
  | revisionText
  | storedAccount
  | storedRecord
  | index
  | singleton
  | tooManyRecords
  | missingRow
  | revisionMismatch
  deriving DecidableEq

inductive StoreError where
  | unavailable (reason : Unavailable)
  | mutation (error : MutationError)
  deriving DecidableEq

inductive InitializeOutcome where
  | created
  | alreadyExists
  deriving DecidableEq

/--
A row of `account_state`. The CHECKs on the lengths of the blobs hold by type.
-/
structure AccountRow where
  accountId : AccountId
  publishApiTokenHash : Vector UInt8 32
  downloadApiTokenHash : Vector UInt8 32
  deriving DecidableEq

def StoredAccount.storageParts (account : StoredAccount) : AccountRow where
  accountId := account.accountId
  publishApiTokenHash := account.publishApiTokenHash
  downloadApiTokenHash := account.downloadApiTokenHash

structure RecordRow where
  revision : Nat
  envelopeNonce : Vector UInt8 24
  envelopeCiphertext : List UInt8
  deriving DecidableEq

structure Tables where
  accountState : Option AccountRow
  records : TreeMap RecordId RecordRow compare

namespace Tables

/--
`INSERT INTO account_state .. ON CONFLICT (singleton) DO NOTHING RETURNING singleton`
-/
def insertAccount (tables : Tables) (account : StoredAccount)
    : Except StoreError (Option Nat × Tables) :=
  match tables.accountState with
  | some _ => .ok (none, tables)
  | none =>
    if account.publishApiTokenHash = account.downloadApiTokenHash then
      .error (.unavailable .statement)
    else
      .ok (some 1, { tables with accountState := some account.storageParts })

/--
`INSERT INTO records .. SELECT .. WHERE EXISTS .. RETURNING revision`
-/
def insertRecord (tables : Tables) (recordId : RecordId) (nonce : Vector UInt8 24)
    (ciphertext : List UInt8) : Except StoreError (Option Nat × Tables) :=
  if tables.accountState.isNone then
    .ok (none, tables)
  -- The quota trigger, the primary key and the CHECK on the ciphertext.
  else if maxLiveRecords ≤ tables.records.size
      ∨ tables.records.contains recordId
      ∨ maxCiphertextBytes < ciphertext.length then
    .error (.unavailable .statement)
  else
    .ok (some 1, { tables with records := tables.records.insert recordId ⟨1, nonce, ciphertext⟩ })

/--
`UPDATE records SET .. WHERE record_id = ? AND revision < 9223372036854775807 RETURNING revision`
-/
def updateRecord (tables : Tables) (recordId : RecordId) (nonce : Vector UInt8 24)
    (ciphertext : List UInt8) : Except StoreError (Option Nat × Tables) :=
  match tables.records[recordId]? with
  | none => .ok (none, tables)
  | some row =>
    if row.revision < i64Max then
      if maxCiphertextBytes < ciphertext.length then
        .error (.unavailable .statement)
      else
        .ok (some (row.revision + 1), { tables with
          records := tables.records.insert recordId ⟨row.revision + 1, nonce, ciphertext⟩
        })
    else
      .ok (none, tables)

end Tables

/--
The SQL storage of an account object. There are no tables before its schema is initialized.
-/
structure Storage where
  schema : Option Tables

namespace Storage

/--
Before the schema exists every statement on its tables fails.
-/
def tables (storage : Storage) : Except StoreError Tables :=
  Except.okOr storage.schema (.unavailable .statement)

def initializeSchema (storage : Storage) : Tables :=
  storage.schema.getD { accountState := none, records := ∅ }

def initializeAccount (storage : Storage) (account : StoredAccount)
    : Except StoreError InitializeOutcome × Storage :=
  let tables := initializeSchema storage
  match tables.insertAccount account with
  | .error e => (.error e, ⟨tables⟩)
  | .ok (some singleton, tables) =>
    if singleton = 1 then
      (.ok .created, ⟨tables⟩)
    else
      (.error (.unavailable .singleton), ⟨tables⟩)
  | .ok (none, tables) => (.ok .alreadyExists, ⟨tables⟩)

def revisionText (revision : Nat) : Except StoreError Nat := do
  Except.ensure (0 < revision && revision ≤ i64Max) (.unavailable .revisionText)
  return revision

def parseAccount (row : AccountRow) : Except StoreError StoredAccount :=
  (StoredAccount.new row.accountId row.publishApiTokenHash row.downloadApiTokenHash).mapError
    fun _ => .unavailable .storedAccount

def parseRecord (row : RecordRow) : Except StoreError StoredRecord := do
  let revision ← revisionText row.revision
  (StoredRecord.fromStorage revision row.envelopeNonce row.envelopeCiphertext).mapError
    fun _ => .unavailable .storedRecord

def loadAccount (storage : Storage) : Except StoreError (Option StoredAccount) :=
  match storage.schema with
  | none => .ok none
  | some tables => tables.accountState.mapM parseAccount

def loadIndex.go (records : List LiveRecordIndexEntry) (rows : List (RecordId × RecordRow))
    : Except StoreError (List LiveRecordIndexEntry) :=
  match rows with
  | [] => .ok records
  | (recordId, row) :: rows => do
    let revision ← revisionText row.revision
    let records := records ++ [⟨recordId, revision⟩]
    Except.ensure (!(records.length > maxLiveRecords)) (.unavailable .tooManyRecords)
    go records rows

def loadIndex (storage : Storage) : Except StoreError LiveRecordIndex := do
  let tables ← storage.tables
  let records ← loadIndex.go [] (tables.records.toList.take (maxLiveRecords + 1))
  (LiveRecordIndex.new records).mapError fun _ => .unavailable .index

def loadRecord (storage : Storage) (recordId : RecordId)
    : Except StoreError (Option StoredRecord) := do
  let tables ← storage.tables
  tables.records[recordId]?.mapM parseRecord

def liveRecordCount (storage : Storage) : Except StoreError Nat := do
  let tables ← storage.tables
  return tables.records.size

def checkPut (storage : Storage) (recordId : RecordId) (envelope : Envelope)
    : Except StoreError (StoredRecord × MutationOutcome) := do
  let current ← storage.loadRecord recordId
  let liveRecords ← storage.liveRecordCount
  Except.ensure (!(liveRecords > maxLiveRecords)) (.unavailable .tooManyRecords)
  Except.ensure (!(current.isNone && liveRecords == maxLiveRecords)) (.mutation .liveQuotaExceeded)
  (put current envelope).mapError .mutation

/--
`put_record` after its write, `row` is what the statement returned.
-/
def checkStored (row : Option Nat) (record : StoredRecord) (outcome : MutationOutcome)
    : Except StoreError MutationOutcome := do
  let stored ← Except.okOr row (.unavailable .missingRow)
  let storedRevision ← revisionText stored
  Except.ensure (!(storedRevision != record.revision)) (.unavailable .revisionMismatch)
  return outcome

/--
The write of `put_record`, it returns what the statement returns.
-/
def writeRecord (storage : Storage) (recordId : RecordId) (record : StoredRecord)
    (outcome : MutationOutcome) : Except StoreError (Option Nat × Tables) := do
  let tables ← storage.tables
  match outcome with
  | .created _ => tables.insertRecord recordId record.envelopeNonce record.envelopeCiphertext
  | .updated _ => tables.updateRecord recordId record.envelopeNonce record.envelopeCiphertext

def putRecord (storage : Storage) (recordId : RecordId) (envelope : Envelope)
    : Except StoreError MutationOutcome × Storage :=
  let written := do
    let (record, outcome) ← storage.checkPut recordId envelope
    let (row, tables) ← storage.writeRecord recordId record outcome
    return (record, outcome, row, tables)
  match written with
  -- A failed statement writes nothing, but there is no way back after a successful one.
  | .error e => (.error e, storage)
  | .ok (record, outcome, row, tables) => (checkStored row record outcome, ⟨tables⟩)

end Storage

inductive AccountCall where
  | initializeAccount (account : StoredAccount)
  | putRecord (recordId : RecordId) (envelope : Envelope)
  | loadRecord (recordId : RecordId)
  | loadIndex
  | loadAccount

inductive AccountReply where
  | initializeAccount (result : Except StoreError InitializeOutcome)
  | putRecord (result : Except StoreError MutationOutcome)
  | loadRecord (result : Except StoreError (Option StoredRecord))
  | loadIndex (result : Except StoreError LiveRecordIndex)
  | loadAccount (result : Except StoreError (Option StoredAccount))

def AccountReply.error? : AccountReply → Option StoreError
  | .initializeAccount (.error e) => some e
  | .putRecord (.error e) => some e
  | .loadRecord (.error e) => some e
  | .loadIndex (.error e) => some e
  | .loadAccount (.error e) => some e
  | _ => none

def Storage.call (storage : Storage) (call : AccountCall) : AccountReply × Storage :=
  match call with
  | .initializeAccount account =>
    let (result, storage) := storage.initializeAccount account
    (.initializeAccount result, storage)
  | .putRecord recordId envelope =>
    let (result, storage) := storage.putRecord recordId envelope
    (.putRecord result, storage)
  | .loadRecord recordId => (.loadRecord (storage.loadRecord recordId), storage)
  | .loadIndex => (.loadIndex storage.loadIndex, storage)
  | .loadAccount => (.loadAccount storage.loadAccount, storage)

/--
An account object. Its calls run serially, each as one transaction, and its storage starts empty.
-/
def accountObject : System Storage (AccountCall × AccountReply) where
  init storage := storage.schema = none
  step storage event storage' := storage.call event.1 = (event.2, storage')

end Attached
