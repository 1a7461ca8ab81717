import Attached.Protocol.Crypto
import Attached.Sync.RefreshSystem

/-!
This module contains a catalog refresh: it lists the records of the account at the service, reuses
the cached ones whose revision did not change and fetches, decrypts and checks the others.
-/

open Std

namespace Attached

/--
A `FetchedRecord`. `Envelope::parse_json` has checked the limit on the ciphertext.
-/
structure FetchedRecord where
  envelope : Envelope
  revision : Nat
  limit : envelope.ciphertext.length ≤ maxCiphertextBytes

/--
What the service answers to the requests of one refresh. The answers are arbitrary, they may differ
from request to request.
-/
structure ServiceAnswers where
  listRecords : Except String LiveRecordIndex
  /-- `client.get_record(account, record_id)` in the given attempt -/
  getRecord : RecordId → Nat → Except String (Option FetchedRecord)
  /-- `client.list_records(account)`, as repeated for a record in the given attempt -/
  recheck : RecordId → Nat → Except String LiveRecordIndex

inductive RefreshWarning where
  | catalogRebuilt (error : String)
  | recordDiscarded (recordId : RecordId) (error : String)
  | recordUnavailable (recordId : RecordId) (error : String)
  deriving DecidableEq

inductive RefreshError where
  | index (error : String)
  | invalidEnvelope (recordId : RecordId) (error : HostAccessError)
  deriving DecidableEq

def HostAccessError.toText : HostAccessError → String
  | .malformed => "malformed host access descriptor"
  | .nonCanonical => "non-canonical host access descriptor"
  | .limit => "host access descriptor limit exceeded"
  | .invalidField => "invalid host access descriptor field"
  | .endpoint => "invalid endpoint ticket"
  | .expired => "host access descriptor expired"
  | .decryption => "host access descriptor decryption failed"
  | .nonceReuse => "host access descriptor nonce reuse"

section

variable {Ticket : Type} {iroh : Iroh Ticket}

def CatalogRecord.fromOpened (recordId : RecordId) (serviceRevision : Nat)
    (descriptor : HostAccessDescriptor iroh) : CatalogRecord where
  recordId
  serviceRevision
  hostLabel := descriptor.hostLabel
  publishedAt := some descriptor.issuedAt
  expiresAt := descriptor.expiresAt
  endpointTicket := descriptor.endpointTicket
  endpointIdentity := descriptor.endpointIdentity
  attachCapability := descriptor.attachCapability
  attachedVersion := descriptor.attachedVersion
  sshEnabled := descriptor.sshEnabled

end

def maxRecordFetchAttempts : Nat := 3

/--
The loop of `fetch_consistent_record`, `attempt` counts from 1 and `remaining` attempts are left.

The index is not a snapshot. A newer record may be used only after a second index observation
confirms that exact revision.
-/
def fetchConsistentRecord.go (answers : ServiceAnswers) (indexed : LiveRecordIndexEntry)
    (attempt remaining : Nat) : Except String (Option FetchedRecord) :=
  match remaining with
  | 0 => .error "record kept changing after 3 fetch attempts"
  | remaining + 1 => do
    match ← answers.getRecord indexed.recordId attempt with
    | none => return none
    | some fetched =>
      Except.ensure (indexed.revision ≤ fetched.revision)
        "record revision moved backwards during refresh"
      if fetched.revision = indexed.revision then
        return some fetched
      let index ← answers.recheck indexed.recordId attempt
      match index.records.find? fun entry => entry.recordId == indexed.recordId with
      | none => return none
      | some current =>
        Except.ensure (fetched.revision ≤ current.revision)
          "record index moved backwards during refresh"
        if current.revision = fetched.revision then
          return some fetched
        go answers current (attempt + 1) remaining

def fetchConsistentRecord (answers : ServiceAnswers) (indexed : LiveRecordIndexEntry)
    : Except String (Option FetchedRecord) :=
  fetchConsistentRecord.go answers indexed 1 maxRecordFetchAttempts

structure RefreshProgress where
  accepted : List CatalogRecord
  changed : List LiveRecordIndexEntry
  warnings : List RefreshWarning

/--
The first loop of `refresh_unlocked_at`: cached records of an unchanged revision are reused unless
they expired, everything else has to be fetched.
-/
def reuseUnchanged (now : DateTime) (index : List LiveRecordIndexEntry)
    (existing : TreeMap RecordId CatalogRecord compare) : RefreshProgress :=
  match index with
  | [] => ⟨[], [], []⟩
  | indexed :: index =>
    let rest := reuseUnchanged now index (existing.erase indexed.recordId)
    match existing[indexed.recordId]? with
    | some previous =>
      if previous.serviceRevision = indexed.revision then
        if previous.isExpiredAt now then
          { rest with
            warnings :=
              .recordDiscarded indexed.recordId "host access descriptor expired" :: rest.warnings }
        else
          { rest with accepted := previous :: rest.accepted }
      else
        { rest with changed := indexed :: rest.changed }
    | none => { rest with changed := indexed :: rest.changed }

section

variable {Ticket : Type} (iroh : Iroh Ticket) (primitives : Primitives)
  (account : AccountCredentials)

/--
The body of the second loop of `refresh_unlocked_at`: the record or the warning for what was fetched
for an entry of the index.
-/
def authenticateRecord (now : DateTime) (indexed : LiveRecordIndexEntry)
    (fetched : Except String (Option FetchedRecord))
    : Except RefreshError (CatalogRecord ⊕ RefreshWarning) :=
  match fetched with
  | .error error => .ok (.inr (.recordUnavailable indexed.recordId error))
  | .ok none =>
    .ok (.inr (.recordUnavailable indexed.recordId "record was removed during refresh"))
  | .ok (some fetched) =>
    match CryptoEnvelope.new fetched.envelope.nonce fetched.envelope.ciphertext with
    | .error error => .error (.invalidEnvelope indexed.recordId error)
    | .ok envelope =>
      let context := ⟨account.accountId, indexed.recordId, now⟩
      match openHostAccessDescriptor iroh primitives envelope account.accountRootKey context with
      | .error error => .ok (.inr (.recordDiscarded indexed.recordId error.toText))
      | .ok opened =>
        .ok (.inl (CatalogRecord.fromOpened indexed.recordId fetched.revision opened))

def authenticateChanged (now : DateTime) (answers : ServiceAnswers)
    (changed : List LiveRecordIndexEntry)
    : Except RefreshError (List CatalogRecord × List RefreshWarning) :=
  match changed with
  | [] => return ([], [])
  | indexed :: changed => do
    let outcome ←
      authenticateRecord iroh primitives account now indexed (fetchConsistentRecord answers indexed)
    let (accepted, warnings) ← authenticateChanged now answers changed
    match outcome with
    | .inl record => return (record :: accepted, warnings)
    | .inr warning => return (accepted, warning :: warnings)

/--
`refresh_unlocked_at` between its load and its save: the catalog that is handed to `save_refresh`
and the warnings.
-/
def refreshUnlockedAt (now : DateTime) (answers : ServiceAnswers) (catalog : Catalog)
    : Except RefreshError (Catalog × List RefreshWarning) := do
  let index ←
    match answers.listRecords with
    | .ok index => pure index
    | .error error => throw (.index error)
  let existing := Keyed.indexBy CatalogRecord.recordId catalog.records
  let reused := reuseUnchanged now index.records existing
  let (fetched, warnings) ← authenticateChanged iroh primitives account now answers reused.changed
  let records := Catalog.sortByRecordId (reused.accepted ++ fetched)
  return ({ catalog with records }, reused.warnings ++ warnings)

/--
`ssh_host`: `cached` is what the load before the refresh returns and `after` what the one after it
returns.
-/
def sshHost (noCache : Bool) (cached : Except String Catalog) (refreshed : Except String Unit)
    (after : Except String Catalog) (target : String) (now later : DateTime)
    : Except String HostConnection :=
  let fromCache := do
    let catalog ← cached
    catalog.host iroh target now
  let afterRefresh := do
    refreshed
    let catalog ← after
    let host ← catalog.host iroh target later
    Except.ensure host.sshEnabled
      "SSH access is unavailable on this publisher; update Attached and run `attached serve` there"
    return host
  match fromCache with
  | .ok host => if !noCache && host.sshEnabled then .ok host else afterRefresh
  | .error _ => afterRefresh

end

end Attached
