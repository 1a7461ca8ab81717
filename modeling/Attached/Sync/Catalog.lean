import Attached.Library.Except
import Attached.Library.Keyed
import Attached.Protocol.Basic

/-!
This module contains the local catalog of synchronized hosts: its validation, the lookup of a host
and the merge with which a refresh is saved.
-/

open Std

namespace Attached

structure AccountCredentials where
  serviceOrigin : String
  accountId : AccountId
  accountRootKey : Vector UInt8 32
  deriving DecidableEq

structure CatalogRecord where
  recordId : RecordId
  serviceRevision : Nat
  hostLabel : String
  publishedAt : Option DateTime
  expiresAt : DateTime
  endpointTicket : String
  endpointIdentity : Vector UInt8 32
  attachCapability : Vector UInt8 32
  attachedVersion : AttachedVersion
  sshEnabled : Bool
  deriving DecidableEq

structure Catalog where
  accountId : AccountId
  serviceOrigin : String
  generation : Nat
  records : List CatalogRecord
  deriving DecidableEq

structure HostConnection where
  recordId : RecordId
  serviceRevision : Nat
  endpointTicket : String
  endpointIdentity : Vector UInt8 32
  attachCapability : Vector UInt8 32
  attachedVersion : AttachedVersion
  expiresAt : DateTime
  sshEnabled : Bool
  deriving DecidableEq

namespace CatalogRecord

def isExpiredAt (record : CatalogRecord) (now : DateTime) : Bool :=
  record.expiresAt ≤ now

def sshAttachment (record : CatalogRecord) : HostConnection where
  recordId := record.recordId
  serviceRevision := record.serviceRevision
  endpointTicket := record.endpointTicket
  endpointIdentity := record.endpointIdentity
  attachCapability := record.attachCapability
  attachedVersion := record.attachedVersion
  expiresAt := record.expiresAt
  sshEnabled := record.sshEnabled

def revisionKey (record : CatalogRecord) : RecordId × Nat :=
  (record.recordId, record.serviceRevision)

end CatalogRecord

namespace Catalog

def empty (account : AccountCredentials) : Catalog where
  accountId := account.accountId
  serviceOrigin := account.serviceOrigin
  generation := 0
  records := []

section

variable {Ticket : Type} (iroh : Iroh Ticket)

def validateRecord (record : CatalogRecord) : Except String Unit := do
  Except.ensure (0 < record.serviceRevision) "invalid sync service revision"
  Except.ensure (validateHostLabel record.hostLabel) "invalid synchronized host label"
  Except.ensure
    (0 ≤ record.expiresAt.timestamp && record.expiresAt.timestampSubsecNanos == 0)
    "invalid host access descriptor expiration"
  Except.ensure
    (record.publishedAt.all fun publishedAt =>
      0 ≤ publishedAt.timestamp
        && publishedAt.timestampSubsecNanos == 0
        && publishedAt ≤ record.expiresAt)
    "invalid host access descriptor publication time"
  Except.ensure
    (!(Bytes.ofString record.endpointTicket).isEmpty
      && (Bytes.ofString record.endpointTicket).length ≤ maxEndpointTicketBytes
      && Bytes.isAscii (Bytes.ofString record.endpointTicket))
    "invalid synchronized endpoint"
  let endpoint ←
    Except.okOr (iroh.ticketFromStr record.endpointTicket) "invalid synchronized endpoint"
  Except.ensure
    (iroh.ticketToString endpoint == record.endpointTicket
      && iroh.ticketIdentity endpoint == record.endpointIdentity)
    "invalid synchronized endpoint"

def validateRecords (seen : List RecordId) (records : List CatalogRecord) : Except String Unit :=
  match records with
  | [] => .ok ()
  | record :: records => do
    Except.ensure (!seen.contains record.recordId) "duplicate sync record"
    validateRecord iroh record
    validateRecords (record.recordId :: seen) records

def validate (catalog : Catalog) (account : AccountCredentials) : Except String Unit := do
  Except.ensure (catalog.accountId == account.accountId) "sync catalog account mismatch"
  Except.ensure (catalog.serviceOrigin == account.serviceOrigin) "sync catalog service mismatch"
  Except.ensure (catalog.records.length ≤ maxLiveRecords) "too many sync records"
  validateRecords iroh [] catalog.records

/--
A record matches its stable identity or its label. An explicit endpoint identity never falls back to
a mutable label.
-/
def matchesTarget (target : String) (record : CatalogRecord) : Bool :=
  match iroh.endpointIdFromStr target with
  | some identity => record.endpointIdentity == identity
  | none => record.hostLabel == target

def publisherNotFound : String :=
  "SSH publisher not found; use its host label or stable endpoint ID"

def host (catalog : Catalog) (target : String) (now : DateTime) : Except String HostConnection :=
  let found := catalog.records.filter fun record =>
    !record.isExpiredAt now && matchesTarget iroh target record
  match found with
  | [] => .error publisherNotFound
  | [record] => .ok record.sshAttachment
  | _ => .error "ambiguous publisher label; use its stable endpoint ID"

/--
The loop of `save_refresh` over the candidates of a refresh. It returns the selected records and
what remains of the current ones.
-/
def reconcile (currentGeneration refreshedGeneration : Nat) (candidates : List CatalogRecord)
    (current : TreeMap RecordId CatalogRecord compare)
    : List CatalogRecord × TreeMap RecordId CatalogRecord compare :=
  match candidates with
  | [] => ([], current)
  | candidate :: candidates =>
    -- A newer completed refresh may have removed this record. Do not resurrect it from an older
    -- in-flight index observation.
    if currentGeneration ≠ refreshedGeneration ∧ ¬current.contains candidate.recordId then
      reconcile currentGeneration refreshedGeneration candidates current
    else
      let selected :=
        match current[candidate.recordId]? with
        | some record =>
          if record.serviceRevision > candidate.serviceRevision then record else candidate
        | none => candidate
      let rest := reconcile currentGeneration refreshedGeneration candidates
        (current.erase candidate.recordId)
      (selected :: rest.1, rest.2)

def sortByRecordId (records : List CatalogRecord) : List CatalogRecord :=
  records.insertionSort fun a b => (compare a.recordId b.recordId).isLE = true

/--
`save_refresh` below the lock: what gets written for the catalog `current` that was just read.
-/
def mergeRefresh (account : AccountCredentials) (baseline : List (RecordId × Nat))
    (refreshed current : Catalog) : Except String Catalog := do
  let currentRecords := Keyed.indexBy CatalogRecord.recordId current.records
  let reconciled := reconcile current.generation refreshed.generation refreshed.records
    currentRecords
  let kept := (Keyed.intoValues reconciled.2).filter fun record =>
    !baseline.contains record.revisionKey
  let generation ← Except.okOr (checkedSucc current.generation) "sync catalog generation exhausted"
  let next : Catalog := {
    accountId := account.accountId
    serviceOrigin := account.serviceOrigin
    generation := generation
    records := sortByRecordId (reconciled.1 ++ kept)
  }
  validate iroh next account
  return next

/--
`load`: a catalog that was never written reads as the empty one. What was read is validated.
-/
def load (stored : Option Catalog) (account : AccountCredentials) : Except String Catalog :=
  match stored with
  | none => .ok (empty account)
  | some catalog => do
    validate iroh catalog account
    return catalog

def saveRefresh (stored : Option Catalog) (account : AccountCredentials)
    (baseline : List (RecordId × Nat)) (refreshed : Catalog) : Except String Catalog := do
  validate iroh refreshed account
  let current ← load iroh stored account
  mergeRefresh iroh account baseline refreshed current

end

end Catalog

end Attached
