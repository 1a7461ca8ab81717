import Attached.Library.Panic
import Attached.Sync.Catalog

/-!
This module contains the listings of the hosts of a catalog that allow SSH: all of them, and those
that are not served on this machine.
-/

namespace Attached

structure SyncedHost where
  target : String
  host : String
  attachedVersion : AttachedVersion
  publishedAt : Option DateTime
  deriving DecidableEq

structure HostListing where
  hosts : List SyncedHost
  registryUnavailable : Bool
  deriving DecidableEq

/-- `EndpointId::from_bytes` followed by `to_string`. -/
abbrev EndpointIdText := Vector UInt8 32 → Option String

def EndpointIdText.Prints (idText : EndpointIdText) (identity : Vector UInt8 32) : Prop :=
  ∃ text, idText identity = some text ∧ Bytes.ofString text = Bytes.hex identity.toList

namespace CatalogRecord

variable (idText : EndpointIdText)

def syncedHost (record : CatalogRecord) : Except Failure SyncedHost := do
  let target ← Except.okOr (idText record.endpointIdentity) .panic
  return {
    target := target
    host := record.hostLabel
    attachedVersion := record.attachedVersion
    publishedAt := record.publishedAt
  }

def isListed (now : DateTime) (suppress : CatalogRecord → Bool) (record : CatalogRecord) : Bool :=
  record.sshEnabled && now < record.expiresAt && !suppress record

end CatalogRecord

def SyncedHost.le (a b : SyncedHost) : Bool :=
  ((compare a.host b.host).then (compare a.target b.target)).isLE

namespace Catalog

variable (idText : EndpointIdText)

def hostsWithFilter (catalog : Catalog) (now : DateTime) (suppress : CatalogRecord → Bool)
    : Except Failure (List SyncedHost) := do
  let hosts ← (catalog.records.filter (CatalogRecord.isListed now suppress)).mapM
    (CatalogRecord.syncedHost idText)
  return hosts.insertionSort fun a b => SyncedHost.le a b = true

/--
SSH configuration exports include local publishers too.
-/
def allSshHosts (catalog : Catalog) (now : DateTime) : Except Failure (List SyncedHost) :=
  catalog.hostsWithFilter idText now fun _ => false

/--
The listing for people and for the plugin. `isActive` is what the probe of the registry answers for a
record, `none` if the registry cannot tell.
-/
def hostsExcludingLocalEndpoints (catalog : Catalog) (now : DateTime)
    (isActive : CatalogRecord → Option Bool) : Except Failure HostListing := do
  let hosts ← catalog.hostsWithFilter idText now fun record => (isActive record).getD false
  return {
    hosts := hosts
    registryUnavailable := (catalog.records.filter (CatalogRecord.isListed now fun _ => false)).any
      fun record => (isActive record).isNone
  }

end Catalog

section

variable {idText : EndpointIdText} {catalog : Catalog} {now : DateTime}
  {suppress : CatalogRecord → Bool} {hosts : List SyncedHost} {host : SyncedHost}

theorem EndpointIdText.Prints.inj {e e' : Vector UInt8 32} {text : String} (h : idText.Prints e)
    (h' : idText.Prints e') (htext : idText e = some text) (htext' : idText e' = some text) : e = e' := by
  rcases h with ⟨_, hsome, hhex⟩
  rcases h' with ⟨_, hsome', hhex'⟩
  rw [htext, Option.some.injEq] at hsome
  rw [htext', Option.some.injEq] at hsome'
  subst hsome hsome'
  have hunhex := congrArg Bytes.unhex (hhex.symm.trans hhex')
  rw [Bytes.unhex_hex, Bytes.unhex_hex, Option.some.injEq] at hunhex
  exact Vector.toList_inj.mp hunhex

theorem CatalogRecord.syncedHost_eq_ok_iff {record : CatalogRecord}
    : record.syncedHost idText = .ok host
        ↔
      ∃ target, idText record.endpointIdentity = some target
        ∧ host = {
          target := target
          host := record.hostLabel
          attachedVersion := record.attachedVersion
          publishedAt := record.publishedAt
        } := by
  simp only [syncedHost, Except.bind_eq_ok_iff, Except.okOr_eq_ok_iff, Except.pure_eq_ok_iff]
  simp only [eq_comm]

theorem SyncedHost.le_eq (a b : SyncedHost)
    : a.le b = (compareLex (compareOn SyncedHost.host) (compareOn SyncedHost.target) a b).isLE := rfl

@[simp]
theorem SyncedHost.le_refl (host : SyncedHost) : host.le host = true := by
  simp [SyncedHost.le]

theorem SyncedHost.host_eq_of_le {a b : SyncedHost} (hab : a.le b = true) (hba : b.le a = true)
    : a.host = b.host := by
  unfold SyncedHost.le at hab hba
  rw [Std.OrientedOrd.eq_swap (a := b.host)] at hba
  cases hcompare : compare a.host b.host with
  | lt => simp [hcompare] at hba
  | eq => exact Std.LawfulEqOrd.eq_of_compare hcompare
  | gt => simp [hcompare] at hab

theorem Catalog.sorted_hostsWithFilter
    (h : catalog.hostsWithFilter idText now suppress = .ok hosts)
    : hosts.Pairwise fun a b => a.le b = true := by
  have htotal : Std.Total fun a b : SyncedHost => a.le b = true := by
    constructor
    intro a b
    have hswap : compareLex (compareOn SyncedHost.host) (compareOn SyncedHost.target) b a
        = (compareLex (compareOn SyncedHost.host) (compareOn SyncedHost.target) a b).swap :=
      Std.OrientedCmp.eq_swap
    rw [SyncedHost.le_eq, SyncedHost.le_eq, hswap]
    cases compareLex (compareOn SyncedHost.host) (compareOn SyncedHost.target) a b <;> simp
  have htrans : IsTrans SyncedHost fun a b => a.le b = true := by
    constructor
    intro a b c hab hbc
    rw [SyncedHost.le_eq] at hab hbc ⊢
    exact Std.TransCmp.isLE_trans hab hbc
  simp only [hostsWithFilter, Except.bind_eq_ok_iff, Except.pure_eq_ok_iff] at h
  rcases h with ⟨unsorted, _, rfl⟩
  apply List.pairwise_insertionSort

theorem Catalog.mem_of_hostsWithFilter (h : catalog.hostsWithFilter idText now suppress = .ok hosts)
    : host ∈ hosts
        ↔
      ∃ record ∈ catalog.records, record.isListed now suppress = true
        ∧ record.syncedHost idText = .ok host := by
  simp only [hostsWithFilter, Except.bind_eq_ok_iff, Except.pure_eq_ok_iff] at h
  rcases h with ⟨unsorted, hunsorted, rfl⟩
  rw [List.mem_insertionSort, Except.mem_of_mapM_eq_ok hunsorted]
  simp only [List.mem_filter, and_assoc]

end

end Attached
