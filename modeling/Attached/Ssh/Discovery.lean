import Attached.Library.Serde
import Attached.Plugin.Basic
import Attached.Sync.Listing

/-!
This module contains the discovery snapshot that the exporter writes for the plugin.
-/

namespace Attached

open Serde

/-- What `duration_since(UNIX_EPOCH)` returns, its seconds are a `u64`. -/
structure UnixTime where
  nanos : Nat
  bounded : nanos / 1000000000 ≤ u64Max

def UnixTime.seconds (time : UnixTime) : Nat :=
  time.nanos / 1000000000

def AttachedVersion.text (version : AttachedVersion) : List UInt8 :=
  Bytes.numeral 10 version.major.toNat ++ [0x2e] ++ Bytes.numeral 10 version.minor.toNat ++ [0x2e]
    ++ Bytes.numeral 10 version.patch.toNat

section

-- How `chrono` writes a point in time.
variable (rfc3339 : DateTime → List UInt8)

def publishedAtJson (publishedAt : Option DateTime) : Json :=
  match publishedAt with
  | some publishedAt => .string (rfc3339 publishedAt) false
  | none => .null

def SyncedHost.toJson (host : SyncedHost) : Json :=
  .object [
    textMember "host" (Bytes.ofString host.host),
    textMember "endpoint_id" (Bytes.ofString host.target),
    textMember "ssh_target" (Bytes.ofString (attachedTarget host.target)),
    textMember "attached_version" host.attachedVersion.text,
    (Bytes.ofString "published_at", publishedAtJson rfc3339 host.publishedAt)
  ]

def renderJson (hosts : List SyncedHost) : List UInt8 :=
  (Json.array (hosts.map (SyncedHost.toJson rfc3339))).print ++ [0x0a]

namespace ManagedConfig

/-- The contents of `discovery.json`. The rows are read back and become a part of the report. -/
def publishDiscovery (now : UnixTime) (hosts : List SyncedHost) (complete : Bool)
    : Except String (List UInt8) := do
  let hosts ← Except.okOr (Json.parse (renderJson rfc3339 hosts)) "invalid JSON"
  let report := Json.object [
    numberMember "version" 1,
    textMember "generation" (Bytes.numeral 10 now.nanos),
    numberMember "checked_at" now.seconds,
    (Bytes.ofString "complete", .bool complete),
    (Bytes.ofString "hosts", hosts)
  ]
  return report.toValue.print

end ManagedConfig

end

end Attached
