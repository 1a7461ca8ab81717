import Attached.Library.Keyed
import Attached.Library.Serde
import Attached.Plugin.Basic

/-!
This module contains how the plugin reads the discovery snapshot of the exporter.
-/

open Std

namespace Attached

open Serde

namespace DiscoveryHost

def ofJson (json : Json) : Option DiscoveryHost := do
  let members ← asStruct ["host", "endpoint_id", "ssh_target"] json
  let host ← required "host" members >>= asString >>= Bytes.toString?
  let endpointId ← required "endpoint_id" members >>= asString >>= Bytes.toString?
  let sshTarget ← required "ssh_target" members >>= asString >>= Bytes.toString?
  return { host, endpointId, sshTarget }

def hasLabel (host : DiscoveryHost) : Bool :=
  let bytes := Bytes.ofString host.host
  !bytes.isEmpty && bytes.length ≤ 64 && bytes.head?.any Bytes.isAsciiAlphanumeric
    && bytes.all fun b => Bytes.isAsciiAlphanumeric b || b == 0x2e || b == 0x5f || b == 0x2d

end DiscoveryHost

namespace Discovery

def ofJson (json : Json) : Option Discovery := do
  let members ← asStruct ["version", "generation", "checked_at", "complete", "hosts"] json
  let version ← required "version" members >>= asUnsigned (2 ^ 32)
  let generation ← required "generation" members >>= asString >>= Bytes.toString?
  let checkedAt ← required "checked_at" members >>= asUnsigned (2 ^ 64)
  let complete ← required "complete" members >>= asBool
  let hosts ← required "hosts" members >>= asArray
  let hosts ← hosts.mapM DiscoveryHost.ofJson
  return { version, generation, checkedAt, complete, hosts }

def insertHosts (unique : TreeMap String DiscoveryHost) (hosts : List DiscoveryHost)
    : Except String (TreeMap String DiscoveryHost) :=
  match hosts with
  | [] => .ok unique
  | host :: hosts => do
    Except.ensure (isEndpoint host.endpointId) "invalid Attached endpoint identity"
    Except.ensure host.hasLabel "invalid Attached host label"
    Except.ensure (host.sshTarget == attachedTarget host.endpointId)
      "SSH alias does not match stable identity"
    Except.ensure (unique[host.endpointId]?.all (· == host)) "conflicting Attached identities"
    insertHosts (unique.insert host.endpointId host) hosts

def validateHosts (hosts : List DiscoveryHost) : Except String (List DiscoveryHost) := do
  let unique ← insertHosts ∅ hosts
  return Keyed.intoValues unique

def parse (output : List UInt8) (now : Nat) : Except String Discovery := do
  let discovery ← Except.okOr (Json.parse output >>= ofJson) "invalid Attached JSON discovery"
  Except.ensure (discovery.version == 1) "unsupported exporter discovery version"
  Except.ensure
    (!(Bytes.ofString discovery.generation).isEmpty
      && (Bytes.ofString discovery.generation).length ≤ 64)
    "invalid exporter discovery generation"
  Except.ensure (discovery.checkedAt ≤ now && now - discovery.checkedAt ≤ 90)
    "exporter discovery is stale or from the future"
  let hosts ← validateHosts discovery.hosts
  return { discovery with hosts := hosts }

end Discovery

end Attached
