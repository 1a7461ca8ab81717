import Std.Data.TreeMap
import Std.Data.TreeSet
import Attached.Library.Bytes
import Attached.Library.Except

/-!
This module contains the data that the plugin exchanges: the discovery snapshots it reads, the
machines that are registered, and the state that it persists.
-/

open Std

namespace Attached

structure DiscoveryHost where
  host : String
  endpointId : String
  sshTarget : String
  deriving DecidableEq

structure Discovery where
  version : Nat
  generation : String
  checkedAt : Nat
  complete : Bool
  hosts : List DiscoveryHost
  deriving DecidableEq

structure Machine where
  id : String
  target : String
  deriving DecidableEq

def toAsciiLowercase (text : String) : String :=
  String.ofList (text.toList.map Char.toLower)

def isEndpoint (value : String) : Bool :=
  let bytes := Bytes.ofString value
  bytes.length == 64 && bytes.all fun b => Bytes.isAsciiDigit b || (0x61 ≤ b && b ≤ 0x66)

def attachedTarget (name : String) : String :=
  "attached-" ++ name

/-- The discovery state of the plugin, which its source calls `State`. -/
structure PluginState where
  seen : TreeSet String
  pending : TreeMap String String
  managed : TreeMap String String

def PluginState.default : PluginState where
  seen := ∅
  pending := ∅
  managed := ∅

end Attached
