import Attached.Library.Bytes

/-!
This module contains the vocabulary shared by the synchronization client, the service and the
plugin: the limits of the protocol, identifiers, points in time and versions.
-/

namespace Attached

def identifierTextLen : Nat := 22
def secretTextLen : Nat := 43
def maxHostLabelBytes : Nat := 64
def maxEndpointTicketBytes : Nat := 4096
def maxHostAccessDescriptorBytes : Nat := 65536
def maxCiphertextBytes : Nat := 65792
def maxCiphertextTextLen : Nat := (maxCiphertextBytes * 4 + 2) / 3
def maxApiBodyBytes : Nat := 98304
def maxBundleBytes : Nat := 768
def maxBundleEncodedBytes : Nat := (maxBundleBytes * 4 + 2) / 3
def maxLiveRecords : Nat := 128

/--
The largest value of `u64`. Machine integers are natural numbers here, wherever the source computes
with one the overflow is an explicit branch.
-/
def u64Max : Nat := 2 ^ 64 - 1

def i64Max : Nat := 2 ^ 63 - 1

def checkedSucc (n : Nat) : Option Nat :=
  if n < u64Max then some (n + 1) else none

theorem checkedSucc_eq_some {n m : Nat} : checkedSucc n = some m ↔ n < u64Max ∧ m = n + 1 := by
  unfold checkedSucc
  split
  . next h => simp [h, eq_comm]
  . next h => simp [h]

def validateHostLabel (value : String) : Bool :=
  match Bytes.ofString value with
  | [] => false
  | first :: rest =>
    (first :: rest).length ≤ maxHostLabelBytes
      && Bytes.isAsciiAlphanumeric first
      && (first :: rest).all fun byte =>
          Bytes.isAsciiAlphanumeric byte || byte == 0x2e || byte == 0x5f || byte == 0x2d

structure RecordId where
  bytes : Vector UInt8 16
  deriving DecidableEq

/-- The derived order of the source: bytewise, most significant byte first. -/
instance : Ord RecordId where
  compare a b := compare a.bytes b.bytes

theorem RecordId.compare_def (a b : RecordId) : compare a b = compare a.bytes b.bytes := rfl

instance : Std.TransOrd RecordId where
  eq_swap := by
    intro a b
    exact Std.OrientedOrd.eq_swap (α := Vector UInt8 16)
  isLE_trans := by
    intro a b c
    exact Std.TransOrd.isLE_trans (α := Vector UInt8 16)

instance : Std.LawfulEqOrd RecordId where
  eq_of_compare := by
    intro a b h
    rw [RecordId.compare_def] at h
    have := Std.LawfulEqOrd.eq_of_compare h
    rcases a with ⟨a⟩
    rcases b with ⟨b⟩
    congr

structure AccountId where
  bytes : Vector UInt8 16
  deriving DecidableEq

/--
`AccountId::is_uuid_v7`: version 7 in the high nibble of octet 6 and the RFC 4122 variant in the two
high bits of octet 8.
-/
def AccountId.isUuidV7 (id : AccountId) : Bool :=
  id.bytes[6] >>> 4 == 7 && id.bytes[8] &&& 0xc0 == 0x80

structure AttachedVersion where
  major : UInt16
  minor : UInt16
  patch : UInt16
  deriving DecidableEq

/-- The version of the executable, an `AttachedVersion` of the tunnel protocol. -/
structure ExecutableVersion where
  major : UInt32
  minor : UInt32
  patch : UInt32
  deriving DecidableEq

inductive ApiKeyScope where
  | publish
  | download
  deriving DecidableEq

namespace DateTime

def nanosPerSecond : Int := 1000000000

/-- `-262143-01-01T00:00:00Z`, the first second `chrono` represents. -/
def minTimestamp : Int := -8334601228800

/-- `+262142-12-31T23:59:59Z`, the last second `chrono` represents. -/
def maxTimestamp : Int := 8210266876799

end DateTime

/--
A `DateTime<Utc>`, as nanoseconds since the Unix epoch within the range that `chrono` represents.
-/
structure DateTime where
  nanos : Int
  lower : DateTime.minTimestamp * DateTime.nanosPerSecond ≤ nanos
  upper : nanos < (DateTime.maxTimestamp + 1) * DateTime.nanosPerSecond
  deriving DecidableEq

namespace DateTime

instance : LE DateTime where
  le a b := a.nanos ≤ b.nanos

instance : LT DateTime where
  lt a b := a.nanos < b.nanos

instance (a b : DateTime) : Decidable (a ≤ b) := inferInstanceAs (Decidable (a.nanos ≤ b.nanos))

instance (a b : DateTime) : Decidable (a < b) := inferInstanceAs (Decidable (a.nanos < b.nanos))

theorem le_def {a b : DateTime} : a ≤ b ↔ a.nanos ≤ b.nanos := Iff.rfl

theorem lt_def {a b : DateTime} : a < b ↔ a.nanos < b.nanos := Iff.rfl

def timestamp (t : DateTime) : Int :=
  t.nanos / nanosPerSecond

def timestampSubsecNanos (t : DateTime) : Int :=
  t.nanos % nanosPerSecond

def ofNanos? (nanos : Int) : Option DateTime :=
  if h : minTimestamp * nanosPerSecond ≤ nanos ∧ nanos < (maxTimestamp + 1) * nanosPerSecond then
    some ⟨nanos, h.1, h.2⟩
  else
    none

def fromTimestamp (seconds : Int) : Option DateTime :=
  ofNanos? (seconds * nanosPerSecond)

def checkedAddSeconds (t : DateTime) (seconds : Nat) : Option DateTime :=
  ofNanos? (t.nanos + seconds * nanosPerSecond)

theorem ofNanos?_eq_some {nanos : Int} {t : DateTime} (h : ofNanos? nanos = some t)
    : t.nanos = nanos := by
  unfold ofNanos? at h
  split at h
  . injection h with h
    rw [← h]
  . simp at h

theorem ofNanos?_nanos (t : DateTime) : ofNanos? t.nanos = some t := by
  unfold ofNanos?
  rw [dif_pos ⟨t.lower, t.upper⟩]

end DateTime

/--
The parts of `iroh` and `iroh_tickets` that descriptors and the catalog rely on. They live in other crates, so all
results hold for whatever they compute.
-/
structure Iroh (Ticket : Type) where
  ticketFromStr : String → Option Ticket
  ticketToString : Ticket → String
  ticketIdentity : Ticket → Vector UInt8 32
  endpointIdFromStr : String → Option (Vector UInt8 32)

/-! The endpoint ticket that the tests of the source use, it stands for the account's only machine. -/
namespace Fixture

def ticket : String :=
  "endpointacxfr74igmsbvsbnn73wcecg5vt3kbzncqwfrdiampuufwnhkublmaqacbuhi5dqhixs6zdfojyc43lffyxqcad7aaaadaai"

def identity : Vector UInt8 32 :=
  #v[174, 88, 255, 136, 51, 36, 26, 200, 45, 111, 247, 97, 16, 70, 237, 103, 181, 7, 45, 20, 44, 88,
    141, 0, 99, 233, 66, 217, 167, 85, 2, 182]

def iroh : Iroh Unit where
  ticketFromStr text := if text = ticket then some () else none
  ticketToString _ := ticket
  ticketIdentity _ := identity
  endpointIdFromStr _ := none

instance neZeroSeconds : NeZero 1000 :=
  ⟨by decide⟩

def time (seconds : Fin 1000) : DateTime where
  nanos := (1700000000 + seconds) * DateTime.nanosPerSecond
  lower := by
    simp only [DateTime.minTimestamp, DateTime.nanosPerSecond]
    omega
  upper := by
    simp only [DateTime.maxTimestamp, DateTime.nanosPerSecond]
    omega

end Fixture

end Attached
