import Attached.Library.Bytes

/-!
This module contains IP addresses with their textual form: the grammar of `std::net` and its
canonical spelling.
-/

namespace IpAddr

structure V4 where
  octets : Vector UInt8 4
  deriving DecidableEq

structure V6 where
  segments : Vector UInt16 8
  deriving DecidableEq

def V4.localhost : V4 := ⟨#v[127, 0, 0, 1]⟩

def V4.isUnspecified (ip : V4) : Bool :=
  ip == ⟨#v[0, 0, 0, 0]⟩

def V6.localhost : V6 := ⟨#v[0, 0, 0, 0, 0, 0, 0, 1]⟩

def V6.isUnspecified (ip : V6) : Bool :=
  ip == ⟨#v[0, 0, 0, 0, 0, 0, 0, 0]⟩

def V6.toIpv4Mapped (ip : V6) : Option V4 :=
  match ip.segments.toList with
  | [0, 0, 0, 0, 0, 0xffff, ab, cd] =>
    some ⟨#v[(ab >>> 8).toUInt8, ab.toUInt8, (cd >>> 8).toUInt8, cd.toUInt8]⟩
  | _ => none

def digitValue (radix : Nat) (b : UInt8) : Option Nat :=
  (Bytes.hexValue b).filter (· < radix)

def readNumber (radix maxDigits bound : Nat) (allowZeroPrefix : Bool) (input : List UInt8)
    : Option (Nat × List UInt8) :=
  let digits := input.takeWhile fun b => (digitValue radix b).isSome
  let value := digits.foldl (fun value b => value * radix + (digitValue radix b).getD 0) 0
  if digits.isEmpty || digits.length > maxDigits || value ≥ bound
      || !allowZeroPrefix && digits.head? == some 0x30 && digits.length > 1 then
    none
  else
    some (value, input.drop digits.length)

def readSeparator (separator : UInt8) (index : Nat) (inner : List UInt8 → Option (α × List UInt8))
    (input : List UInt8) : Option (α × List UInt8) :=
  if index = 0 then inner input else Bytes.strip [separator] input >>= inner

def readOctet (index : Nat) (input : List UInt8) : Option (Nat × List UInt8) :=
  readSeparator 0x2e index (readNumber 10 3 256 false) input

def readV4 (input : List UInt8) : Option (V4 × List UInt8) := do
  let (a, input) ← readOctet 0 input
  let (b, input) ← readOctet 1 input
  let (c, input) ← readOctet 2 input
  let (d, input) ← readOctet 3 input
  return (⟨#v[UInt8.ofNat a, UInt8.ofNat b, UInt8.ofNat c, UInt8.ofNat d]⟩, input)

def V4.groups (ip : V4) : List UInt16 :=
  [UInt16.ofNat (ip.octets[0].toNat * 256 + ip.octets[1].toNat),
    UInt16.ofNat (ip.octets[2].toNat * 256 + ip.octets[3].toNat)]

def readGroups (index limit : Nat) (input : List UInt8) : List UInt16 × Bool × List UInt8 :=
  match limit with
  | 0 => ([], false, input)
  | limit + 1 =>
    match if 0 < limit then readSeparator 0x3a index readV4 input else none with
    | some (v4, rest) => (v4.groups, true, rest)
    | none =>
      match readSeparator 0x3a index (readNumber 16 4 65536 true) input with
      | some (group, rest) =>
        let (groups, embedded, rest) := readGroups (index + 1) limit rest
        (UInt16.ofNat group :: groups, embedded, rest)
      | none => ([], false, input)

def V6.ofGroups (groups : List UInt16) : V6 :=
  ⟨Vector.ofFn fun i => groups.getD i 0⟩

def readV6 (input : List UInt8) : Option (V6 × List UInt8) := do
  let (head, embedded, input) := readGroups 0 8 input
  if head.length = 8 then
    return (V6.ofGroups head, input)
  else if embedded then
    none
  else
    let input ← Bytes.strip [0x3a, 0x3a] input
    let (tail, _, input) := readGroups 0 (7 - head.length) input
    return (V6.ofGroups (head ++ List.replicate (8 - head.length - tail.length) 0 ++ tail), input)

def V4.fromStr (text : List UInt8) : Option V4 := do
  if text.length > 15 then
    none
  else
    let (ip, rest) ← readV4 text
    if rest.isEmpty then return ip else none

def V6.fromStr (text : List UInt8) : Option V6 := do
  let (ip, rest) ← readV6 text
  if rest.isEmpty then return ip else none

def V4.toText (ip : V4) : List UInt8 :=
  [0x2e].intercalate (ip.octets.toList.map fun octet => Bytes.numeral 10 octet.toNat)

structure Span where
  start : Nat
  len : Nat

def zeroes.go (index : Nat) (longest current : Span) (segments : List UInt16) : Span :=
  match segments with
  | [] => longest
  | segment :: segments =>
    if segment = 0 then
      let current := ⟨if current.len = 0 then index else current.start, current.len + 1⟩
      go (index + 1) (if current.len > longest.len then current else longest) current segments
    else
      go (index + 1) longest ⟨0, 0⟩ segments

def zeroes (segments : List UInt16) : Span :=
  zeroes.go 0 ⟨0, 0⟩ ⟨0, 0⟩ segments

def fmtSubslice (chunk : List UInt16) : List UInt8 :=
  [0x3a].intercalate (chunk.map fun segment => Bytes.numeral 16 segment.toNat)

def V6.toText (ip : V6) : List UInt8 :=
  match ip.toIpv4Mapped with
  | some ipv4 => Bytes.ofString "::ffff:" ++ ipv4.toText
  | none =>
    let segments := ip.segments.toList
    let zeroes := zeroes segments
    if zeroes.len > 1 then
      fmtSubslice (segments.take zeroes.start)
        ++ [0x3a, 0x3a]
        ++ fmtSubslice (segments.drop (zeroes.start + zeroes.len))
    else
      fmtSubslice segments

theorem V4.mem_toText {ip : V4} {b : UInt8} (h : b ∈ ip.toText)
    : b = 0x2e ∨ ∃ d < 16, b = Bytes.hexDigit d := by
  cases Bytes.mem_intercalate h with
  | inl hdot => exact Or.inl hdot
  | inr hpiece =>
    simp only [List.mem_map] at hpiece
    rcases hpiece with ⟨_, ⟨octet, _, rfl⟩, hb⟩
    rcases Bytes.exists_of_mem_numeral (by omega) hb with ⟨d, hd, rfl⟩
    exact Or.inr ⟨d, by omega, rfl⟩

theorem mem_fmtSubslice {chunk : List UInt16} {b : UInt8} (h : b ∈ fmtSubslice chunk)
    : b = 0x3a ∨ ∃ d < 16, b = Bytes.hexDigit d := by
  cases Bytes.mem_intercalate h with
  | inl hcolon => exact Or.inl hcolon
  | inr hpiece =>
    simp only [List.mem_map] at hpiece
    rcases hpiece with ⟨_, ⟨segment, _, rfl⟩, hb⟩
    exact Or.inr (Bytes.exists_of_mem_numeral (by omega) hb)

theorem V6.mem_toText {ip : V6} {b : UInt8} (h : b ∈ ip.toText)
    : b = 0x3a ∨ b = 0x2e ∨ ∃ d < 16, b = Bytes.hexDigit d := by
  unfold V6.toText at h
  split at h
  . next ipv4 _ =>
    rw [List.mem_append] at h
    cases h with
    | inl h =>
      have hmapped : ∀ b ∈ Bytes.ofString "::ffff:", b = 0x3a ∨ b = Bytes.hexDigit 15 := by
        decide +kernel
      cases hmapped b h with
      | inl h => exact Or.inl h
      | inr h => exact Or.inr (Or.inr ⟨15, by omega, h⟩)
    | inr h => exact Or.inr (V4.mem_toText h)
  . have hslice : ∀ chunk, b ∈ fmtSubslice chunk →
        b = 0x3a ∨ b = 0x2e ∨ ∃ d < 16, b = Bytes.hexDigit d := by
      intro chunk hb
      cases mem_fmtSubslice hb with
      | inl h => exact Or.inl h
      | inr h => exact Or.inr (Or.inr h)
    dsimp only at h
    split at h
    . simp only [List.mem_append, List.mem_cons, List.not_mem_nil, or_false, or_self] at h
      rcases h with (h | h) | h
      . exact hslice _ h
      . exact Or.inl h
      . exact hslice _ h
    . exact hslice _ h

end IpAddr
