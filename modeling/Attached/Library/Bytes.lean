import Mathlib

/-!
This module contains the byte level vocabulary of the codecs: the UTF-8 view of strings, the ASCII
character classes on bytes and fixed width big-endian integers.
-/

namespace Bytes

def ofString (s : String) : List UInt8 :=
  s.toByteArray.data.toList

theorem size_toArray {bytes : List UInt8} {n : Nat} (h : bytes.length = n) : bytes.toArray.size = n := by
  simp [h]

def toString? (bs : List UInt8) : Option String :=
  if h : (ByteArray.mk bs.toArray).IsValidUTF8 then
    some ⟨ByteArray.mk bs.toArray, h⟩
  else
    none

@[simp]
theorem ofString_inj {s t : String} : ofString s = ofString t ↔ s = t := by
  constructor
  . intro h
    unfold ofString at h
    apply String.toByteArray_inj.mp
    apply ByteArray.ext
    apply Array.toList_inj.mp h
  . intro h
    rw [h]

theorem ofString_append (s t : String) : ofString (s ++ t) = ofString s ++ ofString t := by
  simp [ofString]

@[simp]
theorem toString?_ofString (s : String) : toString? (ofString s) = some s := by
  have hbytes : ByteArray.mk (ofString s).toArray = s.toByteArray := by
    simp [ofString]
  unfold toString?
  rw [dif_pos (by rw [hbytes]; exact s.isValidUTF8)]
  congr

theorem toString?_eq_some_iff {bs : List UInt8} {s : String}
    : toString? bs = some s ↔ ofString s = bs := by
  constructor
  . intro h
    unfold toString? at h
    split at h
    . injection h with h
      rw [← h]
      simp [ofString]
    . simp at h
  . intro h
    rw [← h]
    simp

theorem forall_byte {P : UInt8 → Prop} (h : ∀ n < 256, P (UInt8.ofNat n)) (b : UInt8) : P b := by
  have := h b.toNat b.toNat_lt
  rw [UInt8.ofNat_toNat] at this
  exact this

def isAsciiDigit (b : UInt8) : Bool :=
  0x30 ≤ b && b ≤ 0x39

def isAsciiLowercase (b : UInt8) : Bool :=
  0x61 ≤ b && b ≤ 0x7a

def isAsciiUppercase (b : UInt8) : Bool :=
  0x41 ≤ b && b ≤ 0x5a

def isAsciiAlphanumeric (b : UInt8) : Bool :=
  isAsciiDigit b || isAsciiLowercase b || isAsciiUppercase b

def isAscii (bs : List UInt8) : Bool :=
  bs.all (· < 0x80)

theorem utf8EncodeChar_ofNat
    : ∀ n < 128, String.utf8EncodeChar (Char.ofNat n) = [UInt8.ofNat n] := by
  decide

theorem isValidUTF8_of_isAscii {bs : List UInt8} (h : isAscii bs = true)
    : bs.toByteArray.IsValidUTF8 := by
  induction bs with
  | nil => exact ByteArray.isValidUTF8_empty
  | cons b bs ih =>
    simp only [isAscii, List.all_cons, Bool.and_eq_true, decide_eq_true_eq] at h
    have hfirst : [b].toByteArray.IsValidUTF8 := by
      have hencode := utf8EncodeChar_ofNat b.toNat h.1
      rw [UInt8.ofNat_toNat] at hencode
      rw [← hencode]
      exact Char.isValidUTF8_toByteArray_utf8EncodeChar
    have happend : (b :: bs).toByteArray = [b].toByteArray ++ bs.toByteArray := by
      rw [← List.toByteArray_append]
      rfl
    rw [happend]
    exact ByteArray.IsValidUTF8.append hfirst (ih h.2)

theorem isSome_toString?_of_isAscii {bs : List UInt8} (h : isAscii bs = true)
    : (toString? bs).isSome = true := by
  have hbytes : bs.toByteArray = ByteArray.mk bs.toArray := by
    apply ByteArray.ext
    apply List.data_toByteArray
  have hvalid := isValidUTF8_of_isAscii h
  rw [hbytes] at hvalid
  unfold toString?
  rw [dif_pos hvalid]
  rfl

def hexDigit (value : Nat) : UInt8 :=
  if value < 10 then UInt8.ofNat (48 + value) else UInt8.ofNat (87 + value)

def hexValue (digit : UInt8) : Option Nat :=
  if 48 ≤ digit.toNat ∧ digit.toNat ≤ 57 then
    some (digit.toNat - 48)
  else if 97 ≤ digit.toNat ∧ digit.toNat ≤ 102 then
    some (digit.toNat - 87)
  else if 65 ≤ digit.toNat ∧ digit.toNat ≤ 70 then
    some (digit.toNat - 55)
  else
    none

def numeral (radix n : Nat) : List UInt8 :=
  if n = 0 then [0x30] else (radix.digits n).reverse.map hexDigit

theorem exists_of_mem_numeral {radix n : Nat} (hradix : 1 < radix) {b : UInt8}
    (h : b ∈ numeral radix n) : ∃ d < radix, b = hexDigit d := by
  unfold numeral at h
  split at h
  . simp only [List.mem_singleton] at h
    exact ⟨0, by omega, h⟩
  . simp only [List.mem_map, List.mem_reverse] at h
    rcases h with ⟨d, hd, rfl⟩
    exact ⟨d, Nat.digits_lt_base hradix hd, rfl⟩

theorem hexValue_hexDigit : ∀ d < 16, hexValue (hexDigit d) = some d := by
  decide

theorem numeral_foldl {digits : List UInt8} (hne : digits ≠ [])
    (hdigits : digits.all isAsciiDigit = true)
    (hzero : ¬(digits.length > 1 ∧ digits.head? = some 0x30))
    : numeral 10 (digits.foldl (fun value digit => value * 10 + (digit.toNat - 48)) 0) = digits := by
  -- The digits of the value are the ones of the text from the last to the first.
  let values := digits.reverse.map fun digit => digit.toNat - 48
  have hvalue : digits.foldl (fun value digit => value * 10 + (digit.toNat - 48)) 0
      = Nat.ofDigits 10 values := by
    have hgen : ∀ l : List UInt8,
        l.reverse.foldl (fun value digit => value * 10 + (digit.toNat - 48)) 0
          = Nat.ofDigits 10 (l.map fun digit => digit.toNat - 48) := by
      intro l
      induction l with
      | nil => rfl
      | cons digit l ih =>
        rw [List.reverse_cons, List.foldl_append, ih, List.map_cons, Nat.ofDigits_cons]
        simp only [List.foldl_cons, List.foldl_nil]
        ring
    rw [← hgen, List.reverse_reverse]
  have hdigit : ∀ digit ∈ digits, 48 ≤ digit.toNat ∧ digit.toNat ≤ 57 := by
    intro digit hmem
    have := List.all_eq_true.mp hdigits digit hmem
    simpa [isAsciiDigit, UInt8.le_iff_toNat_le] using this
  have hlt : ∀ value ∈ values, value < 10 := by
    intro value hmem
    simp only [values, List.mem_map, List.mem_reverse] at hmem
    rcases hmem with ⟨digit, hmem, rfl⟩
    have := hdigit digit hmem
    omega
  have hback : values.reverse.map hexDigit = digits := by
    simp only [values, ← List.map_reverse, List.reverse_reverse, List.map_map]
    calc digits.map (hexDigit ∘ fun digit => digit.toNat - 48)
      _ = digits.map id := by
        apply List.map_congr_left
        intro digit hmem
        have hrange := hdigit digit hmem
        simp only [Function.comp_apply, id, hexDigit]
        rw [if_pos (by omega), ← UInt8.toNat_inj, UInt8.toNat_ofNat']
        omega
      _ = digits := List.map_id digits
  cases digits with
  | nil => exact absurd rfl hne
  | cons first rest =>
    by_cases hfirst : first = 0x30
    . subst hfirst
      have hrest : rest = [] := by
        apply List.length_eq_zero_iff.mp
        simp only [List.length_cons, List.head?_cons, and_true] at hzero
        omega
      subst hrest
      rfl
    . have hhead := hdigit first List.mem_cons_self
      have hleading : first.toNat - 48 ≠ 0 := by
        intro heq
        apply hfirst
        rw [← UInt8.toNat_inj]
        change first.toNat = 48
        omega
      have hlast : ∀ h : values ≠ [], values.getLast h ≠ 0 := by
        intro h
        simpa [values] using hleading
      have hnumber : Nat.digits 10 (Nat.ofDigits 10 values) = values :=
        Nat.digits_ofDigits 10 (by omega) values hlt hlast
      have hpos : Nat.ofDigits 10 values ≠ 0 := by
        intro heq
        rw [heq, Nat.digits_zero] at hnumber
        simp [values] at hnumber
      rw [hvalue, numeral, if_neg hpos, hnumber, hback]

def hex (bs : List UInt8) : List UInt8 :=
  bs.flatMap fun b => [hexDigit (b.toNat / 16), hexDigit (b.toNat % 16)]

def unhex (text : List UInt8) : Option (List UInt8) :=
  match text with
  | [] => some []
  | [_] => none
  | high :: low :: text => do
    let high ← hexValue high
    let low ← hexValue low
    let bs ← unhex text
    return UInt8.ofNat (high * 16 + low) :: bs

@[simp]
theorem length_hex (bs : List UInt8) : (hex bs).length = 2 * bs.length := by
  induction bs with
  | nil => rfl
  | cons b bs ih =>
    simp only [hex, List.flatMap_cons, List.length_append, List.length_cons] at ih ⊢
    simp only [List.length_nil]
    omega

@[simp]
theorem unhex_hex (bs : List UInt8) : unhex (hex bs) = some bs := by
  induction bs with
  | nil => rfl
  | cons b bs ih =>
    have hb := b.toNat_lt
    have hsplit : hex (b :: bs) = hexDigit (b.toNat / 16) :: hexDigit (b.toNat % 16) :: hex bs := by
      rfl
    have hbyte : UInt8.ofNat (b.toNat / 16 * 16 + b.toNat % 16) = b := by
      apply UInt8.toNat_inj.mp
      rw [UInt8.toNat_ofNat']
      omega
    rw [hsplit, unhex, hexValue_hexDigit _ (by omega), hexValue_hexDigit _ (by omega), ih]
    simp only [Option.bind_eq_bind, Option.bind_some, hbyte, Option.pure_def]

theorem exists_of_mem_hex {bs : List UInt8} {b : UInt8} (h : b ∈ hex bs)
    : ∃ d < 16, b = hexDigit d := by
  simp only [hex, List.mem_flatMap] at h
  rcases h with ⟨a, _, h⟩
  have ha := a.toNat_lt
  simp only [List.mem_cons, List.not_mem_nil, or_false] at h
  cases h with
  | inl h => exact ⟨a.toNat / 16, by omega, h⟩
  | inr h => exact ⟨a.toNat % 16, by omega, h⟩

theorem mem_intercalate {separator b : UInt8} {pieces : List (List UInt8)}
    (h : b ∈ [separator].intercalate pieces) : b = separator ∨ ∃ piece ∈ pieces, b ∈ piece := by
  induction pieces with
  | nil => simp [List.intercalate] at h
  | cons first pieces ih =>
    cases pieces with
    | nil =>
      simp only [List.intercalate, List.intersperse_singleton, List.flatten_singleton] at h
      exact Or.inr ⟨first, by simp, h⟩
    | cons second pieces =>
      have hsplit : [separator].intercalate (first :: second :: pieces)
          = first ++ separator :: [separator].intercalate (second :: pieces) := by
        simp [List.intercalate]
      rw [hsplit] at h
      simp only [List.mem_append, List.mem_cons] at h ih ⊢
      grind

theorem mem_splitOn {separator b : UInt8} {text : List UInt8} (h : b ∈ text)
    : b = separator ∨ ∃ piece ∈ text.splitOn separator, b ∈ piece := by
  apply mem_intercalate
  rw [List.intercalate_splitOn]
  exact h

def strip (start text : List UInt8) : Option (List UInt8) :=
  if start.isPrefixOf text then some (text.drop start.length) else none

theorem strip_eq_some_iff {start text rest : List UInt8}
    : strip start text = some rest ↔ text = start ++ rest := by
  unfold strip
  split
  . next h =>
    rw [ List.isPrefixOf_iff_prefix] at h
    rcases h with ⟨suffix, rfl⟩
    simp [eq_comm]
  . next h =>
    constructor
    . simp
    . rintro rfl
      simp [ List.isPrefixOf_iff_prefix] at h

def toBeBytes (width : Nat) (value : Nat) : List UInt8 :=
  match width with
  | 0 => []
  | width + 1 => UInt8.ofNat (value / 256 ^ width) :: toBeBytes width value

def ofBeBytes (bs : List UInt8) : Nat :=
  match bs with
  | [] => 0
  | b :: bs => b.toNat * 256 ^ bs.length + ofBeBytes bs

@[simp]
theorem length_toBeBytes (width value : Nat) : (toBeBytes width value).length = width := by
  induction width with
  | zero => simp [toBeBytes]
  | succ width ih => simp [toBeBytes, ih]

theorem ofBeBytes_lt (bs : List UInt8) : ofBeBytes bs < 256 ^ bs.length := by
  induction bs with
  | nil => simp [ofBeBytes]
  | cons b bs ih =>
    have hb : b.toNat ≤ 255 := Nat.le_of_lt_succ b.toNat_lt
    have hmul : b.toNat * 256 ^ bs.length ≤ 255 * 256 ^ bs.length := Nat.mul_le_mul_right _ hb
    simp only [ofBeBytes, List.length_cons, Nat.pow_succ]
    omega

theorem ofBeBytes_toBeBytes (width value : Nat)
    : ofBeBytes (toBeBytes width value) = value % 256 ^ width := by
  induction width with
  | zero => simp [toBeBytes, ofBeBytes, Nat.mod_one]
  | succ width ih =>
    have hsplit : value % 256 ^ (width + 1)
        = value % 256 ^ width + 256 ^ width * (value / 256 ^ width % 256) := by
      rw [Nat.pow_succ, Nat.mod_mul]
    simp only [toBeBytes, ofBeBytes, length_toBeBytes, UInt8.toNat_ofNat', ih]
    rw [hsplit, Nat.mul_comm, Nat.add_comm]

theorem toBeBytes_ofBeBytes (bs : List UInt8) : toBeBytes bs.length (ofBeBytes bs) = bs := by
  have hgen : ∀ (bs : List UInt8) (high : Nat),
      toBeBytes bs.length (high * 256 ^ bs.length + ofBeBytes bs) = bs := by
    -- The bytes in front of `bs` only contribute multiples of `256 ^ bs.length`.
    intro bs
    induction bs with
    | nil => simp [toBeBytes]
    | cons b bs ih =>
      intro high
      have hlt := ofBeBytes_lt bs
      have hsplit : high * 256 ^ (bs.length + 1) + (b.toNat * 256 ^ bs.length + ofBeBytes bs)
          = (high * 256 + b.toNat) * 256 ^ bs.length + ofBeBytes bs := by
        rw [Nat.pow_succ]
        ring
      have hdiv : ((high * 256 + b.toNat) * 256 ^ bs.length + ofBeBytes bs) / 256 ^ bs.length
          = high * 256 + b.toNat := by
        rw [Nat.mul_comm, Nat.mul_add_div (Nat.pow_pos (by omega)), Nat.div_eq_of_lt hlt]
        simp
      have hbyte : UInt8.ofNat (high * 256 + b.toNat) = b := by
        apply UInt8.toNat_inj.mp
        have := b.toNat_lt
        simp only [UInt8.toNat_ofNat']
        omega
      simp only [List.length_cons, toBeBytes, ofBeBytes]
      rw [hsplit, hdiv, hbyte, ih]
  have := hgen bs 0
  simpa using this

end Bytes
