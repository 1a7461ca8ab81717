import Mathlib

/-!
This module contains unpadded base64url. Decoding is strict: no padding, nothing outside of the
alphabet, and the bits of the last symbol that belong to no byte are zero. Hence a text decodes if
and only if it is the encoding of the result.
-/

namespace Base64

def symbol (value : Nat) : UInt8 :=
  if value < 26 then
    UInt8.ofNat (65 + value)
  else if value < 52 then
    UInt8.ofNat (97 + (value - 26))
  else if value < 62 then
    UInt8.ofNat (48 + (value - 52))
  else if value = 62 then
    45
  else
    95

def value (symbol : UInt8) : Option Nat :=
  if 65 ≤ symbol.toNat ∧ symbol.toNat ≤ 90 then
    some (symbol.toNat - 65)
  else if 97 ≤ symbol.toNat ∧ symbol.toNat ≤ 122 then
    some (symbol.toNat - 97 + 26)
  else if 48 ≤ symbol.toNat ∧ symbol.toNat ≤ 57 then
    some (symbol.toNat - 48 + 52)
  else if symbol = 45 then
    some 62
  else if symbol = 95 then
    some 63
  else
    none

def encode (bs : List UInt8) : List UInt8 :=
  match bs with
  | [] => []
  | [a] => [symbol (a.toNat / 4), symbol (a.toNat % 4 * 16)]
  | [a, b] =>
    [symbol (a.toNat / 4), symbol (a.toNat % 4 * 16 + b.toNat / 16), symbol (b.toNat % 16 * 4)]
  | a :: b :: c :: bs =>
    symbol (a.toNat / 4)
      :: symbol (a.toNat % 4 * 16 + b.toNat / 16)
      :: symbol (b.toNat % 16 * 4 + c.toNat / 64)
      :: symbol (c.toNat % 64)
      :: encode bs

def decode (text : List UInt8) : Option (List UInt8) :=
  match text with
  | [] => some []
  | [_] => none
  | [s, t] => do
    let s ← value s
    let t ← value t
    if t % 16 = 0 then
      return [UInt8.ofNat (s * 4 + t / 16)]
    else
      none
  | [s, t, u] => do
    let s ← value s
    let t ← value t
    let u ← value u
    if u % 4 = 0 then
      return [UInt8.ofNat (s * 4 + t / 16), UInt8.ofNat (t % 16 * 16 + u / 4)]
    else
      none
  | s :: t :: u :: v :: text => do
    let s ← value s
    let t ← value t
    let u ← value u
    let v ← value v
    let bs ← decode text
    return UInt8.ofNat (s * 4 + t / 16)
      :: UInt8.ofNat (t % 16 * 16 + u / 4)
      :: UInt8.ofNat (u % 4 * 64 + v)
      :: bs

theorem ofNat_eq_iff {n : Nat} {b : UInt8} (h : n < 256) : UInt8.ofNat n = b ↔ n = b.toNat := by
  rw [← UInt8.toNat_inj, UInt8.toNat_ofNat', Nat.mod_eq_of_lt h]

theorem value_symbol : ∀ v < 64, value (symbol v) = some v := by
  decide

theorem symbol_value {s : UInt8} {v : Nat} (h : value s = some v) : v < 64 ∧ symbol v = s := by
  unfold value at h
  unfold symbol
  split at h
  . next hrange =>
    injection h with h
    rw [if_pos (by omega), ofNat_eq_iff (by omega)]
    omega
  . split at h
    . next hrange =>
      injection h with h
      rw [if_neg (by omega), if_pos (by omega), ofNat_eq_iff (by omega)]
      omega
    . split at h
      . next hrange =>
        injection h with h
        rw [if_neg (by omega), if_neg (by omega), if_pos (by omega), ofNat_eq_iff (by omega)]
        omega
      . split at h
        . next hs =>
          injection h with h
          subst h
          exact ⟨by omega, hs.symm⟩
        . split at h
          . next hs =>
            injection h with h
            subst h
            exact ⟨by omega, hs.symm⟩
          . simp at h

theorem value_eq_some_iff {s : UInt8} {v : Nat} : value s = some v ↔ v < 64 ∧ symbol v = s := by
  constructor
  . apply symbol_value
  . rintro ⟨hlt, rfl⟩
    apply value_symbol v hlt

theorem decode_encode (bs : List UInt8) : decode (encode bs) = some bs := by
  induction bs using encode.induct with
  | case1 => rfl
  | case2 a =>
    have ha := a.toNat_lt
    simp only [encode, decode]
    rw [value_symbol _ (by omega), value_symbol _ (by omega)]
    have hguard : a.toNat % 4 * 16 % 16 = 0 := by omega
    have hbyte : UInt8.ofNat (a.toNat / 4 * 4 + a.toNat % 4 * 16 / 16) = a := by
      rw [ofNat_eq_iff (by omega)]
      omega
    simp only [Option.bind_eq_bind, Option.bind_some, hguard, if_true, hbyte, Option.pure_def]
  | case3 a b =>
    have ha := a.toNat_lt
    have hb := b.toNat_lt
    simp only [encode, decode]
    rw [value_symbol _ (by omega), value_symbol _ (by omega), value_symbol _ (by omega)]
    have hguard : b.toNat % 16 * 4 % 4 = 0 := by omega
    have hfirst : UInt8.ofNat (a.toNat / 4 * 4 + (a.toNat % 4 * 16 + b.toNat / 16) / 16) = a := by
      rw [ofNat_eq_iff (by omega)]
      omega
    have hsecond : UInt8.ofNat ((a.toNat % 4 * 16 + b.toNat / 16) % 16 * 16
        + b.toNat % 16 * 4 / 4) = b := by
      rw [ofNat_eq_iff (by omega)]
      omega
    simp only [Option.bind_eq_bind, Option.bind_some, hguard, if_true, hfirst, hsecond,
      Option.pure_def]
  | case4 a b c bs ih =>
    have ha := a.toNat_lt
    have hb := b.toNat_lt
    have hc := c.toNat_lt
    simp only [encode, decode]
    rw [value_symbol _ (by omega), value_symbol _ (by omega), value_symbol _ (by omega),
      value_symbol _ (by omega), ih]
    have hfirst : UInt8.ofNat (a.toNat / 4 * 4 + (a.toNat % 4 * 16 + b.toNat / 16) / 16) = a := by
      rw [ofNat_eq_iff (by omega)]
      omega
    have hsecond : UInt8.ofNat ((a.toNat % 4 * 16 + b.toNat / 16) % 16 * 16
        + (b.toNat % 16 * 4 + c.toNat / 64) / 4) = b := by
      rw [ofNat_eq_iff (by omega)]
      omega
    have hthird : UInt8.ofNat ((b.toNat % 16 * 4 + c.toNat / 64) % 4 * 64 + c.toNat % 64) = c := by
      rw [ofNat_eq_iff (by omega)]
      omega
    simp only [Option.bind_eq_bind, Option.bind_some, hfirst, hsecond, hthird, Option.pure_def]

theorem encode_of_decode {text bs : List UInt8} (h : decode text = some bs) : encode bs = text := by
  induction text using decode.induct generalizing bs with
  | case1 =>
    simp [decode] at h
    subst h
    rfl
  | case2 => simp [decode] at h
  | case3 s t =>
    simp only [decode, Option.bind_eq_bind, Option.bind_eq_some_iff, Option.pure_def,
      Option.ite_none_right_eq_some, Option.some.injEq, value_eq_some_iff] at h
    rcases h with ⟨v, ⟨hv, rfl⟩, w, ⟨hw, rfl⟩, hguard, rfl⟩
    have hfirst : (UInt8.ofNat (v * 4 + w / 16)).toNat = v * 4 + w / 16 := by
      rw [UInt8.toNat_ofNat']
      omega
    simp only [encode, hfirst, List.cons.injEq, and_true]
    constructor
    . congr 1
      omega
    . congr 1
      omega
  | case4 s t u =>
    simp only [decode, Option.bind_eq_bind, Option.bind_eq_some_iff, Option.pure_def,
      Option.ite_none_right_eq_some, Option.some.injEq, value_eq_some_iff] at h
    rcases h with ⟨v, ⟨hv, rfl⟩, w, ⟨hw, rfl⟩, x, ⟨hx, rfl⟩, hguard, rfl⟩
    have hfirst : (UInt8.ofNat (v * 4 + w / 16)).toNat = v * 4 + w / 16 := by
      rw [UInt8.toNat_ofNat']
      omega
    have hsecond : (UInt8.ofNat (w % 16 * 16 + x / 4)).toNat = w % 16 * 16 + x / 4 := by
      rw [UInt8.toNat_ofNat']
      omega
    simp only [encode, hfirst, hsecond, List.cons.injEq, and_true]
    refine ⟨?_, ?_, ?_⟩
    . congr 1
      omega
    . congr 1
      omega
    . congr 1
      omega
  | case5 s t u v text ih =>
    simp only [decode, Option.bind_eq_bind, Option.bind_eq_some_iff, Option.pure_def,
      Option.some.injEq, value_eq_some_iff] at h
    rcases h with
      ⟨v, ⟨hv, rfl⟩, w, ⟨hw, rfl⟩, x, ⟨hx, rfl⟩, y, ⟨hy, rfl⟩, rest, hrest, rfl⟩
    have hfirst : (UInt8.ofNat (v * 4 + w / 16)).toNat = v * 4 + w / 16 := by
      rw [UInt8.toNat_ofNat']
      omega
    have hsecond : (UInt8.ofNat (w % 16 * 16 + x / 4)).toNat = w % 16 * 16 + x / 4 := by
      rw [UInt8.toNat_ofNat']
      omega
    have hthird : (UInt8.ofNat (x % 4 * 64 + y)).toNat = x % 4 * 64 + y := by
      rw [UInt8.toNat_ofNat']
      omega
    simp only [encode, hfirst, hsecond, hthird, List.cons.injEq, ih hrest, and_true]
    refine ⟨?_, ?_, ?_, ?_⟩
    . congr 1
      omega
    . congr 1
      omega
    . congr 1
      omega
    . congr 1
      omega

theorem decode_eq_some_iff {text bs : List UInt8} : decode text = some bs ↔ text = encode bs := by
  constructor
  . intro h
    rw [encode_of_decode h]
  . rintro rfl
    apply decode_encode

theorem encode_injective {as bs : List UInt8} (h : encode as = encode bs) : as = bs := by
  have := decode_encode as
  rw [h, decode_encode, Option.some.injEq] at this
  exact this.symm

theorem length_encode (bs : List UInt8) : (encode bs).length = (bs.length * 4 + 2) / 3 := by
  induction bs using encode.induct with
  | case1 => rfl
  | case2 => simp [encode]
  | case3 => simp [encode]
  | case4 a b c bs ih =>
    simp only [encode, List.length_cons, ih]
    omega

theorem head?_encode (b : UInt8) (bs : List UInt8)
    : (encode (b :: bs)).head? = some (symbol (b.toNat / 4)) := by
  rcases bs with _ | ⟨c, _ | ⟨d, bs⟩⟩
  . rfl
  . rfl
  . simp [encode]

def isSymbol (b : UInt8) : Bool :=
  (value b).isSome

theorem isSymbol_symbol {v : Nat} (h : v < 64) : isSymbol (symbol v) = true := by
  unfold isSymbol
  rw [value_symbol v h]
  rfl

theorem all_isSymbol_encode (bs : List UInt8) : (encode bs).all isSymbol = true := by
  induction bs using encode.induct with
  | case1 => rfl
  | case2 a =>
    have ha := a.toNat_lt
    simp only [encode, List.all_cons, List.all_nil, Bool.and_true]
    rw [isSymbol_symbol (by omega), isSymbol_symbol (by omega)]
    rfl
  | case3 a b =>
    have ha := a.toNat_lt
    have hb := b.toNat_lt
    simp only [encode, List.all_cons, List.all_nil, Bool.and_true]
    rw [isSymbol_symbol (by omega), isSymbol_symbol (by omega), isSymbol_symbol (by omega)]
    rfl
  | case4 a b c bs ih =>
    have ha := a.toNat_lt
    have hb := b.toNat_lt
    have hc := c.toNat_lt
    simp only [encode, List.all_cons, ih, Bool.and_true]
    rw [isSymbol_symbol (by omega), isSymbol_symbol (by omega), isSymbol_symbol (by omega),
      isSymbol_symbol (by omega)]
    rfl

def bitsOf (width n : Nat) : List Bool :=
  match width with
  | 0 => []
  | width + 1 => decide (n / 2 ^ width % 2 = 1) :: bitsOf width n

def textBits (text : List UInt8) : Option (List Bool) :=
  (text.mapM value).map fun values => values.flatMap (bitsOf 6)

def byteBits (bs : List UInt8) : List Bool :=
  bs.flatMap fun b => bitsOf 8 b.toNat

@[simp]
theorem length_bitsOf (width n : Nat) : (bitsOf width n).length = width := by
  induction width with
  | zero => rfl
  | succ width ih => rw [bitsOf, List.length_cons, ih]

theorem length_byteBits (bs : List UInt8) : (byteBits bs).length = 8 * bs.length := by
  induction bs with
  | nil => rfl
  | cons b bs ih =>
    rw [byteBits, List.flatMap_cons, List.length_append, length_bitsOf, ← byteBits, ih,
      List.length_cons]
    omega

theorem bitsOf_injective
    : ∀ v < 64, ∀ w < 64, bitsOf 6 v = bitsOf 6 w → v = w := by
  decide +kernel

@[simp]
theorem textBits_nil : textBits [] = some [] := by
  rfl

theorem textBits_cons (s : UInt8) (text : List UInt8)
    : textBits (s :: text)
        =
      (value s).bind fun v => (textBits text).map fun bits => bitsOf 6 v ++ bits := by
  unfold textBits
  cases hvalue : value s with
  | none => simp [List.mapM_cons, hvalue]
  | some v => cases htext : text.mapM value <;> simp [List.mapM_cons, hvalue, htext]

theorem textBits_symbol_cons {v : Nat} (h : v < 64) (text : List UInt8)
    : textBits (symbol v :: text) = (textBits text).map fun bits => bitsOf 6 v ++ bits := by
  rw [textBits_cons, value_symbol v h, Option.bind_some]

theorem length_textBits {text : List UInt8} {bits : List Bool} (h : textBits text = some bits)
    : bits.length = 6 * text.length := by
  induction text generalizing bits with
  | nil =>
    cases h
    rfl
  | cons s text ih =>
    rw [textBits_cons] at h
    simp only [Option.bind_eq_some_iff, Option.map_eq_some_iff] at h
    rcases h with ⟨v, _, rest, hrest, rfl⟩
    rw [List.length_append, length_bitsOf, ih hrest, List.length_cons]
    omega

theorem textBits_injective {text text' : List UInt8} {bits : List Bool}
    (h : textBits text = some bits) (h' : textBits text' = some bits) : text = text' := by
  induction text generalizing text' bits with
  | nil =>
    rw [textBits_nil, Option.some.injEq] at h
    subst h
    have hlength := length_textBits h'
    rw [List.length_nil] at hlength
    exact (List.length_eq_zero_iff.mp (by omega)).symm
  | cons s text ih =>
    cases text' with
    | nil =>
      rw [textBits_nil, Option.some.injEq] at h'
      subst h'
      have hlength := length_textBits h
      simp at hlength
    | cons s' text' =>
      rw [textBits_cons] at h h'
      simp only [Option.bind_eq_some_iff, Option.map_eq_some_iff] at h h'
      rcases h with ⟨v, hv, rest, hrest, rfl⟩
      rcases h' with ⟨w, hw, rest', hrest', happend⟩
      have hsplit := List.append_inj happend (by simp)
      have hvalue : w = v :=
        bitsOf_injective w (symbol_value hw).1 v (symbol_value hv).1 hsplit.1
      have hsymbol : s = s' := by
        rw [← (symbol_value hv).2, ← (symbol_value hw).2, hvalue]
      rw [hsymbol, ih hrest (by rw [hrest', hsplit.2])]

theorem textBits_encode (bs : List UInt8)
    : textBits (encode bs)
        =
      some (byteBits bs ++ List.replicate (6 * (encode bs).length - 8 * bs.length) false) := by
  induction bs using encode.induct with
  | case1 => rfl
  | case2 a =>
    have ha := a.toNat_lt
    rw [encode, textBits_symbol_cons (by omega), textBits_symbol_cons (by omega)]
    simp [byteBits, bitsOf]
    omega
  | case3 a b =>
    have ha := a.toNat_lt
    have hb := b.toNat_lt
    rw [encode, textBits_symbol_cons (by omega), textBits_symbol_cons (by omega),
      textBits_symbol_cons (by omega)]
    simp [byteBits, bitsOf]
    omega
  | case4 a b c bs ih =>
    have ha := a.toNat_lt
    have hb := b.toNat_lt
    have hc := c.toNat_lt
    have hpad : 6 * ((encode bs).length + 1 + 1 + 1 + 1) - 8 * (bs.length + 1 + 1 + 1)
        = 6 * (encode bs).length - 8 * bs.length := by
      omega
    rw [encode, textBits_symbol_cons (by omega), textBits_symbol_cons (by omega),
      textBits_symbol_cons (by omega), textBits_symbol_cons (by omega), ih]
    simp only [List.length_cons, hpad]
    simp [byteBits, bitsOf]
    omega

theorem decode_eq_some_iff_bits {text bs : List UInt8}
    : decode text = some bs
        ↔
      ∃ k < 6, textBits text = some (byteBits bs ++ List.replicate k false) := by
  rw [decode_eq_some_iff]
  constructor
  . rintro rfl
    refine ⟨_, ?_, textBits_encode bs⟩
    rw [length_encode]
    omega
  . rintro ⟨k, hk, hbits⟩
    have hencode := textBits_encode bs
    have hlength := length_textBits hbits
    rw [List.length_append, length_byteBits, List.length_replicate] at hlength
    have hk' : k = 6 * (encode bs).length - 8 * bs.length := by
      rw [length_encode]
      omega
    rw [hk'] at hbits
    exact textBits_injective hbits hencode

end Base64
