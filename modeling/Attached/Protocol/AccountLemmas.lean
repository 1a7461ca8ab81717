import Attached.Library.JsonLemmas
import Attached.Protocol.Account

/-!
This module contains what the parsers of credentials accept: exactly the canonical texts. All of
these texts can stand in a JSON string without escapes.
-/

namespace Attached

theorem isPlain_hexDigit : ∀ d < 16, Json.isPlain (Bytes.hexDigit d) = true := by
  decide

theorem isPlain_of_isSymbol {b : UInt8} (h : Base64.isSymbol b = true)
    : Json.isPlain b = true := by
  revert b
  apply Bytes.forall_byte
  decide +kernel

theorem all_isPlain_encode (bs : List UInt8) : (Base64.encode bs).all Json.isPlain = true := by
  apply List.all_eq_true.mpr
  intro b hb
  apply isPlain_of_isSymbol
  exact List.all_eq_true.mp (Base64.all_isSymbol_encode bs) b hb

theorem decodeSecret_eq_some_iff {input : List UInt8} {v : Vector UInt8 32}
    : decodeSecret input = some v ↔ input = Base64.encode v.toList := by
  simp only [decodeSecret, Option.bind_eq_bind, Option.bind_eq_some_iff, Base64.decode_eq_some_iff,
    toFixed_eq_some_iff]
  constructor
  . rintro ⟨_, rfl, rfl⟩
    rfl
  . rintro rfl
    exact ⟨_, rfl, rfl⟩

theorem length_encode_secret (v : Vector UInt8 32)
    : (Base64.encode v.toList).length = secretTextLen := by
  rw [Base64.length_encode]
  simp [secretTextLen]

theorem decodeBundleSecret_eq_ok_iff {input : List UInt8} {v : Vector UInt8 32}
    : decodeBundleSecret input = .ok v ↔ input = Base64.encode v.toList := by
  simp only [decodeBundleSecret, Except.bind_eq_ok_iff, Except.ensure_eq_ok_iff,
    Except.okOr_eq_ok_iff, decodeSecret_eq_some_iff, Except.pure_eq_ok_iff, Bool.not_eq_true',
    bne_eq_false_iff_eq]
  constructor
  . rintro ⟨_, _, _, rfl, _, _, rfl⟩
    rfl
  . rintro rfl
    exact ⟨(), length_encode_secret v, v, rfl, (), rfl, rfl⟩

theorem isTokenByte_of_isSymbol {b : UInt8} (h : Base64.isSymbol b = true)
    : (Bytes.isAsciiAlphanumeric b || b == 0x2d || b == 0x5f) = true := by
  revert b
  apply Bytes.forall_byte
  decide +kernel

theorem decodeApiToken_eq_ok_iff {input : List UInt8} {token : ApiToken}
    : decodeApiToken input = .ok token ↔ input = token.encode := by
  simp only [decodeApiToken, Except.bind_eq_ok_iff, Except.ensure_eq_ok_iff,
    Except.okOr_eq_ok_iff, decodeSecret_eq_some_iff, Except.pure_eq_ok_iff, Bool.not_eq_true',
    bne_eq_false_iff_eq, Bool.or_eq_false_iff]
  constructor
  . rintro ⟨_, _, v, rfl, _, _, rfl⟩
    rfl
  . rintro rfl
    have halphabet : (token.encode.all fun byte =>
        Bytes.isAsciiAlphanumeric byte || byte == 0x2d || byte == 0x5f) = true := by
      apply List.all_eq_true.mpr
      intro b hb
      apply isTokenByte_of_isSymbol
      exact List.all_eq_true.mp (Base64.all_isSymbol_encode token.bytes.toList) b hb
    refine ⟨(), ⟨length_encode_secret token.bytes, ?_⟩, token.bytes, rfl, (), rfl, rfl⟩
    rw [halphabet]
    rfl

namespace AccountId

theorem length_hyphenated (id : AccountId) : id.hyphenated.length = 36 := by
  simp [hyphenated]

theorem parseStr_append {a b c d e : List UInt8} (ha : a.length = 8) (hb : b.length = 4)
    (hc : c.length = 4) (hd : d.length = 4)
    : parseStr (a ++ [0x2d] ++ b ++ [0x2d] ++ c ++ [0x2d] ++ d ++ [0x2d] ++ e)
        =
      (Bytes.unhex (a ++ b ++ c ++ d ++ e)).bind fun bytes =>
        (toFixed 16 bytes).bind fun bytes => some ⟨bytes⟩ := by
  have hdrop : ∀ (xs : List UInt8) (n : Nat), xs.length ≤ n → xs.drop n = [] := by
    intro xs n h
    exact List.drop_eq_nil_of_le h
  simp [parseStr, List.getElem?_append, List.drop_append, ha, hb, hc, hd,
    hdrop a 9 (by omega), hdrop a 14 (by omega), hdrop a 19 (by omega), hdrop a 24 (by omega),
    hdrop b 5 (by omega), hdrop b 10 (by omega), hdrop b 15 (by omega), hdrop c 5 (by omega),
    hdrop c 10 (by omega), hdrop d 5 (by omega)]

theorem parseStr_hyphenated (id : AccountId) : parseStr id.hyphenated = some id := by
  have hlength : (Bytes.hex id.bytes.toList).length = 32 := by
    simp
  have hunhex := Bytes.unhex_hex id.bytes.toList
  have hfixed : toFixed 16 id.bytes.toList = some id.bytes := toFixed_eq_some_iff.mpr rfl
  unfold hyphenated
  generalize Bytes.hex id.bytes.toList = text at hlength hunhex
  have hpieces : text.take 8 ++ (text.drop 8).take 4 ++ (text.drop 12).take 4
      ++ (text.drop 16).take 4 ++ text.drop 20 = text := by
    have hdrop : ∀ n, (text.drop n).take 4 ++ text.drop (n + 4) = text.drop n := by
      intro n
      rw [← List.drop_drop, List.take_append_drop]
    rw [List.append_assoc, hdrop 16, List.append_assoc, hdrop 12, List.append_assoc, hdrop 8,
      List.take_append_drop]
  rw [parseStr_append (by simp [hlength]) (by simp [hlength]) (by simp [hlength])
    (by simp [hlength]), hpieces, hunhex]
  simp [hfixed]

theorem hyphenated_injective {id other : AccountId} (h : id.hyphenated = other.hyphenated)
    : id = other := by
  have := parseStr_hyphenated id
  rw [h, parseStr_hyphenated, Option.some.injEq] at this
  exact this.symm

theorem parse_eq_ok_iff {value : List UInt8} {id : AccountId}
    : parse value = .ok id ↔ value = id.hyphenated ∧ id.isUuidV7 = true := by
  simp only [parse, Except.bind_eq_ok_iff, Except.ensure_eq_ok_iff, Except.okOr_eq_ok_iff,
    Except.pure_eq_ok_iff, Bool.not_eq_true', bne_eq_false_iff_eq, Bool.or_eq_false_iff,
    Bool.not_eq_false']
  constructor
  . rintro ⟨_, _, _, _, _, ⟨htext, hversion⟩, rfl⟩
    exact ⟨htext.symm, hversion⟩
  . rintro ⟨rfl, hversion⟩
    exact ⟨(), length_hyphenated id, id, parseStr_hyphenated id, (), ⟨rfl, hversion⟩, rfl⟩

theorem all_isPlain_hyphenated (id : AccountId) : id.hyphenated.all Json.isPlain = true := by
  have hhex : ∀ b ∈ Bytes.hex id.bytes.toList, Json.isPlain b = true := by
    intro b hb
    rcases Bytes.exists_of_mem_hex hb with ⟨d, hd, rfl⟩
    apply isPlain_hexDigit d hd
  apply List.all_eq_true.mpr
  intro b hb
  simp only [hyphenated, List.mem_append, List.mem_singleton] at hb
  have hhyphen : Json.isPlain 0x2d = true := by decide
  rcases hb with (((((((hb | rfl) | hb) | rfl) | hb) | rfl) | hb) | rfl) | hb
  . exact hhex b (List.mem_of_mem_take hb)
  . exact hhyphen
  . exact hhex b (List.mem_of_mem_drop (List.mem_of_mem_take hb))
  . exact hhyphen
  . exact hhex b (List.mem_of_mem_drop (List.mem_of_mem_take hb))
  . exact hhyphen
  . exact hhex b (List.mem_of_mem_drop (List.mem_of_mem_take hb))
  . exact hhyphen
  . exact hhex b (List.mem_of_mem_drop hb)

end AccountId

namespace ServiceOrigin

variable {crates : AccountCrates}

theorem parse_eq_ok_iff {value : List UInt8} {origin : ServiceOrigin crates}
    : parse crates value = .ok origin ↔ origin.text = value := by
  unfold parse
  split
  . next h =>
    constructor
    . intro heq
      injection heq with heq
      rw [← heq]
    . intro heq
      cases origin
      simp only at heq
      subst heq
      rfl
  . next e h =>
    constructor
    . intro heq
      simp at heq
    . rintro rfl
      rw [origin.valid] at h
      simp at h

theorem splitAuthority_eq_ok {value host : List UInt8} {port : Option (List UInt8)}
    (h : splitAuthority value = .ok (host, port))
    : value = host ++ (port.map fun port => 0x3a :: port).getD [] := by
  unfold splitAuthority at h
  split at h
  . simp only [Except.bind_eq_ok_iff] at h
    rcases h with ⟨stop, _, h⟩
    split at h
    . next hempty =>
      simp only [Except.pure_eq_ok_iff, Prod.mk.injEq] at h
      rcases h with ⟨rfl, rfl⟩
      have hrest := List.isEmpty_iff.mp hempty
      simp only [Option.map_none, Option.getD_none, List.append_nil]
      rw [← List.take_append_drop (stop + 1) value, hrest]
      simp
    . simp only [Except.bind_eq_ok_iff, Except.okOr_eq_ok_iff, Bytes.strip_eq_some_iff,
        Except.pure_eq_ok_iff, Prod.mk.injEq] at h
      rcases h with ⟨port, hport, rfl, rfl⟩
      simp only [Option.map_some, Option.getD_some]
      rw [← List.singleton_append, ← hport, List.take_append_drop]
  . split at h
    . simp only [Except.pure_eq_ok_iff, Prod.mk.injEq] at h
      rcases h with ⟨rfl, rfl⟩
      simp
    . next colon hcolon =>
      simp only [Except.bind_eq_ok_iff, Except.ensure_eq_ok_iff, Except.pure_eq_ok_iff,
        Prod.mk.injEq] at h
      rcases h with ⟨_, _, rfl, rfl⟩
      rcases List.idxOf?_eq_some_iff.mp hcolon with ⟨hlt, hget, _⟩
      simp only [Option.map_some, Option.getD_some]
      rw [← hget, List.getElem_cons_drop, List.take_append_drop]

theorem isPlain_of_isAsciiDigit {b : UInt8} (h : Bytes.isAsciiDigit b = true)
    : Json.isPlain b = true := by
  revert b
  apply Bytes.forall_byte
  decide +kernel

theorem isPlain_of_isAsciiLowercase {b : UInt8} (h : Bytes.isAsciiLowercase b = true)
    : Json.isPlain b = true := by
  revert b
  apply Bytes.forall_byte
  decide +kernel

theorem all_isPlain_of_parsePort {value : List UInt8} {port : UInt16}
    (h : parsePort value = .ok port) : value.all Json.isPlain = true := by
  unfold parsePort at h
  simp only [Except.bind_eq_ok_iff, Except.ensure_eq_ok_iff, Bool.not_eq_true',
    Bool.or_eq_false_iff, Bool.not_eq_false'] at h
  rcases h with ⟨_, ⟨⟨_, hdigits⟩, _⟩, _⟩
  apply List.all_eq_true.mpr
  intro b hb
  apply isPlain_of_isAsciiDigit
  exact List.all_eq_true.mp hdigits b hb

theorem all_isPlain_of_parseHost {host : List UInt8} {strictHost : StrictHost}
    (h : parseHost host = .ok strictHost) : host.all Json.isPlain = true := by
  apply List.all_eq_true.mpr
  intro b hb
  unfold parseHost at h
  split at h
  . next hhead =>
    simp only [Except.bind_eq_ok_iff, Except.ensure_eq_ok_iff, Bool.not_eq_true',
      Bool.or_eq_false_iff, bne_eq_false_iff_eq, beq_iff_eq] at h
    rcases h with ⟨_, hlast, ip, _, _, ⟨⟨htext, _⟩, _⟩, _⟩
    cases host with
    | nil => simp at hb
    | cons first rest =>
      simp only [List.head?_cons, Option.some.injEq] at hhead
      subst hhead
      rcases List.eq_nil_or_concat rest with rfl | ⟨inner, last, rfl⟩
      . simp at hlast
      . simp only [List.concat_eq_append, ← List.cons_append, List.getLast?_append,
          List.getLast?_singleton, Option.some_or, Option.some.injEq] at hlast
        subst hlast
        simp only [List.concat_eq_append, List.drop_succ_cons, List.drop_zero,
          List.dropLast_concat] at htext
        simp only [List.concat_eq_append, List.mem_cons, List.mem_append, List.not_mem_nil,
          or_false, ← htext] at hb
        rcases hb with rfl | hb | rfl
        . decide
        . rcases IpAddr.V6.mem_toText hb with rfl | rfl | ⟨d, hd, rfl⟩
          . decide
          . decide
          . apply isPlain_hexDigit d hd
        . decide
  . split at h
    . next hall =>
      have := List.all_eq_true.mp hall b hb
      simp only [Bool.or_eq_true, beq_iff_eq] at this
      cases this with
      | inl hdigit => apply isPlain_of_isAsciiDigit hdigit
      | inr hdot =>
        subst hdot
        decide
    . simp only [Except.bind_eq_ok_iff, validateDns, Except.ensure_eq_ok_iff, Bool.not_eq_true',
        List.any_eq_false, Bool.or_eq_true, not_or, Bool.not_eq_false] at h
      rcases h with ⟨_, ⟨_, _, hlabels⟩, _⟩
      have hcases : b = 0x2e ∨ ∃ label ∈ host.splitOn 0x2e, b ∈ label := Bytes.mem_splitOn hb
      cases hcases with
      | inl hdot =>
        subst hdot
        decide
      | inr hlabel =>
        rcases hlabel with ⟨label, hlabel, hb⟩
        have := List.all_eq_true.mp (hlabels label hlabel).2 b hb
        simp only [Bool.or_eq_true, beq_iff_eq] at this
        rcases this with (hlower | hdigit) | rfl
        . apply isPlain_of_isAsciiLowercase hlower
        . apply isPlain_of_isAsciiDigit hdigit
        . decide

theorem length_text_le (origin : ServiceOrigin crates) : origin.text.length ≤ 267 := by
  have h := origin.valid
  unfold check at h
  simp only [Except.bind_eq_ok_iff, Except.ensure_eq_ok_iff, Bool.not_eq_true',
    Bool.or_eq_false_iff, decide_eq_false_iff_not] at h
  rcases h with ⟨_, ⟨⟨_, hlength⟩, _⟩, _⟩
  omega

theorem all_isPlain_text (origin : ServiceOrigin crates)
    : origin.text.all Json.isPlain = true := by
  have h := origin.valid
  unfold check at h
  simp only [Except.bind_eq_ok_iff] at h
  rcases h with ⟨_, _, ⟨https, authority⟩, hscheme, _, _, ⟨host, portText⟩, hsplit, port, hport, _, _,
    _, _, strictHost, hhost, _⟩
  dsimp only at hsplit hport hhost
  have hauthority : authority.all Json.isPlain = true := by
    rw [splitAuthority_eq_ok hsplit, List.all_append, all_isPlain_of_parseHost hhost]
    cases portText with
    | none => rfl
    | some portText =>
      rcases Except.mapM_some_eq_ok_iff.mp hport with ⟨number, hnumber, _⟩
      simp only [Option.map_some, Option.getD_some, List.all_cons,
        all_isPlain_of_parsePort hnumber]
      decide
  unfold splitScheme at hscheme
  split at hscheme
  . next rest hstrip =>
    injection hscheme with hscheme
    injection hscheme with _ hrest
    rw [Bytes.strip_eq_some_iff.mp hstrip, List.all_append, hrest, hauthority, Bool.and_true]
    decide +kernel
  . split at hscheme
    . next rest hstrip =>
      injection hscheme with hscheme
      injection hscheme with _ hrest
      rw [Bytes.strip_eq_some_iff.mp hstrip, List.all_append, hrest, hauthority, Bool.and_true]
      decide +kernel
    . simp at hscheme

end ServiceOrigin

end Attached
