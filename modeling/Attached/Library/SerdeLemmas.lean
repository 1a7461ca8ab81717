import Attached.Library.JsonLemmas
import Attached.Library.Serde

/-!
This module contains the round trip of the numbers and members that `serde` writes.
-/

namespace Bytes

theorem numeral_ne_nil (radix n : Nat) : numeral radix n ≠ [] := by
  unfold numeral
  split
  . simp
  . next hn => simp [Nat.digits_ne_nil_iff_ne_zero.mpr hn]

theorem length_numeral_le {n k : Nat} (hk : 0 < k) (h : n < 10 ^ k) : (numeral 10 n).length ≤ k := by
  unfold numeral
  split
  . rw [List.length_singleton]
    exact hk
  . rw [List.length_map, List.length_reverse]
    exact (Nat.digits_length_le_iff (by omega) n).mpr h

end Bytes

namespace Json

theorem isDigit_hexDigit : ∀ d < 10, isDigit (Bytes.hexDigit d) = true := by
  decide

theorem isNatural_numeral (n : Nat) : isNatural (Bytes.numeral 10 n) = true := by
  have hdigits : (Bytes.numeral 10 n).all isDigit = true := by
    apply List.all_eq_true.mpr
    intro b hb
    rcases Bytes.exists_of_mem_numeral (by omega) hb with ⟨d, hd, rfl⟩
    exact isDigit_hexDigit d hd
  have hzero : (Bytes.numeral 10 n).length ≤ 1 ∨ (Bytes.numeral 10 n).head? ≠ some 0x30 := by
    unfold Bytes.numeral
    split
    . exact Or.inl (by simp)
    . next hn =>
      have hdigits : Nat.digits 10 n ≠ [] := Nat.digits_ne_nil_iff_ne_zero.mpr hn
      have hlast := Nat.getLast_digit_ne_zero 10 hn
      have hbound : (Nat.digits 10 n).getLast hdigits < 10 :=
        Nat.digits_lt_base (by omega) (List.getLast_mem hdigits)
      have hdigit : ∀ d < 10, d ≠ 0 → Bytes.hexDigit d ≠ 0x30 := by
        decide
      refine Or.inr ?_
      rw [List.head?_map, List.head?_reverse, List.getLast?_eq_getLast_of_ne_nil hdigits,
        Option.map_some, Ne, Option.some.injEq]
      exact hdigit _ hbound hlast
  simp only [isNatural, hdigits, Bool.and_true, Bool.and_eq_true, bne_iff_ne, Bool.or_eq_true,
    decide_eq_true_eq]
  exact ⟨Bytes.numeral_ne_nil 10 n, hzero⟩

end Json

namespace Serde

theorem foldl_numeral (n : Nat)
    : (Bytes.numeral 10 n).foldl (fun value digit => value * 10 + (digit.toNat - 48)) 0 = n := by
  have hdigit : ∀ d < 10, (Bytes.hexDigit d).toNat - 48 = d := by
    decide
  have hdigits : ∀ l : List Nat, (∀ d ∈ l, d < 10) →
      (l.reverse.map Bytes.hexDigit).foldl (fun value digit => value * 10 + (digit.toNat - 48)) 0
        = Nat.ofDigits 10 l := by
    intro l hl
    induction l with
    | nil => rfl
    | cons d l ih =>
      rw [List.reverse_cons, List.map_append, List.foldl_append,
        ih fun d hd => hl d (List.mem_cons_of_mem _ hd), Nat.ofDigits_cons]
      simp [hdigit d (hl d List.mem_cons_self)]
      ring
  unfold Bytes.numeral
  split
  . next hn =>
    subst hn
    rfl
  . rw [hdigits _ fun d hd => Nat.digits_lt_base (by omega) hd, Nat.ofDigits_digits]

theorem asUnsigned_numeral {bound n : Nat} (h : n < bound)
    : asUnsigned bound (.number (Bytes.numeral 10 n)) = some n := by
  have hdigits := Json.isNatural_numeral n
  simp only [Json.isNatural, Bool.and_eq_true] at hdigits
  simp [asUnsigned, foldl_numeral, hdigits.1.2, h]

def Readable (m : List UInt8 × Json) : Prop :=
  m.1.all Json.isPlain = true ∧ Json.Reads (Json.maxDepth - 1) m.2

theorem readable_textMember {name : String} {text : List UInt8}
    (hname : (Bytes.ofString name).all Json.isPlain = true) (htext : text.all Json.isPlain = true)
    : Readable (textMember name text) := by
  constructor
  . exact hname
  . apply Json.reads_string htext

theorem readable_numberMember {name : String} (n : Nat)
    (hname : (Bytes.ofString name).all Json.isPlain = true) : Readable (numberMember name n) := by
  constructor
  . exact hname
  . apply Json.reads_number
    apply Json.isNatural_numeral

theorem memberLength_textMember {name : String} {text : List UInt8} {n m : Nat}
    (hname : (Json.printString (Bytes.ofString name)).length = n)
    (htext : text.all Json.isPlain = true) (hlength : text.length ≤ m)
    : Json.memberLength (textMember name text) ≤ n + m + 4 := by
  simp only [Json.memberLength, textMember, Json.print, Json.printString_of_all_isPlain htext,
    hname, List.length_append, List.length_cons, List.length_nil]
  omega

theorem memberLength_numberMember {name : String} {n m k : Nat}
    (hname : (Json.printString (Bytes.ofString name)).length = n) (hk : 0 < k) (hm : m < 10 ^ k)
    : Json.memberLength (numberMember name m) ≤ n + k + 2 := by
  have hlength := Bytes.length_numeral_le hk hm
  simp only [Json.memberLength, numberMember, Json.print, hname]
  omega

theorem length_print_object_le (members : List (List UInt8 × Json))
    : (Json.object members).print.length ≤ (members.map Json.memberLength).sum + 2 := by
  have := Json.length_printMembers_le members
  simp only [Json.print, List.length_append, List.length_cons, List.length_nil]
  omega

theorem member_perm {name : String} {members members' : List (List UInt8 × Json)}
    (h : members.Perm members') : member name members = member name members' := by
  have hfilter := h.filter fun m => m.1 == Bytes.ofString name
  unfold member
  generalize members.filter (fun m => m.1 == Bytes.ofString name) = found at hfilter ⊢
  generalize members'.filter (fun m => m.1 == Bytes.ofString name) = found' at hfilter ⊢
  match found with
  | [] => rw [List.nil_perm.mp hfilter]
  | [m] => rw [List.singleton_perm.mp hfilter]
  | m :: next :: rest =>
    have hlength := hfilter.length_eq
    match found' with
    | [] => simp at hlength
    | [m] => simp at hlength
    | m :: next :: rest => rfl

theorem required_perm {name : String} {members members' : List (List UInt8 × Json)}
    (h : members.Perm members') : required name members = required name members' := by
  unfold required
  rw [member_perm h]

theorem onlyFields_perm {names : List String} {members members' : List (List UInt8 × Json)}
    (h : members.Perm members') : onlyFields names members = onlyFields names members' :=
  h.all_eq

end Serde
