import Attached.Library.Json

/-!
This module contains the round trip of compact JSON: reading what the printer printed gives back the
value, as long as its strings are UTF-8 and its numbers are natural numbers. `Reads` has one rule for
each kind of value.
-/

namespace Json

def isPlain (b : UInt8) : Bool :=
  0x20 ≤ b && b < 0x80 && b != 0x22 && b != 0x5c

theorem isPlain_iff {b : UInt8}
    : isPlain b = true ↔ 32 ≤ b.toNat ∧ b.toNat < 128 ∧ b ≠ 0x22 ∧ b ≠ 0x5c := by
  simp only [isPlain, Bool.and_eq_true, decide_eq_true_eq, bne_iff_ne, UInt8.le_iff_toNat_le,
    UInt8.lt_iff_toNat_lt]
  simp [and_assoc]

theorem escapeByte_of_isPlain {b : UInt8} (h : isPlain b = true) : escapeByte b = [b] := by
  rw [isPlain_iff] at h
  have hcontrol : ∀ c : UInt8, c.toNat < 32 → b ≠ c := by
    intro c hc heq
    rw [heq] at h
    omega
  unfold escapeByte
  rw [if_neg h.2.2.1, if_neg h.2.2.2, if_neg (hcontrol _ (by decide)),
    if_neg (hcontrol _ (by decide)), if_neg (hcontrol _ (by decide)),
    if_neg (hcontrol _ (by decide)), if_neg (hcontrol _ (by decide)), if_neg]
  rw [UInt8.lt_iff_toNat_lt]
  simp
  omega

theorem printString_of_all_isPlain {text : List UInt8} (h : text.all isPlain = true)
    : printString text = [0x22] ++ text ++ [0x22] := by
  have hescape : text.flatMap escapeByte = text := by
    induction text with
    | nil => rfl
    | cons b text ih =>
      simp only [List.all_cons, Bool.and_eq_true] at h
      rw [List.flatMap_cons, escapeByte_of_isPlain h.1, ih h.2]
      rfl
  rw [printString, hescape]

theorem codeUnit_control
    : ∀ b : UInt8, b < 0x20 →
        codeUnit 0x30 0x30 (Bytes.hexDigit (b.toNat / 16)) (Bytes.hexDigit (b.toNat % 16))
          = some b.toNat := by
  apply Bytes.forall_byte
  decide +kernel

theorem utf8_control : ∀ b : UInt8, b < 0x20 → utf8 b.toNat = [b] := by
  apply Bytes.forall_byte
  decide +kernel

theorem isEscaped_control : ∀ b : UInt8, b < 0x20 → isEscaped b = true := by
  apply Bytes.forall_byte
  decide +kernel

section

variable {b escape : UInt8} {input : List UInt8}

theorem readStringBody_simpleEscape (h : simpleEscape escape = some b) (hunit : escape ≠ 0x75)
    : readStringBody none (0x5c :: escape :: input)
        =
      (readStringBody none input).map fun (text, _, rest) => (b :: text, true, rest) := by
  rw [readStringBody.eq_def]
  simp [h, hunit]
  cases readStringBody none input <;> rfl

theorem readStringBody_control (h : b < 0x20)
    : readStringBody none (0x5c :: 0x75 :: 0x30 :: 0x30 :: Bytes.hexDigit (b.toNat / 16)
          :: Bytes.hexDigit (b.toNat % 16) :: input)
        =
      (readStringBody none input).map fun (text, _, rest) => (b :: text, true, rest) := by
  have hnat : b.toNat < 32 := h
  have hhigh : ¬(0xd800 ≤ b.toNat ∧ b.toNat < 0xdc00) := by omega
  have hlow : ¬(0xdc00 ≤ b.toNat ∧ b.toNat < 0xe000) := by omega
  rw [readStringBody.eq_def]
  simp [codeUnit_control b h, utf8_control b h, hhigh, hlow]
  cases readStringBody none input <;> rfl

theorem readStringBody_of_not_isEscaped (h : isEscaped b = false)
    : readStringBody none (b :: input)
        =
      (readStringBody none input).map fun (text, escaped, rest) => (b :: text, escaped, rest) := by
  have hquote : b ≠ 0x22 := by
    rintro rfl
    revert h
    decide
  have hbackslash : b ≠ 0x5c := by
    rintro rfl
    revert h
    decide
  have hcontrol : ¬b < 0x20 := by
    intro hb
    rw [isEscaped_control b hb] at h
    cases h
  rw [readStringBody.eq_def]
  simp [hquote, hbackslash, hcontrol]
  cases readStringBody none input <;> rfl

theorem readStringBody_escapeByte (b : UInt8) (input : List UInt8)
    : readStringBody none (escapeByte b ++ input)
        =
      (readStringBody none input).map fun (text, escaped, rest) =>
        (b :: text, escaped || isEscaped b, rest) := by
  cases hescaped : isEscaped b with
  | false =>
    have hplain : escapeByte b = [b] := by
      simpa [isEscaped] using hescaped
    rw [hplain, List.singleton_append, readStringBody_of_not_isEscaped hescaped]
    simp only [Bool.or_false]
  | true =>
    simp only [Bool.or_true]
    unfold escapeByte
    iterate 7
      split
      . next h => exact readStringBody_simpleEscape (by rw [h]; rfl) (by decide)
    split
    . next h => exact readStringBody_control h
    . simp [isEscaped, escapeByte, *] at hescaped

theorem readStringBody_print (text rest : List UInt8)
    : readStringBody none (text.flatMap escapeByte ++ 0x22 :: rest)
        = some (text, text.any isEscaped, rest) := by
  induction text with
  | nil =>
    rw [List.flatMap_nil, List.nil_append, readStringBody.eq_def]
    simp
  | cons b text ih =>
    rw [List.flatMap_cons, List.append_assoc, readStringBody_escapeByte, ih, Option.map_some,
      List.any_cons, Bool.or_comm]

end

theorem any_isEscaped_of_all_isPlain {text : List UInt8} (h : text.all isPlain = true)
    : text.any isEscaped = false := by
  rw [List.any_eq_false]
  intro b hb
  rw [isEscaped, escapeByte_of_isPlain (List.all_eq_true.mp h b hb)]
  simp

theorem isSome_toString?_of_all_isPlain {text : List UInt8} (h : text.all isPlain = true)
    : (Bytes.toString? text).isSome = true := by
  apply Bytes.isSome_toString?_of_isAscii
  apply List.all_eq_true.mpr
  intro b hb
  have := isPlain_iff.mp (List.all_eq_true.mp h b hb)
  rw [decide_eq_true_eq, UInt8.lt_iff_toNat_lt]
  simp
  omega

theorem readString_print {text : List UInt8} (h : (Bytes.toString? text).isSome = true)
    (rest : List UInt8)
    : readString (text.flatMap escapeByte ++ 0x22 :: rest)
        = some (text, text.any isEscaped, rest) := by
  rcases Option.isSome_iff_exists.mp h with ⟨string, hstring⟩
  unfold readString
  rw [readStringBody_print]
  simp [hstring]

def endsNumber (rest : List UInt8) : Bool :=
  match rest with
  | [] => true
  | b :: _ => !isDigit b && b != 0x2e && b != 0x65 && b != 0x45

def isNatural (text : List UInt8) : Bool :=
  text != [] && text.all isDigit && (text.length ≤ 1 || text.head? != some 0x30)

theorem takeWhile_isDigit {text rest : List UInt8} (h : text.all isDigit = true)
    (hrest : endsNumber rest = true)
    : (text ++ rest).takeWhile isDigit = text ∧ (text ++ rest).dropWhile isDigit = rest := by
  induction text with
  | nil =>
    cases rest with
    | nil => simp
    | cons b rest =>
      simp only [endsNumber, Bool.and_eq_true, Bool.not_eq_true'] at hrest
      simp [hrest.1.1.1]
  | cons b text ih =>
    simp only [List.all_cons, Bool.and_eq_true] at h
    simp [h.1, ih h.2]

theorem readInteger_print {text rest : List UInt8} (h : isNatural text = true)
    (hrest : endsNumber rest = true) : readInteger (text ++ rest) = some (text, rest) := by
  simp only [isNatural, Bool.and_eq_true, Bool.or_eq_true, bne_iff_ne, decide_eq_true_eq] at h
  have hsplit := takeWhile_isDigit h.1.2 hrest
  have hzero : ¬(1 < text.length ∧ text.head? = some 0x30) := by
    rintro ⟨hlength, hhead⟩
    cases h.2 with
    | inl hle => omega
    | inr hne => exact hne hhead
  have hempty : text.isEmpty = false := by
    cases text with
    | nil => simp at h
    | cons b text => rfl
  simp only [readInteger, readDigits, hsplit.1, hsplit.2, hempty, Bool.false_eq_true, if_false,
    Option.bind_eq_bind, Option.bind_some, hzero]

theorem readNumber_print {text rest : List UInt8} (h : isNatural text = true)
    (hrest : endsNumber rest = true) : readNumber (text ++ rest) = some (text, rest) := by
  have hsign : ((text ++ rest).takeWhile (· == 0x2d)).take 1 = [] := by
    cases text with
    | nil => simp [isNatural] at h
    | cons b text =>
      simp only [isNatural, List.all_cons, Bool.and_eq_true] at h
      have hb : (b == 0x2d) = false := by
        rw [beq_eq_false_iff_ne]
        rintro rfl
        exact absurd h.1.2.1 (by decide)
      simp [hb]
  have hfraction : readFraction rest = some ([], rest) := by
    cases rest with
    | nil => rfl
    | cons b rest =>
      simp only [endsNumber, Bool.and_eq_true, bne_iff_ne] at hrest
      simp [readFraction, hrest.1.1.2]
  have hexponent : readExponent rest = some ([], rest) := by
    cases rest with
    | nil => rfl
    | cons b rest =>
      simp only [endsNumber, Bool.and_eq_true, bne_iff_ne] at hrest
      simp [readExponent, hrest.1.2, hrest.2]
  unfold readNumber
  simp [hsign, readInteger_print h hrest, hfraction, hexponent]

theorem insertMember_nil {key : List UInt8} {value : Json}
    : insertMember key value [] = [(key, value)] := rfl

theorem insertMember_of_lt {key key' : List UInt8} {value value' : Json}
    {members : List (List UInt8 × Json)} (h : key < key')
    : insertMember key value ((key', value') :: members)
        = (key, value) :: (key', value') :: members := by
  rw [insertMember, if_pos h]

theorem insertMember_of_gt {key key' : List UInt8} {value value' : Json}
    {members : List (List UInt8 × Json)} (h : key' < key)
    : insertMember key value ((key', value') :: members)
        = (key', value') :: insertMember key value members := by
  have hne : key ≠ key' := by
    rintro rfl
    exact List.lt_irrefl _ h
  rw [insertMember, if_neg (List.lt_asymm h), if_neg hne]

theorem toValues_eq_map (elements : List Json) : toValues elements = elements.map toValue := by
  induction elements with
  | nil => rfl
  | cons element elements ih => rw [toValues, ih, List.map_cons]

def Reads (depth : Nat) (json : Json) : Prop :=
  ∀ (fuel : Nat) (rest : List UInt8),
    3 * (print json).length ≤ fuel →
      endsNumber rest = true → readValue fuel depth (print json ++ rest) = some (json, rest)

theorem reads_text {depth : Nat} {text : List UInt8} (h : (Bytes.toString? text).isSome = true)
    : Reads depth (.string text (text.any isEscaped)) := by
  intro fuel rest hfuel hrest
  rw [print, printString] at hfuel ⊢
  cases fuel with
  | zero => simp at hfuel
  | succ fuel =>
    have hinput : [0x22] ++ text.flatMap escapeByte ++ [0x22] ++ rest
        = 0x22 :: (text.flatMap escapeByte ++ 0x22 :: rest) := by
      simp
    have hskip : ∀ input, skipWhitespace (0x22 :: input) = 0x22 :: input := by
      intro input
      rfl
    rw [hinput, readValue, hskip]
    simp [readString_print h]

theorem reads_ofText {depth : Nat} (text : String) : Reads depth (ofText text) := by
  apply reads_text
  rw [Bytes.toString?_ofString]
  rfl

theorem reads_string {depth : Nat} {text : List UInt8} (h : text.all isPlain = true)
    : Reads depth (.string text false) := by
  have hreads : Reads depth (.string text (text.any isEscaped)) :=
    reads_text (isSome_toString?_of_all_isPlain h)
  rwa [any_isEscaped_of_all_isPlain h] at hreads

theorem reads_number {depth : Nat} {text : List UInt8} (h : isNatural text = true)
    : Reads depth (.number text) := by
  intro fuel rest hfuel hrest
  rw [print] at hfuel ⊢
  cases text with
  | nil => simp [isNatural] at h
  | cons b text =>
    cases fuel with
    | zero => simp at hfuel
    | succ fuel =>
      have hdigit : isDigit b = true := by
        simp only [isNatural, List.all_cons, Bool.and_eq_true] at h
        exact h.1.2.1
      have hne : ∀ c : UInt8, isDigit c = false → b ≠ c := by
        rintro c hc rfl
        rw [hdigit] at hc
        simp at hc
      have hskip : ∀ input, skipWhitespace (b :: input) = b :: input := by
        intro input
        have : isWhitespace b = false := by
          simp [isWhitespace, hne _ (show isDigit 0x20 = false by decide),
            hne _ (show isDigit 0x09 = false by decide),
            hne _ (show isDigit 0x0a = false by decide),
            hne _ (show isDigit 0x0d = false by decide)]
        simp [skipWhitespace, this]
      rw [List.cons_append, readValue, hskip]
      simp only [hne _ (show isDigit 0x22 = false by decide),
        hne _ (show isDigit 0x5b = false by decide), hne _ (show isDigit 0x7b = false by decide),
        if_false, ← List.cons_append]
      have hword : ∀ (c : UInt8) (word : List UInt8), isDigit c = false →
          (c :: word).isPrefixOf (b :: text ++ rest) = false := by
        intro c word hc
        have : (c == b) = false := by
          rw [beq_eq_false_iff_ne]
          exact (hne c hc).symm
        simp [List.isPrefixOf, this]
      unfold readScalar
      simp only [print, hword 0x6e _ (by decide), hword 0x74 _ (by decide),
        hword 0x66 _ (by decide), Bool.false_eq_true, if_false, readNumber_print h hrest,
        Option.bind_eq_bind, Option.bind_some, Option.pure_def]

theorem readKey_print {key : List UInt8} (h : (Bytes.toString? key).isSome = true)
    (rest : List UInt8) : readKey (printString key ++ 0x3a :: rest) = some (key, rest) := by
  have hinput : printString key ++ 0x3a :: rest
      = 0x22 :: (key.flatMap escapeByte ++ 0x22 :: 0x3a :: rest) := by
    rw [printString]
    simp
  have hskip : ∀ input, skipWhitespace (0x22 :: input) = 0x22 :: input := by
    intro input
    rfl
  have hcolon : skipWhitespace (0x3a :: rest) = 0x3a :: rest := by
    rfl
  unfold readKey
  rw [hinput, hskip]
  simp [readString_print h, hcolon]

theorem readSomeMembers_print {depth : Nat} {members : List (List UInt8 × Json)}
    (hmembers : ∀ m ∈ members, (Bytes.toString? m.1).isSome = true ∧ Reads depth m.2)
    (hne : members ≠ [])
    (fuel : Nat) (rest : List UInt8) (hfuel : 3 * (printMembers members).length < fuel)
    : readSomeMembers fuel depth (printMembers members ++ 0x7d :: rest) = some (members, rest) := by
  induction members generalizing fuel with
  | nil => simp at hne
  | cons m members ih =>
    rcases m with ⟨key, value⟩
    have hkey : (Bytes.toString? key).isSome = true := (hmembers (key, value) (by simp)).1
    have hvalue : Reads depth value := (hmembers (key, value) (by simp)).2
    have hbrace : skipWhitespace (0x7d :: rest) = 0x7d :: rest := by
      rfl
    have hcomma : ∀ input, skipWhitespace (0x2c :: input) = 0x2c :: input := by
      intro input
      rfl
    cases fuel with
    | zero => omega
    | succ fuel =>
      cases members with
      | nil =>
        rw [printMembers] at hfuel ⊢
        simp only [List.length_append, List.length_cons] at hfuel
        have hinput : printString key ++ [0x3a] ++ print value ++ 0x7d :: rest
            = printString key ++ 0x3a :: (print value ++ 0x7d :: rest) := by
          simp
        rw [hinput, readSomeMembers, readKey_print hkey]
        simp only [Option.bind_eq_bind, Option.bind_some]
        rw [hvalue fuel (0x7d :: rest) (by omega) (by rfl)]
        simp [hbrace]
      | cons next members =>
        have hprint : printMembers ((key, value) :: next :: members)
            = printString key ++ [0x3a] ++ print value ++ [0x2c]
              ++ printMembers (next :: members) := by
          rw [printMembers]
          simp
        rw [hprint] at hfuel ⊢
        simp only [List.length_append, List.length_cons] at hfuel
        have htail := ih (fun m h => hmembers m (by simp [h])) (by simp) fuel (by omega)
        have hinput : printString key ++ [0x3a] ++ print value ++ [0x2c]
              ++ printMembers (next :: members) ++ 0x7d :: rest
            = printString key
              ++ 0x3a :: (print value
              ++ 0x2c :: (printMembers (next :: members) ++ 0x7d :: rest)) := by
          simp
        rw [hinput, readSomeMembers, readKey_print hkey]
        simp only [Option.bind_eq_bind, Option.bind_some]
        rw [hvalue fuel _ (by omega) (by rfl)]
        simp [hcomma, htail]

theorem reads_object_of_text {depth : Nat} {members : List (List UInt8 × Json)} (hdepth : 2 ≤ depth)
    (hmembers : ∀ m ∈ members, (Bytes.toString? m.1).isSome = true ∧ Reads (depth - 1) m.2)
    : Reads depth (.object members) := by
  intro fuel rest hfuel hrest
  rw [print] at hfuel ⊢
  have hinput : [0x7b] ++ printMembers members ++ [0x7d] ++ rest
      = 0x7b :: (printMembers members ++ 0x7d :: rest) := by
    simp
  have hskip : ∀ input, skipWhitespace (0x7b :: input) = 0x7b :: input := by
    intro input
    rfl
  have hdepth : ¬depth ≤ 1 := by omega
  simp only [List.length_append, List.length_cons, List.length_nil] at hfuel
  rcases fuel with _ | _ | fuel
  . omega
  . omega
  . rw [hinput, readValue, hskip]
    have hread : readMembers (fuel + 1) (depth - 1) (printMembers members ++ 0x7d :: rest)
        = some (members, rest) := by
      cases members with
      | nil => simp [readMembers, printMembers, skipWhitespace, isWhitespace]
      | cons m members =>
        have hkey := (hmembers m (by simp)).1
        have hhead : ∃ input, printMembers (m :: members) ++ 0x7d :: rest = 0x22 :: input := by
          rcases m with ⟨key, value⟩
          cases members with
          | nil => simp [printMembers, printString]
          | cons next members => simp [printMembers, printString]
        rcases hhead with ⟨input, hhead⟩
        have hquote : (skipWhitespace (printMembers (m :: members) ++ 0x7d :: rest)).head?
            ≠ some 0x7d := by
          rw [hhead]
          simp [skipWhitespace, isWhitespace]
        rw [readMembers, if_neg hquote]
        apply readSomeMembers_print hmembers (by simp)
        omega
    simp [hdepth, hread]

theorem reads_object {depth : Nat} {members : List (List UInt8 × Json)} (hdepth : 2 ≤ depth)
    (hmembers : ∀ m ∈ members, m.1.all isPlain = true ∧ Reads (depth - 1) m.2)
    : Reads depth (.object members) := by
  apply reads_object_of_text hdepth
  intro m hm
  exact ⟨isSome_toString?_of_all_isPlain (hmembers m hm).1, (hmembers m hm).2⟩

theorem reads_null {depth : Nat} : Reads depth .null := by
  intro fuel rest hfuel hrest
  cases fuel with
  | zero => simp [print] at hfuel
  | succ fuel => simp [readValue, print, skipWhitespace, isWhitespace, readScalar]

theorem reads_bool {depth : Nat} {value : Bool} : Reads depth (.bool value) := by
  intro fuel rest hfuel hrest
  cases fuel with
  | zero => cases value <;> simp [print] at hfuel
  | succ fuel =>
    cases value with
    | false => simp [readValue, print, skipWhitespace, isWhitespace, readScalar]
    | true => simp [readValue, print, skipWhitespace, isWhitespace, readScalar]

theorem head?_skipWhitespace_of_readValue {fuel depth : Nat} {input : List UInt8}
    {result : Json × List UInt8} (h : readValue fuel depth input = some result)
    : (skipWhitespace input).head? ≠ some 0x5d := by
  intro hhead
  cases fuel with
  | zero => simp [readValue] at h
  | succ fuel =>
    cases hskip : skipWhitespace input with
    | nil => simp [hskip] at hhead
    | cons byte rest =>
      rw [hskip, List.head?_cons, Option.some.injEq] at hhead
      subst hhead
      rw [readValue, hskip] at h
      have hscalar : readScalar (0x5d :: rest) = none := by
        simp [readScalar, print, List.isPrefixOf, readNumber, readInteger, readDigits, isDigit,
          Bytes.isAsciiDigit]
      simp [hscalar] at h

theorem readSomeElements_print {depth : Nat} {elements : List Json}
    (helements : ∀ element ∈ elements, Reads depth element) (hne : elements ≠ []) (fuel : Nat)
    (rest : List UInt8) (hfuel : 3 * (printElements elements).length < fuel)
    : readSomeElements fuel depth (printElements elements ++ 0x5d :: rest) = some (elements, rest) := by
  induction elements generalizing fuel with
  | nil => simp at hne
  | cons element elements ih =>
    have helement : Reads depth element := helements element (by simp)
    have hbracket : skipWhitespace (0x5d :: rest) = 0x5d :: rest := by
      rfl
    have hcomma : ∀ input, skipWhitespace (0x2c :: input) = 0x2c :: input := by
      intro input
      rfl
    cases fuel with
    | zero => omega
    | succ fuel =>
      cases elements with
      | nil =>
        rw [printElements] at hfuel ⊢
        rw [readSomeElements, helement fuel (0x5d :: rest) (by omega) (by rfl)]
        simp [hbracket]
      | cons next elements =>
        have hprint : printElements (element :: next :: elements)
            = print element ++ [0x2c] ++ printElements (next :: elements) := by
          rw [printElements]
          simp
        rw [hprint] at hfuel ⊢
        simp only [List.length_append, List.length_cons, List.length_nil] at hfuel
        have htail := ih (fun element h => helements element (by simp [h])) (by simp) fuel (by omega)
        have hinput : print element ++ [0x2c] ++ printElements (next :: elements) ++ 0x5d :: rest
            = print element ++ 0x2c :: (printElements (next :: elements) ++ 0x5d :: rest) := by
          simp
        rw [hinput, readSomeElements, helement fuel _ (by omega) (by rfl)]
        simp [hcomma, htail]

theorem reads_array {depth : Nat} {elements : List Json} (hdepth : 2 ≤ depth)
    (helements : ∀ element ∈ elements, Reads (depth - 1) element)
    : Reads depth (.array elements) := by
  intro fuel rest hfuel hrest
  rw [print] at hfuel ⊢
  have hinput : [0x5b] ++ printElements elements ++ [0x5d] ++ rest
      = 0x5b :: (printElements elements ++ 0x5d :: rest) := by
    simp
  have hskip : ∀ input, skipWhitespace (0x5b :: input) = 0x5b :: input := by
    intro input
    rfl
  have hdepth : ¬depth ≤ 1 := by omega
  simp only [List.length_append, List.length_cons, List.length_nil] at hfuel
  rcases fuel with _ | _ | fuel
  . omega
  . omega
  . rw [hinput, readValue, hskip]
    have hread : readElements (fuel + 1) (depth - 1) (printElements elements ++ 0x5d :: rest)
        = some (elements, rest) := by
      cases elements with
      | nil => simp [readElements, printElements, skipWhitespace, isWhitespace]
      | cons element elements =>
        have hsome := readSomeElements_print helements (by simp) fuel rest (by omega)
        have hhead : (skipWhitespace (printElements (element :: elements) ++ 0x5d :: rest)).head?
            ≠ some 0x5d := by
          cases fuel with
          | zero => simp [readSomeElements] at hsome
          | succ fuel =>
            rw [readSomeElements] at hsome
            cases hvalue : readValue fuel (depth - 1)
                (printElements (element :: elements) ++ 0x5d :: rest) with
            | none => simp [hvalue] at hsome
            | some result => exact head?_skipWhitespace_of_readValue hvalue
        rw [readElements, if_neg hhead, hsome]
    simp [hdepth, hread]

def memberLength (m : List UInt8 × Json) : Nat :=
  (printString m.1).length + (print m.2).length + 2

theorem length_printMembers_le (members : List (List UInt8 × Json))
    : (printMembers members).length ≤ (members.map memberLength).sum := by
  induction members with
  | nil => simp [printMembers]
  | cons m members ih =>
    rcases m with ⟨key, value⟩
    cases members with
    | nil =>
      simp [printMembers, memberLength]
      omega
    | cons next members =>
      rw [printMembers]
      . simp only [List.length_append, List.length_cons, List.length_nil, List.map_cons,
          List.sum_cons, memberLength] at ih ⊢
        omega
      . simp

theorem length_printElements_le {elements : List Json} {n : Nat}
    (h : ∀ element ∈ elements, (print element).length ≤ n)
    : (printElements elements).length ≤ elements.length * (n + 1) := by
  induction elements with
  | nil => simp [printElements]
  | cons element elements ih =>
    have helement := h element List.mem_cons_self
    have hrest := ih fun element h' => h element (List.mem_cons_of_mem _ h')
    cases elements with
    | nil =>
      simp only [printElements, List.length_singleton]
      omega
    | cons next elements =>
      rw [printElements]
      . simp only [List.length_append, List.length_cons, List.length_nil] at hrest ⊢
        linarith
      . simp

theorem parse_print_append {json : Json} (h : Reads maxDepth json) (space : List UInt8)
    (hspace : skipWhitespace space = []) : parse (print json ++ space) = some json := by
  have hends : endsNumber space = true := by
    cases space with
    | nil => rfl
    | cons b space =>
      have hb : isWhitespace b = true := by
        by_contra hb
        simp [skipWhitespace, hb] at hspace
      simp only [isWhitespace, Bool.or_eq_true, beq_iff_eq] at hb
      rcases hb with ((rfl | rfl) | rfl) | rfl <;> rfl
  have hread := h (3 * (print json ++ space).length + 3) space (by simp; omega) hends
  unfold parse
  rw [hread]
  simp [hspace]

theorem parse_print {json : Json} (h : Reads maxDepth json) : parse (print json) = some json := by
  have hparse := parse_print_append h [] rfl
  rwa [List.append_nil] at hparse

end Json
