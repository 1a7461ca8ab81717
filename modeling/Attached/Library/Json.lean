import Attached.Library.Bytes

/-!
This module contains JSON texts as byte strings: a compact printer, and a strict parser that accepts
exactly one value surrounded by whitespace.
-/

/--
A parsed JSON value. Numbers keep their spelling, and strings remember whether they were written
with escapes, because some readers only accept what they can borrow from the input.
-/
inductive Json where
  | null
  | bool (value : Bool)
  | number (text : List UInt8)
  | string (text : List UInt8) (escaped : Bool)
  | array (elements : List Json)
  | object (members : List (List UInt8 × Json))

namespace Json

def escapeByte (b : UInt8) : List UInt8 :=
  if b = 0x22 then [0x5c, 0x22]
  else if b = 0x5c then [0x5c, 0x5c]
  else if b = 0x08 then [0x5c, 0x62]
  else if b = 0x09 then [0x5c, 0x74]
  else if b = 0x0a then [0x5c, 0x6e]
  else if b = 0x0c then [0x5c, 0x66]
  else if b = 0x0d then [0x5c, 0x72]
  else if b < 0x20 then
    [0x5c, 0x75, 0x30, 0x30, Bytes.hexDigit (b.toNat / 16), Bytes.hexDigit (b.toNat % 16)]
  else
    [b]

def isEscaped (b : UInt8) : Bool :=
  escapeByte b != [b]

def ofText (text : String) : Json :=
  .string (Bytes.ofString text) ((Bytes.ofString text).any isEscaped)

def printString (text : List UInt8) : List UInt8 :=
  [0x22] ++ text.flatMap escapeByte ++ [0x22]

mutual

def print (json : Json) : List UInt8 :=
  match json with
  | .null => [0x6e, 0x75, 0x6c, 0x6c]
  | .bool true => [0x74, 0x72, 0x75, 0x65]
  | .bool false => [0x66, 0x61, 0x6c, 0x73, 0x65]
  | .number text => text
  | .string text _ => printString text
  | .array elements => [0x5b] ++ printElements elements ++ [0x5d]
  | .object members => [0x7b] ++ printMembers members ++ [0x7d]

def printElements (elements : List Json) : List UInt8 :=
  match elements with
  | [] => []
  | [element] => print element
  | element :: elements => print element ++ [0x2c] ++ printElements elements

def printMembers (members : List (List UInt8 × Json)) : List UInt8 :=
  match members with
  | [] => []
  | [(key, value)] => printString key ++ [0x3a] ++ print value
  | (key, value) :: members =>
    printString key ++ [0x3a] ++ print value ++ [0x2c] ++ printMembers members

end

def isWhitespace (b : UInt8) : Bool :=
  b == 0x20 || b == 0x09 || b == 0x0a || b == 0x0d

def skipWhitespace (input : List UInt8) : List UInt8 :=
  input.dropWhile isWhitespace

def codeUnit (a b c d : UInt8) : Option Nat := do
  let a ← Bytes.hexValue a
  let b ← Bytes.hexValue b
  let c ← Bytes.hexValue c
  let d ← Bytes.hexValue d
  return a * 4096 + b * 256 + c * 16 + d

def utf8 (scalar : Nat) : List UInt8 :=
  if scalar < 0x80 then
    [UInt8.ofNat scalar]
  else if scalar < 0x800 then
    [UInt8.ofNat (0xc0 + scalar / 64), UInt8.ofNat (0x80 + scalar % 64)]
  else if scalar < 0x10000 then
    [UInt8.ofNat (0xe0 + scalar / 4096), UInt8.ofNat (0x80 + scalar / 64 % 64),
      UInt8.ofNat (0x80 + scalar % 64)]
  else
    [UInt8.ofNat (0xf0 + scalar / 262144), UInt8.ofNat (0x80 + scalar / 4096 % 64),
      UInt8.ofNat (0x80 + scalar / 64 % 64), UInt8.ofNat (0x80 + scalar % 64)]

def simpleEscape (escape : UInt8) : Option UInt8 :=
  if escape = 0x22 then some 0x22
  else if escape = 0x5c then some 0x5c
  else if escape = 0x2f then some 0x2f
  else if escape = 0x62 then some 0x08
  else if escape = 0x66 then some 0x0c
  else if escape = 0x6e then some 0x0a
  else if escape = 0x72 then some 0x0d
  else if escape = 0x74 then some 0x09
  else none

def readStringBody (pending : Option Nat) (input : List UInt8)
    : Option (List UInt8 × Bool × List UInt8) :=
  match input with
  | [] => none
  | byte :: rest =>
    if byte = 0x22 then
      if pending.isSome then none else some ([], false, rest)
    else if byte = 0x5c then
      match rest with
      | [] => none
      | escape :: rest =>
        if escape = 0x75 then
          match rest with
          | a :: b :: c :: d :: rest => do
            let unit ← codeUnit a b c d
            match pending with
            | some high =>
              if 0xdc00 ≤ unit ∧ unit < 0xe000 then
                let (text, _, rest) ← readStringBody none rest
                let scalar := 0x10000 + (high - 0xd800) * 0x400 + (unit - 0xdc00)
                return (utf8 scalar ++ text, true, rest)
              else
                none
            | none =>
              if 0xd800 ≤ unit ∧ unit < 0xdc00 then
                readStringBody (some unit) rest
              else if 0xdc00 ≤ unit ∧ unit < 0xe000 then
                none
              else
                let (text, _, rest) ← readStringBody none rest
                return (utf8 unit ++ text, true, rest)
          | _ => none
        else if pending.isSome then
          none
        else do
          let byte ← simpleEscape escape
          let (text, _, rest) ← readStringBody none rest
          return (byte :: text, true, rest)
    else if byte < 0x20 ∨ pending.isSome then
      none
    else do
      let (text, escaped, rest) ← readStringBody none rest
      return (byte :: text, escaped, rest)

def readString (input : List UInt8) : Option (List UInt8 × Bool × List UInt8) := do
  let (text, escaped, rest) ← readStringBody none input
  let _ ← Bytes.toString? text
  return (text, escaped, rest)

def isDigit (b : UInt8) : Bool :=
  Bytes.isAsciiDigit b

def readDigits (input : List UInt8) : Option (List UInt8 × List UInt8) :=
  let text := input.takeWhile isDigit
  if text.isEmpty then none else some (text, input.dropWhile isDigit)

def readInteger (input : List UInt8) : Option (List UInt8 × List UInt8) := do
  let (text, rest) ← readDigits input
  if 1 < text.length ∧ text.head? = some 0x30 then none else some (text, rest)

def readFraction (input : List UInt8) : Option (List UInt8 × List UInt8) :=
  match input with
  | [] => some ([], [])
  | b :: rest =>
    if b = 0x2e then do
      let (text, rest) ← readDigits rest
      return (b :: text, rest)
    else
      some ([], input)

def readExponent (input : List UInt8) : Option (List UInt8 × List UInt8) :=
  match input with
  | [] => some ([], [])
  | b :: rest =>
    if b = 0x65 ∨ b = 0x45 then
      match rest with
      | [] => none
      | sign :: afterSign =>
        if sign = 0x2b ∨ sign = 0x2d then do
          let (text, rest) ← readDigits afterSign
          return (b :: sign :: text, rest)
        else do
          let (text, rest) ← readDigits rest
          return (b :: text, rest)
    else
      some ([], input)

def readNumber (input : List UInt8) : Option (List UInt8 × List UInt8) := do
  let sign := input.takeWhile (· == 0x2d) |>.take 1
  let (whole, rest) ← readInteger (input.drop sign.length)
  let (fraction, rest) ← readFraction rest
  let (exponent, rest) ← readExponent rest
  return (sign ++ whole ++ fraction ++ exponent, rest)

def readScalar (input : List UInt8) : Option (Json × List UInt8) :=
  if (print .null).isPrefixOf input then
    some (.null, input.drop 4)
  else if (print (.bool true)).isPrefixOf input then
    some (.bool true, input.drop 4)
  else if (print (.bool false)).isPrefixOf input then
    some (.bool false, input.drop 5)
  else do
    let (text, rest) ← readNumber input
    return (.number text, rest)

def readKey (input : List UInt8) : Option (List UInt8 × List UInt8) := do
  match skipWhitespace input with
  | [] => none
  | byte :: rest =>
    if byte = 0x22 then
      let (key, _, rest) ← readString rest
      match skipWhitespace rest with
      | [] => none
      | byte :: rest => if byte = 0x3a then return (key, rest) else none
    else
      none

/-- A key that is there already keeps its place and gets the new value. -/
def insertMember (key : List UInt8) (value : Json) (members : List (List UInt8 × Json))
    : List (List UInt8 × Json) :=
  match members with
  | [] => [(key, value)]
  | (key', value') :: members =>
    if key < key' then
      (key, value) :: (key', value') :: members
    else if key = key' then
      (key, value) :: members
    else
      (key', value') :: insertMember key value members

mutual

/--
A document in memory: objects are sorted by their keys, of equal keys the last one counts. Numbers
are integers here, so they keep their spelling.
-/
def toValue (json : Json) : Json :=
  match json with
  | .null => .null
  | .bool value => .bool value
  | .number text => .number text
  | .string text _ => .string text false
  | .array elements => .array (toValues elements)
  | .object members => .object (toValueMembers [] members)

def toValues (elements : List Json) : List Json :=
  match elements with
  | [] => []
  | element :: elements => toValue element :: toValues elements

def toValueMembers (sorted members : List (List UInt8 × Json)) : List (List UInt8 × Json) :=
  match members with
  | [] => sorted
  | (key, value) :: members => toValueMembers (insertMember key (toValue value) sorted) members

end

mutual

/--
A value. Arrays and objects may nest while `depth` lasts, `fuel` bounds the recursion.
-/
def readValue (fuel depth : Nat) (input : List UInt8) : Option (Json × List UInt8) :=
  match fuel with
  | 0 => none
  | fuel + 1 =>
    match skipWhitespace input with
    | [] => none
    | byte :: rest =>
      if byte = 0x22 then do
        let (text, escaped, rest) ← readString rest
        return (.string text escaped, rest)
      else if byte = 0x5b then
        if depth ≤ 1 then none else do
          let (elements, rest) ← readElements fuel (depth - 1) rest
          return (.array elements, rest)
      else if byte = 0x7b then
        if depth ≤ 1 then none else do
          let (members, rest) ← readMembers fuel (depth - 1) rest
          return (.object members, rest)
      else
        readScalar (byte :: rest)

def readElements (fuel depth : Nat) (input : List UInt8) : Option (List Json × List UInt8) :=
  match fuel with
  | 0 => none
  | fuel + 1 =>
    if (skipWhitespace input).head? = some 0x5d then
      some ([], (skipWhitespace input).tail)
    else
      readSomeElements fuel depth input

def readSomeElements (fuel depth : Nat) (input : List UInt8) : Option (List Json × List UInt8) :=
  match fuel with
  | 0 => none
  | fuel + 1 => do
    let (element, rest) ← readValue fuel depth input
    match skipWhitespace rest with
    | [] => none
    | byte :: rest =>
      if byte = 0x5d then
        return ([element], rest)
      else if byte = 0x2c then
        let (elements, rest) ← readSomeElements fuel depth rest
        return (element :: elements, rest)
      else
        none

def readMembers (fuel depth : Nat) (input : List UInt8)
    : Option (List (List UInt8 × Json) × List UInt8) :=
  match fuel with
  | 0 => none
  | fuel + 1 =>
    if (skipWhitespace input).head? = some 0x7d then
      some ([], (skipWhitespace input).tail)
    else
      readSomeMembers fuel depth input

def readSomeMembers (fuel depth : Nat) (input : List UInt8)
    : Option (List (List UInt8 × Json) × List UInt8) :=
  match fuel with
  | 0 => none
  | fuel + 1 => do
    let (key, rest) ← readKey input
    let (value, rest) ← readValue fuel depth rest
    match skipWhitespace rest with
    | [] => none
    | byte :: rest =>
      if byte = 0x7d then
        return ([(key, value)], rest)
      else if byte = 0x2c then
        let (members, rest) ← readSomeMembers fuel depth rest
        return ((key, value) :: members, rest)
      else
        none

end

def maxDepth : Nat := 128

def parse (input : List UInt8) : Option Json := do
  let (json, rest) ← readValue (3 * input.length + 3) maxDepth input
  if (skipWhitespace rest).isEmpty then return json else none

end Json
