import Attached.Library.Json

/-!
This module contains how `serde` reads the fields of a struct off a JSON value.
-/

namespace Serde

def asString (json : Json) : Option (List UInt8) :=
  match json with
  | .string text _ => some text
  | _ => none

def asText (json : Json) : Option String :=
  (asString json).bind Bytes.toString?

/-- A field of type `&str`, which has to be borrowed from the input. -/
def asStr (json : Json) : Option (List UInt8) :=
  match json with
  | .string text false => some text
  | _ => none

def asOptionalString (json : Json) : Option (Option (List UInt8)) :=
  match json with
  | .null => some none
  | .string text _ => some (some text)
  | _ => none

/--
An unsigned integer below `bound`. A number with a sign, a fraction or an exponent is no integer for
`serde_json`.
-/
def asUnsigned (bound : Nat) (json : Json) : Option Nat :=
  match json with
  | .number text =>
    let value := text.foldl (fun value digit => value * 10 + (digit.toNat - 48)) 0
    if text.all Json.isDigit && value < bound then some value else none
  | _ => none

def asBool (json : Json) : Option Bool :=
  match json with
  | .bool value => some value
  | _ => none

def asArray (json : Json) : Option (List Json) :=
  match json with
  | .array elements => some elements
  | _ => none

/-- The members of a struct, which may also be written as the array of its fields. -/
def asStruct (names : List String) (json : Json) : Option (List (List UInt8 × Json)) :=
  match json with
  | .object members => some members
  | .array elements =>
    if elements.length = names.length then some ((names.map Bytes.ofString).zip elements) else none
  | _ => none

def member (name : String) (members : List (List UInt8 × Json)) : Option (Option Json) :=
  match members.filter fun m => m.1 == Bytes.ofString name with
  | [] => some none
  | [m] => some (some m.2)
  | _ => none

def required (name : String) (members : List (List UInt8 × Json)) : Option Json :=
  (member name members).join

def optionalString (name : String) (members : List (List UInt8 × Json))
    : Option (Option (List UInt8)) := do
  match ← member name members with
  | none => return none
  | some json => asOptionalString json

/-- `deny_unknown_fields` -/
def onlyFields (names : List String) (members : List (List UInt8 × Json)) : Bool :=
  members.all fun m => names.any fun name => m.1 == Bytes.ofString name

def textMember (name : String) (value : List UInt8) : List UInt8 × Json :=
  (Bytes.ofString name, .string value false)

/-- A field with `skip_serializing_if = "Option::is_none"`. -/
def optionalMember (name : String) (value : Option (List UInt8)) : List (List UInt8 × Json) :=
  (value.map (textMember name)).toList

def numberMember (name : String) (value : Nat) : List UInt8 × Json :=
  (Bytes.ofString name, .number (Bytes.numeral 10 value))

end Serde
