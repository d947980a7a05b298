import Interop.Decimal.Layout
import Interop.Error

/-
  This file defines JSON documents, their compact text, and
  the plain data that can be taken out of them.

  Integers and floating point numbers are kept apart. The
  members of an object are in the order of their names.

  Key definitions include:
    * `Json`
    * `Json.text`
    * `Json.asInt`
    * `Json.asFloat`
-/

namespace Interop

/- JSON documents. -/
inductive Json where
| null : Json
| int (i : Int) : Json
| float (x : Binary64) : Json
| str (s : String) : Json
| array (items : List Json) : Json
| object (members : List (String × Json)) : Json

namespace Json

------------------------------------------------------------
-- Texts
------------------------------------------------------------

/-
  Numbers are written positionally from five zeros after the
  point up to sixteen digits before it, with a zero after
  the point of whole numbers, and otherwise with a signed
  exponent. A half goes to the even digit.
-/
def number : Layout where
  plainFrom := some (-5)
  plainBelow := some 16
  pointZero := true
  plusSign := true
  tie := .even

/- A number as a document; JSON has finite numbers only. -/
def ofFloat (x : Binary64) : Json :=
  if x.isFinite then .float x else .null

/- A control character as four hexadecimal digits. -/
def controlCode (c : Char) : List Char :=
  let digits := Nat.toDigits 16 c.toNat
  ['\\', 'u'] ++ List.replicate (4 - digits.length) '0' ++ digits

/- A character as it stands in a JSON string. -/
def escaped (c : Char) : List Char :=
  if c = '"' ∨ c = '\\' then
    ['\\', c]
  else if c = '\n' then
    ['\\', 'n']
  else if c = '\r' then
    ['\\', 'r']
  else if c = '\t' then
    ['\\', 't']
  else if c.toNat = 0x08 then
    ['\\', 'b']
  else if c.toNat = 0x0C then
    ['\\', 'f']
  else if c.toNat < 0x20 then
    controlCode c
  else
    [c]

/- A JSON string. -/
def stringText (s : String) : String :=
  String.ofList (['"'] ++ s.toList.flatMap escaped ++ ['"'])

mutual

/- The text of a document, without any blanks. -/
def text : Json → String
| .null => "null"
| .int i => toString i
| .float x => number.text x
| .str s => stringText s
| .array items =>
    "[" ++ ",".intercalate (itemTexts items) ++ "]"
| .object members =>
    "\x7b" ++ ",".intercalate (memberTexts members) ++ "\x7d"

/- The texts of the elements of an array. -/
def itemTexts : List Json → List String
| [] => []
| v :: rest => v.text :: itemTexts rest

/- The texts of the members of an object. -/
def memberTexts : List (String × Json) → List String
| [] => []
| (name, v) :: rest =>
    (stringText name ++ ":" ++ v.text) :: memberTexts rest

end

------------------------------------------------------------
-- Plain Data
------------------------------------------------------------

/- An integer between two bounds. -/
def asInt
    (lowest highest : Int) : Json → Except Error Int
| .int i =>
    if lowest ≤ i ∧ i ≤ highest then
      .ok i
    else
      .error (.json .unsuited)
| _ => .error (.json .unsuited)

/- A floating point number; integers are rounded to one. -/
def asFloat : Json → Except Error Binary64
| .int i => .ok (.ofInt i)
| .float x => .ok x
| _ => .error (.json .unsuited)

/- A text. -/
def asText : Json → Except Error String
| .str s => .ok s
| _ => .error (.json .unsuited)

/- A floating point number or nothing. -/
def asFloat? : Json → Except Error (Option Binary64)
| .null => .ok none
| v => v.asFloat.map some

/- A list of integers between two bounds. -/
def asInts
    (lowest highest : Int) : Json → Except Error (List Int)
| .array items => items.mapM (asInt lowest highest)
| _ => .error (.json .unsuited)

end Json

end Interop
