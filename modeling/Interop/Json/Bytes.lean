import Interop.Error
import Interop.Text.Encoding

/-
  This file defines JSON texts as bytes, and how the bytes
  that must come next are passed over. The first problem met
  is the one reported.

  Key definitions include:
    * `Json.Scan`
    * `Json.skipBlanks`
    * `Json.expectWord`
    * `Json.expectMark`
-/

namespace Interop

namespace Json

/- What is left of a text after a part was scanned. -/
abbrev Scan (α : Type) :=
  List UInt8 → Except Problem (α × List UInt8)

/- The byte of an ASCII character. -/
def byte (c : Char) : UInt8 :=
  .ofNat c.toNat

/- The bytes that may stand between the parts of a text. -/
def isBlankByte (b : UInt8) : Bool :=
  b == 0x20 || b == 0x0A || b == 0x09 || b == 0x0D

/- A text without the blanks in front. -/
def skipBlanks (input : List UInt8) : List UInt8 :=
  input.dropWhile isBlankByte

/- A digit. -/
def isDigitByte (b : UInt8) : Bool :=
  decide (0x30 ≤ b.toNat ∧ b.toNat ≤ 0x39)

/- The mark of an exponent. -/
def isExponentByte (b : UInt8) : Bool :=
  b == byte 'e' || b == byte 'E'

/- Skip the given bytes. -/
def expectBytes :
    List UInt8 → List UInt8 → Except Problem (List UInt8)
| [], input => .ok input
| _ :: _, [] => .error .truncated
| e :: es, b :: rest =>
    if b = e then expectBytes es rest else .error .malformed

/- Skip the rest of a word whose first byte was seen. -/
def expectWord
    (rest : String)
    (input : List UInt8) : Except Problem (List UInt8) :=
  expectBytes (Text.bytes rest) input

/- Skip one byte, after blanks. -/
def expectMark
    (c : Char)
    (input : List UInt8) : Except Problem (List UInt8) :=
  match skipBlanks input with
  | [] => .error .truncated
  | b :: rest =>
      if b = byte c then .ok rest else .error .malformed

end Json

end Interop
