/-
  This file reads natural numbers of 64 bits from decimal
  digits: one plus sign may stand in front, at least one
  digit must follow, and leading zeros are harmless.

  Key definitions include:
    * `digitValue`
    * `digitsValue`
    * `readUnsigned`
-/

namespace Interop

namespace Text

/- The value of an ASCII digit. -/
def digitValue (c : Char) : Option Nat :=
  if c.isDigit then
    some (c.toNat - '0'.toNat)
  else
    none

/- The number written by a run of digits after `n`. -/
def digitsValueFrom : Nat → List Char → Option Nat
| n, [] => some n
| n, c :: rest =>
    match digitValue c with
    | some d => digitsValueFrom (10 * n + d) rest
    | none => none

/- The number written by digits, at least one of them. -/
def digitsValue : List Char → Option Nat
| [] => none
| cs => digitsValueFrom 0 cs

/- Read a number below `2 ^ 64`. -/
def readUnsigned (s : String) : Option Nat :=
  let digits :=
    match s.toList with
    | '+' :: rest => rest
    | cs => cs
  match digitsValue digits with
  | some n => if n < UInt64.size then some n else none
  | none => none

end Text

end Interop
