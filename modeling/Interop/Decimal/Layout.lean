import Interop.Decimal.Shortest

/-
  This file lays out selected decimals as text. The
  decisions of one kind of output are the fields of a
  `Layout`; the layout function reads them and nothing else.

  Key definitions include:
    * `Layout`
    * `Layout.magnitudeText`
    * `Layout.text`
-/

namespace Interop

/-
  How numbers are written: the leading digit's exponents
  that are written without an exponent, whether whole
  numbers show a zero after the point, whether a positive
  exponent shows its sign, and which of two equally near
  decimals is taken.
-/
structure Layout where
  plainFrom : Option Int
  plainBelow : Option Int
  pointZero : Bool
  plusSign : Bool
  tie : Decimal.Tie
deriving DecidableEq, Repr

namespace Layout

/- A run of zero digits. -/
def zeros (n : Nat) : String :=
  String.ofList (List.replicate n '0')

/- An exponent is written positionally under a layout. -/
def isPlain
    (l : Layout)
    (e : Int) : Bool :=
  l.plainFrom.all (decide <| · ≤ e) &&
    l.plainBelow.all (decide <| e < ·)

/- A decimal written with all its places. -/
def plainText
    (l : Layout)
    (d : Decimal) : String :=
  let digits := Nat.toDigits 10 d.digits
  let point : Int := digits.length + d.exponent
  if 0 ≤ d.exponent then
    String.ofList digits ++ zeros d.exponent.toNat ++
      (if l.pointZero then ".0" else "")
  else if 0 < point then
    String.ofList (digits.take point.toNat) ++ "." ++
      String.ofList (digits.drop point.toNat)
  else
    "0." ++ zeros (-point).toNat ++ String.ofList digits

/- A decimal written with one digit before the point. -/
def exponentText
    (l : Layout)
    (d : Decimal)
    (e : Int) : String :=
  let digits := Nat.toDigits 10 d.digits
  let rest := digits.drop 1
  String.ofList (digits.take 1) ++
    (if rest.isEmpty then "" else "." ++ String.ofList rest) ++
    "e" ++
    (if e < 0 then "-" else if l.plusSign then "+" else "") ++
    Nat.repr e.natAbs

/- The text of the absolute value of a finite number. -/
def magnitudeText
    (l : Layout)
    (x : Binary64) : String :=
  let d := Decimal.shortest l.tie x
  let e := Decimal.digitCount d.digits + d.exponent - 1
  if d.digits = 0 ∨ l.isPlain e then
    l.plainText d
  else
    l.exponentText d e

/-
  The text of a number. What is not a number has no sign;
  zero has one.
-/
def text
    (l : Layout)
    (x : Binary64) : String :=
  if x.isNaN then
    "NaN"
  else
    (if x.negative then "-" else "") ++
      (if x.isFinite then l.magnitudeText x else "inf")

end Layout

end Interop
