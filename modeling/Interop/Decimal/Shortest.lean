import Interop.Binary64

/-
  This file selects the decimal that stands for a binary
  number in a text: the one with the fewest digits that
  reads back as that number, and of those the nearest.

  Everything is compared exactly, by cross-multiplying
  naturals.

  Key definitions include:
    * `Decimal`
    * `Decimal.readsBack`
    * `Decimal.Tie`
    * `Decimal.shortest`
-/

namespace Interop

/- The decimal number `digits * 10 ^ exponent`. -/
structure Decimal where
  digits : Nat
  exponent : Int
deriving DecidableEq, Repr

namespace Decimal

------------------------------------------------------------
-- Exact Comparison
------------------------------------------------------------

/- Compare a decimal with the fraction `num / den`. -/
def compareWith
    (d : Decimal)
    (num den : Nat) : Ordering :=
  compare
    (d.digits * Nat.pow 10 d.exponent.toNat * den)
    (num * Nat.pow 10 (-d.exponent).toNat)

/-
  The absolute value of a finite number is the fraction
  `numerator x / denominator x`.
-/
def numerator (x : Binary64) : Nat :=
  x.significand <<< x.scale.toNat

/- The denominator of the absolute value. -/
def denominator (x : Binary64) : Nat :=
  1 <<< (-x.scale).toNat

/-
  The gap to the number below is half the gap to the number
  above when the significand is the least of its exponent.
-/
def narrowBelow (x : Binary64) : Bool :=
  x.magnitude % implicitBit == 0 &&
    decide (1 < x.exponentField)

/-
  A decimal reads back as a number when it lies between the
  points halfway to the neighbours of that number. The
  halfway points themselves go to the even significand.
-/
def readsBack
    (x : Binary64)
    (d : Decimal) : Bool :=
  let unit := 1 <<< x.scale.toNat
  let below := if narrowBelow x then 1 else 2
  let low := (4 * x.significand - below) * unit
  let high := (4 * x.significand + 2) * unit
  let even := x.significand % 2 == 0
  let fromLow := d.compareWith low (4 * denominator x)
  let fromHigh := d.compareWith high (4 * denominator x)
  (fromLow == .gt || (even && fromLow == .eq)) &&
    (fromHigh == .lt || (even && fromHigh == .eq))

------------------------------------------------------------
-- Search
------------------------------------------------------------

/- Which of two equally near decimals is taken. -/
inductive Tie where
| even : Tie
| up : Tie
deriving DecidableEq, Repr

/- The count of decimal digits of a natural number. -/
def digitCount (n : Nat) : Nat :=
  (Nat.toDigits 10 n).length

/-
  The least `k` for which a positive fraction is below
  `10 ^ k`.
-/
def magnitudeOf (num den : Nat) : Int :=
  if den ≤ num then
    digitCount (num / den)
  else
    1 - (digitCount ((num + den - 1) / num - 1) : Int)

/-
  Of the two multiples of `10 ^ exponent` around a number,
  the one that reads back; of two the nearer.
-/
def onGrid
    (tie : Tie)
    (x : Binary64)
    (exponent : Int) : Option Decimal :=
  let num := numerator x
  let den := denominator x
  let floor :=
    num * Nat.pow 10 (-exponent).toNat /
      (den * Nat.pow 10 exponent.toNat)
  let lower : Decimal := ⟨floor, exponent⟩
  let upper : Decimal := ⟨floor + 1, exponent⟩
  let middle : Decimal := ⟨2 * floor + 1, exponent⟩
  match readsBack x lower, readsBack x upper with
  | true, false => some lower
  | false, true => some upper
  | false, false => none
  | true, true =>
      match middle.compareWith (2 * num) den, tie with
      | .gt, _ => some lower
      | .lt, _ => some upper
      | .eq, .up => some upper
      | .eq, .even =>
          some (if floor % 2 = 0 then lower else upper)

/- A decimal without its trailing zero digits. -/
def stripZeros (d : Decimal) : Decimal :=
  if h : d.digits ≠ 0 ∧ d.digits % 10 = 0 then
    stripZeros ⟨d.digits / 10, d.exponent + 1⟩
  else
    d
termination_by d.digits
decreasing_by
  exact Nat.div_lt_self (Nat.pos_of_ne_zero h.1) (by decide)

/- The decimal that is exactly the absolute value. -/
def exact (x : Binary64) : Decimal :=
  if 0 ≤ x.scale then
    ⟨numerator x, 0⟩
  else
    ⟨x.significand * Nat.pow 5 (-x.scale).toNat, x.scale⟩

/-
  The shortest decimal that reads back as the absolute value
  of a finite number. One digit is tried first, then two,
  and so on; seventeen suffice.
-/
def shortest
    (tie : Tie)
    (x : Binary64) : Decimal :=
  if x.magnitude = 0 then
    ⟨0, 0⟩
  else
    let top := magnitudeOf (numerator x) (denominator x)
    let found :=
      (List.range 17).findSome? fun (n : Nat) =>
        onGrid tie x (top - ((n : Int) + 1))
    stripZeros (found.getD (exact x))

end Decimal

end Interop
