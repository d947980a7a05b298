import Interop.Binary64
import Interop.Json.Bytes

/-
  This file scans the numbers of JSON texts. Natural numbers
  and negative integers of 64 bits are told apart from all
  other numbers. A number too large for a floating point
  number is a problem.

  Key definitions include:
    * `Json.Number`
    * `Json.isOverflowing`
    * `Json.scanNumber`
-/

namespace Interop

namespace Json

/-
  A scanned number. Of numbers with a fraction or an
  exponent, and of integers beyond 64 bits, only the form is
  kept.
-/
inductive Number where
| natural (n : Nat) : Number
| negative (n : Nat) : Number
| fractional : Number
deriving DecidableEq, Repr

/-
  Take digits into a significand of 64 bits until one does
  not fit; the second component counts those left over.
-/
def takeDigits : Nat → List UInt8 → Nat × Nat
| n, [] => (n, 0)
| n, b :: rest =>
    let next := n * 10 + (b.toNat - 0x30)
    if next < UInt64.size then
      takeDigits next rest
    else
      (n, rest.length + 1)

/-
  A decimal is too large for a floating point number when
  the product of its rounded significand and the rounded
  power of ten is rounded to more than 1024 bits.
-/
def isOverflowing
    (significand : Nat)
    (exponent : Int) : Bool :=
  if significand = 0 ∨ exponent < 0 then
    false
  else if 308 < exponent then
    true
  else
    let product :=
      Rounding.significant53 significand *
        Rounding.significant53 (Nat.pow 10 exponent.toNat)
    decide (1024 ≤ (Rounding.significant53 product).log2)

/- A number with a fraction or an exponent, if it fits. -/
def fractionalNumber
    (significand : Nat)
    (exponent : Int) : Scan Number :=
  fun input =>
    if isOverflowing significand exponent then
      .error .malformed
    else
      .ok (.fractional, input)

/- Scan an exponent; its mark was seen. -/
def scanExponent
    (significand : Nat)
    (exponent : Int) : Scan Number :=
  fun input =>
    let (negative, rest) :=
      match input with
      | b :: more =>
          if b = byte '-' then
            (true, more)
          else if b = byte '+' then
            (false, more)
          else
            (false, input)
      | [] => (false, input)
    match rest with
    | [] => .error .truncated
    | b :: _ =>
        if isDigitByte b then
          let digits := rest.takeWhile isDigitByte
          let e : Int :=
            digits.foldl (fun n d => n * 10 + (d.toNat - 0x30)) 0
          fractionalNumber significand
            (if negative then exponent - e else exponent + e)
            (rest.dropWhile isDigitByte)
        else
          .error .malformed

/- Scan what may follow the digits of a number. -/
def scanExponentMark
    (significand : Nat)
    (exponent : Int) : Scan Number :=
  fun input =>
    match input with
    | b :: rest =>
        if isExponentByte b then
          scanExponent significand exponent rest
        else
          fractionalNumber significand exponent input
    | [] => fractionalNumber significand exponent input

/- Scan a fraction; its point was seen. -/
def scanFraction
    (significand : Nat)
    (exponent : Int) : Scan Number :=
  fun input =>
    let digits := input.takeWhile isDigitByte
    let rest := input.dropWhile isDigitByte
    match digits, rest with
    | [], [] => .error .truncated
    | [], _ :: _ => .error .malformed
    | _ :: _, _ =>
        let (n, dropped) := takeDigits significand digits
        scanExponentMark n
          (exponent - (digits.length - dropped : Nat)) rest

/-
  An integer without fraction and exponent. Minus zero and
  what does not fit in 64 bits are no integers.
-/
def integerNumber
    (negative : Bool)
    (n : Nat) : Number :=
  if negative then
    if n = 0 ∨ UInt64.size / 2 < n then
      .fractional
    else
      .negative n
  else
    .natural n

/- Scan what follows the integer digits of a number. -/
def scanAfterInteger
    (negative : Bool)
    (digits : List UInt8) : Scan Number :=
  fun input =>
    let (n, dropped) := takeDigits 0 digits
    match input with
    | b :: rest =>
        if b = byte '.' then
          scanFraction n dropped rest
        else if isExponentByte b then
          scanExponent n dropped rest
        else if dropped = 0 then
          .ok (integerNumber negative n, input)
        else
          fractionalNumber n dropped input
    | [] =>
        if dropped = 0 then
          .ok (integerNumber negative n, input)
        else
          fractionalNumber n dropped input

/- Scan a number; its minus sign, if any, was seen. -/
def scanNumber (negative : Bool) : Scan Number
| [] => .error .truncated
| b :: rest =>
    if b = byte '0' then
      match rest with
      | d :: _ =>
          if isDigitByte d then
            .error .malformed
          else
            scanAfterInteger negative [b] rest
      | [] => scanAfterInteger negative [b] rest
    else if isDigitByte b then
      scanAfterInteger negative
        (b :: rest.takeWhile isDigitByte)
        (rest.dropWhile isDigitByte)
    else
      .error .malformed

end Json

end Interop
