import Interop.Json.Number
import Interop.Json.Quotation

/-
  This file skips the values of JSON texts that nobody asks
  for. Their strings may hold unpaired halves, and their
  numbers may be of any size.

  Key definitions include:
    * `Json.skipString`
    * `Json.skipNumber`
    * `Json.skipValue`
-/

namespace Interop

namespace Json

------------------------------------------------------------
-- Strings
------------------------------------------------------------

/- Skip a string up to its closing quote. -/
def skipString : List UInt8 → Except Problem (List UInt8)
| [] => .error .truncated
| b :: rest =>
    if b = byte '"' then
      .ok rest
    else if b ≠ byte '\\' then
      if b.toNat < 0x20 then
        .error .malformed
      else
        skipString rest
    else
      match rest with
      | [] => .error .truncated
      | e :: more =>
          if (escapeValue e).isSome then
            skipString more
          else if e ≠ byte 'u' then
            .error .malformed
          else
            match more with
            | p :: q :: r :: t :: after =>
                if (hexValue4 p q r t).isSome then
                  skipString after
                else
                  .error .malformed
            | _ => .error .truncated

------------------------------------------------------------
-- Numbers
------------------------------------------------------------

/- Skip digits, at least one. -/
def skipDigits : List UInt8 → Except Problem (List UInt8)
| [] => .error .malformed
| b :: rest =>
    if isDigitByte b then
      .ok (rest.dropWhile isDigitByte)
    else
      .error .malformed

/- Skip an exponent, if there is one. -/
def skipExponent : List UInt8 → Except Problem (List UInt8)
| [] => .ok []
| b :: rest =>
    if isExponentByte b then
      match rest with
      | sign :: more =>
          if sign = byte '+' ∨ sign = byte '-' then
            skipDigits more
          else
            skipDigits rest
      | [] => skipDigits rest
    else
      .ok (b :: rest)

/- Skip a fraction and an exponent, if there are any. -/
def skipFraction : List UInt8 → Except Problem (List UInt8)
| [] => .ok []
| b :: rest =>
    if b = byte '.' then
      skipDigits rest >>= skipExponent
    else
      skipExponent (b :: rest)

/- Skip a number; its minus sign, if any, was seen. -/
def skipNumber : List UInt8 → Except Problem (List UInt8)
| [] => .error .malformed
| b :: rest =>
    if b = byte '0' then
      match rest with
      | d :: _ =>
          if isDigitByte d then
            .error .malformed
          else
            skipFraction rest
      | [] => skipFraction rest
    else if isDigitByte b then
      skipFraction (rest.dropWhile isDigitByte)
    else
      .error .malformed

------------------------------------------------------------
-- Values
------------------------------------------------------------

/- What a skipped value stands in. -/
inductive Frame where
| list : Frame
| object : Frame
deriving DecidableEq

/- The byte that closes a frame. -/
def Frame.closing : Frame → UInt8
| .list => byte ']'
| .object => byte '\x7d'

mutual

/- Skip a value that stands in frames, and the frames. -/
def skipWithin :
    Nat → List Frame → List UInt8 →
      Except Problem (List UInt8)
| 0, _, _ => .error .truncated
| fuel + 1, frames, input =>
    match skipBlanks input with
    | [] => .error .truncated
    | b :: rest =>
        let scalar (r : Except Problem (List UInt8)) :=
          match r with
          | .ok after => skipAfter fuel frames after
          | .error p => .error p
        if b = byte 'n' then
          scalar (expectWord "ull" rest)
        else if b = byte 't' then
          scalar (expectWord "rue" rest)
        else if b = byte 'f' then
          scalar (expectWord "alse" rest)
        else if b = byte '-' then
          scalar (skipNumber rest)
        else if isDigitByte b then
          scalar (skipNumber (b :: rest))
        else if b = byte '"' then
          scalar (skipString rest)
        else if b = byte '[' then
          skipOpened fuel .list frames rest
        else if b = byte '\x7b' then
          skipOpened fuel .object frames rest
        else
          .error .malformed

/- Go on after a value that stands in frames. -/
def skipAfter :
    Nat → List Frame → List UInt8 →
      Except Problem (List UInt8)
| 0, _, _ => .error .truncated
| _ + 1, [], input => .ok input
| fuel + 1, frame :: outer, input =>
    match skipBlanks input with
    | [] => .error .truncated
    | b :: rest =>
        if b = byte ',' then
          skipNext fuel frame outer rest
        else if b = frame.closing then
          skipAfter fuel outer rest
        else
          .error .malformed

/- Go on after the opening of a frame. -/
def skipOpened :
    Nat → Frame → List Frame → List UInt8 →
      Except Problem (List UInt8)
| 0, _, _, _ => .error .truncated
| fuel + 1, frame, outer, input =>
    match skipBlanks input with
    | [] => .error .truncated
    | b :: rest =>
        if b = frame.closing then
          skipAfter fuel outer rest
        else
          skipNext fuel frame outer input

/- Skip the next element or member of a frame. -/
def skipNext :
    Nat → Frame → List Frame → List UInt8 →
      Except Problem (List UInt8)
| 0, _, _, _ => .error .truncated
| fuel + 1, .list, outer, input =>
    skipWithin fuel (.list :: outer) input
| fuel + 1, .object, outer, input =>
    match expectMark '"' input with
    | .error p => .error p
    | .ok quoted =>
        match skipString quoted with
        | .error p => .error p
        | .ok after =>
            match expectMark ':' after with
            | .error p => .error p
            | .ok rest =>
                skipWithin fuel (.object :: outer) rest

end

/-
  Skip a value. Between two bytes of the text at most three
  steps are taken.
-/
def skipValue
    (input : List UInt8) : Except Problem (List UInt8) :=
  skipWithin (4 * input.length + 4) [] input

end Json

end Interop
