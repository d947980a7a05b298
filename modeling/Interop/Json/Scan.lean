import Interop.Json.Number
import Interop.Json.Quotation

/-
  This file scans values of the form that is asked for. A
  value of another form is scanned as well before it is
  refused, so that a text that is no JSON is reported as
  such.

  Key definitions include:
    * `Json.refusal`
    * `Json.scanBool`
    * `Json.scanSize`
    * `Json.scanNull`
-/

namespace Interop

namespace Json

/-
  Why a value is not of the form asked for. The value is
  scanned first, so that a text that is no JSON is reported
  as such.
-/
def refusal (input : List UInt8) : Problem :=
  let after {α : Type} (r : Except Problem α) : Problem :=
    match r with
    | .ok _ => .unsuited
    | .error p => p
  match input with
  | [] => .malformed
  | b :: rest =>
      if b = byte 'n' then
        after (expectWord "ull" rest)
      else if b = byte 't' then
        after (expectWord "rue" rest)
      else if b = byte 'f' then
        after (expectWord "alse" rest)
      else if b = byte '-' then
        after (scanNumber true rest)
      else if isDigitByte b then
        after (scanNumber false input)
      else if b = byte '"' then
        after (scanString rest)
      else if b = byte '[' ∨ b = byte '\x7b' then
        .unsuited
      else
        .malformed

/- Scan a truth value. -/
def scanBool : Scan Bool :=
  fun input =>
    match skipBlanks input with
    | [] => .error .truncated
    | b :: rest =>
        if b = byte 't' then
          (expectWord "rue" rest).map (true, ·)
        else if b = byte 'f' then
          (expectWord "alse" rest).map (false, ·)
        else
          .error (refusal (b :: rest))

/- Scan a natural number of 64 bits. -/
def scanSize : Scan Nat :=
  fun input =>
    match skipBlanks input with
    | [] => .error .truncated
    | b :: rest =>
        let scanned :=
          if b = byte '-' then
            scanNumber true rest
          else if isDigitByte b then
            scanNumber false (b :: rest)
          else
            .error (refusal (b :: rest))
        match scanned with
        | .ok (.natural n, after) => .ok (n, after)
        | .ok _ => .error .unsuited
        | .error p => .error p

/- Scan the word for nothing. -/
def scanNull : Scan Unit :=
  fun input =>
    match skipBlanks input with
    | [] => .error .truncated
    | b :: rest =>
        if b = byte 'n' then
          (expectWord "ull" rest).map ((), ·)
        else
          .error (refusal (b :: rest))

/- Nothing but blanks may follow a document. -/
def expectEnd (input : List UInt8) : Except Problem Unit :=
  if (skipBlanks input).isEmpty then
    .ok ()
  else
    .error .malformed

end Json

end Interop
