import Interop.Json.Bytes

/-
  This file scans the strings of JSON texts. Escapes stand
  for characters; those beyond the first plane are written
  as two halves, which must come in pairs.

  Key definitions include:
    * `Json.hexValue4`
    * `Json.escapeValue`
    * `Json.scanString`
-/

namespace Interop

namespace Json

/- The value of a hexadecimal digit. -/
def hexValue (b : UInt8) : Option Nat :=
  let n := b.toNat
  if 0x30 ≤ n ∧ n ≤ 0x39 then
    some (n - 0x30)
  else if 0x41 ≤ n ∧ n ≤ 0x46 then
    some (n - 0x41 + 10)
  else if 0x61 ≤ n ∧ n ≤ 0x66 then
    some (n - 0x61 + 10)
  else
    none

/- The value of four hexadecimal digits. -/
def hexValue4 (a b c d : UInt8) : Option Nat :=
  match hexValue a, hexValue b, hexValue c, hexValue d with
  | some x, some y, some z, some w =>
      some (((x * 16 + y) * 16 + z) * 16 + w)
  | _, _, _, _ => none

/- The byte that a one-letter escape stands for. -/
def escapeValue (b : UInt8) : Option UInt8 :=
  if b = byte '"' ∨ b = byte '\\' ∨ b = byte '/' then
    some b
  else if b = byte 'b' then
    some 0x08
  else if b = byte 'f' then
    some 0x0C
  else if b = byte 'n' then
    some 0x0A
  else if b = byte 'r' then
    some 0x0D
  else if b = byte 't' then
    some 0x09
  else
    none

/- The bytes of a code point. -/
def codePointBytes (n : Nat) : List UInt8 :=
  Text.bytes (String.ofList [Char.ofNat n])

/- The low half of a surrogate pair, from its digits. -/
def lowHalf (a b c d : UInt8) : Option Nat :=
  match hexValue4 a b c d with
  | some n =>
      if 0xDC00 ≤ n ∧ n ≤ 0xDFFF then some n else none
  | none => none

/- The bytes of the code point that two halves give. -/
def pairBytes (high low : Nat) : List UInt8 :=
  codePointBytes
    (0x10000 + (high - 0xD800) * 0x400 + (low - 0xDC00))

/- Put bytes in front of those scanned. -/
def prepend
    (bytes : List UInt8)
    (scanned : Except Problem (List UInt8 × List UInt8)) :
    Except Problem (List UInt8 × List UInt8) :=
  scanned.map fun r => (bytes ++ r.1, r.2)

/-
  Scan a string up to its closing quote; the opening quote
  was seen. Surrogates must come in pairs.
-/
def scanString : Scan (List UInt8)
| [] => .error .truncated
| b :: rest =>
    if b = byte '"' then
      .ok ([], rest)
    else if b ≠ byte '\\' then
      if b.toNat < 0x20 then
        .error .malformed
      else
        prepend [b] (scanString rest)
    else
      match rest with
      | [] => .error .truncated
      | e :: more =>
          match escapeValue e with
          | some v => prepend [v] (scanString more)
          | none =>
              if e ≠ byte 'u' then
                .error .malformed
              else
                match more with
                | p :: q :: r :: t :: after =>
                    match hexValue4 p q r t with
                    | none => .error .malformed
                    | some n =>
                        if 0xDC00 ≤ n ∧ n ≤ 0xDFFF then
                          .error .malformed
                        else if n < 0xD800 ∨ 0xDFFF < n then
                          prepend (codePointBytes n)
                            (scanString after)
                        else
                          match after with
                          | [] => .error .truncated
                          | [m] =>
                              if m = byte '\\' then
                                .error .truncated
                              else
                                .error .malformed
                          | m :: k :: code =>
                              if m ≠ byte '\\' ∨
                                  k ≠ byte 'u' then
                                .error .malformed
                              else
                                match code with
                                | p :: q :: r :: t :: last =>
                                    match lowHalf p q r t with
                                    | none =>
                                        .error .malformed
                                    | some low =>
                                        prepend
                                          (pairBytes n low)
                                          (scanString last)
                                | _ => .error .truncated
                | _ => .error .truncated

end Json

end Interop
