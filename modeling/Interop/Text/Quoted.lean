import Interop.Text.Extending
import Interop.Text.Ignorable
import Interop.Text.Unprintable

/-
  This file writes texts between double quotes so that every
  character can be seen: quotes and backslashes are escaped,
  the usual controls have letters, and characters that have
  no printed form, that would join the one before them or
  that may be left out unseen are given by their code point.

  Key definitions include:
    * `isElusive`
    * `escaped`
    * `quoted`
-/

namespace Interop

namespace Text

/- The code point of a character in hexadecimal. -/
def codePoint (c : Char) : List Char :=
  ['\\', 'u', '\x7b'] ++ Nat.toDigits 16 c.toNat ++ ['\x7d']

/-
  A character that a reader could miss or take for a part of
  the one before it.
-/
def isElusive (c : Char) : Bool :=
  isExtending c || isIgnorable c || isUnprintable c

/- A character as it stands between quotes. -/
def escaped (c : Char) : List Char :=
  if c = '"' ∨ c = '\\' then
    ['\\', c]
  else if c = '\n' then
    ['\\', 'n']
  else if c = '\r' then
    ['\\', 'r']
  else if c = '\t' then
    ['\\', 't']
  else if c.toNat = 0 then
    ['\\', '0']
  else if 0x20 ≤ c.toNat ∧ c.toNat < 0x7F then
    [c]
  else if isElusive c then
    codePoint c
  else
    [c]

/- A text between double quotes. -/
def quoted (s : String) : String :=
  String.ofList (['"'] ++ s.toList.flatMap escaped ++ ['"'])

end Text

end Interop
