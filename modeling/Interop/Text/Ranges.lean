/-
  This file defines sets of characters given by ranges of
  code points, the form in which character properties are
  published.

  Key definitions include:
    * `CodePoints`
    * `CodePoints.contains`
    * `CodePoints.Ascending`
-/

namespace Interop

/- Ranges of code points, first and last included. -/
abbrev CodePoints :=
  List (Nat × Nat)

namespace CodePoints

/- A character lies in one of the ranges. -/
def contains
    (ranges : CodePoints)
    (c : Char) : Bool :=
  ranges.any fun r => decide (r.1 ≤ c.toNat ∧ c.toNat ≤ r.2)

/- The ranges ascend and do not touch each other. -/
def Ascending : CodePoints → Prop
| [] => True
| [r] => r.1 ≤ r.2
| r :: s :: rest =>
    r.1 ≤ r.2 ∧ r.2 + 1 < s.1 ∧ Ascending (s :: rest)

end CodePoints

end Interop
