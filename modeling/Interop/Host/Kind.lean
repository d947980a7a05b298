import Interop.Binary64

/-
  This file defines the widths of host integers and of host
  floating point numbers.

  Key definitions include:
    * `IntKind`
    * `IntKind.contains`
    * `FloatKind`
    * `FloatKind.narrow`
-/

namespace Interop

------------------------------------------------------------
-- Integers
------------------------------------------------------------

/- The width and signedness of a host integer. -/
inductive IntKind where
| i8 : IntKind
| i16 : IntKind
| i32 : IntKind
| i64 : IntKind
| u8 : IntKind
| u16 : IntKind
| u32 : IntKind
| u64 : IntKind
deriving DecidableEq, Repr

namespace IntKind

/- Every integer kind, signed kinds first. -/
def all : List IntKind :=
  [i8, i16, i32, i64, u8, u16, u32, u64]

/- Kinds without negative values. -/
def isUnsigned : IntKind → Bool
| .i8 | .i16 | .i32 | .i64 => false
| .u8 | .u16 | .u32 | .u64 => true

/- The least value of a kind. -/
def lowest : IntKind → Int
| .i8 => -0x80
| .i16 => -0x8000
| .i32 => -0x80000000
| .i64 => -0x8000000000000000
| .u8 | .u16 | .u32 | .u64 => 0

/- The greatest value of a kind. -/
def highest : IntKind → Int
| .i8 => 0x7F
| .i16 => 0x7FFF
| .i32 => 0x7FFFFFFF
| .i64 => 0x7FFFFFFFFFFFFFFF
| .u8 => 0xFF
| .u16 => 0xFFFF
| .u32 => 0xFFFFFFFF
| .u64 => 0xFFFFFFFFFFFFFFFF

/- An integer lies in the range of a kind. -/
def contains
    (k : IntKind)
    (i : Int) : Bool :=
  decide (k.lowest ≤ i ∧ i ≤ k.highest)

/- The name of a kind. -/
def text : IntKind → String
| .i8 => "i8"
| .i16 => "i16"
| .i32 => "i32"
| .i64 => "i64"
| .u8 => "u8"
| .u16 => "u16"
| .u32 => "u32"
| .u64 => "u64"

/- Membership is the range between the bounds. -/
theorem contains_iff
    (k : IntKind)
    (i : Int) :
    k.contains i = true ↔ k.lowest ≤ i ∧ i ≤ k.highest := by
  simp [contains]

/- An unsigned kind holds no negative number. -/
theorem lowest_eq_zero
    {k : IntKind}
    (hUnsigned : k.isUnsigned = true) :
    k.lowest = 0 := by
  cases k with
  | u8 | u16 | u32 | u64 => rfl
  | _ => simp [isUnsigned] at hUnsigned

end IntKind

------------------------------------------------------------
-- Floating Point Numbers
------------------------------------------------------------

/-
  The width of a host floating point number, and of either
  part of a host complex number.
-/
inductive FloatKind where
| f32 : FloatKind
| f64 : FloatKind
deriving DecidableEq, Repr

namespace FloatKind

/- Both kinds, the narrower first. -/
def all : List FloatKind :=
  [f32, f64]

/- Round a number to the precision that a kind stores. -/
def narrow : FloatKind → Binary64 → Binary64
| .f32, x => x.narrow
| .f64, x => x

/- The name of a kind. -/
def text : FloatKind → String
| .f32 => "f32"
| .f64 => "f64"

/- Double precision keeps every number. -/
theorem narrow_f64
    (x : Binary64) :
    FloatKind.f64.narrow x = x := rfl

end FloatKind

end Interop
