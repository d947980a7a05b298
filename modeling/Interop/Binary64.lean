/-
  This file defines 64-bit binary floating point numbers by
  their IEEE 754 encoding: a sign, and the other 63 bits
  read as one natural number, the magnitude. Magnitudes are
  ordered as the absolute values they encode, which is what
  rounding works on.

  Nothing here computes with machine floats, so every
  statement about a number is a statement about naturals.

  Key definitions include:
    * `Binary64`
    * `Binary64.ofBits`
    * `Binary64.numEq`
    * `Binary64.narrow`
    * `Binary64.ofInt`
-/

namespace Interop

------------------------------------------------------------
-- Rounding Naturals
------------------------------------------------------------

namespace Rounding

/-
  The quotient of `n` by `2 ^ k`, rounded to the nearest
  natural, a half going to the even neighbour.
-/
def halfEven (n k : Nat) : Nat :=
  let unit := 1 <<< k
  let q := n / unit
  let r := n % unit
  if unit < 2 * r ∨ (2 * r = unit ∧ q % 2 = 1) then
    q + 1
  else
    q

/-
  The nearest natural with at most 53 significant bits, a
  half going to the even neighbour.
-/
def significant53 (n : Nat) : Nat :=
  let k := n.log2 - 52
  halfEven n k <<< k

/- A power of two is positive. -/
theorem shiftLeft_pos
    (k : Nat) :
    0 < 1 <<< k := by
  rw [Nat.one_shiftLeft]
  exact Nat.two_pow_pos k

/- A quotient that is exact is kept. -/
theorem halfEven_shiftLeft
    (n k : Nat) :
    halfEven (n <<< k) k = n := by
  have hPos := shiftLeft_pos k
  have hUnit : n <<< k = n * 1 <<< k := by
    rw [Nat.shiftLeft_eq, Nat.one_shiftLeft]
  have hNe : 0 ≠ 1 <<< k := Nat.ne_of_lt hPos
  rw [hUnit]
  simp only [halfEven, Nat.mul_div_cancel _ hPos,
    Nat.mul_mod_left, Nat.mul_zero, Nat.not_lt_zero, hNe,
    false_and, or_self, if_false]

/- Rounding is off by at most one unit. -/
theorem halfEven_le
    (n k : Nat) :
    halfEven n k ≤ n / 1 <<< k + 1 := by
  simp only [halfEven]
  split <;> omega

end Rounding

------------------------------------------------------------
-- Encodings
------------------------------------------------------------

/- The sign bit stands above the 63 bits of a magnitude. -/
abbrev signBit : Nat :=
  0x8000000000000000

/-
  The leading bit of most significands, which is not stored;
  it stands above the 52 bits of a fraction.
-/
abbrev implicitBit : Nat :=
  0x10000000000000

/- A binary floating point number of 64 bits. -/
structure Binary64 where
  negative : Bool
  magnitude : Nat
  magnitude_lt : magnitude < signBit
deriving DecidableEq

namespace Binary64

/- The number with the given encoding. -/
def ofBits (bits : UInt64) : Binary64 where
  negative := decide (signBit ≤ bits.toNat)
  magnitude := bits.toNat % signBit
  magnitude_lt := Nat.mod_lt _ (by decide)

/- The encoding of a number. -/
def toBits (x : Binary64) : UInt64 :=
  .ofNat ((if x.negative then signBit else 0) + x.magnitude)

/- Positive zero. -/
def zero : Binary64 :=
  ⟨false, 0, by decide⟩

instance : Inhabited Binary64 := ⟨zero⟩

/- The magnitude of the infinities. -/
abbrev infinity : Nat :=
  2047 * implicitBit

/- Magnitudes above that of infinity are not numbers. -/
def isNaN (x : Binary64) : Bool :=
  decide (infinity < x.magnitude)

/- Infinities and what is not a number are not finite. -/
def isFinite (x : Binary64) : Bool :=
  decide (x.magnitude < infinity)

/- The eleven bits that hold the exponent. -/
def exponentField (x : Binary64) : Nat :=
  x.magnitude / implicitBit

/- The significand that belongs to a magnitude. -/
def significandOf (a : Nat) : Nat :=
  if a / implicitBit = 0 then
    a
  else
    implicitBit + a % implicitBit

/- The integer that is scaled by a power of two. -/
def significand (x : Binary64) : Nat :=
  significandOf x.magnitude

/-
  The power of two that scales the significand, so that a
  finite number has absolute value
  `significand * 2 ^ scale`.
-/
def scale (x : Binary64) : Int :=
  if x.exponentField = 0 then
    -1074
  else
    x.exponentField - 1075

/-
  Numeric equality: zeros of either sign are equal, and what
  is not a number equals nothing.
-/
def numEq (x y : Binary64) : Bool :=
  !x.isNaN && !y.isNaN &&
    (x == y || (x.magnitude == 0 && y.magnitude == 0))

/- Strictly less than zero. -/
def isBelowZero (x : Binary64) : Bool :=
  x.negative && !x.isNaN && x.magnitude != 0

/- The absolute value of a number. -/
def abs (x : Binary64) : Binary64 :=
  { x with negative := false }

------------------------------------------------------------
-- Multiples of a Power of Two
------------------------------------------------------------

/-
  The magnitude of `u` units of `2 ^ (bias - 1023)`, for a
  positive `u` with at most 53 significant bits.
-/
def unitsMagnitude (bias u : Nat) : Nat :=
  let top := 1 <<< u.log2
  (u.log2 + bias) * implicitBit +
    (u - top) * implicitBit / top

/- The leading bit of `u` fixes the exponent field. -/
theorem unitsMagnitude_lt
    (bias : Nat)
    {u : Nat}
    (hPos : u ≠ 0) :
    unitsMagnitude bias u <
      (u.log2 + bias + 1) * implicitBit := by
  have hTop : u < 2 * 1 <<< u.log2 := by
    rw [Nat.one_shiftLeft, Nat.mul_comm, ← Nat.pow_succ]
    exact (Nat.log2_lt hPos).mp (Nat.lt_succ_self _)
  have hRest : u - 1 <<< u.log2 < 1 <<< u.log2 := by
    have hOne := Rounding.shiftLeft_pos u.log2
    omega
  have hFraction :
      (u - 1 <<< u.log2) * implicitBit / 1 <<< u.log2 <
        implicitBit := by
    apply Nat.div_lt_of_lt_mul
    exact Nat.mul_lt_mul_of_pos_right hRest (by decide)
  rw [Nat.add_mul (u.log2 + bias) 1, Nat.one_mul]
  exact Nat.add_lt_add_left hFraction _

------------------------------------------------------------
-- Narrowing to Single Precision
------------------------------------------------------------

/-
  Single precision has 23 of the 52 fraction bits, so its
  numbers are multiples of this one, 29 bits further up.
-/
abbrev singleUnit : Nat :=
  0x20000000

/-
  What is not a number stays so: the upper 23 fraction bits
  are kept and the uppermost is set.
-/
def singleNaN (a : Nat) : Nat :=
  let top := a % implicitBit / singleUnit
  infinity +
    (if top < 0x400000 then top + 0x400000 else top) *
      singleUnit

/-
  From `2 ^ (-126)` on, 29 bits are rounded away; from
  `2 ^ 128` on the result is infinite.
-/
def singleNormal (a : Nat) : Nat :=
  let r := Rounding.halfEven a 29 * singleUnit
  if 1151 * implicitBit ≤ r then infinity else r

/-
  Below `2 ^ (-126)` single precision counts units of
  `2 ^ (-149)`.
-/
def singleTiny (a : Nat) : Nat :=
  let u :=
    Rounding.halfEven (significandOf a)
      (926 - max (a / implicitBit) 1)
  if u = 0 then 0 else unitsMagnitude 874 u

/-
  The magnitude of the nearest number of single precision,
  a half going to the even neighbour.
-/
def singleMagnitude (a : Nat) : Nat :=
  if infinity < a then
    singleNaN a
  else if 897 * implicitBit ≤ a then
    singleNormal a
  else
    singleTiny a

/- A significand has 53 bits. -/
theorem significandOf_lt
    (a : Nat) :
    significandOf a < 2 * implicitBit := by
  simp only [significandOf, implicitBit]
  split <;> omega

/- Narrowing what is not a number gives an encoding. -/
theorem singleNaN_lt
    (a : Nat) :
    singleNaN a < signBit := by
  simp only [singleNaN, infinity, implicitBit, singleUnit,
    signBit]
  split <;> omega

/- Narrowing a normal number gives an encoding. -/
theorem singleNormal_lt
    (a : Nat) :
    singleNormal a < signBit := by
  simp only [singleNormal, infinity, implicitBit, singleUnit,
    signBit]
  split <;> omega

/- Few units are far below the sign bit. -/
theorem unitsMagnitude_lt_signBit
    {bias u : Nat}
    (hPos : u ≠ 0)
    (hFew : u.log2 + bias < 2047) :
    unitsMagnitude bias u < signBit := by
  have hBound := unitsMagnitude_lt bias hPos
  simp only [implicitBit, signBit] at hBound ⊢
  omega

/- Small numbers are few units. -/
theorem singleTiny_lt
    {a : Nat}
    (hSmall : a < 897 * implicitBit) :
    singleTiny a < signBit := by
  simp only [singleTiny]
  have hShift :
      1 <<< 30 ≤ 1 <<< (926 - max (a / implicitBit) 1) := by
    rw [Nat.one_shiftLeft, Nat.one_shiftLeft]
    apply Nat.pow_le_pow_right (by decide)
    simp only [implicitBit] at hSmall ⊢
    omega
  generalize 926 - max (a / implicitBit) 1 = k at hShift
  have hRound := Rounding.halfEven_le (significandOf a) k
  have hQuot : significandOf a / 1 <<< k < 0x800000 := by
    apply Nat.div_lt_of_lt_mul
    calc
      significandOf a < 2 * implicitBit := significandOf_lt a
      _ = 1 <<< 30 * 0x800000 := by decide
      _ ≤ 1 <<< k * 0x800000 :=
          Nat.mul_le_mul_right _ hShift
  generalize
    Rounding.halfEven (significandOf a) k = u at hRound
  split
  · decide
  · rename_i hZero
    have hLog : u.log2 < 24 :=
      (Nat.log2_lt hZero).mpr (by omega)
    exact unitsMagnitude_lt_signBit hZero (by omega)

/- A narrowed magnitude still fits. -/
theorem singleMagnitude_lt
    (a : Nat) :
    singleMagnitude a < signBit := by
  unfold singleMagnitude
  split
  · exact singleNaN_lt a
  · split
    · exact singleNormal_lt a
    · rename_i hSmall
      exact singleTiny_lt (Nat.lt_of_not_le hSmall)

/- The nearest number of single precision. -/
def narrow (x : Binary64) : Binary64 where
  negative := x.negative
  magnitude := singleMagnitude x.magnitude
  magnitude_lt := singleMagnitude_lt x.magnitude

------------------------------------------------------------
-- Integers as Numbers
------------------------------------------------------------

/- The magnitude nearest to a natural number. -/
def naturalMagnitude (n : Nat) : Nat :=
  let r := Rounding.significant53 n
  if r = 0 then
    0
  else if 1024 ≤ r.log2 then
    infinity
  else
    unitsMagnitude 1023 r

/- The magnitude of a natural number fits. -/
theorem naturalMagnitude_lt
    (n : Nat) :
    naturalMagnitude n < signBit := by
  unfold naturalMagnitude
  simp only
  generalize Rounding.significant53 n = r
  split
  · decide
  · split
    · decide
    · rename_i hZero hFits
      exact unitsMagnitude_lt_signBit hZero (by omega)

/- The number nearest to an integer. -/
def ofInt (i : Int) : Binary64 where
  negative := decide (i < 0)
  magnitude := naturalMagnitude i.natAbs
  magnitude_lt := naturalMagnitude_lt i.natAbs

end Binary64

end Interop
