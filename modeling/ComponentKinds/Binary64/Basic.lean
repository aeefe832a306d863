/-!
# Finite binary floating-point numbers

A finite number of the 64-bit binary format is a sign, a significand below `2 ^ 53` and
an exponent from -1074 to 971. Reading a decimal rounds its exact value to the nearest
such number, a half going to the even significand, and fails where the rounded magnitude
would leave the format. All arithmetic is on natural numbers.
-/

namespace ComponentKinds

/-- A finite number of the 64-bit binary format, `± significand * 2 ^ exponent`. -/
structure Binary64 where
  /-- Whether the sign is minus; zero has both signs. -/
  negative : Bool
  /-- The digits of the magnitude, as one number below `2 ^ 53`. -/
  significand : Nat
  /-- The power of two that the significand counts. -/
  exponent : Int
  deriving DecidableEq, Repr

namespace Binary64

/-- The least exponent of the format. -/
def minExponent : Int := -1074

/-- The greatest exponent of the format. -/
def maxExponent : Int := 971

/-- The zero of the given sign. -/
def zero (negative : Bool) : Binary64 := ⟨negative, 0, minExponent⟩

/-- Each finite number has one normal form: the significand has all 53 digits unless the
exponent is already the least one. -/
structure Normal (x : Binary64) : Prop where
  /-- The significand fits the format. -/
  significand_lt : x.significand < 1 <<< 53
  /-- Short significands occur with the least exponent only. -/
  full : 1 <<< 52 ≤ x.significand ∨ x.exponent = minExponent
  /-- The exponent is not below the format. -/
  min_le : minExponent ≤ x.exponent
  /-- The exponent is not above the format. -/
  le_max : x.exponent ≤ maxExponent

instance (x : Binary64) : Decidable x.Normal :=
  decidable_of_iff
    (x.significand < 1 <<< 53 ∧ (1 <<< 52 ≤ x.significand ∨ x.exponent = minExponent) ∧
      minExponent ≤ x.exponent ∧ x.exponent ≤ maxExponent)
    ⟨fun ⟨a, b, c, d⟩ => ⟨a, b, c, d⟩, fun ⟨a, b, c, d⟩ => ⟨a, b, c, d⟩⟩

/-- The quotient rounded to the nearest natural number, a half to the even one. -/
def roundDiv (num den : Nat) : Nat :=
  let q := num / den
  let r := num % den
  if 2 * r < den ∨ (2 * r = den ∧ q % 2 = 0) then q else q + 1

/-- A fraction as a multiple of `base ^ power`: its numerator and denominator after the
division by that power. -/
def rescale (base : Nat) (power : Int) (num den : Nat) : Nat × Nat :=
  if power < 0 then (num * base.pow power.natAbs, den) else (num, den * base.pow power.natAbs)

/-- The exponent of the greatest power of two that is not above the positive fraction. -/
def binaryOrder (num den : Nat) : Int :=
  let order : Int := (Nat.log2 num : Int) - (Nat.log2 den : Int)
  let (scaled, unit) := rescale 2 order num den
  if scaled < unit then order - 1 else order

/-- The number of the format nearest to the positive fraction `num / den`, a half going
to the even significand; none if that is beyond the greatest number of the format. -/
def nearest? (negative : Bool) (num den : Nat) : Option Binary64 :=
  let exponent := max (binaryOrder num den - 52) minExponent
  let (scaled, unit) := rescale 2 exponent num den
  let significand := roundDiv scaled unit
  let x : Binary64 :=
    if significand = 1 <<< 53 then ⟨negative, 1 <<< 52, exponent + 1⟩
    else ⟨negative, significand, exponent⟩
  if x.exponent ≤ maxExponent then some x else none

/-- The number nearest to the decimal `coefficient * 10 ^ power`. Magnitudes from `10 ^ 310`
on are beyond the format and those below `10 ^ (-330)` are nearest to zero, so that a
great power is never computed. The exact value is rounded, once. A reader that scales the
coefficient by floating-point steps may come out beside it, and may refuse literals at the end of
the format that are read here, such as `179769313486231581e291` and `1.7976931348623158e308`. -/
def ofDecimal? (negative : Bool) (coefficient : Nat) (power : Int) : Option Binary64 :=
  let order := power + (Nat.toDigits 10 coefficient).length
  if coefficient = 0 ∨ order < -330 then some (zero negative)
  else if 310 < order then none
  else
    let (num, den) := rescale 10 (-power) coefficient 1
    nearest? negative num den

/-- Zero of either sign is in normal form. -/
theorem normal_zero (negative : Bool) : (zero negative).Normal := by
  cases negative <;> decide

end Binary64

end ComponentKinds
