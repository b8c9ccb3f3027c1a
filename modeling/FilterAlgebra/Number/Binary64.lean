import FilterAlgebra.Text.Basic

/-!
# Binary64 numbers

The numbers of the binary64 interchange format, as exact values. A finite number is an integer
significand at a binary exponent, counted from the least positive number `2 ^ (-1074)`, so every
finite number is an integral number of those units and the order of numbers is the order of
integers. Rounding works on exact quotients of natural numbers: to nearest, a half to even.
-/

namespace FilterAlgebra

/-- A binary64 number. `finite negative significand exponent` has the magnitude
`significand * 2 ^ exponent` in units of `2 ^ (-1074)`; its significand is below `2 ^ 53`, and not
below `2 ^ 52` unless the exponent is zero, which makes the form of a number unique. -/
inductive Binary64 where
  | finite (negative : Bool) (significand exponent : Nat)
  | infinite (negative : Bool)
  | nan
  deriving DecidableEq, Repr

namespace Binary64

/-- The number of binary places below one of the least positive number. -/
def unitPlaces : Nat := 1074

/-- The greatest exponent of a finite number. -/
def maxExponent : Nat := 2045

/-- The least significand of a number with a positive exponent, `2 ^ 52`. -/
def leastNormal : Nat := 4503599627370496

/-- Whether a number is neither infinite nor a NaN. -/
def isFinite : Binary64 → Bool
  | finite .. => true
  | _ => false

/-- The value of a finite number in units of `2 ^ (-1074)`. -/
def units? : Binary64 → Option Int
  | finite negative significand exponent =>
    let magnitude : Int := (significand * Nat.pow 2 exponent : Nat)
    some (if negative then -magnitude else magnitude)
  | _ => none

/-! ### Rounding -/

/-- The integer nearest to `num / den`, the even one of two that are equally near. -/
def roundHalfEven (num den : Nat) : Nat :=
  let quotient := num / den
  let rest := num % den
  if den < 2 * rest ∨ (2 * rest = den ∧ quotient % 2 = 1) then quotient + 1 else quotient

/-- The number nearest to `± num / den` units of `2 ^ (-1074)`, infinite when that is beyond the
finite ones. -/
def ofUnits (negative : Bool) (num den : Nat) : Binary64 :=
  let exponent := (num / den).log2 - 52
  let significand := roundHalfEven num (den * Nat.pow 2 exponent)
  let (significand, exponent) :=
    if significand = 2 * leastNormal then (leastNormal, exponent + 1)
    else (significand, exponent)
  if maxExponent < exponent then infinite negative else finite negative significand exponent

/-- The number nearest to `± num / den`. -/
def ofRatio (negative : Bool) (num den : Nat) : Binary64 :=
  ofUnits negative (num * Nat.pow 2 unitPlaces) den

def ofInt (n : Int) : Binary64 := ofRatio (decide (n < 0)) n.natAbs 1

/-- The number nearest to `± significand * 2 ^ exponent`. -/
def ofScaled (negative : Bool) (significand : Nat) (exponent : Int) : Binary64 :=
  ofRatio negative (significand * Nat.pow 2 exponent.toNat) (Nat.pow 2 (-exponent).toNat)

/-- The number that an interchange format spells by a sign, an exponent field and a fraction field
of the given widths. Widths up to those of binary64 lose nothing. -/
def ofFields (exponentBits fractionBits : Nat) (bits : Nat) : Binary64 :=
  let fractions := Nat.pow 2 fractionBits
  let exponents := Nat.pow 2 exponentBits
  let fraction := bits % fractions
  let exponent := bits / fractions % exponents
  let negative := decide (bits / (fractions * exponents) % 2 = 1)
  let bias := exponents / 2 - 1
  if exponent = exponents - 1 then
    if fraction = 0 then infinite negative else nan
  else if exponent = 0 then ofScaled negative fraction (1 - (bias : Int) - fractionBits)
  else ofScaled negative (fractions + fraction) ((exponent : Int) - bias - fractionBits)

/-! ### Whole numbers -/

/-- The magnitude of a finite number without a fractional part. -/
def wholeMagnitude? : Binary64 → Option Nat
  | finite _ significand exponent =>
    let magnitude := significand * Nat.pow 2 exponent
    let one := Nat.pow 2 unitPlaces
    if magnitude % one = 0 then some (magnitude / one) else none
  | _ => none

end Binary64

end FilterAlgebra
