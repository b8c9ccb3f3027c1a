import FilterAlgebra.Number.Decimal
import FilterAlgebra.Number.Word

/-!
# Scaled decimals

A second way from a decimal literal to a binary64 number, next to the exact one of `Decimal`. The
leading digits, as many as a word of sixty-four bits holds, are gathered into an integer. The number
nearest to that integer is then multiplied or divided by a power of ten. Every step rounds, so the
result may be a neighbour of the number nearest to the literal, and where it lies outside the finite
numbers there is none.
-/

namespace FilterAlgebra

namespace Binary64

/-! ### Products and quotients -/

/-- The number nearest to the product of two finite numbers, if that is finite. -/
def product? : Binary64 → Binary64 → Option Binary64
  | finite negative significand exponent, finite negative' significand' exponent' =>
    let num := significand * significand' * Nat.pow 2 (exponent + exponent')
    some (ofRatio (negative ^^ negative') num (Nat.pow 2 (2 * unitPlaces))) |>.filter isFinite
  | _, _ => none

/-- The number nearest to the quotient of two finite numbers, if the second one is not zero and that
is finite. -/
def quotient? : Binary64 → Binary64 → Option Binary64
  | finite negative significand exponent, finite negative' significand' exponent' =>
    if significand' = 0 then none
    else
      let num := significand * Nat.pow 2 exponent
      let den := significand' * Nat.pow 2 exponent'
      some (ofRatio (negative ^^ negative') num den) |>.filter isFinite
  | _, _ => none

/-! ### Scaling -/

/-- The exponent of the greatest power of ten below the greatest finite number. -/
def maxTens : Nat := 308

/-- The number nearest to `10 ^ k`. -/
def powerOfTen (k : Nat) : Binary64 := ofRatio false (Nat.pow 10 k) 1

/-- A finite number times `10 ^ exponent`, if that is finite. A product is taken in one step and a
quotient in at most two, each of them rounded; two greatest powers of ten leave nothing of an
integer that fits a word. -/
def scaled? (x : Binary64) (exponent : Int) : Option Binary64 :=
  if x.units? = some 0 then some x
  else if 0 ≤ exponent then
    if exponent ≤ maxTens then x.product? (powerOfTen exponent.toNat) else none
  else do
    let k := (-exponent).toNat
    let y ← x.quotient? (powerOfTen (min k maxTens))
    y.quotient? (powerOfTen (min (k - maxTens) maxTens))

end Binary64

/-! ### Digits -/

/-- Appends digits to a number up to the first one with which a word could not hold it any more: the
number, and the digits from there on. -/
def gatherDigits (word : Nat) : Text → Nat × Text
  | [] => (word, [])
  | c :: digits =>
    let next := withDigit word c
    if fitsUnsigned next then gatherDigits next digits else (word, c :: digits)

/-- A decimal literal as a scaled number, if that is finite. Of the whole digits that are not
gathered only the count matters; the fractional ones are dropped. -/
def Binary64.ofDigits? (negative : Bool) (whole fraction : Text) (power : Int) :
    Option Binary64 :=
  let (word, wholeRest) := gatherDigits 0 whole
  let (word, fractionRest) := gatherDigits word fraction
  let places := fraction.length - fractionRest.length
  (ofRatio negative word 1).scaled? (power + wholeRest.length - places)

end FilterAlgebra
