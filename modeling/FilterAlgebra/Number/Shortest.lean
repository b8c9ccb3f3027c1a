import FilterAlgebra.Number.Decimal

/-!
# Shortest decimals

The shortest decimal of a finite number is the point nearest to it on the coarsest decimal grid
that has a point among the reals which round to the number. Those reals form an interval around the
number; its ends belong to it when the significand is even. All comparisons are exact, in quarters
of the least positive number.
-/

namespace FilterAlgebra

/-- Which of two grid points is taken when a number lies exactly between them. -/
inductive Tie where
  | up
  | even
  deriving DecidableEq, Repr

/-- Whether the upper neighbour is taken when a number lies exactly between `low` and `low + 1`. -/
def Tie.goesUp : Tie → Nat → Bool
  | .up, _ => true
  | .even, low => low % 2 = 1

namespace Binary64

/-- A point of the grid of multiples of `10 ^ place` that rounds to the number with the given
significand and exponent: the nearer one if both neighbours do. -/
def gridPoint? (tie : Tie) (significand exponent : Nat) (place : Int) : Option Nat :=
  let scale := Nat.pow 10 (-place).toNat
  let step := Nat.pow 2 (unitPlaces + 2) * Nat.pow 10 place.toNat
  let value := 4 * significand * Nat.pow 2 exponent * scale
  let gapAbove := 2 * Nat.pow 2 exponent * scale
  let gapBelow := if significand = leastNormal ∧ exponent ≠ 0 then gapAbove / 2 else gapAbove
  let low := value / step
  let toLow := value - low * step
  let toHigh := (low + 1) * step - value
  let closed := significand % 2 = 0
  let lowFits := toLow < gapBelow ∨ (closed ∧ toLow = gapBelow)
  let highFits := toHigh < gapAbove ∨ (closed ∧ toHigh = gapAbove)
  if lowFits ∧ highFits then
    some (if toHigh < toLow ∨ (toHigh = toLow ∧ tie.goesUp low) then low + 1 else low)
  else if lowFits then some low
  else if highFits then some (low + 1)
  else none

/-- The first grid point among the given number of places, counted down from `place`. -/
def coarsest (tie : Tie) (significand exponent : Nat) : Nat → Int → Nat × Int
  | 0, place => (0, place)
  | more + 1, place =>
    match gridPoint? tie significand exponent place with
    | some coefficient => (coefficient, place)
    | none => coarsest tie significand exponent more (place - 1)

/-- The shortest decimal `coefficient * 10 ^ place` of a positive finite number. Every finite
number has one between place 309 and place -324. -/
def shortest (tie : Tie) (significand exponent : Nat) : Nat × Int :=
  coarsest tie significand exponent 634 309

end Binary64

end FilterAlgebra
