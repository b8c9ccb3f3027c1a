import FilterAlgebra.Failure
import FilterAlgebra.Filter.Basic
import FilterAlgebra.Number.Decimal
import FilterAlgebra.Range.Basic

/-!
# Numeric ranges

The bounds of a numeric range are decimal literals of finite numbers, or `*` for an open side. They
are compared as binary64 numbers and kept as they were written. A filter may give the two bounds as
two values; they are joined to one range before values are compiled one by one.
-/

namespace FilterAlgebra

/-- The bound of a numeric range: open, or a number. -/
def readNumericBound? (s : Text) : Option (Option Binary64) :=
  if s = ['*'] then some none else (Binary64.readFinite? s).map some

/-- Whether the first of two bounds lies above the second. -/
def isDescending : Option Binary64 → Option Binary64 → Bool
  | some low, some high =>
    match low.units?, high.units? with
    | some low, some high => decide (high < low)
    | _, _ => false
  | _, _ => false

/-- The bounds of a numeric range, as they were written. -/
def numericRangeBounds? (value : Text) : Option (Text × Text) :=
  match splitRange? value with
  | none => none
  | some (low, high) =>
    match readNumericBound? low, readNumericBound? high with
    | some lowBound, some highBound =>
      if isDescending lowBound highBound then none else some (low, high)
    | _, _ => none

/-- The query form of a numeric range. -/
def numericRangeValue (value : Text) : Except FilterError Text :=
  match numericRangeBounds? value with
  | some (low, high) => .ok (rangeText low high)
  | none => .error (.invalidNumericRange value)

/-- A filter with its two bounds joined to one range. One value is taken as a range already, an
empty list as no value, and any other number of values is an error. -/
def joinBounds (f : Filter) : Except FilterError Filter :=
  match f.q with
  | some (.many []) => .ok { f with q := none }
  | some (.many [low, high]) =>
    .ok { f with q := some (.one (Text.trim low ++ rangeSeparator ++ Text.trim high)) }
  | some (.many values) =>
    .error (.invalidNumericRange
      ("expected [min, max], got " ++ natText values.length ++ " values"))
  | _ => .ok f

end FilterAlgebra
