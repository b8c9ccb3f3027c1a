import FilterAlgebra.Calendar.Reader
import FilterAlgebra.Calendar.Printer
import FilterAlgebra.Failure
import FilterAlgebra.Range.Basic

/-!
# Date ranges

A date range goes from the instant of its first bound to the last second of the day of its second
one. A bound may be `*`, which leaves that side open. A range that ends before it starts is invalid.
-/

namespace FilterAlgebra

/-- The bound of a date range: open, or an instant. -/
def readDateBound? (s : Text) : Option (Option Instant) :=
  if s = ['*'] then some none else (Instant.read? s).map some

def dateBoundText : Option Instant → Text
  | none => ['*']
  | some t => t.text

/-- Whether the second of two bounds lies before the first. -/
def isBackwards : Option Instant → Option Instant → Bool
  | some start, some stop => stop.isBefore start
  | _, _ => false

/-- The bounds of a date range, the second one moved to the end of its day. -/
def dateRangeBounds? (value : Text) : Option (Option Instant × Option Instant) :=
  match splitRange? value with
  | none => none
  | some (low, high) =>
    match readDateBound? low, readDateBound? high with
    | some start, some stop =>
      let stop := stop.map Instant.endOfDay
      if isBackwards start stop then none else some (start, stop)
    | _, _ => none

/-- The query form of a date range. -/
def dateRangeValue (value : Text) : Except FilterError Text :=
  match dateRangeBounds? value with
  | some (start, stop) => .ok (rangeText (dateBoundText start) (dateBoundText stop))
  | none => .error (.invalidDateRange value)

end FilterAlgebra
