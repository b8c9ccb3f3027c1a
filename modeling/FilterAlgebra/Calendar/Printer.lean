import FilterAlgebra.Calendar.Instant
import FilterAlgebra.Number.Decimal

/-!
# Writing instants

An instant is written as an internet timestamp in UTC, to the second. Years have four digits; those
outside that range are signed, and padded to four digits as well.
-/

namespace FilterAlgebra

/-- The decimal text of a number with zeros in front up to the given length. -/
def paddedText (length n : Nat) : Text :=
  List.replicate (length - (natText n).length) '0' ++ natText n

def yearText (year : Int) : Text :=
  if year < 0 then '-' :: paddedText 4 year.natAbs
  else if 9999 < year then '+' :: paddedText 4 year.natAbs
  else paddedText 4 year.natAbs

/-- The text of an instant: its UTC date and time, without the fraction. -/
def Instant.text (t : Instant) : Text :=
  yearText t.date.year ++ '-' :: paddedText 2 t.date.month ++ '-' :: paddedText 2 t.date.day
    ++ 'T' :: paddedText 2 (t.minute / 60) ++ ':' :: paddedText 2 (t.minute % 60)
    ++ ':' :: paddedText 2 t.second ++ ['Z']

end FilterAlgebra
