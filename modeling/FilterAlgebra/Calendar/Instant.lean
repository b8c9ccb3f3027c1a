import FilterAlgebra.Calendar.Date

/-!
# Instants

An instant in UTC: a date, a minute of that day, a second of that minute (a leap second is second
60) and a fraction. Offsets from UTC are whole minutes, so they move the date and the minute only.
-/

namespace FilterAlgebra

structure Instant where
  date : Date
  /-- Minutes since midnight. -/
  minute : Nat
  second : Nat
  nanosecond : Nat
  minute_lt : minute < 1440
  second_le : second ≤ 60
  deriving DecidableEq, Repr

namespace Instant

/-- The instant at which clocks that are `offset` minutes ahead of UTC show the given date, minute
of the day, second and fraction, provided that minute and second exist and the offset is less than
a day. -/
def ofLocal? (date : Date) (minute second nanosecond : Nat) (offset : Int) : Option Instant :=
  if hs : second ≤ 60 then
    let utc := (minute : Int) - offset
    if hlow : 0 ≤ utc then
      if hmid : utc < 1440 then
        some ⟨date, utc.toNat, second, nanosecond, by omega, hs⟩
      else if hhigh : utc < 2880 then
        some ⟨date.next, (utc - 1440).toNat, second, nanosecond, by omega, hs⟩
      else none
    else if hbelow : -1440 ≤ utc then
      some ⟨date.previous, (utc + 1440).toNat, second, nanosecond, by omega, hs⟩
    else none
  else none

def startOfDay (date : Date) : Instant := ⟨date, 0, 0, 0, by decide, by decide⟩

/-- The last whole second of the day of an instant. -/
def endOfDay (t : Instant) : Instant := ⟨t.date, 1439, 59, 0, by decide, by decide⟩

/-- The parts of an instant, the weightiest first. -/
def parts (t : Instant) : List Int :=
  [t.date.year, t.date.month, t.date.day, t.minute, t.second, t.nanosecond]

def isBefore (a b : Instant) : Bool := decide (a.parts < b.parts)

end Instant

end FilterAlgebra
