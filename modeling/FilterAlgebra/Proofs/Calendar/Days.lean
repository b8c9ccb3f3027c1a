import FilterAlgebra.Calendar.Instant

/-!
# Counting days

Days are counted from the start of the year zero on, with the lengths of years and months that the
calendar gives them. The day after a date has the next number (`dayNumber_next`), so the number of a
day says where it stands among all days, and comparing dates part by part, the year first, is
comparing their numbers (`dayNumber_lt_iff`). An offset from UTC moves an instant by its minutes,
over midnight too (`minuteNumber_of_ofLocal?`).
-/

namespace FilterAlgebra

/-! ### Years and months -/

/-- The number of days from the start of the year zero to that of a year: 365 for each year, and one
for each leap year among them. -/
def daysBeforeYear (year : Int) : Int :=
  365 * year + (year + 3) / 4 - (year + 99) / 100 + (year + 399) / 400

/-- The number of days of a year before a month. -/
def daysBeforeMonth (year : Int) : Nat → Nat
  | 0 | 1 => 0
  | month + 2 => daysBeforeMonth year (month + 1) + daysInMonth year (month + 1)

def daysInYear (year : Int) : Nat := if isLeapYear year then 366 else 365

theorem daysBeforeYear_succ (year : Int) :
    daysBeforeYear (year + 1) = daysBeforeYear year + daysInYear year := by
  unfold daysBeforeYear daysInYear isLeapYear
  split
  · next h =>
    simp only [ne_eq, Bool.and_eq_true, decide_eq_true_eq, Bool.or_eq_true] at h
    omega
  · next h =>
    simp only [ne_eq, Bool.and_eq_true, decide_eq_true_eq, Bool.or_eq_true] at h
    omega

theorem daysBeforeMonth_one (year : Int) : daysBeforeMonth year 1 = 0 := rfl

theorem daysBeforeMonth_succ {month : Nat} (year : Int) (h : 1 ≤ month) :
    daysBeforeMonth year (month + 1) = daysBeforeMonth year month + daysInMonth year month := by
  cases month with
  | zero => omega
  | succ month => rfl

theorem daysBeforeMonth_december (year : Int) :
    daysBeforeMonth year 12 + daysInMonth year 12 = daysInYear year := by
  cases h : isLeapYear year <;> simp [daysBeforeMonth, daysInMonth, daysInYear, h]

/-- A month ends before a later one begins. -/
theorem daysBeforeMonth_add_le (year : Int) {month later : Nat} (hmonth : 1 ≤ month)
    (h : month < later) :
    daysBeforeMonth year month + daysInMonth year month ≤ daysBeforeMonth year later := by
  induction later with
  | zero => omega
  | succ later ih =>
    rcases Nat.lt_succ_iff_lt_or_eq.mp h with hlt | rfl
    · have hbefore := ih hlt
      rw [daysBeforeMonth_succ year (by omega)]
      omega
    · exact Nat.le_of_eq (daysBeforeMonth_succ year hmonth).symm

/-- A year ends before a later one begins. -/
theorem daysBeforeYear_add_le {year later : Int} (h : year < later) :
    daysBeforeYear year + daysInYear year ≤ daysBeforeYear later := by
  rw [← daysBeforeYear_succ]
  unfold daysBeforeYear
  omega

/-! ### Dates -/

namespace Date

/-- The number of a day, counted from the start of the year zero. -/
def dayNumber (d : Date) : Int := daysBeforeYear d.year + daysBeforeMonth d.year d.month + d.day

theorem dayNumber_bounds (d : Date) :
    daysBeforeYear d.year < d.dayNumber ∧ d.dayNumber ≤ daysBeforeYear d.year + daysInYear d.year := by
  have hmonth := d.month_mem
  have hday := d.day_mem
  have hyear : daysBeforeMonth d.year d.month + daysInMonth d.year d.month ≤ daysInYear d.year := by
    rw [← daysBeforeMonth_december]
    rcases Nat.lt_or_eq_of_le hmonth.2 with hlt | heq
    · have hmonths := daysBeforeMonth_add_le d.year hmonth.1 hlt
      omega
    · exact Nat.le_of_eq (by rw [heq])
  unfold dayNumber
  omega

/-- **The day after** a date has the next number. -/
theorem dayNumber_next (d : Date) : d.next.dayNumber = d.dayNumber + 1 := by
  have hmonth := d.month_mem
  have hday := d.day_mem
  unfold next
  split
  · simp only [dayNumber]
    omega
  · split
    · simp only [dayNumber, daysBeforeMonth_succ d.year hmonth.1]
      omega
    · next hlast hlater =>
      have hdecember : d.month = 12 := by omega
      have hyear := daysBeforeMonth_december d.year
      rw [hdecember] at hday hlast
      simp only [dayNumber, daysBeforeYear_succ, daysBeforeMonth_one, hdecember]
      omega

theorem dayNumber_previous (d : Date) : d.previous.dayNumber = d.dayNumber - 1 := by
  have hmonth := d.month_mem
  have hday := d.day_mem
  unfold previous
  split
  · simp only [dayNumber]
    omega
  · split
    · next hlater =>
      have hmonths := daysBeforeMonth_succ d.year (Nat.le_sub_one_of_lt hlater)
      rw [Nat.sub_add_cancel hmonth.1] at hmonths
      simp only [dayNumber]
      omega
    · have hjanuary : d.month = 1 := by omega
      have hyears := daysBeforeYear_succ (d.year - 1)
      have hyear := daysBeforeMonth_december (d.year - 1)
      have hdecember : daysInMonth (d.year - 1) 12 = 31 := rfl
      rw [Int.sub_add_cancel] at hyears
      simp only [dayNumber, daysBeforeMonth_one, hjanuary]
      omega

/-- **The order of days.** A day has a lesser number than another when its year is earlier, or in
the same year its month, or in the same month its day. -/
theorem dayNumber_lt_iff (d d' : Date) :
    d.dayNumber < d'.dayNumber ↔
      d.year < d'.year ∨ d.year = d'.year ∧
        (d.month < d'.month ∨ d.month = d'.month ∧ d.day < d'.day) := by
  have hbounds := dayNumber_bounds d
  have hbounds' := dayNumber_bounds d'
  rcases Int.lt_trichotomy d.year d'.year with hyear | hyear | hyear
  · -- an earlier year, and all its days lie before
    have hyears := daysBeforeYear_add_le hyear
    omega
  · -- the same year, where the months decide in the same way
    have hnumber : d.dayNumber = daysBeforeYear d.year + daysBeforeMonth d.year d.month + d.day :=
      rfl
    have hnumber' : d'.dayNumber =
        daysBeforeYear d.year + daysBeforeMonth d.year d'.month + d'.day := by
      rw [hyear]
      rfl
    have hday := d.day_mem
    have hday' := d'.day_mem
    rw [← hyear] at hday'
    rcases Nat.lt_trichotomy d.month d'.month with hmonth | hmonth | hmonth
    · have hmonths := daysBeforeMonth_add_le d.year d.month_mem.1 hmonth
      omega
    · rw [← hmonth] at hnumber'
      omega
    · have hmonths := daysBeforeMonth_add_le d.year d'.month_mem.1 hmonth
      omega
  · have hyears := daysBeforeYear_add_le hyear
    omega

end Date

/-! ### Instants -/

namespace Instant

/-- The number of the minute of an instant, counted from the start of the year zero. -/
def minuteNumber (t : Instant) : Int := 1440 * t.date.dayNumber + t.minute

/-- **Offsets.** Clocks that are ahead of UTC show an instant with as many more minutes, whichever
day it is there; seconds and fractions are the same. -/
theorem minuteNumber_of_ofLocal? {date : Date} {minute second nanosecond : Nat} {offset : Int}
    {t : Instant} (h : ofLocal? date minute second nanosecond offset = some t) :
    t.minuteNumber + offset = 1440 * date.dayNumber + minute ∧ t.second = second ∧
      t.nanosecond = nanosecond := by
  have hnext := date.dayNumber_next
  have hprevious := date.dayNumber_previous
  simp only [ofLocal?] at h
  split at h
  · split at h
    · split at h
      · cases h
        -- the day itself, the one before it, or the one after it
        refine ⟨?_, rfl, rfl⟩
        simp only [minuteNumber]
        omega
      · split at h
        · cases h
          refine ⟨?_, rfl, rfl⟩
          simp only [minuteNumber]
          omega
        · cases h
    · split at h
      · cases h
        refine ⟨?_, rfl, rfl⟩
        simp only [minuteNumber]
        omega
      · cases h
  · cases h

/-- Instants are compared by their days first, and within a day by the clock. -/
theorem isBefore_iff (a b : Instant) :
    a.isBefore b = true ↔
      a.date.dayNumber < b.date.dayNumber ∨ a.date.dayNumber = b.date.dayNumber ∧
        (a.minute < b.minute ∨ a.minute = b.minute ∧
          (a.second < b.second ∨ a.second = b.second ∧ a.nanosecond < b.nanosecond)) := by
  have hlt := Date.dayNumber_lt_iff a.date b.date
  have hgt := Date.dayNumber_lt_iff b.date a.date
  simp only [isBefore, parts, decide_eq_true_eq, List.cons_lt_cons_iff, List.not_lt_nil,
    and_false, or_false]
  omega

end Instant

end FilterAlgebra
