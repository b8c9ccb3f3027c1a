import FilterAlgebra.Proofs.Calendar.Days
import FilterAlgebra.Proofs.Calendar.Timestamps
import FilterAlgebra.Proofs.Range.Bounds
import FilterAlgebra.Proofs.Range.Splitting

/-!
# Date ranges

What a date range compiles to is a normal form (`WrittenAs`). An open bound stays open; the start is
written to the second, without its fraction; the end is the last second of its day; and the form is
a date range itself, which compiles to itself (`dateRangeValue_rangeText`).

A range of two closed bounds should be rejected for its order only when it starts on a later day
than the one it ends on, since the end stands for its whole day. The last second of a day is not all
of it, though: a start in the fraction of that second, or in a leap second behind it
(`Instant.IsPastLastSecond`), is later than the end of its own day, and such a range is rejected as
well.
-/

namespace FilterAlgebra

/-! ### Bounds -/

theorem readDateBound?_of_read? {s : Text} {t : Instant} (h : Instant.read? s = some t) :
    readDateBound? s = some (some t) := by
  have hstar : Instant.read? ['*'] = none := by decide
  have hopen : s ≠ ['*'] := by
    rintro rfl
    rw [hstar] at h
    cases h
  rw [readDateBound?, if_neg hopen, h]
  rfl

theorem readDateBound?_cases {s : Text} {bound : Option Instant} (h : readDateBound? s = some bound) :
    (s = ['*'] ∧ bound = none) ∨ ∃ t, Instant.read? s = some t ∧ bound = some t := by
  unfold readDateBound? at h
  split at h
  · next hopen =>
    cases h
    exact .inl ⟨hopen, rfl⟩
  · obtain ⟨t, ht, rfl⟩ := Option.map_eq_some_iff.mp h
    exact .inr ⟨t, ht, rfl⟩

theorem dateRangeBounds?_eq {value low high : Text} {start stop : Option Instant}
    (hsplit : splitRange? value = some (low, high)) (hlow : readDateBound? low = some start)
    (hhigh : readDateBound? high = some stop) :
    dateRangeBounds? value =
      if isBackwards start (stop.map Instant.endOfDay) then none
      else some (start, stop.map Instant.endOfDay) := by
  simp only [dateRangeBounds?, hsplit, hlow, hhigh]

/-- An accepted value has two bounds that can be read and are not backwards. -/
theorem exists_of_dateRangeValue_ok {value form : Text} (h : dateRangeValue value = .ok form) :
    ∃ low high start stop, splitRange? value = some (low, high) ∧
      readDateBound? low = some start ∧ readDateBound? high = some stop ∧
      isBackwards start (stop.map Instant.endOfDay) = false ∧
      form = rangeText (dateBoundText start) (dateBoundText (stop.map Instant.endOfDay)) := by
  unfold dateRangeValue dateRangeBounds? at h
  cases hsplit : splitRange? value with
  | none =>
    rw [hsplit] at h
    cases h
  | some bounds =>
    obtain ⟨low, high⟩ := bounds
    rw [hsplit] at h
    -- each of the three checks rejects the value if it fails
    cases hlow : readDateBound? low with
    | none => simp [hlow] at h
    | some start =>
      cases hhigh : readDateBound? high with
      | none => simp [hlow, hhigh] at h
      | some stop =>
        cases hbackwards : isBackwards start (stop.map Instant.endOfDay) with
        | true => simp [hlow, hhigh, hbackwards] at h
        | false =>
          simp only [hlow, hhigh, hbackwards, Bool.false_eq_true, if_false, Except.ok.injEq] at h
          exact ⟨low, high, start, stop, rfl, hlow, hhigh, hbackwards, h.symm⟩

/-- How a bound is written in a form: an open one stays open, and a closed one becomes a timestamp
of an instant that is made from its own. -/
inductive WrittenAs (change : Instant → Instant) : Text → Text → Prop where
  | unbounded : WrittenAs change ['*'] ['*']
  | timestamp {bound form : Text} {t : Instant} : Instant.read? bound = some t →
      (change t).IsTimestamp form → WrittenAs change bound form

section Written

variable {change : Instant → Instant} {bound form : Text} {read : Option Instant}

variable (change) in
/-- An instant that is changed within its day is written with the year that it has. -/
theorem writtenAs_dateBoundText (hdate : ∀ t, (change t).date = t.date)
    (hread : readDateBound? bound = some read)
    (hyear : ∀ t, Instant.read? bound = some t → t.HasPlainYear) :
    WrittenAs change bound (dateBoundText (read.map change)) := by
  rcases readDateBound?_cases hread with ⟨rfl, rfl⟩ | ⟨t, ht, rfl⟩
  · exact .unbounded
  · have hplain : (change t).HasPlainYear := by
      rw [Instant.HasPlainYear, hdate]
      exact hyear t ht
    exact .timestamp ht (Instant.isTimestamp_text hplain)

/-- A written bound is read as what was written, if that has no fraction. -/
theorem WrittenAs.readDateBound? (h : WrittenAs change bound form)
    (hwhole : ∀ t, (change t).wholeSecond = change t) (hread : readDateBound? bound = some read) :
    readDateBound? form = some (read.map change) := by
  cases h with
  | unbounded =>
    cases hread
    rfl
  | timestamp ht htimestamp =>
    rw [readDateBound?_of_read? ht] at hread
    cases hread
    have hform := htimestamp.read?
    rw [hwhole] at hform
    exact readDateBound?_of_read? hform

theorem WrittenAs.isBlank_eq_false (h : WrittenAs change bound form) :
    form ≠ [] ∧ ∀ c ∈ form, isBlank c = false := by
  cases h with
  | unbounded => simp [isBlank, blankRanges]
  | timestamp _ htimestamp =>
    refine ⟨?_, htimestamp.isBlank_eq_false⟩
    cases htimestamp
    simp

end Written

/-! ### The normal form -/

/-- The instants at which a range is closed. -/
def closedBounds (value : Text) : List Instant :=
  match splitRange? value with
  | some (low, high) => [low, high].filterMap Instant.read?
  | none => []

/-- Dropping the fraction of the start does not put the end before it. -/
theorem isBackwards_wholeSecond {start stop : Option Instant}
    (h : isBackwards start (stop.map Instant.endOfDay) = false) :
    isBackwards (start.map Instant.wholeSecond) (stop.map Instant.endOfDay) = false := by
  cases start with
  | none => rfl
  | some start =>
    cases stop with
    | none => rfl
    | some stop =>
      simp only [isBackwards, Option.map_some, Bool.eq_false_iff, Ne, Instant.isBefore_iff,
        Instant.endOfDay, Instant.wholeSecond] at h ⊢
      omega

theorem mem_closedBounds {value low high bound : Text} {t : Instant}
    (hsplit : splitRange? value = some (low, high)) (hbound : bound ∈ [low, high])
    (ht : Instant.read? bound = some t) : t ∈ closedBounds value := by
  rw [closedBounds, hsplit]
  exact List.mem_filterMap.mpr ⟨bound, hbound, ht⟩

/-- A form whose end is the last second of its day is accepted, and its bounds are written as they
are. -/
theorem dateRangeValue_rangeText {low high first last : Text} {start stop : Option Instant}
    (hfirst : WrittenAs Instant.wholeSecond low first) (hlow : readDateBound? low = some start)
    (hlast : WrittenAs Instant.endOfDay high last) (hhigh : readDateBound? high = some stop)
    (horder : isBackwards (start.map Instant.wholeSecond) (stop.map Instant.endOfDay) = false) :
    dateRangeValue (rangeText first last) =
      .ok (rangeText (dateBoundText (start.map Instant.wholeSecond))
        (dateBoundText (stop.map Instant.endOfDay))) := by
  have hsplit := splitRange?_rangeText hfirst.isBlank_eq_false.1 hlast.isBlank_eq_false.1
    hfirst.isBlank_eq_false.2 hlast.isBlank_eq_false.2
  have hend : (stop.map Instant.endOfDay).map Instant.endOfDay = stop.map Instant.endOfDay := by
    cases stop <;> rfl
  rw [dateRangeValue, dateRangeBounds?_eq hsplit (hfirst.readDateBound? (fun _ => rfl) hlow)
    (hlast.readDateBound? (fun _ => rfl) hhigh), hend, horder]
  rfl

/-- **The normal form of date ranges.** An accepted value, if the years of its closed bounds have
four digits, compiles to a range of two forms. Open bounds stay open. The start is its instant
without the fraction, the end is the last second of its day, and the end is not before the start.
The form itself is accepted and compiles to itself. -/
theorem dateRangeValue_normalForm {value form : Text} (haccepted : dateRangeValue value = .ok form)
    (hyears : ∀ t ∈ closedBounds value, t.HasPlainYear) :
    ∃ low high first last, splitRange? value = some (low, high) ∧ form = rangeText first last ∧
      WrittenAs Instant.wholeSecond low first ∧ WrittenAs Instant.endOfDay high last ∧
      (∀ start stop, Instant.read? first = some start → Instant.read? last = some stop →
        stop.isBefore start = false) ∧
      dateRangeValue form = .ok form := by
  obtain ⟨low, high, start, stop, hsplit, hlow, hhigh, hbackwards, rfl⟩ :=
    exists_of_dateRangeValue_ok haccepted
  -- the text of the start is that of its whole second
  have htext : dateBoundText start = dateBoundText (start.map Instant.wholeSecond) := by
    cases start <;> rfl
  rw [htext]
  have hfirst := writtenAs_dateBoundText Instant.wholeSecond (fun _ => rfl) hlow fun t ht =>
    hyears t (mem_closedBounds hsplit (by simp) ht)
  have hlast := writtenAs_dateBoundText Instant.endOfDay (fun _ => rfl) hhigh fun t ht =>
    hyears t (mem_closedBounds hsplit (by simp) ht)
  have horder := isBackwards_wholeSecond hbackwards
  refine ⟨low, high, _, _, hsplit, rfl, hfirst, hlast, ?_, ?_⟩
  · intro s e hs he
    have hreadFirst := hfirst.readDateBound? (fun _ => rfl) hlow
    have hreadLast := hlast.readDateBound? (fun _ => rfl) hhigh
    rw [readDateBound?_of_read? hs, Option.some.injEq] at hreadFirst
    rw [readDateBound?_of_read? he, Option.some.injEq] at hreadLast
    rw [← hreadFirst, ← hreadLast] at horder
    exact horder
  · exact dateRangeValue_rangeText hfirst hlow hlast hhigh horder

/-- A range that starts in a leap second, two hours ahead of UTC, with a fraction. -/
def leapRange : Text := " [2016-12-31T23:59:60.25+02:00 TO 2017-01-01] "

def leapForm : Text := "[2016-12-31T21:59:60Z TO 2017-01-01T23:59:59Z]"

theorem dateRangeValue_normalForm_leapRange :
    dateRangeValue leapRange = .ok leapForm ∧ (∀ t ∈ closedBounds leapRange, t.HasPlainYear) ∧
      ∃ low high first last, splitRange? leapRange = some (low, high) ∧
        leapForm = rangeText first last ∧ WrittenAs Instant.wholeSecond low first ∧
        WrittenAs Instant.endOfDay high last ∧ dateRangeValue leapForm = .ok leapForm := by
  have haccepted : dateRangeValue leapRange = .ok leapForm := by decide +kernel
  have hyears : ∀ t ∈ closedBounds leapRange, t.HasPlainYear := by decide +kernel
  obtain ⟨low, high, first, last, hsplit, hform, hfirst, hlast, -, hagain⟩ :=
    dateRangeValue_normalForm haccepted hyears
  exact ⟨haccepted, hyears, low, high, first, last, hsplit, hform, hfirst, hlast, hagain⟩

/-! ### The order of the bounds -/

/-- In the fraction of the last second of the day, or in a leap second behind it. -/
def Instant.IsPastLastSecond (t : Instant) : Prop :=
  t.minute = 1439 ∧ (t.second = 60 ∨ t.second = 59 ∧ 0 < t.nanosecond)

theorem Instant.endOfDay_isBefore_iff (stop start : Instant) :
    stop.endOfDay.isBefore start = true ↔
      stop.date.dayNumber < start.date.dayNumber ∨
        stop.date.dayNumber = start.date.dayNumber ∧ start.IsPastLastSecond := by
  have hminute := start.minute_lt
  have hsecond := start.second_le
  simp only [isBefore_iff, endOfDay, IsPastLastSecond]
  omega

/-- **Rejected ranges.** A range of two closed bounds is rejected exactly when it starts on a later
day than the one it ends on, or on that day past its last second. -/
theorem dateRangeValue_rejected_iff {value low high : Text} {start stop : Instant}
    (hsplit : splitRange? value = some (low, high)) (hstart : Instant.read? low = some start)
    (hstop : Instant.read? high = some stop) :
    (∃ error, dateRangeValue value = .error error) ↔
      stop.date.dayNumber < start.date.dayNumber ∨
        stop.date.dayNumber = start.date.dayNumber ∧ start.IsPastLastSecond := by
  have hbounds : dateRangeBounds? value =
      if stop.endOfDay.isBefore start then none else some (some start, some stop.endOfDay) :=
    dateRangeBounds?_eq hsplit (readDateBound?_of_read? hstart) (readDateBound?_of_read? hstop)
  rw [← Instant.endOfDay_isBefore_iff, dateRangeValue, hbounds]
  by_cases hbackwards : stop.endOfDay.isBefore start = true
  · rw [if_pos hbackwards]
    simp [hbackwards]
  · rw [if_neg hbackwards]
    simp [hbackwards]

/-- A range that starts half an hour after midnight, an hour ahead of UTC. -/
def midnightRange : Text := "1950-06-01T00:30:00+01:00 TO 1950-05-31"

def midnightStart : Instant :=
  { Instant.startOfDay ⟨1950, 5, 31, by decide, by decide⟩ with
    minute := 23 * 60 + 30, minute_lt := by decide }

/-- In UTC the range starts on the day on which it ends, so it is not rejected. -/
theorem dateRangeValue_rejected_iff_midnightRange :
    splitRange? midnightRange = some ("1950-06-01T00:30:00+01:00".toList, "1950-05-31".toList) ∧
      Instant.read? "1950-06-01T00:30:00+01:00" = some midnightStart ∧
      Instant.read? "1950-05-31" = some (Instant.startOfDay midnightStart.date) ∧
      ¬∃ error, dateRangeValue midnightRange = .error error := by
  have hsplit : splitRange? midnightRange =
      some ("1950-06-01T00:30:00+01:00".toList, "1950-05-31".toList) := by decide +kernel
  have hstart : Instant.read? "1950-06-01T00:30:00+01:00" = some midnightStart := by
    decide +kernel
  have hstop : Instant.read? "1950-05-31" = some (Instant.startOfDay midnightStart.date) := by
    decide +kernel
  refine ⟨hsplit, hstart, hstop, ?_⟩
  rw [dateRangeValue_rejected_iff hsplit hstart hstop]
  rintro (hlater | ⟨-, hminute, -⟩)
  · exact absurd hlater (Int.lt_irrefl _)
  · revert hminute
    decide

/-- A range from an instant to the same instant, half a second before midnight. -/
def halfSecondRange : Text := "1912-06-30T23:59:59.5Z TO 1912-06-30T23:59:59.5Z"

def halfSecond : Instant :=
  { (Instant.startOfDay ⟨1912, 6, 30, by decide, by decide⟩).endOfDay with nanosecond := 500000000 }

/-- A range that starts and ends at one instant is rejected, though it starts on no later day. -/
theorem dateRangeValue_halfSecondRange_ne :
    splitRange? halfSecondRange =
        some ("1912-06-30T23:59:59.5Z".toList, "1912-06-30T23:59:59.5Z".toList) ∧
      Instant.read? "1912-06-30T23:59:59.5Z" = some halfSecond ∧
      ¬halfSecond.date.dayNumber < halfSecond.date.dayNumber ∧
      ∃ error, dateRangeValue halfSecondRange = .error error := by
  refine ⟨by decide +kernel, by decide +kernel, Int.lt_irrefl _, ?_⟩
  exact ⟨.invalidDateRange halfSecondRange, by decide +kernel⟩

end FilterAlgebra
