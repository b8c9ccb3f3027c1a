import FilterAlgebra.Calendar.Printer
import FilterAlgebra.Calendar.Reader
import FilterAlgebra.Proofs.Number.Written

/-!
# Timestamps

A timestamp shows an instant of UTC to the second (`IsTimestamp`): year, month, day, hour, minute
and second, each with its full number of digits, and one mark between two of them. A leap second
shows as second 60. The text of an instant is its timestamp if the year has four digits
(`isTimestamp_text`), and every timestamp is read back as the instant that it shows
(`IsTimestamp.read?`), without the fraction, which it does not show.
-/

namespace FilterAlgebra

/-! ### Fields of digits -/

/-- A number written with a fixed number of digits. -/
structure IsField (length n : Nat) (s : Text) : Prop where
  length_eq : s.length = length
  isDigit : ∀ c ∈ s, c.isDigit = true
  value_eq : digitsValue s = n

theorem isDigit_of_mem_paddedText {length n : Nat} {c : Char} (h : c ∈ paddedText length n) :
    c.isDigit = true := by
  rcases List.mem_append.mp h with h | h
  · rw [List.eq_of_mem_replicate h]
    rfl
  · exact isDigit_of_mem_natText h

theorem digitsValue_paddedText (length n : Nat) : digitsValue (paddedText length n) = n := by
  have hzeros : ∀ count, (List.replicate count '0').foldl withDigit 0 = 0 := by
    intro count
    induction count with
    | zero => rfl
    | succ count ih => exact ih
  rw [paddedText, digitsValue, List.foldl_append, hzeros]
  exact digitsValue_natText n

theorem isField_paddedText {length n : Nat} (hlength : 0 < length) (h : n < 10 ^ length) :
    IsField length n (paddedText length n) where
  length_eq := by
    have hdigits := length_natText_le hlength h
    simp only [paddedText, List.length_append, List.length_replicate]
    omega
  isDigit _ := isDigit_of_mem_paddedText
  value_eq := digitsValue_paddedText length n

theorem isBlank_of_isDigit {c : Char} (h : c.isDigit = true) : isBlank c = false := by
  have hcode := toNat_of_isDigit h
  simp only [isBlank, blankRanges, List.any_cons, List.any_nil, Bool.or_false, Bool.or_eq_false_iff,
    Bool.and_eq_false_iff, decide_eq_false_iff_not]
  omega

theorem IsField.isBlank_eq_false {length n : Nat} {s : Text} (h : IsField length n s) :
    ∀ c ∈ s, isBlank c = false :=
  fun c hc => isBlank_of_isDigit (h.isDigit c hc)

/-! ### What a timestamp shows -/

theorem daysInMonth_le (year : Int) (month : Nat) : daysInMonth year month ≤ 31 := by
  unfold daysInMonth
  split
  · split <;> decide
  · split <;> decide

namespace Instant

/-- The years that have four digits and no sign. -/
def HasPlainYear (t : Instant) : Prop := 0 ≤ t.date.year ∧ t.date.year ≤ 9999

instance (t : Instant) : Decidable t.HasPlainYear := inferInstanceAs (Decidable (_ ∧ _))

/-- The instant without its fraction of a second. -/
def wholeSecond (t : Instant) : Instant := { t with nanosecond := 0 }

/-- The timestamps of an instant. -/
inductive IsTimestamp (t : Instant) : Text → Prop where
  | fields {n : Nat} {year month day hour minute second : Text} :
      t.date.year = n → IsField 4 n year → IsField 2 t.date.month month →
      IsField 2 t.date.day day → IsField 2 (t.minute / 60) hour →
      IsField 2 (t.minute % 60) minute → IsField 2 t.second second →
      IsTimestamp t (year ++ '-' :: (month ++ '-' :: (day ++ 'T' :: (hour ++ ':' :: (minute ++
        ':' :: (second ++ ['Z']))))))

theorem yearText_of_hasPlainYear {t : Instant} (h : t.HasPlainYear) :
    yearText t.date.year = paddedText 4 t.date.year.natAbs := by
  rw [yearText, if_neg (Int.not_lt.mpr h.1), if_neg (Int.not_lt.mpr h.2)]

/-- **The text of an instant** is a timestamp of it. -/
theorem isTimestamp_text {t : Instant} (hyear : t.HasPlainYear) : t.IsTimestamp t.text := by
  have hmonth := t.date.month_mem
  have hday : t.date.day ≤ 31 := by
    have hmem := t.date.day_mem
    have hmost := daysInMonth_le t.date.year t.date.month
    omega
  have hminute := t.minute_lt
  have hsecond := t.second_le
  have hnumber : t.date.year = t.date.year.natAbs := (Int.natAbs_of_nonneg hyear.1).symm
  have hdigits : t.date.year.natAbs < 10 ^ 4 := by
    have hlast := hyear.2
    omega
  simp only [text, yearText_of_hasPlainYear hyear, List.append_assoc, List.cons_append]
  exact .fields hnumber (isField_paddedText (by decide) hdigits)
    (isField_paddedText (by decide) (by omega)) (isField_paddedText (by decide) (by omega))
    (isField_paddedText (by decide) (by omega)) (isField_paddedText (by decide) (by omega))
    (isField_paddedText (by decide) (by omega))

theorem IsTimestamp.isBlank_eq_false {t : Instant} {s : Text} (h : t.IsTimestamp s) :
    ∀ c ∈ s, isBlank c = false := by
  obtain ⟨_, hyear, hmonth, hday, hhour, hminute, hsecond⟩ := h
  simp only [List.forall_mem_append, List.forall_mem_cons]
  exact ⟨hyear.isBlank_eq_false, by decide, hmonth.isBlank_eq_false, by decide,
    hday.isBlank_eq_false, by decide, hhour.isBlank_eq_false, by decide,
    hminute.isBlank_eq_false, by decide, hsecond.isBlank_eq_false, by decide, by simp⟩

/-! ### Reading timestamps -/

theorem readPadded?_append {count n : Nat} {s : Text} (h : IsField count n s) (r : Text) :
    readPadded? count (s ++ r) = some (n, r) := by
  have hdigits : s.all Char.isDigit = true := List.all_eq_true.mpr h.isDigit
  simp only [readPadded?, List.take_left' h.length_eq, List.drop_left' h.length_eq]
  rw [if_pos ⟨h.length_eq, hdigits⟩, h.value_eq]

theorem readChar?_cons (c : Char) (s : Text) : readChar? c (c :: s) = some s :=
  Text.afterFirst?_eq_some_iff.mpr rfl

theorem readClock?_append {minutes : Nat} {hour minute : Text} (h : minutes < 1440)
    (hhour : IsField 2 (minutes / 60) hour) (hminute : IsField 2 (minutes % 60) minute) (r : Text) :
    readClock? (hour ++ ':' :: (minute ++ r)) = some (minutes, r) := by
  have hhours : minutes / 60 ≤ 23 := by omega
  have hminutes : minutes % 60 ≤ 59 := by omega
  simp only [readClock?, readPadded?_append hhour, readPadded?_append hminute, readChar?_cons,
    Option.bind_eq_bind, Option.bind_some]
  rw [if_pos ⟨hhours, hminutes⟩, Nat.div_add_mod]

theorem ofParts?_date (d : Date) : Date.ofParts? d.year d.month d.day = some d := by
  rw [Date.ofParts?, dif_pos d.month_mem, dif_pos d.day_mem]

theorem ofLocal?_utc (t : Instant) :
    ofLocal? t.date t.minute t.second 0 0 = some t.wholeSecond := by
  have hminute := t.minute_lt
  have hlow : 0 ≤ (t.minute : Int) - 0 := by omega
  have hhigh : (t.minute : Int) - 0 < 1440 := by omega
  simp only [ofLocal?]
  rw [dif_pos t.second_le, dif_pos hlow, dif_pos hhigh]
  simp [wholeSecond]

theorem IsTimestamp.readTimestamp? {t : Instant} {s : Text} (h : t.IsTimestamp s) :
    Instant.readTimestamp? s = some t.wholeSecond := by
  obtain ⟨hnumber, hyear, hmonth, hday, hhour, hminute, hsecond⟩ := h
  have hfraction : readFraction? ['Z'] = some (0, ['Z']) := rfl
  have hoffset : readOffset? ['Z'] = some (0, []) := rfl
  -- each field is taken with its full number of digits, and the mark behind it with it
  refine Option.bind_eq_some_iff.mpr ⟨_, readPadded?_append hyear _, ?_⟩
  refine Option.bind_eq_some_iff.mpr ⟨_, readChar?_cons '-' _, ?_⟩
  refine Option.bind_eq_some_iff.mpr ⟨_, readPadded?_append hmonth _, ?_⟩
  refine Option.bind_eq_some_iff.mpr ⟨_, readChar?_cons '-' _, ?_⟩
  refine Option.bind_eq_some_iff.mpr ⟨_, readPadded?_append hday _, ?_⟩
  refine Option.bind_eq_some_iff.mpr ⟨_, readClock?_append t.minute_lt hhour hminute _, ?_⟩
  refine Option.bind_eq_some_iff.mpr ⟨_, readChar?_cons ':' _, ?_⟩
  refine Option.bind_eq_some_iff.mpr ⟨_, readPadded?_append hsecond _, ?_⟩
  refine Option.bind_eq_some_iff.mpr ⟨_, hfraction, ?_⟩
  refine Option.bind_eq_some_iff.mpr ⟨_, hoffset, ?_⟩
  refine Option.bind_eq_some_iff.mpr ⟨t.date, ?_, ?_⟩
  · rw [← hnumber]
    exact ofParts?_date t.date
  · exact ofLocal?_utc t

/-- **Timestamps are read back** as the instants that they show. -/
theorem IsTimestamp.read? {t : Instant} {s : Text} (h : t.IsTimestamp s) :
    Instant.read? s = some t.wholeSecond := by
  rw [Instant.read?, h.readTimestamp?]
  rfl

end Instant

end FilterAlgebra
