import FilterAlgebra.Number.Word
import FilterAlgebra.Proofs.Number.DecimalParts
import FilterAlgebra.Proofs.Number.WholeNumbers
import FilterAlgebra.Proofs.Range.Forms
import FilterAlgebra.Proofs.Range.Splitting

/-!
# Integer ranges

A range of integers should be accepted exactly when it does not run backwards. The bounds are
compared as binary64 numbers, though (`isDescending_eq`), which do not tell all integers of
sixty-four bits apart. So a range that does not run backwards is always accepted, and one that does
is rejected unless its bounds become the same number. For that they must be large, and less than
about a thousand apart.
-/

namespace FilterAlgebra

/-! ### Written integers -/

/-- The ways to write an integer in decimal: digits, which may begin with zeros, and a sign, which
only a negative number needs. -/
inductive WritesInt : Text → Int → Prop where
  | unsigned {s : Text} (hs : IsDigits s) : WritesInt s (digitsValue s)
  | plus {s : Text} (hs : IsDigits s) : WritesInt ('+' :: s) (digitsValue s)
  | minus {s : Text} (hs : IsDigits s) : WritesInt ('-' :: s) (-(digitsValue s : Int))

namespace WritesInt

variable {s : Text} {n : Int}

theorem head_cases (h : WritesInt s n) :
    ∃ c t, s = c :: t ∧ (c.isDigit = true ∨ c = '+' ∨ c = '-') := by
  cases h with
  | unsigned hs =>
    obtain ⟨c, t, rfl⟩ := List.exists_cons_of_ne_nil hs.1
    exact ⟨c, t, rfl, .inl (hs.2 c List.mem_cons_self)⟩
  | plus hs => exact ⟨'+', _, rfl, .inr (.inl rfl)⟩
  | minus hs => exact ⟨'-', _, rfl, .inr (.inr rfl)⟩

/-- A written integer begins with no character but a digit or a sign. -/
theorem ne_cons (h : WritesInt s n) {c : Char} (hdigit : c.isDigit = false) (hplus : c ≠ '+')
    (hminus : c ≠ '-') (t : Text) : s ≠ c :: t := by
  rintro rfl
  obtain ⟨d, u, hs, hd⟩ := h.head_cases
  rw [← (List.cons.inj hs).1] at hd
  rcases hd with hd | hd | hd
  · rw [hdigit] at hd
    cases hd
  · exact hplus hd
  · exact hminus hd

theorem isBlank_eq_false (h : WritesInt s n) : ∀ c ∈ s, isBlank c = false := by
  cases h with
  | unsigned hs => exact fun c hc => isBlank_of_isDigit (hs.2 c hc)
  | plus hs =>
    exact List.forall_mem_cons.mpr ⟨by decide, fun c hc => isBlank_of_isDigit (hs.2 c hc)⟩
  | minus hs =>
    exact List.forall_mem_cons.mpr ⟨by decide, fun c hc => isBlank_of_isDigit (hs.2 c hc)⟩

theorem ne_nil (h : WritesInt s n) : s ≠ [] := by
  obtain ⟨c, t, rfl, -⟩ := h.head_cases
  exact List.cons_ne_nil c t

/-- A written integer is read as a literal without a fraction and an exponent. -/
theorem read? (h : WritesInt s n) :
    ∃ negative magnitude, Decimal.read? s = some ⟨negative, magnitude, 0⟩ ∧
      n = Binary64.signedInt negative magnitude := by
  have hread : ∀ {negative : Bool} {digits : Text}, IsDigits digits →
      Decimal.readSign s = (negative, digits) →
      Decimal.read? s = some ⟨negative, digitsValue digits, 0⟩ :=
    fun hdigits hsign => Decimal.read?_of_parts hsign (.of_isDigits hdigits)
  cases h with
  | @unsigned s hs =>
    exact ⟨false, digitsValue s, hread hs (Decimal.readSign_of_isDigits hs), rfl⟩
  | @plus s hs => exact ⟨false, digitsValue s, hread hs rfl, rfl⟩
  | @minus s hs => exact ⟨true, digitsValue s, hread hs rfl, rfl⟩

end WritesInt

/-! ### The number of a bound -/

namespace Binary64

theorem isFinite_of_units? {x : Binary64} {units : Int} (h : x.units? = some units) :
    x.isFinite = true := by
  cases x with
  | finite negative significand exponent => rfl
  | infinite negative => cases h
  | nan => cases h

theorem units?_toBinary64 (negative : Bool) {magnitude : Nat} (h : magnitude < 2 ^ 64) :
    (Decimal.toBinary64 ⟨negative, magnitude, 0⟩).units? =
      some (signedInt negative (nearestWhole magnitude * 2 ^ unitPlaces)) := by
  have hlength : (natText magnitude).length ≤ 20 :=
    length_natText_le (by decide) (Nat.lt_trans h (by decide))
  unfold Decimal.toBinary64
  by_cases hzero : magnitude = 0
  · rw [hzero, nearestWhole_zero]
    cases negative <;> decide +kernel
  · simp only
    rw [if_neg (by omega), if_neg (by omega), ← units?_ofRatio negative h]
    simp

theorem signedInt_nearestWhole (negative : Bool) (magnitude scale : Nat) :
    signedInt negative (nearestWhole magnitude * scale) =
      nearestInt (signedInt negative magnitude) * scale := by
  cases negative with
  | false =>
    have hnot : ¬(magnitude : Int) < 0 := by omega
    simp only [signedInt, nearestInt, Bool.false_eq_true, if_false, hnot, Int.natAbs_natCast]
    exact Int.natCast_mul _ _
  | true =>
    rcases Nat.eq_zero_or_pos magnitude with rfl | hpos
    · simp [signedInt, nearestInt, nearestWhole_zero]
    · have hneg : -(magnitude : Int) < 0 := by omega
      simp only [signedInt, nearestInt, if_true, hneg, Int.natAbs_neg, Int.natAbs_natCast,
        Int.natCast_mul, Int.neg_mul]

end Binary64

open Binary64 (nearestInt unitPlaces)

theorem WritesInt.readNumericBound? {s : Text} {n : Int} (h : WritesInt s n)
    (hn : n.natAbs < 2 ^ 64) :
    ∃ x, readNumericBound? s = some (some x) ∧ x.units? = some (nearestInt n * 2 ^ unitPlaces) := by
  obtain ⟨negative, magnitude, hread, rfl⟩ := h.read?
  have hmagnitude : magnitude < 2 ^ 64 := by
    cases negative <;> simpa [Binary64.signedInt] using hn
  have hunits := Binary64.units?_toBinary64 negative hmagnitude
  rw [Binary64.signedInt_nearestWhole, Int.natCast_pow, Nat.cast_ofNat] at hunits
  refine ⟨_, ?_, hunits⟩
  have hopen : s ≠ ['*'] := h.ne_cons (by decide) (by decide) (by decide) []
  have hfinite := Binary64.isFinite_of_units? hunits
  simp [FilterAlgebra.readNumericBound?, hopen, Binary64.readFinite?, hread, Option.filter, hfinite]

/-! ### The order of the bounds -/

section Bounds

variable {low high : Text} {a b : Int}

theorem natAbs_le_of_fitsSigned (h : fitsSigned a = true) : a.natAbs ≤ 2 ^ 63 := by
  simp only [fitsSigned, Bool.and_eq_true, decide_eq_true_eq] at h
  omega

/-- Bounds are taken to run backwards when the numbers nearest to them do. -/
theorem isDescending_eq {x y : Binary64} (hx : x.units? = some (nearestInt a * 2 ^ unitPlaces))
    (hy : y.units? = some (nearestInt b * 2 ^ unitPlaces)) :
    isDescending (some x) (some y) = decide (nearestInt b < nearestInt a) := by
  have hpos : (0 : Int) < 2 ^ unitPlaces := Int.pow_pos (by decide)
  simp only [isDescending, hx, hy, Int.mul_lt_mul_right hpos]

theorem not_nearestInt_lt_iff :
    ¬nearestInt b < nearestInt a ↔ a ≤ b ∨ nearestInt a = nearestInt b := by
  constructor
  · intro h
    rcases Int.le_total a b with hle | hle
    · exact .inl hle
    · exact .inr (Int.le_antisymm (Int.not_lt.mp h) (Binary64.nearestInt_mono hle))
  · rintro (hle | heq)
    · exact Int.not_lt.mpr (Binary64.nearestInt_mono hle)
    · exact Int.not_lt.mpr (Int.le_of_eq heq)

theorem numericRangeValue_of_splitRange? {value : Text}
    (hsplit : splitRange? value = some (low, high)) (hlow : WritesInt low a)
    (hhigh : WritesInt high b) (ha : fitsSigned a = true) (hb : fitsSigned b = true) :
    numericRangeValue value =
      if a ≤ b ∨ nearestInt a = nearestInt b then .ok (rangeText low high)
      else .error (.invalidNumericRange value) := by
  have hwide : ∀ {n : Int}, fitsSigned n = true → n.natAbs < 2 ^ 64 := fun h =>
    Nat.lt_of_le_of_lt (natAbs_le_of_fitsSigned h) (by decide)
  obtain ⟨x, hx, hxunits⟩ := hlow.readNumericBound? (hwide ha)
  obtain ⟨y, hy, hyunits⟩ := hhigh.readNumericBound? (hwide hb)
  simp only [numericRangeValue, numericRangeBounds?, hsplit, hx, hy,
    isDescending_eq hxunits hyunits, ← not_nearestInt_lt_iff, decide_eq_true_eq]
  by_cases hbackwards : nearestInt b < nearestInt a
  · rw [if_pos hbackwards, if_neg (not_not_intro hbackwards)]
  · rw [if_neg hbackwards, if_pos hbackwards]

theorem splitRange?_of_writesInt {value : Text} (hvalue : SpellsRange low high value)
    (hlow : WritesInt low a) (hhigh : WritesInt high b) : splitRange? value = some (low, high) :=
  hvalue.splitRange?_eq hlow.ne_nil hhigh.ne_nil hlow.isBlank_eq_false hhigh.isBlank_eq_false
    (hlow.ne_cons (by decide) (by decide) (by decide))
    (hlow.ne_cons (by decide) (by decide) (by decide))

theorem joinBounds_of_isPadded {f : Filter} {first last : Text}
    (hq : f.q = some (.many [first, last])) (hfirst : IsPadded low first)
    (hlast : IsPadded high last) (hlow : WritesInt low a) (hhigh : WritesInt high b) :
    joinBounds f = .ok { f with q := some (.one (low ++ rangeSeparator ++ high)) } := by
  simp only [joinBounds, hq, hfirst.trim_eq, hlast.trim_eq,
    Text.trim_of_forall hlow.isBlank_eq_false, Text.trim_of_forall hhigh.isBlank_eq_false]

/-- **Integer ranges.** However a range of two integers of sixty-four bits is spelled, as one value
or as two bounds, it is accepted with its digits unchanged exactly when it does not run backwards or
its bounds become the same binary64 number. A range that runs backwards and is accepted all the same
has a bound beyond `2 ^ 53`, and its bounds are at most 1024 apart. -/
theorem numericRangeValue_integers (hlow : WritesInt low a) (hhigh : WritesInt high b)
    (ha : fitsSigned a = true) (hb : fitsSigned b = true) :
    (∀ value, SpellsRange low high value → numericRangeValue value =
      if a ≤ b ∨ nearestInt a = nearestInt b then .ok (rangeText low high)
      else .error (.invalidNumericRange value)) ∧
    (∀ f first last, f.q = some (.many [first, last]) → IsPadded low first → IsPadded high last →
      ∃ g joined, joinBounds f = .ok g ∧ g.q = some (.one joined) ∧ numericRangeValue joined =
        if a ≤ b ∨ nearestInt a = nearestInt b then .ok (rangeText low high)
        else .error (.invalidNumericRange joined)) ∧
    (b < a → nearestInt a = nearestInt b →
      (2 ^ 53 < a.natAbs ∨ 2 ^ 53 < b.natAbs) ∧ a - b ≤ 1024) := by
  have hspelled : ∀ value, SpellsRange low high value → numericRangeValue value = _ :=
    fun value hvalue =>
      numericRangeValue_of_splitRange? (splitRange?_of_writesInt hvalue hlow hhigh) hlow hhigh ha hb
  refine ⟨hspelled, ?_, ?_⟩
  · intro f first last hq hfirst hlast
    exact ⟨_, _, joinBounds_of_isPadded hq hfirst hlast hlow hhigh, rfl,
      hspelled _ (.bare (isPadded_refl low) (isPadded_refl high))⟩
  · intro hbackwards hsame
    have haerror := Binary64.nearestInt_error (natAbs_le_of_fitsSigned ha)
    have hberror := Binary64.nearestInt_error (natAbs_le_of_fitsSigned hb)
    refine ⟨?_, by omega⟩
    by_contra hsmall
    rw [not_or, Nat.not_lt, Nat.not_lt] at hsmall
    rw [Binary64.nearestInt_of_le hsmall.1, Binary64.nearestInt_of_le hsmall.2] at hsame
    omega

end Bounds

/-- A range of all integers from seven on, with a zero, a sign, brackets and blanks. -/
def paddedIntegers : Text := " [ 007 TO +9223372036854775807] "

theorem numericRangeValue_integers_padded :
    WritesInt "007" 7 ∧ WritesInt "+9223372036854775807" 9223372036854775807 ∧
      fitsSigned 7 = true ∧ fitsSigned 9223372036854775807 = true ∧
      SpellsRange "007" "+9223372036854775807" paddedIntegers ∧
      numericRangeValue paddedIntegers = .ok "[007 TO +9223372036854775807]".toList := by
  have hlow : WritesInt "007" 7 :=
    .unsigned (s := "007") ⟨by decide, List.all_eq_true.mp (by decide)⟩
  have hhigh : WritesInt "+9223372036854775807" 9223372036854775807 :=
    .plus (s := "9223372036854775807") ⟨by decide, List.all_eq_true.mp (by decide)⟩
  have hvalue : SpellsRange "007" "+9223372036854775807" paddedIntegers :=
    .bracketed ⟨[' '], [], rfl, rfl, rfl⟩ (isPadded_refl _) ⟨[' '], [' '], rfl, rfl, rfl⟩
  have haccepted := (numericRangeValue_integers hlow hhigh rfl rfl).1 paddedIntegers hvalue
  rw [if_pos (.inl (by decide))] at haccepted
  exact ⟨hlow, hhigh, rfl, rfl, hvalue, haccepted⟩

/-- A range from an integer to the one before it, both of which become the same number. -/
def neighbours : Text := "9007199254740993 TO 9007199254740992"

/-- A range that runs backwards is accepted when its bounds cannot be told apart. -/
theorem numericRangeValue_neighbours_ne :
    neighbours = intText 9007199254740993 ++ rangeSeparator ++ intText 9007199254740992 ∧
      ¬(9007199254740993 : Int) ≤ 9007199254740992 ∧
      numericRangeValue neighbours = .ok ('[' :: neighbours ++ [']']) := by
  decide +kernel

end FilterAlgebra
