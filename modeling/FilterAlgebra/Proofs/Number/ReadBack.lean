import FilterAlgebra.Proofs.Number.DecimalParts
import FilterAlgebra.Proofs.Number.ShortestDecimals

/-!
# Numbers that are read back

The text of a finite number is a literal of this very number, sign and all. In the plain form
(`readFinite?_plain`) this is so because the shortest decimal is one of the values that are rounded
to the number. In the weight form (`readFinite?_weightText`) whole numbers are written exactly,
however large they are, and what is not finite is written as a zero.
-/

namespace FilterAlgebra

open Binary64

/-! ### Reading decimals -/

section Nearest

variable {negative : Bool} {significand exponent coefficient k : Nat}

theorem Binary64.RoundsTo.lt_pow
    (h : RoundsTo significand exponent (coefficient * 2 ^ unitPlaces) (10 ^ k))
    (hformat : (finite negative significand exponent).InFormat) :
    coefficient < 10 ^ (309 + k) := by
  obtain ⟨hsignificand, hexponent, -⟩ := hformat
  have hlt := h.lt (Nat.pow_pos (by decide)) hsignificand
  have hmost : 2 * leastNormal * 2 ^ maxExponent ≤ 10 ^ 309 * 2 ^ unitPlaces := by decide +kernel
  apply Nat.lt_of_mul_lt_mul_right (a := 2 ^ unitPlaces)
  calc coefficient * 2 ^ unitPlaces < 2 * leastNormal * (10 ^ k * 2 ^ exponent) := hlt
    _ ≤ 2 * leastNormal * (10 ^ k * 2 ^ maxExponent) :=
      Nat.mul_le_mul_left _ (Nat.mul_le_mul_left _ (Nat.pow_le_pow_right (by decide) hexponent))
    _ = 10 ^ k * (2 * leastNormal * 2 ^ maxExponent) := by ring
    _ ≤ 10 ^ k * (10 ^ 309 * 2 ^ unitPlaces) := Nat.mul_le_mul_left _ hmost
    _ = 10 ^ (309 + k) * 2 ^ unitPlaces := by
      rw [pow_add, Nat.mul_left_comm, Nat.mul_assoc]

/-- A decimal that is rounded to a number of the format is neither too large nor too small to be
looked at closely. -/
theorem Decimal.toBinary64_eq (hcoefficient : coefficient ≠ 0) (hk : k ≤ 324)
    (hformat : (finite negative significand exponent).InFormat)
    (h : RoundsTo significand exponent (coefficient * 2 ^ unitPlaces) (10 ^ k)) :
    (Decimal.mk negative coefficient (-(k : Int))).toBinary64 =
      finite negative significand exponent := by
  have hlength : (natText coefficient).length ≤ 309 + k :=
    length_natText_le (by omega) (h.lt_pow hformat)
  have hdigits : 0 < (natText coefficient).length :=
    List.length_pos_iff.mpr (natText_ne_nil coefficient)
  have hwhole : (-(k : Int)).toNat = 0 := by omega
  have hfraction : (-(-(k : Int))).toNat = k := by omega
  unfold toBinary64
  simp only [hwhole, hfraction, Nat.pow_eq, Nat.pow_zero, Nat.mul_one]
  rw [if_neg (by omega), if_neg (by omega), ofRatio, Nat.pow_eq,
    h.ofUnits_eq (Nat.pow_pos (by decide)) hformat]

end Nearest

theorem Decimal.toBinary64_zero (negative : Bool) (exponent : Int) :
    (Decimal.mk negative 0 exponent).toBinary64 = finite negative 0 0 := by
  unfold toBinary64
  exact if_pos (.inl rfl)

/-- A literal with a minus sign perhaps is read as the digits and the exponent behind the sign. -/
theorem readFinite?_signed {negative : Bool} {s : Text} {coefficient : Nat} {exponent : Int}
    (h : Decimal.Parts s coefficient exponent) {significand place : Nat}
    (hnumber : (Decimal.mk negative coefficient exponent).toBinary64 =
      finite negative significand place) :
    readFinite? (signed negative s) = some (finite negative significand place) := by
  have hsign : Decimal.readSign (signed negative s) = (negative, s) := by
    cases negative with
    | true => rfl
    | false => exact h.readSign_eq
  rw [readFinite?, Decimal.read?_of_parts hsign h, Option.map_some, hnumber]
  rfl

theorem parts_natText (n : Nat) : Decimal.Parts (natText n) n 0 := by
  have hparts := Decimal.Parts.of_isDigits (isDigits_natText n)
  rwa [digitsValue_natText] at hparts

/-- Digits on both sides of a point. -/
theorem parts_point {whole fraction : Text} (hwhole : IsDigits whole)
    (hfraction : ∀ c ∈ fraction, c.isDigit = true) :
    Decimal.Parts (whole ++ '.' :: fraction) (digitsValue (whole ++ fraction))
      (-(fraction.length : Int)) := by
  have hparts := @Decimal.Parts.point whole fraction [] 0 hwhole.2 hfraction
    (fun hnil => hwhole.1 hnil.1) rfl
  rwa [List.append_nil, Int.zero_sub] at hparts

section Digits

variable {digits : Text} (hdigits : IsDigits digits)

include hdigits

/-- A point among digits. -/
theorem parts_take_drop {k : Nat} (hk : k < digits.length) :
    Decimal.Parts (digits.take (digits.length - k) ++ '.' :: digits.drop (digits.length - k))
      (digitsValue digits) (-(k : Int)) := by
  have htake : IsDigits (digits.take (digits.length - k)) := hdigits.take (by omega)
  have hdrop : ∀ c ∈ digits.drop (digits.length - k), c.isDigit = true :=
    fun c hc => hdigits.2 c (List.mem_of_mem_drop hc)
  have hparts := parts_point htake hdrop
  rwa [List.take_append_drop, List.length_drop, Nat.sub_sub_self (Nat.le_of_lt hk)] at hparts

/-- A point in front of digits, and zeros between them. -/
theorem parts_zeros_append {k : Nat} (hk : digits.length ≤ k) :
    Decimal.Parts ("0." ++ List.replicate (k - digits.length) '0' ++ digits)
      (digitsValue digits) (-(k : Int)) := by
  have hfraction := IsDigits.of_replicate_append (k - digits.length) hdigits
  have hparts := parts_point (isDigits_singleton (by decide : '0'.isDigit = true)) hfraction.2
  have hzeros : ∀ c ∈ ['0'] ++ List.replicate (k - digits.length) '0', c = '0' := by simp
  rw [← List.append_assoc, digitsValue_append, digitsValue_zeros hzeros, Nat.zero_mul,
    Nat.zero_add, List.length_append, List.length_replicate, Nat.sub_add_cancel hk] at hparts
  rw [List.append_assoc]
  exact hparts

end Digits

/-- A zero has the least exponent. -/
theorem Binary64.InFormat.exponent_eq_zero {negative : Bool} {exponent : Nat}
    (h : (Binary64.finite negative 0 exponent).InFormat) : exponent = 0 := by
  obtain ⟨-, -, hnormal⟩ := h
  by_contra hne
  exact absurd (hnormal hne) (by decide)

/-! ### The plain form -/

/-- Digits in positional notation are read as the decimal that they are written for. -/
theorem parts_positional {coefficient : Nat} (h : coefficient ≠ 0) (place : Int) :
    Decimal.Parts (positional coefficient place) (coefficient * 10 ^ place.toNat)
      (-((-place).toNat : Int)) := by
  have hdigits := isDigits_natText coefficient
  have hvalue := digitsValue_natText coefficient
  by_cases hwhole : 0 ≤ place
  · -- zeros behind the digits
    have hnone : (-place).toNat = 0 := by omega
    rw [positional_of_nonneg (Nat.pos_of_ne_zero h) hwhole, hnone]
    exact parts_natText (coefficient * 10 ^ place.toNat)
  have hsome : (-place).toNat ≠ 0 := by omega
  have hzero : place.toNat = 0 := by omega
  simp only [positional, hsome, if_false, hzero, Nat.pow_zero, Nat.mul_one]
  generalize (-place).toNat = k
  by_cases hshort : k < (natText coefficient).length
  · rw [if_pos hshort]
    simpa only [hvalue] using parts_take_drop hdigits hshort
  · rw [if_neg hshort]
    simpa only [hvalue] using parts_zeros_append hdigits (Nat.le_of_not_lt hshort)

theorem readFinite?_plain {x : Binary64} (h : x.InFormat) (hfinite : x.isFinite = true) :
    readFinite? x.plain = some x := by
  cases x with
  | infinite negative => cases hfinite
  | nan => cases hfinite
  | finite negative significand exponent =>
    by_cases hzero : significand = 0
    · subst hzero
      have hparts : Decimal.Parts "0" 0 0 := parts_natText 0
      rw [h.exponent_eq_zero, plain, if_pos rfl]
      exact readFinite?_signed hparts (Decimal.toBinary64_zero negative 0)
    · obtain ⟨coefficient, place, hshortest, hcoefficient, hplace, hrounds⟩ :=
        shortest_spec .up hzero exponent
      have hne : coefficient * 10 ^ place.toNat ≠ 0 :=
        Nat.mul_ne_zero hcoefficient (Nat.ne_of_gt (Nat.pow_pos (by decide)))
      rw [plain, if_neg hzero, hshortest]
      exact readFinite?_signed (parts_positional hcoefficient place)
        (Decimal.toBinary64_eq hne (by omega) h hrounds)

/-! ### The weight form -/

/-- What a number counts as where only finite numbers can be written. -/
def Binary64.orZero (x : Binary64) : Binary64 := if x.isFinite then x else .finite false 0 0

theorem magnitude_mul_pow {negative : Bool} {significand exponent magnitude : Nat}
    (h : (finite negative significand exponent).wholeMagnitude? = some magnitude) :
    magnitude * 2 ^ unitPlaces = significand * 2 ^ exponent := by
  simp only [wholeMagnitude?, Nat.pow_eq] at h
  split at h
  · next hmod => rw [← Option.some.inj h, Nat.div_mul_cancel (Nat.dvd_of_mod_eq_zero hmod)]
  · cases h

/-- A whole number with a zero behind the point. -/
theorem parts_whole (magnitude : Nat) :
    Decimal.Parts (natText magnitude ++ ".0") (magnitude * 10) (-((1 : Nat) : Int)) := by
  have hparts := parts_point (isDigits_natText magnitude)
    (List.forall_mem_singleton.mpr (by decide : '0'.isDigit = true))
  have hvalue : digitsValue (natText magnitude ++ ['0']) = magnitude * 10 := by
    rw [digitsValue_append, digitsValue_natText]
    rfl
  rwa [hvalue] at hparts

/-- The text of a weight is a numeral of this weight, or of zero if it is not finite. -/
theorem readFinite?_weightText {x : Binary64} (h : x.InFormat) :
    readFinite? x.weightText = some x.orZero := by
  cases x with
  | infinite negative => cases negative <;> decide
  | nan => decide
  | finite negative significand exponent =>
    unfold weightText
    cases hmagnitude : (finite negative significand exponent).wholeMagnitude? with
    | none => exact readFinite?_plain h rfl
    | some magnitude =>
      have hvalue := magnitude_mul_pow hmagnitude
      apply readFinite?_signed (parts_whole magnitude)
      by_cases hzero : magnitude = 0
      · -- a zero with its sign
        have hsignificand : significand = 0 := by
          rw [hzero, Nat.zero_mul] at hvalue
          exact (Nat.mul_eq_zero.mp hvalue.symm).resolve_right
            (Nat.ne_of_gt (Nat.two_pow_pos exponent))
        subst hsignificand
        rw [hzero, h.exponent_eq_zero, Nat.zero_mul]
        exact Decimal.toBinary64_zero negative _
      · -- the digits are the number itself, not only near to it
        have hexact : magnitude * 10 * 2 ^ unitPlaces = significand * (10 ^ 1 * 2 ^ exponent) := by
          rw [Nat.mul_right_comm, hvalue, Nat.mul_right_comm, Nat.mul_assoc, Nat.pow_one]
        exact Decimal.toBinary64_eq (Nat.mul_ne_zero hzero (by decide)) (by decide) h
          (.of_eq (by decide) hexact)

end FilterAlgebra
