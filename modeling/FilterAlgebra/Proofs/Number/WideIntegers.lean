import FilterAlgebra.Filter.Json
import FilterAlgebra.Proofs.Number.ShortestDecimals

/-!
# Integers that only an unsigned word holds

Such an integer is kept by the text of the binary64 number nearest to it, which is the text of the
shortest decimal that rounds to this number. Neighbouring numbers of that size are 2048 apart or
more, so a multiple of a thousand lies between a number and the middle to the next one. Hence no
grid finer than that of the thousands is tried, and the text ends in three zeros
(`exists_plain_of_wide`).
-/

namespace FilterAlgebra

namespace Binary64

/-! ### Multiples of a thousand -/

section Shortest

variable {significand exponent whole : Nat}

/-- The shortest decimal of a whole number whose neighbours are 2048 or 4096 away. -/
theorem exists_shortest (hexponent : exponent = unitPlaces + 11 ∨ exponent = unitPlaces + 12)
    (hvalue : significand * 2 ^ exponent = whole * 2 ^ unitPlaces) :
    ∃ coefficient place : Nat, shortest .up significand exponent = (coefficient, (place : Int)) ∧
      3 ≤ place ∧ coefficient * 10 ^ place ≤ whole + 2048 ∧
      whole ≤ coefficient * 10 ^ place + 2048 := by
  have hone : 0 < 2 ^ unitPlaces := Nat.two_pow_pos _
  have hgap : 2048 * 2 ^ unitPlaces ≤ 2 ^ exponent ∧ 2 ^ exponent ≤ 4096 * 2 ^ unitPlaces := by
    rcases hexponent with rfl | rfl <;> simp only [Nat.pow_add] <;> omega
  -- the grid of the thousands is fine enough, so the decimal is on it or on a coarser one
  have hfine : 2 ^ (unitPlaces + 2) * 10 ^ (3 : Int).toNat <
      2 * 2 ^ exponent * 10 ^ (-(3 : Int)).toNat := by
    rw [Nat.pow_add, (by decide : (10 : Nat) ^ (3 : Int).toNat = 1000),
      (by decide : (10 : Nat) ^ (-(3 : Int)).toNat = 1)]
    generalize 2 ^ unitPlaces = one at hone hgap ⊢
    omega
  have hthousands : ∃ coefficient, gridPoint? .up significand exponent 3 = some coefficient :=
    exists_gridPoint? hfine
  obtain ⟨coefficient, found, hshortest, hfound, hpoint⟩ :=
    coarsest_of_gridPoint? hthousands 634 (by decide : (3 : Int) ≤ 309) (by decide)
  obtain ⟨place, rfl⟩ := Int.eq_ofNat_of_zero_le (Int.le_trans (by decide) hfound)
  have hwhole : (-(place : Int)).toNat = 0 := by omega
  have hnear := (roundsTo_of_gridPoint? hpoint).nearest
  simp only [hwhole, Int.toNat_natCast, Nat.pow_zero, Nat.one_mul] at hnear
  obtain ⟨habove, hbelow, -⟩ := hnear
  rw [hvalue] at habove hbelow
  refine ⟨coefficient, place, hshortest, Int.ofNat_le.mp hfound, ?_⟩
  constructor <;>
  · apply Nat.le_of_mul_le_mul_right _ hone
    rw [Nat.add_mul]
    omega

/-- The shortest decimal of the least of these numbers is above it. -/
theorem shortest_of_least (hexponent : exponent = unitPlaces + 11 ∨ exponent = unitPlaces + 12)
    (hvalue : significand * 2 ^ exponent = 2 ^ 63 * 2 ^ unitPlaces) :
    shortest .up significand exponent = (9223372036854776, 3) := by
  rcases hexponent with rfl | rfl
  · have hsignificand : significand = 2 ^ 52 := by
      apply Nat.eq_of_mul_eq_mul_right (Nat.two_pow_pos (unitPlaces + 11))
      rw [hvalue]
      ring
    subst hsignificand
    decide +kernel
  · have hsignificand : significand = 2 ^ 51 := by
      apply Nat.eq_of_mul_eq_mul_right (Nat.two_pow_pos (unitPlaces + 12))
      rw [hvalue]
      ring
    subst hsignificand
    decide +kernel

end Shortest

/-! ### Numbers of sixty-four binary places -/

section Wide

variable {n : Nat}

theorem log2_of_wide (hlow : 2 ^ 63 ≤ n) (hhigh : n < 2 ^ 64) : n.log2 = 63 :=
  (Nat.log2_eq_iff (by omega)).mpr ⟨hlow, hhigh⟩

theorem nearestWhole_error_of_wide (hlow : 2 ^ 63 ≤ n) (hhigh : n < 2 ^ 64) :
    nearestWhole n ≤ n + 1024 ∧ n ≤ nearestWhole n + 1024 := by
  have herror := roundHalfEven_error n (Nat.two_pow_pos (placesOver n))
  rw [← nearestWhole, placesOver, log2_of_wide hlow hhigh] at herror
  omega

theorem dvd_nearestWhole_of_wide (hlow : 2 ^ 63 ≤ n) (hhigh : n < 2 ^ 64) :
    2048 ∣ nearestWhole n := by
  rw [nearestWhole, placesOver, log2_of_wide hlow hhigh]
  exact Nat.dvd_mul_left _ _

/-- The shortest decimal of the number nearest to one of sixty-four places. -/
theorem exists_shortest_of_wide (hlow : 2 ^ 63 ≤ n) (hhigh : n < 2 ^ 64) :
    ∃ significand exponent coefficient place,
      ofRatio false n 1 = finite false significand exponent ∧ significand ≠ 0 ∧
      shortest .up significand exponent = (coefficient, ((place : Nat) : Int)) ∧ 3 ≤ place ∧
      2 ^ 63 ≤ coefficient * 10 ^ place ∧ coefficient * 10 ^ place ≤ nearestWhole n + 2048 ∧
      nearestWhole n ≤ coefficient * 10 ^ place + 2048 := by
  obtain ⟨significand, exponent, hnumber, hleast, hmost, hvalue⟩ :=
    exists_ofRatio false (by omega : 0 < n) hhigh
  have hplaces : 52 ≤ unitPlaces := by decide
  rw [log2_of_wide hlow hhigh] at hleast hmost
  have hexponent : exponent = unitPlaces + 11 ∨ exponent = unitPlaces + 12 := by omega
  have hwhole : 2 ^ 63 ≤ nearestWhole n := by
    rw [← log2_of_wide hlow hhigh]
    exact (nearestWhole_bounds (by omega)).1
  have hsignificand : significand ≠ 0 := by
    rintro rfl
    rw [Nat.zero_mul] at hvalue
    exact Nat.ne_of_lt (Nat.mul_pos (by omega) (Nat.two_pow_pos _)) hvalue
  have hdvd := dvd_nearestWhole_of_wide hlow hhigh
  rcases Nat.lt_or_eq_of_le hwhole with hbeyond | hequal
  · obtain ⟨coefficient, place, hshortest, hplace, hnear⟩ := exists_shortest hexponent hvalue
    exact ⟨significand, exponent, coefficient, place, hnumber, hsignificand, hshortest, hplace,
      by omega, hnear⟩
  · rw [← hequal] at hvalue
    exact ⟨significand, exponent, 9223372036854776, 3, hnumber, hsignificand,
      shortest_of_least hexponent hvalue, le_rfl, by decide, by omega, by omega⟩

/-- The text of the number nearest to one of sixty-four places. -/
theorem exists_plain_of_wide (hlow : 2 ^ 63 ≤ n) (hhigh : n < 2 ^ 64) :
    ∃ kept, (ofRatio false n 1).plain = natText kept ∧ 1000 ∣ kept ∧ 2 ^ 63 ≤ kept ∧
      kept ≤ n + 3072 ∧ n ≤ kept + 3072 := by
  obtain ⟨significand, exponent, coefficient, place, hnumber, hsignificand, hshortest, hplace,
    hkept, hnear⟩ := exists_shortest_of_wide hlow hhigh
  have herror := nearestWhole_error_of_wide hlow hhigh
  have hcoefficient : 0 < coefficient := by
    apply Nat.pos_of_ne_zero
    rintro rfl
    omega
  refine ⟨coefficient * 10 ^ place, ?_, ?_, hkept, by omega, by omega⟩
  · rw [hnumber, plain, if_neg hsignificand, hshortest]
    exact positional_of_nonneg hcoefficient (Int.natCast_nonneg place)
  · exact Nat.dvd_mul_left_of_dvd (Nat.pow_dvd_pow 10 hplace) coefficient

end Wide

end Binary64

/-- An integer that a word holds only without a sign is kept as a near multiple of a thousand, which
needs such a word too. -/
theorem exists_integerText_of_wide {n : Int} (hsigned : fitsSigned n = false)
    (hunsigned : fitsUnsigned n = true) :
    ∃ kept : Int, integerText n = intText kept ∧ fitsSigned kept = false ∧ 1000 ∣ kept ∧
      kept ≤ n + 3072 ∧ n ≤ kept + 3072 := by
  simp only [fitsUnsigned, Bool.and_eq_true, decide_eq_true_eq] at hunsigned
  have hlow : 9223372036854775808 ≤ n := by
    simp only [fitsSigned, Bool.and_eq_false_iff, decide_eq_false_iff_not] at hsigned
    omega
  obtain ⟨kept, hplain, hdvd, hkept, hnear⟩ :=
    Binary64.exists_plain_of_wide (by omega : 2 ^ 63 ≤ n.natAbs) (by omega)
  have hnumber : Binary64.ofInt n = .ofRatio false n.natAbs 1 := by
    rw [Binary64.ofInt, decide_eq_false (by omega)]
  refine ⟨kept, ?_, ?_, by omega, by omega, by omega⟩
  · rw [integerText, if_neg (by simp [hsigned]), hnumber, hplain]
    rfl
  · simp only [fitsSigned, Bool.and_eq_false_iff, decide_eq_false_iff_not]
    omega

end FilterAlgebra
