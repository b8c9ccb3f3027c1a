import FilterAlgebra.Proofs.Number.Lengths
import FilterAlgebra.Proofs.Number.WholeNumbers

/-!
# Shortest decimals

The values that are rounded to a number form an interval around it (`RoundsTo`), said here in
integers and apart from the way in which rounding is done. On each of these values rounding gives
the number (`RoundsTo.ofUnits_eq`). The search for the shortest decimal tries the grids from the
coarsest one on and takes a point of the interval (`roundsTo_of_gridPoint?`). It finds one in the
end, since the last grid that it tries is finer than the least gap between numbers
(`shortest_spec`).
-/

namespace FilterAlgebra

namespace Binary64

/-! ### Nearest integers -/

/-- Whether no integer is nearer to `num / den`, and none is as near unless this one is even. -/
structure IsNearest (quotient num den : Nat) : Prop where
  above : 2 * num ≤ 2 * (quotient * den) + den
  below : 2 * (quotient * den) ≤ 2 * num + den
  even : quotient % 2 = 1 →
    2 * num ≠ 2 * (quotient * den) + den ∧ 2 * (quotient * den) ≠ 2 * num + den

theorem IsNearest.roundHalfEven_eq {quotient num den : Nat} (h : IsNearest quotient num den)
    (hden : 0 < den) : roundHalfEven num den = quotient := by
  obtain ⟨habove, hbelow, heven⟩ := h
  have hmod := Nat.div_add_mod num den
  simp only [roundHalfEven]
  rcases Nat.lt_or_ge num (quotient * den) with hlt | hge
  · -- the quotient lies below, and the rest is half of the denominator or more
    obtain ⟨low, rfl⟩ : ∃ low, quotient = low + 1 := by
      apply Nat.exists_eq_succ_of_ne_zero
      rintro rfl
      omega
    rw [Nat.add_mul, Nat.one_mul] at habove hbelow heven hlt
    have hdiv : num / den = low :=
      Nat.div_eq_of_lt_le (by omega) (by rwa [Nat.add_mul, Nat.one_mul])
    rw [hdiv, Nat.mul_comm] at hmod
    rw [hdiv]
    split <;> omega
  · -- the quotient is the nearest integer itself
    have hdiv : num / den = quotient :=
      Nat.div_eq_of_lt_le hge (by rw [Nat.add_mul, Nat.one_mul]; omega)
    rw [hdiv, Nat.mul_comm] at hmod
    rw [hdiv]
    split <;> omega

/-! ### The values that are rounded to a number -/

/-- Whether `num / den` units lie among the values that are rounded to `significand * 2 ^ exponent`:
at most half a step away, and at half a step only from an even significand. Below the least
significand of an exponent the numbers are twice as dense, so there it is a quarter of a step. -/
structure RoundsTo (significand exponent num den : Nat) : Prop where
  nearest : IsNearest significand num (den * 2 ^ exponent)
  least : significand = leastNormal → exponent ≠ 0 →
    4 * (significand * (den * 2 ^ exponent)) ≤ 4 * num + den * 2 ^ exponent

theorem log2_div_eq {num den k : Nat} (hden : 0 < den) (hlow : 2 ^ k * den ≤ num)
    (hhigh : num < 2 ^ (k + 1) * den) : (num / den).log2 = k := by
  have hle : 2 ^ k ≤ num / den := (Nat.le_div_iff_mul_le hden).mpr hlow
  have hpos : 0 < 2 ^ k := Nat.two_pow_pos k
  exact (Nat.log2_eq_iff (by omega)).mpr ⟨hle, (Nat.div_lt_iff_lt_mul hden).mpr hhigh⟩

namespace RoundsTo

variable {significand exponent num den : Nat}

theorem of_eq (hden : 0 < den) (h : num = significand * (den * 2 ^ exponent)) :
    RoundsTo significand exponent num den := by
  have hstep : 0 < den * 2 ^ exponent := Nat.mul_pos hden (Nat.two_pow_pos exponent)
  exact ⟨⟨by omega, by omega, fun _ => by omega⟩, fun _ _ => by omega⟩

theorem lt (h : RoundsTo significand exponent num den) (hden : 0 < den)
    (hsignificand : significand < 2 * leastNormal) :
    num < 2 * leastNormal * (den * 2 ^ exponent) := by
  have hstep : 0 < den * 2 ^ exponent := Nat.mul_pos hden (Nat.two_pow_pos exponent)
  have hbound := Nat.mul_le_mul_right (den * 2 ^ exponent) (Nat.succ_le_of_lt hsignificand)
  have habove := h.nearest.above
  rw [Nat.succ_mul] at hbound
  omega

theorem ofUnits_eq_of_log2 {negative : Bool} (h : RoundsTo significand exponent num den)
    (hden : 0 < den) (hsignificand : significand < 2 * leastNormal)
    (hexponent : exponent ≤ maxExponent) (hplace : (num / den).log2 - 52 = exponent) :
    ofUnits negative num den = finite negative significand exponent := by
  have hround := h.nearest.roundHalfEven_eq (Nat.mul_pos hden (Nat.two_pow_pos exponent))
  simp only [ofUnits, hplace, Nat.pow_eq, hround, Nat.ne_of_lt hsignificand, if_false,
    Nat.not_lt.mpr hexponent]

/-- Below a power of two the steps are half as long. A quotient there is rounded at the exponent
before, and carried to the power of two. -/
theorem ofUnits_eq_of_lt {negative : Bool} {place : Nat}
    (h : RoundsTo leastNormal (place + 1) num den) (hden : 0 < den)
    (hexponent : place + 1 ≤ maxExponent) (hlt : num < leastNormal * (den * 2 ^ (place + 1))) :
    ofUnits negative num den = finite negative leastNormal (place + 1) := by
  have hquarter := h.least rfl (Nat.succ_ne_zero place)
  have hhalf : 0 < den * 2 ^ place := Nat.mul_pos hden (Nat.two_pow_pos place)
  have htwice : leastNormal * (den * 2 ^ (place + 1)) = 2 * leastNormal * (den * 2 ^ place) := by
    ring
  have hstep : den * 2 ^ (place + 1) = 2 * (den * 2 ^ place) := by ring
  rw [htwice] at hlt hquarter
  rw [hstep] at hquarter
  have hcarry : roundHalfEven num (den * 2 ^ place) = 2 * leastNormal := by
    apply IsNearest.roundHalfEven_eq _ hhalf
    exact ⟨by omega, by omega, fun hodd => absurd hodd (by decide)⟩
  have hlog : (num / den).log2 = 52 + place := by
    have hlow : 2 ^ (52 + place) * den = leastNormal * (den * 2 ^ place) := by
      rw [Nat.pow_add, (by decide : leastNormal = 2 ^ 52)]
      ring
    have hhigh : 2 ^ (52 + place + 1) * den = 2 * leastNormal * (den * 2 ^ place) := by
      rw [Nat.pow_succ, Nat.mul_right_comm, hlow]
      ring
    apply log2_div_eq hden
    · have hone : den * 2 ^ place ≤ leastNormal * (den * 2 ^ place) :=
        Nat.le_mul_of_pos_left _ (by decide)
      rw [hlow]
      rw [Nat.mul_assoc] at hquarter
      omega
    · rwa [hhigh]
  simp only [ofUnits, hlog, Nat.add_sub_cancel_left, Nat.pow_eq, hcarry, if_true,
    Nat.not_lt.mpr hexponent, if_false]

/-- On the values that are rounded to a number of the format, rounding gives the number. -/
theorem ofUnits_eq {negative : Bool} (h : RoundsTo significand exponent num den) (hden : 0 < den)
    (hformat : (finite negative significand exponent).InFormat) :
    ofUnits negative num den = finite negative significand exponent := by
  obtain ⟨hsignificand, hexponent, hnormal⟩ := hformat
  have hlt := h.lt hden hsignificand
  rcases exponent with - | place
  · -- the least exponent, where the significand may have room to spare
    apply h.ofUnits_eq_of_log2 hden hsignificand hexponent
    rw [Nat.pow_zero, Nat.mul_one, two_mul_leastNormal, ← Nat.div_lt_iff_lt_mul hden] at hlt
    by_cases hzero : num / den = 0
    · rw [hzero]
      rfl
    · have hlog := (Nat.log2_lt hzero).mpr hlt
      omega
  · have hleast := hnormal (Nat.succ_ne_zero place)
    rcases Nat.lt_or_ge num (leastNormal * (den * 2 ^ (place + 1))) with hbelow | hreach
    · -- only the least significand has values below its power of two
      have hequal : significand = leastNormal := by
        by_contra hne
        have hmore : leastNormal + 1 ≤ significand := by omega
        have hbound := Nat.mul_le_mul_right (den * 2 ^ (place + 1)) hmore
        have hnear := h.nearest.below
        rw [Nat.succ_mul] at hbound
        omega
      subst hequal
      exact h.ofUnits_eq_of_lt hden hexponent hbelow
    · -- the quotient has as many places as the significand at this exponent
      apply h.ofUnits_eq_of_log2 hden hsignificand hexponent
      have hlow : leastNormal * (den * 2 ^ (place + 1)) = 2 ^ (53 + place) * den := by
        rw [(by decide : leastNormal = 2 ^ 52)]
        ring
      have hhigh : 2 * leastNormal * (den * 2 ^ (place + 1)) = 2 ^ (53 + place + 1) * den := by
        rw [Nat.mul_assoc, hlow]
        ring
      rw [hlow] at hreach
      rw [hhigh] at hlt
      rw [log2_div_eq hden hreach hlt]
      omega

end RoundsTo

/-! ### Points of decimal grids -/

theorem exists_taken {p q r : Prop} [Decidable p] [Decidable q] [Decidable r] (low : Nat) (h : q) :
    ∃ n, (if p ∧ q then some (if r then low + 1 else low)
      else if p then some low else if q then some (low + 1) else none) = some n := by
  by_cases hp : p <;> simp [hp, h]

section Grid

variable {tie : Tie} {significand exponent : Nat}

/-- A grid that is finer than the gap above a number has a point that rounds to the number: the one
that comes next above it. -/
theorem exists_gridPoint? {place : Int}
    (h : 2 ^ (unitPlaces + 2) * 10 ^ place.toNat < 2 * 2 ^ exponent * 10 ^ (-place).toNat) :
    ∃ coefficient, gridPoint? tie significand exponent place = some coefficient := by
  apply exists_taken
  simp only [Nat.pow_eq]
  have hdiv := Nat.div_add_mod (4 * significand * 2 ^ exponent * 10 ^ (-place).toNat)
    (2 ^ (unitPlaces + 2) * 10 ^ place.toNat)
  generalize 4 * significand * 2 ^ exponent * 10 ^ (-place).toNat = value at hdiv ⊢
  generalize 2 ^ (unitPlaces + 2) * 10 ^ place.toNat = step at h hdiv ⊢
  rw [Nat.mul_comm] at hdiv
  rw [Nat.add_mul, Nat.one_mul]
  omega

/-- A point that is taken is rounded to the number. -/
theorem roundsTo_of_gridPoint? {place : Int} {coefficient : Nat}
    (h : gridPoint? tie significand exponent place = some coefficient) :
    RoundsTo significand exponent (coefficient * 10 ^ place.toNat * 2 ^ unitPlaces)
      (10 ^ (-place).toNat) := by
  have hstep : 0 < 2 ^ (unitPlaces + 2) * 10 ^ place.toNat :=
    Nat.mul_pos (Nat.two_pow_pos _) (Nat.pow_pos (by decide))
  have hvalue : 4 * significand * 2 ^ exponent * 10 ^ (-place).toNat =
      4 * (significand * (10 ^ (-place).toNat * 2 ^ exponent)) := by ring
  have hgap : 2 * 2 ^ exponent * 10 ^ (-place).toNat =
      2 * (10 ^ (-place).toNat * 2 ^ exponent) := by ring
  have hpoint : ∀ n, n * (2 ^ (unitPlaces + 2) * 10 ^ place.toNat) =
      4 * (n * 10 ^ place.toNat * 2 ^ unitPlaces) := by
    intro n
    ring
  have hfits := fits_of_taken h
  simp only [Nat.pow_eq, hvalue, hgap] at hfits
  have hlow := Nat.div_mul_le_self
    (4 * (significand * (10 ^ (-place).toNat * 2 ^ exponent)))
    (2 ^ (unitPlaces + 2) * 10 ^ place.toNat)
  have hhigh := Nat.lt_mul_of_div_lt (Nat.lt_add_one
    (4 * (significand * (10 ^ (-place).toNat * 2 ^ exponent)) /
      (2 ^ (unitPlaces + 2) * 10 ^ place.toNat))) hstep
  generalize 4 * (significand * (10 ^ (-place).toNat * 2 ^ exponent)) /
    (2 ^ (unitPlaces + 2) * 10 ^ place.toNat) = low at hfits hlow hhigh
  simp only [hpoint] at hfits hlow hhigh
  rcases hfits with ⟨hfits, rfl⟩ | ⟨hfits, rfl⟩
  · -- the neighbour below, where the gap may be half as long
    refine ⟨⟨by omega, ?_, ?_⟩, fun hleast hpositive => ?_⟩
    · split at hfits <;> omega
    · split at hfits <;> omega
    · rw [if_pos ⟨hleast, hpositive⟩] at hfits
      omega
  · -- the neighbour above
    exact ⟨⟨by omega, by omega, by omega⟩, by omega⟩

/-- The shortest decimal lies on no finer grid than one with a point that rounds to the number. -/
theorem coarsest_of_gridPoint? {least : Int}
    (h : ∃ coefficient, gridPoint? tie significand exponent least = some coefficient) (more : Nat)
    {place : Int} (hleast : least ≤ place) (hmore : place - least < more) :
    ∃ coefficient found, coarsest tie significand exponent more place = (coefficient, found) ∧
      least ≤ found ∧ gridPoint? tie significand exponent found = some coefficient := by
  induction more generalizing place with
  | zero => omega
  | succ more ih =>
    rw [coarsest]
    split
    · next coefficient hpoint => exact ⟨coefficient, place, rfl, hleast, hpoint⟩
    · next hnone =>
      have hne : place ≠ least := by
        rintro rfl
        obtain ⟨coefficient, hpoint⟩ := h
        rw [hnone] at hpoint
        cases hpoint
      exact ih (by omega) (by omega)

/-- The shortest decimal is rounded to the number, and is not zero unless the number is. -/
theorem shortest_spec (tie : Tie) (hsignificand : significand ≠ 0) (exponent : Nat) :
    ∃ coefficient place, shortest tie significand exponent = (coefficient, place) ∧
      coefficient ≠ 0 ∧ -324 ≤ place ∧
      RoundsTo significand exponent (coefficient * 10 ^ place.toNat * 2 ^ unitPlaces)
        (10 ^ (-place).toNat) := by
  have hfine : 2 ^ (unitPlaces + 2) * 10 ^ (-324 : Int).toNat <
      2 * 2 ^ exponent * 10 ^ (-(-324 : Int)).toNat := by
    have hleast : 2 ^ (unitPlaces + 2) * 10 ^ (-324 : Int).toNat <
        2 * 10 ^ (-(-324 : Int)).toNat := by decide +kernel
    rw [Nat.mul_right_comm]
    exact Nat.lt_of_lt_of_le hleast (Nat.le_mul_of_pos_right _ (Nat.two_pow_pos exponent))
  have hleast : ∃ coefficient, gridPoint? tie significand exponent (-324) = some coefficient :=
    exists_gridPoint? hfine
  obtain ⟨coefficient, place, hshortest, hplace, hpoint⟩ :=
    coarsest_of_gridPoint? hleast 634 (by decide : (-324 : Int) ≤ 309) (by decide)
  have hrounds := roundsTo_of_gridPoint? hpoint
  refine ⟨coefficient, place, hshortest, ?_, hplace, hrounds⟩
  -- zero is more than half a step below all other numbers
  rintro rfl
  have hnear := hrounds.nearest.below
  have hstep : 0 < 10 ^ (-place).toNat * 2 ^ exponent :=
    Nat.mul_pos (Nat.pow_pos (by decide)) (Nat.two_pow_pos exponent)
  have hone : 10 ^ (-place).toNat * 2 ^ exponent ≤
      significand * (10 ^ (-place).toNat * 2 ^ exponent) :=
    Nat.le_mul_of_pos_left _ (Nat.pos_of_ne_zero hsignificand)
  rw [Nat.zero_mul, Nat.zero_mul] at hnear
  omega

end Grid

end Binary64

end FilterAlgebra
