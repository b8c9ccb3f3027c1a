import FilterAlgebra.Proofs.Number.Lengths

/-!
# Whole numbers in binary64

A significand has 53 binary places, so a whole number with more places than that is only known by
the nearest number with as many zeros at its end as it has places too many (`nearestWhole`).
Rounding never turns two whole numbers around (`nearestWhole_mono`), but it may make one number of
them. Up to `2 ^ 53` nothing is lost, and an integer of sixty-four bits is moved by 512 at most
(`nearestInt_error`).
-/

namespace FilterAlgebra

namespace Binary64

/-! ### Rounding quotients -/

theorem roundHalfEven_mul_right (num den : Nat) {scale : Nat} (h : 0 < scale) :
    roundHalfEven (num * scale) (den * scale) = roundHalfEven num den := by
  have hmore : den * scale < 2 * (num % den * scale) ↔ den < 2 * (num % den) := by
    rw [← Nat.mul_assoc, Nat.mul_lt_mul_right h]
  have hhalf : 2 * (num % den * scale) = den * scale ↔ 2 * (num % den) = den := by
    rw [← Nat.mul_assoc, Nat.mul_left_inj (Nat.ne_of_gt h)]
  simp only [roundHalfEven, Nat.mul_div_mul_right _ _ h, Nat.mul_mod_mul_right, hmore, hhalf]

theorem roundHalfEven_mul_self (quotient : Nat) {den : Nat} (h : 0 < den) :
    roundHalfEven (quotient * den) den = quotient := by
  simp only [roundHalfEven, Nat.mul_div_cancel _ h, Nat.mul_mod_left]
  exact if_neg (by omega)

theorem roundHalfEven_mono {num num' : Nat} (h : num ≤ num') (den : Nat) :
    roundHalfEven num den ≤ roundHalfEven num' den := by
  have hquotient : num / den ≤ num' / den := Nat.div_le_div_right h
  have hnum := Nat.div_add_mod num den
  have hnum' := Nat.div_add_mod num' den
  simp only [roundHalfEven]
  rcases Nat.lt_or_eq_of_le hquotient with hlt | heq
  · split <;> split <;> omega
  · rw [heq] at hnum ⊢
    split <;> split <;> omega

/-- A multiple that is not exceeded is not exceeded by the rounded quotient either. -/
theorem roundHalfEven_le_of_le_mul {num den bound : Nat} (hden : 0 < den) (h : num ≤ bound * den) :
    roundHalfEven num den ≤ bound :=
  Nat.le_trans (roundHalfEven_mono h den) (Nat.le_of_eq (roundHalfEven_mul_self bound hden))

theorem le_roundHalfEven_of_mul_le {num den bound : Nat} (hden : 0 < den) (h : bound * den ≤ num) :
    bound ≤ roundHalfEven num den :=
  Nat.le_trans (Nat.le_of_eq (roundHalfEven_mul_self bound hden).symm) (roundHalfEven_mono h den)

/-- A rounded quotient is at most half away. -/
theorem roundHalfEven_error (num : Nat) {den : Nat} (hden : 0 < den) :
    2 * (roundHalfEven num den * den) ≤ 2 * num + den ∧
      2 * num ≤ 2 * (roundHalfEven num den * den) + den := by
  have hnum := Nat.div_add_mod num den
  have hrest := Nat.mod_lt num hden
  rw [Nat.mul_comm den] at hnum
  simp only [roundHalfEven]
  split
  · rw [Nat.add_mul, Nat.one_mul]
    omega
  · omega

/-! ### The nearest whole number -/

/-- The binary places of a whole number that a significand has no room for. -/
def placesOver (n : Nat) : Nat := n.log2 - 52

/-- The whole number nearest to `n` that a significand has room for, the even one of two. -/
def nearestWhole (n : Nat) : Nat := roundHalfEven n (2 ^ placesOver n) * 2 ^ placesOver n

theorem nearestWhole_zero : nearestWhole 0 = 0 := by decide

theorem nearestWhole_of_placesOver {n : Nat} (h : placesOver n = 0) : nearestWhole n = n := by
  have hround := roundHalfEven_mul_self n Nat.one_pos
  rw [Nat.mul_one] at hround
  rw [nearestWhole, h, Nat.pow_zero, hround, Nat.mul_one]

theorem nearestWhole_of_le {n : Nat} (h : n ≤ 2 ^ 53) : nearestWhole n = n := by
  rcases Nat.lt_or_eq_of_le h with hlt | rfl
  · apply nearestWhole_of_placesOver
    rcases Nat.eq_zero_or_pos n with rfl | hpos
    · rfl
    · have hlog := (Nat.log2_lt (Nat.ne_of_gt hpos)).mpr hlt
      rw [placesOver]
      omega
  · decide +kernel

theorem nearestWhole_bounds {n : Nat} (h : n ≠ 0) :
    2 ^ n.log2 ≤ nearestWhole n ∧ nearestWhole n ≤ 2 ^ (n.log2 + 1) := by
  have hpos : 0 < 2 ^ placesOver n := Nat.two_pow_pos _
  have hlow : 2 ^ (n.log2 - placesOver n) * 2 ^ placesOver n = 2 ^ n.log2 := by
    rw [← Nat.pow_add, placesOver, Nat.sub_add_cancel (by omega)]
  have hhigh : 2 ^ (n.log2 - placesOver n + 1) * 2 ^ placesOver n = 2 ^ (n.log2 + 1) := by
    rw [Nat.pow_succ, Nat.mul_right_comm, hlow, ← Nat.pow_succ]
  have hle : 2 ^ n.log2 ≤ n := Nat.log2_self_le h
  have hlt : n < 2 ^ (n.log2 + 1) := Nat.lt_log2_self
  constructor
  · rw [← hlow]
    exact Nat.mul_le_mul_right _ (le_roundHalfEven_of_mul_le hpos (by rwa [hlow]))
  · rw [← hhigh]
    exact Nat.mul_le_mul_right _ (roundHalfEven_le_of_le_mul hpos (hhigh ▸ Nat.le_of_lt hlt))

/-- Rounding never turns two whole numbers around. -/
theorem nearestWhole_mono {m n : Nat} (h : m ≤ n) : nearestWhole m ≤ nearestWhole n := by
  rcases Nat.eq_zero_or_pos m with rfl | hm
  · rw [nearestWhole_zero]
    exact Nat.zero_le _
  have hm' : m ≠ 0 := Nat.ne_of_gt hm
  have hn' : n ≠ 0 := by omega
  have hlog : m.log2 ≤ n.log2 := (Nat.le_log2 hn').mpr (Nat.le_trans (Nat.log2_self_le hm') h)
  rcases Nat.lt_or_eq_of_le hlog with hlt | heq
  · -- a power of two lies between numbers of different lengths, and between what they become
    calc nearestWhole m ≤ 2 ^ (m.log2 + 1) := (nearestWhole_bounds hm').2
      _ ≤ 2 ^ n.log2 := Nat.pow_le_pow_right (by decide) hlt
      _ ≤ nearestWhole n := (nearestWhole_bounds hn').1
  · have hplaces : placesOver m = placesOver n := by rw [placesOver, placesOver, heq]
    rw [nearestWhole, nearestWhole, hplaces]
    exact Nat.mul_le_mul_right _ (roundHalfEven_mono h _)

theorem nearestWhole_error {n : Nat} (h : n ≤ 2 ^ 63) :
    nearestWhole n ≤ n + 512 ∧ n ≤ nearestWhole n + 512 := by
  rcases Nat.lt_or_eq_of_le h with hlt | rfl
  · have hplaces : 2 ^ placesOver n ≤ 2 ^ 10 := by
      apply Nat.pow_le_pow_right (by decide)
      rcases Nat.eq_zero_or_pos n with rfl | hpos
      · decide
      · have hlog := (Nat.log2_lt (Nat.ne_of_gt hpos)).mpr hlt
        rw [placesOver]
        omega
    have herror := roundHalfEven_error n (Nat.two_pow_pos (placesOver n))
    rw [← nearestWhole] at herror
    omega
  · decide +kernel

/-! ### The nearest integer -/

/-- The integer nearest to `n` that a significand has room for, the even one of two. -/
def nearestInt (n : Int) : Int :=
  if n < 0 then -(nearestWhole n.natAbs : Int) else nearestWhole n.natAbs

theorem nearestInt_mono {a b : Int} (h : a ≤ b) : nearestInt a ≤ nearestInt b := by
  unfold nearestInt
  split <;> split
  · have hmono : nearestWhole b.natAbs ≤ nearestWhole a.natAbs := nearestWhole_mono (by omega)
    omega
  · omega
  · omega
  · have hmono : nearestWhole a.natAbs ≤ nearestWhole b.natAbs := nearestWhole_mono (by omega)
    omega

theorem nearestInt_of_le {a : Int} (h : a.natAbs ≤ 2 ^ 53) : nearestInt a = a := by
  have hwhole := nearestWhole_of_le h
  unfold nearestInt
  split <;> omega

theorem nearestInt_error {a : Int} (h : a.natAbs ≤ 2 ^ 63) :
    nearestInt a ≤ a + 512 ∧ a ≤ nearestInt a + 512 := by
  have herror := nearestWhole_error h
  unfold nearestInt
  split <;> omega

/-! ### The number of an integer -/

/-- A magnitude with a sign. -/
def signedInt (negative : Bool) (magnitude : Nat) : Int :=
  if negative then -(magnitude : Int) else magnitude

/-- A number is the rounded quotient at its exponent, also where that has come to be a power of two
and the exponent is one more. -/
theorem exists_ofUnits (negative : Bool) {num den place : Nat}
    (hplace : (num / den).log2 - 52 = place) (hmax : place < maxExponent) :
    ∃ significand exponent, ofUnits negative num den = finite negative significand exponent ∧
      place ≤ exponent ∧ exponent ≤ place + 1 ∧
      significand * 2 ^ exponent = roundHalfEven num (den * 2 ^ place) * 2 ^ place := by
  unfold ofUnits
  simp only [hplace, Nat.pow_eq]
  by_cases hcarry : roundHalfEven num (den * 2 ^ place) = 2 * leastNormal
  · have hpower : leastNormal * 2 ^ (place + 1) = 2 * leastNormal * 2 ^ place := by
      rw [Nat.pow_succ, Nat.mul_comm 2 leastNormal, Nat.mul_assoc, Nat.mul_comm 2]
    simp only [if_pos hcarry]
    rw [if_neg (by omega), hcarry]
    exact ⟨leastNormal, place + 1, rfl, Nat.le_succ place, Nat.le_refl _, hpower⟩
  · simp only [if_neg hcarry]
    rw [if_neg (by omega)]
    exact ⟨_, place, rfl, Nat.le_refl place, Nat.le_succ place, rfl⟩

theorem log2_mul_pow {n : Nat} (h : n ≠ 0) (k : Nat) : (n * 2 ^ k).log2 = n.log2 + k := by
  rw [Nat.log2_eq_iff (Nat.mul_ne_zero h (Nat.ne_of_gt (Nat.two_pow_pos k)))]
  constructor
  · rw [Nat.pow_add]
    exact Nat.mul_le_mul_right _ (Nat.log2_self_le h)
  · rw [Nat.add_right_comm, Nat.pow_add]
    exact Nat.mul_lt_mul_of_pos_right Nat.lt_log2_self (Nat.two_pow_pos k)

/-- The number nearest to a positive whole number of sixty-four bits. -/
theorem exists_ofRatio (negative : Bool) {n : Nat} (hpos : 0 < n) (h : n < 2 ^ 64) :
    ∃ significand exponent, ofRatio negative n 1 = finite negative significand exponent ∧
      n.log2 + unitPlaces - 52 ≤ exponent ∧ exponent ≤ n.log2 + unitPlaces - 52 + 1 ∧
      significand * 2 ^ exponent = nearestWhole n * 2 ^ unitPlaces := by
  have hlog : n.log2 < 64 := (Nat.log2_lt (Nat.ne_of_gt hpos)).mpr h
  have hplaces : 52 ≤ unitPlaces ∧ 64 + unitPlaces < maxExponent := by decide
  have hmax : n.log2 + unitPlaces - 52 < maxExponent := by omega
  have hplace : (n * 2 ^ unitPlaces / 1).log2 - 52 = n.log2 + unitPlaces - 52 := by
    rw [Nat.div_one, log2_mul_pow (Nat.ne_of_gt hpos)]
  obtain ⟨significand, exponent, hnumber, hlow, hhigh, hunits⟩ :=
    exists_ofUnits negative hplace hmax
  refine ⟨significand, exponent, by rw [ofRatio, Nat.pow_eq, hnumber], hlow, hhigh, ?_⟩
  rw [hunits, Nat.one_mul]
  rcases Nat.lt_or_ge n.log2 52 with hshort | hlong
  · -- there is room for all places, and the quotient is exact
    have hsum : unitPlaces = 52 - n.log2 + (n.log2 + unitPlaces - 52) := by omega
    have hsplit : n * 2 ^ unitPlaces =
        n * 2 ^ (52 - n.log2) * 2 ^ (n.log2 + unitPlaces - 52) := by
      rw [Nat.mul_assoc, ← Nat.pow_add, ← hsum]
    have hover : placesOver n = 0 := by
      rw [placesOver]
      omega
    rw [nearestWhole_of_placesOver hover, hsplit, roundHalfEven_mul_self _ (Nat.two_pow_pos _)]
  · have hsum : n.log2 + unitPlaces - 52 = placesOver n + unitPlaces := by
      rw [placesOver]
      omega
    rw [hsum, Nat.pow_add, roundHalfEven_mul_right _ _ (Nat.two_pow_pos _), nearestWhole,
      Nat.mul_assoc]

theorem units?_ofRatio (negative : Bool) {n : Nat} (h : n < 2 ^ 64) :
    (ofRatio negative n 1).units? =
      some (signedInt negative (nearestWhole n * 2 ^ unitPlaces)) := by
  rcases Nat.eq_zero_or_pos n with rfl | hpos
  · rw [nearestWhole_zero]
    cases negative <;> decide +kernel
  · obtain ⟨significand, exponent, hnumber, -, -, hunits⟩ := exists_ofRatio negative hpos h
    rw [hnumber, ← hunits]
    rfl

end Binary64

end FilterAlgebra
