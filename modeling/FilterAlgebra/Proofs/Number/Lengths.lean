import FilterAlgebra.Number.Scaled
import FilterAlgebra.Proofs.Number.Written
import Mathlib.Tactic.GCongr
import Mathlib.Tactic.Positivity
import Mathlib.Tactic.Ring

/-!
# How long written numbers get

Rounding keeps the significand and the exponent of a number within the bounds of the format
(`InFormat`). So the shortest decimal of a rounded number has a bounded coefficient at a bounded
place, and the plain form of the number is never long, though it has no exponent
(`length_plain_lt`).
-/

namespace FilterAlgebra

namespace Binary64

/-! ### The bounds of the format -/

/-- Numbers whose significand and exponent keep to their bounds. A significand with room to spare
belongs to the least exponent, so no number has two of these forms. -/
inductive InFormat : Binary64 → Prop
  | finite {negative : Bool} {significand exponent : Nat}
      (hsignificand : significand < 2 * leastNormal)
      (hexponent : exponent ≤ maxExponent) (hnormal : exponent ≠ 0 → leastNormal ≤ significand) :
      InFormat (.finite negative significand exponent)
  | infinite (negative : Bool) : InFormat (.infinite negative)
  | nan : InFormat .nan

theorem le_roundHalfEven (num den : Nat) : num / den ≤ roundHalfEven num den := by
  simp only [roundHalfEven]
  split <;> omega

theorem roundHalfEven_le (num den : Nat) : roundHalfEven num den ≤ num / den + 1 := by
  simp only [roundHalfEven]
  split <;> omega

theorem two_mul_leastNormal : 2 * leastNormal = 2 ^ 53 := by decide

/-- A quotient without the places that its exponent stands for. -/
theorem div_exponent_lt (n : Nat) : n / 2 ^ (n.log2 - 52) < 2 * leastNormal := by
  have hlog : n < 2 ^ (n.log2 + 1) := Nat.lt_log2_self
  have hle : 2 ^ (n.log2 + 1) ≤ 2 ^ (n.log2 - 52) * 2 ^ 53 := by
    rw [← Nat.pow_add]
    exact Nat.pow_le_pow_right (by decide) (by omega)
  rw [two_mul_leastNormal]
  exact Nat.div_lt_of_lt_mul (Nat.lt_of_lt_of_le hlog hle)

theorem leastNormal_le_div_exponent {n : Nat} (h : n.log2 - 52 ≠ 0) :
    leastNormal ≤ n / 2 ^ (n.log2 - 52) := by
  have hn : n ≠ 0 := by
    rintro rfl
    exact h rfl
  have hsum : 52 + (n.log2 - 52) = n.log2 := by omega
  rw [Nat.le_div_iff_mul_le (Nat.two_pow_pos _), (by decide : leastNormal = 2 ^ 52), ← Nat.pow_add,
    hsum]
  exact Nat.log2_self_le hn

theorem inFormat_ofUnits (negative : Bool) (num den : Nat) :
    (ofUnits negative num den).InFormat := by
  have hround := roundHalfEven_le num (den * Nat.pow 2 ((num / den).log2 - 52))
  have hround' := le_roundHalfEven num (den * Nat.pow 2 ((num / den).log2 - 52))
  have hlt := div_exponent_lt (num / den)
  have hle := @leastNormal_le_div_exponent (num / den)
  rw [← Nat.div_div_eq_div_mul] at hround hround'
  unfold ofUnits
  by_cases hcarry : roundHalfEven num (den * Nat.pow 2 ((num / den).log2 - 52)) = 2 * leastNormal
  · -- the significand has become a power of two, and the least one takes its place
    simp only [if_pos hcarry]
    split
    · exact .infinite negative
    · next hexponent => exact .finite (by decide) (Nat.le_of_not_lt hexponent) fun _ => le_rfl
  · simp only [if_neg hcarry]
    split
    · exact .infinite negative
    · next hexponent =>
      simp only [Nat.pow_eq] at hround hround' hcarry ⊢
      refine .finite ?_ (Nat.le_of_not_lt hexponent) fun hpositive => ?_
      · omega
      · exact Nat.le_trans (hle hpositive) hround'

theorem inFormat_ofRatio (negative : Bool) (num den : Nat) :
    (ofRatio negative num den).InFormat := inFormat_ofUnits _ _ _

/-! ### Digits of the shortest decimal -/

/-- Of two neighbours that fit or not, one that fits is taken or none. -/
theorem fits_of_taken {p q r : Prop} [Decidable p] [Decidable q] [Decidable r] {low n : Nat}
    (h : (if p ∧ q then some (if r then low + 1 else low)
      else if p then some low else if q then some (low + 1) else none) = some n) :
    (p ∧ n = low) ∨ (q ∧ n = low + 1) := by
  by_cases hp : p <;> by_cases hq : q <;> by_cases hr : r <;> simp_all

theorem gridPoint?_le {tie : Tie} {significand exponent : Nat} {place : Int} {k coefficient : Nat}
    (hplace : -(k : Int) ≤ place)
    (h : gridPoint? tie significand exponent place = some coefficient) :
    coefficient ≤ 4 * significand * 2 ^ exponent * 10 ^ k + 1 := by
  have hscale : Nat.pow 10 (-place).toNat ≤ 10 ^ k := Nat.pow_le_pow_right (by decide) (by omega)
  have hvalue : 4 * significand * Nat.pow 2 exponent * Nat.pow 10 (-place).toNat ≤
      4 * significand * 2 ^ exponent * 10 ^ k := Nat.mul_le_mul_left _ hscale
  have hlow := Nat.div_le_self (4 * significand * Nat.pow 2 exponent * Nat.pow 10 (-place).toNat)
    (Nat.pow 2 (unitPlaces + 2) * Nat.pow 10 place.toNat)
  rcases fits_of_taken h with ⟨-, rfl⟩ | ⟨-, rfl⟩ <;> omega

theorem coarsest_bounds (tie : Tie) (significand exponent : Nat) {k : Nat} (more : Nat) (place : Int)
    (hplace : -(k : Int) ≤ place - more) :
    (coarsest tie significand exponent more place).1 ≤
        4 * significand * 2 ^ exponent * 10 ^ k + 1 ∧
      -(k : Int) ≤ (coarsest tie significand exponent more place).2 ∧
      (coarsest tie significand exponent more place).2 ≤ place := by
  induction more generalizing place with
  | zero => exact ⟨Nat.zero_le _, by simpa [coarsest] using hplace, Int.le_refl place⟩
  | succ more ih =>
    rw [coarsest]
    split
    · next coefficient h => exact ⟨gridPoint?_le (by omega) h, by omega, Int.le_refl place⟩
    · obtain ⟨hcoefficient, hlow, hhigh⟩ := ih (place - 1) (by omega)
      exact ⟨hcoefficient, hlow, by omega⟩

/-! ### Written numbers -/

theorem length_signed_le (negative : Bool) (s : Text) : (signed negative s).length ≤ s.length + 1 := by
  cases negative with
  | true => exact Nat.le_refl _
  | false => exact Nat.le_succ _

theorem length_positional_le (coefficient : Nat) (place : Int) :
    (positional coefficient place).length ≤ (natText coefficient).length + place.natAbs + 2 := by
  have hpoint : ("0." : Text).length = 2 := rfl
  simp only [positional]
  split
  · simp only [List.length_append, List.length_replicate]
    omega
  split
  · simp only [List.length_append, List.length_cons, List.length_take, List.length_drop]
    omega
  · simp only [List.length_append, List.length_replicate, hpoint]
    omega

/-- The digits of a shortest decimal are at most as many as its bits. -/
theorem length_natText_coarsest (tie : Tie) {significand : Nat} (exponent : Nat)
    (h : significand < 2 * leastNormal) {k : Nat} (more : Nat) (place : Int)
    (hplace : -(k : Int) ≤ place - more) :
    (natText (coarsest tie significand exponent more place).1).length ≤ exponent + 4 * k + 56 := by
  have hbound := (coarsest_bounds tie significand exponent more place hplace).1
  apply length_natText_le (by omega)
  rw [two_mul_leastNormal] at h
  have hpow : significand * 2 ^ exponent * 10 ^ k ≤ 2 ^ 53 * 2 ^ exponent * (2 ^ 4) ^ k := by
    gcongr
    decide
  have hpos : 0 < 2 ^ 53 * 2 ^ exponent * (2 ^ 4) ^ k := by positivity
  have hbits : 8 * (2 ^ 53 * 2 ^ exponent * (2 ^ 4) ^ k) = 2 ^ (exponent + 4 * k + 56) := by
    rw [← Nat.pow_mul]
    ring
  have hten : 2 ^ (exponent + 4 * k + 56) ≤ 10 ^ (exponent + 4 * k + 56) :=
    Nat.pow_le_pow_left (by decide) _
  rw [Nat.mul_assoc, Nat.mul_assoc, ← Nat.mul_assoc significand] at hbound
  omega

theorem length_plain_lt {x : Binary64} (h : x.InFormat) : x.plain.length < 4096 := by
  cases h with
  | infinite negative => cases negative <;> decide
  | nan => decide
  | @finite negative significand exponent hsignificand hexponent _ =>
    have hplaces : -((325 : Nat) : Int) ≤ 309 - (634 : Nat) := by decide
    have hdigits := length_natText_coarsest .up exponent hsignificand 634 309 hplaces
    obtain ⟨-, hlow, hhigh⟩ := coarsest_bounds .up significand exponent 634 309 hplaces
    rw [← shortest] at hdigits hlow hhigh
    have hmax : maxExponent = 2045 := rfl
    unfold plain
    refine Nat.lt_of_le_of_lt (length_signed_le negative _) ?_
    -- only the bounds matter, so which decimal is the shortest is left open
    generalize hdecimal : shortest .up significand exponent = decimal
    rw [hdecimal] at hdigits hlow hhigh
    obtain ⟨coefficient, place⟩ := decimal
    dsimp only at hdigits hlow hhigh ⊢
    have hpositional := length_positional_le coefficient place
    by_cases hzero : significand = 0
    · rw [if_pos hzero]
      decide
    · rw [if_neg hzero]
      omega

end Binary64

end FilterAlgebra
