import FilterAlgebra.Number.Written
import Mathlib.Algebra.Order.Ring.Nat
import Mathlib.Tactic.Ring

/-!
# What written numbers look like

An integer, and a number in its weight form, is written as digits with at most a minus sign in front
of them and at most a point and more digits behind them (`IsNumber`). There is no exponent, however
large or small the number is (`isNumber_weightText`), so a reader of plain decimals reads them all.
-/

namespace FilterAlgebra

/-! ### Digits -/

def IsDigits (s : Text) : Prop := s ≠ [] ∧ ∀ c ∈ s, c.isDigit = true

theorem toNat_of_isDigit {c : Char} (h : c.isDigit = true) : 48 ≤ c.toNat ∧ c.toNat ≤ 57 :=
  Char.isDigit_iff_toNat.mp h

theorem isDigit_of_mem_natText {n : Nat} {c : Char} (h : c ∈ natText n) : c.isDigit = true :=
  Nat.isDigit_of_mem_toDigits (by decide) (by decide) h

theorem natText_ne_nil (n : Nat) : natText n ≠ [] := Nat.toDigits_ne_nil

theorem isDigits_natText (n : Nat) : IsDigits (natText n) :=
  ⟨natText_ne_nil n, fun _ => isDigit_of_mem_natText⟩

theorem digitsValue_natText (n : Nat) : digitsValue (natText n) = n := by
  have h : digitsValue (natText n) = Nat.ofDigitChars 10 (Nat.toDigits 10 n) 0 :=
    Nat.ofDigitChars_eq_foldl.symm
  rw [h, Nat.ofDigitChars_ten_toDigits]

theorem digitsValue_append (s t : Text) :
    digitsValue (s ++ t) = digitsValue s * 10 ^ t.length + digitsValue t := by
  have hfold : ∀ n : Nat, t.foldl withDigit n = n * 10 ^ t.length + t.foldl withDigit 0 := by
    induction t with
    | nil => simp
    | cons c t ih =>
      intro n
      rw [List.foldl_cons, List.foldl_cons, ih, ih (withDigit 0 c), List.length_cons]
      unfold withDigit
      ring
  rw [digitsValue, List.foldl_append]
  exact hfold (digitsValue s)

theorem digitsValue_zeros {s : Text} (h : ∀ c ∈ s, c = '0') : digitsValue s = 0 := by
  induction s with
  | nil => rfl
  | cons c s ih =>
    rw [h c List.mem_cons_self]
    exact ih fun d hd => h d (List.mem_cons_of_mem c hd)

theorem length_natText_le {n k : Nat} (hk : 0 < k) (h : n < 10 ^ k) : (natText n).length ≤ k :=
  (Nat.length_toDigits_le_iff (by decide) hk).mpr h

/-- A number begins with a zero only if it is zero. -/
theorem natText_ne_zero_cons {n : Nat} (h : 0 < n) (t : Text) : natText n ≠ '0' :: t := by
  induction n using Nat.strongRecOn generalizing t with
  | ind n ih =>
    unfold natText at ih ⊢
    by_cases hsmall : n < 10
    · rw [Nat.toDigits_of_lt_base hsmall]
      intro heq
      have hzero := Nat.digitChar_eq_zero.mp (List.cons.inj heq).1
      omega
    · rw [Nat.toDigits_of_base_le (by decide) (by omega)]
      obtain ⟨c, u, hcu⟩ := List.exists_cons_of_ne_nil (natText_ne_nil (n / 10))
      unfold natText at hcu
      intro heq
      rw [hcu, List.cons_append] at heq
      have hzero := (List.cons.inj heq).1
      exact ih (n / 10) (by omega) (by omega) u (by rw [hcu, hzero])

theorem natText_injective : Function.Injective natText := by
  intro m n h
  rw [← digitsValue_natText m, h, digitsValue_natText]

theorem natText_append_ne_minus (n : Nat) (rest t : Text) : natText n ++ rest ≠ '-' :: t := by
  intro h
  obtain ⟨c, u, hcu⟩ := List.exists_cons_of_ne_nil (natText_ne_nil n)
  have hdigit : c.isDigit = true := isDigit_of_mem_natText (hcu ▸ List.mem_cons_self)
  rw [hcu] at h
  rw [(List.cons.inj h).1] at hdigit
  cases hdigit

/-- Different integers have different texts. -/
theorem intText_injective : Function.Injective intText := by
  intro m n h
  unfold intText at h
  split at h <;> split at h
  · have habs := natText_injective (List.cons.inj h).2
    omega
  · exact absurd ((List.append_nil _).trans h.symm) (natText_append_ne_minus _ [] _)
  · exact absurd ((List.append_nil _).trans h) (natText_append_ne_minus _ [] _)
  · have habs := natText_injective h
    omega

theorem natText_mul_ten {n : Nat} (h : 0 < n) : natText (n * 10) = natText n ++ ['0'] := by
  have hdiv : n * 10 / 10 = n := Nat.mul_div_cancel n (by decide)
  have hmod : n * 10 % 10 = 0 := Nat.mul_mod_left n 10
  unfold natText
  rw [Nat.toDigits_of_base_le (by decide) (by omega), hdiv, hmod]
  rfl

/-- Zeros behind the digits of a number make it as many powers of ten greater. -/
theorem natText_append_zeros {n : Nat} (h : 0 < n) (k : Nat) :
    natText n ++ List.replicate k '0' = natText (n * 10 ^ k) := by
  induction k with
  | zero => rw [List.replicate_zero, List.append_nil, Nat.pow_zero, Nat.mul_one]
  | succ k ih =>
    have hpos : 0 < n * 10 ^ k := Nat.mul_pos h (Nat.pow_pos (by decide))
    rw [List.replicate_succ', ← List.append_assoc, ih, Nat.pow_succ, ← Nat.mul_assoc,
      natText_mul_ten hpos]

theorem isDigits_singleton {c : Char} (h : c.isDigit = true) : IsDigits [c] :=
  ⟨List.cons_ne_nil c [], List.forall_mem_singleton.mpr h⟩

namespace IsDigits

theorem append_of_forall {s t : Text} (hs : IsDigits s) (ht : ∀ c ∈ t, c.isDigit = true) :
    IsDigits (s ++ t) := by
  refine ⟨List.append_ne_nil_of_left_ne_nil hs.1 t, fun c hc => ?_⟩
  rcases List.mem_append.mp hc with hc | hc
  · exact hs.2 c hc
  · exact ht c hc

theorem of_forall_append {s t : Text} (hs : ∀ c ∈ s, c.isDigit = true) (ht : IsDigits t) :
    IsDigits (s ++ t) := by
  refine ⟨List.append_ne_nil_of_right_ne_nil s ht.1, fun c hc => ?_⟩
  rcases List.mem_append.mp hc with hc | hc
  · exact hs c hc
  · exact ht.2 c hc

theorem take {s : Text} (h : IsDigits s) {n : Nat} (hn : n ≠ 0) : IsDigits (s.take n) := by
  refine ⟨?_, fun c hc => h.2 c (List.mem_of_mem_take hc)⟩
  rw [Ne, List.take_eq_nil_iff]
  rintro (hzero | hnil)
  · exact hn hzero
  · exact h.1 hnil

theorem of_replicate_append (n : Nat) {t : Text} (ht : IsDigits t) :
    IsDigits (List.replicate n '0' ++ t) := by
  apply of_forall_append _ ht
  intro c hc
  rw [List.eq_of_mem_replicate hc]
  rfl

end IsDigits

/-! ### Numbers -/

inductive IsUnsigned : Text → Prop
  | whole {s : Text} (hs : IsDigits s) : IsUnsigned s
  | fraction {s t : Text} (hs : IsDigits s) (ht : IsDigits t) : IsUnsigned (s ++ '.' :: t)

/-- A signed number: a minus sign perhaps, digits, and perhaps a point with digits behind it. -/
inductive IsNumber : Text → Prop
  | plus {s : Text} (hs : IsUnsigned s) : IsNumber s
  | minus {s : Text} (hs : IsUnsigned s) : IsNumber ('-' :: s)

theorem isUnsigned_one : IsUnsigned "1.0" :=
  .fraction (s := ['1']) (t := ['0']) (isDigits_singleton rfl) (isDigits_singleton rfl)

theorem isUnsigned_zero : IsUnsigned "0.0" :=
  .fraction (s := ['0']) (t := ['0']) (isDigits_singleton rfl) (isDigits_singleton rfl)

theorem isNumber_intText (n : Int) : IsNumber (intText n) := by
  unfold intText
  split
  · exact .minus (.whole (isDigits_natText n.natAbs))
  · exact .plus (.whole (isDigits_natText n.natAbs))

namespace Binary64

theorem positional_of_nonneg {coefficient : Nat} (h : 0 < coefficient) {place : Int}
    (hplace : 0 ≤ place) :
    positional coefficient place = natText (coefficient * 10 ^ place.toNat) := by
  have hwhole : (-place).toNat = 0 := by omega
  simp only [positional, hwhole, if_true]
  exact natText_append_zeros h place.toNat

theorem isUnsigned_positional (coefficient : Nat) (place : Int) :
    IsUnsigned (positional coefficient place) := by
  have hdigits := isDigits_natText coefficient
  simp only [positional]
  split
  · apply IsUnsigned.whole
    apply hdigits.append_of_forall
    intro c hc
    rw [List.eq_of_mem_replicate hc]
    rfl
  split
  · next hpositive hshort =>
    apply IsUnsigned.fraction
    · exact hdigits.take (by omega)
    · refine ⟨?_, fun c hc => hdigits.2 c (List.mem_of_mem_drop hc)⟩
      rw [Ne, List.drop_eq_nil_iff]
      omega
  · exact .fraction (s := ['0']) (isDigits_singleton rfl) (.of_replicate_append _ hdigits)

theorem isNumber_signed (negative : Bool) {s : Text} (h : IsUnsigned s) :
    IsNumber (signed negative s) := by
  cases negative with
  | true => exact .minus h
  | false => exact .plus h

theorem isNumber_plain (negative : Bool) (significand exponent : Nat) :
    IsNumber (finite negative significand exponent).plain := by
  unfold plain
  apply isNumber_signed
  -- only the shape matters, so which decimal is the shortest is left open
  generalize shortest .up significand exponent = decimal
  obtain ⟨coefficient, place⟩ := decimal
  by_cases hzero : significand = 0
  · rw [if_pos hzero]
    exact .whole (s := ['0']) (isDigits_singleton rfl)
  · rw [if_neg hzero]
    exact isUnsigned_positional coefficient place

theorem isNumber_weightText (x : Binary64) : IsNumber x.weightText := by
  cases x with
  | infinite negative => exact .plus isUnsigned_zero
  | nan => exact .plus isUnsigned_zero
  | finite negative significand exponent =>
    unfold weightText
    cases (finite negative significand exponent).wholeMagnitude? with
    | none => exact isNumber_plain negative significand exponent
    | some magnitude =>
      exact isNumber_signed negative (.fraction (isDigits_natText magnitude) (t := ['0'])
        (isDigits_singleton rfl))

end Binary64

end FilterAlgebra
