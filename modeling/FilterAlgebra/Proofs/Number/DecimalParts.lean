import FilterAlgebra.Proofs.Number.Written
import Mathlib.Data.List.TakeWhile

/-!
# The parts of number literals

A literal is a sign, digits with or without a point, and an exponent part, and which text is which
part can be told in only one way. So a literal is read exactly when it can be taken apart (`Parts`),
and read as the digits and the exponent that it is taken apart into (`read?_eq_some_iff`).
-/

namespace FilterAlgebra

/-! ### Signs and exponents -/

/-- The exponent part of a literal. -/
inductive ExponentPart : Text → Int → Prop
  | plain {e : Char} {digits : Text} (he : e = 'e' ∨ e = 'E') (hdigits : IsDigits digits) :
      ExponentPart (e :: digits) (digitsValue digits)
  | plus {e : Char} {digits : Text} (he : e = 'e' ∨ e = 'E') (hdigits : IsDigits digits) :
      ExponentPart (e :: '+' :: digits) (digitsValue digits)
  | minus {e : Char} {digits : Text} (he : e = 'e' ∨ e = 'E') (hdigits : IsDigits digits) :
      ExponentPart (e :: '-' :: digits) (-(digitsValue digits : Int))

namespace Decimal

theorem readSign_of_head {s : Text} (h : ∀ c ∈ s.head?, c ≠ '-' ∧ c ≠ '+') :
    readSign s = (false, s) := by
  unfold readSign
  split
  · exact absurd rfl (h '-' rfl).1
  · exact absurd rfl (h '+' rfl).2
  · rfl

theorem readSign_of_isDigits {s : Text} (h : IsDigits s) : readSign s = (false, s) := by
  apply readSign_of_head
  intro c hc
  have hdigit := h.2 c (List.mem_of_mem_head? hc)
  constructor
  · rintro rfl
    cases hdigit
  · rintro rfl
    cases hdigit

theorem readSign_cases (s : Text) :
    ∃ negative rest, readSign s = (negative, rest) ∧
      (s = '-' :: rest ∧ negative = true ∨ s = '+' :: rest ∧ negative = false ∨
        s = rest ∧ negative = false) := by
  unfold readSign
  split
  · exact ⟨true, _, rfl, .inl ⟨rfl, rfl⟩⟩
  · exact ⟨false, _, rfl, .inr (.inl ⟨rfl, rfl⟩)⟩
  · exact ⟨false, _, rfl, .inr (.inr ⟨rfl, rfl⟩)⟩

theorem isDigits_iff {s : Text} : s ≠ [] ∧ s.all Char.isDigit = true ↔ IsDigits s := by
  rw [List.all_eq_true]
  rfl

theorem readExponent?_of_part {s : Text} {exponent : Int} (h : ExponentPart s exponent) :
    readExponent? s = some exponent := by
  cases h with
  | plain he hdigits =>
    simp [readExponent?, he, readSign_of_isDigits hdigits, isDigits_iff.mpr hdigits]
  | plus he hdigits => simp [readExponent?, he, readSign, isDigits_iff.mpr hdigits]
  | minus he hdigits => simp [readExponent?, he, readSign, isDigits_iff.mpr hdigits]

theorem readExponent?_eq_some_iff {s : Text} {exponent : Int} :
    readExponent? s = some exponent ↔ (s = [] ∧ exponent = 0) ∨ ExponentPart s exponent := by
  constructor
  · intro h
    rcases s with - | ⟨e, s⟩
    · exact .inl ⟨rfl, (Option.some.inj h).symm⟩
    · right
      obtain ⟨negative, digits, hsign, hcases⟩ := readSign_cases s
      simp only [readExponent?, hsign, isDigits_iff, Option.ite_none_right_eq_some,
        Option.some.injEq] at h
      obtain ⟨he, hdigits, rfl⟩ := h
      rcases hcases with ⟨rfl, rfl⟩ | ⟨rfl, rfl⟩ | ⟨rfl, rfl⟩
      · exact .minus he hdigits
      · exact .plus he hdigits
      · exact .plain he hdigits
  · rintro (⟨rfl, rfl⟩ | hpart)
    · rfl
    · exact readExponent?_of_part hpart

/-! ### Literals without their sign -/

/-- The literals without their sign, with their coefficients and exponents. -/
inductive Parts : Text → Nat → Int → Prop
  | whole {whole part : Text} {exponent : Int} (hwhole : IsDigits whole)
      (hpart : readExponent? part = some exponent) :
      Parts (whole ++ part) (digitsValue whole) exponent
  | point {whole fraction part : Text} {exponent : Int} (hwhole : ∀ c ∈ whole, c.isDigit = true)
      (hfraction : ∀ c ∈ fraction, c.isDigit = true) (hne : ¬(whole = [] ∧ fraction = []))
      (hpart : readExponent? part = some exponent) :
      Parts (whole ++ '.' :: (fraction ++ part)) (digitsValue (whole ++ fraction))
        (exponent - fraction.length)

theorem Parts.of_isDigits {digits : Text} (h : IsDigits digits) :
    Parts digits (digitsValue digits) 0 := by
  have hparts := @Parts.whole digits [] 0 h rfl
  rwa [List.append_nil] at hparts

/-! ### Reading -/

theorem takeWhile_digits {whole rest : Text} (hwhole : ∀ c ∈ whole, c.isDigit = true)
    (hrest : ∀ c ∈ rest.head?, c.isDigit = false) :
    (whole ++ rest).takeWhile Char.isDigit = whole ∧
      (whole ++ rest).dropWhile Char.isDigit = rest := by
  rw [List.takeWhile_append_of_pos hwhole, List.dropWhile_append_of_pos hwhole]
  cases rest with
  | nil => simp
  | cons c rest => simp [hrest c rfl]

theorem head_of_readExponent? {part : Text} {exponent : Int}
    (h : readExponent? part = some exponent) :
    ∀ c ∈ part.head?, c.isDigit = false ∧ c ≠ '.' := by
  intro c hc
  have hletter : c = 'e' ∨ c = 'E' := by
    rcases readExponent?_eq_some_iff.mp h with ⟨rfl, -⟩ | hpart
    · cases hc
    · cases hpart <;> cases hc <;> assumption
  rcases hletter with rfl | rfl <;> decide

theorem read?_of_parts {s u : Text} {negative : Bool} {coefficient : Nat} {exponent : Int}
    (hsign : readSign s = (negative, u)) (h : Parts u coefficient exponent) :
    read? s = some ⟨negative, coefficient, exponent⟩ := by
  cases h with
  | whole hwhole hpart =>
    obtain ⟨htake, hdrop⟩ :=
      takeWhile_digits hwhole.2 fun c hc => (head_of_readExponent? hpart c hc).1
    simp only [read?, hsign, htake, hdrop]
    split
    · exact absurd rfl (head_of_readExponent? hpart '.' rfl).2
    · simp [hwhole.1, hpart]
  | @point whole fraction part _ hwhole hfraction hne hpart =>
    obtain ⟨htake, hdrop⟩ :=
      takeWhile_digits hfraction fun c hc => (head_of_readExponent? hpart c hc).1
    obtain ⟨houter, hrest⟩ := @takeWhile_digits whole ('.' :: (fraction ++ part)) hwhole (by simp)
    simp only [read?, hsign, houter, hrest, htake, hdrop, if_neg hne, hpart, Option.map_some]

theorem Parts.readSign_eq {s : Text} {coefficient : Nat} {exponent : Int}
    (h : Parts s coefficient exponent) : readSign s = (false, s) := by
  apply readSign_of_head
  have hdigit : ∀ c : Char, c.isDigit = true ∨ c = '.' → c ≠ '-' ∧ c ≠ '+' := by
    rintro c hc
    constructor <;> rintro rfl <;> revert hc <;> decide
  intro c hc
  apply hdigit
  cases h with
  | @whole whole part _ hwhole =>
    obtain ⟨d, rest, rfl⟩ := List.exists_cons_of_ne_nil hwhole.1
    cases hc
    exact .inl (hwhole.2 _ List.mem_cons_self)
  | @point whole fraction part _ hwhole =>
    cases whole with
    | nil =>
      cases hc
      exact .inr rfl
    | cons d rest =>
      cases hc
      exact .inl (hwhole _ List.mem_cons_self)

/-- A literal is read exactly when it has parts, and in no other way than as these. -/
theorem read?_eq_some_iff {s : Text} {d : Decimal} :
    read? s = some d ↔
      Parts (readSign s).2 d.coefficient d.exponent ∧ d.negative = (readSign s).1 := by
  constructor
  · intro h
    simp only [read?] at h
    generalize (readSign s).2 = u at h ⊢
    have hdigits : ∀ t : Text, ∀ c ∈ t.takeWhile Char.isDigit, c.isDigit = true :=
      fun _ _ hc => List.mem_takeWhile_imp hc
    have hwhole := hdigits u
    have hparts := @List.takeWhile_append_dropWhile _ Char.isDigit u
    -- the digits in front, and what they end before
    generalize u.takeWhile Char.isDigit = whole at h hwhole hparts
    generalize u.dropWhile Char.isDigit = rest at h hparts
    subst hparts
    split at h
    · -- a point, with the digits behind it
      next r =>
      split at h
      · cases h
      · next hne =>
        obtain ⟨exponent, hpart, rfl⟩ := Option.map_eq_some_iff.mp h
        refine ⟨?_, rfl⟩
        have hpoint := Parts.point hwhole (hdigits r) hne hpart
        rwa [List.takeWhile_append_dropWhile] at hpoint
    · split at h
      · cases h
      · next hne =>
        obtain ⟨exponent, hpart, rfl⟩ := Option.map_eq_some_iff.mp h
        -- no point, so the digits are all there are
        have hwhole : IsDigits whole := ⟨fun hnil => hne ⟨hnil, rfl⟩, hwhole⟩
        refine ⟨?_, rfl⟩
        simpa using Parts.whole hwhole hpart
  · rintro ⟨hparts, hsign⟩
    have hread := @read?_of_parts s (readSign s).2 (readSign s).1 _ _ rfl hparts
    rwa [← hsign] at hread

end Decimal

end FilterAlgebra
