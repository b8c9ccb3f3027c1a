import FilterAlgebra.Proofs.Client.Lexing
import FilterAlgebra.Proofs.Client.NumericRanges
import FilterAlgebra.Proofs.Number.DecimalParts
import Mathlib.Algebra.Field.Rat
import Mathlib.Tactic.FieldSimp
import Mathlib.Tactic.Ring

/-!
# Numerals of calls

A bound that is a finite number is written into a call as it is, so it has to be a numeral of the
client language there, and of the same number. The grammar of these numerals (`SignedNumeral`) is
written down here with the numbers they denote, as far as they can be written with the characters of
a bound. It has all literals that are read as bounds, but for one kind: an integer that is not zero
must not begin with a zero (`signedNumeral_iff`).
-/

namespace FilterAlgebra

/-! ### The grammar -/

/-- Digits with a point, behind which or in front of which there is at least one of them. -/
inductive PointFloat : Text → ℚ → Prop
  | fraction {whole fraction : Text} (hwhole : ∀ c ∈ whole, c.isDigit = true)
      (hfraction : IsDigits fraction) :
      PointFloat (whole ++ '.' :: fraction)
        (digitsValue whole + digitsValue fraction / 10 ^ fraction.length)
  | whole {whole : Text} (hwhole : IsDigits whole) : PointFloat (whole ++ ['.']) (digitsValue whole)

/-- The numerals, integers first. A zero may be written with several digits, any other integer
begins with a digit that is no zero. -/
inductive Numeral : Text → ℚ → Prop
  | zeros (n : Nat) : Numeral (List.replicate (n + 1) '0') 0
  | integer {c : Char} {digits : Text} (hfirst : c ≠ '0') (hdigits : IsDigits (c :: digits)) :
      Numeral (c :: digits) (digitsValue (c :: digits))
  | point {s : Text} {v : ℚ} (hs : PointFloat s v) : Numeral s v
  | wholeExponent {whole part : Text} {exponent : Int} (hwhole : IsDigits whole)
      (hpart : ExponentPart part exponent) :
      Numeral (whole ++ part) (digitsValue whole * 10 ^ exponent)
  | pointExponent {s part : Text} {v : ℚ} {exponent : Int} (hs : PointFloat s v)
      (hpart : ExponentPart part exponent) : Numeral (s ++ part) (v * 10 ^ exponent)

inductive SignedNumeral : Text → ℚ → Prop
  | unsigned {s : Text} {v : ℚ} (hs : Numeral s v) : SignedNumeral s v
  | plus {s : Text} {v : ℚ} (hs : Numeral s v) : SignedNumeral ('+' :: s) v
  | minus {s : Text} {v : ℚ} (hs : Numeral s v) : SignedNumeral ('-' :: s) (-v)

/-! ### Values -/

/-- The number that a literal is read as. -/
def Decimal.value (d : Decimal) : ℚ :=
  (if d.negative then -1 else 1) * (d.coefficient * 10 ^ d.exponent)

/-- Floats with a point are the digits on both sides of it, not both missing. -/
theorem pointFloat_iff {s : Text} {v : ℚ} :
    PointFloat s v ↔ ∃ whole fraction, s = whole ++ '.' :: fraction ∧
      (∀ c ∈ whole, c.isDigit = true) ∧ (∀ c ∈ fraction, c.isDigit = true) ∧
      ¬(whole = [] ∧ fraction = []) ∧
      v = digitsValue (whole ++ fraction) * 10 ^ (-(fraction.length : Int)) := by
  have hvalue : ∀ whole fraction : Text,
      (digitsValue (whole ++ fraction) : ℚ) * 10 ^ (-(fraction.length : Int)) =
        digitsValue whole + digitsValue fraction / 10 ^ fraction.length := by
    intro whole fraction
    rw [digitsValue_append, zpow_neg, zpow_natCast]
    push_cast
    field_simp
  constructor
  · intro h
    cases h with
    | fraction hwhole hfraction =>
      exact ⟨_, _, rfl, hwhole, hfraction.2, fun hne => hfraction.1 hne.2, (hvalue _ _).symm⟩
    | @whole whole hwhole =>
      refine ⟨whole, [], rfl, hwhole.2, by simp, fun hne => hwhole.1 hne.1, ?_⟩
      simp
  · rintro ⟨whole, fraction, rfl, hwhole, hfraction, hne, rfl⟩
    rw [hvalue]
    -- which side is missing, if one is, decides between the two forms
    by_cases hnil : fraction = []
    · subst hnil
      simpa [digitsValue] using PointFloat.whole ⟨fun hw => hne ⟨hw, rfl⟩, hwhole⟩
    · exact .fraction hwhole ⟨hnil, hfraction⟩

/-! ### Literals and numerals -/

/-- Whether digits begin with a zero without all being zeros. -/
def isPadded (s : Text) : Bool :=
  s.all Char.isDigit && decide (s.head? = some '0') && s.any fun c => c ≠ '0'

/-- Whether a text is a sign, if it has one, and digits that begin with a zero without all being
zeros. -/
def isZeroPadded (s : Text) : Bool := isPadded (Decimal.readSign s).2

theorem isPadded_of_mem {s : Text} {c : Char} (hmem : c ∈ s) (hdigit : c.isDigit = false) :
    isPadded s = false := by
  have hall : s.all Char.isDigit = false := List.all_eq_false.mpr ⟨c, hmem, by simp [hdigit]⟩
  rw [isPadded, hall, Bool.false_and, Bool.false_and]

theorem ExponentPart.exists_mem {part : Text} {exponent : Int} (h : ExponentPart part exponent) :
    ∃ c ∈ part, c.isDigit = false := by
  have hletter : ∀ e : Char, e = 'e' ∨ e = 'E' → e.isDigit = false := by
    rintro e (rfl | rfl) <;> decide
  cases h with
  | plain he => exact ⟨_, List.mem_cons_self, hletter _ he⟩
  | plus he => exact ⟨_, List.mem_cons_self, hletter _ he⟩
  | minus he => exact ⟨_, List.mem_cons_self, hletter _ he⟩

theorem Numeral.parts {s : Text} {v : ℚ} (h : Numeral s v) :
    isPadded s = false ∧ ∃ coefficient exponent,
      Decimal.Parts s coefficient exponent ∧ v = coefficient * 10 ^ exponent := by
  have hnone := Decimal.readExponent?_eq_some_iff.mpr (.inl ⟨rfl, rfl⟩)
  have hsome : ∀ {part exponent}, ExponentPart part exponent →
      Decimal.readExponent? part = some exponent := Decimal.readExponent?_of_part
  cases h with
  | zeros n =>
    -- several zeros are digits without a value
    have hzeros : ∀ c ∈ List.replicate (n + 1) '0', c = '0' := fun c => List.eq_of_mem_replicate
    have hdigits : IsDigits (List.replicate (n + 1) '0') :=
      ⟨by simp, fun c hc => by rw [hzeros c hc]; rfl⟩
    refine ⟨by simp [isPadded], _, _, .of_isDigits hdigits, ?_⟩
    rw [digitsValue_zeros hzeros]
    simp
  | integer hfirst hdigits =>
    refine ⟨by simp [isPadded, hfirst], _, _, .of_isDigits hdigits, ?_⟩
    simp
  | point hs =>
    -- a point is no digit, so nothing is padded
    obtain ⟨whole, fraction, rfl, hwhole, hfraction, hne, rfl⟩ := pointFloat_iff.mp hs
    refine ⟨isPadded_of_mem (c := '.') (by simp) (by decide), _, _,
      by simpa using Decimal.Parts.point hwhole hfraction hne hnone, ?_⟩
    simp
  | wholeExponent hwhole hpart =>
    -- nor is the letter of an exponent
    obtain ⟨c, hc, hdigit⟩ := hpart.exists_mem
    exact ⟨isPadded_of_mem (List.mem_append_right _ hc) hdigit, _, _,
      .whole hwhole (hsome hpart), rfl⟩
  | pointExponent hs hpart =>
    obtain ⟨whole, fraction, rfl, hwhole, hfraction, hne, rfl⟩ := pointFloat_iff.mp hs
    refine ⟨isPadded_of_mem (c := '.') (by simp) (by decide), _, _,
      by simpa using Decimal.Parts.point hwhole hfraction hne (hsome hpart), ?_⟩
    rw [mul_assoc, ← zpow_add₀ (by norm_num), neg_add_eq_sub]

/-- Digits are an integer, or a zero written with several of them, unless they are padded. -/
theorem numeral_of_isDigits {digits : Text} (h : IsDigits digits)
    (hpadded : isPadded digits = false) : Numeral digits (digitsValue digits) := by
  obtain ⟨c, rest, rfl⟩ := List.exists_cons_of_ne_nil h.1
  by_cases hc : c = '0'
  · subst hc
    have hdigits : ∀ d ∈ rest, d.isDigit = true := fun d hd => h.2 d (List.mem_cons_of_mem '0' hd)
    have hpadding : (∀ d ∈ rest, d.isDigit = true) → ∀ d ∈ rest, d = '0' := by
      simpa [isPadded] using hpadded
    have hzeros : ∀ d ∈ '0' :: rest, d = '0' :=
      List.forall_mem_cons.mpr ⟨rfl, hpadding hdigits⟩
    rw [digitsValue_zeros hzeros, List.eq_replicate_of_mem hzeros]
    simpa using Numeral.zeros rest.length
  · exact .integer hc h

theorem numeral_of_parts {s : Text} {coefficient : Nat} {exponent : Int}
    (h : Decimal.Parts s coefficient exponent) (hpadded : isPadded s = false) :
    Numeral s (coefficient * 10 ^ exponent) := by
  cases h with
  | whole hwhole hpart =>
    rcases Decimal.readExponent?_eq_some_iff.mp hpart with ⟨rfl, rfl⟩ | hpart
    · rw [List.append_nil] at hpadded ⊢
      simpa using numeral_of_isDigits hwhole hpadded
    · exact .wholeExponent hwhole hpart
  | @point whole fraction part exponent hwhole hfraction hne hpart =>
    have hfloat := pointFloat_iff.mpr ⟨whole, fraction, rfl, hwhole, hfraction, hne, rfl⟩
    rcases Decimal.readExponent?_eq_some_iff.mp hpart with ⟨rfl, rfl⟩ | hpart
    · simpa using Numeral.point hfloat
    · have hnumeral := Numeral.pointExponent hfloat hpart
      rw [mul_assoc, ← zpow_add₀ (by norm_num), neg_add_eq_sub, List.append_assoc] at hnumeral
      exact hnumeral

/-- **Numerals of bounds.** The signed numerals are the literals that are not padded with zeros, and
denote the numbers that these are read as. -/
theorem signedNumeral_iff {s : Text} {v : ℚ} :
    SignedNumeral s v ↔
      isZeroPadded s = false ∧ ∃ d, Decimal.read? s = some d ∧ v = d.value := by
  constructor
  · have hsigned : ∀ {t u : Text} {negative : Bool} {w : ℚ}, Numeral t w →
        Decimal.readSign u = (negative, t) → isZeroPadded u = false ∧
          ∃ d, Decimal.read? u = some d ∧ (if negative then -1 else 1) * w = d.value := by
      rintro t u negative w hs hsign
      obtain ⟨hpadded, coefficient, exponent, hparts, rfl⟩ := hs.parts
      refine ⟨by rw [isZeroPadded, hsign, hpadded], _, Decimal.read?_of_parts hsign hparts, rfl⟩
    intro h
    cases h with
    | unsigned hs =>
      obtain ⟨-, _, _, hparts, -⟩ := hs.parts
      simpa using hsigned hs hparts.readSign_eq
    | @plus s _ hs =>
      have hsign : Decimal.readSign ('+' :: s) = (false, s) := rfl
      simpa using hsigned hs hsign
    | @minus s _ hs =>
      have hsign : Decimal.readSign ('-' :: s) = (true, s) := rfl
      simpa using hsigned hs hsign
  · rintro ⟨hpadded, d, hread, rfl⟩
    obtain ⟨hparts, hnegative⟩ := Decimal.read?_eq_some_iff.mp hread
    have hnumeral := numeral_of_parts hparts hpadded
    obtain ⟨negative, rest, hsign, hcases⟩ := Decimal.readSign_cases s
    rw [hsign] at hnumeral hnegative
    rw [Decimal.value, hnegative]
    -- the sign that was read is the first character or is not written
    rcases hcases with ⟨rfl, rfl⟩ | ⟨rfl, rfl⟩ | ⟨rfl, rfl⟩
    · simpa using SignedNumeral.minus hnumeral
    · simpa using SignedNumeral.plus hnumeral
    · simpa using SignedNumeral.unsigned hnumeral

/-! ### Elements of tuples -/

/-- What stands for a bound in the tuple of a call: nothing but `None` for an open bound, the bound
itself where it is a finite number, and a string where it is none. -/
def IsElement (bound element : Text) : Prop :=
  if bound = ['*'] then element = "None"
  else if (Binary64.readFinite? bound).isSome then
    element = bound ∧ ∃ d, Decimal.read? bound = some d ∧
      ∀ v, SignedNumeral element v ↔ isZeroPadded bound = false ∧ v = d.value
  else
    element = stringLiteral bound ∧
      CallLexer.lex element = if CallLexer.isUnbroken bound then some [.string bound] else none

theorem isElement_boundLiteral (raw : Text) : IsElement (Text.trim raw) (boundLiteral raw) := by
  unfold IsElement boundLiteral
  simp only
  split
  · rfl
  split
  · next hnumber =>
    obtain ⟨x, hx⟩ := Option.isSome_iff_exists.mp hnumber
    obtain ⟨hread, -⟩ := Option.filter_eq_some_iff.mp hx
    obtain ⟨d, hd, -⟩ := Option.map_eq_some_iff.mp hread
    refine ⟨rfl, d, hd, fun v => ?_⟩
    rw [signedNumeral_iff, hd]
    simp only [Option.some.injEq, exists_eq_left']
  · exact ⟨rfl, CallLexer.lex_stringLiteral _⟩

/-- **Elements of tuples.** A call shows the two bounds of a numeric range, if it has two, as a
tuple. A bound without quotes is a numeral of the number that the bound is read as, unless it is an
integer padded with zeros, which is no numeral at all. A string is read as the bound, unless a
carriage return or a NUL breaks it off. -/
theorem compileCall_bounds {f : Filter} (hrange : f.type.isNumericRange = true)
    (resource function : Text) (before after : List Filter) :
    match f.callBounds? with
    | none =>
      compileCall resource function (before ++ f :: after) =
        compileCall resource function (before ++ after)
    | some (low, high) => ∃ first last,
      compileCall resource function (before ++ f :: after) =
        ("impresso." ++ resource ++ '.' :: function) ++
          argumentsText (before.filterMap Filter.keywordArgument? ++
            f.rangeArgument (tupleText first last) :: after.filterMap Filter.keywordArgument?) ∧
      IsElement (Text.trim low) first ∧ IsElement (Text.trim high) last := by
  have hargument := Filter.keywordArgument?_of_isNumericRange hrange
  rw [compileCall_eq, compileCall_eq, List.filterMap_append, List.filterMap_append]
  cases hbounds : f.callBounds? with
  | none =>
    rw [hbounds] at hargument
    rw [List.filterMap_cons_none hargument]
  | some bounds =>
    rw [hbounds] at hargument
    rw [List.filterMap_cons_some hargument]
    exact ⟨_, _, rfl, isElement_boundLiteral bounds.1, isElement_boundLiteral bounds.2⟩

/-- Lengths from a float with an exponent on. -/
def floatLengths : Filter := { type := .contentLength, q := some (.one "[-0.50e1 TO *]") }

theorem compileCall_bounds_floatLengths :
    floatLengths.type.isNumericRange = true ∧ ∃ first last,
      compileCall "search" "find" [floatLengths] =
        "impresso.search.find" ++
          argumentsText [floatLengths.rangeArgument (tupleText first last)] ∧
      IsElement "-0.50e1" first ∧ IsElement "*" last := by
  have hbounds : floatLengths.callBounds? = some ("-0.50e1".toList, "*".toList) := by decide +kernel
  have helements := compileCall_bounds (f := floatLengths) rfl "search" "find" [] []
  rw [hbounds] at helements
  exact ⟨rfl, helements⟩

/-- A bound that is padded with zeros. -/
def paddedLengths : Filter := { type := .contentLength, q := some (.many ["007", "10"]) }

/-- A bound without quotes need not be a numeral. -/
theorem compileCall_paddedLengths_ne :
    paddedLengths.type.isNumericRange = true ∧
      compileCall "search" "find" [paddedLengths] =
        "impresso.search.find(\n\tcontent_length=(007, 10)\n)" ∧
      (∀ v, ¬SignedNumeral "007" v) ∧ ("007" : Text) ≠ "None" ∧
      ∀ s, ("007" : Text) ≠ stringLiteral s := by
  refine ⟨rfl, by decide +kernel, ?_, by decide, ?_⟩
  · intro v hv
    have hpadded : isZeroPadded "007" = true := by decide
    rw [(signedNumeral_iff.mp hv).1] at hpadded
    cases hpadded
  · intro s hs
    cases (List.cons.inj hs).1

end FilterAlgebra
