import FilterAlgebra.Proofs.Calendar.Timestamps
import FilterAlgebra.Range.Date
import FilterAlgebra.Range.Numeric
import Mathlib.Data.List.TakeWhile

/-!
# The query forms of ranges

A query form of a range stands in brackets, and its bounds are `*`, timestamps or number literals,
none of which has a bracket in it. So the first closing bracket of a form is its last character.
-/

namespace FilterAlgebra

/-! ### Timestamps -/

theorem notMem_paddedText (length n : Nat) : ']' ∉ paddedText length n := by
  intro h
  have hdigit := isDigit_of_mem_paddedText h
  revert hdigit
  decide

theorem notMem_yearText (year : Int) : ']' ∉ yearText year := by
  unfold yearText
  split
  · simp [notMem_paddedText]
  · split <;> simp [notMem_paddedText]

theorem Instant.notMem_text (t : Instant) : ']' ∉ t.text := by
  simp [Instant.text, notMem_paddedText, notMem_yearText]

theorem notMem_dateBoundText (bound : Option Instant) : ']' ∉ dateBoundText bound := by
  cases bound with
  | none => decide
  | some t => exact t.notMem_text

/-! ### Number literals -/

/-- The characters of number literals. -/
def isLiteralChar (c : Char) : Bool :=
  c.isDigit || ['+', '-', '.', 'e', 'E'].contains c

theorem isLiteralChar_of_isDigit {c : Char} (h : c.isDigit = true) : isLiteralChar c = true := by
  simp [isLiteralChar, h]

theorem isBlank_of_isLiteralChar {c : Char} (h : isLiteralChar c = true) : isBlank c = false := by
  rcases Bool.or_eq_true_iff.mp h with hdigit | hother
  · exact isBlank_of_isDigit hdigit
  · have hall : ['+', '-', '.', 'e', 'E'].all (fun c => !isBlank c) = true := by decide
    simpa using List.all_eq_true.mp hall c (List.contains_iff_mem.mp hother)

namespace Decimal

theorem isLiteralChar_of_readSign {s : Text} (h : ∀ c ∈ (readSign s).2, isLiteralChar c = true) :
    ∀ c ∈ s, isLiteralChar c = true := by
  unfold readSign at h
  split at h
  · exact List.forall_mem_cons.mpr ⟨by decide, h⟩
  · exact List.forall_mem_cons.mpr ⟨by decide, h⟩
  · exact h

theorem isLiteralChar_of_dropWhile {s : Text}
    (h : ∀ c ∈ s.dropWhile Char.isDigit, isLiteralChar c = true) :
    ∀ c ∈ s, isLiteralChar c = true := by
  intro c hc
  rw [← @List.takeWhile_append_dropWhile _ Char.isDigit s, List.mem_append] at hc
  rcases hc with hc | hc
  · exact isLiteralChar_of_isDigit (List.mem_takeWhile_imp hc)
  · exact h c hc

theorem isLiteralChar_of_readExponent? {s : Text} {exponent : Int}
    (h : readExponent? s = some exponent) : ∀ c ∈ s, isLiteralChar c = true := by
  cases s with
  | nil => exact fun _ hc => absurd hc List.not_mem_nil
  | cons e rest =>
    simp only [readExponent?] at h
    split at h
    · next he =>
      split at h
      · next hdigits =>
        have hrest := isLiteralChar_of_readSign fun c hc =>
          isLiteralChar_of_isDigit (List.all_eq_true.mp hdigits.2 c hc)
        refine List.forall_mem_cons.mpr ⟨?_, hrest⟩
        rcases he with rfl | rfl <;> decide
      · cases h
    · cases h

theorem isLiteralChar_of_read? {s : Text} {d : Decimal} (h : read? s = some d) :
    ∀ c ∈ s, isLiteralChar c = true := by
  apply isLiteralChar_of_readSign
  apply isLiteralChar_of_dropWhile
  simp only [read?] at h
  generalize ((readSign s).2).dropWhile Char.isDigit = rest at h ⊢
  -- With a point there are digits behind it before the exponent; without one there are none.
  split at h
  · next fraction =>
    split at h
    · cases h
    · obtain ⟨exponent, hexponent, -⟩ := Option.map_eq_some_iff.mp h
      have hfraction := isLiteralChar_of_dropWhile (isLiteralChar_of_readExponent? hexponent)
      exact List.forall_mem_cons.mpr ⟨by decide, hfraction⟩
  · split at h
    · cases h
    · obtain ⟨exponent, hexponent, -⟩ := Option.map_eq_some_iff.mp h
      exact isLiteralChar_of_readExponent? hexponent

end Decimal

theorem isLiteralChar_of_readFinite? {s : Text} {x : Binary64}
    (h : Binary64.readFinite? s = some x) : ∀ c ∈ s, isLiteralChar c = true := by
  obtain ⟨hread, -⟩ := Option.filter_eq_some_iff.mp h
  obtain ⟨d, hd, -⟩ := Option.map_eq_some_iff.mp hread
  exact Decimal.isLiteralChar_of_read? hd

theorem chars_of_readNumericBound? {s : Text} {bound : Option Binary64}
    (h : readNumericBound? s = some bound) : ∀ c ∈ s, c = '*' ∨ isLiteralChar c = true := by
  unfold readNumericBound? at h
  split at h
  · next hs =>
    rw [hs]
    exact fun c hc => .inl (List.mem_singleton.mp hc)
  · obtain ⟨number, hnumber, -⟩ := Option.map_eq_some_iff.mp h
    exact fun c hc => .inr (isLiteralChar_of_readFinite? hnumber c hc)

theorem notMem_of_readNumericBound? {s : Text} {bound : Option Binary64}
    (h : readNumericBound? s = some bound) : ']' ∉ s := by
  intro hmem
  have hchar := chars_of_readNumericBound? h _ hmem
  revert hchar
  decide

/-! ### Forms -/

theorem exists_of_dateRangeValue {value form : Text} (h : dateRangeValue value = .ok form) :
    ∃ low high, form = rangeText low high ∧ ']' ∉ low ∧ ']' ∉ high := by
  unfold dateRangeValue at h
  split at h
  · next start stop _ =>
    cases h
    exact ⟨_, _, rfl, notMem_dateBoundText start, notMem_dateBoundText stop⟩
  · cases h

theorem exists_of_numericRangeValue {value form : Text} (h : numericRangeValue value = .ok form) :
    ∃ low high, form = rangeText low high ∧ ']' ∉ low ∧ ']' ∉ high := by
  unfold numericRangeValue at h
  split at h
  · next low high hbounds =>
    cases h
    refine ⟨low, high, rfl, ?_⟩
    unfold numericRangeBounds? at hbounds
    split at hbounds
    · cases hbounds
    · split at hbounds
      · next hlow hhigh =>
        split at hbounds
        · cases hbounds
        · cases hbounds
          exact ⟨notMem_of_readNumericBound? hlow, notMem_of_readNumericBound? hhigh⟩
      · cases hbounds
  · cases h

end FilterAlgebra
