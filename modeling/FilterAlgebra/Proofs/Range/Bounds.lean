import FilterAlgebra.Proofs.Collected
import FilterAlgebra.Range.Date
import FilterAlgebra.Range.Numeric

/-!
# The ranges that filters give

A filter of a numeric range gives it as one value or as a list of two bounds. A list of any other
length, the empty one apart, is the only thing that cannot be prepared (`joinBounds_cases`). What
cannot be read as a range is rejected under its own name, for dates and for numbers alike.
-/

namespace FilterAlgebra

namespace Filter

/-- Whether the values of a filter are a list that cannot be the bounds of a range. -/
def isMiscounted (f : Filter) : Bool :=
  match f.q with
  | some (.many values) => values.length ≠ 0 && values.length ≠ 2
  | _ => false

/-- The range that a filter gives: one value, unless it is blank, or two bounds. -/
def rangeValue? (f : Filter) : Option Text :=
  match f.q with
  | some (.one value) => if Text.isBlankText value then none else some value
  | some (.many [low, high]) => some (Text.trim low ++ rangeSeparator ++ Text.trim high)
  | _ => none

/-- What is wrong with a list that cannot be the bounds of a range. -/
def countError (f : Filter) : FilterError :=
  .invalidNumericRange ("expected [min, max], got " ++ natText f.valueCount ++ " values")

end Filter

theorem isBlankText_rangeSeparator (low high : Text) :
    Text.isBlankText (low ++ rangeSeparator ++ high) = false := by
  have hseparator : rangeSeparator.all isBlank = false := by decide
  rw [Text.isBlankText, List.all_append, List.all_append, hseparator, Bool.and_false,
    Bool.false_and]

/-- A list of the wrong length cannot be prepared; any other filter has its range as its only value
then. -/
theorem joinBounds_cases (f : Filter) :
    (f.isMiscounted = true ∧ joinBounds f = .error f.countError) ∨
      (f.isMiscounted = false ∧ ∃ g, joinBounds f = .ok g ∧ g.values = f.rangeValue?.toList) := by
  obtain ⟨kind, context, op, precision, q⟩ := f
  rcases q with - | value | values
  · exact .inr ⟨rfl, _, rfl, rfl⟩
  · refine .inr ⟨rfl, _, rfl, ?_⟩
    cases hblank : Text.isBlankText value <;>
      simp [Filter.values, Filter.rawValues, FilterValue.toList, Filter.rangeValue?, hblank]
  · rcases values with - | ⟨low, - | ⟨high, - | ⟨next, rest⟩⟩⟩
    · exact .inr ⟨rfl, _, rfl, rfl⟩
    · exact .inl ⟨rfl, rfl⟩
    · refine .inr ⟨rfl, _, rfl, ?_⟩
      have hblank := isBlankText_rangeSeparator (Text.trim low) (Text.trim high)
      simp only [Filter.values, Filter.rawValues, Option.map_some, Option.getD_some,
        FilterValue.toList, Filter.rangeValue?, Option.toList_some]
      rw [List.filter_cons_of_pos (by rw [hblank]; rfl), List.filter_nil]
    · exact .inl ⟨rfl, rfl⟩

theorem isOk_joinBounds (f : Filter) : (joinBounds f).isOk = !f.isMiscounted := by
  rcases joinBounds_cases f with ⟨hcount, h⟩ | ⟨hcount, g, h, -⟩ <;> rw [hcount, h] <;> rfl

theorem eq_of_joinBounds_error {f : Filter} {e : FilterError} (h : joinBounds f = .error e) :
    e = f.countError := by
  rcases joinBounds_cases f with ⟨-, h'⟩ | ⟨-, g, h', -⟩
  · exact Except.error.inj (h.symm.trans h')
  · cases h.symm.trans h'

theorem values_of_joinBounds {f g : Filter} (h : joinBounds f = .ok g) :
    g.values = f.rangeValue?.toList := by
  rcases joinBounds_cases f with ⟨-, h'⟩ | ⟨-, g', h', hvalues⟩
  · cases h.symm.trans h'
  · rw [Except.ok.inj (h.symm.trans h'), hvalues]

theorem values_of_mapM_joinBounds {members prepared : List Filter}
    (h : members.mapM joinBounds = .ok prepared) :
    prepared.flatMap Filter.values = members.filterMap Filter.rangeValue? := by
  rw [mapM_eq_ok_iff] at h
  rw [List.filterMap_eq_flatMap_toList]
  induction h with
  | nil => rfl
  | cons hfg _ ih => rw [List.flatMap_cons, List.flatMap_cons, ih, values_of_joinBounds hfg]

/-! ### Rejected ranges -/

theorem eq_of_dateRangeValue_error {value : Text} {e : FilterError}
    (h : dateRangeValue value = .error e) : e = .invalidDateRange value := by
  unfold dateRangeValue at h
  split at h
  · cases h
  · cases h
    rfl

theorem eq_of_numericRangeValue_error {value : Text} {e : FilterError}
    (h : numericRangeValue value = .error e) : e = .invalidNumericRange value := by
  unfold numericRangeValue at h
  split at h
  · cases h
  · cases h
    rfl

end FilterAlgebra
