import FilterAlgebra.Text.Blank

/-!
# Ranges

A range is written `start TO end`, with or without brackets around it. Both bounds must be there,
and the separator must not occur again in the second.
-/

namespace FilterAlgebra

/-- What stands between the bounds of a range. -/
def rangeSeparator : Text := " TO "

/-- A text without a pair of brackets around it, if it has one. -/
def unbracketed (s : Text) : Text := (Text.inside? '[' ']' s).getD s

/-- The bounds of a range, without blanks around them. -/
def splitRange? (value : Text) : Option (Text × Text) :=
  match Text.splitOnce? rangeSeparator (unbracketed (Text.trim value)) with
  | none => none
  | some (before, after) =>
    let low := Text.trim before
    let high := Text.trim after
    if low = [] ∨ high = [] ∨ Text.contains high rangeSeparator then none else some (low, high)

theorem bounds_of_splitRange? {value low high : Text} (h : splitRange? value = some (low, high)) :
    low ≠ [] ∧ high ≠ [] ∧ Text.contains high rangeSeparator = false := by
  unfold splitRange? at h
  split at h
  · cases h
  · simp only at h
    split at h
    · cases h
    · next hne => cases h; simp_all

/-- A range between two bounds, in brackets. -/
def rangeText (low high : Text) : Text := '[' :: (low ++ rangeSeparator ++ high ++ [']'])

end FilterAlgebra
