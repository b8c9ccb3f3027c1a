import FilterAlgebra.Text.Table

/-!
# Relational predicates

Conditions on the columns of a row: a column has one of some values, or a value that is none of
them, or several conditions hold together. A predicate has two readings: its text with a placeholder
for each value, and its truth on a row, where a missing column satisfies neither test.
-/

namespace FilterAlgebra

/-- The columns of a row, as texts. -/
abbrev Row := Table Text

inductive Predicate where
  | isIn (column : Text) (values : List Text)
  | notIn (column : Text) (values : List Text)
  | all (predicates : List Predicate)

namespace Predicate

/-- The condition that several predicates hold: one is itself, and none is no condition. -/
def allOf? : List Predicate → Option Predicate
  | [] => none
  | [predicate] => some predicate
  | predicates => some (.all predicates)

/-! ### Text -/

def placeholders (count : Nat) : Text := List.intercalate ", " (List.replicate count ['?'])

mutual

/-- The text of a predicate, with a placeholder for each of its values. -/
def sql : Predicate → Text
  | isIn column values => column ++ " IN (" ++ placeholders values.length ++ ")"
  | notIn column values => column ++ " NOT IN (" ++ placeholders values.length ++ ")"
  | all predicates => '(' :: (List.intercalate " AND " (sqlAll predicates) ++ [')'])

def sqlAll : List Predicate → List Text
  | [] => []
  | predicate :: predicates => predicate.sql :: sqlAll predicates

end

theorem sqlAll_eq_map (predicates : List Predicate) : sqlAll predicates = predicates.map sql := by
  induction predicates with
  | nil => rfl
  | cons predicate predicates ih => simp [sqlAll, ih]

mutual

/-- The values of a predicate in the order of their placeholders. -/
def binds : Predicate → List Text
  | isIn _ values => values
  | notIn _ values => values
  | all predicates => bindsAll predicates

def bindsAll : List Predicate → List Text
  | [] => []
  | predicate :: predicates => predicate.binds ++ bindsAll predicates

end

theorem bindsAll_eq_flatMap (predicates : List Predicate) :
    bindsAll predicates = predicates.flatMap binds := by
  induction predicates with
  | nil => rfl
  | cons predicate predicates ih => simp [bindsAll, ih]

/-! ### Truth -/

mutual

def holds (row : Row) : Predicate → Bool
  | isIn column values =>
    match row.get? column with
    | some value => values.contains value
    | none => false
  | notIn column values =>
    match row.get? column with
    | some value => !values.contains value
    | none => false
  | all predicates => holdsAll row predicates

def holdsAll (row : Row) : List Predicate → Bool
  | [] => true
  | predicate :: predicates => predicate.holds row && holdsAll row predicates

end

theorem holdsAll_eq_all (row : Row) (predicates : List Predicate) :
    holdsAll row predicates = predicates.all (holds row) := by
  induction predicates with
  | nil => rfl
  | cons predicate predicates ih => simp [holdsAll, ih]

end Predicate

end FilterAlgebra
