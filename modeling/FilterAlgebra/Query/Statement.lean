import FilterAlgebra.Filter.Basic
import FilterAlgebra.Query.FreeText

/-!
# Statements

A boolean statement over clauses, as a tree, and its text in the query language. A group of one is
written bare and an empty group matches everything; parentheses stand around several members only.
-/

namespace FilterAlgebra

inductive Statement where
  /-- A clause in the query language. -/
  | clause (text : Text)
  /-- What everything satisfies. -/
  | all
  /-- Members joined by an operator, or the negation of that. -/
  | group (op : Op) (negated : Bool) (members : List Statement)

namespace Statement

/-- The texts of the members of a group, joined. -/
def joinMembers (universal : Text) (op : Op) : List Text → Text
  | [] => universal
  | [member] => member
  | members => parenthesized (' ' :: op.name ++ [' ']) members

/-- A negation in front of a text. -/
def negatedText (negated : Bool) (s : Text) : Text := if negated then "NOT " ++ s else s

mutual

/-- The text of a statement, where `universal` is what matches everything. -/
def render (universal : Text) : Statement → Text
  | clause text => text
  | all => universal
  | group op negated members =>
    negatedText negated (joinMembers universal op (renderAll universal members))

def renderAll (universal : Text) : List Statement → List Text
  | [] => []
  | member :: members => member.render universal :: renderAll universal members

end

theorem renderAll_eq_map (universal : Text) (members : List Statement) :
    renderAll universal members = members.map (render universal) := by
  induction members with
  | nil => rfl
  | cons member members ih => simp [renderAll, ih]

/-- The statement that all of several statements hold. -/
def conjunction (members : List Statement) : Statement := .group .and false members

end Statement

end FilterAlgebra
