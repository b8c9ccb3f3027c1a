import FilterAlgebra.Query.Field
import FilterAlgebra.Query.Statement

/-!
# Building statements

A rule says how one value of a filter becomes a clause on one field. Building applies it to a list
of filters: the values of a filter are joined by its operator, a disjunction if it has none; each
value is tested in every field, one of which has to match; excluded filters are negated; and all the
filters have to hold. The first failure ends the building and is wrapped with the name of the rule.
-/

namespace FilterAlgebra

/-- How the values of filters become clauses. -/
structure Rule where
  name : Text
  /-- The query form of one value of a filter. -/
  shape : Filter → Text → Except FilterError Text
  /-- The clause that tests a shaped value in a field. -/
  clause : Text → Text → Except FilterError Text := fun field value => .ok (field ++ ':' :: value)
  /-- The name of a field in the search engine. -/
  field : Text → Text := id

namespace Rule

/-- The statement that one of the fields has a value. -/
def valueStatement (rule : Rule) (fields : List Text) (f : Filter) (value : Text) :
    Except FilterError Statement := do
  let shaped ← rule.shape f value
  let clauses ← fields.mapM fun field => rule.clause (rule.field field) shaped
  return .group .or false (clauses.map .clause)

def filterStatement (rule : Rule) (fields : List Text) (f : Filter) :
    Except FilterError Statement :=
  match f.values with
  | [] => .ok (.group .or f.isExcluded [.all])
  | values => do
    let members ← values.mapM (rule.valueStatement fields f)
    return .group (f.op.getD .or) f.isExcluded members

/-- The statement that all the filters hold. A stem that was never expanded fails before anything
is built, and is not counted as a failure of the rule. -/
def build (rule : Rule) (fields : Fields) (filters : List Filter) : Except Failure Statement :=
  match fields.names rule.name with
  | .error error => .error { error }
  | .ok names =>
    match filters.mapM (rule.filterStatement names) with
    | .ok members => .ok (.conjunction members)
    | .error error => .error { error := error.inRule rule.name, counted := rule.name }

/-- The text of the statement that all the filters hold. -/
def expression (rule : Rule) (fields : Fields) (filters : List Filter) (universal : Text) :
    Except Failure Text :=
  (rule.build fields filters).map (Statement.render universal)

end Rule

end FilterAlgebra
