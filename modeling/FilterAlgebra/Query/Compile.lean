import FilterAlgebra.Filter.Aggregate
import FilterAlgebra.Query.Build
import FilterAlgebra.Query.Descriptor
import FilterAlgebra.Range.Date
import FilterAlgebra.Range.Numeric
import FilterAlgebra.Settings.Basic

/-!
# Compiling for the search engine

Filters are grouped by type and each group becomes one statement under the rule of its type. From
the statements comes either one expression, or a main query of the free text together with one
filter query for each other type. The second form puts the filters into their normal form first and
leaves out those that are answered by the relational store.
-/

namespace FilterAlgebra

/-! ### Rules of types -/

def textRule (name : Text) : Rule :=
  { name, shape := fun f value => .ok (freeText f.precision value) }

def termRule (name : Text) : Rule := { name, shape := fun _ value => .ok (escapeTerm value) }

def dateRangeRule (name : Text) : Rule := { name, shape := fun _ value => dateRangeValue value }

def numericRangeRule (name : Text) : Rule :=
  { name, shape := fun _ value => numericRangeValue value }

/-- The rule of flags, whose field is the clause. -/
def flagRule (name : Text) : Rule :=
  { name, shape := fun _ _ => .ok [], clause := fun clause _ => .ok clause }

/-- A flag filter with a value, whatever its own values were. -/
def raised (f : Filter) : Filter := { f with q := some (.one "true") }

/-- The statement of filters that all have the given type. -/
def groupStatement (kind : FilterType) (filters : List Filter) (scope : Namespace)
    (settings : Settings) : Except Failure Statement :=
  match Descriptor.of? scope kind with
  | none => .error { error := .unsupportedType kind.name scope.name }
  | some descriptor =>
    let fields := descriptor.fields.expand settings.languages
    match descriptor.kind with
    | .text => (textRule kind.name).build fields filters
    | .term => (termRule kind.name).build fields filters
    | .dateRange => (dateRangeRule kind.name).build fields filters
    | .flag => (flagRule kind.name).build fields (filters.map raised)
    | .numericRange =>
      match filters.mapM joinBounds with
      | .ok filters => (numericRangeRule kind.name).build fields filters
      | .error error => .error { error := error.inRule kind.name }

/-! ### One expression -/

/-- One expression for a list of filters as it is; an empty list matches everything. -/
def compileExpression (filters : List Filter) (scope : Namespace) (settings : Settings) :
    Except Failure Text := do
  let statements ← (groupByType filters).mapM fun (kind, members) =>
    groupStatement kind members scope settings
  return (Statement.conjunction statements).render settings.universalQuery

/-! ### Query and filter queries -/

/-- A main query and the filter queries beside it. -/
structure QueryParts where
  query : Text
  filter : List Text
  deriving DecidableEq, Repr

/-- Whether a filter is answered by the relational store. -/
def Filter.isRelational (f : Filter) : Bool := f.type = .wikidataId

/-- The filters for the search engine and those for the relational store, both in order. -/
def splitRelational (filters : List Filter) : List Filter × List Filter :=
  (filters.filter fun f => !f.isRelational, filters.filter Filter.isRelational)

/-- The main query and the filter queries of a list of filters: free text goes into the main query,
and each other type has a filter query of its own, in the order in which types are first seen. -/
def compileQuery (filters : List Filter) (scope : Namespace) (settings : Settings) :
    Except Failure QueryParts := do
  let groups := groupByType (aggregate (splitRelational filters).1)
  let statements ← groups.mapM fun (kind, members) => do
    let statement ← groupStatement kind members scope settings
    return (kind, statement)
  let texts := statements.filter fun (kind, _) => kind.isText
  let others := statements.filter fun (kind, _) => !kind.isText
  return {
    query := (Statement.conjunction (texts.map Prod.snd)).render settings.universalQuery
    filter := others.map fun (_, statement) => statement.render settings.universalQuery }

end FilterAlgebra
