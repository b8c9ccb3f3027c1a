import FilterAlgebra.Filter.Basic
import FilterAlgebra.Relational.Predicate

/-!
# Conditions of filters

The condition that filters of one type put on a column: each filter with values asks for one of
them, or for none of them where it is excluded. Filters of other types and filters without values
ask for nothing.
-/

namespace FilterAlgebra

/-- The column that answers filters of the type `wikidataId`. -/
def wikidataColumn : Text := "wikidata_id"

/-- What a filter asks of a column, if it has values. -/
def Filter.predicate? (column : Text) (f : Filter) : Option Predicate :=
  match f.values with
  | [] => none
  | values => some (if f.isExcluded then .notIn column values else .isIn column values)

/-- What the filters of a type ask of a column. -/
def exactMatch? (filters : List Filter) (kind : FilterType) (column : Text) : Option Predicate :=
  Predicate.allOf? ((filters.filter fun f => f.type = kind).filterMap (Filter.predicate? column))

/-- What the filters for the relational store ask. -/
def relationalCondition? (filters : List Filter) : Option Predicate :=
  exactMatch? filters .wikidataId wikidataColumn

end FilterAlgebra
