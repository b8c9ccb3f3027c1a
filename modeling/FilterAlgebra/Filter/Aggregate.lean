import FilterAlgebra.Filter.Basic

/-!
# Aggregation

A list of filters is put into a normal form before it is compiled for the search engine. Filters of
one type are brought together, in the order in which the types are first seen; filters without
values are dropped, flags apart, because a flag needs none; and within a type, neighbours that share
their context and the operator they can be merged under become one filter with all their values.

Flags and numeric ranges are never merged: the two values of a range are one condition.
-/

namespace FilterAlgebra

/-! ### Grouping -/

/-- Adds an element to the group of its key, or to a new group at the end. -/
def addToGroup {κ α : Type} [DecidableEq κ] (key : κ) (x : α) :
    List (κ × List α) → List (κ × List α)
  | [] => [(key, [x])]
  | (k, members) :: groups =>
    if k = key then (k, members ++ [x]) :: groups else (k, members) :: addToGroup key x groups

/-- The elements of a list grouped by a key: groups in the order in which their keys are first seen,
members in the order of the list. -/
def groupBy {κ α : Type} [DecidableEq κ] (key : α → κ) (xs : List α) : List (κ × List α) :=
  xs.foldl (fun groups x => addToGroup (key x) x groups) []

def groupByType (filters : List Filter) : List (FilterType × List Filter) :=
  groupBy Filter.type filters

/-! ### Merging -/

namespace Filter

/-- Whether a filter takes part at all: it has values, or needs none. -/
def isKept (f : Filter) : Bool := f.q.isSome || f.type.isFlag

/-- The operator a filter can be merged under. Separate filters hold together, so a filter with at
most one value merges as a conjunction; a longer list without an operator is a disjunction of its
own values, which no merged list can express. -/
def mergeOp (f : Filter) : Option Op :=
  match f.op with
  | some op => some op
  | none => if f.valueCount ≤ 1 then some .and else none

/-- Whether two neighbours of one type can be merged. -/
def isMergeable (f g : Filter) : Bool :=
  f.mergeOp.isSome && f.mergeOp = g.mergeOp && f.context = g.context

/-- The first filter with the values of both, under the operator it merges under. -/
def merge (f g : Filter) : Filter :=
  { f with op := f.mergeOp, q := some (.many (f.rawValues ++ g.rawValues)) }

end Filter

/-- Merges filters from left to right, where `run` is what has been merged last. -/
def mergeRuns (run : Filter) : List Filter → List Filter
  | [] => [run]
  | f :: rest =>
    if run.isMergeable f then mergeRuns (run.merge f) rest else run :: mergeRuns f rest

/-- The normal form of the filters of one type. -/
def mergeGroup (kind : FilterType) (members : List Filter) : List Filter :=
  if kind.isFlag || kind.isNumericRange then members
  else match members with
    | [] => []
    | first :: rest => mergeRuns first rest

/-- The normal form of a list of filters. -/
def aggregate (filters : List Filter) : List Filter :=
  (groupByType (filters.filter Filter.isKept)).flatMap fun (kind, members) =>
    mergeGroup kind members

end FilterAlgebra
