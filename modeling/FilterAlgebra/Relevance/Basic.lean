import FilterAlgebra.Number.Binary64

/-!
# Relevance

What makes a document relevant: weighted items, each of one kind. An item favours a range of years,
or the places, people, topics or text reuse clusters it names, each of those with a weight of its
own.
-/

namespace FilterAlgebra

structure WeightedId where
  id : Text
  weight : Binary64
  deriving DecidableEq, Repr

inductive RelevanceKind where
  | timeRange (startYear endYear : Option Int)
  | locations (entities : List WeightedId)
  | persons (entities : List WeightedId)
  | topics (topics : List WeightedId)
  | textReuseClusters (clusters : List WeightedId)
  deriving DecidableEq, Repr

structure RelevanceItem where
  kind : RelevanceKind
  weight : Binary64
  deriving DecidableEq, Repr

end FilterAlgebra
