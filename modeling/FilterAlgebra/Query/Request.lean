import FilterAlgebra.Query.Compile
import FilterAlgebra.Relevance.Formula
import FilterAlgebra.Text.Table

/-!
# Search requests

The document that is sent to the search engine: a main query with filter queries, a page of the
results, an order, and parameters by name. Each step of a request touches its own part only.
-/

namespace FilterAlgebra

structure SearchRequest where
  query : Text
  filter : List Text
  limit : Nat
  offset : Nat
  sort : Option Text := none
  params : Table Text := {}
  deriving DecidableEq, Repr

namespace SearchRequest

/-- The request for the first ten documents. -/
def ofParts (parts : QueryParts) : SearchRequest :=
  { query := parts.query, filter := parts.filter, limit := 10, offset := 0 }

def withPage (limit offset : Nat) (r : SearchRequest) : SearchRequest := { r with limit, offset }

/-- The request for an order of the documents. -/
def withSort (sort : Text) (r : SearchRequest) : SearchRequest := { r with sort := some sort }

/-- The parameter by which the engine ranks its best thousand documents anew. -/
def rerankParameter : Text :=
  "\x7b!rerank reRankQuery=$rqq reRankDocs=1000 reRankWeight=1\x7d"

/-- The request for a ranking by relevance items; no items leave it as it is. -/
def withRelevance (items : List RelevanceItem) (r : SearchRequest) : SearchRequest :=
  match combinedFormula? items with
  | none => r
  | some formula =>
    { r with params := (r.params.put "rq" rerankParameter).put "rqq" ("\x7b!func\x7d" ++ formula) }

end SearchRequest

end FilterAlgebra
