import FilterAlgebra.Digest.Blake3
import FilterAlgebra.Filter.Json

/-!
# Cache keys

Compiled output is cached under a hash of the canonical text of its filters. Order matters, as it
does for the output.
-/

namespace FilterAlgebra

/-- The key under which the output for a list of filters is cached. -/
def cacheKey (filters : List Filter) : Text := Blake3.hash (Text.toBytes (canonicalText filters))

end FilterAlgebra
