import FilterAlgebra.Digest.CacheKey
import FilterAlgebra.Main
import FilterAlgebra.Proofs.Client.Numerals
import FilterAlgebra.Proofs.Client.ReadCalls
import FilterAlgebra.Proofs.CommandLine.RoundTrip
import FilterAlgebra.Proofs.Filter.CanonicalText
import FilterAlgebra.Proofs.Filter.Increments
import FilterAlgebra.Proofs.Filter.IntegerValues
import FilterAlgebra.Proofs.Filter.KeptFilters
import FilterAlgebra.Proofs.Filter.MaximalBlocks
import FilterAlgebra.Proofs.Filter.Normalization
import FilterAlgebra.Proofs.Json.Spelling
import FilterAlgebra.Proofs.Query.Escapes
import FilterAlgebra.Proofs.Query.Failures
import FilterAlgebra.Proofs.Query.Independence
import FilterAlgebra.Proofs.Query.ListedValues
import FilterAlgebra.Proofs.Query.RequestSteps
import FilterAlgebra.Proofs.Query.ShapedText
import FilterAlgebra.Proofs.Query.SplitQueries
import FilterAlgebra.Proofs.Query.SurroundingBlanks
import FilterAlgebra.Proofs.Query.TermQueries
import FilterAlgebra.Proofs.Query.TermStructure
import FilterAlgebra.Proofs.Query.TextQueries
import FilterAlgebra.Proofs.Query.UnreadFields
import FilterAlgebra.Proofs.Query.ValuelessFilters
import FilterAlgebra.Proofs.Range.DateRanges
import FilterAlgebra.Proofs.Range.IntegerRanges
import FilterAlgebra.Proofs.Relational.Agreement
import FilterAlgebra.Proofs.Relational.SelectedRows
import FilterAlgebra.Proofs.Relevance.Grammar
import FilterAlgebra.Proofs.Relevance.QuotedArguments
import FilterAlgebra.Proofs.Relevance.Regions
import FilterAlgebra.Proofs.Relevance.Structure
import FilterAlgebra.Proofs.Tally.CountedFailures
import FilterAlgebra.Proofs.Tally.RuleFailures
import FilterAlgebra.Proofs.Wire.Base64
import FilterAlgebra.Proofs.Wire.Cbor
import FilterAlgebra.Proofs.Wire.Filters
import FilterAlgebra.Proofs.Wire.RoundTrip
