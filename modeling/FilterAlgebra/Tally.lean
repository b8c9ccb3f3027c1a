import FilterAlgebra.Client.Call
import FilterAlgebra.Query.Request
import FilterAlgebra.Relational.Condition

/-!
# Tallies

How often filters were compiled for each target, and how often each rule failed. A counted
computation passes a tally on; compiling for a target counts whether it succeeds or not, except that
compiling to one expression counts no compilation. Failures count as the failure itself asks for.
-/

namespace FilterAlgebra

inductive Target where
  | engine
  | relevance
  | client
  | relational
  deriving DecidableEq, Repr

namespace Target

def all : List Target := [engine, relevance, client, relational]

def name : Target → Text
  | engine => "solr"
  | relevance => "relevance"
  | client => "python"
  | relational => "relational"

end Target

/-- Counts of compilations by target and of failures by rule. -/
structure Tally where
  compilations : Target → Nat := fun _ => 0
  failures : Text → Nat := fun _ => 0

namespace Tally

def addCompilation (target : Target) (t : Tally) : Tally :=
  { t with compilations := fun other => t.compilations other + if other = target then 1 else 0 }

/-- The tally after a failure of a rule. -/
def addFailure (rule : Text) (t : Tally) : Tally :=
  { t with failures := fun other => t.failures other + if other = rule then 1 else 0 }

/-- The tally after a result of a compilation. -/
def addResult {α : Type} (result : Except Failure α) (t : Tally) : Tally :=
  match result with
  | .error { counted := some rule, .. } => t.addFailure rule
  | _ => t

end Tally

abbrev Counted (α : Type) := StateM Tally α

namespace Counted

def compilation (target : Target) : Counted Unit := modify (Tally.addCompilation target)

/-- Counts a result and forgets how it was counted. -/
def result {α : Type} (r : Except Failure α) : Counted (Except FilterError α) := do
  modify (Tally.addResult r)
  return r.mapError Failure.error

def ruleExpression (rule : Rule) (fields : Fields) (filters : List Filter) (universal : Text) :
    Counted (Except FilterError Text) :=
  result (rule.expression fields filters universal)

def expression (filters : List Filter) (scope : Namespace) (settings : Settings) :
    Counted (Except FilterError Text) :=
  result (compileExpression filters scope settings)

/-- Compiles to a main query and filter queries. -/
def query (filters : List Filter) (scope : Namespace) (settings : Settings) :
    Counted (Except FilterError QueryParts) := do
  compilation .engine
  result (compileQuery filters scope settings)

def formula (item : RelevanceItem) : Counted Text := do
  compilation .relevance
  return item.formulaText

/-- Compiles items to the sum of their formulas. -/
def combined (items : List RelevanceItem) : Counted (Option Text) := do
  items.forM fun _ => compilation .relevance
  return combinedFormula? items

/-- Adds a ranking by items to a request. -/
def withRelevance (items : List RelevanceItem) (r : SearchRequest) : Counted SearchRequest := do
  items.forM fun _ => compilation .relevance
  return r.withRelevance items

/-- Compiles to a call of the client library. -/
def call (resource function : Text) (filters : List Filter) : Counted Text := do
  compilation .client
  return compileCall resource function filters

/-- Compiles the filters of a type to a condition on a column. -/
def condition (filters : List Filter) (kind : FilterType) (column : Text) :
    Counted (Option Predicate) := do
  compilation .relational
  return exactMatch? filters kind column

end Counted

end FilterAlgebra
