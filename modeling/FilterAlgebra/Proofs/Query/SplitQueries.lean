import FilterAlgebra.Proofs.Filter.KeptFilters
import FilterAlgebra.Proofs.Query.Compiled

/-!
# Split queries

The query parts of a list and the one expression for its normal form are made of the same
statements, one for each type. Parts are put together from those of some types (`partsOf`), so a
part is the expression for the filters of these types (`compileExpression_type`): all types of free
text for the main query, and a single type for each filter query. A failure is that of the first
type that fails, in either form.
-/

namespace FilterAlgebra

variable {scope : Namespace} {settings : Settings}

/-- The normal form of the filters that the search engine answers. -/
def engineFilters (filters : List Filter) : List Filter :=
  aggregate (filters.filter fun f => f.type ≠ .wikidataId)

theorem engineFilters_eq (filters : List Filter) :
    engineFilters filters = aggregate (splitRelational filters).1 := by
  simp [engineFilters, splitRelational, Filter.isRelational]

/-- The expression for the filters of one type is its statement, without a group around it. -/
theorem compileExpression_type {filters : List Filter} {group : FilterType × List Filter}
    (hgroup : group ∈ groupByType filters) :
    compileExpression (filters.filter fun f => f.type = group.1) scope settings =
      (statementOf scope settings group).map (Statement.render settings.universalQuery) := by
  have hmembers := members_of_mem_groupBy hgroup
  have hsingle : groupByType (filters.filter fun f => f.type = group.1) = [group] := by
    rw [← hmembers]
    exact groupBy_of_forall_eq (ne_nil_of_mem_groupBy hgroup) fun f hf =>
      (mem_of_mem_groupBy hgroup hf).2
  rw [compileExpression_eq, hsingle, mapM_cons_eq]
  cases statementOf scope settings group <;> rfl

/-! ### Statements with their types -/

/-- The statement of a group of filters, beside the type. -/
def typedStatementOf (scope : Namespace) (settings : Settings)
    (group : FilterType × List Filter) : Except Failure (FilterType × Statement) :=
  (statementOf scope settings group).map (Prod.mk group.1)

theorem typedStatementOf_eq_ok_iff {group : FilterType × List Filter} {s : FilterType × Statement} :
    typedStatementOf scope settings group = .ok s ↔
      statementOf scope settings group = .ok s.2 ∧ s.1 = group.1 := by
  rw [typedStatementOf]
  cases hgroup : statementOf scope settings group with
  | error e => simp [Except.map]
  | ok statement =>
    simp only [Except.map, Except.ok.injEq]
    constructor
    · rintro rfl
      exact ⟨rfl, rfl⟩
    · rintro ⟨rfl, hkind⟩
      rw [← hkind]

theorem compileQuery_eq (filters : List Filter) :
    compileQuery filters scope settings =
      ((groupByType (engineFilters filters)).mapM (typedStatementOf scope settings)).map
        fun statements =>
          { query := (Statement.conjunction
              ((statements.filter fun s => s.1.isText).map Prod.snd)).render settings.universalQuery
            filter := (statements.filter fun s => !s.1.isText).map fun s =>
              s.2.render settings.universalQuery } := by
  rw [compileQuery, engineFilters_eq]
  have htyped : ∀ group : FilterType × List Filter,
      (do
        let statement ← groupStatement group.1 group.2 scope settings
        return (group.1, statement) : Except Failure (FilterType × Statement)) =
      typedStatementOf scope settings group := by
    intro group
    rw [typedStatementOf, statementOf]
    cases groupStatement group.1 group.2 scope settings <;> rfl
  simp only [htyped]
  cases (groupByType (aggregate (splitRelational filters).1)).mapM
    (typedStatementOf scope settings) <;> rfl

section Parts

variable {groups : List (FilterType × List Filter)} {statements : List (FilterType × Statement)}
  (hstatements : groups.mapM (typedStatementOf scope settings) = .ok statements)

include hstatements

theorem typedStatements_filter (p : FilterType → Bool) :
    (groups.filter fun group => p group.1).mapM (typedStatementOf scope settings) =
      .ok (statements.filter fun s => p s.1) := by
  apply mapM_filter hstatements
  intro group _ s hs
  rw [(typedStatementOf_eq_ok_iff.mp hs).2]

theorem statements_eq : groups.mapM (statementOf scope settings) = .ok (statements.map Prod.snd) :=
  mapM_map hstatements fun _ _ _ hs => (typedStatementOf_eq_ok_iff.mp hs).1

end Parts

/-! ### Parts and expressions agree -/

section Agreement

variable {filters : List Filter} {statements : List (FilterType × Statement)}
  (hstatements : (groupByType filters).mapM (typedStatementOf scope settings) = .ok statements)

include hstatements

theorem mainQuery_eq :
    compileExpression (filters.filter fun f => f.type.isText) scope settings =
      .ok ((Statement.conjunction ((statements.filter fun s => s.1.isText).map Prod.snd)).render
        settings.universalQuery) := by
  have hgroups : groupByType (filters.filter fun f => f.type.isText) =
      (groupByType filters).filter fun group => group.1.isText :=
    groupBy_filter Filter.type FilterType.isText filters
  rw [compileExpression_eq, hgroups,
    statements_eq (typedStatements_filter hstatements FilterType.isText)]
  rfl

theorem filterQueries_eq :
    (((filters.map Filter.type).eraseDups.filter fun kind => !kind.isText).mapM fun kind =>
      compileExpression (filters.filter fun f => f.type = kind) scope settings) =
      .ok ((statements.filter fun s => !s.1.isText).map fun s =>
        s.2.render settings.universalQuery) := by
  have hothers := typedStatements_filter hstatements fun kind => !kind.isText
  have hkinds : (filters.map Filter.type).eraseDups.filter (fun kind => !kind.isText) =
      ((groupByType filters).filter fun group => !group.1.isText).map Prod.fst := by
    rw [← groupBy_fst, List.filter_map]
    rfl
  rw [hkinds, List.mapM_map]
  apply mapM_map hothers
  intro group hgroup s hs
  have hmem := (List.mem_filter.mp hgroup).1
  change compileExpression (filters.filter fun f => f.type = group.1) scope settings = _
  rw [compileExpression_type hmem, (typedStatementOf_eq_ok_iff.mp hs).1]
  rfl

end Agreement

/-- **Split queries.** A list has no query parts exactly when its normal form has no expression, and
then for the same reason. Otherwise each part is the expression for some of the types: the main
query for those of free text, and one filter query for each other type, in the order in which the
types are first seen. -/
theorem compileQuery_agrees (filters : List Filter) (scope : Namespace) (settings : Settings) :
    (∀ failure, compileQuery filters scope settings = .error failure ↔
      compileExpression (engineFilters filters) scope settings = .error failure) ∧
    ∀ parts, compileQuery filters scope settings = .ok parts →
      ((((engineFilters filters).map Filter.type).eraseDups.filter fun kind => !kind.isText).mapM
        fun kind => compileExpression ((engineFilters filters).filter fun f => f.type = kind)
          scope settings) = .ok parts.filter ∧
      compileExpression ((engineFilters filters).filter fun f => f.type.isText) scope settings =
        .ok parts.query ∧
      ((∀ f ∈ engineFilters filters, f.type.isText = false) →
        parts.query = settings.universalQuery) := by
  constructor
  · -- both forms take the same statements in the same order
    intro failure
    rw [compileQuery_eq, compileExpression_eq, map_eq_error_iff, map_eq_error_iff]
    refine mapM_eq_error_congr (fun group _ e => ?_) failure
    rw [typedStatementOf, map_eq_error_iff]
  · intro parts hparts
    rw [compileQuery_eq] at hparts
    cases hstatements : (groupByType (engineFilters filters)).mapM
        (typedStatementOf scope settings) with
    | error e =>
      rw [hstatements] at hparts
      cases hparts
    | ok statements =>
      rw [hstatements] at hparts
      cases hparts
      have hquery := mainQuery_eq hstatements
      refine ⟨filterQueries_eq hstatements, hquery, fun hnone => ?_⟩
      -- no free text, and the expression for no filters is the universal token
      have hnil : (engineFilters filters).filter (fun f => f.type.isText) = [] := by
        rw [List.filter_eq_nil_iff]
        intro f hf
        simp [hnone f hf]
      rw [hnil] at hquery
      exact (Except.ok.inj hquery).symm

/-! ### The statements of the kept types -/

/-- The parts that are made of statements, each given beside its type. -/
def partsOf (settings : Settings) (statements : List (FilterType × Statement)) : QueryParts where
  query := (Statement.conjunction ((statements.filter fun s => s.1.isText).map Prod.snd)).render
    settings.universalQuery
  filter := (statements.filter fun s => !s.1.isText).map fun s =>
    s.2.render settings.universalQuery

/-- The statement of the kept filters of a type, beside the type. -/
def keptStatementOf (scope : Namespace) (settings : Settings) (filters : List Filter)
    (kind : FilterType) : Except Failure (FilterType × Statement) :=
  typedStatementOf scope settings (kind, mergeGroup kind (keptOf kind filters))

theorem compileQuery_eq_kept (filters : List Filter) :
    compileQuery filters scope settings =
      ((keptTypes filters).mapM (keptStatementOf scope settings filters)).map
        (partsOf settings) := by
  rw [compileQuery_eq, engineFilters, groupByType_aggregate, List.mapM_map]
  rfl

end FilterAlgebra
