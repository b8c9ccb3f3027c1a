import FilterAlgebra.Proofs.Query.SplitQueries

/-!
# Filters of different types do not interfere

The parts of a query are made of one statement for each type of the kept filters, and the statement
of a type is made of the filters of that type only. So two lists that keep the same filters of each
type have the same statements (`perm_statements`), whatever stands between these filters. Only the
order of the statements can differ: it is the order in which the types are first seen
(`statements_filter_eq`).
-/

namespace FilterAlgebra

/-- Two lists keep the same filters of each type, in the same order. -/
def AgreeByType (xs ys : List Filter) : Prop :=
  ∀ kind, kind ≠ .wikidataId → keptOf kind xs = keptOf kind ys

variable {scope : Namespace} {settings : Settings}

/-! ### Parts and statements -/

theorem exists_compileQuery_iff {filters : List Filter} :
    (∃ parts, compileQuery filters scope settings = .ok parts) ↔
      ∀ kind ∈ keptTypes filters, ∃ s, keptStatementOf scope settings filters kind = .ok s := by
  rw [compileQuery_eq_kept, ← exists_mapM_eq_ok_iff]
  cases (keptTypes filters).mapM (keptStatementOf scope settings filters) <;> simp [Except.map]

theorem exists_statements {filters : List Filter} {parts : QueryParts}
    (h : compileQuery filters scope settings = .ok parts) :
    ∃ statements, (keptTypes filters).mapM (keptStatementOf scope settings filters) =
      .ok statements ∧ parts = partsOf settings statements := by
  rw [compileQuery_eq_kept] at h
  cases hstatements : (keptTypes filters).mapM (keptStatementOf scope settings filters) with
  | error failure =>
    rw [hstatements] at h
    cases h
  | ok statements =>
    rw [hstatements] at h
    cases h
    exact ⟨statements, rfl, rfl⟩

theorem keptStatements_filter {filters : List Filter} {statements : List (FilterType × Statement)}
    (h : (keptTypes filters).mapM (keptStatementOf scope settings filters) = .ok statements)
    (p : FilterType → Bool) :
    ((keptTypes filters).filter p).mapM (keptStatementOf scope settings filters) =
      .ok (statements.filter fun s => p s.1) := by
  apply mapM_filter h
  intro kind _ s hs
  rw [(typedStatementOf_eq_ok_iff.mp hs).2]

/-! ### Lists that agree by type -/

section Agreement

variable {xs ys : List Filter} (hagree : AgreeByType xs ys)

include hagree

theorem keptOf_eq_of_agree (kind : FilterType) : keptOf kind xs = keptOf kind ys := by
  by_cases hkind : kind = .wikidataId
  · rw [hkind, keptOf_wikidataId, keptOf_wikidataId]
  · exact hagree kind hkind

theorem perm_keptTypes : (keptTypes xs).Perm (keptTypes ys) := by
  rw [List.perm_ext_iff_of_nodup (nodup_keptTypes xs) (nodup_keptTypes ys)]
  intro kind
  rw [mem_keptTypes_iff, mem_keptTypes_iff, keptOf_eq_of_agree hagree]

theorem keptStatementOf_eq_of_agree :
    keptStatementOf scope settings xs = keptStatementOf scope settings ys := by
  funext kind
  rw [keptStatementOf, keptStatementOf, keptOf_eq_of_agree hagree]

theorem exists_compileQuery_congr :
    (∃ parts, compileQuery xs scope settings = .ok parts) ↔
      ∃ parts, compileQuery ys scope settings = .ok parts := by
  rw [exists_compileQuery_iff, exists_compileQuery_iff, keptStatementOf_eq_of_agree hagree]
  exact forall_congr' fun kind => by rw [(perm_keptTypes hagree).mem_iff]

section Statements

variable {statements statements' : List (FilterType × Statement)}
  (h : (keptTypes xs).mapM (keptStatementOf scope settings xs) = .ok statements)
  (h' : (keptTypes ys).mapM (keptStatementOf scope settings ys) = .ok statements')

include h h'

theorem perm_statements : statements.Perm statements' := by
  rw [keptStatementOf_eq_of_agree hagree] at h
  exact perm_of_mapM (perm_keptTypes hagree) h h'

/-- Types in the same order have their statements in the same order. -/
theorem statements_filter_eq {p : FilterType → Bool}
    (horder : (keptTypes xs).filter p = (keptTypes ys).filter p) :
    (statements.filter fun s => p s.1) = statements'.filter fun s => p s.1 := by
  have hxs := keptStatements_filter h p
  have hys := keptStatements_filter h' p
  rw [horder, keptStatementOf_eq_of_agree hagree, hys] at hxs
  exact (Except.ok.inj hxs).symm

end Statements

end Agreement

theorem compileQuery_congr {xs ys : List Filter} (h : keptFilters xs = keptFilters ys) :
    compileQuery xs scope settings = compileQuery ys scope settings := by
  have htypes : keptTypes xs = keptTypes ys := by rw [keptTypes, keptTypes, h]
  have hagree : AgreeByType xs ys := fun kind _ => by rw [keptOf, keptOf, h]
  rw [compileQuery_eq_kept, compileQuery_eq_kept, htypes, keptStatementOf_eq_of_agree hagree]

/-- **Types do not interfere.** Lists that keep the same filters of each type have query parts
together. Their filter queries are the same up to order, and the same if the other types are first
seen in the same order; their main queries are the same if the types of free text are. Filters that
are not kept can stand anywhere. -/
theorem compileQuery_independent (scope : Namespace) (settings : Settings) :
    (∀ xs ys, AgreeByType xs ys →
      ((∃ parts, compileQuery xs scope settings = .ok parts) ↔
        ∃ parts, compileQuery ys scope settings = .ok parts) ∧
      ∀ parts parts', compileQuery xs scope settings = .ok parts →
        compileQuery ys scope settings = .ok parts' →
        parts.filter.Perm parts'.filter ∧
        (((keptTypes xs).filter fun kind => !kind.isText) =
          ((keptTypes ys).filter fun kind => !kind.isText) → parts.filter = parts'.filter) ∧
        ((keptTypes xs).filter FilterType.isText = (keptTypes ys).filter FilterType.isText →
          parts.query = parts'.query)) ∧
    (∀ xs ys, keptFilters xs = keptFilters ys →
      compileQuery xs scope settings = compileQuery ys scope settings) ∧
    ∀ before inserted after : List Filter,
      (∀ f ∈ inserted, f.type = .wikidataId ∨ (f.q = none ∧ f.type.isFlag = false)) →
        compileQuery (before ++ inserted ++ after) scope settings =
          compileQuery (before ++ after) scope settings := by
  refine ⟨?_, fun xs ys h => compileQuery_congr h, ?_⟩
  · intro xs ys hagree
    refine ⟨exists_compileQuery_congr hagree, fun parts parts' hparts hparts' => ?_⟩
    obtain ⟨statements, h, rfl⟩ := exists_statements hparts
    obtain ⟨statements', h', rfl⟩ := exists_statements hparts'
    refine ⟨?_, fun horder => ?_, fun horder => ?_⟩
    · -- the statements are the same, in another order perhaps
      exact ((perm_statements hagree h h').filter _).map _
    · -- and in the same order for types that are met in the same order
      simp only [partsOf]
      rw [statements_filter_eq hagree h h' horder]
    · simp only [partsOf]
      rw [statements_filter_eq hagree h h' horder]
  · intro before inserted after hinserted
    apply compileQuery_congr
    rw [keptFilters_append, keptFilters_append, keptFilters_append, keptFilters_eq_nil hinserted,
      List.append_nil]

/-! ### Two orders of the same filters -/

/-- Two newspapers, with a word and a language between them. -/
def newspapersFirst : List Filter :=
  [{ type := .newspaper, q := some (.one "GDL") }, { type := .string, q := some (.one "war") },
    { type := .language, q := some (.one "fr") }, { type := .newspaper, q := some (.one "JDG") }]

/-- The same filters with the language in front, and two that are not kept. -/
def languageFirst : List Filter :=
  [{ type := .wikidataId, q := some (.one "Q1") }, { type := .language, q := some (.one "fr") },
    { type := .newspaper, q := some (.one "GDL") }, { type := .topic },
    { type := .newspaper, q := some (.one "JDG") }, { type := .string, q := some (.one "war") }]

/-- The main query of both lists. -/
def warQuery : Text :=
  "(content_txt_en:war* OR content_txt_fr:war* OR content_txt_de:war* OR content_txt:war*)"

def newspaperQuery : Text := "(meta_journal_s:GDL AND meta_journal_s:JDG)"

theorem agreeByType_languageFirst : AgreeByType newspapersFirst languageFirst := by
  intro kind _
  cases kind <;> rfl

/-- The general statement at the two orders, which have the same filter queries in another order. -/
theorem compileQuery_independent_languageFirst :
    ∃ parts parts', compileQuery newspapersFirst .search {} = .ok parts ∧
      compileQuery languageFirst .search {} = .ok parts' ∧ parts.filter ≠ parts'.filter ∧
      parts.filter.Perm parts'.filter ∧ parts.query = parts'.query := by
  have hfirst : compileQuery newspapersFirst .search {} =
      .ok { query := warQuery, filter := [newspaperQuery, "lg_s:fr"] } := by decide +kernel
  have hsecond : compileQuery languageFirst .search {} =
      .ok { query := warQuery, filter := ["lg_s:fr", newspaperQuery] } := by decide +kernel
  obtain ⟨-, hparts⟩ := (compileQuery_independent .search {}).1 newspapersFirst languageFirst
    agreeByType_languageFirst
  obtain ⟨hperm, -, hquery⟩ := hparts _ _ hfirst hsecond
  exact ⟨_, _, hfirst, hsecond, by decide, hperm, hquery (by decide)⟩

end FilterAlgebra
