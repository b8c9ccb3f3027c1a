import FilterAlgebra.Relational.Condition

/-!
# The rows that a condition selects

A condition on a column is made of the filters of one type that have values (`AsksFor`). There is no
condition when there is no such filter. Otherwise a row is selected when it has the column and every
such filter accepts what is stored there (`Accepts`): an included filter accepts its values, an
excluded one anything else. So only the set of these filters counts: not their order, not how often
one is given, and not what else is in the list.
-/

namespace FilterAlgebra

namespace Filter

/-- Whether a filter has a say in the condition of a type: it is of the type, and has values. -/
def AsksFor (kind : FilterType) (f : Filter) : Prop := f.type = kind ∧ f.values ≠ []

/-- Whether what is stored in a column is what a filter describes. -/
def Accepts (f : Filter) (stored : Text) : Prop :=
  match f.context with
  | .included => stored ∈ f.values
  | .excluded => stored ∉ f.values

/-! ### The test of one filter -/

theorem predicate?_eq_none_iff {f : Filter} (column : Text) :
    f.predicate? column = none ↔ f.values = [] := by
  unfold predicate?
  split
  · next hvalues => simp [hvalues]
  · next hvalues => simpa using hvalues

theorem predicate?_eq_some {f : Filter} {column : Text} {p : Predicate}
    (h : f.predicate? column = some p) :
    p = match f.context with
      | .included => .isIn column f.values
      | .excluded => .notIn column f.values := by
  unfold predicate? at h
  split at h
  · cases h
  · cases h
    cases hcontext : f.context <;> simp [isExcluded, hcontext]

/-- The test of a filter needs the column, and passes what the filter accepts. -/
theorem holds_of_predicate? {f : Filter} {column : Text} {p : Predicate}
    (h : f.predicate? column = some p) (row : Row) :
    p.holds row = true ↔ ∃ stored, row.get? column = some stored ∧ f.Accepts stored := by
  rw [predicate?_eq_some h]
  cases hcontext : f.context with
  | included =>
    cases hstored : row.get? column with
    | none => simp [Predicate.holds, hstored]
    | some stored => simp [Predicate.holds, Accepts, hstored, hcontext]
  | excluded =>
    cases hstored : row.get? column with
    | none => simp [Predicate.holds, hstored]
    | some stored => simp [Predicate.holds, Accepts, hstored, hcontext]

end Filter

/-! ### Several tests -/

namespace Predicate

theorem allOf?_eq_none_iff (predicates : List Predicate) :
    allOf? predicates = none ↔ predicates = [] := by
  rcases predicates with - | ⟨first, - | ⟨second, rest⟩⟩ <;> simp [allOf?]

/-- With the wrapper or without it, several tests hold together. -/
theorem holds_of_allOf? {predicates : List Predicate} {p : Predicate}
    (h : allOf? predicates = some p) (row : Row) :
    p.holds row = true ↔ ∀ q ∈ predicates, q.holds row = true := by
  rcases predicates with - | ⟨first, - | ⟨second, rest⟩⟩
  · cases h
  · cases h
    simp
  · cases h
    rw [holds, holdsAll_eq_all, List.all_eq_true]

end Predicate

/-! ### The condition of a type -/

section Condition

variable {filters : List Filter} {kind : FilterType} {column : Text}

/-- The tests in a condition are those of the filters that have a say in it. -/
theorem mem_predicates_iff {p : Predicate} :
    p ∈ (filters.filter fun f => f.type = kind).filterMap (Filter.predicate? column) ↔
      ∃ f ∈ filters, f.AsksFor kind ∧ f.predicate? column = some p := by
  rw [List.mem_filterMap]
  constructor
  · rintro ⟨f, hf, hp⟩
    obtain ⟨hmem, htype⟩ := List.mem_filter.mp hf
    have hvalues : f.values ≠ [] := by
      rw [Ne, ← Filter.predicate?_eq_none_iff column, hp]
      exact Option.some_ne_none p
    exact ⟨f, hmem, ⟨of_decide_eq_true htype, hvalues⟩, hp⟩
  · rintro ⟨f, hmem, ⟨htype, -⟩, hp⟩
    exact ⟨f, List.mem_filter.mpr ⟨hmem, decide_eq_true htype⟩, hp⟩

theorem exists_predicate_of_asksFor {f : Filter} (h : f.AsksFor kind) (column : Text) :
    ∃ p, f.predicate? column = some p := by
  rw [← Option.isSome_iff_exists, Option.isSome_iff_ne_none, Ne, Filter.predicate?_eq_none_iff]
  exact h.2

theorem exactMatch?_eq_none_iff :
    exactMatch? filters kind column = none ↔ ∀ f ∈ filters, ¬f.AsksFor kind := by
  rw [exactMatch?, Predicate.allOf?_eq_none_iff, List.eq_nil_iff_forall_not_mem]
  constructor
  · intro h f hf hasks
    obtain ⟨p, hp⟩ := exists_predicate_of_asksFor hasks column
    exact h p (mem_predicates_iff.mpr ⟨f, hf, hasks, hp⟩)
  · intro h p hp
    obtain ⟨f, hf, hasks, -⟩ := mem_predicates_iff.mp hp
    exact h f hf hasks

/-- Where there is a condition, some filter has a say in it. -/
theorem exists_asksFor {p : Predicate} (h : exactMatch? filters kind column = some p) :
    ∃ f ∈ filters, f.AsksFor kind := by
  apply Classical.byContradiction
  intro hnobody
  have hnone : exactMatch? filters kind column = none :=
    exactMatch?_eq_none_iff.mpr fun f hf hasks => hnobody ⟨f, hf, hasks⟩
  rw [h] at hnone
  cases hnone

theorem holds_of_exactMatch? {p : Predicate} (h : exactMatch? filters kind column = some p)
    (row : Row) :
    p.holds row = true ↔
      ∃ stored, row.get? column = some stored ∧
        ∀ f ∈ filters, f.AsksFor kind → f.Accepts stored := by
  rw [Predicate.holds_of_allOf? h row]
  constructor
  · intro hall
    have hfilters : ∀ f ∈ filters, f.AsksFor kind →
        ∃ stored, row.get? column = some stored ∧ f.Accepts stored := by
      intro f hf hasks
      obtain ⟨q, hq⟩ := exists_predicate_of_asksFor hasks column
      rw [← Filter.holds_of_predicate? hq row]
      exact hall q (mem_predicates_iff.mpr ⟨f, hf, hasks, hq⟩)
    obtain ⟨first, hfirst, hasks⟩ := exists_asksFor h
    obtain ⟨stored, hstored, -⟩ := hfilters first hfirst hasks
    refine ⟨stored, hstored, ?_⟩
    intro f hf hasks
    obtain ⟨other, hother, haccepts⟩ := hfilters f hf hasks
    rw [hstored] at hother
    cases hother
    exact haccepts
  · rintro ⟨stored, hstored, haccepts⟩ q hq
    obtain ⟨f, hf, hasks, hfq⟩ := mem_predicates_iff.mp hq
    rw [Filter.holds_of_predicate? hfq row]
    exact ⟨stored, hstored, haccepts f hf hasks⟩

end Condition

/-! ### What does not count -/

/-- Whether two lists have the same filters with a say in the condition of a type, in any order and
any number of times, among whatever other filters. -/
def AskTheSame (kind : FilterType) (filters others : List Filter) : Prop :=
  ∀ f : Filter, f.AsksFor kind → (f ∈ others ↔ f ∈ filters)

section Same

variable {filters others : List Filter} {kind : FilterType} (h : AskTheSame kind filters others)

include h

theorem forall_asksFor_congr (P : Filter → Prop) :
    (∀ f ∈ others, f.AsksFor kind → P f) ↔ ∀ f ∈ filters, f.AsksFor kind → P f := by
  constructor
  · intro hothers f hf hasks
    exact hothers f ((h f hasks).mpr hf) hasks
  · intro hfilters f hf hasks
    exact hfilters f ((h f hasks).mp hf) hasks

theorem selected_congr (column : Text) (row : Row) :
    (exactMatch? others kind column).map (Predicate.holds row) =
      (exactMatch? filters kind column).map (Predicate.holds row) := by
  have hnone : exactMatch? others kind column = none ↔ exactMatch? filters kind column = none := by
    rw [exactMatch?_eq_none_iff, exactMatch?_eq_none_iff]
    exact forall_asksFor_congr h fun _ => False
  cases hfilters : exactMatch? filters kind column with
  | none => rw [hnone.mpr hfilters]
  | some p =>
    cases hothers : exactMatch? others kind column with
    | none =>
      rw [hnone.mp hothers] at hfilters
      cases hfilters
    | some q =>
      rw [Option.map_some, Option.map_some, Option.some.injEq, Bool.eq_iff_iff,
        holds_of_exactMatch? hothers, holds_of_exactMatch? hfilters]
      simp only [forall_asksFor_congr h]

end Same

/-- **Selected rows.** There is no condition exactly when no filter of the type has values.
Otherwise it selects the rows that have the column and in it something that each of these filters
accepts. Other filters in the list, the order of these and repetitions make no difference. -/
theorem exactMatch?_selects (filters : List Filter) (kind : FilterType) (column : Text) :
    (exactMatch? filters kind column = none ↔ ∀ f ∈ filters, ¬f.AsksFor kind) ∧
    (∀ p, exactMatch? filters kind column = some p → ∀ row, p.holds row = true ↔
      ∃ stored, row.get? column = some stored ∧
        ∀ f ∈ filters, f.AsksFor kind → f.Accepts stored) ∧
    ∀ others, AskTheSame kind filters others → ∀ row,
      (exactMatch? others kind column).map (Predicate.holds row) =
        (exactMatch? filters kind column).map (Predicate.holds row) :=
  ⟨exactMatch?_eq_none_iff, fun _ h row => holds_of_exactMatch? h row,
    fun _ h row => selected_congr h column row⟩

/-- Two entities are wanted, one of which is not wanted after all. -/
def wantedEntities : List Filter :=
  [{ type := .wikidataId, q := some (.many ["Q42", "Q1"]) },
    { type := .wikidataId, context := .excluded, q := some (.one "Q1") }]

/-- The same filters in another order, one of them twice, among others that do not count. -/
def wantedAgain : List Filter :=
  [{ type := .wikidataId, context := .excluded, q := some (.one "Q1") },
    { type := .newspaper, q := some (.one "Q1") },
    { type := .wikidataId, q := some (.many ["Q42", "Q1"]) },
    { type := .wikidataId, q := some (.many [" ", ""]) },
    { type := .wikidataId, context := .excluded, q := some (.one "Q1") }]

theorem askTheSame_wantedAgain : AskTheSame .wikidataId wantedEntities wantedAgain := by
  rintro f ⟨hkind, hvalues⟩
  have hnewspaper : f ≠ { type := .newspaper, q := some (.one "Q1") } := by
    rintro rfl
    cases hkind
  have hblank : f ≠ { type := .wikidataId, q := some (.many [" ", ""]) } := by
    rintro rfl
    exact hvalues (by decide)
  simp only [wantedAgain, wantedEntities, List.mem_cons, List.not_mem_nil, or_false, hnewspaper,
    hblank, false_or]
  constructor
  · rintro (h | h | h)
    · exact .inr h
    · exact .inl h
    · exact .inr h
  · rintro (h | h)
    · exact .inr (.inl h)
    · exact .inl h

/-- A row with the second entity is selected by neither list, and one with the first by both. -/
theorem exactMatch?_selects_wantedAgain :
    ∃ p, exactMatch? wantedEntities .wikidataId wikidataColumn = some p ∧
      p.holds (Table.put wikidataColumn "Q42" {}) = true ∧
      p.holds (Table.put wikidataColumn "Q1" {}) = false ∧ p.holds {} = false ∧
      AskTheSame .wikidataId wantedEntities wantedAgain ∧
      ∀ row, (exactMatch? wantedAgain .wikidataId wikidataColumn).map (Predicate.holds row) =
        some (p.holds row) := by
  obtain ⟨-, hrows, hsame⟩ := exactMatch?_selects wantedEntities .wikidataId wikidataColumn
  refine ⟨_, rfl, ?_, by decide, by decide, askTheSame_wantedAgain,
    hsame wantedAgain askTheSame_wantedAgain⟩
  rw [hrows _ rfl]
  refine ⟨"Q42", by decide, ?_⟩
  simp only [wantedEntities, List.forall_mem_cons, List.not_mem_nil, false_imp_iff, implies_true,
    and_true]
  constructor
  · intro _
    change ("Q42" : Text) ∈ _
    decide
  · intro _
    change ("Q42" : Text) ∉ _
    decide

end FilterAlgebra
