import FilterAlgebra.Proofs.Collected
import FilterAlgebra.Tally

/-!
# Failures of a rule

A rule goes through the filters in order, through the values of a filter that count, and through the
fields in which a value is tested; a value is shaped before it is tested anywhere. The first thing
that goes wrong on this way ends the building. What a rule does with one value is up to the rule, so
nothing is assumed here about its shapes, clauses and fields.

Main statement: building succeeds exactly when every value passes; otherwise the error is the first
failure (`ListFails`), wrapped with the name of the rule unless it is within a rule already, and is
counted once under that name. A stem in the place of names fails before any filter is looked at.
-/

namespace FilterAlgebra

/-! ### The first failure in a list -/

/-- The first member of a list that does not pass fails with an error. -/
def FailsFirst {α ε : Type} (passes : α → Prop) (fails : α → ε → Prop) (xs : List α) (error : ε) :
    Prop :=
  ∃ before x after, xs = before ++ x :: after ∧ (∀ y ∈ before, passes y) ∧ fails x error

section Lists

variable {ε α β : Type} {f : α → Except ε β} {passes : α → Prop} {fails : α → ε → Prop}

theorem mapM_eq_error_iff (hpasses : ∀ x, (∃ y, f x = .ok y) ↔ passes x)
    (hfails : ∀ x error, f x = .error error ↔ fails x error) (xs : List α) (error : ε) :
    xs.mapM f = .error error ↔ FailsFirst passes fails xs error := by
  have hnone : ∀ x, failureOf? (f x) = none ↔ passes x := by
    intro x
    rw [← hpasses x]
    cases f x <;> simp [failureOf?]
  rw [← failureOf?_eq_some_iff, failureOf?_mapM, List.findSome?_eq_some_iff]
  constructor
  · rintro ⟨before, x, after, hxs, hx, hbefore⟩
    refine ⟨before, x, after, hxs, ?_, ?_⟩
    · intro y hy
      exact (hnone y).mp (hbefore y hy)
    · exact (hfails x error).mp (failureOf?_eq_some_iff.mp hx)
  · rintro ⟨before, x, after, hxs, hbefore, hx⟩
    refine ⟨before, x, after, hxs, ?_, ?_⟩
    · exact failureOf?_eq_some_iff.mpr ((hfails x error).mpr hx)
    · intro y hy
      exact (hnone y).mpr (hbefore y hy)

theorem exists_mapM_iff (hpasses : ∀ x, (∃ y, f x = .ok y) ↔ passes x) (xs : List α) :
    (∃ ys, xs.mapM f = .ok ys) ↔ ∀ x ∈ xs, passes x := by
  simp only [exists_mapM_eq_ok_iff, hpasses]

end Lists

/-! ### What passes a rule, and what does not -/

namespace Rule

variable (rule : Rule) (names : List Text)

/-- A shaped value can be tested in a field. -/
def Tests (shaped name : Text) : Prop := ∃ clause, rule.clause (rule.field name) shaped = .ok clause

/-- A value can be shaped, and then tested in every field. -/
def Passes (f : Filter) (value : Text) : Prop :=
  ∃ shaped, rule.shape f value = .ok shaped ∧ ∀ name ∈ names, rule.Tests shaped name

/-- A value fails when it cannot be shaped, or else in the first field in which it cannot be
tested. -/
inductive ValueFails (f : Filter) (value : Text) (error : FilterError) : Prop where
  | shape : rule.shape f value = .error error → ValueFails f value error
  | clause {shaped : Text} : rule.shape f value = .ok shaped →
      FailsFirst (rule.Tests shaped)
        (fun name error => rule.clause (rule.field name) shaped = .error error) names error →
      ValueFails f value error

/-- All the values of a filter that count pass. -/
def FilterPasses (f : Filter) : Prop := ∀ value ∈ f.values, rule.Passes names f value

/-- A filter fails with the first of its values that does not pass. -/
def FilterFails (f : Filter) : FilterError → Prop :=
  FailsFirst (rule.Passes names f) (rule.ValueFails names f) f.values

/-- A list fails with the first filter that does not pass. -/
def ListFails : List Filter → FilterError → Prop :=
  FailsFirst (rule.FilterPasses names) (rule.FilterFails names)

theorem valueStatement_eq (f : Filter) (value : Text) :
    rule.valueStatement names f value = rule.shape f value >>= fun shaped =>
      (names.mapM fun name => rule.clause (rule.field name) shaped).map fun clauses =>
        .group .or false (clauses.map .clause) := by
  unfold valueStatement
  cases rule.shape f value with
  | error error => rfl
  | ok shaped => cases names.mapM fun name => rule.clause (rule.field name) shaped <;> rfl

theorem exists_valueStatement_iff (f : Filter) (value : Text) :
    (∃ statement, rule.valueStatement names f value = .ok statement) ↔
      rule.Passes names f value := by
  simp only [valueStatement_eq, bind_eq_ok_iff, map_eq_ok_iff, Passes, Tests,
    ← exists_mapM_eq_ok_iff]
  constructor
  · rintro ⟨statement, shaped, hshaped, clauses, hclauses, -⟩
    exact ⟨shaped, hshaped, clauses, hclauses⟩
  · rintro ⟨shaped, hshaped, clauses, hclauses⟩
    exact ⟨_, shaped, hshaped, clauses, hclauses, rfl⟩

theorem valueStatement_eq_error_iff (f : Filter) (value : Text) (error : FilterError) :
    rule.valueStatement names f value = .error error ↔ rule.ValueFails names f value error := by
  have hclauses : ∀ shaped, (names.mapM fun name => rule.clause (rule.field name) shaped) =
      .error error ↔ FailsFirst (rule.Tests shaped)
        (fun name error => rule.clause (rule.field name) shaped = .error error) names error :=
    fun shaped => mapM_eq_error_iff (fun _ => Iff.rfl) (fun _ _ => Iff.rfl) names error
  simp only [valueStatement_eq, bind_eq_error_iff, map_eq_error_iff, hclauses]
  constructor
  · rintro (hshape | ⟨shaped, hshaped, hfirst⟩)
    · exact .shape hshape
    · exact .clause hshaped hfirst
  · rintro (hshape | ⟨hshaped, hfirst⟩)
    · exact .inl hshape
    · exact .inr ⟨_, hshaped, hfirst⟩

/-- A filter gives a statement exactly when its values do, one after the other. -/
theorem filterStatement_eq_map (f : Filter) :
    ∃ finish : List Statement → Statement, rule.filterStatement names f =
      (f.values.mapM (rule.valueStatement names f)).map finish := by
  unfold filterStatement
  rcases f.values with - | ⟨value, values⟩
  · exact ⟨fun _ => .group .or f.isExcluded [.all], rfl⟩
  · exact ⟨fun members => .group (f.op.getD .or) f.isExcluded members, rfl⟩

theorem exists_filterStatement_iff (f : Filter) :
    (∃ statement, rule.filterStatement names f = .ok statement) ↔ rule.FilterPasses names f := by
  obtain ⟨finish, hfinish⟩ := filterStatement_eq_map rule names f
  rw [hfinish, FilterPasses, ← exists_mapM_iff (exists_valueStatement_iff rule names f)]
  simp [map_eq_ok_iff]

theorem filterStatement_eq_error_iff (f : Filter) (error : FilterError) :
    rule.filterStatement names f = .error error ↔ rule.FilterFails names f error := by
  obtain ⟨finish, hfinish⟩ := filterStatement_eq_map rule names f
  rw [hfinish, map_eq_error_iff]
  exact mapM_eq_error_iff (exists_valueStatement_iff rule names f)
    (valueStatement_eq_error_iff rule names f) _ _

end Rule

/-! ### How a failure comes out -/

/-- A failure within a rule comes out of another rule as it is; any other is wrapped with the name
of the rule. -/
inductive FilterError.ComesOutAs (rule : Text) : FilterError → FilterError → Prop where
  | kept (inner : Text) (source : FilterError) :
      ComesOutAs rule (.withinRule inner source) (.withinRule inner source)
  | wrapped {source : FilterError} : (∀ inner cause, source ≠ .withinRule inner cause) →
      ComesOutAs rule source (.withinRule rule source)

theorem FilterError.comesOutAs_iff {rule : Text} {source error : FilterError} :
    source.ComesOutAs rule error ↔ error = source.inRule rule := by
  constructor
  · rintro (⟨inner, cause⟩ | hunwrapped)
    · rfl
    · cases source with
      | withinRule inner cause => exact absurd rfl (hunwrapped inner cause)
      | _ => rfl
  · rintro rfl
    cases source with
    | withinRule inner cause => exact .kept inner cause
    | _ => exact .wrapped (by simp)

/-! ### Building and counting -/

section Runs

variable (rule : Rule) (names : List Text) (filters : List Filter) (universal : Text) (t : Tally)

theorem run_ruleExpression_named :
    (Counted.ruleExpression rule (.named names) filters universal).run t =
      match filters.mapM (rule.filterStatement names) with
      | .ok members => (.ok (Statement.render universal (.conjunction members)), t)
      | .error source => (.error (source.inRule rule.name), t.addFailure rule.name) := by
  unfold Counted.ruleExpression Rule.expression Rule.build
  simp only [Fields.names]
  cases filters.mapM (rule.filterStatement names) <;> rfl

theorem exists_ruleExpression_iff :
    (∃ text, ((Counted.ruleExpression rule (.named names) filters universal).run t).1 = .ok text) ↔
      ∀ f ∈ filters, rule.FilterPasses names f := by
  rw [← exists_mapM_iff (rule.exists_filterStatement_iff names), run_ruleExpression_named]
  cases filters.mapM (rule.filterStatement names) <;> simp

theorem ruleExpression_eq_error_iff (error : FilterError) :
    ((Counted.ruleExpression rule (.named names) filters universal).run t).1 = .error error ↔
      ∃ source, rule.ListFails names filters source ∧ error = source.inRule rule.name := by
  have hfails := mapM_eq_error_iff (rule.exists_filterStatement_iff names)
    (rule.filterStatement_eq_error_iff names) filters
  simp only [Rule.ListFails, ← hfails, run_ruleExpression_named]
  cases filters.mapM (rule.filterStatement names) <;> simp [eq_comm]

/-- What is counted: nothing for a text, and a failure of the rule for an error. -/
theorem snd_run_ruleExpression :
    (∀ text, ((Counted.ruleExpression rule (.named names) filters universal).run t).1 = .ok text →
      ((Counted.ruleExpression rule (.named names) filters universal).run t).2 = t) ∧
    ∀ error, ((Counted.ruleExpression rule (.named names) filters universal).run t).1 =
        .error error →
      ((Counted.ruleExpression rule (.named names) filters universal).run t).2 =
        t.addFailure rule.name := by
  rw [run_ruleExpression_named]
  cases filters.mapM (rule.filterStatement names) <;> simp

end Runs

/-- **Failures of a rule.** A stem fails at once, and is not counted. With names for the fields,
building succeeds exactly when every value that counts passes, and then nothing is counted.
Otherwise its error is that of the first failure, within the rule if it is not within one already,
so that the root stays what it is; and the failure is counted once, under the name of the rule. -/
theorem ruleExpression_failures (rule : Rule) (filters : List Filter) (universal : Text)
    (t : Tally) :
    (∀ base, (Counted.ruleExpression rule (.stem base) filters universal).run t =
      (.error (.unexpandedFields rule.name base), t)) ∧
    ∀ names, ∃ result after,
      (Counted.ruleExpression rule (.named names) filters universal).run t = (result, after) ∧
      ((∃ text, result = .ok text) ↔
        ∀ f ∈ filters, ∀ value ∈ f.values, rule.Passes names f value) ∧
      (∀ error, result = .error error ↔ ∃ source, rule.ListFails names filters source ∧
        source.ComesOutAs rule.name error ∧ error.root = source.root) ∧
      (∀ text, result = .ok text → after = t) ∧
      ∀ error, result = .error error →
        after = t.addFailure rule.name ∧ after.failures rule.name = t.failures rule.name + 1 := by
  refine ⟨fun _ => rfl, fun names => ⟨_, _, (Prod.eta _).symm, ?_, ?_, ?_, ?_⟩⟩
  · exact exists_ruleExpression_iff rule names filters universal t
  · intro error
    -- wrapping once is a function, so the error settles how the failure comes out
    rw [ruleExpression_eq_error_iff]
    constructor
    · rintro ⟨source, hfirst, rfl⟩
      exact ⟨source, hfirst, FilterError.comesOutAs_iff.mpr rfl, FilterError.root_inRule _ source⟩
    · rintro ⟨source, hfirst, hout, -⟩
      exact ⟨source, hfirst, FilterError.comesOutAs_iff.mp hout⟩
  · exact (snd_run_ruleExpression rule names filters universal t).1
  · intro error herror
    have hcounted := (snd_run_ruleExpression rule names filters universal t).2 error herror
    refine ⟨hcounted, ?_⟩
    rw [hcounted]
    simp [Tally.addFailure]

end FilterAlgebra
