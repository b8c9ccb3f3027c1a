import FilterAlgebra.Proofs.Relational.Reading

/-!
# Conditions in a database

A database evaluates a condition with three truth values (`Ternary`): a comparison with a missing
column is unknown, and tests and conjunctions follow three-valued truth tables. A row is selected
when the condition is true, not when it is unknown. On the rows it selects, a condition without
empty lists agrees with the truth of its predicate (`truth_eq_yes_iff`).
-/

namespace FilterAlgebra

/-! ### Three truth values -/

inductive Ternary where
  | yes
  | no
  | unknown
  deriving DecidableEq, Repr

namespace Ternary

def ofBool (b : Bool) : Ternary := if b then yes else no

def not : Ternary → Ternary
  | yes => no
  | no => yes
  | unknown => unknown

def and : Ternary → Ternary → Ternary
  | no, _ => no
  | _, no => no
  | yes, yes => yes
  | _, _ => unknown

def or : Ternary → Ternary → Ternary
  | yes, _ => yes
  | _, yes => yes
  | no, no => no
  | _, _ => unknown

theorem ofBool_eq_yes_iff (b : Bool) : ofBool b = yes ↔ b = true := by
  cases b <;> decide

theorem not_ofBool (b : Bool) : (ofBool b).not = ofBool !b := by
  cases b <;> rfl

theorem or_ofBool (a b : Bool) : (ofBool a).or (ofBool b) = ofBool (a || b) := by
  cases a <;> cases b <;> rfl

theorem and_eq_yes_iff (s t : Ternary) : s.and t = yes ↔ s = yes ∧ t = yes := by
  cases s <;> cases t <;> decide

end Ternary

/-- The comparison of a column with a value, where the column may be missing. -/
def compareValue (stored : Option Text) (value : Text) : Ternary :=
  match stored with
  | some found => .ofBool (found = value)
  | none => .unknown

/-- Whether a column equals one of some values: the comparisons with all of them, joined by `OR`. -/
def amongValues (stored : Option Text) (values : List Text) : Ternary :=
  values.foldr (fun value truth => (compareValue stored value).or truth) .no

theorem amongValues_some (found : Text) (values : List Text) :
    amongValues (some found) values = .ofBool (values.contains found) := by
  induction values with
  | nil => rfl
  | cons value values ih =>
    have hsame : (found == value) = decide (found = value) := by rw [Bool.eq_iff_iff]; simp
    rw [amongValues, List.foldr_cons, ← amongValues, ih, compareValue, Ternary.or_ofBool,
      List.contains_cons, hsame]

/-- A missing column is neither among values nor not among them. -/
theorem amongValues_none {values : List Text} (h : values ≠ []) :
    amongValues none values = .unknown := by
  induction values with
  | nil => exact absurd rfl h
  | cons value values ih =>
    rw [amongValues, List.foldr_cons, ← amongValues]
    cases values with
    | nil => rfl
    | cons next values =>
      rw [ih (List.cons_ne_nil next values)]
      rfl

namespace Predicate

/-! ### Evaluation in a database -/

mutual

def truth (row : Row) : Predicate → Ternary
  | isIn column values => amongValues (row.get? column) values
  | notIn column values => (amongValues (row.get? column) values).not
  | all predicates => truthAll row predicates

def truthAll (row : Row) : List Predicate → Ternary
  | [] => .yes
  | predicate :: predicates => (predicate.truth row).and (truthAll row predicates)

end

mutual

/-- Whether no list in a predicate is empty, be it of values or of predicates. -/
def isFull : Predicate → Bool
  | isIn _ values => !values.isEmpty
  | notIn _ values => !values.isEmpty
  | all predicates => !predicates.isEmpty && isFullAll predicates

def isFullAll : List Predicate → Bool
  | [] => true
  | predicate :: predicates => predicate.isFull && isFullAll predicates

end

theorem isFullAll_eq_all (predicates : List Predicate) :
    isFullAll predicates = predicates.all isFull := by
  induction predicates with
  | nil => rfl
  | cons predicate predicates ih => simp [isFullAll, ih]

theorem truthAll_eq_yes_iff (row : Row) (predicates : List Predicate) :
    truthAll row predicates = .yes ↔ ∀ p ∈ predicates, p.truth row = .yes := by
  induction predicates with
  | nil => simp [truthAll]
  | cons predicate predicates ih => simp [truthAll, Ternary.and_eq_yes_iff, ih]

/-- A database finds a predicate true exactly when it holds. -/
theorem truth_eq_yes_iff {p : Predicate} (hfull : p.isFull = true) (row : Row) :
    p.truth row = .yes ↔ p.holds row = true := by
  induction p using induction_members with
  | isIn column values =>
    have hvalues : values ≠ [] := by simpa [isFull] using hfull
    rw [truth, holds]
    cases row.get? column with
    | some found => rw [amongValues_some, Ternary.ofBool_eq_yes_iff]
    -- a missing column is unknown, as there is a value to compare with
    | none => simp [amongValues_none hvalues]
  | notIn column values =>
    have hvalues : values ≠ [] := by simpa [isFull] using hfull
    rw [truth, holds]
    cases row.get? column with
    | some found => rw [amongValues_some, Ternary.not_ofBool, Ternary.ofBool_eq_yes_iff]
    -- and stays unknown when it is negated
    | none => simp [amongValues_none hvalues, Ternary.not]
  | all predicates ih =>
    have hmembers : ∀ p ∈ predicates, p.isFull = true := by
      rw [isFull, Bool.and_eq_true, isFullAll_eq_all, List.all_eq_true] at hfull
      exact hfull.2
    rw [truth, holds, truthAll_eq_yes_iff, holdsAll_eq_all, List.all_eq_true]
    constructor
    · intro h p hp
      exact (ih p hp (hmembers p hp)).mp (h p hp)
    · intro h p hp
      exact (ih p hp (hmembers p hp)).mpr (h p hp)

/-- **Predicates and their text.** There are as many placeholders as values, and the text with its
values is read as the predicate and as nothing else. If no list is empty, a database finds the text
with its values true on exactly the rows on which the predicate holds. -/
theorem sql_agrees {p : Predicate} (hcolumns : ∀ column ∈ p.columns, Sql.IsColumn column) :
    p.sql.count '?' = p.binds.length ∧
    (∀ q, Sql.Reads p.sql p.binds q ↔ q = p) ∧
    (p.isFull = true → ∀ row,
      (∃ q, Sql.Reads p.sql p.binds q ∧ q.truth row = .yes) ↔ p.holds row = true) := by
  refine ⟨count_sql hcolumns, reads_iff hcolumns, ?_⟩
  intro hfull row
  rw [← truth_eq_yes_iff hfull]
  constructor
  · rintro ⟨q, hq, htruth⟩
    rw [(reads_iff hcolumns q).mp hq] at htruth
    exact htruth
  · intro htruth
    exact ⟨p, (reads_iff hcolumns p).mpr rfl, htruth⟩

def nestedTests : Predicate :=
  all [isIn "wikidata_id" ["Q1", "Q2"], all [notIn "label_2" ["Q3"]]]

theorem sql_agrees_nestedTests :
    (∀ column ∈ nestedTests.columns, Sql.IsColumn column) ∧ nestedTests.isFull = true ∧
      nestedTests.sql = "(wikidata_id IN (?, ?) AND (label_2 NOT IN (?)))".toList ∧
      nestedTests.sql.count '?' = nestedTests.binds.length ∧
      (∀ q, Sql.Reads nestedTests.sql nestedTests.binds q ↔ q = nestedTests) ∧
      ∀ row, (∃ q, Sql.Reads nestedTests.sql nestedTests.binds q ∧ q.truth row = .yes) ↔
        nestedTests.holds row = true := by
  have hcolumns : ∀ column ∈ nestedTests.columns, Sql.IsColumn column := by
    have hnames : nestedTests.columns.all fun column =>
        !column.isEmpty && column.all Sql.isColumnChar := by decide
    intro column hcolumn
    have hname := List.all_eq_true.mp hnames column hcolumn
    rw [Bool.and_eq_true, Bool.not_eq_true', List.isEmpty_eq_false_iff] at hname
    exact ⟨hname.1, List.all_eq_true.mp hname.2⟩
  obtain ⟨hcount, hreads, hrows⟩ := sql_agrees hcolumns
  exact ⟨hcolumns, rfl, by decide, hcount, hreads, hrows rfl⟩

end Predicate

end FilterAlgebra
