import FilterAlgebra.Proofs.Query.Congruence
import FilterAlgebra.Proofs.Query.Failures

/-!
# Filters without values

A filter without a value that counts means anything, whether it has no value field, an empty list or
blanks only: on its own it compiles to the universal token, and nothing changes when its value field
is taken away (`compilesAs_cleared`). One kind of filter is different. The list of a numeric range
is taken as its two bounds before blanks are left out, so a list of blanks is rejected there, and
with it every list of filters that it is in (`compileExpression_of_blankBounds`).
-/

namespace FilterAlgebra

namespace Filter

def cleared (f : Filter) : Filter := { f with q := none }

/-- Whether the filter is a numeric range with a list that is not empty. -/
def listsBounds (f : Filter) : Bool :=
  match f.q with
  | some (.many (_ :: _)) => f.type.isNumericRange
  | _ => false

/-- What is wrong with a list of blanks as the bounds of a range: there is nothing around the
separator, or the list has the wrong length. -/
def blankBoundsError (f : Filter) : FilterError :=
  if f.valueCount = 2 then .invalidNumericRange rangeSeparator else f.countError

theorem values_of_isWildcard {f : Filter} (h : f.isWildcard = true) : f.values = [] := by
  simpa [isWildcard] using h

/-! ### Bounds that are blank -/

theorem exists_of_listsBounds {f : Filter} (h : f.listsBounds = true) :
    f.type.isNumericRange = true ∧ ∃ value values, f.q = some (.many (value :: values)) := by
  unfold listsBounds at h
  split at h
  · next value values hq => exact ⟨h, value, values, hq⟩
  · cases h

/-- A list of blanks is of the wrong length, or has the separator as its range. -/
theorem blankBounds_cases {f : Filter} (hblank : f.isWildcard = true)
    (hbounds : f.listsBounds = true) :
    (f.isMiscounted = true ∧ f.blankBoundsError = f.countError) ∨
      (f.isMiscounted = false ∧ f.rangeValue? = some rangeSeparator ∧
        f.blankBoundsError = .invalidNumericRange rangeSeparator) := by
  obtain ⟨-, value, values, hq⟩ := exists_of_listsBounds hbounds
  -- One value, two values, or more: only two are taken as bounds.
  rcases values with - | ⟨high, - | ⟨next, rest⟩⟩
  · left
    simp [isMiscounted, blankBoundsError, valueCount, FilterValue.length, FilterValue.toList, hq]
  · right
    have hvalues : ∀ v ∈ [value, high], Text.isBlankText v = true := by
      simpa [isWildcard_iff, rawValues, FilterValue.toList, hq] using hblank
    have hlow : Text.trim value = [] := (Text.trim_eq_nil_iff value).mpr (hvalues value (by simp))
    have hhigh : Text.trim high = [] := (Text.trim_eq_nil_iff high).mpr (hvalues high (by simp))
    simp [isMiscounted, blankBoundsError, valueCount, FilterValue.length, FilterValue.toList,
      rangeValue?, hq, hlow, hhigh]
  · left
    simp [isMiscounted, blankBoundsError, valueCount, FilterValue.length, FilterValue.toList, hq]

theorem rejected_rangeSeparator : (numericRangeValue rangeSeparator).isOk = false := by
  decide +kernel

theorem rejected_of_blankBounds {f : Filter} (hblank : f.isWildcard = true)
    (hbounds : f.listsBounds = true) :
    f.isMiscounted = true ∨ ∃ value ∈ f.rangeValue?, (numericRangeValue value).isOk = false := by
  rcases blankBounds_cases hblank hbounds with ⟨hcount, -⟩ | ⟨-, hvalue, -⟩
  · exact .inl hcount
  · exact .inr ⟨rangeSeparator, hvalue, rejected_rangeSeparator⟩

/-! ### Both stages -/

theorem exists_prepare_of_isWildcard {f : Filter} (hblank : f.isWildcard = true)
    {scope : Namespace} {d : Descriptor} (hd : Descriptor.of? scope f.type = some d)
    (hflag : d.kind ≠ .flag) (hbounds : f.listsBounds = false) :
    ∃ g, d.kind.prepare f = .ok g ∧ g.values = [] ∧ g.context = f.context := by
  have hvalues := values_of_isWildcard hblank
  cases hkind : d.kind with
  | flag => exact absurd hkind hflag
  | text => exact ⟨f, rfl, hvalues, rfl⟩
  | term => exact ⟨f, rfl, hvalues, rfl⟩
  | dateRange => exact ⟨f, rfl, hvalues, rfl⟩
  | numericRange =>
    have hnumeric : f.type.isNumericRange = true := (kind_eq_numericRange_iff hd).mp hkind
    obtain ⟨kind, context, op, precision, q⟩ := f
    rcases q with - | value | values
    · exact ⟨_, rfl, hvalues, rfl⟩
    · exact ⟨_, rfl, hvalues, rfl⟩
    · rcases values with - | ⟨value, values⟩
      · exact ⟨_, rfl, rfl, rfl⟩
      · have hrange : kind.isNumericRange = false := hbounds
        exact absurd hnumeric (by simp [hrange])

end Filter

/-- The statement of a filter without values, which only looks at whether it is excluded. -/
theorem ValueKind.filterStatement_of_values_nil (kind : ValueKind) (name : Text)
    (fields : List Text) {f : Filter} (h : f.values = []) :
    (kind.rule name).filterStatement fields f = .ok (.group .or f.isExcluded [.all]) := by
  rw [Rule.filterStatement, h]

theorem stages_of_isWildcard {f : Filter} (hblank : f.isWildcard = true) {scope : Namespace}
    {d : Descriptor} (hd : Descriptor.of? scope f.type = some d) (hflag : d.kind ≠ .flag)
    (hbounds : f.listsBounds = false) (name : Text) (fields : List Text) :
    d.kind.stages name fields f = .ok (.ok (.group .or f.isExcluded [.all])) := by
  obtain ⟨g, hg, hvalues, hcontext⟩ :=
    Filter.exists_prepare_of_isWildcard hblank hd hflag hbounds
  have hexcluded : g.isExcluded = f.isExcluded := by rw [Filter.isExcluded, hcontext]; rfl
  rw [ValueKind.stages, hg]
  simp only [Except.map]
  rw [ValueKind.filterStatement_of_values_nil _ _ _ hvalues, hexcluded]

theorem compilesAs_cleared {f : Filter} (hblank : f.isWildcard = true)
    (hbounds : f.listsBounds = false) (scope : Namespace) : f.CompilesAs scope f.cleared := by
  refine ⟨rfl, ?_⟩
  intro d hd name fields
  by_cases hflag : d.kind = .flag
  · rw [hflag]
    rfl
  · have hcleared : f.cleared.isWildcard = true := rfl
    rw [stages_of_isWildcard hblank hd hflag hbounds,
      stages_of_isWildcard hcleared hd hflag rfl]
    rfl

/-! ### One filter on its own -/

section Single

variable {f : Filter} {scope : Namespace} {settings : Settings}

theorem compileExpression_singleton (f : Filter) (scope : Namespace) (settings : Settings) :
    compileExpression [f] scope settings =
      (groupStatement f.type [f] scope settings).map
        (Statement.render settings.universalQuery) := by
  have hgroups : groupByType [f] = [(f.type, [f])] :=
    groupBy_of_forall_eq (by simp) (by simp)
  rw [compileExpression_eq, hgroups, mapM_cons_eq, statementOf]
  cases groupStatement f.type [f] scope settings <;> rfl

theorem compileExpression_of_isWildcard {d : Descriptor}
    (hd : Descriptor.of? scope f.type = some d) (hflag : f.type.isFlag = false)
    (hblank : f.isWildcard = true) (hbounds : f.listsBounds = false) :
    compileExpression [f] scope settings =
      .ok (if f.isExcluded then "NOT " ++ settings.universalQuery
        else settings.universalQuery) := by
  have hkind : d.kind ≠ .flag := by
    intro hkind
    rw [(kind_eq_flag_iff hd).mp hkind] at hflag
    cases hflag
  rw [compileExpression_singleton, groupStatement_eq_stages hd, mapM_cons_eq,
    stages_of_isWildcard hblank hd hkind hbounds]
  rfl

/-- Blank bounds are rejected by name, with what is wrong with them. -/
theorem compileExpression_of_blankBounds {d : Descriptor}
    (hd : Descriptor.of? scope f.type = some d) (hblank : f.isWildcard = true)
    (hbounds : f.listsBounds = true) :
    ∃ failure, compileExpression [f] scope settings = .error failure ∧
      failure.error = .withinRule f.type.name f.blankBoundsError := by
  obtain ⟨hnumeric, -⟩ := Filter.exists_of_listsBounds hbounds
  have hfailure : failureOf? (groupStatement f.type [f] scope settings) = _ :=
    failureOf?_numericRanges hd ((kind_eq_numericRange_iff hd).mpr hnumeric) [f]
  rw [compileExpression_singleton]
  rcases Filter.blankBounds_cases hblank hbounds with ⟨hcount, herror⟩ | ⟨hcount, hvalue, herror⟩
  · have hfirst : failureOf? (groupStatement f.type [f] scope settings) =
        some { error := .withinRule f.type.name f.countError } := by
      rw [hfailure]
      simp [hcount]
    refine ⟨_, map_eq_error_iff.mpr (failureOf?_eq_some_iff.mp hfirst), ?_⟩
    rw [herror]
  · have hfirst : failureOf? (groupStatement f.type [f] scope settings) =
        some { error := .withinRule f.type.name (.invalidNumericRange rangeSeparator),
               counted := f.type.name } := by
      rw [hfailure]
      simp [hcount, hvalue, Filter.rejected_rangeSeparator]
    refine ⟨_, map_eq_error_iff.mpr (failureOf?_eq_some_iff.mp hfirst), ?_⟩
    rw [herror]

end Single

/-! ### Filters that mean anything -/

/-- **Filters without values.** Unless it is a list of blanks as the bounds of a numeric range, a
filter without values compiles to the universal token, negated where it is excluded, and in every
list it can lose its value field. Such a list of blanks is rejected, on its own and in any list. -/
theorem compileExpression_valueless {f : Filter} {scope : Namespace} {d : Descriptor}
    (hd : Descriptor.of? scope f.type = some d) (hflag : f.type.isFlag = false)
    (hblank : f.isWildcard = true) (settings : Settings) :
    (f.listsBounds = false →
      compileExpression [f] scope settings =
        .ok (if f.isExcluded then "NOT " ++ settings.universalQuery
          else settings.universalQuery) ∧
      ∀ before after, compileExpression (before ++ f.cleared :: after) scope settings =
        compileExpression (before ++ f :: after) scope settings) ∧
    (f.listsBounds = true →
      (∃ failure, compileExpression [f] scope settings = .error failure ∧
        failure.error = .withinRule f.type.name f.blankBoundsError) ∧
      ∀ before after, ∃ failure,
        compileExpression (before ++ f :: after) scope settings = .error failure) := by
  constructor
  · intro hbounds
    refine ⟨compileExpression_of_isWildcard hd hflag hblank hbounds, ?_⟩
    intro before after
    have hsame : ∀ filters : List Filter,
        List.Forall₂ (Filter.CompilesAs scope) filters filters :=
      fun filters => List.forall₂_same.mpr fun f _ => .refl f
    apply compileExpression_congr
    exact List.rel_append (hsame before)
      (.cons (compilesAs_cleared hblank hbounds scope) (hsame after))
  · intro hbounds
    refine ⟨compileExpression_of_blankBounds hd hblank hbounds, ?_⟩
    intro before after
    have hmem : f ∈ before ++ f :: after := List.mem_append_right before List.mem_cons_self
    obtain ⟨hnumeric, -⟩ := Filter.exists_of_listsBounds hbounds
    exact exists_compileExpression_error_of_range hmem hnumeric
      (Filter.rejected_of_blankBounds hblank hbounds)

/-- An excluded date range with a list of two blanks, one of them an ideographic space. -/
def blankDates : Filter :=
  { type := .daterange, context := .excluded, q := some (.many ["　", ""]) }

theorem compileExpression_valueless_blankDates :
    (∃ d, Descriptor.of? .images blankDates.type = some d) ∧ blankDates.type.isFlag = false ∧
      blankDates.isWildcard = true ∧ blankDates.listsBounds = false ∧
      compileExpression [blankDates] .images {} = .ok "NOT *:*".toList := by
  have hd : Descriptor.of? .images blankDates.type =
      some (.onFields .dateRange ["meta_date_dt"]) := rfl
  have hblank : blankDates.isWildcard = true := by decide
  exact ⟨⟨_, hd⟩, rfl, hblank, rfl, ((compileExpression_valueless hd rfl hblank {}).1 rfl).1⟩

def blankLengths : Filter := { type := .contentLength, q := some (.many ["", ""]) }

/-- A filter without values need not mean anything: blank bounds are rejected. -/
theorem compileExpression_blankLengths_ne :
    blankLengths.isWildcard = true ∧ blankLengths.type.isFlag = false ∧
      (Descriptor.of? .search blankLengths.type).isSome = true ∧
      compileExpression [blankLengths] .search {} ≠ .ok "*:*".toList ∧
      compileExpression [blankLengths.cleared] .search {} ≠
        compileExpression [blankLengths] .search {} := by
  decide +kernel

end FilterAlgebra
