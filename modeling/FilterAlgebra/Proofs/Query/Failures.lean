import FilterAlgebra.Proofs.Query.SplitQueries
import FilterAlgebra.Proofs.Range.Bounds

/-!
# When compiling fails

The parts of a query cannot be compiled when a type of the kept filters fails, and the failure is
that of the first such type. A type fails when it has no field in the collection. Apart from that
only ranges can fail: by a value that is no date range, by a list that cannot be two bounds, or by a
value that is no numeric range. Merging has no say in this, because it keeps the values that count
in their order and leaves numeric ranges alone. So the first failure of a type is found by looking
at its filters only (`failureOf?_build`).
-/

namespace FilterAlgebra

variable {scope : Namespace} {settings : Settings}

/-! ### Failures of a rule -/

namespace ValueKind

theorem failureOf?_filterStatement (kind : ValueKind) (name : Text) (fields : List Text)
    (f : Filter) :
    failureOf? ((kind.rule name).filterStatement fields f) =
      f.values.findSome? fun value => failureOf? (kind.queryForm f.precision value) := by
  have hvalue : ∀ value, failureOf? ((kind.rule name).valueStatement fields f value) =
      failureOf? (kind.queryForm f.precision value) := by
    intro value
    rw [valueStatement_eq, failureOf?_map]
  simp only [← hvalue, ← failureOf?_mapM]
  unfold Rule.filterStatement
  rcases f.values with - | ⟨value, values⟩
  · rfl
  · exact failureOf?_map _ _

/-- The first value without a query form is the failure of the rule, wrapped with its name. -/
theorem failureOf?_build (kind : ValueKind) (name : Text) (fields : List Text)
    (filters : List Filter) :
    failureOf? ((kind.rule name).build (.named fields) filters) =
      (filters.findSome? fun f => f.values.findSome? fun value =>
        failureOf? (kind.queryForm f.precision value)).map fun error =>
          { error := error.inRule name, counted := name } := by
  have hfilters : (filters.findSome? fun f => f.values.findSome? fun value =>
      failureOf? (kind.queryForm f.precision value)) =
      failureOf? (filters.mapM ((kind.rule name).filterStatement fields)) := by
    simp only [failureOf?_mapM, failureOf?_filterStatement]
  rw [hfilters]
  unfold Rule.build
  simp only [Fields.names]
  cases filters.mapM ((kind.rule name).filterStatement fields) <;> rfl

/-- Where values are shaped whatever the precision is, the values of all filters count as one
list. -/
theorem failureOf?_build_of_form {kind : ValueKind} {form : Text → Except FilterError Text}
    {cause : Text → FilterError} (hform : ∀ precision, kind.queryForm precision = form)
    (hcause : ∀ value e, form value = .error e → e = cause value) (name : Text)
    (fields : List Text) (filters : List Filter) :
    failureOf? ((kind.rule name).build (.named fields) filters) =
      ((filters.flatMap Filter.values).find? fun value => !(form value).isOk).map fun value =>
        { error := (cause value).inRule name, counted := name } := by
  have hvalues : (filters.findSome? fun f => f.values.findSome? fun value =>
      failureOf? (kind.queryForm f.precision value)) =
      ((filters.flatMap Filter.values).find? fun value => !(form value).isOk).map cause := by
    simp only [hform, findSome?_failureOf? hcause, List.find?_flatMap, List.map_findSome?]
    rfl
  rw [failureOf?_build, hvalues, Option.map_map]
  rfl

end ValueKind

/-! ### Failures of a type -/

section Descriptor

variable {kind : FilterType} {d : Descriptor} (hd : Descriptor.of? scope kind = some d)

include hd

theorem kind_eq_text_iff : d.kind = .text ↔ kind.isText = true := by
  cases kind <;> cases scope <;> cases hd <;> simp [Descriptor.onFields, FilterType.isText]

theorem kind_eq_dateRange_iff : d.kind = .dateRange ↔ kind = .daterange := by
  cases kind <;> cases scope <;> cases hd <;> simp [Descriptor.onFields]

theorem kind_eq_numericRange_iff : d.kind = .numericRange ↔ kind.isNumericRange = true := by
  cases kind <;> cases scope <;> cases hd <;> simp [Descriptor.onFields, FilterType.isNumericRange]

theorem kind_eq_flag_iff : d.kind = .flag ↔ kind.isFlag = true := by
  cases kind <;> cases scope <;> cases hd <;> simp [Descriptor.onFields, FilterType.isFlag]

/-- Free text, terms and flags never fail. -/
theorem failureOf?_of_kind (hkind : d.kind = .text ∨ d.kind = .term ∨ d.kind = .flag)
    (members : List Filter) : failureOf? (groupStatement kind members scope settings) = none := by
  have hprepare : ∀ f, ∃ g, d.kind.prepare f = .ok g := by
    intro f
    rcases hkind with h | h | h <;> rw [h] <;> exact ⟨_, rfl⟩
  have hform : ∀ precision value, ∃ form, d.kind.queryForm precision value = .ok form := by
    intro precision value
    rcases hkind with h | h | h <;> rw [h] <;> exact ⟨_, rfl⟩
  obtain ⟨prepared, hprepared⟩ := exists_mapM_eq_ok fun f (_ : f ∈ members) => hprepare f
  rw [groupStatement_eq hd, hprepared]
  simp only
  rw [ValueKind.failureOf?_build, Option.map_eq_none_iff, List.findSome?_eq_none_iff]
  intro f _
  rw [List.findSome?_eq_none_iff]
  intro value _
  obtain ⟨form, h⟩ := hform f.precision value
  rw [h]
  rfl

theorem failureOf?_dateRanges (hkind : d.kind = .dateRange) (members : List Filter) :
    failureOf? (groupStatement kind members scope settings) =
      ((members.flatMap Filter.values).find? fun value => !(dateRangeValue value).isOk).map
        fun value => { error := .withinRule kind.name (.invalidDateRange value),
                       counted := kind.name } := by
  have hprepare : members.mapM ValueKind.dateRange.prepare = .ok members :=
    mapM_eq_self fun _ _ => rfl
  rw [groupStatement_eq hd, hkind, hprepare]
  exact ValueKind.failureOf?_build_of_form (fun _ => rfl) (fun _ _ => eq_of_dateRangeValue_error)
    kind.name _ members

theorem failureOf?_numericRanges (hkind : d.kind = .numericRange) (members : List Filter) :
    failureOf? (groupStatement kind members scope settings) =
      match members.find? Filter.isMiscounted with
      | some f => some { error := .withinRule kind.name f.countError }
      | none => ((members.filterMap Filter.rangeValue?).find? fun value =>
          !(numericRangeValue value).isOk).map fun value =>
            { error := .withinRule kind.name (.invalidNumericRange value),
              counted := kind.name } := by
  -- all filters are prepared, and so their bounds counted, before the first range is read
  have hcount : failureOf? (members.mapM joinBounds) =
      (members.find? Filter.isMiscounted).map Filter.countError := by
    rw [failureOf?_mapM, findSome?_failureOf? fun _ _ => eq_of_joinBounds_error]
    simp only [isOk_joinBounds, Bool.not_not]
  have hprepare : members.mapM ValueKind.numericRange.prepare = members.mapM joinBounds := rfl
  rw [groupStatement_eq hd, hkind, hprepare]
  cases hprepared : members.mapM joinBounds with
  | error error =>
    rw [hprepared] at hcount
    obtain ⟨f, hf, rfl⟩ := Option.map_eq_some_iff.mp hcount.symm
    rw [hf]
    rfl
  | ok prepared =>
    rw [hprepared] at hcount
    rw [Option.map_eq_none_iff.mp hcount.symm, ← values_of_mapM_joinBounds hprepared]
    exact ValueKind.failureOf?_build_of_form (fun _ => rfl)
      (fun _ _ => eq_of_numericRangeValue_error) kind.name _ prepared

end Descriptor

/-! ### Types that fail -/

/-- When a type fails, given its kept filters: it has no field in the collection, or some filter has
a range that cannot be read. -/
def TypeFails (scope : Namespace) (kind : FilterType) (members : List Filter) : Prop :=
  Descriptor.of? scope kind = none ∨
    (kind = .daterange ∧
      ∃ f ∈ members, ∃ value ∈ f.values, (dateRangeValue value).isOk = false) ∨
    (kind.isNumericRange = true ∧
      ∃ f ∈ members, f.isMiscounted = true ∨
        ∃ value ∈ f.rangeValue?, (numericRangeValue value).isOk = false)

/-- The error with which a type fails, given its kept filters. Values are taken in the order of the
filters, and the first that is rejected is named. -/
inductive FailsWith (scope : Namespace) (kind : FilterType) (members : List Filter) :
    FilterError → Prop where
  | unsupported : Descriptor.of? scope kind = none →
      FailsWith scope kind members (.unsupportedType kind.name scope.name)
  | dateRange {value : Text} : (Descriptor.of? scope kind).isSome → kind = .daterange →
      ((members.flatMap Filter.values).find? fun v => !(dateRangeValue v).isOk) = some value →
      FailsWith scope kind members (.withinRule kind.name (.invalidDateRange value))
  | boundCount {f : Filter} : (Descriptor.of? scope kind).isSome → kind.isNumericRange = true →
      members.find? Filter.isMiscounted = some f →
      FailsWith scope kind members (.withinRule kind.name f.countError)
  | numericRange {value : Text} : (Descriptor.of? scope kind).isSome →
      kind.isNumericRange = true → (∀ f ∈ members, f.isMiscounted = false) →
      ((members.filterMap Filter.rangeValue?).find? fun v => !(numericRangeValue v).isOk) =
        some value →
      FailsWith scope kind members (.withinRule kind.name (.invalidNumericRange value))

section Members

variable {kind : FilterType} {members : List Filter}

theorem mergeGroup_of_isNumericRange (h : kind.isNumericRange = true) :
    mergeGroup kind members = members := by
  simp [mergeGroup, h]

theorem failsWith_of_groupStatement {failure : Failure}
    (h : groupStatement kind (mergeGroup kind members) scope settings = .error failure) :
    FailsWith scope kind members failure.error := by
  cases hd : Descriptor.of? scope kind with
  | none =>
    rw [groupStatement, hd] at h
    cases h
    exact .unsupported hd
  | some d =>
    have hsome : (Descriptor.of? scope kind).isSome := by rw [hd]; rfl
    have hfailure := failureOf?_eq_some_iff.mpr h
    cases hkind : d.kind with
    | dateRange =>
      rw [failureOf?_dateRanges hd hkind, values_mergeGroup] at hfailure
      obtain ⟨value, hvalue, rfl⟩ := Option.map_eq_some_iff.mp hfailure
      exact .dateRange hsome ((kind_eq_dateRange_iff hd).mp hkind) hvalue
    | numericRange =>
      have hnumeric := (kind_eq_numericRange_iff hd).mp hkind
      rw [failureOf?_numericRanges hd hkind, mergeGroup_of_isNumericRange hnumeric] at hfailure
      cases hcount : members.find? Filter.isMiscounted with
      | some f =>
        -- bounds are counted before any range is read
        rw [hcount] at hfailure
        cases hfailure
        exact .boundCount hsome hnumeric hcount
      | none =>
        rw [hcount] at hfailure
        obtain ⟨value, hvalue, rfl⟩ := Option.map_eq_some_iff.mp hfailure
        refine .numericRange hsome hnumeric (fun f hf => ?_) hvalue
        simpa using List.find?_eq_none.mp hcount f hf
    | _ =>
      -- the other kinds do not fail
      rw [failureOf?_of_kind hd (by simp [hkind])] at hfailure
      cases hfailure

theorem typeFails_of_failsWith {error : FilterError} (h : FailsWith scope kind members error) :
    TypeFails scope kind members := by
  cases h with
  | unsupported hd => exact .inl hd
  | dateRange _ hkind hvalue =>
    obtain ⟨f, hf, hmem⟩ := List.mem_flatMap.mp (List.mem_of_find?_eq_some hvalue)
    exact .inr (.inl ⟨hkind, f, hf, _, hmem, by simpa using List.find?_some hvalue⟩)
  | boundCount _ hkind hf =>
    exact .inr (.inr ⟨hkind, _, List.mem_of_find?_eq_some hf, .inl (List.find?_some hf)⟩)
  | numericRange _ hkind _ hvalue =>
    obtain ⟨f, hf, hrange⟩ := List.mem_filterMap.mp (List.mem_of_find?_eq_some hvalue)
    exact .inr (.inr ⟨hkind, f, hf, .inr ⟨_, hrange, by simpa using List.find?_some hvalue⟩⟩)

theorem not_typeFails_of_groupStatement
    (hnone : failureOf? (groupStatement kind (mergeGroup kind members) scope settings) = none) :
    ¬ TypeFails scope kind members := by
  cases hd : Descriptor.of? scope kind with
  | none =>
    rw [groupStatement, hd] at hnone
    cases hnone
  | some d =>
    rintro (hunsupported | ⟨hkind, f, hf, value, hvalue, hrejected⟩ | ⟨hkind, f, hf, hrange⟩)
    · cases hd.symm.trans hunsupported
    · -- a date range that is rejected
      rw [failureOf?_dateRanges hd ((kind_eq_dateRange_iff hd).mpr hkind), values_mergeGroup,
        Option.map_eq_none_iff, List.find?_eq_none] at hnone
      have haccepted := hnone value (List.mem_flatMap.mpr ⟨f, hf, hvalue⟩)
      simp [hrejected] at haccepted
    · -- a numeric range with a wrong number of bounds, or one that is rejected
      rw [failureOf?_numericRanges hd ((kind_eq_numericRange_iff hd).mpr hkind),
        mergeGroup_of_isNumericRange hkind] at hnone
      cases hcount : members.find? Filter.isMiscounted with
      | some g =>
        rw [hcount] at hnone
        cases hnone
      | none =>
        rw [hcount] at hnone
        rcases hrange with hmiscounted | ⟨value, hvalue, hrejected⟩
        · exact List.find?_eq_none.mp hcount f hf hmiscounted
        · have haccepted := List.find?_eq_none.mp (Option.map_eq_none_iff.mp hnone) value
            (List.mem_filterMap.mpr ⟨f, hf, hvalue⟩)
          simp [hrejected] at haccepted

end Members

/-! ### Expressions that fail -/

/-- A range that cannot be read fails every list it is in, in any collection. -/
theorem exists_compileExpression_error_of_range {filters : List Filter} {f : Filter}
    (hf : f ∈ filters) (hrange : f.type.isNumericRange = true)
    (hrejected : f.isMiscounted = true ∨
      ∃ value ∈ f.rangeValue?, (numericRangeValue value).isOk = false) :
    ∃ failure, compileExpression filters scope settings = .error failure := by
  have hgroup : (f.type, filters.filter fun g => decide (g.type = f.type)) ∈
      groupByType filters := by
    rw [groupByType, groupBy_eq]
    exact List.mem_map.mpr
      ⟨f.type, List.mem_eraseDups.mpr (List.mem_map.mpr ⟨f, hf, rfl⟩), rfl⟩
  have hmem : f ∈ filters.filter fun g => decide (g.type = f.type) :=
    List.mem_filter.mpr ⟨hf, by simp⟩
  have hfails : TypeFails scope f.type (filters.filter fun g => decide (g.type = f.type)) :=
    .inr (.inr ⟨hrange, f, hmem, hrejected⟩)
  cases hcompiled : compileExpression filters scope settings with
  | error failure => exact ⟨failure, rfl⟩
  | ok text =>
    rw [compileExpression_eq] at hcompiled
    cases hstatements : (groupByType filters).mapM (statementOf scope settings) with
    | error failure =>
      rw [hstatements] at hcompiled
      cases hcompiled
    | ok statements =>
      obtain ⟨statement, hstatement⟩ := exists_mapM_eq_ok_iff.mp ⟨statements, hstatements⟩ _ hgroup
      -- its type would have a statement, and merging changes nothing about numeric ranges
      have hnone : failureOf? (groupStatement f.type (mergeGroup f.type
          (filters.filter fun g => decide (g.type = f.type))) scope settings) = none := by
        rw [mergeGroup_of_isNumericRange hrange]
        rw [statementOf] at hstatement
        rw [hstatement]
        rfl
      exact absurd hfails (not_typeFails_of_groupStatement hnone)

/-! ### Lists that fail -/

theorem failureOf?_compileQuery (filters : List Filter) :
    failureOf? (compileQuery filters scope settings) =
      (keptTypes filters).findSome? fun kind =>
        failureOf? (groupStatement kind (mergeGroup kind (keptOf kind filters)) scope settings) := by
  rw [compileQuery_eq_kept, failureOf?_map, failureOf?_mapM]
  simp only [keptStatementOf, typedStatementOf, failureOf?_map, statementOf]

theorem exists_first_failing {filters : List Filter} {failure : Failure}
    (h : compileQuery filters scope settings = .error failure) :
    ∃ before kind after, keptTypes filters = before ++ kind :: after ∧
      (∀ earlier ∈ before, ¬ TypeFails scope earlier (keptOf earlier filters)) ∧
      TypeFails scope kind (keptOf kind filters) ∧
      FailsWith scope kind (keptOf kind filters) failure.error := by
  rw [← failureOf?_eq_some_iff, failureOf?_compileQuery, List.findSome?_eq_some_iff] at h
  obtain ⟨before, kind, after, htypes, hkind, hbefore⟩ := h
  have hfails := failsWith_of_groupStatement (failureOf?_eq_some_iff.mp hkind)
  refine ⟨before, kind, after, htypes, fun earlier hmem => ?_, typeFails_of_failsWith hfails, hfails⟩
  exact not_typeFails_of_groupStatement (hbefore earlier hmem)

/-- **When compiling fails.** The query parts of a list cannot be compiled exactly when a type of
its kept filters fails. The error is that of the first such type, and free text, terms and flags are
never among them. -/
theorem compileQuery_failures (filters : List Filter) (scope : Namespace) (settings : Settings) :
    ((∃ failure, compileQuery filters scope settings = .error failure) ↔
      ∃ kind ∈ keptTypes filters, TypeFails scope kind (keptOf kind filters)) ∧
    (∀ failure, compileQuery filters scope settings = .error failure →
      ∃ before kind after, keptTypes filters = before ++ kind :: after ∧
        (∀ earlier ∈ before, ¬ TypeFails scope earlier (keptOf earlier filters)) ∧
        TypeFails scope kind (keptOf kind filters) ∧
        FailsWith scope kind (keptOf kind filters) failure.error) ∧
    ∀ kind d, Descriptor.of? scope kind = some d →
      d.kind = .text ∨ d.kind = .term ∨ d.kind = .flag →
        ¬ TypeFails scope kind (keptOf kind filters) := by
  refine ⟨⟨?_, ?_⟩, fun _ h => exists_first_failing h, fun kind d hd hkind => ?_⟩
  · rintro ⟨failure, h⟩
    obtain ⟨before, kind, after, htypes, -, hfails, -⟩ := exists_first_failing h
    refine ⟨kind, ?_, hfails⟩
    rw [htypes]
    exact List.mem_append_right before List.mem_cons_self
  · rintro ⟨kind, hkind, hfails⟩
    -- without a failure no type that is kept fails
    cases h : failureOf? (compileQuery filters scope settings) with
    | some failure => exact ⟨failure, failureOf?_eq_some_iff.mp h⟩
    | none =>
      rw [failureOf?_compileQuery, List.findSome?_eq_none_iff] at h
      exact absurd hfails (not_typeFails_of_groupStatement (h kind hkind))
  · have hnone : failureOf? (groupStatement kind (mergeGroup kind (keptOf kind filters)) scope
        settings) = none := failureOf?_of_kind hd hkind _
    exact not_typeFails_of_groupStatement hnone

/-- The bounds are wrong too, but the date range is seen first. -/
example :
    compileQuery
        [{ type := .daterange, q := some (.one "1900-01-01 TO *") },
          { type := .contentLength, q := some (.many ["1", "2", "3"]) },
          { type := .daterange, q := some (.many [" ", "1900", "1901"]) }] .search {} =
      .error { error := .withinRule "daterange" (.invalidDateRange "1900"),
               counted := some "daterange" } := by
  decide +kernel

end FilterAlgebra
