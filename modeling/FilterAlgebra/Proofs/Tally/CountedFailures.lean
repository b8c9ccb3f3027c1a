import FilterAlgebra.Proofs.Query.Failures
import FilterAlgebra.Tally

/-!
# Counted failures

The tally of failures is to grow by one under the name of a rule whenever a compilation fails in
that rule. One failure of a rule is not counted: that a filter of a numeric range has a list of the
wrong length, which is found before the rule is at work (`goesUncounted`). One call adds what it
should up to that (`failures_step`). Over a run of calls the tally therefore grows by the failures
in a rule less those of this kind, and by all of them where no list has a wrong length.
-/

namespace FilterAlgebra

/-- The rule in which an error occurred, if it occurred in one. -/
def FilterError.rule? : FilterError → Option Text
  | withinRule rule _ => some rule
  | _ => none

/-! ### What failures are counted under -/

section Groups

variable {scope : Namespace} {settings : Settings}

theorem counted_of_groupStatement {kind : FilterType} {members : List Filter} {failure : Failure}
    (h : groupStatement kind members scope settings = .error failure) :
    failure.counted = if kind.isNumericRange && members.any Filter.isMiscounted then none
      else failure.error.rule? := by
  have hfailure := failureOf?_eq_some_iff.mpr h
  cases hd : Descriptor.of? scope kind with
  | none =>
    rw [groupStatement, hd] at h
    cases h
    simp [FilterError.rule?]
  | some d =>
    cases hkind : d.kind with
    | dateRange =>
      rw [failureOf?_dateRanges hd hkind] at hfailure
      obtain ⟨value, -, rfl⟩ := Option.map_eq_some_iff.mp hfailure
      obtain rfl := (kind_eq_dateRange_iff hd).mp hkind
      rfl
    | numericRange =>
      have hnumeric : kind.isNumericRange = true := (kind_eq_numericRange_iff hd).mp hkind
      rw [failureOf?_numericRanges hd hkind] at hfailure
      cases hcount : members.find? Filter.isMiscounted with
      | some f =>
        -- a list of the wrong length, which no rule has seen
        have hany : members.any Filter.isMiscounted = true :=
          List.any_eq_true.mpr ⟨f, List.mem_of_find?_eq_some hcount, List.find?_some hcount⟩
        rw [hcount] at hfailure
        cases hfailure
        simp [hnumeric, hany]
      | none =>
        -- a range that its rule has rejected
        have hany : members.any Filter.isMiscounted = false := by
          simpa using List.find?_eq_none.mp hcount
        rw [hcount] at hfailure
        obtain ⟨value, -, rfl⟩ := Option.map_eq_some_iff.mp hfailure
        simp [hany, FilterError.rule?]
    | _ =>
      rw [failureOf?_of_kind hd (by simp [hkind])] at hfailure
      cases hfailure

end Groups

/-! ### Calls -/

/-- A call that compiles filters for the search engine. -/
structure EngineCall where
  filters : List Filter
  scope : Namespace
  settings : Settings
  /-- Whether the call asks for query parts, and not for one expression. -/
  inParts : Bool
  deriving DecidableEq, Repr

abbrev EngineAnswer := Except FilterError (Text ⊕ QueryParts)

def failsIn (rule : Text) : EngineAnswer → Bool
  | .ok _ => false
  | .error error => error.rule? = some rule

namespace EngineCall

def run (call : EngineCall) : Counted EngineAnswer := do
  if call.inParts then
    return (← Counted.query call.filters call.scope call.settings).map .inr
  else
    return (← Counted.expression call.filters call.scope call.settings).map .inl

/-- The filters of a call by type, as they are compiled. -/
def groups (call : EngineCall) : List (FilterType × List Filter) :=
  groupByType (if call.inParts then engineFilters call.filters else call.filters)

/-- The type that fails first, with its filters. -/
def failing? (call : EngineCall) : Option (FilterType × List Filter) :=
  call.groups.find? fun group => !(statementOf call.scope call.settings group).isOk

/-- Whether the type that fails first is a numeric range with a list of the wrong length. -/
def stopsAtBounds (call : EngineCall) : Bool :=
  call.failing?.any fun group => group.1.isNumericRange && group.2.any Filter.isMiscounted

def result (call : EngineCall) : Except Failure (Text ⊕ QueryParts) :=
  if call.inParts then (compileQuery call.filters call.scope call.settings).map .inr
  else (compileExpression call.filters call.scope call.settings).map .inl

theorem failureOf?_result (call : EngineCall) :
    failureOf? call.result =
      call.failing?.bind fun group => failureOf? (statementOf call.scope call.settings group) := by
  rw [failing?, ← failureOf?_mapM_eq_find?, result, groups]
  split
  · have htyped : ∀ group, failureOf? (typedStatementOf call.scope call.settings group) =
        failureOf? (statementOf call.scope call.settings group) := by
      intro group
      rw [typedStatementOf, failureOf?_map]
    rw [failureOf?_map, compileQuery_eq, failureOf?_map, failureOf?_mapM, failureOf?_mapM]
    simp only [htyped]
  · rw [failureOf?_map, compileExpression_eq, failureOf?_map]

theorem counted_of_result {call : EngineCall} {failure : Failure}
    (h : call.result = .error failure) :
    failure.counted = if call.stopsAtBounds then none else failure.error.rule? := by
  rw [← failureOf?_eq_some_iff, failureOf?_result] at h
  obtain ⟨group, hgroup, hfailure⟩ := Option.bind_eq_some_iff.mp h
  rw [counted_of_groupStatement (failureOf?_eq_some_iff.mp hfailure), stopsAtBounds, hgroup,
    Option.any_some]

end EngineCall

/-- Whether a call failed in a rule and is not counted, because it stopped at bounds. -/
def goesUncounted (rule : Text) (pair : EngineCall × EngineAnswer) : Bool :=
  failsIn rule pair.2 && pair.1.stopsAtBounds

namespace EngineCall

/-! ### One call and many -/

theorem fst_run (call : EngineCall) (t : Tally) :
    (call.run.run t).1 = call.result.mapError Failure.error := by
  unfold run result
  split
  · change ((compileQuery call.filters call.scope call.settings).mapError Failure.error).map
      Sum.inr = _
    cases compileQuery call.filters call.scope call.settings <;> rfl
  · change ((compileExpression call.filters call.scope call.settings).mapError Failure.error).map
      Sum.inl = _
    cases compileExpression call.filters call.scope call.settings <;> rfl

theorem failures_snd_run (call : EngineCall) (t : Tally) :
    (call.run.run t).2.failures = (t.addResult call.result).failures := by
  unfold run result
  split
  · change ((t.addCompilation .engine).addResult
      (compileQuery call.filters call.scope call.settings)).failures = _
    rcases compileQuery call.filters call.scope call.settings with ⟨error, - | rule⟩ | parts <;> rfl
  · change (t.addResult (compileExpression call.filters call.scope call.settings)).failures = _
    rcases compileExpression call.filters call.scope call.settings with
      ⟨error, - | rule⟩ | text <;> rfl

/-- **One call** adds one to the failures of a rule when it fails in it and does not stop at
bounds. -/
theorem failures_step (call : EngineCall) (t : Tally) (rule : Text) :
    (call.run.run t).2.failures rule +
        (if goesUncounted rule (call, (call.run.run t).1) then 1 else 0) =
      t.failures rule + if failsIn rule (call.run.run t).1 then 1 else 0 := by
  rw [goesUncounted, fst_run, failures_snd_run]
  cases hresult : call.result with
  | ok value => rfl
  | error failure =>
    have hcounted := counted_of_result hresult
    obtain ⟨error, counted⟩ := failure
    simp only at hcounted
    subst hcounted
    cases hbounds : call.stopsAtBounds with
    | true =>
      -- the call stops at bounds, and the tally stays as it is
      rw [Bool.and_true]
      rfl
    | false =>
      cases hrule : error.rule? with
      | none => simp [Tally.addResult, Except.mapError, failsIn, hrule]
      | some other =>
        by_cases hother : rule = other
        · -- the rule that failed, then any other rule
          simp [Tally.addResult, Tally.addFailure, Except.mapError, failsIn, hrule, hother]
        · have hne : other ≠ rule := fun h => hother h.symm
          simp [Tally.addResult, Tally.addFailure, Except.mapError, failsIn, hrule, hother, hne]

theorem run_cons (call : EngineCall) (calls : List EngineCall) (t : Tally) :
    ((call :: calls).mapM run).run t =
      (((call.run.run t).1 :: ((calls.mapM run).run (call.run.run t).2).1),
        ((calls.mapM run).run (call.run.run t).2).2) := by
  rw [List.mapM_cons]
  rfl

/-- The filters of a numeric range reach its rule as they were given. -/
theorem mem_filters_of_group {call : EngineCall} {group : FilterType × List Filter}
    (hgroup : group ∈ call.groups) (hrange : group.1.isNumericRange = true) {f : Filter}
    (hf : f ∈ group.2) : f ∈ call.filters ∧ f.type = group.1 := by
  rw [groups] at hgroup
  split at hgroup
  · rw [engineFilters, groupByType_aggregate, List.mem_map] at hgroup
    obtain ⟨kind, -, rfl⟩ := hgroup
    rw [mergeGroup_of_isNumericRange hrange] at hf
    refine ⟨?_, type_of_mem_keptOf hf⟩
    exact List.mem_of_mem_filter (List.mem_of_mem_filter hf)
  · exact mem_of_mem_groupBy hgroup hf

theorem stopsAtBounds_eq_false {call : EngineCall}
    (h : ∀ f ∈ call.filters, f.type.isNumericRange = true → f.isMiscounted = false) :
    call.stopsAtBounds = false := by
  cases hfailing : call.failing? with
  | none => rw [stopsAtBounds, hfailing, Option.any_none]
  | some group =>
    have hgroup : group ∈ call.groups := List.mem_of_find?_eq_some hfailing
    rw [stopsAtBounds, hfailing, Option.any_some, Bool.and_eq_false_iff]
    by_cases hrange : group.1.isNumericRange = true
    · right
      rw [List.any_eq_false]
      intro f hf
      obtain ⟨hmem, hkind⟩ := mem_filters_of_group hgroup hrange hf
      rw [h f hmem (by rw [hkind, hrange])]
      exact Bool.false_ne_true
    · left
      simpa using hrange

theorem failures_mapM_run (calls : List EngineCall) (t : Tally) (rule : Text) :
    ((calls.mapM run).run t).2.failures rule +
        (calls.zip ((calls.mapM run).run t).1).countP (goesUncounted rule) =
      t.failures rule + ((calls.mapM run).run t).1.countP (failsIn rule) := by
  -- Each call starts from the tally that the calls before it have left.
  induction calls generalizing t with
  | nil => rfl
  | cons call calls ih =>
    have hstep := failures_step call t rule
    have hrest := ih (call.run.run t).2
    rw [run_cons]
    simp only [List.zip_cons_cons, List.countP_cons]
    omega

end EngineCall

/-- **Counted failures.** Over a run of calls, the tally of a rule grows by the calls that fail in
the rule, less those that stop at a list of the wrong length. If no numeric range has such a list,
it grows by exactly the calls that fail in the rule. -/
theorem failures_run (calls : List EngineCall) (t : Tally) (rule : Text) :
    ∃ answers after, (calls.mapM EngineCall.run).run t = (answers, after) ∧
      after.failures rule + (calls.zip answers).countP (goesUncounted rule) =
        t.failures rule + answers.countP (failsIn rule) ∧
      ((∀ call ∈ calls, ∀ f ∈ call.filters,
          f.type.isNumericRange = true → f.isMiscounted = false) →
        after.failures rule = t.failures rule + answers.countP (failsIn rule)) := by
  have hrun := EngineCall.failures_mapM_run calls t rule
  refine ⟨_, _, rfl, hrun, ?_⟩
  intro hbounds
  have hnone : (calls.zip ((calls.mapM EngineCall.run).run t).1).countP (goesUncounted rule) =
      0 := by
    rw [List.countP_eq_zero]
    rintro ⟨call, answer⟩ hmem
    have hcall : call ∈ calls := (List.of_mem_zip hmem).1
    simp [goesUncounted, EngineCall.stopsAtBounds_eq_false (hbounds call hcall)]
  rw [hnone] at hrun
  exact hrun

/-- A value that is no date range, compiled in both ways, a type without a field, a newspaper. -/
def mixedCalls : List EngineCall :=
  let dates : Filter := { type := .daterange, q := some (.one "1900") }
  [{ filters := [dates], scope := .search, settings := {}, inParts := false },
    { filters := [dates], scope := .images, settings := {}, inParts := true },
    { filters := [{ type := .topic, q := some (.one "t") }, dates], scope := .images,
      settings := {}, inParts := false },
    { filters := [{ type := .newspaper, q := some (.one "GDL") }], scope := .search, settings := {},
      inParts := true }]

theorem failures_run_mixedCalls :
    (∀ call ∈ mixedCalls, ∀ f ∈ call.filters,
      f.type.isNumericRange = true → f.isMiscounted = false) ∧
    ∃ answers after, (mixedCalls.mapM EngineCall.run).run {} = (answers, after) ∧
      answers.countP (failsIn "daterange") = 2 ∧ after.failures "daterange" = 2 := by
  have hbounds : ∀ call ∈ mixedCalls, ∀ f ∈ call.filters,
      f.type.isNumericRange = true → f.isMiscounted = false := by decide
  refine ⟨hbounds, ?_⟩
  obtain ⟨answers, after, hrun, -, hcounted⟩ := failures_run mixedCalls {} "daterange"
  have hanswers : answers.countP (failsIn "daterange") = 2 := by
    have hfirst : answers = ((mixedCalls.mapM EngineCall.run).run {}).1 := by rw [hrun]
    rw [hfirst]
    decide +kernel
  refine ⟨answers, after, hrun, hanswers, ?_⟩
  rw [hcounted hbounds, hanswers]

def singleBoundCall : EngineCall where
  filters := [{ type := .contentLength, q := some (.many ["1"]) }]
  scope := .search
  settings := {}
  inParts := false

/-- A list of the wrong length fails in the rule of its type, and nothing is counted. -/
theorem failures_singleBoundCall_ne :
    failsIn "contentLength" (singleBoundCall.run.run {}).1 = true ∧
      (singleBoundCall.run.run {}).2.failures "contentLength" ≠
        ({} : Tally).failures "contentLength" + 1 := by
  decide +kernel

end FilterAlgebra
