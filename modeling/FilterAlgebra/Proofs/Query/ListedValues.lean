import FilterAlgebra.Client.Call
import FilterAlgebra.Proofs.Query.Congruence
import FilterAlgebra.Proofs.Query.Failures
import FilterAlgebra.Relational.Condition

/-!
# One value and a list of one

A filter gives one value bare or as a list of one. Calls, conditions and the normal form of a list
only look at the values (`Agrees`), so they cannot tell the two spellings apart, and compiling
cannot either, but for one kind of filter (`compilesAs_listedUnlessRange`): a list is the two bounds
of a numeric range or nothing. So a numeric range as a list of one is rejected, however the other
filters are spelled (`exists_miscounted`).
-/

namespace FilterAlgebra

namespace Filter

/-- The same filter with its value in a list, if it gives one value bare. -/
def listed (f : Filter) : Filter :=
  match f.q with
  | some (.one value) => { f with q := some (.many [value]) }
  | _ => f

/-- The same filter with its value in a list, unless it is a numeric range. -/
def listedUnlessRange (f : Filter) : Filter := if f.type.isNumericRange then f else f.listed

/-! ### What a filter is but for its spelling -/

/-- Two filters that differ at most in how they spell their values. -/
structure Agrees (f g : Filter) : Prop where
  type : g.type = f.type
  context : g.context = f.context
  op : g.op = f.op
  precision : g.precision = f.precision
  isSome : g.q.isSome = f.q.isSome
  rawValues : g.rawValues = f.rawValues

theorem agrees_listed (f : Filter) : f.Agrees f.listed := by
  obtain ⟨kind, context, op, precision, q⟩ := f
  rcases q with - | value | values
  · exact ⟨rfl, rfl, rfl, rfl, rfl, rfl⟩
  · exact ⟨rfl, rfl, rfl, rfl, rfl, rfl⟩
  · exact ⟨rfl, rfl, rfl, rfl, rfl, rfl⟩

theorem agrees_listedUnlessRange (f : Filter) : f.Agrees f.listedUnlessRange := by
  unfold listedUnlessRange
  split
  · exact ⟨rfl, rfl, rfl, rfl, rfl, rfl⟩
  · exact f.agrees_listed

theorem listed_listed (f : Filter) : f.listed.listed = f.listed := by
  obtain ⟨kind, context, op, precision, q⟩ := f
  rcases q with - | value | values <;> rfl

namespace Agrees

variable {f f' g g' : Filter}

theorem values (h : f.Agrees g) : g.values = f.values := by
  rw [Filter.values, Filter.values, h.rawValues]

theorem isExcluded (h : f.Agrees g) : g.isExcluded = f.isExcluded := by
  rw [Filter.isExcluded, Filter.isExcluded, h.context]

theorem isKept (h : f.Agrees g) : g.isKept = f.isKept := by
  rw [Filter.isKept, Filter.isKept, h.isSome, h.type]

theorem mergeOp (h : f.Agrees g) : g.mergeOp = f.mergeOp := by
  rw [Filter.mergeOp, Filter.mergeOp, ← length_rawValues, ← length_rawValues, h.op, h.rawValues]

/-- A merged filter has a list of its own, so nothing is left of the spelling. -/
theorem merge (h : f.Agrees g) (h' : f'.Agrees g') : g.merge g' = f.merge f' := by
  simp only [Filter.merge, h.mergeOp, h.type, h.context, h.precision, h.rawValues, h'.rawValues]

theorem keywordArgument (h : f.Agrees g) : g.keywordArgument? = f.keywordArgument? := by
  have hliteral : g.valueLiteral = f.valueLiteral := by
    funext value
    rw [valueLiteral, valueLiteral, h.type]
  have hargument : g.argument? = f.argument? := by
    simp only [argument?, rangeLiteral?, valuesLiteral?, hliteral, h.type, h.values, h.op,
      h.precision, h.isExcluded]
  rw [keywordArgument?, keywordArgument?, hargument, h.type]

theorem predicate (h : f.Agrees g) (column : Text) : g.predicate? column = f.predicate? column := by
  rw [predicate?, predicate?, h.values, h.isExcluded]

theorem filterStatement (h : f.Agrees g) (kind : ValueKind) (name : Text) (fields : List Text) :
    (kind.rule name).filterStatement fields g = (kind.rule name).filterStatement fields f := by
  have hvalue : (kind.rule name).valueStatement fields g =
      (kind.rule name).valueStatement fields f := by
    funext value
    rw [ValueKind.valueStatement_eq, ValueKind.valueStatement_eq, h.precision]
  rw [Rule.filterStatement, Rule.filterStatement, hvalue, h.values, h.isExcluded, h.op]

end Agrees

end Filter

/-! ### Lists of respelled filters -/

/-- Respells every filter of a list that is no numeric range. -/
def listedUnlessRanges (filters : List Filter) : List Filter :=
  filters.map Filter.listedUnlessRange

theorem listedUnlessRange_merge (f g : Filter) :
    (f.merge g).listedUnlessRange = f.merge g := by
  unfold Filter.listedUnlessRange
  split <;> rfl

theorem normalizesAlike_listedUnlessRange :
    Filter.NormalizesAlike fun f g => g = f.listedUnlessRange where
  type := by
    rintro f _ rfl
    exact f.agrees_listedUnlessRange.type
  context := by
    rintro f _ rfl
    exact f.agrees_listedUnlessRange.context
  isKept := by
    rintro f _ rfl
    exact f.agrees_listedUnlessRange.isKept
  mergeOp := by
    rintro f _ - rfl
    exact f.agrees_listedUnlessRange.mergeOp
  merge := by
    rintro f _ f' _ - - rfl rfl
    rw [f.agrees_listedUnlessRange.merge f'.agrees_listedUnlessRange, listedUnlessRange_merge]

/-! ### Compiling respelled filters -/

section Compiling

variable {scope : Namespace} {settings : Settings}

/-- A filter compiles as it does with its value in a list, unless it is a numeric range. -/
theorem compilesAs_listedUnlessRange (f : Filter) : f.CompilesAs scope f.listedUnlessRange := by
  have h := f.agrees_listedUnlessRange
  refine ⟨h.type, ?_⟩
  intro d hd name fields
  cases hkind : d.kind with
  | text => exact congrArg Except.ok (h.filterStatement .text name fields)
  | term => exact congrArg Except.ok (h.filterStatement .term name fields)
  | dateRange => exact congrArg Except.ok (h.filterStatement .dateRange name fields)
  | flag =>
    have hraised : raised f.listedUnlessRange = raised f := by
      simp only [raised, h.type, h.context, h.op, h.precision]
    simp only [ValueKind.stages, ValueKind.prepare, hraised]
  | numericRange =>
    rw [Filter.listedUnlessRange, if_pos ((kind_eq_numericRange_iff hd).mp hkind)]

theorem forall₂_listedUnlessRanges (filters : List Filter) :
    List.Forall₂ (fun f g => g = f.listedUnlessRange) filters (listedUnlessRanges filters) := by
  rw [listedUnlessRanges, List.forall₂_map_right_iff, List.forall₂_same]
  exact fun _ _ => rfl

theorem compileExpression_listedUnlessRanges (filters : List Filter) :
    compileExpression (listedUnlessRanges filters) scope settings =
      compileExpression filters scope settings := by
  apply compileExpression_congr
  apply (forall₂_listedUnlessRanges filters).imp
  rintro f _ rfl
  exact compilesAs_listedUnlessRange f

theorem compileQuery_listedUnlessRanges (filters : List Filter) :
    compileQuery (listedUnlessRanges filters) scope settings =
      compileQuery filters scope settings := by
  apply EndAlike.eq
  apply endAlike_compileQuery (fun _ => rfl) normalizesAlike_listedUnlessRange _
    (forall₂_listedUnlessRanges filters)
  rintro f _ rfl
  exact (compilesAs_listedUnlessRange f).compilesLike

end Compiling

/-! ### Ranges as lists of one -/

section Rejected

variable {scope : Namespace} {settings : Settings} {filters : List Filter} {f : Filter}
  (hf : f ∈ filters) (hrange : f.type.isNumericRange = true) (hcount : f.isMiscounted = true)

include hf hrange hcount

/-- A list that cannot be the bounds of a range fails its type, in any collection. -/
theorem exists_compileExpression_error :
    ∃ failure, compileExpression filters scope settings = .error failure :=
  exists_compileExpression_error_of_range hf hrange (.inl hcount)

theorem exists_compileQuery_error :
    ∃ failure, compileQuery filters scope settings = .error failure := by
  have hkept : f ∈ keptOf f.type filters := by
    have hsome : f.q.isSome = true := by
      unfold Filter.isMiscounted at hcount
      split at hcount
      · next hq => rw [hq]; rfl
      · cases hcount
    have hkind : f.type ≠ .wikidataId := by
      intro hkind
      rw [hkind] at hrange
      cases hrange
    simp [keptOf, keptFilters, hf, hkind, Filter.isKept, hsome]
  have hfails : TypeFails scope f.type (keptOf f.type filters) :=
    .inr (.inr ⟨hrange, f, hkept, .inl hcount⟩)
  cases h : failureOf? (compileQuery filters scope settings) with
  | some failure => exact ⟨failure, failureOf?_eq_some_iff.mp h⟩
  | none =>
    rw [failureOf?_compileQuery, List.findSome?_eq_none_iff] at h
    have htype : f.type ∈ keptTypes filters := mem_keptTypes_iff.mpr (List.ne_nil_of_mem hkept)
    exact absurd hfails (not_typeFails_of_groupStatement (h f.type htype))

end Rejected

/-! ### Some values in lists -/

/-- Some filters of the first list that give one value bare have it in a list in the second. -/
def SomeListed (filters others : List Filter) : Prop :=
  List.Forall₂ (fun f g => g = f ∨ g = f.listed) filters others

/-- The numeric ranges of both lists are the same. -/
def SameRanges (filters others : List Filter) : Prop :=
  List.Forall₂ (fun f g => f.type.isNumericRange = true → g = f) filters others

theorem filterMap_congr_of_someListed {α : Type} {filters others : List Filter}
    (h : SomeListed filters others) {result : Filter → Option α}
    (hresult : ∀ f, result f.listed = result f) :
    others.filterMap result = filters.filterMap result := by
  induction h with
  | nil => rfl
  | @cons f g filters others hfg _ ih =>
    have hsame : result g = result f := by
      rcases hfg with rfl | rfl
      · rfl
      · exact hresult f
    rw [List.filterMap_cons, List.filterMap_cons, ih, hsame]

theorem listedUnlessRanges_eq {filters others : List Filter} (h : SomeListed filters others)
    (hranges : SameRanges filters others) :
    listedUnlessRanges others = listedUnlessRanges filters := by
  induction h with
  | nil => rfl
  | @cons f g filters others hfg _ ih =>
    obtain ⟨hf, hrest⟩ := List.forall₂_cons.mp hranges
    have hspelling : g.listedUnlessRange = f.listedUnlessRange := by
      by_cases hrange : f.type.isNumericRange = true
      · rw [hf hrange]
      · rcases hfg with rfl | rfl
        · rfl
        · have hlisted : ¬f.listed.type.isNumericRange = true := by
            rwa [f.agrees_listed.type]
          rw [Filter.listedUnlessRange, if_neg hlisted, f.listed_listed, Filter.listedUnlessRange,
            if_neg hrange]
    have ih' := ih hrest
    simp only [listedUnlessRanges, List.map_cons] at ih' ⊢
    rw [hspelling, ih']

/-- Where a range differs, it has become a list of one. -/
theorem exists_miscounted {filters others : List Filter} (h : SomeListed filters others)
    (hranges : ¬SameRanges filters others) :
    ∃ g ∈ others, g.type.isNumericRange = true ∧ g.isMiscounted = true := by
  induction h with
  | nil => exact absurd List.Forall₂.nil hranges
  | @cons f g filters others hfg _ ih =>
    by_cases hf : f.type.isNumericRange = true → g = f
    · obtain ⟨g', hg', hrest⟩ := ih fun hrest => hranges (.cons hf hrest)
      exact ⟨g', List.mem_cons_of_mem g hg', hrest⟩
    · obtain ⟨hrange, hne⟩ := Classical.not_imp.mp hf
      rcases hfg with rfl | rfl
      · exact absurd rfl hne
      · refine ⟨f.listed, List.mem_cons_self, ?_, ?_⟩
        · rw [f.agrees_listed.type, hrange]
        · obtain ⟨kind, context, op, precision, q⟩ := f
          rcases q with - | value | values
          · exact absurd rfl hne
          · rfl
          · exact absurd rfl hne

/-- **One value and a list of one** are the same to calls and to conditions. They are the same to
the search engine too, as long as the numeric ranges are left alone; with a numeric range as a list
of one, nothing compiles. -/
theorem compile_listed {filters others : List Filter} (h : SomeListed filters others)
    (scope : Namespace) (settings : Settings) :
    (∀ resource function, compileCall resource function others =
      compileCall resource function filters) ∧
    (∀ kind column, exactMatch? others kind column = exactMatch? filters kind column) ∧
    (SameRanges filters others →
      compileExpression others scope settings = compileExpression filters scope settings ∧
      compileQuery others scope settings = compileQuery filters scope settings) ∧
    (¬SameRanges filters others →
      (∃ failure, compileExpression others scope settings = .error failure) ∧
      ∃ failure, compileQuery others scope settings = .error failure) := by
  refine ⟨fun resource function => ?_, fun kind column => ?_, fun hranges => ?_, fun hranges => ?_⟩
  · -- a call shows the values only
    have harguments : others.filterMap Filter.keywordArgument? =
        filters.filterMap Filter.keywordArgument? :=
      filterMap_congr_of_someListed h fun f => f.agrees_listed.keywordArgument
    rw [compileCall, compileCall, harguments]
  · -- and so does a condition
    have hpredicates : others.filterMap (fun f =>
          if decide (f.type = kind) then f.predicate? column else none) =
        filters.filterMap fun f =>
          if decide (f.type = kind) then f.predicate? column else none :=
      filterMap_congr_of_someListed h fun f => by
        rw [f.agrees_listed.type, f.agrees_listed.predicate]
    rw [exactMatch?, exactMatch?, List.filterMap_filter, List.filterMap_filter, hpredicates]
  · -- both lists become the same one when all values but those of ranges are listed
    rw [← compileExpression_listedUnlessRanges others, ← compileQuery_listedUnlessRanges others,
      listedUnlessRanges_eq h hranges, compileExpression_listedUnlessRanges,
      compileQuery_listedUnlessRanges]
    exact ⟨rfl, rfl⟩
  · -- a range as a list of one has one bound, and two are needed
    obtain ⟨g, hg, hrange, hcount⟩ := exists_miscounted h hranges
    exact ⟨exists_compileExpression_error hg hrange hcount,
      exists_compileQuery_error hg hrange hcount⟩

/-- A word, a range of lengths and two newspapers, all but one newspaper with one value. -/
def bareValues : List Filter :=
  [{ type := .string, q := some (.one "war") },
    { type := .contentLength, q := some (.one "1 TO 5") },
    { type := .newspaper, q := some (.one "GDL") },
    { type := .newspaper, q := some (.many ["JDG"]) }]

/-- The same filters, with the word and the newspaper in lists. -/
def listedValues : List Filter :=
  [{ type := .string, q := some (.many ["war"]) },
    { type := .contentLength, q := some (.one "1 TO 5") },
    { type := .newspaper, q := some (.many ["GDL"]) },
    { type := .newspaper, q := some (.many ["JDG"]) }]

theorem someListed_listedValues : SomeListed bareValues listedValues :=
  .cons (.inr rfl) (.cons (.inl rfl) (.cons (.inr rfl) (.cons (.inl rfl) .nil)))

theorem sameRanges_listedValues : SameRanges bareValues listedValues :=
  .cons (fun h => by cases h) (.cons (fun _ => rfl)
    (.cons (fun h => by cases h) (.cons (fun _ => rfl) .nil)))

theorem compile_listed_newspapers :
    SomeListed bareValues listedValues ∧ SameRanges bareValues listedValues ∧
      compileQuery listedValues .search {} = compileQuery bareValues .search {} :=
  ⟨someListed_listedValues, sameRanges_listedValues,
    ((compile_listed someListed_listedValues .search {}).2.2.1 sameRanges_listedValues).2⟩

/-- A range of lengths as one value. -/
def lengthRange : Filter := { type := .contentLength, q := some (.one "1 TO 5") }

/-- A numeric range as a list of one is not the same as the range. -/
theorem compile_listed_lengthRange_ne :
    compileExpression [lengthRange.listed] .search {} ≠ compileExpression [lengthRange] .search {} ∧
      compileQuery [lengthRange.listed] .search {} ≠ compileQuery [lengthRange] .search {} := by
  decide +kernel

end FilterAlgebra
