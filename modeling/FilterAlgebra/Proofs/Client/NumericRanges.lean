import FilterAlgebra.Proofs.Client.Calls
import FilterAlgebra.Proofs.Query.ValuelessFilters
import FilterAlgebra.Proofs.Range.Forms
import FilterAlgebra.Proofs.Range.Splitting

/-!
# Numeric ranges in calls and in expressions

A numeric range is one clause of an expression and one pair of bounds in a call, and both should
show the same bounds. They come to them on different ways: an expression is made of the range after
two bounds have been joined to one text (`exists_bounds_of_compileExpression`), a call of the two
bounds as they were given (`exists_callBounds`). The two bounds are those of the joined text
(`trim_eq_of_numericRangeBounds?`), except when the first of two bounds begins with a bracket and
the second ends with one. Once they are joined these are the brackets of the range, and only the
call still has them (`shownBounds`).
-/

namespace FilterAlgebra

/-! ### Ranges of an expression -/

section Range

variable {low high : Text}

theorem numericRangeBounds?_eq_some {value : Text}
    (h : numericRangeBounds? value = some (low, high)) :
    splitRange? value = some (low, high) ∧ (readNumericBound? low).isSome = true ∧
      (readNumericBound? high).isSome = true := by
  unfold numericRangeBounds? at h
  split at h
  · cases h
  · next hsplit =>
    split at h
    · next hlow hhigh =>
      split at h
      · cases h
      · cases h
        rw [hlow, hhigh]
        exact ⟨hsplit, rfl, rfl⟩
    · cases h

theorem isBlank_of_isSome_readNumericBound? {s : Text} (h : (readNumericBound? s).isSome = true) :
    ∀ c ∈ s, isBlank c = false := by
  obtain ⟨bound, hbound⟩ := Option.isSome_iff_exists.mp h
  intro c hc
  rcases chars_of_readNumericBound? hbound c hc with rfl | hliteral
  · decide
  · exact isBlank_of_isLiteralChar hliteral

/-- A bound that is read contains no letter of the separator. -/
theorem ne_separator_of_isSome_readNumericBound? {s : Text}
    (h : (readNumericBound? s).isSome = true) : s ≠ ['T', 'O'] := by
  obtain ⟨bound, hbound⟩ := Option.isSome_iff_exists.mp h
  rintro rfl
  have hletter := chars_of_readNumericBound? hbound 'T' List.mem_cons_self
  revert hletter
  decide

/-- A range in brackets tells its bounds, if there is no space in them. -/
theorem rangeText_inj {first last : Text} (hlow : ' ' ∉ low) (hhigh : ' ' ∉ high)
    (h : rangeText first last = rangeText low high) : first = low ∧ last = high := by
  have hinner : first ++ rangeSeparator ++ last = low ++ rangeSeparator ++ high :=
    List.append_cancel_right (List.cons.inj h).2
  -- the two spaces of the separator are all there are
  have hspaces := congrArg (List.count ' ') hinner
  simp only [List.count_append, List.count_eq_zero.mpr hlow,
    List.count_eq_zero.mpr hhigh] at hspaces
  have hfirst : ' ' ∉ first := List.count_eq_zero.mp (by omega)
  have hparts := congrArg (Text.splitOnce? rangeSeparator) hinner
  rw [splitOnce?_rangeSeparator hfirst, splitOnce?_rangeSeparator hlow, Option.some_inj,
    Prod.mk.injEq] at hparts
  exact hparts

end Range

/-! ### The clause of a numeric range -/

section Clause

variable {f : Filter} {scope : Namespace} {settings : Settings} {field : Text}

/-- The field of a numeric range is the only one of its type. Its first letter tells it from a
negation. -/
theorem Descriptor.exists_field {d : Descriptor} (hrange : f.type.isNumericRange = true)
    (hd : Descriptor.of? scope f.type = some d) :
    ∃ field, d = onFields .numericRange [field] ∧ field.head? = some 'c' := by
  generalize f.type = kind at hrange hd
  cases kind <;> cases scope <;> cases hd <;> first | exact ⟨_, rfl, by decide⟩ | cases hrange

theorem joinBounds_isExcluded {g : Filter} (h : joinBounds f = .ok g) :
    g.isExcluded = f.isExcluded := by
  unfold joinBounds at h
  split at h <;> cases h <;> rfl

/-- A filter with a value that can be prepared gives a range. -/
theorem exists_rangeValue {g : Filter} (h : joinBounds f = .ok g) (hwild : f.isWildcard = false) :
    ∃ value, f.rangeValue? = some value := by
  obtain ⟨kind, context, op, precision, q⟩ := f
  rcases q with - | value | values
  · cases hwild
  · -- one value is the range itself
    have hblank : Text.isBlankText value = false := by
      simpa [Filter.isWildcard, Filter.values, Filter.rawValues, FilterValue.toList] using hwild
    exact ⟨value, by simp [Filter.rangeValue?, hblank]⟩
  · rcases values with - | ⟨low, - | ⟨high, - | ⟨next, rest⟩⟩⟩
    · cases hwild
    · -- of the other lists only two bounds can be prepared
      cases h
    · exact ⟨_, rfl⟩
    · cases h

/-- A range is one clause in the one field, negated where the filter is excluded. -/
theorem stages_of_joinBounds {g : Filter} {value : Text} (h : joinBounds f = .ok g)
    (hvalue : f.rangeValue? = some value) (name : Text) :
    ValueKind.numericRange.stages name [field] f =
      .ok ((numericRangeValue value).map fun form => .group (g.op.getD .or) f.isExcluded
        [.group .or false [.clause (field ++ ':' :: form)]]) := by
  have hvalues : g.values = [value] := by
    rw [values_of_joinBounds h, hvalue]
    rfl
  have hprepare : ValueKind.numericRange.prepare f = .ok g := h
  rw [ValueKind.stages, hprepare]
  apply congrArg Except.ok
  rw [Rule.filterStatement, hvalues]
  simp only
  have hform : ValueKind.numericRange.queryForm g.precision value = numericRangeValue value := rfl
  rw [mapM_cons_eq, ValueKind.valueStatement_eq, joinBounds_isExcluded h, hform]
  cases numericRangeValue value <;> rfl

/-- The expression of a numeric range is one clause, which shows the bounds of the range that the
filter gives. -/
theorem exists_bounds_of_compileExpression {text : Text}
    (hd : Descriptor.of? scope f.type = some (.onFields .numericRange [field]))
    (hwild : f.isWildcard = false) (h : compileExpression [f] scope settings = .ok text) :
    ∃ value low high, f.rangeValue? = some value ∧
      numericRangeBounds? value = some (low, high) ∧
      text = Statement.negatedText f.isExcluded (field ++ ':' :: rangeText low high) := by
  have hstages : compileExpression [f] scope settings =
      (conjunctionOf f.type.name
        ([f].mapM (ValueKind.numericRange.stages f.type.name [field]))).map
          (Statement.render settings.universalQuery) := by
    rw [compileExpression_singleton, groupStatement_eq_stages hd]
    rfl
  rw [hstages, mapM_cons_eq] at h
  cases hprepared : joinBounds f with
  | error e =>
    -- what cannot be prepared gives no expression
    have hfails : ValueKind.numericRange.stages f.type.name [field] f = .error e := by
      change (joinBounds f).map _ = _
      rw [hprepared]
      rfl
    rw [hfails] at h
    cases h
  | ok g =>
    -- the range that has been prepared has to be read as one
    obtain ⟨value, hvalue⟩ := exists_rangeValue hprepared hwild
    rw [stages_of_joinBounds hprepared hvalue, numericRangeValue] at h
    cases hbounds : numericRangeBounds? value with
    | none =>
      rw [hbounds] at h
      cases h
    | some bounds =>
      rw [hbounds] at h
      exact ⟨value, bounds.1, bounds.2, hvalue, hbounds, (Except.ok.inj h).symm⟩

end Clause

/-! ### Bounds in a call -/

/-- Two bounds in parentheses. -/
def tupleText (low high : Text) : Text := '(' :: (low ++ ", " ++ high ++ [')'])

/-- A bound as it was written, `None` where it is open. -/
def boundText (s : Text) : Text := if s = ['*'] then "None" else s

theorem boundLiteral_of_isSome {raw s : Text} (htrim : Text.trim raw = s)
    (h : (readNumericBound? s).isSome = true) : boundLiteral raw = boundText s := by
  by_cases hopen : s = ['*']
  · simp [boundLiteral, boundText, htrim, hopen]
  · have hnumber : (Binary64.readFinite? s).isSome = true := by
      simpa [readNumericBound?, hopen] using h
    simp [boundLiteral, boundText, htrim, hopen, hnumber]

/-- A text with a character that no number has is a string literal. -/
theorem boundLiteral_of_mem {raw : Text} {c : Char} (hmem : c ∈ Text.trim raw)
    (hopen : c ≠ '*') (hliteral : isLiteralChar c = false) :
    boundLiteral raw = stringLiteral (Text.trim raw) := by
  have hstar : Text.trim raw ≠ ['*'] := by
    intro hstar
    rw [hstar, List.mem_singleton] at hmem
    exact hopen hmem
  have hnumber : Binary64.readFinite? (Text.trim raw) = none := by
    rw [Option.eq_none_iff_forall_ne_some]
    intro x hx
    rw [isLiteralChar_of_readFinite? hx c hmem] at hliteral
    cases hliteral
  simp [boundLiteral, hstar, hnumber]

theorem FilterType.isFlag_of_isNumericRange {kind : FilterType} (h : kind.isNumericRange = true) :
    kind.isFlag = false := by
  cases kind <;> first | rfl | cases h

namespace Filter

variable {f : Filter}

/-- The two bounds that a call shows of a numeric range, before they are taken for numbers. -/
def callBounds? (f : Filter) : Option (Text × Text) :=
  match f.values with
  | [low, high] => some (low, high)
  | [value] => splitRange? value
  | _ => none

/-- Two bounds in a list, if the first begins with a bracket and the second ends with one. -/
def bracketedBounds? (f : Filter) : Option (Text × Text) :=
  match f.q with
  | some (.many [first, last]) =>
    if (Text.trim first).head? = some '[' ∧ (Text.trim last).getLast? = some ']' then
      some (Text.trim first, Text.trim last)
    else none
  | _ => none

/-- What a call shows of a filter whose clause has the bounds `low` and `high`. -/
def shownBounds (f : Filter) (low high : Text) : Text :=
  match f.bracketedBounds? with
  | some (first, last) => tupleText (stringLiteral first) (stringLiteral last)
  | none => tupleText (boundText low) (boundText high)

theorem rangeLiteral?_eq (f : Filter) :
    f.rangeLiteral? = f.callBounds?.map fun bounds => boundsLiteral bounds.1 bounds.2 := by
  unfold rangeLiteral? callBounds?
  rcases f.values with - | ⟨low, - | ⟨high, - | ⟨next, rest⟩⟩⟩ <;> rfl

theorem exists_keyword_of_isNumericRange (hrange : f.type.isNumericRange = true) :
    ∃ keyword, f.type.keyword? = some keyword := by
  generalize f.type = kind at hrange
  cases kind <;> first | cases hrange; done | exact ⟨_, rfl⟩

/-- The argument of a numeric range whose bounds have the given texts. -/
def rangeArgument (f : Filter) (tuple : Text) : Text :=
  f.type.keyword?.getD [] ++
    '=' :: negatedText f.isExcluded (fuzzyText (decide (f.precision = some .fuzzy)) tuple)

theorem keywordArgument?_of_isNumericRange (hrange : f.type.isNumericRange = true) :
    f.keywordArgument? =
      f.callBounds?.map fun bounds => f.rangeArgument (boundsLiteral bounds.1 bounds.2) := by
  obtain ⟨keyword, hkeyword⟩ := exists_keyword_of_isNumericRange hrange
  have hflag := FilterType.isFlag_of_isNumericRange hrange
  simp only [keywordArgument?, hkeyword, argument?, hflag, hrange, rangeLiteral?_eq, rangeArgument]
  cases f.callBounds? with
  | none => rfl
  | some bounds =>
    simp only [Bool.false_eq_true, if_false, if_true, Option.map_some, Option.getD_some,
      negatedText, fuzzyText, decide_eq_true_eq]

theorem values_of_many {first last : Text} (hq : f.q = some (.many [first, last]))
    (hfirst : Text.trim first ≠ []) (hlast : Text.trim last ≠ []) : f.values = [first, last] := by
  rw [ne_eq, Text.trim_eq_nil_iff, Bool.not_eq_true] at hfirst hlast
  simp [values, rawValues, FilterValue.toList, hq, hfirst, hlast]

section Shown

variable {value low high : Text}

theorem boundsLiteral_of_isSome {first last : Text} (hfirst : Text.trim first = low)
    (hlast : Text.trim last = high) (hlow : (readNumericBound? low).isSome = true)
    (hhigh : (readNumericBound? high).isSome = true) :
    boundsLiteral first last = tupleText (boundText low) (boundText high) := by
  rw [boundsLiteral, tupleText, boundLiteral_of_isSome hfirst hlow,
    boundLiteral_of_isSome hlast hhigh]

theorem boundsLiteral_of_brackets {first last : Text} (hfirst : (Text.trim first).head? = some '[')
    (hlast : (Text.trim last).getLast? = some ']') :
    boundsLiteral first last =
      tupleText (stringLiteral (Text.trim first)) (stringLiteral (Text.trim last)) := by
  rw [boundsLiteral, tupleText,
    boundLiteral_of_mem (List.mem_of_mem_head? hfirst) (by decide) (by decide),
    boundLiteral_of_mem (List.mem_of_mem_getLast? hlast) (by decide) (by decide)]

/-- Joined bounds are the bounds of their range, unless they brought brackets along. -/
theorem trim_eq_of_numericRangeBounds? {first last : Text}
    (h : numericRangeBounds? (Text.trim first ++ rangeSeparator ++ Text.trim last) =
      some (low, high))
    (hbrackets : ¬((Text.trim first).head? = some '[' ∧ (Text.trim last).getLast? = some ']')) :
    Text.trim first = low ∧ Text.trim last = high := by
  obtain ⟨hsplit, hlow, hhigh⟩ := numericRangeBounds?_eq_some h
  obtain ⟨hlowNe, hhighNe, -⟩ := bounds_of_splitRange? hsplit
  have hwords := splitRange?_joined hsplit
    (Text.words_of_word hlowNe (isBlank_of_isSome_readNumericBound? hlow))
    (Text.words_of_word hhighNe (isBlank_of_isSome_readNumericBound? hhigh))
    (ne_separator_of_isSome_readNumericBound? hlow) (ne_separator_of_isSome_readNumericBound? hhigh)
  rcases hwords with hbounds | ⟨⟨t, hfirst⟩, ⟨t', hlast⟩⟩
  · exact hbounds
  · exact absurd ⟨by rw [hfirst]; rfl, by rw [hlast, List.getLast?_concat]⟩ hbrackets

theorem exists_callBounds_of_one (hq : f.q = some (.one value))
    (hblank : Text.isBlankText value = false)
    (hbounds : numericRangeBounds? value = some (low, high)) :
    ∃ bounds, f.callBounds? = some bounds ∧
      boundsLiteral bounds.1 bounds.2 = f.shownBounds low high := by
  obtain ⟨hsplit, hlow, hhigh⟩ := numericRangeBounds?_eq_some hbounds
  have hvalues : f.values = [value] := by
    simp [values, rawValues, FilterValue.toList, hq, hblank]
  have htrim : ∀ {s : Text}, (readNumericBound? s).isSome = true → Text.trim s = s :=
    fun h => Text.trim_of_forall (isBlank_of_isSome_readNumericBound? h)
  refine ⟨(low, high), by rw [callBounds?, hvalues]; exact hsplit, ?_⟩
  simp only [shownBounds, bracketedBounds?, hq]
  exact boundsLiteral_of_isSome (htrim hlow) (htrim hhigh) hlow hhigh

theorem exists_callBounds_of_many {first last : Text} (hq : f.q = some (.many [first, last]))
    (hbounds : numericRangeBounds? (Text.trim first ++ rangeSeparator ++ Text.trim last) =
      some (low, high)) :
    ∃ bounds, f.callBounds? = some bounds ∧
      boundsLiteral bounds.1 bounds.2 = f.shownBounds low high := by
  by_cases hbrackets : (Text.trim first).head? = some '[' ∧ (Text.trim last).getLast? = some ']'
  · -- both brackets stay with their bounds, which makes strings of them
    have hvalues : f.values = [first, last] := by
      apply values_of_many hq
      · exact List.ne_nil_of_mem (List.mem_of_mem_head? hbrackets.1)
      · exact List.ne_nil_of_mem (List.mem_of_mem_getLast? hbrackets.2)
    refine ⟨(first, last), by rw [callBounds?, hvalues], ?_⟩
    simp only [shownBounds, bracketedBounds?, hq, if_pos hbrackets]
    exact boundsLiteral_of_brackets hbrackets.1 hbrackets.2
  · -- the bounds of the range are the two that were given
    obtain ⟨hsplit, hlow, hhigh⟩ := numericRangeBounds?_eq_some hbounds
    obtain ⟨hfirst, hlast⟩ := trim_eq_of_numericRangeBounds? hbounds hbrackets
    obtain ⟨hlowNe, hhighNe, -⟩ := bounds_of_splitRange? hsplit
    have hvalues : f.values = [first, last] :=
      values_of_many hq (by rwa [hfirst]) (by rwa [hlast])
    refine ⟨(first, last), by rw [callBounds?, hvalues], ?_⟩
    simp only [shownBounds, bracketedBounds?, hq, if_neg hbrackets]
    exact boundsLiteral_of_isSome hfirst hlast hlow hhigh

/-- A call shows the bounds of the clause, or two bounds with their brackets. -/
theorem exists_callBounds (hvalue : f.rangeValue? = some value)
    (hbounds : numericRangeBounds? value = some (low, high)) :
    ∃ bounds, f.callBounds? = some bounds ∧
      boundsLiteral bounds.1 bounds.2 = f.shownBounds low high := by
  unfold rangeValue? at hvalue
  split at hvalue
  · next one hq =>
    split at hvalue
    · cases hvalue
    · next hblank =>
      cases hvalue
      exact exists_callBounds_of_one hq (Bool.eq_false_of_not_eq_true hblank) hbounds
  · next first last hq =>
    cases hvalue
    exact exists_callBounds_of_many hq hbounds
  · cases hvalue

end Shown

end Filter

/-! ### The two targets -/

/-- A clause tells whether it is negated, as no field of a range begins like a negation. -/
theorem clause_inj {field low high first last : Text} {negated excluded : Bool}
    (hfield : field.head? = some 'c') (hlow : ' ' ∉ low) (hhigh : ' ' ∉ high)
    (h : Statement.negatedText negated (field ++ ':' :: rangeText first last) =
      Statement.negatedText excluded (field ++ ':' :: rangeText low high)) :
    negated = excluded ∧ first = low ∧ last = high := by
  obtain ⟨rest, rfl⟩ : ∃ rest, field = 'c' :: rest := by
    have hne : field ≠ [] := List.ne_nil_of_mem (List.mem_of_mem_head? hfield)
    obtain ⟨c, rest, rfl⟩ := List.exists_cons_of_ne_nil hne
    exact ⟨rest, by rw [Option.some.inj hfield]⟩
  have hclause : ∀ {s t : Text}, ('c' :: rest) ++ ':' :: s = ('c' :: rest) ++ ':' :: t → s = t :=
    fun h => (List.cons.inj (List.append_cancel_left h)).2
  cases negated <;> cases excluded
  · exact ⟨rfl, rangeText_inj hlow hhigh (hclause h)⟩
  · -- a negation begins with another letter than a field of a range
    cases (List.cons.inj h).1
  · cases (List.cons.inj h).1
  · exact ⟨rfl, rangeText_inj hlow hhigh (hclause (List.append_cancel_left h))⟩

section Targets

variable {f : Filter} {scope : Namespace} {settings : Settings} {d : Descriptor}
  {field low high : Text} {negated : Bool}

/-- Without a value there is no clause: the list of blanks that is rejected is no exception. -/
theorem eq_universal_of_isWildcard {text : Text} (hrange : f.type.isNumericRange = true)
    (hd : Descriptor.of? scope f.type = some d) (hwild : f.isWildcard = true)
    (h : compileExpression [f] scope settings = .ok text) :
    text = Statement.negatedText f.isExcluded settings.universalQuery := by
  cases hbounds : f.listsBounds with
  | true =>
    obtain ⟨failure, hfailure, -⟩ := compileExpression_of_blankBounds hd hwild hbounds
    cases hfailure.symm.trans h
  | false =>
    have hflag := FilterType.isFlag_of_isNumericRange hrange
    exact Except.ok.inj (h.symm.trans (compileExpression_of_isWildcard hd hflag hwild hbounds))

/-- **Numeric ranges in both targets.** When a filter of a numeric range with a value is compiled to
a clause, every call shows the bounds of the clause without quotes, `None` where one is open, behind
a tilde exactly where the clause is negated. The one exception are two bounds of which the first
begins with a bracket and the second ends with one: the clause has no brackets but its own, and
calls show both as strings. A filter without a value is compiled to the universal token, and no call
shows it. -/
theorem compileCall_numericRange (hrange : f.type.isNumericRange = true)
    (hd : Descriptor.of? scope f.type = some d)
    (hfield : field ∈ d.fields.expanded settings.languages)
    (h : compileExpression [f] scope settings =
      .ok (Statement.negatedText negated (field ++ ':' :: rangeText low high))) :
    (f.isWildcard = false →
      negated = f.isExcluded ∧ ∃ keyword, f.type.keyword? = some keyword ∧
        ∀ resource function before after,
          compileCall resource function (before ++ f :: after) =
            ("impresso." ++ resource ++ '.' :: function) ++
              argumentsText (before.filterMap Filter.keywordArgument? ++
                (keyword ++ '=' :: negatedText negated
                  (fuzzyText (decide (f.precision = some .fuzzy)) (f.shownBounds low high))) ::
                after.filterMap Filter.keywordArgument?)) ∧
    (f.isWildcard = true →
      Statement.negatedText negated (field ++ ':' :: rangeText low high) =
        Statement.negatedText f.isExcluded settings.universalQuery ∧
      ∀ resource function before after,
        compileCall resource function (before ++ f :: after) =
          compileCall resource function (before ++ after)) := by
  obtain ⟨field', rfl, hletter⟩ := Descriptor.exists_field hrange hd
  obtain rfl : field = field' := List.mem_singleton.mp hfield
  constructor
  · intro hwild
    -- the clause and the call have their bounds from the same values
    obtain ⟨value, low', high', hvalue, hbounds, htext⟩ :=
      exists_bounds_of_compileExpression hd hwild h
    obtain ⟨-, hlow, hhigh⟩ := numericRangeBounds?_eq_some hbounds
    obtain ⟨rfl, rfl, rfl⟩ := clause_inj hletter
      (notMem_space_of_isBlank (isBlank_of_isSome_readNumericBound? hlow))
      (notMem_space_of_isBlank (isBlank_of_isSome_readNumericBound? hhigh)) htext
    obtain ⟨keyword, hkeyword⟩ := Filter.exists_keyword_of_isNumericRange hrange
    obtain ⟨bounds, hcall, hshown⟩ := Filter.exists_callBounds hvalue hbounds
    have hargument := Filter.keywordArgument?_of_isNumericRange hrange
    rw [hcall, Option.map_some, hshown, Filter.rangeArgument, hkeyword] at hargument
    refine ⟨rfl, keyword, hkeyword, ?_⟩
    intro resource function before after
    rw [compileCall_eq, List.filterMap_append, List.filterMap_cons_some hargument]
    rfl
  · intro hwild
    -- without values there is neither a clause nor an argument
    refine ⟨eq_universal_of_isWildcard hrange hd hwild h, ?_⟩
    have hargument : f.keywordArgument? = none := by
      rw [Filter.keywordArgument?_of_isNumericRange hrange, Filter.callBounds?,
        Filter.values_of_isWildcard hwild]
      rfl
    intro resource function before after
    rw [compileCall_eq, compileCall_eq, List.filterMap_append, List.filterMap_append,
      List.filterMap_cons_none hargument]

/-- Long articles that are not wanted, with blanks around the bounds and an open one. -/
def longArticles : Filter :=
  { type := .contentLength, context := .excluded, precision := some .fuzzy,
    q := some (.many [" 1e3", "* "]) }

theorem compileCall_numericRange_longArticles :
    longArticles.type.isNumericRange = true ∧
      (∃ d, Descriptor.of? .search longArticles.type = some d ∧
        "content_length_i".toList ∈ d.fields.expanded []) ∧
      compileExpression [longArticles] .search {} =
        .ok (Statement.negatedText true ("content_length_i" ++ ':' :: rangeText "1e3" "*")) ∧
      compileCall "search" "find" [longArticles] =
        "impresso.search.find(\n\tcontent_length=~Fuzzy((1e3, None))\n)" := by
  have hd : Descriptor.of? .search longArticles.type =
      some (.onFields .numericRange ["content_length_i"]) := rfl
  have hclause : compileExpression [longArticles] .search {} =
      .ok (Statement.negatedText true ("content_length_i" ++ ':' :: rangeText "1e3" "*")) := by
    decide +kernel
  have htargets := (compileCall_numericRange rfl hd (List.mem_singleton_self _) hclause).1
    (by decide +kernel)
  obtain ⟨-, keyword, hkeyword, hcall⟩ := htargets
  obtain rfl := Option.some.inj hkeyword
  exact ⟨rfl, ⟨_, hd, List.mem_singleton_self _⟩, hclause, hcall "search" "find" [] []⟩

/-- Two bounds with the brackets of a range. -/
def bracketedLengths : Filter := { type := .contentLength, q := some (.many ["[1", "5]"]) }

/-- The bounds of a clause need not be those of the call: brackets stay with bounds in a list. -/
theorem compileCall_bracketedLengths_ne :
    bracketedLengths.type.isNumericRange = true ∧
      compileExpression [bracketedLengths] .search {} =
        .ok ("content_length_i" ++ ':' :: rangeText "1" "5") ∧
      compileCall "search" "find" [bracketedLengths] ≠
        "impresso.search.find(\n\tcontent_length=(1, 5)\n)" := by
  decide +kernel

end Targets

end FilterAlgebra
