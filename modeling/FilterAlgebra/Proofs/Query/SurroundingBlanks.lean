import FilterAlgebra.Proofs.Query.Congruence
import FilterAlgebra.Proofs.Range.Splitting

/-!
# Blanks around values

Blanks at the start and the end of a value have no say in what it compiles to. Free text and terms
are trimmed before they are shaped, ranges before their brackets are looked for and again around
their bounds, and bounds given as two values before they are joined. So filters that differ in such
blanks only (`Filter.Repadded`) compile alike (`compilesLike`), and lists of them succeed together,
with the same result. Their failures can differ, because the error of a range quotes its value.
-/

namespace FilterAlgebra

/-! ### Texts with other blanks around them -/

/-- Whether two texts differ at most in the blanks around them. -/
def Text.Repadded (v w : Text) : Prop := ∃ core, IsPadded core v ∧ IsPadded core w

namespace Text.Repadded

variable {v w : Text}

theorem trim_eq (h : v.Repadded w) : trim w = trim v := by
  obtain ⟨core, hv, hw⟩ := h
  rw [hv.trim_eq, hw.trim_eq]

theorem of_trim_eq (h : trim w = trim v) : v.Repadded w := by
  refine ⟨trim v, isPadded_trim v, ?_⟩
  rw [← h]
  exact isPadded_trim w

theorem isBlankText_eq (h : v.Repadded w) : isBlankText w = isBlankText v := by
  rw [Bool.eq_iff_iff, ← trim_eq_nil_iff, ← trim_eq_nil_iff, h.trim_eq]

/-- Ranges are trimmed before they are split. -/
theorem splitRange?_eq (h : v.Repadded w) : splitRange? w = splitRange? v := by
  rw [splitRange?, splitRange?, h.trim_eq]

end Text.Repadded

/-! ### Filters with other blanks around their values -/

/-- Whether two fields give as many values in the same way, with other blanks around them. -/
inductive FilterValue.Repadded : FilterValue → FilterValue → Prop
  | one {v w : Text} (h : v.Repadded w) : Repadded (.one v) (.one w)
  | many {vs ws : List Text} (h : List.Forall₂ Text.Repadded vs ws) :
      Repadded (.many vs) (.many ws)

/-- Whether two filters differ at most in the blanks around their values. -/
structure Filter.Repadded (f g : Filter) : Prop where
  type : g.type = f.type
  context : g.context = f.context
  op : g.op = f.op
  precision : g.precision = f.precision
  q : Option.Rel FilterValue.Repadded f.q g.q

namespace Filter.Repadded

variable {f f' g g' : Filter}

theorem rawValues (h : f.Repadded g) : List.Forall₂ Text.Repadded f.rawValues g.rawValues := by
  obtain ⟨_, _, _, _, q⟩ := f
  obtain ⟨_, _, _, _, q'⟩ := g
  have hq : Option.Rel FilterValue.Repadded q q' := h.q
  cases hq with
  | none => exact .nil
  | some hq =>
    cases hq with
    | one hvalue => exact .cons hvalue .nil
    | many hvalues => exact hvalues

theorem values (h : f.Repadded g) : List.Forall₂ Text.Repadded f.values g.values := by
  apply List.rel_filter _ h.rawValues
  intro v w hvw
  simp only [hvw.isBlankText_eq]

theorem isKept (h : f.Repadded g) : g.isKept = f.isKept := by
  obtain ⟨kind, _, _, _, q⟩ := f
  obtain ⟨_, _, _, _, q'⟩ := g
  obtain ⟨rfl, -, -, -, hq⟩ := h
  cases hq <;> rfl

theorem mergeOp (h : f.Repadded g) : g.mergeOp = f.mergeOp := by
  rw [Filter.mergeOp, Filter.mergeOp, ← length_rawValues, ← length_rawValues,
    h.rawValues.length_eq, h.op]

theorem merge (h : f.Repadded g) (h' : f'.Repadded g') : (f.merge f').Repadded (g.merge g') where
  type := h.type
  context := h.context
  op := h.mergeOp
  precision := h.precision
  q := .some (.many (List.rel_append h.rawValues h'.rawValues))

end Filter.Repadded

theorem Filter.normalizesAlike_repadded : NormalizesAlike Repadded where
  type h := h.type
  context h := h.context
  isKept h := h.isKept
  mergeOp _ h := h.mergeOp
  merge _ _ h h' := h.merge h'

/-! ### Stages -/

/-- Any two failures: the errors of a range quote its value, so nothing more is kept of them. -/
def AnyFailures (_ _ : Failure) : Prop := True

theorem withinRules_anyFailures (e e' : FilterError) : WithinRules AnyFailures e e' :=
  fun _ _ => trivial

theorem ValueKind.endAlike_queryForm (kind : ValueKind) (precision : Option Precision) {v w : Text}
    (h : v.Repadded w) : EndAlike (WithinRules AnyFailures) Eq (kind.queryForm precision v)
      (kind.queryForm precision w) := by
  cases kind with
  | text =>
    refine .ok ?_
    rw [freeText, freeText, h.trim_eq]
  | term =>
    refine .ok ?_
    rw [escapeTerm, escapeTerm, h.trim_eq]
  | dateRange =>
    -- both have the same bounds, but an error quotes its own value
    have hbounds : dateRangeBounds? w = dateRangeBounds? v := by
      rw [dateRangeBounds?, dateRangeBounds?, h.splitRange?_eq]
    simp only [queryForm, dateRangeValue, hbounds]
    cases dateRangeBounds? v with
    | none => exact .error (withinRules_anyFailures _ _)
    | some bounds => exact .ok rfl
  | numericRange =>
    have hbounds : numericRangeBounds? w = numericRangeBounds? v := by
      rw [numericRangeBounds?, numericRangeBounds?, h.splitRange?_eq]
    simp only [queryForm, numericRangeValue, hbounds]
    cases numericRangeBounds? v with
    | none => exact .error (withinRules_anyFailures _ _)
    | some bounds => exact .ok rfl
  | flag => exact .ok rfl

/-- Two bounds are trimmed before they are joined, so one text is left of them. -/
theorem endAlike_joinBounds {f g : Filter} (h : f.Repadded g) :
    EndAlike (WithinRules AnyFailures) Filter.Repadded (joinBounds f) (joinBounds g) := by
  obtain ⟨kind, context, op, precision, q⟩ := f
  obtain ⟨_, _, _, _, q'⟩ := g
  obtain ⟨rfl, rfl, rfl, rfl, hq⟩ := h
  cases hq with
  | none => exact .ok ⟨rfl, rfl, rfl, rfl, .none⟩
  | some hq =>
    cases hq with
    | one hvalue => exact .ok ⟨rfl, rfl, rfl, rfl, .some (.one hvalue)⟩
    | many hvalues =>
      rcases hvalues with - | ⟨hlow, - | ⟨hhigh, - | ⟨hnext, hrest⟩⟩⟩
      · exact .ok ⟨rfl, rfl, rfl, rfl, .none⟩
      · exact .error (withinRules_anyFailures _ _)
      · refine .ok ⟨rfl, rfl, rfl, rfl, .some (.one ?_)⟩
        rw [hlow.trim_eq, hhigh.trim_eq]
        exact .of_trim_eq rfl
      · exact .error (withinRules_anyFailures _ _)

namespace Filter.Repadded

variable {f g : Filter}

theorem testsLike (h : f.Repadded g) (kind : ValueKind) : f.TestsLike AnyFailures kind g := by
  refine ⟨h.context, fun _ => h.op, ?_⟩
  rw [h.precision]
  exact h.values.imp fun _ _ hvalue => kind.endAlike_queryForm f.precision hvalue

theorem endAlike_prepare (h : f.Repadded g) (kind : ValueKind) :
    EndAlike (WithinRules AnyFailures) Repadded (kind.prepare f) (kind.prepare g) := by
  cases kind with
  | flag => exact .ok ⟨h.type, h.context, h.op, h.precision, .some (.one (.of_trim_eq rfl))⟩
  | numericRange => exact endAlike_joinBounds h
  | _ => exact .ok h

theorem compilesLike (h : f.Repadded g) (scope : Namespace) :
    f.CompilesLike AnyFailures scope g := by
  apply Filter.compilesLike_of_prepare h.type
  intro d _
  exact (h.endAlike_prepare d.kind).imp fun _ _ hprepared => hprepared.testsLike d.kind

end Filter.Repadded

/-- **Blanks around values** change nothing: lists of filters that differ at most in the blanks
around their values have the same expression and the same query parts in every collection, or both
have none. -/
theorem compile_repadded {filters others : List Filter}
    (h : List.Forall₂ Filter.Repadded filters others) (scope : Namespace) (settings : Settings) :
    (∀ text, compileExpression others scope settings = .ok text ↔
      compileExpression filters scope settings = .ok text) ∧
    ∀ parts, compileQuery others scope settings = .ok parts ↔
      compileQuery filters scope settings = .ok parts := by
  have hcompile : ∀ f g : Filter, f.Repadded g → f.CompilesLike AnyFailures scope g :=
    fun _ _ hfg => hfg.compilesLike scope
  constructor
  · exact (endAlike_compileExpression (fun _ => trivial) (h.imp hcompile)).ok_iff
  · exact (endAlike_compileQuery (fun _ => trivial) Filter.normalizesAlike_repadded hcompile
      h).ok_iff

/-- A phrase, two newspapers, a date range and two ranges of lengths. -/
def neatValues : List Filter :=
  [{ type := .string, q := some (.one "\"the war\"") },
    { type := .newspaper, q := some (.many ["GDL", "", "JDG"]) },
    { type := .daterange, q := some (.one "[1900-01-01 TO *]") },
    { type := .contentLength, q := some (.one "1 TO 5") },
    { type := .contentLength, q := some (.many ["1", "5"]) }]

/-- The same filters with other blanks around their values, the empty one included. -/
def paddedValues : List Filter :=
  [{ type := .string, q := some (.one "\u2003\"the war\" ") },
    { type := .newspaper, q := some (.many [" GDL", "\t ", "JDG\n"]) },
    { type := .daterange, q := some (.one "[1900-01-01 TO *]\u00a0") },
    { type := .contentLength, q := some (.one " 1 TO 5 ") },
    { type := .contentLength, q := some (.many [" 1", "5 "]) }]

theorem forall₂_repadded_paddedValues : List.Forall₂ Filter.Repadded neatValues paddedValues := by
  have hcut : ∀ {v w : Text}, Text.trim w = Text.trim v → v.Repadded w := .of_trim_eq
  exact .cons ⟨rfl, rfl, rfl, rfl, .some (.one (hcut (by decide)))⟩
    (.cons ⟨rfl, rfl, rfl, rfl, .some (.many (.cons (hcut (by decide))
      (.cons (hcut (by decide)) (.cons (hcut (by decide)) .nil))))⟩
    (.cons ⟨rfl, rfl, rfl, rfl, .some (.one (hcut (by decide)))⟩
    (.cons ⟨rfl, rfl, rfl, rfl, .some (.one (hcut (by decide)))⟩
    (.cons ⟨rfl, rfl, rfl, rfl, .some (.many (.cons (hcut (by decide))
      (.cons (hcut (by decide)) .nil)))⟩ .nil))))

/-- What both become in one language. -/
def neatParts : QueryParts where
  query := "(content_txt_en:\"the war\" OR content_txt:\"the war\")"
  filter := ["(meta_journal_s:GDL OR meta_journal_s:JDG)",
    "meta_date_dt:[1900-01-01T00:00:00Z TO *]",
    "(content_length_i:[1 TO 5] AND content_length_i:[1 TO 5])"]

theorem compile_repadded_paddedValues :
    List.Forall₂ Filter.Repadded neatValues paddedValues ∧
      compileQuery neatValues .search { languages := ["en"] } = .ok neatParts ∧
      compileQuery paddedValues .search { languages := ["en"] } = .ok neatParts := by
  have hneat : compileQuery neatValues .search { languages := ["en"] } = .ok neatParts := by
    decide +kernel
  exact ⟨forall₂_repadded_paddedValues, hneat,
    ((compile_repadded forall₂_repadded_paddedValues .search _).2 neatParts).mpr hneat⟩

end FilterAlgebra
