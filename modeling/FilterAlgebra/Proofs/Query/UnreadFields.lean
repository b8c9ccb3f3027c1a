import FilterAlgebra.Proofs.Query.Congruence
import FilterAlgebra.Proofs.Query.Failures

/-!
# Fields that are not read

Not every field of a filter has a say in what it compiles to. The precision shapes free text and
nothing else, and a flag is a fixed condition, so its values, operator and precision do not count.
Two lists that agree in all other fields (`AgreesWhereRead`) compile alike, failures included.
Merging copies precisions and reads values and operators, but it leaves flags alone, so it brings no
other field into play.
-/

namespace FilterAlgebra

namespace Filter

/-- Whether two filters agree in the fields that are read: the type and the context, the values and
the operator unless they are flags, and the precision if they are free text. -/
structure AgreesWhereRead (f g : Filter) : Prop where
  type : g.type = f.type
  context : g.context = f.context
  q : f.type.isFlag = false → g.q = f.q
  op : f.type.isFlag = false → g.op = f.op
  precision : f.type.isText = true → g.precision = f.precision

namespace AgreesWhereRead

variable {f f' g g' : Filter}

theorem rawValues (h : f.AgreesWhereRead g) (hflag : f.type.isFlag = false) :
    g.rawValues = f.rawValues := by
  rw [Filter.rawValues, Filter.rawValues, h.q hflag]

theorem mergeOp (h : f.AgreesWhereRead g) (hflag : f.type.isFlag = false) :
    g.mergeOp = f.mergeOp := by
  rw [Filter.mergeOp, Filter.mergeOp, valueCount, valueCount, h.op hflag, h.q hflag]

theorem isKept (h : f.AgreesWhereRead g) : g.isKept = f.isKept := by
  rw [Filter.isKept, Filter.isKept, h.type]
  cases hflag : f.type.isFlag with
  | true => rw [Bool.or_true, Bool.or_true]
  | false => rw [h.q hflag]

theorem merge (h : f.AgreesWhereRead g) (h' : f'.AgreesWhereRead g')
    (hflag : f.type.isFlag = false) (hflag' : f'.type.isFlag = false) :
    (f.merge f').AgreesWhereRead (g.merge g') where
  type := h.type
  context := h.context
  q _ := by rw [Filter.merge, Filter.merge, h.rawValues hflag, h'.rawValues hflag']
  op _ := h.mergeOp hflag
  precision := h.precision

end AgreesWhereRead

theorem normalizesAlike_agreesWhereRead : NormalizesAlike AgreesWhereRead where
  type h := h.type
  context h := h.context
  isKept h := h.isKept
  mergeOp hflag h := h.mergeOp hflag
  merge hflag hflag' h h' := h.merge h' hflag hflag'

end Filter

/-! ### Stages -/

/-- Only free text is shaped by the precision. -/
theorem ValueKind.queryForm_congr {kind : ValueKind} {precision precision' : Option Precision}
    (h : kind = .text → precision' = precision) :
    kind.queryForm precision' = kind.queryForm precision := by
  cases kind with
  | text => rw [h rfl]
  | _ => rfl

/-- Filters with the same values test alike, unless they are free text of different precisions. -/
theorem Filter.testsLike_of_values {kind : ValueKind} {f g : Filter}
    (hcontext : g.context = f.context) (hop : 2 ≤ f.values.length → g.op = f.op)
    (hvalues : g.values = f.values) (hprecision : kind = .text → g.precision = f.precision) :
    f.TestsLike Eq kind g := by
  refine ⟨hcontext, hop, ?_⟩
  rw [hvalues, kind.queryForm_congr hprecision, List.forall₂_same]
  intro value _
  exact .refl (fun _ _ _ => rfl) (fun _ => rfl) _

/-- Preparing a filter neither reads its precision nor changes it. -/
theorem ValueKind.prepare_withPrecision (kind : ValueKind) (f : Filter)
    (precision : Option Precision) :
    kind.prepare { f with precision := precision } =
      (kind.prepare f).map fun prepared => { prepared with precision := precision } := by
  cases kind with
  | numericRange =>
    obtain ⟨kind, context, op, _, q⟩ := f
    rcases q with - | value | values
    · rfl
    · rfl
    · rcases values with - | ⟨low, - | ⟨high, - | ⟨next, rest⟩⟩⟩ <;> rfl
  | _ => rfl

theorem Filter.AgreesWhereRead.compilesLike {f g : Filter} (h : f.AgreesWhereRead g)
    (scope : Namespace) : f.CompilesLike Eq scope g := by
  apply Filter.compilesLike_of_prepare h.type
  intro d hd
  by_cases hflag : f.type.isFlag = true
  · rw [(kind_eq_flag_iff hd).mpr hflag]
    refine .ok (Filter.testsLike_of_values h.context ?_ rfl nofun)
    -- a raised flag has one value, so there is nothing for its operator to join
    intro htwo
    have hone : (raised f).values.length = 1 := rfl
    omega
  · rw [Bool.not_eq_true] at hflag
    have hg : g = { f with precision := g.precision } := by
      obtain ⟨kind, context, op, precision, q⟩ := g
      obtain ⟨rfl, rfl, hq, hop, -⟩ := h
      rw [← hq hflag, ← hop hflag]
    rw [hg, d.kind.prepare_withPrecision f g.precision]
    cases hprepared : d.kind.prepare f with
    | error e => exact .error fun _ _ => rfl
    | ok prepared =>
      refine .ok (Filter.testsLike_of_values rfl (fun _ => rfl) rfl ?_)
      intro hkind
      rw [hkind] at hprepared
      cases hprepared
      exact h.precision ((kind_eq_text_iff hd).mp hkind)

/-- **Fields that are not read** change nothing: lists of filters that agree in the fields that are
read have the same expression and the same query parts in every collection, or fail alike. -/
theorem compile_agreesWhereRead {filters others : List Filter}
    (h : List.Forall₂ Filter.AgreesWhereRead filters others) (scope : Namespace)
    (settings : Settings) :
    compileExpression others scope settings = compileExpression filters scope settings ∧
      compileQuery others scope settings = compileQuery filters scope settings := by
  have hcompile : ∀ f g : Filter, f.AgreesWhereRead g → f.CompilesLike Eq scope g :=
    fun _ _ hfg => hfg.compilesLike scope
  constructor
  · exact (endAlike_compileExpression (fun _ => rfl) (h.imp hcompile)).eq
  · exact (endAlike_compileQuery (fun _ => rfl) Filter.normalizesAlike_agreesWhereRead hcompile
      h).eq

/-- A word, two languages of which one is unwanted, a flag and a range of lengths. -/
def plainFields : List Filter :=
  [{ type := .string, precision := some .fuzzy, q := some (.one "war") },
    { type := .language, q := some (.one "fr") },
    { type := .language, context := .excluded, q := some (.one "de") },
    { type := .isFront },
    { type := .contentLength, q := some (.many ["1", "5"]) }]

/-- The same filters with other precisions, and the flag with values and an operator. -/
def crowdedFields : List Filter :=
  [{ type := .string, precision := some .fuzzy, q := some (.one "war") },
    { type := .language, precision := some .exact, q := some (.one "fr") },
    { type := .language, context := .excluded, precision := some .soft, q := some (.one "de") },
    { type := .isFront, op := some .and, precision := some .part, q := some (.many ["no", " "]) },
    { type := .contentLength, precision := some .exact, q := some (.many ["1", "5"]) }]

theorem agreesWhereRead_crowdedFields :
    List.Forall₂ Filter.AgreesWhereRead plainFields crowdedFields :=
  .cons ⟨rfl, rfl, by decide, by decide, by decide⟩
    (.cons ⟨rfl, rfl, by decide, by decide, by decide⟩
      (.cons ⟨rfl, rfl, by decide, by decide, by decide⟩
        (.cons ⟨rfl, rfl, by decide, by decide, by decide⟩
          (.cons ⟨rfl, rfl, by decide, by decide, by decide⟩ .nil))))

theorem compile_agreesWhereRead_crowdedFields :
    List.Forall₂ Filter.AgreesWhereRead plainFields crowdedFields ∧
      compileExpression crowdedFields .search {} = compileExpression plainFields .search {} ∧
      compileQuery crowdedFields .search {} = compileQuery plainFields .search {} :=
  ⟨agreesWhereRead_crowdedFields,
    compile_agreesWhereRead agreesWhereRead_crowdedFields .search {}⟩

end FilterAlgebra
