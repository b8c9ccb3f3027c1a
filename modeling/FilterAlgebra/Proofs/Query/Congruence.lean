import FilterAlgebra.Proofs.Filter.RelatedFilters
import FilterAlgebra.Proofs.Query.SplitQueries

/-!
# Filters that compile alike

A filter goes through two stages: it is prepared, and what it has become is turned into a statement.
Either stage can fail, and a list fails in the first stage before any member enters the second. So
two filters of one type can stand for each other when both stages end alike for them: in statements
with one text, or in failures that are related, where it is left open which failures are
(`Filter.CompilesLike`). Lists in which filters are replaced in this way compile to the same
expression, or fail alike (`endAlike_compileExpression`). They have the same query parts as well, if
the relation of the filters is one that normalization keeps (`endAlike_compileQuery`).
-/

namespace FilterAlgebra

/-! ### Two stages -/

/-- The result of preparing a filter, and in it that of building its statement. -/
def ValueKind.stages (kind : ValueKind) (name : Text) (fields : List Text) (f : Filter) :
    Except FilterError (Except FilterError Statement) :=
  (kind.prepare f).map ((kind.rule name).filterStatement fields)

/-- The statement of a type from the stages of its filters. -/
def conjunctionOf (name : Text)
    (stages : Except FilterError (List (Except FilterError Statement))) :
    Except Failure Statement :=
  match stages with
  | .error error => .error { error := error.inRule name }
  | .ok results =>
    match results.mapM id with
    | .ok members => .ok (.conjunction members)
    | .error error => .error { error := error.inRule name, counted := name }

section Stages

variable {scope : Namespace} {settings : Settings} {kind : FilterType} {d : Descriptor}

theorem groupStatement_eq_stages (hd : Descriptor.of? scope kind = some d) (filters : List Filter) :
    groupStatement kind filters scope settings =
      conjunctionOf kind.name
        (filters.mapM (d.kind.stages kind.name (d.fields.expanded settings.languages))) := by
  -- The second stage is under `Except.map`, so the stages fail as a list where preparing does.
  have hstages : filters.mapM (d.kind.stages kind.name (d.fields.expanded settings.languages)) =
      (filters.mapM d.kind.prepare).map (List.map
        ((d.kind.rule kind.name).filterStatement (d.fields.expanded settings.languages))) := by
    cases h : filters.mapM d.kind.prepare with
    | error e =>
      apply (mapM_eq_error_congr _ e).mpr h
      intro f _ e
      exact map_eq_error_iff
    | ok prepared =>
      apply mapM_map h
      intro f _ g hg
      rw [ValueKind.stages, hg]
      rfl
  rw [groupStatement_eq hd, hstages]
  cases filters.mapM d.kind.prepare with
  | error e => rfl
  | ok prepared =>
    simp only [Except.map, conjunctionOf, List.mapM_map, Rule.build, Fields.names]
    rfl

end Stages

/-! ### Statements with one text -/

namespace Statement

/-- Whether two statements have one text, whatever the universal token is. -/
def SameText (s t : Statement) : Prop := ∀ universal, t.render universal = s.render universal

theorem SameText.refl (s : Statement) : s.SameText s := fun _ => rfl

theorem sameText_conjunction {members members' : List Statement}
    (h : List.Forall₂ SameText members members') :
    (conjunction members).SameText (conjunction members') := by
  intro universal
  have htexts : members'.map (render universal) = members.map (render universal) := by
    rw [← List.forall₂_eq_eq_eq, List.forall₂_map_left_iff, List.forall₂_map_right_iff]
    exact h.flip.imp fun _ _ hm => hm universal
  rw [conjunction, conjunction, render, render, renderAll_eq_map, renderAll_eq_map, htexts]

/-- The operator is not in the text of a group of at most one member. -/
theorem sameText_group {op op' : Op} {members : List Statement} (negated : Bool)
    (h : 2 ≤ members.length → op' = op) :
    (group op negated members).SameText (group op' negated members) := by
  intro universal
  rcases members with - | ⟨first, - | ⟨second, rest⟩⟩
  · rfl
  · rfl
  · rw [h (by simp)]

end Statement

/-! ### Stages that end alike -/

/-- Whether two errors make related failures in any rule. -/
def WithinRules (F : Failure → Failure → Prop) (e e' : FilterError) : Prop :=
  ∀ name counted, F { error := e.inRule name, counted } { error := e'.inRule name, counted }

/-- Whether the second filter can stand for the first, up to failures that are related: they have
one type, and both stages end alike for them. -/
structure Filter.CompilesLike (F : Failure → Failure → Prop) (scope : Namespace) (f g : Filter) :
    Prop where
  type : g.type = f.type
  stages : ∀ d, Descriptor.of? scope f.type = some d → ∀ name fields,
    EndAlike (WithinRules F) (EndAlike (WithinRules F) Statement.SameText)
      (d.kind.stages name fields f) (d.kind.stages name fields g)

/-- Whether two prepared filters test alike: their values have the same query forms, or fail alike,
and are joined in the same way. -/
structure Filter.TestsLike (F : Failure → Failure → Prop) (kind : ValueKind) (f g : Filter) :
    Prop where
  context : g.context = f.context
  op : 2 ≤ f.values.length → g.op = f.op
  values : List.Forall₂ (fun value value' => EndAlike (WithinRules F) Eq
    (kind.queryForm f.precision value) (kind.queryForm g.precision value')) f.values g.values

section Stages

variable {F : Failure → Failure → Prop}

theorem endAlike_filterStatement {kind : ValueKind} {f g : Filter} (h : f.TestsLike F kind g)
    (name : Text) (fields : List Text) :
    EndAlike (WithinRules F) Statement.SameText ((kind.rule name).filterStatement fields f)
      ((kind.rule name).filterStatement fields g) := by
  have hexcluded : g.isExcluded = f.isExcluded := by rw [Filter.isExcluded, h.context]; rfl
  have hlength : f.values.length = g.values.length := h.values.length_eq
  by_cases hnil : f.values = []
  · have hnil' : g.values = [] := by
      rw [← List.length_eq_zero_iff, ← hlength, hnil, List.length_nil]
    simp only [Rule.filterStatement, hnil, hnil', hexcluded]
    exact .ok (.refl _)
  · have hnil' : g.values ≠ [] := by
      rw [← List.length_pos_iff, ← hlength, List.length_pos_iff]
      exact hnil
    have hmembers : EndAlike (WithinRules F) (List.Forall₂ Eq)
        (f.values.mapM ((kind.rule name).valueStatement fields f))
        (g.values.mapM ((kind.rule name).valueStatement fields g)) := by
      apply EndAlike.mapM h.values
      intro value _ value' hform
      rw [ValueKind.valueStatement_eq, ValueKind.valueStatement_eq]
      exact hform.map fun _ _ hsame => by rw [hsame]
    -- there are as many members as values, so the operator is in the text only if it is the same
    have hcounted := hmembers.with_result fun members hresult =>
      (mapM_eq_ok_iff.mp hresult).length_eq
    rw [Rule.filterStatement_of_values hnil, Rule.filterStatement_of_values hnil', hexcluded]
    apply hcounted.map
    rintro members members' ⟨hcount, hsame⟩
    rw [List.forall₂_eq_eq_eq] at hsame
    rw [← hsame]
    apply Statement.sameText_group
    intro htwo
    rw [h.op (by omega)]

/-- Filters compile alike if they are prepared to filters that test alike. -/
theorem Filter.compilesLike_of_prepare {scope : Namespace} {f g : Filter} (htype : g.type = f.type)
    (h : ∀ d, Descriptor.of? scope f.type = some d →
      EndAlike (WithinRules F) (TestsLike F d.kind) (d.kind.prepare f) (d.kind.prepare g)) :
    f.CompilesLike F scope g :=
  ⟨htype, fun d hd name fields =>
    (h d hd).map fun _ _ hprepared => endAlike_filterStatement hprepared name fields⟩

theorem endAlike_conjunctionOf (name : Text)
    {stages stages' : Except FilterError (List (Except FilterError Statement))}
    (h : EndAlike (WithinRules F)
      (List.Forall₂ (EndAlike (WithinRules F) Statement.SameText)) stages stages') :
    EndAlike F Statement.SameText (conjunctionOf name stages) (conjunctionOf name stages') := by
  cases h with
  | error he => exact .error (he name none)
  | @ok results results' hresults =>
    have hmembers : EndAlike (WithinRules F) (List.Forall₂ Statement.SameText)
        (results.mapM id) (results'.mapM id) := .mapM hresults fun _ _ _ h => h
    simp only [conjunctionOf]
    generalize results.mapM id = members at hmembers
    generalize results'.mapM id = members' at hmembers
    cases hmembers with
    | error he => exact .error (he name name)
    | ok hmembers => exact .ok (Statement.sameText_conjunction hmembers)

end Stages

/-! ### Replacing filters -/

/-- Whether two statements, each beside its type, are of one type and have one text. -/
def SameTyped (s t : FilterType × Statement) : Prop := t.1 = s.1 ∧ s.2.SameText t.2

theorem partsOf_congr (settings : Settings) {statements statements' : List (FilterType × Statement)}
    (h : List.Forall₂ SameTyped statements statements') :
    partsOf settings statements' = partsOf settings statements := by
  have hfilter : ∀ p : FilterType → Bool, List.Forall₂ SameTyped
      (statements.filter fun s => p s.1) (statements'.filter fun s => p s.1) := by
    intro p
    apply List.rel_filter _ h
    intro s t hst
    simp only [hst.1]
  have htexts : List.Forall₂ Statement.SameText
      ((statements.filter fun s => s.1.isText).map Prod.snd)
      ((statements'.filter fun s => s.1.isText).map Prod.snd) := by
    rw [List.forall₂_map_left_iff, List.forall₂_map_right_iff]
    exact (hfilter FilterType.isText).imp fun _ _ hst => hst.2
  have hothers : (statements'.filter fun s => !s.1.isText).map
        (fun s => s.2.render settings.universalQuery) =
      (statements.filter fun s => !s.1.isText).map
        fun s => s.2.render settings.universalQuery := by
    rw [← List.forall₂_eq_eq_eq, List.forall₂_map_left_iff, List.forall₂_map_right_iff]
    exact (hfilter fun kind => !kind.isText).flip.imp fun _ _ hst => hst.2 settings.universalQuery
  rw [partsOf, partsOf, Statement.sameText_conjunction htexts settings.universalQuery, hothers]

section Replaced

variable {F : Failure → Failure → Prop} (hF : ∀ failure, F failure failure) {scope : Namespace}
  {settings : Settings}

include hF

theorem endAlike_groupStatement {kind : FilterType} {members others : List Filter}
    (hkind : ∀ f ∈ members, f.type = kind)
    (h : List.Forall₂ (Filter.CompilesLike F scope) members others) :
    EndAlike F Statement.SameText (groupStatement kind members scope settings)
      (groupStatement kind others scope settings) := by
  cases hd : Descriptor.of? scope kind with
  | none =>
    rw [groupStatement, groupStatement, hd]
    exact .error (hF _)
  | some d =>
    rw [groupStatement_eq_stages hd, groupStatement_eq_stages hd]
    apply endAlike_conjunctionOf
    apply EndAlike.mapM h
    intro f hf g hfg
    apply hfg.stages d
    rw [hkind f hf, hd]

/-- **Replacing filters** by others that compile like them leaves the expression of a list as it is,
or its failure, up to failures that are related. -/
theorem endAlike_compileExpression {filters others : List Filter}
    (h : List.Forall₂ (Filter.CompilesLike F scope) filters others) :
    EndAlike F Eq (compileExpression filters scope settings)
      (compileExpression others scope settings) := by
  have hgroups : List.Forall₂ (fun group group' => group'.1 = group.1 ∧
      List.Forall₂ (Filter.CompilesLike F scope) group.2 group'.2)
      (groupByType filters) (groupByType others) := forall₂_groupBy (fun _ _ hfg => hfg.type) h
  have hstatements : EndAlike F (List.Forall₂ Statement.SameText)
      ((groupByType filters).mapM (statementOf scope settings))
      ((groupByType others).mapM (statementOf scope settings)) := by
    apply EndAlike.mapM hgroups
    rintro group hgroup group' ⟨hkind, hmembers⟩
    rw [statementOf, statementOf, hkind]
    apply endAlike_groupStatement hF _ hmembers
    intro f hf
    exact (mem_of_mem_groupBy hgroup hf).2
  rw [compileExpression_eq, compileExpression_eq]
  exact hstatements.map fun _ _ hs =>
    (Statement.sameText_conjunction hs settings.universalQuery).symm

/-- The query parts are left as they are too, where normalization keeps the filters related. -/
theorem endAlike_compileQuery {R : Filter → Filter → Prop} (hR : Filter.NormalizesAlike R)
    (hcompile : ∀ f g, R f g → f.CompilesLike F scope g) {filters others : List Filter}
    (h : List.Forall₂ R filters others) :
    EndAlike F Eq (compileQuery filters scope settings) (compileQuery others scope settings) := by
  have hkinds : List.Forall₂ Eq (keptTypes filters) (keptTypes others) := by
    rw [hR.keptTypes_eq h, List.forall₂_eq_eq_eq]
  have hstatements : EndAlike F (List.Forall₂ SameTyped)
      ((keptTypes filters).mapM (keptStatementOf scope settings filters))
      ((keptTypes others).mapM (keptStatementOf scope settings others)) := by
    apply EndAlike.mapM hkinds
    rintro kind - _ rfl
    have hmembers : List.Forall₂ (Filter.CompilesLike F scope)
        (mergeGroup kind (keptOf kind filters)) (mergeGroup kind (keptOf kind others)) :=
      (hR.forall₂_mergeGroup_keptOf h kind).imp hcompile
    have hkind : ∀ f ∈ mergeGroup kind (keptOf kind filters), f.type = kind :=
      type_of_mem_mergeGroup fun _ hf => type_of_mem_keptOf hf
    exact (endAlike_groupStatement hF hkind hmembers).map fun _ _ hs => ⟨rfl, hs⟩
  rw [compileQuery_eq_kept, compileQuery_eq_kept]
  exact hstatements.map fun _ _ hs => (partsOf_congr settings hs).symm

end Replaced

/-! ### Filters with the same stages -/

/-- Whether the second filter can stand for the first, failures included: they have one type, and
both stages give the same for them. -/
structure Filter.CompilesAs (scope : Namespace) (f g : Filter) : Prop where
  type : g.type = f.type
  stages : ∀ d, Descriptor.of? scope f.type = some d → ∀ name fields,
    d.kind.stages name fields g = d.kind.stages name fields f

theorem Filter.CompilesAs.refl {scope : Namespace} (f : Filter) : f.CompilesAs scope f :=
  ⟨rfl, fun _ _ _ _ => rfl⟩

theorem Filter.CompilesAs.compilesLike {scope : Namespace} {f g : Filter}
    (h : f.CompilesAs scope g) : f.CompilesLike Eq scope g := by
  refine ⟨h.type, ?_⟩
  intro d hd name fields
  have herror : ∀ e, WithinRules Eq e e := fun _ _ _ => rfl
  rw [h.stages d hd]
  exact .refl herror (EndAlike.refl herror Statement.SameText.refl) _

/-- Filters that compile as others do can stand for them in any expression. -/
theorem compileExpression_congr {scope : Namespace} {settings : Settings}
    {filters others : List Filter} (h : List.Forall₂ (Filter.CompilesAs scope) filters others) :
    compileExpression others scope settings = compileExpression filters scope settings :=
  (endAlike_compileExpression (fun _ => rfl) (h.imp fun _ _ hfg => hfg.compilesLike)).eq

end FilterAlgebra
