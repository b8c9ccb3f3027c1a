import FilterAlgebra.Proofs.Filter.Grouping
import FilterAlgebra.Proofs.Query.Meaning
import FilterAlgebra.Proofs.Query.Reading

/-!
# Compiled queries are read as meant

Compiling goes from values to filters, to the filters of a type and to the whole list, and each of
these steps makes a group of statements. So the reading of a compiled query is put together from the
readings of groups, and the only thing left to show for a class of atoms is that the clauses are
operands of it (`reads_compileExpression`).
-/

namespace FilterAlgebra

/-! ### The truth of a filter as that of a group -/

theorem Filter.isMet_eq_join (test : Text → Bool) (f : Filter) :
    f.isMet test = (f.values.isEmpty || (f.op.getD .or).join (f.values.map test)) := by
  rcases hop : f.op with - | op
  · simp [isMet, hop, Op.join]
  · cases op <;> simp [isMet, hop, Op.join]

/-- A filter is true when it finds what it describes, or when it does not and is excluded. -/
theorem Filter.isTrue_eq_xor (test : Text → Bool) (f : Filter) :
    f.isTrue test = (f.isExcluded ^^ f.isMet test) := by
  cases h : f.isExcluded <;> simp [isTrue, h]

/-! ### The statements of one type -/

/-- A value with a query form becomes one clause for each field, of which one has to be true. -/
theorem ValueKind.valueStatement_eq (kind : ValueKind) (name : Text) (fields : List Text)
    (f : Filter) (value : Text) :
    (kind.rule name).valueStatement fields f value =
      (kind.queryForm f.precision value).map fun form =>
        .group .or false (fields.map fun field => .clause (kind.clauseText field form)) := by
  have hshape : (kind.rule name).shape f value = kind.queryForm f.precision value := rfl
  rw [Rule.valueStatement, hshape]
  cases kind.queryForm f.precision value with
  | error e => rfl
  | ok form =>
    have hclauses : fields.mapM (fun field =>
        (kind.rule name).clause ((kind.rule name).field field) form) =
        .ok (fields.map fun field => kind.clauseText field form) := mapM_ok _ fields
    change (do
      let clauses ← fields.mapM fun field =>
        (kind.rule name).clause ((kind.rule name).field field) form
      return Statement.group .or false (clauses.map .clause) : Except FilterError Statement) = _
    rw [hclauses]
    simp only [Except.map, bind, Except.bind, pure, Except.pure, List.map_map]
    rfl

/-- A filter with values becomes a group of the statements of its values. -/
theorem Rule.filterStatement_of_values {rule : Rule} {fields : List Text} {f : Filter}
    (h : f.values ≠ []) : rule.filterStatement fields f =
      (f.values.mapM (rule.valueStatement fields f)).map
        (Statement.group (f.op.getD .or) f.isExcluded) := by
  unfold Rule.filterStatement
  split
  · next hvalues => exact absurd hvalues h
  · cases f.values.mapM (rule.valueStatement fields f) <;> rfl

/-- All clauses that test the values of a filter are operands. -/
def Descriptor.HasOperandClauses (A : AtomClass) (d : Descriptor) (languages : List Text)
    (f : Filter) : Prop :=
  ∀ value ∈ f.values, ∀ form, d.kind.queryForm f.precision value = .ok form →
    ∀ field ∈ d.fields.expanded languages, A.IsOperand (d.kind.clauseText field form)

namespace Descriptor

variable {A : AtomClass} {universal : Text} {d : Descriptor} {languages : List Text} {name : Text}
  (huniversal : A.IsOperand universal) (hfields : d.fields.expanded languages ≠ [])

include huniversal hfields

theorem readsAs_valueStatement {f : Filter} {value : Text} {statement : Statement}
    (hclauses : ∀ form, d.kind.queryForm f.precision value = .ok form →
      ∀ field ∈ d.fields.expanded languages, A.IsOperand (d.kind.clauseText field form))
    (hstatement : (d.kind.rule name).valueStatement (d.fields.expanded languages) f value =
      .ok statement) :
    statement.ReadsAs A universal fun holds => d.finds languages holds f.precision value := by
  rw [ValueKind.valueStatement_eq] at hstatement
  cases hform : d.kind.queryForm f.precision value with
  | error e =>
    rw [hform] at hstatement
    cases hstatement
  | ok form =>
    rw [hform] at hstatement
    cases hstatement
    refine (Statement.readsAs_group_map (fun field holds => holds (d.kind.clauseText field form))
      .or false huniversal fun field hfield =>
        Statement.readsAs_clause (hclauses form hform field hfield)).congr fun holds => ?_
    simp [finds, hform, Op.join, hfields]

theorem readsAs_filterStatement {f : Filter} {statement : Statement}
    (hclauses : d.HasOperandClauses A languages f)
    (hstatement : (d.kind.rule name).filterStatement (d.fields.expanded languages) f =
      .ok statement) :
    statement.ReadsAs A universal fun holds => f.isTrue (d.finds languages holds f.precision) := by
  by_cases hvalues : f.values = []
  · simp only [Rule.filterStatement, hvalues] at hstatement
    cases hstatement
    have hall : List.Forall₂ (fun m truth => m.ReadsAs A universal truth) [Statement.all]
        [fun _ => true] := .cons (Statement.readsAs_all huniversal) .nil
    apply (Statement.readsAs_group .or f.isExcluded huniversal hall).congr
    intro holds
    simp [Filter.isTrue_eq_xor, Filter.isMet, hvalues, Op.join]
  · rw [Rule.filterStatement_of_values hvalues, map_eq_ok_iff] at hstatement
    obtain ⟨members, hmembers, rfl⟩ := hstatement
    have hreads := Statement.readsAs_group_of_mapM
      (fun value holds => d.finds languages holds f.precision value) (f.op.getD .or) f.isExcluded
      huniversal hmembers fun value hvalue m hm =>
        readsAs_valueStatement huniversal hfields (hclauses value hvalue) hm
    apply hreads.congr
    intro holds
    rw [Filter.isTrue_eq_xor, Filter.isMet_eq_join]

theorem readsAs_build {filters : List Filter} {statement : Statement}
    (hclauses : ∀ f ∈ filters, d.HasOperandClauses A languages f)
    (hstatement : (d.kind.rule name).build (.named (d.fields.expanded languages)) filters =
      .ok statement) :
    statement.ReadsAs A universal fun holds =>
      filters.all fun f => f.isTrue (d.finds languages holds f.precision) := by
  unfold Rule.build at hstatement
  simp only [Fields.names] at hstatement
  cases hmembers : filters.mapM
      ((d.kind.rule name).filterStatement (d.fields.expanded languages)) with
  | error e =>
    rw [hmembers] at hstatement
    cases hstatement
  | ok members =>
    rw [hmembers] at hstatement
    cases hstatement
    refine (Statement.readsAs_group_of_mapM
      (fun f holds => f.isTrue (d.finds languages holds f.precision)) .and false huniversal hmembers
      fun f hf m hm => readsAs_filterStatement huniversal hfields (hclauses f hf) hm).congr
        fun holds => ?_
    cases filters <;> simp [Op.join]

end Descriptor

/-! ### One statement for each type -/

def statementOf (scope : Namespace) (settings : Settings) (group : FilterType × List Filter) :
    Except Failure Statement :=
  groupStatement group.1 group.2 scope settings

theorem compileExpression_eq (filters : List Filter) (scope : Namespace) (settings : Settings) :
    compileExpression filters scope settings =
      ((groupByType filters).mapM (statementOf scope settings)).map fun statements =>
        (Statement.conjunction statements).render settings.universalQuery := by
  rw [compileExpression]
  change ((groupByType filters).mapM (statementOf scope settings) >>= _) = _
  cases (groupByType filters).mapM (statementOf scope settings) <;> rfl

/-! ### Lists that compile -/

/-- Whether a filter compiles: its type has fields, and its values have query forms. -/
def Filter.Compiles (scope : Namespace) (f : Filter) : Prop :=
  ∃ d, Descriptor.of? scope f.type = some d ∧ ∃ g, d.kind.prepare f = .ok g ∧
    ∀ value ∈ g.values, ∃ form, d.kind.queryForm g.precision value = .ok form

theorem ValueKind.exists_filterStatement {kind : ValueKind} {f : Filter}
    (h : ∀ value ∈ f.values, ∃ form, kind.queryForm f.precision value = .ok form) (name : Text)
    (fields : List Text) :
    ∃ statement, (kind.rule name).filterStatement fields f = .ok statement := by
  have hmembers : ∃ members, f.values.mapM ((kind.rule name).valueStatement fields f) =
      .ok members := by
    apply exists_mapM_eq_ok
    intro value hvalue
    obtain ⟨form, hform⟩ := h value hvalue
    exact ⟨_, by rw [ValueKind.valueStatement_eq, hform]; rfl⟩
  obtain ⟨members, hmembers⟩ := hmembers
  unfold Rule.filterStatement
  split
  · exact ⟨_, rfl⟩
  · exact ⟨_, by rw [hmembers]; rfl⟩

theorem exists_groupStatement {scope : Namespace} {settings : Settings} {kind : FilterType}
    {filters : List Filter} (hne : filters ≠ []) (hkind : ∀ f ∈ filters, f.type = kind)
    (h : ∀ f ∈ filters, f.Compiles scope) :
    ∃ statement, groupStatement kind filters scope settings = .ok statement := by
  obtain ⟨first, hfirst⟩ := List.exists_mem_of_ne_nil filters hne
  obtain ⟨d, hd, -⟩ := h first hfirst
  rw [hkind first hfirst] at hd
  have hprepare : ∀ f ∈ filters, ∃ g, d.kind.prepare f = .ok g ∧
      ∀ value ∈ g.values, ∃ form, d.kind.queryForm g.precision value = .ok form := by
    intro f hf
    obtain ⟨d', hd', hg⟩ := h f hf
    rw [hkind f hf] at hd'
    obtain rfl := Option.some.inj (hd'.symm.trans hd)
    exact hg
  obtain ⟨prepared, hprepared⟩ := exists_mapM_eq_ok fun f hf =>
    (hprepare f hf).imp fun _ hg => hg.1
  have hbuilt : ∃ members, prepared.mapM ((d.kind.rule kind.name).filterStatement
      (d.fields.expanded settings.languages)) = .ok members := by
    apply exists_mapM_eq_ok
    intro g hg
    obtain ⟨f, hf, hfg⟩ := exists_of_mem_mapM hprepared hg
    obtain ⟨g', hfg', hforms⟩ := hprepare f hf
    obtain rfl := Except.ok.inj (hfg'.symm.trans hfg)
    exact d.kind.exists_filterStatement hforms kind.name _
  obtain ⟨members, hmembers⟩ := hbuilt
  refine ⟨.conjunction members, ?_⟩
  rw [groupStatement_eq hd, hprepared]
  simp only [Rule.build, Fields.names, hmembers]

theorem exists_compileExpression {filters : List Filter} {scope : Namespace}
    (h : ∀ f ∈ filters, f.Compiles scope) (settings : Settings) :
    ∃ text, compileExpression filters scope settings = .ok text := by
  have hstatements : ∃ statements,
      (groupByType filters).mapM (statementOf scope settings) = .ok statements := by
    apply exists_mapM_eq_ok
    intro group hgroup
    have hmembers := fun f (hf : f ∈ group.2) => mem_of_mem_groupBy hgroup hf
    exact exists_groupStatement (ne_nil_of_mem_groupBy hgroup) (fun f hf => (hmembers f hf).2)
      fun f hf => h f (hmembers f hf).1
  obtain ⟨statements, hstatements⟩ := hstatements
  refine ⟨(Statement.conjunction statements).render settings.universalQuery, ?_⟩
  rw [compileExpression_eq, hstatements]
  rfl

/-! ### Whole lists -/

/-- All clauses of a filter, as it is compiled in a collection, are operands. -/
def Filter.HasOperandClausesIn (A : AtomClass) (scope : Namespace) (settings : Settings)
    (f : Filter) : Prop :=
  ∀ d, Descriptor.of? scope f.type = some d → ∀ g, d.kind.prepare f = .ok g →
    d.HasOperandClauses A settings.languages g

section

variable {A : AtomClass} {scope : Namespace} {settings : Settings}
  (huniversal : A.IsOperand settings.universalQuery)

include huniversal

theorem readsAs_groupStatement {kind : FilterType} {filters : List Filter} {statement : Statement}
    (hkind : ∀ f ∈ filters, f.type = kind)
    (hclauses : ∀ f ∈ filters, f.HasOperandClausesIn A scope settings)
    (hstatement : groupStatement kind filters scope settings = .ok statement) :
    statement.ReadsAs A settings.universalQuery fun holds =>
      filters.all fun f => f.isTrueIn scope settings holds := by
  cases hd : Descriptor.of? scope kind with
  | none =>
    -- a type without a field has no statement
    rw [groupStatement, hd] at hstatement
    cases hstatement
  | some d =>
    rw [groupStatement_eq hd] at hstatement
    cases hprepared : filters.mapM d.kind.prepare with
    | error e =>
      rw [hprepared] at hstatement
      cases hstatement
    | ok prepared =>
      rw [hprepared] at hstatement
      -- each prepared filter comes from one of the list, and tests what that does
      have hclauses : ∀ g ∈ prepared, d.HasOperandClauses A settings.languages g := by
        intro g hg
        obtain ⟨f, hf, hfg⟩ := exists_of_mem_mapM hprepared hg
        exact hclauses f hf d (hkind f hf ▸ hd) g hfg
      refine (d.readsAs_build huniversal (d.expanded_ne_nil hd settings.languages) hclauses
        hstatement).congr fun holds => ?_
      apply all_mapM hprepared
      intro f hf g hfg
      rw [Filter.isTrueIn, hkind f hf, hd]
      simp only [hfg]

/-- **Compiled queries.** If the clauses of all filters are operands, then a compiled query parses
in exactly one way, and it is true exactly when all the filters are. -/
theorem reads_compileExpression {filters : List Filter} {text : Text}
    (hclauses : ∀ f ∈ filters, f.HasOperandClausesIn A scope settings)
    (htext : compileExpression filters scope settings = .ok text) :
    ∃ e, (∀ e', Parses A text e' ↔ e' = e) ∧
      ∀ holds, holds settings.universalQuery = true →
        e.eval holds = filters.all fun f => f.isTrueIn scope settings holds := by
  rw [compileExpression_eq] at htext
  cases hstatements : (groupByType filters).mapM (statementOf scope settings) with
  | error e =>
    rw [hstatements] at htext
    cases htext
  | ok statements =>
    rw [hstatements] at htext
    cases htext
    -- one statement for each type, read as the filters of that type
    have hreads := Statement.readsAs_group_of_mapM
      (fun group holds => group.2.all fun f => f.isTrueIn scope settings holds) .and false
      huniversal hstatements fun group hgroup m hm => by
        have hmembers := fun f (hf : f ∈ group.2) => mem_of_mem_groupBy hgroup hf
        exact readsAs_groupStatement huniversal (fun f hf => (hmembers f hf).2)
          (fun f hf => hclauses f (hmembers f hf).1) hm
    obtain ⟨e, hparse, heval⟩ := hreads
    refine ⟨e, fun e' => ⟨fun h => (Parses.unique hparse h).symm, ?_⟩, fun holds htrue => ?_⟩
    · rintro rfl
      exact hparse.of_operands
    rw [heval holds htrue, ← all_groupBy Filter.type]
    cases hgroups : groupBy Filter.type filters <;> simp [Op.join, groupByType, hgroups]

end

end FilterAlgebra
