import FilterAlgebra.Proofs.Query.Compiled
import FilterAlgebra.Proofs.Query.Lexing

/-!
# The structure of term queries

The values of a term filter are data, so they should not show in the structure of the query: two
lists of one shape should be lexed to the same tokens. Escaping a value makes it one word, whatever
its characters are, but a word may be spelled as a keyword, and no character of `AND` is escaped. So
the tokens are those of the shape and of the values that are keywords, and of nothing else.
-/

namespace FilterAlgebra

open Lexer

/-! ### Statements -/

/-- Two statements whose texts are alike before texts that are. -/
def Statement.LexAlike (universal : Text) (statement statement' : Statement) : Prop :=
  ∀ {r r' : Text}, EndsWords r → EndsWords r' → Alike r r' →
    Alike (statement.render universal ++ r) (statement'.render universal ++ r')

namespace Statement

variable {universal : Text}

theorem lexAlike_all : LexAlike universal all all := by
  intro r r' _ _ h
  exact h.append_left universal

theorem alike_members {members members' : List Statement} (op : Op)
    (h : List.Forall₂ (LexAlike universal) members members') {r r' : Text} (hr : Alike r r') :
    Alike (List.intercalate (' ' :: op.name ++ [' ']) (members.map (render universal)) ++ ')' :: r)
      (List.intercalate (' ' :: op.name ++ [' ']) (members'.map (render universal)) ++
        ')' :: r') := by
  have hclose : Alike (')' :: r) (')' :: r') := hr.append_left [')']
  -- Behind a member stands the closing parenthesis or the blank before an operator, and both end
  -- the last word of the member.
  induction h with
  | nil => exact hclose
  | @cons m m' members members' hm hmembers ih =>
    cases hmembers with
    | nil =>
      rw [List.map_singleton, List.map_singleton, List.intercalate_singleton,
        List.intercalate_singleton]
      exact hm (endsWords_close r) (endsWords_close r') hclose
    | cons hnext hrest =>
      have hmore := ih.append_left (' ' :: op.name ++ [' '])
      simp only [List.map_cons, List.intercalate_cons_cons, List.append_assoc] at hmore ⊢
      exact hm (endsWords_blank _) (endsWords_blank _) hmore

theorem lexAlike_group {members members' : List Statement} (op : Op) (negated : Bool)
    (h : List.Forall₂ (LexAlike universal) members members') :
    LexAlike universal (group op negated members) (group op negated members') := by
  intro r r' hends hends' hr
  have hbody : Alike (joinMembers universal op (renderAll universal members) ++ r)
      (joinMembers universal op (renderAll universal members') ++ r') := by
    rw [renderAll_eq_map, renderAll_eq_map]
    cases h with
    | nil => exact hr.append_left universal
    | cons hm hmembers =>
      cases hmembers with
      | nil => exact hm hends hends' hr
      | cons hnext hrest =>
        have hparts := (alike_members op (.cons hm (.cons hnext hrest)) hr).append_left ['(']
        simpa [joinMembers, parenthesized] using hparts
  cases negated with
  | false => exact hbody
  | true =>
    have hnegated := hbody.append_left "NOT "
    rw [← List.append_assoc, ← List.append_assoc] at hnegated
    exact hnegated

end Statement

/-! ### Filters -/

/-- Filters that may differ in how their values are spelled. -/
structure Filter.SameShape (f g : Filter) : Prop where
  type : g.type = f.type
  context : g.context = f.context
  op : g.op = f.op
  values : g.values.length = f.values.length

/-- The values that count, each as the keyword that it is, if it is one. -/
def Filter.keywordValues (f : Filter) : List (Option Text) := f.values.map keyword?

theorem Filter.isBlankText_of_mem_values {f : Filter} {value : Text} (h : value ∈ f.values) :
    Text.isBlankText value = false := by
  simpa using (List.mem_filter.mp h).2

theorem Filter.forall₂_values {f g : Filter} (h : f.keywordValues = g.keywordValues) :
    List.Forall₂ (fun value value' => Text.isBlankText value = false ∧
      Text.isBlankText value' = false ∧ keyword? value = keyword? value') f.values g.values := by
  rw [keywordValues, keywordValues, ← List.forall₂_eq_eq_eq, List.forall₂_map_left_iff,
    List.forall₂_map_right_iff] at h
  rw [List.forall₂_and_left]
  refine ⟨fun value hvalue => isBlankText_of_mem_values hvalue, List.Forall₂.flip ?_⟩
  exact (List.forall₂_and_left _ _).mpr
    ⟨fun value hvalue => isBlankText_of_mem_values hvalue, h.flip⟩

section

variable {fields : List Text}
  (hfields : ∀ field ∈ fields, field ≠ [] ∧ ∀ c ∈ field, isOrdinary c = true)
  (universal name : Text) (f g : Filter)

include hfields

theorem exists_valueStatement_lexAlike {value value' : Text}
    (hvalue : Text.isBlankText value = false) (hvalue' : Text.isBlankText value' = false)
    (hkeyword : keyword? value = keyword? value') :
    ∃ s s', (ValueKind.term.rule name).valueStatement fields f value = .ok s ∧
      (ValueKind.term.rule name).valueStatement fields g value' = .ok s' ∧
      s.LexAlike universal s' := by
  rw [ValueKind.valueStatement_eq, ValueKind.valueStatement_eq]
  refine ⟨_, _, rfl, rfl, Statement.lexAlike_group .or false ?_⟩
  rw [List.forall₂_map_left_iff, List.forall₂_map_right_iff, List.forall₂_same]
  intro field hfield r r' hends hends' hr
  have hsame : ended .term (escapeTerm value) = ended .term (escapeTerm value') := by
    rw [ended_escapeTerm hvalue, ended_escapeTerm hvalue', hkeyword]
  exact alike_fieldValue (hfields field hfield).1 (hfields field hfield).2 (run_escapeTerm value)
    (run_escapeTerm value') hsame hends hends' hr

theorem exists_filterStatement_lexAlike (hshape : f.SameShape g)
    (hkeywords : f.keywordValues = g.keywordValues) :
    ∃ s s', (ValueKind.term.rule name).filterStatement fields f = .ok s ∧
      (ValueKind.term.rule name).filterStatement fields g = .ok s' ∧ s.LexAlike universal s' := by
  obtain ⟨members, members', hmembers, hmembers', hall⟩ :=
    exists_mapM_of_forall₂ (Filter.forall₂_values hkeywords) fun value _ value' hvalues =>
      exists_valueStatement_lexAlike hfields universal name f g hvalues.1 hvalues.2.1 hvalues.2.2
  have hexcluded : g.isExcluded = f.isExcluded := by
    rw [Filter.isExcluded, Filter.isExcluded, hshape.context]
  unfold Rule.filterStatement
  cases hvalues : f.values with
  | nil =>
    have hlength := hshape.values
    rw [hvalues] at hlength
    rw [List.eq_nil_of_length_eq_zero hlength, hexcluded]
    have hone : List.Forall₂ (Statement.LexAlike universal) [.all] [.all] :=
      .cons Statement.lexAlike_all .nil
    exact ⟨_, _, rfl, rfl, Statement.lexAlike_group .or _ hone⟩
  | cons value values =>
    have hlength := hshape.values
    rw [hvalues] at hlength
    obtain ⟨value', values', hvalues'⟩ := List.exists_cons_of_length_eq_add_one hlength
    rw [hvalues']
    simp only [← hvalues, ← hvalues', hmembers, hmembers', hexcluded, hshape.op]
    exact ⟨_, _, rfl, rfl, Statement.lexAlike_group _ _ hall⟩

end

/-! ### Queries -/

section

variable {scope : Namespace} {settings : Settings}

theorem exists_groupStatement_lexAlike {kind : FilterType} {d : Descriptor}
    (hd : Descriptor.of? scope kind = some d) (hterm : d.kind = .term)
    {members members' : List Filter}
    (h : List.Forall₂ (fun f g => f.SameShape g ∧ f.keywordValues = g.keywordValues)
      members members') :
    ∃ s s', groupStatement kind members scope settings = .ok s ∧
      groupStatement kind members' scope settings = .ok s' ∧
      s.LexAlike settings.universalQuery s' := by
  have hfields : ∀ field ∈ d.fields.expanded settings.languages,
      field ≠ [] ∧ ∀ c ∈ field, isOrdinary c = true := by
    intro field hfield
    obtain ⟨hne, hplain⟩ := Descriptor.plain_of_mem_expanded hd (by simp [hterm])
      (by simp [hterm]) hfield
    exact ⟨hne, fun c hc => isOrdinary_of_not_needsEscape (hplain c hc)⟩
  obtain ⟨statements, statements', hstatements, hstatements', hall⟩ :=
    exists_mapM_of_forall₂ h fun f _ g hfg =>
      exists_filterStatement_lexAlike hfields settings.universalQuery kind.name f g hfg.1 hfg.2
  have hprepare : ∀ filters : List Filter, filters.mapM d.kind.prepare = .ok filters := by
    intro filters
    rw [hterm]
    exact mapM_eq_self fun _ _ => rfl
  rw [groupStatement_eq hd, groupStatement_eq hd, hprepare, hprepare, hterm]
  simp only [Rule.build, Fields.names, hstatements, hstatements']
  exact ⟨_, _, rfl, rfl, Statement.lexAlike_group .and false hall⟩

/-- **Term queries keep their structure.** Two lists of term filters of one shape compile, and where
the same values are keywords in both, the two queries have the same tokens. -/
theorem tokens_compileExpression {filters others : List Filter}
    (hterms : ∀ f ∈ filters, ∃ d, Descriptor.of? scope f.type = some d ∧ d.kind = .term)
    (hshape : List.Forall₂ Filter.SameShape filters others)
    (hkeywords : filters.map Filter.keywordValues = others.map Filter.keywordValues) :
    ∃ text text', compileExpression filters scope settings = .ok text ∧
      compileExpression others scope settings = .ok text' ∧ tokens text = tokens text' := by
  rw [← List.forall₂_eq_eq_eq, List.forall₂_map_left_iff, List.forall₂_map_right_iff] at hkeywords
  have hboth : List.Forall₂ (fun f g => f.SameShape g ∧ f.keywordValues = g.keywordValues)
      filters others := hshape.mp (fun _ _ => And.intro) hkeywords
  have hgroups : List.Forall₂ (fun group group' => group'.1 = group.1 ∧
      List.Forall₂ (fun f g => f.SameShape g ∧ f.keywordValues = g.keywordValues) group.2 group'.2)
      (groupByType filters) (groupByType others) :=
    forall₂_groupBy (fun _ _ hfg => hfg.1.type) hboth
  have hstatements : ∃ statements statements',
      (groupByType filters).mapM (statementOf scope settings) = .ok statements ∧
      (groupByType others).mapM (statementOf scope settings) = .ok statements' ∧
      List.Forall₂ (Statement.LexAlike settings.universalQuery) statements statements' := by
    apply exists_mapM_of_forall₂ hgroups
    rintro group hgroup group' ⟨hkind, hmembers⟩
    rw [statementOf, statementOf, hkind]
    obtain ⟨f, hf⟩ := List.exists_mem_of_ne_nil _ (ne_nil_of_mem_groupBy hgroup)
    obtain ⟨hfilters, hfkind⟩ := mem_of_mem_groupBy hgroup hf
    obtain ⟨d, hd, hterm⟩ := hterms f hfilters
    rw [hfkind] at hd
    exact exists_groupStatement_lexAlike hd hterm hmembers
  obtain ⟨statements, statements', hok, hok', hall⟩ := hstatements
  rw [compileExpression_eq, compileExpression_eq, hok, hok']
  refine ⟨_, _, rfl, rfl, ?_⟩
  have halike := Statement.lexAlike_group .and false hall endsWords_nil endsWords_nil (.refl [])
  rw [List.append_nil, List.append_nil] at halike
  exact halike start

end

/-- An unwanted newspaper among two, a year, and an entity, which is looked for in two fields. -/
def spelledOneWay : List Filter :=
  [{ type := .newspaper, context := .excluded, q := some (.many ["GDL", "NOT"]) },
    { type := .year, q := some (.one "1890") },
    { type := .entity, op := some .and, q := some (.many ["aida-0001", " ", "x"]) }]

def spelledAnotherWay : List Filter :=
  [{ type := .newspaper, context := .excluded, q := some (.many ["", "a) OR (*:*", " NOT "]) },
    { type := .year, q := some (.one "AND\\") },
    { type := .entity, op := some .and, q := some (.many ["\"", "OR year:1"]) }]

theorem tokens_compileExpression_spelledAnotherWay :
    (∀ f ∈ spelledOneWay, ∃ d, Descriptor.of? .search f.type = some d ∧ d.kind = .term) ∧
    List.Forall₂ Filter.SameShape spelledOneWay spelledAnotherWay ∧
    spelledOneWay.map Filter.keywordValues = spelledAnotherWay.map Filter.keywordValues ∧
    ∃ text text', compileExpression spelledOneWay .search {} = .ok text ∧
      compileExpression spelledAnotherWay .search {} = .ok text' ∧ tokens text = tokens text' := by
  have hterms : ∀ f ∈ spelledOneWay, ∃ d,
      Descriptor.of? .search f.type = some d ∧ d.kind = .term := by
    simp only [spelledOneWay, List.forall_mem_cons, List.not_mem_nil, IsEmpty.forall_iff,
      implies_true, and_true]
    exact ⟨⟨_, rfl, rfl⟩, ⟨_, rfl, rfl⟩, ⟨_, rfl, rfl⟩⟩
  have hshape : List.Forall₂ Filter.SameShape spelledOneWay spelledAnotherWay :=
    .cons ⟨rfl, rfl, rfl, by decide⟩ (.cons ⟨rfl, rfl, rfl, by decide⟩
      (.cons ⟨rfl, rfl, rfl, by decide⟩ .nil))
  have hkeywords : spelledOneWay.map Filter.keywordValues =
      spelledAnotherWay.map Filter.keywordValues := by decide
  exact ⟨hterms, hshape, hkeywords, tokens_compileExpression hterms hshape hkeywords⟩

def newspaperNamed (name : Text) : Filter := { type := .newspaper, q := some (.one name) }

/-- A newspaper called `AND` is not a term of the query but an operator. -/
theorem tokens_newspaperNamed_keyword :
    (∃ d, Descriptor.of? .search .newspaper = some d ∧ d.kind = .term) ∧
    (newspaperNamed "GDL").SameShape (newspaperNamed "AND") ∧
    compileExpression [newspaperNamed "GDL"] .search {} = .ok "meta_journal_s:GDL" ∧
    compileExpression [newspaperNamed "AND"] .search {} = .ok "meta_journal_s:AND" ∧
    tokens "meta_journal_s:GDL" = [.field "meta_journal_s", .symbol ':', .term] ∧
    tokens "meta_journal_s:AND" = [.field "meta_journal_s", .symbol ':', .operator "AND"] := by
  refine ⟨⟨_, rfl, rfl⟩, ⟨rfl, rfl, rfl, rfl⟩, ?_, ?_, ?_, ?_⟩ <;> decide +kernel

end FilterAlgebra
