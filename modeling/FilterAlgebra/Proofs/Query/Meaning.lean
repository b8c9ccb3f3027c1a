import FilterAlgebra.Proofs.Collected
import FilterAlgebra.Proofs.Filter.Truth
import FilterAlgebra.Query.Compile

/-!
# What filters mean to the search engine

In a collection of the search engine a filter has a truth of its own, given which clauses are true:
its type names fields and a kind of values, a value of that kind has a query form, and the value is
found when the clause of one of the fields is true (`Filter.isTrueIn`). Nothing here speaks of
statements or of the text of a query; that compiled queries mean this is shown elsewhere.

The kinds of values differ in three ways only: in what is done to a filter beforehand, in the query
form of a value and in the clause. `groupStatement_eq` puts the compilation of a type into these
terms, so that no later proof has to go through the kinds.
-/

namespace FilterAlgebra

/-! ### Fields -/

def Fields.expanded (languages : List Text) : Fields → List Text
  | .named fields => fields
  | .stem base => languages.map (fun language => base ++ '_' :: language) ++ [base]

theorem Fields.expand_eq (languages : List Text) (fields : Fields) :
    fields.expand languages = .named (fields.expanded languages) := by
  cases fields <;> rfl

theorem Descriptor.expanded_ne_nil {scope : Namespace} {kind : FilterType} {d : Descriptor}
    (h : Descriptor.of? scope kind = some d) (languages : List Text) :
    d.fields.expanded languages ≠ [] := by
  cases kind <;> cases scope <;> cases h <;> simp [Fields.expanded, onFields]

/-- A field whose values are terms or ranges has a name with no character to escape. -/
theorem Descriptor.plain_of_mem_expanded {scope : Namespace} {kind : FilterType} {d : Descriptor}
    (hd : Descriptor.of? scope kind = some d) (htext : d.kind ≠ .text) (hflag : d.kind ≠ .flag)
    {languages : List Text} {field : Text} (hfield : field ∈ d.fields.expanded languages) :
    field ≠ [] ∧ ∀ c ∈ field, needsEscape c = false := by
  have hnamed : ∃ names, d.fields = .named names ∧
      ∀ name ∈ names, name ≠ [] ∧ (name.any needsEscape) = false := by
    cases kind <;> cases scope <;> cases hd <;>
      first
      | exact absurd rfl htext
      | exact absurd rfl hflag
      | exact ⟨_, rfl, by decide⟩
  obtain ⟨names, hnames, hplain⟩ := hnamed
  rw [hnames] at hfield
  obtain ⟨hne, hchars⟩ := hplain field hfield
  exact ⟨hne, fun c hc => Bool.eq_false_iff.mpr (List.any_eq_false.mp hchars c hc)⟩

/-! ### Kinds of values -/

namespace ValueKind

/-- A filter as it is compiled: a flag is raised, and two bounds are one value. -/
def prepare (kind : ValueKind) (f : Filter) : Except FilterError Filter :=
  match kind with
  | flag => .ok (raised f)
  | numericRange => joinBounds f
  | text | term | dateRange => .ok f

def queryForm (kind : ValueKind) (precision : Option Precision) (value : Text) :
    Except FilterError Text :=
  match kind with
  | text => .ok (freeText precision value)
  | term => .ok (escapeTerm value)
  | dateRange => dateRangeValue value
  | numericRange => numericRangeValue value
  | flag => .ok []

/-- The clause for a value in a field. The field of a flag is its clause. -/
def clauseText (kind : ValueKind) (field value : Text) : Text :=
  match kind with
  | flag => field
  | text | term | dateRange | numericRange => field ++ ':' :: value

theorem clauseText_eq {kind : ValueKind} (hflag : kind ≠ .flag) (field value : Text) :
    kind.clauseText field value = field ++ ':' :: value := by
  cases kind with
  | flag => exact absurd rfl hflag
  | text => rfl
  | term => rfl
  | dateRange => rfl
  | numericRange => rfl

/-- The rule by which values of a kind are compiled. -/
def rule (kind : ValueKind) (name : Text) : Rule where
  name := name
  shape f value := kind.queryForm f.precision value
  clause field value := .ok (kind.clauseText field value)

end ValueKind

/-! ### Truth in a collection -/

/-- Whether a value is found: the clause of one of the fields is true. -/
def Descriptor.finds (d : Descriptor) (languages : List Text) (holds : Text → Bool)
    (precision : Option Precision) (value : Text) : Bool :=
  match d.kind.queryForm precision value with
  | .ok form => (d.fields.expanded languages).any fun field => holds (d.kind.clauseText field form)
  | .error _ => false

/-- Whether a filter is true in a collection, where `holds` says which clauses are. -/
def Filter.isTrueIn (scope : Namespace) (settings : Settings) (holds : Text → Bool) (f : Filter) :
    Bool :=
  match Descriptor.of? scope f.type with
  | none => false
  | some d =>
    match d.kind.prepare f with
    | .ok g => g.isTrue (d.finds settings.languages holds g.precision)
    | .error _ => false

/-! ### Compiling the filters of a type -/

/-- The filters of a type are prepared and then compiled by the rule of their kind. A failure to
prepare them is one of the rule. -/
theorem groupStatement_eq {scope : Namespace} {kind : FilterType} {d : Descriptor}
    (hd : Descriptor.of? scope kind = some d) (filters : List Filter) (settings : Settings) :
    groupStatement kind filters scope settings =
      match filters.mapM d.kind.prepare with
      | .ok prepared =>
        (d.kind.rule kind.name).build (.named (d.fields.expanded settings.languages)) prepared
      | .error error => .error { error := error.inRule kind.name } := by
  have hplain :
      filters.mapM (fun f => (Except.ok f : Except FilterError Filter)) = .ok filters := by
    simpa using mapM_ok (fun f : Filter => f) filters
  rw [groupStatement, hd]
  obtain ⟨valueKind, fields⟩ := d
  simp only [Fields.expand_eq]
  cases valueKind with
  | text =>
    -- text, terms and dates are prepared by leaving them alone
    have hprepare : filters.mapM ValueKind.text.prepare = .ok filters := hplain
    rw [hprepare]
    rfl
  | term =>
    have hprepare : filters.mapM ValueKind.term.prepare = .ok filters := hplain
    rw [hprepare]
    rfl
  | dateRange =>
    have hprepare : filters.mapM ValueKind.dateRange.prepare = .ok filters := hplain
    rw [hprepare]
    rfl
  | flag =>
    -- a flag gets its one value
    have hprepare : filters.mapM ValueKind.flag.prepare = .ok (filters.map raised) :=
      mapM_ok raised filters
    rw [hprepare]
    rfl
  | numericRange =>
    -- joining bounds is all that can fail before the rule
    have hprepare : filters.mapM ValueKind.numericRange.prepare = filters.mapM joinBounds := rfl
    rw [hprepare]
    cases filters.mapM joinBounds <;> rfl

end FilterAlgebra
