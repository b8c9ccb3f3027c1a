import FilterAlgebra.Failure

/-!
# Fields

Where the values of a filter are tested: in fields given by name, or in the fields of a stem, which
has one field for each configured language and one for no language in particular. A stem has to be
expanded before a statement can be built on it.
-/

namespace FilterAlgebra

/-- The fields in which values are tested. -/
inductive Fields where
  | named (fields : List Text)
  | stem (base : Text)
  deriving DecidableEq, Repr

namespace Fields

/-- The fields of a stem by name: one for each language in order, then the one without. -/
def expand (languages : List Text) : Fields → Fields
  | named fields => named fields
  | stem base => named (languages.map (fun language => base ++ '_' :: language) ++ [base])

/-- The names of the fields, which a rule needs. -/
def names (rule : Text) : Fields → Except FilterError (List Text)
  | named fields => .ok fields
  | stem base => .error (.unexpandedFields rule base)

end Fields

end FilterAlgebra
