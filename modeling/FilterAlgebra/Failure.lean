import FilterAlgebra.Text.Basic

/-!
# Failures

What can be wrong with filters, as causes; the wording of each is in one place. A failure inside a
rule is wrapped with the name of the rule, once: the innermost rule wins.
-/

namespace FilterAlgebra

inductive FilterError where
  /-- A type without a meaning in a namespace, both by name. -/
  | unsupportedType (type scope : Text)
  /-- A value that is no date range. -/
  | invalidDateRange (value : Text)
  /-- A value that is no numeric range. -/
  | invalidNumericRange (value : Text)
  /-- Fields that were left as a stem where a rule needs their names. -/
  | unexpandedFields (rule stem : Text)
  /-- A failure of a rule. -/
  | withinRule (rule : Text) (source : FilterError)
  /-- A wire text that cannot be decoded. -/
  | wire (detail : Text)
  /-- Anything else that is invalid. -/
  | invalid (detail : Text)
  deriving DecidableEq, Repr

namespace FilterError

def message : FilterError → Text
  | unsupportedType type scope =>
    "filter type '" ++ type ++ "' is not supported in namespace '" ++ scope ++ "'"
  | invalidDateRange value => "invalid date range: " ++ value
  | invalidNumericRange value => "invalid numeric range: " ++ value
  | unexpandedFields rule stem =>
    "rule '" ++ rule ++ "' expects literal fields, got multilingual prefix '" ++ stem ++ "'"
  | withinRule rule source => "rule '" ++ rule ++ "' failed: " ++ source.message
  | wire detail => "wire decoding error: " ++ detail
  | invalid detail => "invalid filter: " ++ detail

/-- Wraps a failure with the rule in which it occurred, unless it has been wrapped before. -/
def inRule (rule : Text) : FilterError → FilterError
  | withinRule inner source => withinRule inner source
  | error => withinRule rule error

def root : FilterError → FilterError
  | withinRule _ source => source.root
  | error => error

theorem root_inRule (rule : Text) (error : FilterError) :
    (error.inRule rule).root = error.root := by
  cases error <;> rfl

end FilterError

/-- A failed compilation. Failures of a rule at work are counted under its name; failures before
any rule is at work are not counted. -/
structure Failure where
  error : FilterError
  /-- The rule under whose name the failure counts. -/
  counted : Option Text := none
  deriving DecidableEq, Repr

end FilterAlgebra
