import FilterAlgebra.Number.Decimal
import FilterAlgebra.Range.Basic

/-!
# Literals of the client language

How values are written in the source text of a call: strings between double quotes, numbers as they
are when they are finite decimal literals, and an open bound as `None`.
-/

namespace FilterAlgebra

def literalChar (c : Char) : Text :=
  if c = '"' then "\\\""
  else if c = '\\' then "\\\\"
  else if c = '\n' then "\\n"
  else if c = '\t' then "\\t"
  else [c]

def stringLiteral (s : Text) : Text := '"' :: (s.flatMap literalChar ++ ['"'])

/-- A bound as a number, `None` where it is open, and a string literal where it is no number. -/
def boundLiteral (s : Text) : Text :=
  let s := Text.trim s
  if s = ['*'] then "None"
  else if (Binary64.readFinite? s).isSome then s
  else stringLiteral s

def boundsLiteral (low high : Text) : Text :=
  '(' :: (boundLiteral low ++ ", " ++ boundLiteral high ++ [')'])

/-- A date range by its two bounds, and a string literal for what is no range. -/
def dateRangeLiteral (value : Text) : Text :=
  match splitRange? value with
  | some (low, high) => "DateRange(" ++ stringLiteral low ++ ", " ++ stringLiteral high ++ ")"
  | none => stringLiteral value

end FilterAlgebra
