import FilterAlgebra.Number.Written
import FilterAlgebra.Query.Escape
import FilterAlgebra.Relevance.Basic

/-!
# Relevance formulas

A formula is a tree of function calls over numbers, fields and quoted arguments, by which the search
engine ranks documents. Its text has no blanks outside quoted arguments: they are taken out of the
rendered tree, in which a backslash inside an argument keeps the next character from ending it.
-/

namespace FilterAlgebra

/-! ### Formulas -/

/-- A formula, or an argument of one. -/
inductive Formula where
  /-- A number or the name of a field. -/
  | atom (text : Text)
  /-- A quoted argument. -/
  | quoted (text : Text)
  /-- A query given as a quoted local parameter. -/
  | localQuery (text : Text)
  | call (name : Text) (args : List Formula)

/-- A text between single quotes, those inside it escaped. -/
def quoteArgument (s : Text) : Text :=
  '\x27' :: (s.flatMap (fun c => if c = '\x27' then ['\\', c] else [c]) ++ ['\x27'])

namespace Formula

mutual

def render : Formula → Text
  | atom text => text
  | quoted text => quoteArgument text
  | localQuery text => "\x7b!v=" ++ quoteArgument text ++ "\x7d"
  | call name args => name ++ '(' :: (List.intercalate [','] (renderAll args) ++ [')'])

def renderAll : List Formula → List Text
  | [] => []
  | arg :: args => arg.render :: renderAll args

end

theorem renderAll_eq_map (args : List Formula) : renderAll args = args.map render := by
  induction args with
  | nil => rfl
  | cons arg args ih => simp [renderAll, ih]

def number (x : Binary64) : Formula := .atom x.weightText

def mul (a b : Formula) : Formula := .call "mul" [a, b]

/-- The sum of formulas. A sum has at least two terms: one is used bare, and none counts as one. -/
def sumOf : List Formula → Formula
  | [] => .atom "1.0"
  | [term] => term
  | terms => .call "sum" terms

end Formula

/-! ### Items -/

/-- One if a condition holds and zero otherwise. -/
def indicator (condition : Formula) : Formula := .call "if" [condition, .atom "1.0", .atom "0.0"]

/-- The comparison of the year of a document with a year. -/
def compareYear (comparison : Text) (year : Int) : Formula :=
  .call comparison [.atom "meta_year_i", .atom (intText year)]

/-- Whether a document is from a range of years; one if the range is open on both sides. -/
def timeRangeFormula : Option Int → Option Int → Formula
  | some start, some stop =>
    indicator (.call "and" [compareYear "lte" stop, compareYear "gte" start])
  | some start, none => indicator (compareYear "gte" start)
  | none, some stop => indicator (compareYear "lte" stop)
  | none, none => .atom "1.0"

/-- How much of an identifier a document has, by the payload of a field. -/
def payloadFormula (field : Text) (entry : WeightedId) : Formula :=
  .mul (.call "payload" [.atom field, .quoted entry.id]) (.number entry.weight)

/-- Whether a document belongs to a text reuse cluster. -/
def clusterFormula (entry : WeightedId) : Formula :=
  .mul
    (.call "exists" [.call "query" [.localQuery ("cluster_id_ss:" ++ escapeTerm entry.id)]])
    (.number entry.weight)

/-- What an item favours, without its weight. -/
def RelevanceKind.formula : RelevanceKind → Formula
  | timeRange start stop => timeRangeFormula start stop
  | locations ids => .sumOf (ids.map (payloadFormula "loc_entities_dpfs"))
  | persons ids => .sumOf (ids.map (payloadFormula "pers_entities_dpfs"))
  | topics ids => .sumOf (ids.map (payloadFormula "topics_dpfs"))
  | textReuseClusters ids => .sumOf (ids.map clusterFormula)

def RelevanceItem.formula (item : RelevanceItem) : Formula :=
  .mul item.kind.formula (.number item.weight)

/-! ### Blanks -/

/-- Where a scan of a formula stands. -/
inductive QuoteState where
  | outside
  | inside
  /-- Inside a quoted argument, after a backslash that escapes what follows. -/
  | escaped
  deriving DecidableEq, Repr

/-- Where a scan stands after a character. -/
def QuoteState.next : QuoteState → Char → QuoteState
  | outside, c => if c = '\x27' then inside else outside
  | inside, c => if c = '\x27' then outside else if c = '\\' then escaped else inside
  | escaped, _ => inside

/-- A formula without the blanks outside its quoted arguments, from a state of the scan. -/
def normalizeFrom (state : QuoteState) : Text → Text
  | [] => []
  | c :: rest =>
    let tail := normalizeFrom (state.next c) rest
    if state = .outside ∧ isBlank c then tail else c :: tail

/-- A formula without the blanks outside its quoted arguments. -/
def normalizeFormula (formula : Text) : Text := normalizeFrom .outside formula

/-! ### Texts -/

/-- The text of the formula of an item. -/
def RelevanceItem.formulaText (item : RelevanceItem) : Text :=
  normalizeFormula item.formula.render

/-- The text of the sum of the formulas of items, if there are any. -/
def combinedFormula? (items : List RelevanceItem) : Option Text :=
  match items with
  | [] => none
  | items => some (Formula.sumOf (items.map fun item => .atom item.formulaText)).render

end FilterAlgebra
