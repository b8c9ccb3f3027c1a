import FilterAlgebra.Filter.Basic
import FilterAlgebra.Json.Decoding
import FilterAlgebra.Json.Printer

/-!
# Filters as JSON

A filter is an object with its type, its context and those of its operator, precision and values
that it has, in this order. It may also be read from a list of the same fields. Values may be given
as numbers and booleans, which are kept by their text.
-/

namespace FilterAlgebra

open Json

/-! ### Writing -/

def Context.name : Context → Text
  | included => "include"
  | excluded => "exclude"

def Precision.name : Precision → Text
  | exact => "exact"
  | part => "partial"
  | fuzzy => "fuzzy"
  | soft => "soft"

/-- Values as JSON: a string, or a list of strings. -/
def FilterValue.toJson : FilterValue → Json
  | one value => .str value
  | many values => .texts values

def Filter.toJson (f : Filter) : Json :=
  .obj
    (("type", .str f.type.name) :: ("context", .str f.context.name)
      :: (optional "op" (f.op.map fun op => .str op.name)
        ++ optional "precision" (f.precision.map fun precision => .str precision.name)
        ++ optional "q" (f.q.map FilterValue.toJson)))

def filtersJson (filters : List Filter) : Json := .arr (filters.map Filter.toJson)

/-- The canonical text of a list of filters. -/
def canonicalText (filters : List Filter) : Text := (filtersJson filters).compact

/-! ### Reading -/

def contextNames : List (Text × Context) :=
  [.included, .excluded].map fun context => (context.name, context)

def opNames : List (Text × Op) := [.and, .or].map fun op => (op.name, op)

def precisionNames : List (Text × Precision) :=
  [.exact, .part, .fuzzy, .soft].map fun precision => (precision.name, precision)

/-- The text by which an integer is kept: its digits if a word with a sign can hold it, and those of
the nearest binary64 number otherwise. -/
def integerText (n : Int) : Text := if fitsSigned n then intText n else (Binary64.ofInt n).plain

/-- The text by which a scalar is kept. -/
def scalarText? : Reading → Option Text
  | .str value => some value
  | .int value => some (integerText value)
  | .float value => some value.plain
  | .bool value => some (if value then "true" else "false")
  | _ => none

/-- The values that a reading stands for: a scalar, or a list of scalars. -/
def filterValue? : Reading → Option FilterValue
  | .arr items => (items.mapM scalarText?).map .many
  | reading => (scalarText? reading).map .one

/-- Decodes values that may be nested at most `depth` deep before they are looked at. -/
def decodeFilterValue (depth : Nat) (reading : Reading) : Decoded FilterValue :=
  if reading.isSound depth then
    match filterValue? reading with
    | some q => .ok q
    | none => wrong .notScalars
  else .error .malformed

/-- The fields of a filter that have been read. -/
structure FilterDraft where
  type : Option FilterType := none
  context : Option Context := none
  op : Option (Option Op) := none
  precision : Option (Option Precision) := none
  q : Option (Option FilterValue) := none

namespace FilterDraft

def decodeType (reading : Reading) : Decoded FilterType :=
  (decodeText reading).map FilterType.ofName

def readMember (form : Form) (depth : Nat) (draft : FilterDraft) (key : Text) (value : Reading) :
    Decoded FilterDraft :=
  if key = "type" then do
    return { draft with type := ← decodeField key draft.type decodeType value }
  else if key = "context" then do
    let decode := decodeVariant form contextNames
    return { draft with context := ← decodeField key draft.context decode value }
  else if key = "op" then do
    let decode := decodeOption (decodeVariant form opNames)
    return { draft with op := ← decodeField key draft.op decode value }
  else if key = "precision" then do
    let decode := decodeOption (decodeVariant form precisionNames)
    return { draft with precision := ← decodeField key draft.precision decode value }
  else if key = "q" then do
    let decode := decodeOption (decodeFilterValue depth)
    return { draft with q := ← decodeField key draft.q decode value }
  else do
    skipValue value
    return draft

/-- The names of the fields of a filter, in order. -/
def fieldNames : List Text := ["type", "context", "op", "precision", "q"]

/-- Reads the item of a list at a position. -/
def readItem (form : Form) (depth : Nat) (position : Nat) (draft : FilterDraft) (value : Reading) :
    Decoded FilterDraft :=
  draft.readMember form depth (fieldNames.getD position []) value

/-- The filter with the given type and the other fields of a draft. -/
def withType (draft : FilterDraft) (kind : FilterType) : Filter :=
  { type := kind
    context := draft.context.getD .included
    op := draft.op.getD none
    precision := draft.precision.getD none
    q := draft.q.getD none }

def decoder (form : Form) (depth : Nat) : StructureDecoder FilterDraft Filter where
  name := "Filter"
  fieldCount := 5
  start := {}
  member := readMember form depth
  position := readItem form depth
  finish draft := (required "type" draft.type).map draft.withType
  finishList length draft :=
    match draft.type with
    | some kind => .ok (draft.withType kind)
    | none => wrong (.wrongLength length "struct Filter with 5 elements")

end FilterDraft

/-- How deep the lists and objects of a text may be nested before they are looked at. -/
def nestingLimit : Nat := 127

/-- Decodes a filter inside a number of lists and objects. -/
def decodeFilter (form : Form) (outer : Nat) (reading : Reading) : Decoded Filter :=
  (FilterDraft.decoder form (nestingLimit - outer - 1)).run form reading

def decodeFilters (form : Form) (reading : Reading) : Decoded (List Filter) :=
  decodeList (decodeFilter form 1) reading

end FilterAlgebra
