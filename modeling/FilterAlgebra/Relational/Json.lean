import FilterAlgebra.Filter.Json
import FilterAlgebra.Query.RequestJson
import FilterAlgebra.Relational.Predicate

/-!
# Predicates as JSON

A predicate is an object with its kind under `op` and the fields of that kind beside it. It may also
be read from a list of the kind and the fields. The fields are set aside until the whole predicate
has been read; predicates inside a predicate may give their kind by its position.
-/

namespace FilterAlgebra

open Json

inductive PredicateKind where
  | isIn
  | notIn
  | all
  deriving DecidableEq, Repr

/-! ### Writing -/

namespace Predicate

/-- A test of a column as JSON. -/
def testJson (kind column : Text) (values : List Text) : Json :=
  .obj [("op", .str kind), ("column", .str column), ("values", .texts values)]

mutual

def toJson : Predicate → Json
  | isIn column values => testJson "in" column values
  | notIn column values => testJson "not_in" column values
  | all predicates => .obj [("op", .str "and"), ("predicates", .arr (toJsons predicates))]

def toJsons : List Predicate → List Json
  | [] => []
  | predicate :: predicates => predicate.toJson :: toJsons predicates

end

end Predicate

/-! ### Reading -/

def predicateKinds : List (Text × PredicateKind) :=
  [("in", .isIn), ("not_in", .notIn), ("and", .all)]

/-- Decodes the kind of a predicate: its name, or its position where that is allowed. -/
def decodePredicateKind (form : Form) : Reading → Decoded PredicateKind
  | .str name => variantNamed predicateKinds name
  | .int index =>
    if form = .aside ∧ 0 ≤ index then
      match predicateKinds[index.toNat]? with
      | some (_, kind) => .ok kind
      | none =>
        wrong (.wrongValue (Reading.int index).description "variant index 0 <= i < 3")
    else mismatch "variant identifier" (.int index)
  | reading => mismatch "variant identifier" reading

/-- The fields of a test that have been read. -/
structure TestDraft where
  column : Option Text := none
  values : Option (List Text) := none

namespace TestDraft

def readMember (draft : TestDraft) (key : Text) (value : Reading) : Decoded TestDraft :=
  if key = "column" then do
    return { draft with column := ← decodeField key draft.column decodeText value }
  else if key = "values" then do
    return { draft with values := ← decodeField key draft.values (decodeList decodeText) value }
  else .ok draft

/-- The column and the values of a draft. -/
def test (draft : TestDraft) : Decoded (Text × List Text) := do
  let column ← required "column" draft.column
  let values ← required "values" draft.values
  return (column, values)

/-- How the fields of a test are decoded. -/
def decoder (name : Text) : StructureDecoder TestDraft (Text × List Text) where
  name := name
  fieldCount := 2
  start := {}
  member := readMember
  position index draft value := draft.readMember (if index = 0 then "column" else "values") value
  finish := test
  finishList length draft :=
    if length < 2 then wrong (.wrongLength length ("struct " ++ name ++ " with 2 elements"))
    else draft.test

end TestDraft

/-- How the fields of a conjunction are decoded, given how its predicates are. -/
def conjunctionDecoder (decode : Reading → Decoded Predicate) :
    StructureDecoder (Option (List Predicate)) (List Predicate) where
  name := "variant Predicate::And"
  fieldCount := 1
  start := none
  member seen key value :=
    if key = "predicates" then decodeField key seen (decodeList decode) value else .ok seen
  position _ seen value := decodeField "predicates" seen (decodeList decode) value
  finish seen := required "predicates" seen
  finishList length seen :=
    match seen with
    | some predicates => .ok predicates
    | none => wrong (.wrongLength length "struct variant Predicate::And with 1 element")

/-- The kind of a predicate that has been read, and the fields set aside. -/
structure PredicateDraft where
  kind : Option PredicateKind := none
  fields : List (Text × Reading) := []

def PredicateDraft.readMembers (form : Form) (depth : Nat) (draft : PredicateDraft) :
    List (Text × Reading) → Decoded PredicateDraft
  | [] => .ok draft
  | (key, value) :: rest =>
    if key = "op" then do
      let kind ← decodeField key draft.kind (decodePredicateKind form) value
      PredicateDraft.readMembers form depth { draft with kind } rest
    else if value.isSound depth then
      PredicateDraft.readMembers form depth
        { draft with fields := draft.fields ++ [(key, value)] } rest
    else .error .malformed

/-- The kind of a predicate and its fields, as an object or a list. -/
def decodeTagged (form : Form) (depth : Nat) : Reading → Decoded (PredicateKind × Reading)
  | .obj members => do
    let draft ← PredicateDraft.readMembers form depth {} members
    let kind ← required "op" draft.kind
    return (kind, .obj draft.fields)
  | .torn members _ => do
    let _ ← PredicateDraft.readMembers form depth {} members
    .error .malformed
  | .arr [] => wrong (.missingField "op")
  | .arr (first :: rest) => do
    let kind ← decodePredicateKind form first
    if Reading.areSound depth rest then return (kind, .arr rest) else .error .malformed
  | reading => mismatch "internally tagged enum Predicate" reading

/-- Decodes a predicate inside lists and objects of which `depth` more may be nested in it. -/
def decodePredicateWithin (form : Form) : Nat → Reading → Decoded Predicate
  | 0, _ => .error .malformed
  | depth + 1, reading => do
    let (kind, fields) ← decodeTagged form depth reading
    match kind with
    | .isIn =>
      let (column, values) ← (TestDraft.decoder "variant Predicate::In").run .aside fields
      return .isIn column values
    | .notIn =>
      let (column, values) ← (TestDraft.decoder "variant Predicate::NotIn").run .aside fields
      return .notIn column values
    | .all =>
      return .all (← (conjunctionDecoder (decodePredicateWithin .aside depth)).run .aside fields)

def decodePredicates (form : Form) (reading : Reading) : Decoded (List Predicate) :=
  decodeList (decodePredicateWithin form (nestingLimit - 1)) reading

def decodeRows (reading : Reading) : Decoded (List Row) := decodeList decodeTable reading

end FilterAlgebra
