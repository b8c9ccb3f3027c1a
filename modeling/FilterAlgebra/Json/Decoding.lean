import FilterAlgebra.Json.Reader
import FilterAlgebra.Number.Written
import FilterAlgebra.Text.Quoted

/-!
# Decoding JSON

Readings are decoded from left to right and the first thing wrong ends the decoding: either the text
stops being JSON there, or a value has the wrong shape. What is wrong with a shape is a cause with a
wording of its own.

A value comes in one of three forms, which differ in a few of those answers. Decoded straight from
a text, some values of the wrong kind already count as malformed. A value that has been read as a
whole has its members in order, each once. A value that was set aside while the members around it
were read is judged like that, but keeps its members as they were.
-/

namespace FilterAlgebra.Json

inductive Form where
  /-- Straight from a text. -/
  | text
  /-- Read as a whole before. -/
  | value
  /-- Set aside while the members around it were read. -/
  | aside
  deriving DecidableEq, Repr

/-! ### Errors -/

/-- What is wrong with the shape of a value. -/
inductive ShapeError where
  | missingField (name : Text)
  | duplicateField (name : Text)
  | unknownVariant (found : Text) (variants : List Text)
  /-- A filter value that is neither a scalar nor a list of scalars. -/
  | notScalars
  | wrongType (found expected : Text)
  | wrongValue (found expected : Text)
  | wrongLength (length : Nat) (expected : Text)
  deriving DecidableEq, Repr

/-- A text between backticks, which mark names in messages. -/
def marked (s : Text) : Text := '\x60' :: (s ++ ['\x60'])

/-- The names of variants as a list of alternatives. -/
def alternatives : List Text → Text
  | [first] => marked first
  | [first, second] => marked first ++ " or " ++ marked second
  | names => "one of " ++ List.intercalate ", " (names.map marked)

/-- The wording of what is wrong with a shape. -/
def ShapeError.message : ShapeError → Text
  | missingField name => "missing field " ++ marked name
  | duplicateField name => "duplicate field " ++ marked name
  | unknownVariant found variants =>
    "unknown variant " ++ marked found ++ ", expected " ++ alternatives variants
  | notScalars => "data did not match any variant of untagged enum RawValue"
  | wrongType found expected => "invalid type: " ++ found ++ ", expected " ++ expected
  | wrongValue found expected => "invalid value: " ++ found ++ ", expected " ++ expected
  | wrongLength length expected =>
    "invalid length " ++ natText length ++ ", expected " ++ expected

inductive DecodeError where
  /-- The text is not JSON. -/
  | malformed
  | shape (error : ShapeError)
  deriving DecidableEq, Repr

abbrev Decoded (α : Type) := Except DecodeError α

/-- A failure for the shape of a value. -/
def wrong {α : Type} (error : ShapeError) : Decoded α := .error (.shape error)

/-- A reading as it is named in messages. -/
def Reading.description : Reading → Text
  | .null => "null"
  | .bool value => "boolean " ++ marked (if value then "true" else "false")
  | .int value => "integer " ++ marked (intText value)
  | .float value => "floating point " ++ marked value.compact
  | .str value => "string " ++ value.quoted
  | .arr _ => "sequence"
  | .obj _ => "map"
  | .torn .. => "map"
  | .unusable => []
  | .broken => []

/-- The failure of a value that is not of the expected type. -/
def mismatch {α : Type} (expected : Text) : Reading → Decoded α
  | .unusable => .error .malformed
  | .broken => .error .malformed
  | reading => wrong (.wrongType reading.description expected)

/-! ### Scalars -/

def decodeText : Reading → Decoded Text
  | .str value => .ok value
  | reading => mismatch "a string" reading

/-- Decodes a binary64 number; integers are rounded to the nearest one. -/
def decodeNumber : Reading → Decoded Binary64
  | .int value => .ok (.ofInt value)
  | .float value => .ok value
  | reading => mismatch "f64" reading

/-- Decodes an integer of a range, which has the given name. -/
def decodeInteger (name : Text) (low high : Int) : Reading → Decoded Int
  | .int value =>
    if low ≤ value ∧ value ≤ high then .ok value
    else wrong (.wrongValue (Reading.int value).description name)
  | reading => mismatch name reading

def decodeInt32 (reading : Reading) : Decoded Int :=
  decodeInteger "i32" (-2147483648) 2147483647 reading

/-- Decodes a count: an integer of sixty-four bits without a sign. -/
def decodeCount (reading : Reading) : Decoded Nat :=
  (decodeInteger "usize" 0 18446744073709551615 reading).map Int.toNat

/-! ### Structures -/

/-- Decodes `null` as nothing, and anything else by the given decoder. -/
def decodeOption {α : Type} (decode : Reading → Decoded α) : Reading → Decoded (Option α)
  | .null => .ok none
  | reading => (decode reading).map some

def decodeList {α : Type} (decode : Reading → Decoded α) : Reading → Decoded (List α)
  | .arr items => items.mapM decode
  | reading => mismatch "a sequence" reading

def skipValue (reading : Reading) : Decoded Unit :=
  if reading.isWhole then .ok () else .error .malformed

/-- Decodes a field that may be given once. -/
def decodeField {α : Type} (name : Text) (seen : Option α) (decode : Reading → Decoded α)
    (reading : Reading) : Decoded (Option α) :=
  match seen with
  | some _ => wrong (.duplicateField name)
  | none => (decode reading).map some

/-- The value of a field that has to be there. -/
def required {α : Type} (name : Text) (seen : Option α) : Decoded α :=
  match seen with
  | some value => .ok value
  | none => wrong (.missingField name)

/-- How a structure is decoded: from an object, member by member in order, or from a list of its
fields in order. A list must be as long as the structure has fields; it may be shorter if the
missing ones can be left out. -/
structure StructureDecoder (σ α : Type) where
  /-- What the structure is called in messages. -/
  name : Text
  fieldCount : Nat
  /-- What has been read at the start. -/
  start : σ
  /-- Reads a member of an object. -/
  member : σ → Text → Reading → Decoded σ
  /-- Reads the item of a list at a position. -/
  position : Nat → σ → Reading → Decoded σ
  /-- The structure at the end of an object. -/
  finish : σ → Decoded α
  /-- The structure at the end of a list of a length. -/
  finishList : Nat → σ → Decoded α

/-- The wording of how many items a list should have had. -/
def elementCount (count : Nat) : Text :=
  natText count ++ if count = 1 then " element" else " elements"

namespace StructureDecoder

variable {σ α : Type} (decoder : StructureDecoder σ α)

def members (state : σ) : List (Text × Reading) → Decoded σ
  | [] => .ok state
  | (key, value) :: rest => do
    let state ← decoder.member state key value
    members state rest

/-- Decodes items in order, the first of them at the given position. -/
def items (index : Nat) (state : σ) : List Reading → Decoded σ
  | [] => .ok state
  | item :: rest => do
    let state ← decoder.position index state item
    items (index + 1) state rest

/-- The failure of a list with more items than there are fields. -/
def tooLong (form : Form) (length : Nat) : Decoded α :=
  match form with
  | .text => .error .malformed
  | .value => wrong (.wrongLength length "fewer elements in array")
  | .aside => wrong (.wrongLength length (elementCount decoder.fieldCount ++ " in sequence"))

def run (form : Form) : Reading → Decoded α
  | .obj members => do decoder.finish (← decoder.members decoder.start members)
  | .torn members _ => do
    let _ ← decoder.members decoder.start members
    .error .malformed
  | .arr items => do
    let state ← decoder.items 0 decoder.start (items.take decoder.fieldCount)
    let value ← decoder.finishList items.length state
    if decoder.fieldCount < items.length then decoder.tooLong form items.length else .ok value
  | reading => mismatch ("struct " ++ decoder.name) reading

end StructureDecoder

/-! ### Variants -/

def variantNamed {α : Type} (variants : List (Text × α)) (name : Text) : Decoded α :=
  match variants.lookup name with
  | some value => .ok value
  | none => wrong (.unknownVariant name (variants.map Prod.fst))

/-- Decodes the value beside the name of a variant without content: `null`. -/
def decodeUnit (form : Form) (reading : Reading) : Decoded Unit :=
  match reading with
  | .null => .ok ()
  | .obj [] => if form = .aside then .ok () else mismatch "unit" reading
  | _ => mismatch "unit" reading

/-- Decodes a variant without content: its name, or an object that has its name as its only key. -/
def decodeVariant {α : Type} (form : Form) (variants : List (Text × α)) (reading : Reading) :
    Decoded α :=
  let object (members : List (Text × Reading)) (closed : Bool) : Decoded α :=
    match members with
    | [] => .error .malformed
    | (name, content) :: rest => do
      let value ← variantNamed variants name
      decodeUnit form content
      if rest.isEmpty && closed then .ok value else .error .malformed
  match form, reading with
  | _, .str name => variantNamed variants name
  | .text, .obj members => object members true
  | .text, .torn members _ => object members false
  | .text, _ => .error .malformed
  | _, .obj [(name, content)] => do
    let value ← variantNamed variants name
    decodeUnit form content
    return value
  | _, .obj _ => wrong (.wrongValue "map" "map with a single key")
  | _, reading => mismatch "string or map" reading

/-! ### Texts -/

/-- Decodes a text as one value; nothing but spaces may follow it. -/
def decodeDocument {α : Type} (decode : Reading → Decoded α) (s : Text) : Decoded α := do
  let (reading, ended) := read s
  let value ← decode reading
  if ended then .ok value else .error .malformed

end FilterAlgebra.Json
