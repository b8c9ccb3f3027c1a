import FilterAlgebra.Failure
import FilterAlgebra.Filter.Json
import FilterAlgebra.Wire.Base64
import FilterAlgebra.Wire.Cbor

/-!
# Filters on the wire

A list of filters in a compact form for URLs and job payloads: CBOR, then Base64. A filter is a map
of the fields it has, in the order of its JSON form. Reading allows for other encoders: tags and
unknown fields are passed over, values may be numbers or booleans, and octets after the list do not
count.
-/

namespace FilterAlgebra.Wire

open Cbor

/-! ### Writing -/

/-- The octets of values: a string, or a list of strings. -/
def valueOctets : FilterValue → Octets
  | .one value => textOctets value
  | .many values => headOctets 4 values.length ++ values.flatMap textOctets

/-- The octets of a field, for each value it has. -/
def fieldOctets {α : Type} (name : Text) (value : Option α) (octets : α → Octets) : Octets :=
  match value with
  | some value => textOctets name ++ octets value
  | none => []

/-- The number of fields that a filter has. -/
def fieldCount (f : Filter) : Nat :=
  2 + f.op.toList.length + f.precision.toList.length + f.q.toList.length

def filterOctets (f : Filter) : Octets :=
  headOctets 5 (fieldCount f)
    ++ textOctets "type" ++ textOctets f.type.name
    ++ textOctets "context" ++ textOctets f.context.name
    ++ fieldOctets "op" f.op (fun op => textOctets op.name)
    ++ fieldOctets "precision" f.precision (fun precision => textOctets precision.name)
    ++ fieldOctets "q" f.q valueOctets

/-- The octets of a list of filters. -/
def filtersOctets (filters : List Filter) : Octets :=
  headOctets 4 filters.length ++ filters.flatMap filterOctets

/-- The wire text of a list of filters. -/
def encodeFilters (filters : List Filter) : Text := Base64.encode (filtersOctets filters)

/-! ### Reading values -/

/-- Reads a scalar as the text by which it is kept. A negative integer has to fit a word. -/
def readScalar? (s : Octets) : Option (Text × Octets) :=
  match readHead? s with
  | some (.unsigned n, rest) => some (integerText n, rest)
  | some (.negative n, rest) =>
    if fitsSigned (-1 - n) then some (integerText (-1 - n), rest) else none
  | some (.float value, rest) => some (value.plain, rest)
  | some (.simple n, rest) =>
    if n = 20 then some ("false", rest) else if n = 21 then some ("true", rest) else none
  | some (.text _, _) => readText? s
  | some (.bytes _, _) => do
    let (octets, rest) ← readBytes? s
    return (← Text.ofBytes? octets, rest)
  | _ => none

/-- Reads a number of scalars, or scalars up to the mark of the end. -/
def readScalars? : Nat → Option Nat → Reader (List Text)
  | 0, _, _ => none
  | _ + 1, some 0, s => some ([], s)
  | fuel + 1, some (count + 1), s => do
    let (value, s) ← readScalar? s
    let (values, s) ← readScalars? fuel (some count) s
    return (value :: values, s)
  | fuel + 1, none, s =>
    match readHead? s with
    | some (.stop, s) => some ([], s)
    | _ => do
      let (value, s) ← readScalar? s
      let (values, s) ← readScalars? fuel none s
      return (value :: values, s)

def readValue? (s : Octets) : Option (FilterValue × Octets) :=
  match readHead? s with
  | some (.array length, s) =>
    (readScalars? (s.length + 1) length s).map fun (values, s) => (.many values, s)
  | _ => (readScalar? s).map fun (value, s) => (.one value, s)

/-! ### Reading fields -/

/-- Reads an item that may be null or undefined. -/
def readOptional? {α : Type} (read? : Reader α) (s : Octets) : Option (Option α × Octets) :=
  match readHead? s with
  | some (.simple n, rest) =>
    if n = 22 ∨ n = 23 then some (none, rest)
    else (read? s).map fun (value, s) => (some value, s)
  | _ => (read? s).map fun (value, s) => (some value, s)

/-- Reads the type of a filter, which is a text string behind any number of tags. -/
def readType? : Nat → Reader FilterType
  | 0, _ => none
  | fuel + 1, s =>
    match readHead? s with
    | some (.tag _, s) => readType? fuel s
    | _ => (readText? s).map fun (name, s) => (.ofName name, s)

/-- Reads one of some names, as a string or as the only key of a map. What such a map holds under
its key is not part of it. -/
def readVariant? {α : Type} (variants : List (Text × α)) : Nat → Reader α
  | 0, _ => none
  | fuel + 1, s =>
    let named (s : Octets) : Option (α × Octets) := do
      let (name, s) ← readName? s
      let name ← Text.ofBytes? name
      return (← variants.lookup name, s)
    match readHead? s with
    | some (.tag _, s) => readVariant? variants fuel s
    | some (.map (some 1), s) => named s
    | some (.text _, _) => named s
    | _ => none

/-- Reads a field that may be given once. -/
def readField? {α : Type} (seen : Option α) (read? : Reader α) : Reader (Option α) := fun s =>
  match seen with
  | some _ => none
  | none => (read? s).map fun (value, s) => (some value, s)

/-- How deep an unknown field of a filter may be nested. -/
def depthLimit : Nat := 254

/-- Reads a field of a filter by its name. -/
def readMember? (draft : FilterDraft) (name : Octets) (s : Octets) :
    Option (FilterDraft × Octets) :=
  let fuel := s.length + 1
  if name = Text.toBytes "type" then do
    let (type, s) ← readField? draft.type (readType? fuel) s
    return ({ draft with type }, s)
  else if name = Text.toBytes "context" then do
    let (context, s) ← readField? draft.context (readVariant? contextNames fuel) s
    return ({ draft with context }, s)
  else if name = Text.toBytes "op" then do
    let (op, s) ← readField? draft.op (readOptional? (readVariant? opNames fuel)) s
    return ({ draft with op }, s)
  else if name = Text.toBytes "precision" then do
    let (precision, s) ←
      readField? draft.precision (readOptional? (readVariant? precisionNames fuel)) s
    return ({ draft with precision }, s)
  else if name = Text.toBytes "q" then do
    let (q, s) ← readField? draft.q (readOptional? readValue?) s
    return ({ draft with q }, s)
  else (skip? (3 * s.length + 1) depthLimit s).map fun s => (draft, s)

/-- Reads a number of fields, or fields up to the mark of the end. -/
def readMembers? : Nat → Option Nat → FilterDraft → Reader FilterDraft
  | 0, _, _, _ => none
  | _ + 1, some 0, draft, s => some (draft, s)
  | fuel + 1, some (count + 1), draft, s => do
    let (name, s) ← readName? s
    let (draft, s) ← readMember? draft name s
    readMembers? fuel (some count) draft s
  | fuel + 1, none, draft, s =>
    match readHead? s with
    | some (.stop, s) => some (draft, s)
    | _ => do
      let (name, s) ← readName? s
      let (draft, s) ← readMember? draft name s
      readMembers? fuel none draft s

/-! ### Reading filters -/

def readFilter? (s : Octets) : Option (Filter × Octets) := do
  let (head, s) ← readUntagged? (s.length + 1) s
  match head with
  | .map length =>
    let (draft, s) ← readMembers? (s.length + 1) length {} s
    return (draft.withType (← draft.type), s)
  | _ => none

/-- Reads a number of filters, or filters up to the mark of the end. -/
def readFilters? : Nat → Option Nat → Reader (List Filter)
  | 0, _, _ => none
  | _ + 1, some 0, s => some ([], s)
  | fuel + 1, some (count + 1), s => do
    let (f, s) ← readFilter? s
    let (filters, s) ← readFilters? fuel (some count) s
    return (f :: filters, s)
  | fuel + 1, none, s =>
    match readHead? s with
    | some (.stop, s) => some ([], s)
    | _ => do
      let (f, s) ← readFilter? s
      let (filters, s) ← readFilters? fuel none s
      return (f :: filters, s)

/-- Reads a list of filters behind any number of tags. An empty byte string is an empty list. -/
def readList? : Nat → Octets → Option (List Filter)
  | 0, _ => none
  | fuel + 1, s =>
    match readHead? s with
    | some (.tag _, s) => readList? fuel s
    | some (.array length, s) => (readFilters? (s.length + 1) length s).map Prod.fst
    | some (.bytes _, _) =>
      match readBytes? s with
      | some ([], _) => some []
      | _ => none
    | _ => none

/-! ### Wire texts -/

/-- Why a wire text cannot be decoded: it is no Base64, or its octets hold no list of filters. -/
inductive DecodeError where
  | base64 (error : Base64.DecodeError)
  | cbor
  deriving DecidableEq, Repr

def DecodeError.toFailure : DecodeError → FilterError
  | base64 error => .wire error.message
  | cbor => .wire "no list of filters"

/-- The list of filters of a wire text, which may stand between blanks. -/
def decodeFilters (wire : Text) : Except DecodeError (List Filter) :=
  match Base64.decode (Text.toBytes (Text.trim wire)) with
  | .error error => .error (.base64 error)
  | .ok octets =>
    match readList? (octets.length + 1) octets with
    | some filters => .ok filters
    | none => .error .cbor

end FilterAlgebra.Wire
