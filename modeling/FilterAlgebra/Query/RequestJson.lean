import FilterAlgebra.Json.Decoding
import FilterAlgebra.Query.Request

/-!
# Search requests as JSON

A request is an object of its parts; the order and the parameters are left out when there are none.
It may also be read from a list of its parts. The parts of a compiled query are an object as well.
-/

namespace FilterAlgebra

open Json

/-! ### Writing -/

/-- A main query and its filter queries as JSON. -/
def QueryParts.toJson (parts : QueryParts) : Json :=
  .obj [("query", .str parts.query), ("filter", .texts parts.filter)]

def tableJson (t : Table Text) : Json := .obj (t.entries.map fun (key, value) => (key, .str value))

def SearchRequest.toJson (r : SearchRequest) : Json :=
  .obj
    (("query", .str r.query) :: ("filter", .texts r.filter)
      :: ("limit", .int r.limit) :: ("offset", .int r.offset)
      :: (optional "sort" (r.sort.map .str)
        ++ optional "params" (if r.params.entries = [] then none else some (tableJson r.params))))

/-! ### Reading -/

def decodeTable (reading : Reading) : Decoded (Table Text) :=
  let entries (members : List (Text × Reading)) : Decoded (List (Text × Text)) :=
    members.mapM fun (key, value) => (decodeText value).map fun text => (key, text)
  match reading with
  | .obj members => (entries members).map Table.ofList
  | .torn members _ => do
    let _ ← entries members
    .error .malformed
  | reading => mismatch "a map" reading

/-- The parts of a request that have been read. -/
structure RequestDraft where
  query : Option Text := none
  filter : Option (List Text) := none
  limit : Option Nat := none
  offset : Option Nat := none
  sort : Option (Option Text) := none
  params : Option (Table Text) := none

namespace RequestDraft

def readMember (draft : RequestDraft) (key : Text) (value : Reading) : Decoded RequestDraft :=
  if key = "query" then do
    return { draft with query := ← decodeField key draft.query decodeText value }
  else if key = "filter" then do
    return { draft with filter := ← decodeField key draft.filter (decodeList decodeText) value }
  else if key = "limit" then do
    return { draft with limit := ← decodeField key draft.limit decodeCount value }
  else if key = "offset" then do
    return { draft with offset := ← decodeField key draft.offset decodeCount value }
  else if key = "sort" then do
    return { draft with sort := ← decodeField key draft.sort (decodeOption decodeText) value }
  else if key = "params" then do
    return { draft with params := ← decodeField key draft.params decodeTable value }
  else do
    skipValue value
    return draft

/-- The names of the parts of a request, in order. -/
def fieldNames : List Text := ["query", "filter", "limit", "offset", "sort", "params"]

/-- The request of a draft; its first four parts have to be there. -/
def request (draft : RequestDraft) : Decoded SearchRequest := do
  let query ← required "query" draft.query
  let filter ← required "filter" draft.filter
  let limit ← required "limit" draft.limit
  let offset ← required "offset" draft.offset
  return {
    query, filter, limit, offset
    sort := draft.sort.getD none
    params := draft.params.getD {} }

def decoder : StructureDecoder RequestDraft SearchRequest where
  name := "SearchRequest"
  fieldCount := 6
  start := {}
  member := readMember
  position index draft value := draft.readMember (fieldNames.getD index []) value
  finish := request
  finishList length draft :=
    if length < 4 then wrong (.wrongLength length "struct SearchRequest with 6 elements")
    else draft.request

end RequestDraft

def decodeRequest (form : Form) (reading : Reading) : Decoded SearchRequest :=
  RequestDraft.decoder.run form reading

end FilterAlgebra
