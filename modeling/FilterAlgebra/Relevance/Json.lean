import FilterAlgebra.Filter.Json
import FilterAlgebra.Relevance.Basic

/-!
# Relevance items as JSON

An item is an object of its weight, its kind under `type` and what the kind needs under
`parameters`. The weight is decoded where it stands; kind and parameters are set aside and looked at
once the whole item has been read, the kind before the parameters. Parameters and weighted
identifiers may also be lists of their fields.
-/

namespace FilterAlgebra

open Json

/-! ### Weighted identifiers -/

/-- The fields of a weighted identifier that have been read. -/
structure WeightedIdDraft where
  id : Option Text := none
  weight : Option Binary64 := none

namespace WeightedIdDraft

def readMember (draft : WeightedIdDraft) (key : Text) (value : Reading) :
    Decoded WeightedIdDraft :=
  if key = "id" then do
    return { draft with id := ← decodeField key draft.id decodeText value }
  else if key = "weight" then do
    return { draft with weight := ← decodeField key draft.weight decodeNumber value }
  else do
    skipValue value
    return draft

def weightedId (draft : WeightedIdDraft) : Decoded WeightedId := do
  let id ← required "id" draft.id
  let weight ← required "weight" draft.weight
  return { id, weight }

def decoder : StructureDecoder WeightedIdDraft WeightedId where
  name := "WeightedId"
  fieldCount := 2
  start := {}
  member := readMember
  position index draft value := draft.readMember (if index = 0 then "id" else "weight") value
  finish := weightedId
  finishList length draft :=
    if length < 2 then wrong (.wrongLength length "struct WeightedId with 2 elements")
    else draft.weightedId

end WeightedIdDraft

/-- Decodes a list of weighted identifiers that was set aside. -/
def decodeWeightedIds (reading : Reading) : Decoded (List WeightedId) :=
  decodeList (WeightedIdDraft.decoder.run .aside) reading

/-! ### Parameters -/

/-- How the parameters of a kind with weighted identifiers are decoded: one list under the given
key, empty if it is left out. -/
def idsDecoder (name key : Text) :
    StructureDecoder (Option (List WeightedId)) (List WeightedId) where
  name := name
  fieldCount := 1
  start := none
  member seen k value :=
    if k = key then decodeField key seen decodeWeightedIds value
    else do
      skipValue value
      return seen
  position _ seen value := decodeField key seen decodeWeightedIds value
  finish seen := .ok (seen.getD [])
  finishList _ seen := .ok (seen.getD [])

/-- The bounds of a range of years that have been read. -/
structure YearsDraft where
  startYear : Option (Option Int) := none
  endYear : Option (Option Int) := none

namespace YearsDraft

def readMember (draft : YearsDraft) (key : Text) (value : Reading) : Decoded YearsDraft :=
  if key = "startYear" then do
    let decode := decodeOption decodeInt32
    return { draft with startYear := ← decodeField key draft.startYear decode value }
  else if key = "endYear" then do
    let decode := decodeOption decodeInt32
    return { draft with endYear := ← decodeField key draft.endYear decode value }
  else do
    skipValue value
    return draft

/-- The range of years of a draft. -/
def kind (draft : YearsDraft) : RelevanceKind :=
  .timeRange (draft.startYear.getD none) (draft.endYear.getD none)

/-- How a range of years is decoded. -/
def decoder : StructureDecoder YearsDraft RelevanceKind where
  name := "TimeRangeParameters"
  fieldCount := 2
  start := {}
  member := readMember
  position index draft value :=
    draft.readMember (if index = 0 then "startYear" else "endYear") value
  finish draft := .ok draft.kind
  finishList _ draft := .ok draft.kind

end YearsDraft

/-- The kinds by name, each with the decoder of its parameters. -/
def relevanceKinds : List (Text × (Reading → Decoded RelevanceKind)) :=
  [("timeRange", YearsDraft.decoder.run .aside),
    ("locations", fun parameters =>
      ((idsDecoder "EntityParameters" "entities").run .aside parameters).map .locations),
    ("persons", fun parameters =>
      ((idsDecoder "EntityParameters" "entities").run .aside parameters).map .persons),
    ("topics", fun parameters =>
      ((idsDecoder "TopicParameters" "topics").run .aside parameters).map .topics),
    ("textReuseClusters", fun parameters =>
      ((idsDecoder "ClusterParameters" "textReuseClusters").run .aside parameters).map
        .textReuseClusters)]

/-! ### Items -/

/-- What has been read of an item: its weight, and its kind and parameters in the order and number
in which they were given. -/
structure ItemDraft where
  weight : Option Binary64 := none
  setAside : List (Text × Reading) := []

/-- Whether a key is one of the two that make up a kind. -/
def isKindKey (key : Text) : Bool := key = "type" || key = "parameters"

def ItemDraft.readMembers (depth : Nat) (draft : ItemDraft) :
    List (Text × Reading) → Decoded ItemDraft
  | [] => .ok draft
  | (key, value) :: rest =>
    if key = "weight" then do
      let weight ← decodeField key draft.weight decodeNumber value
      ItemDraft.readMembers depth { draft with weight } rest
    else if value.isSound depth then
      let setAside :=
        if isKindKey key then draft.setAside ++ [(key, value)] else draft.setAside
      ItemDraft.readMembers depth { draft with setAside } rest
    else .error .malformed

def noMore : List (Text × Reading) → Decoded Unit
  | [] => .ok ()
  | (key, _) :: _ => wrong (.duplicateField key)

/-- Decodes a kind from what was set aside. -/
def decodeKind : List (Text × Reading) → Decoded RelevanceKind
  | [] => wrong (.missingField "type")
  | (first, value) :: rest =>
    if first = "type" then do
      let decode ← decodeVariant .aside relevanceKinds value
      match rest with
      | [] => wrong (.missingField "parameters")
      | (second, parameters) :: rest =>
        if second = "type" then wrong (.duplicateField "type")
        else do
          let kind ← decode parameters
          noMore rest
          return kind
    else
      match rest with
      | [] => wrong (.missingField "type")
      | (second, name) :: rest =>
        if second = "type" then do
          let decode ← decodeVariant .aside relevanceKinds name
          let kind ← decode value
          noMore rest
          return kind
        else wrong (.duplicateField "parameters")

/-- Decodes an item inside a number of lists and objects. -/
def decodeRelevanceItem (outer : Nat) (reading : Reading) : Decoded RelevanceItem :=
  let depth := nestingLimit - outer - 1
  match reading with
  | .obj members => do
    let draft ← ItemDraft.readMembers depth {} members
    let weight ← required "weight" draft.weight
    let kind ← decodeKind draft.setAside
    return { kind, weight }
  | .torn members _ => do
    let _ ← ItemDraft.readMembers depth {} members
    .error .malformed
  | reading => mismatch "struct RelevanceContextItem" reading

def decodeRelevanceItems (reading : Reading) : Decoded (List RelevanceItem) :=
  decodeList (decodeRelevanceItem 1) reading

end FilterAlgebra
