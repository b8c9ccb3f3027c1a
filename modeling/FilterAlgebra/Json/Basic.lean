import FilterAlgebra.Number.Binary64
import FilterAlgebra.Text.Table

/-!
# JSON values

Two views of JSON. `Json` is what this library writes: objects keep the order of their members and
numbers are integers. `Json.Reading` is what can be read of a text, from left to right, up to the
place where the text stops being JSON; it tells a text that ends badly from one that holds the wrong
things before its end. A value that was written is also a reading, with nothing wrong in it.
-/

namespace FilterAlgebra

inductive Json where
  | null
  | bool (value : Bool)
  | int (value : Int)
  | str (value : Text)
  | arr (items : List Json)
  | obj (members : List (Text × Json))

namespace Json

/-- A member that is left out when there is no value for it. -/
def optional (key : Text) (value : Option Json) : List (Text × Json) :=
  match value with
  | some json => [(key, json)]
  | none => []

def texts (items : List Text) : Json := .arr (items.map .str)

mutual

/-- The same value with the members of every object in the order of their keys. -/
def sorted : Json → Json
  | arr items => .arr (sortedItems items)
  | obj members => .obj (sortedMembers members [])
  | value => value

def sortedItems : List Json → List Json
  | [] => []
  | item :: items => sorted item :: sortedItems items

def sortedMembers : List (Text × Json) → List (Text × Json) → List (Text × Json)
  | [], done => done
  | (key, value) :: members, done => sortedMembers members (putEntry key (sorted value) done)

end

/-- What can be read of a text as JSON. -/
inductive Reading where
  | null
  | bool (value : Bool)
  | int (value : Int)
  | float (value : Binary64)
  | str (value : Text)
  | arr (items : List Reading)
  | obj (members : List (Text × Reading))
  /-- An object that cannot be read past its members, because no text stands where a key should. It
  may be whole all the same, which is to say keep to the grammar to its end. -/
  | torn (members : List (Text × Reading)) (whole : Bool)
  /-- A string or number that keeps to the grammar and denotes no text or finite number. -/
  | unusable
  /-- The place where the text stops being JSON. -/
  | broken

mutual

/-- A value that was written, as a reading. -/
def toReading : Json → Reading
  | null => .null
  | bool value => .bool value
  | int value => .int value
  | str value => .str value
  | arr items => .arr (toReadings items)
  | obj members => .obj (memberReadings members)

def toReadings : List Json → List Reading
  | [] => []
  | item :: items => toReading item :: toReadings items

def memberReadings : List (Text × Json) → List (Text × Reading)
  | [] => []
  | (key, value) :: members => (key, toReading value) :: memberReadings members

end

namespace Reading

mutual

/-- Whether a reading keeps to the grammar of JSON throughout, which is all that is asked of a value
that is passed over. -/
def isWhole : Reading → Bool
  | arr items => areWhole items
  | obj members => membersWhole members
  | torn members whole => membersWhole members && whole
  | broken => false
  | _ => true

def areWhole : List Reading → Bool
  | [] => true
  | item :: items => item.isWhole && areWhole items

def membersWhole : List (Text × Reading) → Bool
  | [] => true
  | (_, value) :: members => value.isWhole && membersWhole members

end

mutual

/-- Whether every part of a reading denotes a value, and lists and objects are nested at most
`depth` deep. -/
def isSound (depth : Nat) : Reading → Bool
  | arr items => decide (0 < depth) && areSound (depth - 1) items
  | obj members => decide (0 < depth) && membersSound (depth - 1) members
  | torn .. => false
  | unusable => false
  | broken => false
  | _ => true

def areSound (depth : Nat) : List Reading → Bool
  | [] => true
  | item :: items => item.isSound depth && areSound depth items

def membersSound (depth : Nat) : List (Text × Reading) → Bool
  | [] => true
  | (_, value) :: members => value.isSound depth && membersSound depth members

end

/-! ### Canonical order -/

mutual

/-- The same value with the members of every object in the order of their keys, and the last one
kept of those that share a key. -/
def sorted : Reading → Reading
  | arr items => .arr (sortedItems items)
  | obj members => .obj (sortedMembers members [])
  | reading => reading

def sortedItems : List Reading → List Reading
  | [] => []
  | item :: items => sorted item :: sortedItems items

def sortedMembers : List (Text × Reading) → List (Text × Reading) → List (Text × Reading)
  | [], done => done
  | (key, value) :: members, done => sortedMembers members (putEntry key (sorted value) done)

end

/-! ### Access -/

/-- The value of a member of an object. -/
def member? (key : Text) : Reading → Option Reading
  | obj members => members.lookup key
  | _ => none

end Reading

end Json

end FilterAlgebra
