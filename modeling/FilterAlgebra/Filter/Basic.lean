import FilterAlgebra.Text.Blank

/-!
# Filters

A filter is one declarative search constraint: a type that says what is tested, the values to test
for, and three modifiers. Types that are not known are kept by name, so that consumers who share one
list of filters can skip them. Blank values do not count: a filter with no other values means
"anything".
-/

namespace FilterAlgebra

/-! ### Types -/

inductive FilterType where
  | string
  | title
  | daterange
  | newspaper
  | year
  | language
  | type
  | country
  | collection
  | topic
  | person
  | location
  | entity
  | uid
  | issue
  | page
  | partner
  | accessRight
  | isFront
  | hasTextContents
  | contentLength
  | textReuseCluster
  | textReuseClusterSize
  | textReuseClusterLexicalOverlap
  | textReuseClusterDayDelta
  | wikidataId
  /-- A type without a meaning here, by its name. -/
  | unknown (name : Text)
  deriving DecidableEq, Repr

namespace FilterType

/-- The types that are known, in their usual order. -/
def known : List FilterType :=
  [string, title, daterange, newspaper, year, language, type, country, collection, topic, person,
    location, entity, uid, issue, page, partner, accessRight, isFront, hasTextContents,
    contentLength, textReuseCluster, textReuseClusterSize, textReuseClusterLexicalOverlap,
    textReuseClusterDayDelta, wikidataId]

def name : FilterType → Text
  | string => "string"
  | title => "title"
  | daterange => "daterange"
  | newspaper => "newspaper"
  | year => "year"
  | language => "language"
  | type => "type"
  | country => "country"
  | collection => "collection"
  | topic => "topic"
  | person => "person"
  | location => "location"
  | entity => "entity"
  | uid => "uid"
  | issue => "issue"
  | page => "page"
  | partner => "partner"
  | accessRight => "accessRight"
  | isFront => "isFront"
  | hasTextContents => "hasTextContents"
  | contentLength => "contentLength"
  | textReuseCluster => "textReuseCluster"
  | textReuseClusterSize => "textReuseClusterSize"
  | textReuseClusterLexicalOverlap => "textReuseClusterLexicalOverlap"
  | textReuseClusterDayDelta => "textReuseClusterDayDelta"
  | wikidataId => "wikidataId"
  | unknown name => name

/-- The type with a name: the known one, if there is one of that name. -/
def ofName (name : Text) : FilterType :=
  (known.find? fun t => t.name = name).getD (unknown name)

/-- Whether the type is one of those that are known. -/
def isKnown : FilterType → Bool
  | unknown _ => false
  | _ => true

/-- A type keeps the name it was given. -/
theorem name_ofName (name : Text) : (ofName name).name = name := by
  unfold ofName
  cases h : known.find? (fun t => t.name = name) with
  | none => rfl
  | some t => simpa using List.find?_some h

theorem ofName_name {t : FilterType} (h : t.isKnown = true) : ofName t.name = t := by
  cases t with
  | unknown name => cases h
  | _ => decide +kernel

/-- Free text belongs to the main query rather than to a filter query. -/
def isText : FilterType → Bool
  | string | title => true
  | _ => false

/-- A flag is a fixed condition, whatever its values are. -/
def isFlag : FilterType → Bool
  | isFront | hasTextContents => true
  | _ => false

/-- The values of a numeric range are its two bounds. -/
def isNumericRange : FilterType → Bool
  | contentLength | textReuseClusterSize | textReuseClusterLexicalOverlap
  | textReuseClusterDayDelta => true
  | _ => false

end FilterType

/-! ### Modifiers -/

/-- Whether what a filter describes is wanted or unwanted. -/
inductive Context where
  | included
  | excluded
  deriving DecidableEq, Repr

inductive Op where
  | and
  | or
  deriving DecidableEq, Repr

def Op.name : Op → Text
  | and => "AND"
  | or => "OR"

/-- How closely free text has to match; `part` lets the last word go on. -/
inductive Precision where
  | exact
  | part
  | fuzzy
  | soft
  deriving DecidableEq, Repr

/-! ### Values -/

/-- The values of a filter: one, or a list of any length. -/
inductive FilterValue where
  | one (value : Text)
  | many (values : List Text)
  deriving DecidableEq, Repr

/-- All values in order; one value counts as a list of one. -/
def FilterValue.toList : FilterValue → List Text
  | one value => [value]
  | many values => values

def FilterValue.length (q : FilterValue) : Nat := q.toList.length

/-! ### Filters -/

structure Filter where
  type : FilterType
  context : Context := .included
  op : Option Op := none
  precision : Option Precision := none
  q : Option FilterValue := none
  deriving DecidableEq, Repr

namespace Filter

/-- Whether the filter describes what is unwanted. -/
def isExcluded (f : Filter) : Bool := f.context = .excluded

def rawValues (f : Filter) : List Text := (f.q.map FilterValue.toList).getD []

/-- The values that count: those that are not blank. -/
def values (f : Filter) : List Text := f.rawValues.filter fun value => !Text.isBlankText value

/-- Whether the filter has no value that counts and so means "anything". -/
def isWildcard (f : Filter) : Bool := f.values.isEmpty

theorem isWildcard_iff (f : Filter) :
    f.isWildcard = true ↔ ∀ value ∈ f.rawValues, Text.isBlankText value = true := by
  simp [isWildcard, values, List.filter_eq_nil_iff]

/-- The number of values, blank ones included; none without a value field. -/
def valueCount (f : Filter) : Nat := (f.q.map FilterValue.length).getD 0

theorem length_rawValues (f : Filter) : f.rawValues.length = f.valueCount := by
  unfold rawValues valueCount
  cases f.q <;> rfl

end Filter

end FilterAlgebra
