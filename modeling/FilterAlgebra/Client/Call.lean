import FilterAlgebra.Client.Literal
import FilterAlgebra.Filter.Basic

/-!
# Calls of the client library

A list of filters as the source text of a call into the client library, for display and for copying.
Each filter with a keyword argument and a value becomes one argument on a line of its own; other
filters are left out. The layout is fixed.
-/

namespace FilterAlgebra

/-- The keyword argument of a type, if the client has one. -/
def FilterType.keyword? : FilterType → Option Text
  | string => some "term"
  | title => some "title"
  | daterange => some "date_range"
  | newspaper => some "newspaper_id"
  | year => some "year"
  | language => some "language"
  | type => some "content_type"
  | country => some "country"
  | collection => some "collection_id"
  | topic => some "topic_id"
  | person => some "mentioned_person_id"
  | location => some "mentioned_location_id"
  | entity => some "entity_id"
  | issue => some "issue_id"
  | partner => some "partner_id"
  | accessRight => some "access_rights"
  | isFront => some "front_page"
  | contentLength => some "content_length"
  | textReuseCluster => some "cluster_id"
  | textReuseClusterSize => some "cluster_size"
  | textReuseClusterLexicalOverlap => some "lexical_overlap"
  | textReuseClusterDayDelta => some "day_delta"
  | wikidataId => some "wikidata_id"
  | uid | page | hasTextContents | unknown _ => none

namespace Filter

def valueLiteral (f : Filter) (value : Text) : Text :=
  if f.type = .daterange then dateRangeLiteral value else stringLiteral value

/-- The bounds of a numeric range, given as two values or as one range. -/
def rangeLiteral? (f : Filter) : Option Text :=
  match f.values with
  | [low, high] => some (boundsLiteral low high)
  | [value] => (splitRange? value).map fun (low, high) => boundsLiteral low high
  | _ => none

/-- The values as a literal: one bare, several as a list under the operator if there is one. -/
def valuesLiteral? (f : Filter) : Option Text :=
  match f.values with
  | [] => none
  | [value] => some (f.valueLiteral value)
  | values =>
    let list := '[' :: (List.intercalate ", " (values.map f.valueLiteral) ++ [']'])
    some (match f.op with
      | some op => op.name ++ '(' :: (list ++ [')'])
      | none => list)

/-- The expression of a filter, if it has a value; a flag is its own value. -/
def argument? (f : Filter) : Option Text :=
  if f.type.isFlag then some (if f.isExcluded then "False" else "True")
  else
    (if f.type.isNumericRange then f.rangeLiteral? else f.valuesLiteral?).map fun base =>
      let shaped : Text := if f.precision = some .fuzzy then "Fuzzy(" ++ base ++ ")" else base
      if f.isExcluded then '~' :: shaped else shaped

/-- The keyword argument of a filter, if it has one. -/
def keywordArgument? (f : Filter) : Option Text :=
  match f.type.keyword?, f.argument? with
  | some keyword, some expression => some (keyword ++ '=' :: expression)
  | _, _ => none

end Filter

/-- The call of a function of a resource with the arguments of filters. -/
def compileCall (resource function : Text) (filters : List Filter) : Text :=
  let call : Text := "impresso." ++ resource ++ '.' :: function
  match filters.filterMap Filter.keywordArgument? with
  | [] => call ++ "()"
  | arguments => call ++ "(\n\t" ++ List.intercalate ",\n\t" arguments ++ "\n)"

end FilterAlgebra
