import FilterAlgebra.Filter.Basic
import FilterAlgebra.Query.Field

/-!
# Descriptors

The collections of the search engine, and for each of them the fields in which a type of filter is
tested and the kind of its values. A type without a field in a collection has no descriptor there.
The type `wikidataId` never has one: it is answered by the relational store.
-/

namespace FilterAlgebra

inductive Namespace where
  | search
  | textReusePassages
  | images
  deriving DecidableEq, Repr

namespace Namespace

def name : Namespace → Text
  | search => "search"
  | textReusePassages => "text_reuse_passages"
  | images => "images"

/-- The names under which collections may be given, with a short one for the passages. -/
def ofName (name : Text) : Except FilterError Namespace :=
  if name = "search" then .ok search
  else if name = "text_reuse_passages" ∨ name = "tr_passages" then .ok textReusePassages
  else if name = "images" then .ok images
  else .error (.invalid ("unknown namespace '" ++ name ++ "'"))

end Namespace

/-- The kind of the values of a type. -/
inductive ValueKind where
  /-- Free text, shaped by the precision. -/
  | text
  /-- An identifier or keyword that has to match exactly. -/
  | term
  | dateRange
  | numericRange
  /-- A fixed condition, which the field spells in full. -/
  | flag
  deriving DecidableEq, Repr

/-- Where and how the values of a type are tested. -/
structure Descriptor where
  kind : ValueKind
  fields : Fields
  deriving DecidableEq, Repr

namespace Descriptor

/-- A descriptor with fields given by name. -/
def onFields (kind : ValueKind) (fields : List Text) : Descriptor := ⟨kind, .named fields⟩

/-- The descriptor of a type in a collection. -/
def of? (scope : Namespace) : FilterType → Option Descriptor
  | .string =>
    match scope with
    | .images => some ⟨.text, .stem "caption_txt"⟩
    | _ => some ⟨.text, .stem "content_txt"⟩
  | .title =>
    match scope with
    | .images => none
    | _ => some ⟨.text, .stem "title_txt"⟩
  | .daterange => some (onFields .dateRange ["meta_date_dt"])
  | .newspaper => some (onFields .term ["meta_journal_s"])
  | .year => some (onFields .term ["meta_year_i"])
  | .country => some (onFields .term ["meta_country_code_s"])
  | .partner => some (onFields .term ["meta_partnerid_s"])
  | .issue => some (onFields .term ["meta_issue_id_s"])
  | .uid => some (onFields .term ["id"])
  | .language =>
    match scope with
    | .images => none
    | _ => some (onFields .term ["lg_s"])
  | .type =>
    match scope with
    | .search => some (onFields .term ["item_type_s"])
    | _ => none
  | .collection =>
    match scope with
    | .images => none
    | _ => some (onFields .term ["ucoll_ss"])
  | .topic =>
    match scope with
    | .images => none
    | _ => some (onFields .term ["topics_dpfs"])
  | .person =>
    match scope with
    | .images => none
    | _ => some (onFields .term ["pers_entities_dpfs"])
  | .location =>
    match scope with
    | .images => none
    | _ => some (onFields .term ["loc_entities_dpfs"])
  | .entity =>
    match scope with
    | .images => none
    | _ => some (onFields .term ["pers_entities_dpfs", "loc_entities_dpfs"])
  | .page =>
    match scope with
    | .textReusePassages => none
    | _ => some (onFields .term ["page_id_ss"])
  | .accessRight =>
    match scope with
    | .search => some (onFields .term ["rights_data_domain_s"])
    | _ => none
  | .isFront =>
    match scope with
    | .textReusePassages => none
    | _ => some (onFields .flag ["front_b:1"])
  | .hasTextContents =>
    match scope with
    | .search => some (onFields .flag ["content_length_i:[1 TO *]"])
    | _ => none
  | .contentLength =>
    match scope with
    | .images => none
    | _ => some (onFields .numericRange ["content_length_i"])
  | .textReuseCluster =>
    match scope with
    | .search => some (onFields .term ["cluster_id_ss"])
    | .textReusePassages => some (onFields .term ["cluster_id_s"])
    | .images => none
  | .textReuseClusterSize =>
    match scope with
    | .textReusePassages => some (onFields .numericRange ["cluster_size_l"])
    | _ => none
  | .textReuseClusterLexicalOverlap =>
    match scope with
    | .textReusePassages => some (onFields .numericRange ["cluster_lex_overlap_d"])
    | _ => none
  | .textReuseClusterDayDelta =>
    match scope with
    | .textReusePassages => some (onFields .numericRange ["cluster_day_delta_i"])
    | _ => none
  | .wikidataId => none
  | .unknown _ => none

end Descriptor

end FilterAlgebra
