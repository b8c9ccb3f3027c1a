import FilterAlgebra.Proofs.Number.ReadBack
import FilterAlgebra.Proofs.Relevance.Grammar
import Mathlib.Data.List.Forall2

/-!
# The structure of formulas

The combined formula of some items is read as one tree (`IsSumOf`): the sum of the trees of the
items, each the product of what the item favours and its weight (`IsItem`). A weight stands in the
tree as the text that is read back as it (`IsItem.isWeighted`). Identifiers may hold whatever they
like, except that those of entities and topics hold no backslash: no identifier breaks out of its
string, and taking the backslashes away gives it back.
-/

namespace FilterAlgebra

open FormulaTree

/-! ### Strings -/

/-- A character as it stands in a string between single quotes. -/
def stringChar (c : Char) : Text := if c = '\x27' then ['\\', c] else [c]

/-- A text in which each backslash has been taken away from the character behind it. -/
def unescape : Text → Text
  | [] => []
  | '\\' :: c :: rest => c :: unescape rest
  | c :: rest => c :: unescape rest

/-- The ways in which a character may stand in a string. -/
inductive Stands (c : Char) : Text → Prop
  | plain (hquote : c ≠ '\x27') (hbackslash : c ≠ '\\') : Stands c [c]
  | escaped : Stands c ['\\', c]

theorem Stands.isPiece {c : Char} {s : Text} (h : Stands c s) : stringLexis.IsPiece s := by
  cases h with
  | plain hquote hbackslash => exact .plain ⟨hquote, hbackslash⟩
  | escaped => exact .escaped c

theorem Stands.unescape_append {c : Char} {s : Text} (h : Stands c s) (r : Text) :
    unescape (s ++ r) = c :: unescape r := by
  cases h with
  | plain _ hbackslash =>
    rw [List.singleton_append, unescape]
    intro d t hd
    exact absurd hd hbackslash
  | escaped => rfl

section Coded

variable {f : Char → Text} {s : Text} (h : ∀ c ∈ s, Stands c (f c))

include h

theorem run_flatMap : stringLexis.Run (s.flatMap f) :=
  .flatMap fun c hc => .of_piece (h c hc).isPiece

theorem unescape_flatMap : unescape (s.flatMap f) = s := by
  induction s with
  | nil => rfl
  | cons c s ih =>
    rw [List.flatMap_cons, (h c List.mem_cons_self).unescape_append,
      ih fun d hd => h d (List.mem_cons_of_mem c hd)]

end Coded

theorem stands_stringChar {c : Char} (h : c ≠ '\\') : Stands c (stringChar c) := by
  by_cases hquote : c = '\x27'
  · rw [stringChar, if_pos hquote]
    exact .escaped
  · rw [stringChar, if_neg hquote]
    exact .plain hquote h

theorem forall_stands_stringChar {s : Text} (h : '\\' ∉ s) : ∀ c ∈ s, Stands c (stringChar c) := by
  intro c hc
  apply stands_stringChar
  rintro rfl
  exact h hc

/-- A character of a term keeps its own backslash, and a quote gets one. -/
theorem stands_termChar (c : Char) : Stands c ((escapedTermChar c).flatMap stringChar) := by
  by_cases hspecial : needsEscape c = true
  · have hquote : c ≠ '\x27' := by
      rintro rfl
      revert hspecial
      decide
    have hcode : (escapedTermChar c).flatMap stringChar = ['\\', c] := by
      rw [escapedTermChar, if_pos hspecial]
      change stringChar '\\' ++ (stringChar c ++ []) = _
      rw [stringChar, stringChar, if_neg hquote]
      rfl
    rw [hcode]
    exact .escaped
  · have hbackslash : c ≠ '\\' := by
      rintro rfl
      exact hspecial (by decide)
    rw [escapedTermChar, if_neg hspecial, List.flatMap_singleton]
    exact stands_stringChar hbackslash

theorem flatMap_escapeTerm (id : Text) :
    (escapeTerm id).flatMap stringChar =
      (Text.trim id).flatMap fun c => (escapedTermChar c).flatMap stringChar :=
  List.flatMap_assoc

/-- In the query for a cluster the term is escaped first and its quotes after that, so each
character is escaped at most once. -/
theorem flatMap_clusterQuery (id : Text) :
    ("cluster_id_ss:" ++ escapeTerm id : Text).flatMap stringChar =
      "cluster_id_ss:" ++ (escapeTerm id).flatMap stringChar := by
  rw [List.flatMap_append]
  rfl

theorem run_clusterQuery (id : Text) :
    stringLexis.Run (("cluster_id_ss:" ++ escapeTerm id : Text).flatMap stringChar) := by
  have hfield : '\\' ∉ ("cluster_id_ss:" : Text) := by decide
  rw [List.flatMap_append, flatMap_escapeTerm]
  exact (run_flatMap (forall_stands_stringChar hfield)).append
    (run_flatMap fun c _ => stands_termChar c)

/-! ### What a formula should be -/

namespace FormulaTree

/-- A sum has at least two terms: one is used bare, and none counts as one. -/
inductive IsSum : List FormulaTree → FormulaTree → Prop
  | none : IsSum [] (.number "1.0")
  | one (term : FormulaTree) : IsSum [term] term
  | many (first second : FormulaTree) (terms : List FormulaTree) :
      IsSum (first :: second :: terms) (.call "sum" (first :: second :: terms))

/-- The sum of terms that belong to the members of a list, in order. -/
def IsSumOf {α : Type} (IsTerm : α → FormulaTree → Prop) (xs : List α) (tree : FormulaTree) : Prop :=
  ∃ terms, List.Forall₂ IsTerm xs terms ∧ IsSum terms tree

def IsPayloadTerm (fieldName : Text) (entry : WeightedId) (tree : FormulaTree) : Prop :=
  ∃ body, unescape body = entry.id ∧
    tree = mul (.call "payload" [.field fieldName, .quoted body]) (.number entry.weight.weightText)

def IsClusterTerm (entry : WeightedId) (tree : FormulaTree) : Prop :=
  ∃ body, body = (escapeTerm entry.id).flatMap stringChar ∧ unescape body = Text.trim entry.id ∧
    tree = mul (.call "exists" [.call "query" [.localQuery ("cluster_id_ss:" ++ body)]])
      (.number entry.weight.weightText)

def comparedYear (comparison : Text) (year : Int) : FormulaTree :=
  .call comparison [.field "meta_year_i", .number (intText year)]

def condition (test : FormulaTree) : FormulaTree :=
  .call "if" [test, .number "1.0", .number "0.0"]

inductive IsYearCondition : Option Int → Option Int → FormulaTree → Prop
  | between (start stop : Int) : IsYearCondition (some start) (some stop)
      (condition (.call "and" [comparedYear "lte" stop, comparedYear "gte" start]))
  | since (start : Int) : IsYearCondition (some start) none (condition (comparedYear "gte" start))
  | upTo (stop : Int) : IsYearCondition none (some stop) (condition (comparedYear "lte" stop))
  | always : IsYearCondition none none (.number "1.0")

/-- What an item favours, without its weight. -/
inductive IsInner : RelevanceKind → FormulaTree → Prop
  | timeRange {start stop : Option Int} {tree : FormulaTree} (h : IsYearCondition start stop tree) :
      IsInner (.timeRange start stop) tree
  | locations {ids : List WeightedId} {tree : FormulaTree}
      (h : IsSumOf (IsPayloadTerm "loc_entities_dpfs") ids tree) : IsInner (.locations ids) tree
  | persons {ids : List WeightedId} {tree : FormulaTree}
      (h : IsSumOf (IsPayloadTerm "pers_entities_dpfs") ids tree) : IsInner (.persons ids) tree
  | topics {ids : List WeightedId} {tree : FormulaTree}
      (h : IsSumOf (IsPayloadTerm "topics_dpfs") ids tree) : IsInner (.topics ids) tree
  | textReuseClusters {ids : List WeightedId} {tree : FormulaTree}
      (h : IsSumOf IsClusterTerm ids tree) : IsInner (.textReuseClusters ids) tree

def IsItem (item : RelevanceItem) (tree : FormulaTree) : Prop :=
  ∃ inner, IsInner item.kind inner ∧ tree = mul inner (.number item.weight.weightText)

/-- Whether a tree is a product whose last factor is a numeral of a weight. -/
def IsWeighted (weight : Binary64) (tree : FormulaTree) : Prop :=
  ∃ factor numeral, tree = mul factor (.number numeral) ∧
    Binary64.readFinite? numeral = some weight.orZero

theorem IsPayloadTerm.isWeighted {fieldName : Text} {entry : WeightedId} {tree : FormulaTree}
    (h : IsPayloadTerm fieldName entry tree) (hweight : entry.weight.InFormat) :
    IsWeighted entry.weight tree := by
  obtain ⟨body, -, rfl⟩ := h
  exact ⟨_, _, rfl, readFinite?_weightText hweight⟩

theorem IsClusterTerm.isWeighted {entry : WeightedId} {tree : FormulaTree}
    (h : IsClusterTerm entry tree) (hweight : entry.weight.InFormat) :
    IsWeighted entry.weight tree := by
  obtain ⟨body, -, -, rfl⟩ := h
  exact ⟨_, _, rfl, readFinite?_weightText hweight⟩

theorem IsItem.isWeighted {item : RelevanceItem} {tree : FormulaTree} (h : IsItem item tree)
    (hweight : item.weight.InFormat) : IsWeighted item.weight tree := by
  obtain ⟨inner, -, rfl⟩ := h
  exact ⟨inner, _, rfl, readFinite?_weightText hweight⟩

/-- Whether every sum in a tree has at least two terms. -/
def WideSums (tree : FormulaTree) : Prop :=
  ∀ args, Within (.call "sum" args) tree → 2 ≤ args.length

end FormulaTree

/-- Whether the identifiers whose payloads are looked up hold no backslash. -/
def RelevanceKind.HasPlainIds : RelevanceKind → Prop
  | timeRange _ _ => True
  | locations ids => ∀ entry ∈ ids, '\\' ∉ entry.id
  | persons ids => ∀ entry ∈ ids, '\\' ∉ entry.id
  | topics ids => ∀ entry ∈ ids, '\\' ∉ entry.id
  | textReuseClusters _ => True

/-! ### Rendered formulas are read -/

namespace Formula

/-- Whether the text of a formula is read as a tree. -/
def ReadsAs (f : Formula) (tree : FormulaTree) : Prop := ParsesAs f.render tree

theorem render_atom (text : Text) : (atom text).render = text := rfl

theorem render_call (name : Text) (args : List Formula) : (call name args).render =
    name ++ '(' :: (List.intercalate [','] (args.map render) ++ [')']) := by
  rw [← renderAll_eq_map]
  rfl

theorem render_localQuery (s : Text) : (localQuery s).render =
    '\x7b' :: '!' :: 'v' :: '=' :: '\x27' :: (s.flatMap stringChar ++ ['\x27', '\x7d']) := by
  change '\x7b' :: '!' :: 'v' :: '=' :: '\x27' :: (s.flatMap stringChar ++ ['\x27'] ++ ['\x7d']) = _
  rw [List.append_assoc]
  rfl

theorem spelled_rest {args : List Formula} {trees : List FormulaTree}
    (h : List.Forall₂ ReadsAs args trees) :
    Spelled (.rest trees) ((args.map render).flatMap ([','] ++ ·) ++ [')']) := by
  induction h with
  | nil => exact .close
  | cons hfirst _ ih =>
    rw [List.map_cons, List.flatMap_cons, List.append_assoc]
    exact .next hfirst ih

theorem readsAs_call {name : Text} (hname : isName name = true) {first : Formula}
    {args : List Formula} {tree : FormulaTree} {trees : List FormulaTree}
    (hfirst : first.ReadsAs tree) (hargs : List.Forall₂ ReadsAs args trees) :
    (call name (first :: args)).ReadsAs (.call name (tree :: trees)) := by
  have hspelled := Spelled.call hname hfirst (spelled_rest hargs)
  rw [ReadsAs, ParsesAs, render_call, List.map_cons, Text.intercalate_cons, List.append_assoc]
  exact hspelled

theorem readsAs_field {name : Text} (h : isName name = true) : (atom name).ReadsAs (.field name) :=
  .field h

theorem readsAs_atomNumber {text : Text} (h : IsNumber text) :
    (atom text).ReadsAs (.number text) :=
  .number h

theorem readsAs_weight (x : Binary64) : (number x).ReadsAs (.number x.weightText) :=
  readsAs_atomNumber x.isNumber_weightText

theorem readsAs_quoted {s : Text} (h : stringLexis.Run (s.flatMap stringChar)) :
    (quoted s).ReadsAs (.quoted (s.flatMap stringChar)) :=
  .quoted h

theorem readsAs_localQuery {s : Text} (h : stringLexis.Run (s.flatMap stringChar)) :
    (localQuery s).ReadsAs (.localQuery (s.flatMap stringChar)) := by
  rw [ReadsAs, render_localQuery]
  exact .localQuery h

theorem readsAs_mul {f g : Formula} {tree tree' : FormulaTree} (hf : f.ReadsAs tree)
    (hg : g.ReadsAs tree') : (mul f g).ReadsAs (.mul tree tree') :=
  readsAs_call (by decide) hf (.cons hg .nil)

theorem exists_readsAs_sumOf {formulas : List Formula} {trees : List FormulaTree}
    (h : List.Forall₂ ReadsAs formulas trees) :
    ∃ tree, (sumOf formulas).ReadsAs tree ∧ IsSum trees tree := by
  cases h with
  | nil => exact ⟨_, readsAs_atomNumber (.plus isUnsigned_one), .none⟩
  | cons hfirst hrest =>
    cases hrest with
    | nil => exact ⟨_, hfirst, .one _⟩
    | cons hsecond hrest =>
      exact ⟨_, readsAs_call (by decide) hfirst (.cons hsecond hrest), .many _ _ _⟩

/-- A sum over a list is read as the sum of the trees of its members. -/
theorem exists_readsAs_sumOf_map {α : Type} {term : α → Formula} {IsTerm : α → FormulaTree → Prop}
    {xs : List α} (h : ∀ x ∈ xs, ∃ tree, (term x).ReadsAs tree ∧ IsTerm x tree) :
    ∃ tree, (sumOf (xs.map term)).ReadsAs tree ∧ IsSumOf IsTerm xs tree := by
  have hterms : ∃ trees, List.Forall₂ ReadsAs (xs.map term) trees ∧
      List.Forall₂ IsTerm xs trees := by
    induction xs with
    | nil => exact ⟨[], .nil, .nil⟩
    | cons x xs ih =>
      obtain ⟨tree, hread, hterm⟩ := h x List.mem_cons_self
      obtain ⟨trees, hreads, hisTerms⟩ := ih fun y hy => h y (List.mem_cons_of_mem x hy)
      exact ⟨tree :: trees, .cons hread hreads, .cons hterm hisTerms⟩
  obtain ⟨trees, hreads, hisTerms⟩ := hterms
  obtain ⟨tree, hread, hsum⟩ := exists_readsAs_sumOf hreads
  exact ⟨tree, hread, trees, hisTerms, hsum⟩

/-! ### Terms -/

theorem exists_readsAs_payload {fieldName : Text} (hfield : isName fieldName = true)
    {entry : WeightedId} (hid : '\\' ∉ entry.id) :
    ∃ tree, (payloadFormula fieldName entry).ReadsAs tree ∧ IsPayloadTerm fieldName entry tree := by
  have hstands := forall_stands_stringChar hid
  refine ⟨_, readsAs_mul ?_ (readsAs_weight entry.weight),
    entry.id.flatMap stringChar, unescape_flatMap hstands, rfl⟩
  exact readsAs_call (by decide) (readsAs_field hfield)
    (.cons (readsAs_quoted (run_flatMap hstands)) .nil)

theorem exists_readsAs_cluster (entry : WeightedId) :
    ∃ tree, (clusterFormula entry).ReadsAs tree ∧ IsClusterTerm entry tree := by
  have hquery := readsAs_localQuery (run_clusterQuery entry.id)
  rw [flatMap_clusterQuery] at hquery
  refine ⟨_, readsAs_mul ?_ (readsAs_weight entry.weight), _, rfl, ?_, rfl⟩
  · exact readsAs_call (by decide) (readsAs_call (by decide) hquery .nil) .nil
  · rw [flatMap_escapeTerm, unescape_flatMap fun c _ => stands_termChar c]

theorem readsAs_compareYear {comparison : Text} (h : isName comparison = true) (year : Int) :
    (compareYear comparison year).ReadsAs (comparedYear comparison year) :=
  readsAs_call h (readsAs_field (by decide))
    (.cons (readsAs_atomNumber (isNumber_intText year)) .nil)

theorem readsAs_indicator {f : Formula} {tree : FormulaTree} (h : f.ReadsAs tree) :
    (indicator f).ReadsAs (condition tree) :=
  readsAs_call (by decide) h (.cons (readsAs_atomNumber (.plus isUnsigned_one))
    (.cons (readsAs_atomNumber (.plus isUnsigned_zero)) .nil))

theorem exists_readsAs_timeRange (start stop : Option Int) :
    ∃ tree, (timeRangeFormula start stop).ReadsAs tree ∧ IsYearCondition start stop tree := by
  have hcompare : ∀ {comparison : Text}, isName comparison = true → ∀ year,
      (compareYear comparison year).ReadsAs (comparedYear comparison year) := readsAs_compareYear
  rcases start with - | start
  · rcases stop with - | stop
    · exact ⟨_, readsAs_atomNumber (.plus isUnsigned_one), .always⟩
    · exact ⟨_, readsAs_indicator (hcompare (by decide) stop), .upTo stop⟩
  · rcases stop with - | stop
    · exact ⟨_, readsAs_indicator (hcompare (by decide) start), .since start⟩
    · exact ⟨_, readsAs_indicator (readsAs_call (by decide) (hcompare (by decide) stop)
        (.cons (hcompare (by decide) start) .nil)), .between start stop⟩

/-! ### Items -/

theorem exists_readsAs_kind {kind : RelevanceKind} (h : kind.HasPlainIds) :
    ∃ tree, kind.formula.ReadsAs tree ∧ IsInner kind tree := by
  have hpayloads : ∀ (fieldName : Text) (ids : List WeightedId), isName fieldName = true →
      (∀ entry ∈ ids, '\\' ∉ entry.id) →
      ∃ tree, (sumOf (ids.map (payloadFormula fieldName))).ReadsAs tree ∧
        IsSumOf (IsPayloadTerm fieldName) ids tree := by
    intro fieldName ids hfield hids
    exact exists_readsAs_sumOf_map fun entry hentry =>
      exists_readsAs_payload hfield (hids entry hentry)
  cases kind with
  | timeRange start stop =>
    obtain ⟨tree, hread, hcondition⟩ := exists_readsAs_timeRange start stop
    exact ⟨tree, hread, .timeRange hcondition⟩
  | locations ids =>
    obtain ⟨tree, hread, hsum⟩ := hpayloads "loc_entities_dpfs" ids (by decide) h
    exact ⟨tree, hread, .locations hsum⟩
  | persons ids =>
    obtain ⟨tree, hread, hsum⟩ := hpayloads "pers_entities_dpfs" ids (by decide) h
    exact ⟨tree, hread, .persons hsum⟩
  | topics ids =>
    obtain ⟨tree, hread, hsum⟩ := hpayloads "topics_dpfs" ids (by decide) h
    exact ⟨tree, hread, .topics hsum⟩
  | textReuseClusters ids =>
    obtain ⟨tree, hread, hsum⟩ := exists_readsAs_sumOf_map fun entry _ =>
      exists_readsAs_cluster entry
    exact ⟨tree, hread, .textReuseClusters hsum⟩

/-- The text of an item is its rendered formula, of which nothing is taken out. -/
theorem exists_readsAs_item {item : RelevanceItem} (h : item.kind.HasPlainIds) :
    ∃ tree, (atom item.formulaText).ReadsAs tree ∧ IsItem item tree := by
  obtain ⟨inner, hinner, hisInner⟩ := exists_readsAs_kind h
  have hitem : item.formula.ReadsAs (.mul inner (.number item.weight.weightText)) :=
    readsAs_mul hinner (readsAs_weight item.weight)
  have htext : item.formulaText = item.formula.render := by
    have hnormal := hitem.normalizeFrom_append []
    rwa [List.append_nil, normalizeFrom, List.append_nil] at hnormal
  refine ⟨_, ?_, inner, hisInner, rfl⟩
  rw [ReadsAs, render_atom, htext]
  exact hitem

end Formula

/-! ### Sums -/

namespace FormulaTree

theorem wideSums_call {name : Text} {args : List FormulaTree}
    (hname : name = "sum" → 2 ≤ args.length) (hargs : ∀ a ∈ args, WideSums a) :
    WideSums (.call name args) := by
  intro terms h
  cases h with
  | refl => exact hname rfl
  | arg ha h => exact hargs _ ha terms h

theorem wideSums_call_of_ne {name : Text} {args : List FormulaTree} (hname : name ≠ "sum")
    (hargs : ∀ a ∈ args, WideSums a) : WideSums (.call name args) :=
  wideSums_call (fun h => absurd h hname) hargs

theorem wideSums_number (text : Text) : WideSums (.number text) := by
  intro args h
  cases h

theorem wideSums_field (name : Text) : WideSums (.field name) := by
  intro args h
  cases h

theorem IsSum.wideSums {terms : List FormulaTree} {tree : FormulaTree} (h : IsSum terms tree)
    (hterms : ∀ term ∈ terms, WideSums term) : WideSums tree := by
  cases h with
  | none => exact wideSums_number "1.0"
  | one => exact hterms tree List.mem_cons_self
  | many first second terms =>
    refine wideSums_call (fun _ => ?_) hterms
    rw [List.length_cons, List.length_cons]
    omega

theorem IsSumOf.wideSums {α : Type} {IsTerm : α → FormulaTree → Prop} {xs : List α}
    {tree : FormulaTree} (h : IsSumOf IsTerm xs tree)
    (hterm : ∀ x term, IsTerm x term → WideSums term) : WideSums tree := by
  obtain ⟨terms, hterms, hsum⟩ := h
  apply hsum.wideSums
  clear hsum
  induction hterms with
  | nil => exact fun term hmem => absurd hmem List.not_mem_nil
  | cons hfirst _ ih => exact List.forall_mem_cons.mpr ⟨hterm _ _ hfirst, ih⟩

theorem wideSums_mul {a b : FormulaTree} (ha : WideSums a) (hb : WideSums b) :
    WideSums (mul a b) :=
  wideSums_call_of_ne (by decide)
    (List.forall_mem_cons.mpr ⟨ha, List.forall_mem_singleton.mpr hb⟩)

theorem IsPayloadTerm.wideSums {fieldName : Text} {entry : WeightedId} {tree : FormulaTree}
    (h : IsPayloadTerm fieldName entry tree) : WideSums tree := by
  obtain ⟨body, -, rfl⟩ := h
  refine wideSums_mul (wideSums_call_of_ne (by decide) ?_) (wideSums_number _)
  rw [List.forall_mem_cons, List.forall_mem_singleton]
  refine ⟨wideSums_field fieldName, ?_⟩
  intro args h
  cases h

theorem IsClusterTerm.wideSums {entry : WeightedId} {tree : FormulaTree}
    (h : IsClusterTerm entry tree) : WideSums tree := by
  obtain ⟨body, -, -, rfl⟩ := h
  refine wideSums_mul (wideSums_call_of_ne (by decide) ?_) (wideSums_number _)
  rw [List.forall_mem_singleton]
  apply wideSums_call_of_ne (by decide)
  rw [List.forall_mem_singleton]
  intro args h
  cases h

theorem IsYearCondition.wideSums {start stop : Option Int} {tree : FormulaTree}
    (h : IsYearCondition start stop tree) : WideSums tree := by
  have hcompared : ∀ (comparison : Text) (year : Int), comparison ≠ "sum" →
      WideSums (comparedYear comparison year) := by
    intro comparison year hne
    apply wideSums_call_of_ne hne
    exact List.forall_mem_cons.mpr
      ⟨wideSums_field _, List.forall_mem_singleton.mpr (wideSums_number _)⟩
  have hcondition : ∀ test, WideSums test → WideSums (condition test) := by
    intro test htest
    apply wideSums_call_of_ne (by decide)
    exact List.forall_mem_cons.mpr ⟨htest, List.forall_mem_cons.mpr
      ⟨wideSums_number _, List.forall_mem_singleton.mpr (wideSums_number _)⟩⟩
  cases h with
  | between start stop =>
    apply hcondition
    apply wideSums_call_of_ne (by decide)
    exact List.forall_mem_cons.mpr ⟨hcompared "lte" stop (by decide),
      List.forall_mem_singleton.mpr (hcompared "gte" start (by decide))⟩
  | since start => exact hcondition _ (hcompared "gte" start (by decide))
  | upTo stop => exact hcondition _ (hcompared "lte" stop (by decide))
  | always => exact wideSums_number "1.0"

theorem IsItem.wideSums {item : RelevanceItem} {tree : FormulaTree} (h : IsItem item tree) :
    WideSums tree := by
  obtain ⟨inner, hinner, rfl⟩ := h
  refine wideSums_mul ?_ (wideSums_number _)
  generalize item.kind = kind at hinner
  cases hinner with
  | timeRange h => exact h.wideSums
  | locations h => exact h.wideSums fun _ _ => IsPayloadTerm.wideSums
  | persons h => exact h.wideSums fun _ _ => IsPayloadTerm.wideSums
  | topics h => exact h.wideSums fun _ _ => IsPayloadTerm.wideSums
  | textReuseClusters h => exact h.wideSums fun _ _ => IsClusterTerm.wideSums

end FormulaTree

/-! ### Combined formulas -/

/-- People and clusters with identifiers that look like parts of a formula, and years. -/
def awkwardItems : List RelevanceItem :=
  [{ kind := .persons [⟨"O'Neil, (J.) ')", .ofInt 2⟩, ⟨"',sum(", .nan⟩], weight := .ofInt (-1) },
    { kind := .textReuseClusters [⟨" tr\\' 1\\", .ofInt 1⟩], weight := .ofInt 3 },
    { kind := .topics [], weight := .ofInt 0 },
    { kind := .timeRange none (some 1900), weight := .ofInt 1 }]

example : combinedFormula? (awkwardItems.drop 1 |>.take 1) = some
    "mul(mul(exists(query(\x7b!v='cluster_id_ss:tr\\\\\\'\\ 1\\\\'\x7d)),1.0),3.0)" := by
  decide +kernel

end FilterAlgebra
