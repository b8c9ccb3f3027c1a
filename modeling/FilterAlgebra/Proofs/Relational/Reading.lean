import FilterAlgebra.Proofs.Query.Scanning
import FilterAlgebra.Relational.Predicate

/-!
# Reading conditions

The text of a predicate is read by a grammar of its own: a test names a column and a list of
placeholders, and a conjunction stands in parentheses with `AND` between its members. Every
condition ends at its own closing parenthesis, so the text settles where it ends and what it is.
Filling the placeholders from left to right with the values of the predicate gives the predicate
back.
-/

namespace FilterAlgebra

/-! ### Induction over predicates -/

namespace Predicate

/-- What holds of every test, and of a conjunction whenever it holds of its members, holds of every
predicate. -/
@[elab_as_elim]
theorem induction_members {motive : Predicate → Prop}
    (isIn : ∀ column values, motive (isIn column values))
    (notIn : ∀ column values, motive (notIn column values))
    (all : ∀ predicates, (∀ p ∈ predicates, motive p) → motive (all predicates))
    (p : Predicate) : motive p := by
  refine @Predicate.rec motive (fun predicates => ∀ p ∈ predicates, motive p) isIn notIn all ?_ ?_ p
  · intro p hp
    cases hp
  · intro p predicates hp hpredicates q hq
    rcases List.mem_cons.mp hq with rfl | hq
    · exact hp
    · exact hpredicates q hq

mutual

def columns : Predicate → List Text
  | isIn column _ => [column]
  | notIn column _ => [column]
  | all predicates => columnsAll predicates

def columnsAll : List Predicate → List Text
  | [] => []
  | predicate :: predicates => predicate.columns ++ columnsAll predicates

end

theorem columnsAll_eq_flatMap (predicates : List Predicate) :
    columnsAll predicates = predicates.flatMap columns := by
  induction predicates with
  | nil => rfl
  | cons predicate predicates ih => simp [columnsAll, ih]

theorem columns_subset_of_mem {predicates : List Predicate} {p : Predicate} (hp : p ∈ predicates) :
    p.columns ⊆ (all predicates).columns := by
  rw [columns, columnsAll_eq_flatMap]
  intro column hcolumn
  exact List.mem_flatMap.mpr ⟨p, hp, hcolumn⟩

end Predicate

namespace Sql

/-! ### The grammar -/

/-- The characters of a column: letters, among them all that are not ASCII, digits and
underscores. -/
def isColumnChar (c : Char) : Bool := c.isAlphanum || c = '_' || decide (128 ≤ c.toNat)

def IsColumn (s : Text) : Prop := s ≠ [] ∧ ∀ c ∈ s, isColumnChar c = true

/-- A condition with placeholders where it has values. -/
inductive Condition where
  | test (column : Text) (negated : Bool) (count : Nat)
  | all (members : List Condition)

inductive Marks : Nat → Text → Prop where
  | none : Marks 0 []
  | one : Marks 1 ['?']
  | more {count : Nat} {s : Text} : Marks (count + 1) s →
      Marks (count + 2) ('?' :: ',' :: ' ' :: s)

def operatorText (negated : Bool) : Text := if negated then " NOT IN (" else " IN ("

/-- What a piece of text spells: a condition, or the members that follow the first one of a
conjunction, up to its closing parenthesis. -/
inductive Part where
  | whole (c : Condition)
  | rest (members : List Condition)

inductive Spells : Part → Text → Prop where
  | test {column marks : Text} {negated : Bool} {count : Nat} :
      IsColumn column → Marks count marks →
      Spells (.whole (.test column negated count))
        (column ++ (operatorText negated ++ (marks ++ [')'])))
  | empty : Spells (.whole (.all [])) ['(', ')']
  | joined {first : Condition} {members : List Condition} {s t : Text} :
      Spells (.whole first) s → Spells (.rest members) t →
      Spells (.whole (.all (first :: members))) ('(' :: (s ++ t))
  | next {c : Condition} {members : List Condition} {s t : Text} :
      Spells (.whole c) s → Spells (.rest members) t →
      Spells (.rest (c :: members)) (" AND ".toList ++ (s ++ t))
  | close : Spells (.rest []) [')']

def Parses (s : Text) (c : Condition) : Prop := Spells (.whole c) s

/-! ### Where a condition ends -/

theorem ne_of_isColumnChar {c : Char} (h : isColumnChar c = true) :
    c ≠ ' ' ∧ c ≠ '(' ∧ c ≠ ')' ∧ c ≠ '?' := by
  refine ⟨?_, ?_, ?_, ?_⟩ <;>
  · rintro rfl
    revert h
    decide

theorem IsColumn.ne_blank {s : Text} (h : IsColumn s) : ∀ c ∈ s, c ≠ ' ' := by
  intro c hc
  exact (ne_of_isColumnChar (h.2 c hc)).1

theorem IsColumn.exists_cons {s : Text} (h : IsColumn s) :
    ∃ c t, s = c :: t ∧ isColumnChar c = true := by
  obtain ⟨c, t, rfl⟩ := List.exists_cons_of_ne_nil h.1
  exact ⟨c, t, rfl, h.2 c List.mem_cons_self⟩

theorem IsColumn.ne_open {s t r u : Text} (h : IsColumn s) : s ++ t ++ r ≠ '(' :: u := by
  obtain ⟨c, s, rfl, hc⟩ := h.exists_cons
  intro heq
  exact (ne_of_isColumnChar hc).2.1 (List.cons.inj heq).1

theorem Marks.ne_close {count : Nat} {s : Text} (h : Marks count s) : ∀ c ∈ s, c ≠ ')' := by
  induction h with
  | none => simp
  | one => simp
  | more _ ih => simpa using ih

theorem Marks.count_eq {count : Nat} {s : Text} (h : Marks count s) : s.count '?' = count := by
  induction h with
  | none => rfl
  | one => rfl
  | more _ ih => simp [ih]

theorem Marks.eq_of_append {count count' : Nat} {s s' r r' : Text} (h : Marks count s)
    (h' : Marks count' s') (heq : s ++ ')' :: r = s' ++ ')' :: r') : count = count' ∧ s = s' := by
  obtain ⟨rfl, -⟩ := append_cons_inj_of_forall h.ne_close h'.ne_close (by simp) (by simp) heq
  exact ⟨h.count_eq.symm.trans h'.count_eq, rfl⟩

/-- A condition begins with a character of a column or with a parenthesis. -/
theorem Spells.exists_cons {c : Condition} {s : Text} (h : Spells (.whole c) s) :
    ∃ x t, s = x :: t ∧ (isColumnChar x = true ∨ x = '(') := by
  cases h with
  | test hcolumn _ =>
    obtain ⟨x, t, rfl, hx⟩ := hcolumn.exists_cons
    exact ⟨x, _, rfl, .inl hx⟩
  | empty => exact ⟨'(', _, rfl, .inr rfl⟩
  | joined => exact ⟨'(', _, rfl, .inr rfl⟩

theorem Spells.ne_close {c : Condition} {s r t : Text} (h : Spells (.whole c) s) :
    s ++ r ≠ ')' :: t := by
  obtain ⟨x, s, rfl, hx⟩ := h.exists_cons
  intro heq
  obtain rfl := (List.cons.inj heq).1
  rcases hx with hx | hx
  · exact (ne_of_isColumnChar hx).2.2.1 rfl
  · cases hx

/-! ### The grammar is unambiguous -/

/-- That no other spelling of the same kind begins a text that this one begins. -/
def Determined (s : Text) : Part → Prop
  | .whole c => ∀ {c' : Condition} {s' r r' : Text}, Spells (.whole c') s' →
      s ++ r = s' ++ r' → c = c' ∧ s = s'
  | .rest members => ∀ {members' : List Condition} {s' r r' : Text}, Spells (.rest members') s' →
      s ++ r = s' ++ r' → members = members' ∧ s = s'

theorem test_eq_of_append {column column' marks marks' : Text} {negated negated' : Bool}
    {count count' : Nat} {r r' : Text} (hcolumn : IsColumn column) (hcolumn' : IsColumn column')
    (hmarks : Marks count marks) (hmarks' : Marks count' marks')
    (heq : column ++ (operatorText negated ++ (marks ++ ')' :: r)) =
      column' ++ (operatorText negated' ++ (marks' ++ ')' :: r'))) :
    column = column' ∧ negated = negated' ∧ count = count' ∧ marks = marks' := by
  have hblank : ∀ negated, ∃ t, operatorText negated = ' ' :: t := by
    intro negated
    cases negated <;> exact ⟨_, rfl⟩
  obtain ⟨t, ht⟩ := hblank negated
  obtain ⟨t', ht'⟩ := hblank negated'
  have hcolumns : column = column' := by
    rw [ht, ht'] at heq
    exact (append_cons_inj_of_forall hcolumn.ne_blank hcolumn'.ne_blank (by simp) (by simp) heq).1
  subst hcolumns
  have htail := List.append_cancel_left heq
  have hnegated : negated = negated' := by
    cases negated <;> cases negated' <;> simp [operatorText] at htail ⊢
  subst hnegated
  have hlists := hmarks.eq_of_append hmarks' (List.append_cancel_left htail)
  exact ⟨rfl, rfl, hlists⟩

theorem Spells.determined {p : Part} {s : Text} (h : Spells p s) : Determined s p := by
  -- By induction on the one spelling; the first characters tell which rule made the other.
  induction h with
  | test hcolumn hmarks =>
    intro c' s' r r' h' heq
    cases h' with
    | test hcolumn' hmarks' =>
      simp only [List.append_assoc, List.singleton_append] at heq
      obtain ⟨rfl, rfl, rfl, rfl⟩ := test_eq_of_append hcolumn hcolumn' hmarks hmarks' heq
      exact ⟨rfl, rfl⟩
    | empty => exact absurd heq hcolumn.ne_open
    | joined => exact absurd heq hcolumn.ne_open
  | empty =>
    intro c' s' r r' h' heq
    cases h' with
    | test hcolumn' _ => exact absurd heq.symm hcolumn'.ne_open
    | empty => exact ⟨rfl, rfl⟩
    | joined hfirst' _ =>
      simp only [List.cons_append, List.append_assoc, List.cons.injEq, true_and] at heq
      exact absurd heq.symm hfirst'.ne_close
  | joined hfirst _ ihFirst ihRest =>
    intro c' s' r r' h' heq
    cases h' with
    | test hcolumn' _ => exact absurd heq.symm hcolumn'.ne_open
    | empty =>
      simp only [List.cons_append, List.append_assoc, List.cons.injEq, true_and] at heq
      exact absurd heq hfirst.ne_close
    | joined hfirst' hrest' =>
      simp only [List.cons_append, List.append_assoc, List.cons.injEq, true_and] at heq
      obtain ⟨rfl, rfl⟩ := ihFirst hfirst' heq
      obtain ⟨rfl, rfl⟩ := ihRest hrest' (List.append_cancel_left heq)
      exact ⟨rfl, rfl⟩
  | next _ _ ihFirst ihRest =>
    intro members' s' r r' h' heq
    cases h' with
    | next hfirst' hrest' =>
      simp only [List.append_assoc, List.append_cancel_left_eq] at heq
      obtain ⟨rfl, rfl⟩ := ihFirst hfirst' heq
      obtain ⟨rfl, rfl⟩ := ihRest hrest' (List.append_cancel_left heq)
      exact ⟨rfl, rfl⟩
    | close => simp at heq
  | close =>
    intro members' s' r r' h' heq
    cases h' with
    | next => simp at heq
    | close => exact ⟨rfl, rfl⟩

/-- **The grammar is unambiguous.** -/
theorem Parses.unique {s : Text} {c c' : Condition} (h : Parses s c) (h' : Parses s c') :
    c = c' := by
  have heq : s ++ [] = s ++ [] := rfl
  exact (Spells.determined h h' heq).1

/-! ### Filling placeholders -/

mutual

/-- The predicate of a condition, whose placeholders take the values in their order, and the values
that are left. -/
def Condition.fill : Condition → List Text → Option (Predicate × List Text)
  | .test column negated count, values =>
    if count ≤ values.length then
      let filled := values.take count
      some (if negated then .notIn column filled else .isIn column filled, values.drop count)
    else none
  | .all members, values =>
    match fillAll members values with
    | some (predicates, left) => some (.all predicates, left)
    | none => none

def fillAll : List Condition → List Text → Option (List Predicate × List Text)
  | [], values => some ([], values)
  | c :: members, values =>
    match c.fill values with
    | some (p, left) =>
      match fillAll members left with
      | some (predicates, left) => some (p :: predicates, left)
      | none => none
    | none => none

end

/-- The predicate that a text and its values are read as: each placeholder takes the next value, and
none is left. -/
def Reads (s : Text) (values : List Text) (p : Predicate) : Prop :=
  ∃ c, Parses s c ∧ c.fill values = some (p, [])

end Sql

/-! ### The text of a predicate -/

namespace Predicate

mutual

/-- A predicate as it is written, without its values. -/
def written : Predicate → Sql.Condition
  | isIn column values => .test column false values.length
  | notIn column values => .test column true values.length
  | all predicates => .all (writtenAll predicates)

def writtenAll : List Predicate → List Sql.Condition
  | [] => []
  | predicate :: predicates => predicate.written :: writtenAll predicates

end

theorem marks_placeholders (count : Nat) : Sql.Marks count (placeholders count) := by
  induction count with
  | zero => exact .none
  | succ count ih =>
    cases count with
    | zero => exact .one
    | succ count => exact .more ih

theorem fill_written (p : Predicate) (left : List Text) :
    p.written.fill (p.binds ++ left) = some (p, left) := by
  -- What is left over varies: a member of a conjunction leaves the values of those behind it.
  induction p using induction_members generalizing left with
  | isIn column values => simp [written, binds, Sql.Condition.fill]
  | notIn column values => simp [written, binds, Sql.Condition.fill]
  | all predicates ih =>
    have hall : Sql.fillAll (writtenAll predicates) (bindsAll predicates ++ left) =
        some (predicates, left) := by
      induction predicates generalizing left with
      | nil => rfl
      | cons p predicates ihAll =>
        have hp := ih p List.mem_cons_self
        have hrest := ihAll fun q hq => ih q (List.mem_cons_of_mem p hq)
        rw [writtenAll, bindsAll, List.append_assoc, Sql.fillAll, hp]
        simp only [hrest]
    rw [written, binds, Sql.Condition.fill, hall]

theorem spells_rest {predicates : List Predicate}
    (h : ∀ p ∈ predicates, Sql.Parses p.sql p.written) :
    Sql.Spells (.rest (writtenAll predicates))
      (predicates.flatMap (fun p => " AND ".toList ++ p.sql) ++ [')']) := by
  induction predicates with
  | nil => exact .close
  | cons p predicates ih =>
    have hrest := ih fun q hq => h q (List.mem_cons_of_mem p hq)
    simpa [writtenAll] using Sql.Spells.next (h p List.mem_cons_self) hrest

theorem parses_sql {p : Predicate} (hcolumns : ∀ column ∈ p.columns, Sql.IsColumn column) :
    Sql.Parses p.sql p.written := by
  induction p using induction_members with
  | isIn column values =>
    have hcolumn : Sql.IsColumn column := hcolumns column List.mem_cons_self
    have htest : Sql.Spells (.whole (.test column false values.length)) _ :=
      .test hcolumn (marks_placeholders values.length)
    simpa [Sql.Parses, sql, written, Sql.operatorText] using htest
  | notIn column values =>
    have hcolumn : Sql.IsColumn column := hcolumns column List.mem_cons_self
    have htest : Sql.Spells (.whole (.test column true values.length)) _ :=
      .test hcolumn (marks_placeholders values.length)
    simpa [Sql.Parses, sql, written, Sql.operatorText] using htest
  | all predicates ih =>
    have hmembers : ∀ p ∈ predicates, Sql.Parses p.sql p.written := by
      intro p hp
      exact ih p hp fun column hcolumn => hcolumns column (columns_subset_of_mem hp hcolumn)
    cases predicates with
    -- a conjunction without members has a text of its own
    | nil => exact .empty
    | cons p predicates =>
      have hfirst := hmembers p List.mem_cons_self
      have hrest := spells_rest fun q hq => hmembers q (List.mem_cons_of_mem p hq)
      rw [sql, sqlAll_eq_map, List.map_cons, Text.intercalate_cons]
      simpa [Sql.Parses, written, writtenAll, List.flatMap_map] using
        Sql.Spells.joined hfirst hrest

/-- **Reading a predicate back.** A text and its values are read as the predicate they come from,
and as nothing else. -/
theorem reads_iff {p : Predicate} (hcolumns : ∀ column ∈ p.columns, Sql.IsColumn column)
    (q : Predicate) : Sql.Reads p.sql p.binds q ↔ q = p := by
  have hparse := parses_sql hcolumns
  have hfill : p.written.fill p.binds = some (p, []) := by
    simpa using p.fill_written []
  constructor
  · rintro ⟨c, hc, hq⟩
    obtain rfl := hparse.unique hc
    rw [hfill] at hq
    cases hq
    rfl
  · rintro rfl
    exact ⟨_, hparse, hfill⟩

/-! ### Placeholders and values -/

/-- Only a placeholder shows as a question mark. -/
theorem count_test {column operator : Text} (hcolumn : Sql.IsColumn column)
    (hoperator : operator.count '?' = 0) (values : List Text) :
    (column ++ operator ++ placeholders values.length ++ [')']).count '?' = values.length := by
  have hmark : column.count '?' = 0 := by
    rw [List.count_eq_zero]
    intro hmem
    exact (Sql.ne_of_isColumnChar (hcolumn.2 '?' hmem)).2.2.2 rfl
  simp [hmark, hoperator, (marks_placeholders values.length).count_eq]

theorem count_intercalate {c : Char} {separator : Text} (hseparator : separator.count c = 0)
    (parts : List Text) :
    (List.intercalate separator parts).count c = parts.flatten.count c := by
  cases parts with
  | nil => rfl
  | cons part parts =>
    rw [Text.intercalate_cons, List.flatten_cons, List.count_append, List.count_append]
    congr 1
    induction parts with
    | nil => rfl
    | cons next parts ih =>
      rw [List.flatMap_cons, List.flatten_cons, List.count_append, List.count_append,
        List.count_append, hseparator, Nat.zero_add, ih]

theorem count_sql {p : Predicate} (hcolumns : ∀ column ∈ p.columns, Sql.IsColumn column) :
    p.sql.count '?' = p.binds.length := by
  induction p using induction_members with
  | isIn column values => exact count_test (hcolumns column List.mem_cons_self) (by decide) values
  | notIn column values => exact count_test (hcolumns column List.mem_cons_self) (by decide) values
  | all predicates ih =>
    have hmembers : predicates.map (fun p => p.sql.count '?') =
        predicates.map fun p => p.binds.length := by
      apply List.map_congr_left
      intro p hp
      exact ih p hp fun column hcolumn => hcolumns column (columns_subset_of_mem hp hcolumn)
    have hjoined : (List.intercalate " AND ".toList (predicates.map sql)).count '?' =
        (predicates.flatMap binds).length := by
      rw [count_intercalate (by decide), List.count_flatten, List.map_map, List.length_flatMap,
        ← hmembers]
      rfl
    rw [sql, binds, sqlAll_eq_map, bindsAll_eq_flatMap, List.count_cons_of_ne (by decide),
      List.count_append, hjoined]
    rfl

end Predicate

end FilterAlgebra
