import FilterAlgebra.Proofs.Client.Literals
import Mathlib.Data.List.Nodup

/-!
# What a call shows

A call shows the filters that have a keyword argument and a value (`isShown`), in their order, and
of each of them its type, its context, whether it is fuzzy, its values and the operator between
several of them. It shows nothing else (`SameInCall`), and two calls of one function with the same
text show the same: an argument tells by its keyword and its first characters what kind of
expression follows, and every expression tells where it ends (`argumentText_append_inj`).
-/

namespace FilterAlgebra

/-! ### Several values -/

/-- Values in brackets, under the operator if there is one. -/
def listText (op : Option Op) (vs : List ShownValue) : Text :=
  let list := '[' :: (List.intercalate ", " (vs.map ShownValue.literal) ++ [']'])
  match op with
  | some op => op.name ++ '(' :: (list ++ [')'])
  | none => list

/-- One value bare, and several as a list. -/
def valuesText (op : Option Op) : List ShownValue → Text
  | [] => []
  | [v] => v.literal
  | vs => listText op vs

/-- Whether a text begins with one of some characters. -/
def BeginsWith (cs : List Char) (s : Text) : Prop := ∃ c t, s = c :: t ∧ c ∈ cs

theorem ne_of_beginsWith {cs cs' : List Char} {s s' r r' : Text} (h : BeginsWith cs s)
    (h' : BeginsWith cs' s') (hcs : cs.all (fun c => c ∉ cs') = true) : s ++ r ≠ s' ++ r' := by
  obtain ⟨c, t, rfl, hc⟩ := h
  obtain ⟨c', t', rfl, hc'⟩ := h'
  intro heq
  exact of_decide_eq_true (List.all_eq_true.mp hcs c hc) ((List.cons.inj heq).1 ▸ hc')

theorem literal_beginsWith (v : ShownValue) : BeginsWith ['"', 'D'] v.literal := by
  cases v with
  | text value => exact ⟨'"', _, rfl, by decide⟩
  | dates low high =>
    have h := datesLiteral_append low high []
    rw [List.append_nil] at h
    exact ⟨'D', _, h, by decide⟩

theorem listText_beginsWith (op : Option Op) (vs : List ShownValue) :
    BeginsWith ['[', 'A', 'O'] (listText op vs) := by
  rcases op with - | op
  · exact ⟨'[', _, rfl, by decide⟩
  · cases op with
    | and => exact ⟨'A', _, rfl, by decide⟩
    | or => exact ⟨'O', _, rfl, by decide⟩

theorem listText_append_inj {op op' : Option Op} {vs vs' : List ShownValue} {r r' : Text}
    (hvs : vs ≠ []) (hvs' : vs' ≠ []) (h : listText op vs ++ r = listText op' vs' ++ r') :
    op = op' ∧ vs = vs' ∧ r = r' := by
  rcases op with - | op
  · rcases op' with - | op'
    · simp only [listText, List.cons_append, List.append_assoc, List.cons.injEq, true_and] at h
      exact ⟨rfl, literals_append_inj hvs hvs' h⟩
    · cases op' <;> simp [listText, Op.name] at h
  · rcases op' with - | op'
    · cases op <;> simp [listText, Op.name] at h
    · have hop : op = op' := by
        cases op <;> cases op'
        · rfl
        · simp [listText, Op.name] at h
        · simp [listText, Op.name] at h
        · rfl
      subst hop
      simp only [listText, List.cons_append, List.append_assoc, List.append_cancel_left_eq,
        List.cons.injEq, true_and] at h
      obtain ⟨rfl, hclose⟩ := literals_append_inj hvs hvs' h
      exact ⟨rfl, rfl, (List.cons.inj hclose).2⟩

theorem valuesText_beginsWith (op : Option Op) {vs : List ShownValue} (hvs : vs ≠ []) :
    BeginsWith ['"', 'D', '[', 'A', 'O'] (valuesText op vs) := by
  rcases vs with - | ⟨v, - | ⟨w, vs⟩⟩
  · exact absurd rfl hvs
  · obtain ⟨c, t, ht, hc⟩ := literal_beginsWith v
    exact ⟨c, t, ht, List.mem_append_left ['[', 'A', 'O'] hc⟩
  · obtain ⟨c, t, ht, hc⟩ := listText_beginsWith op (v :: w :: vs)
    exact ⟨c, t, ht, List.mem_append_right ['"', 'D'] hc⟩

/-- Values tell which they are and where they end, and their operator if there are several. -/
theorem valuesText_append_inj {op op' : Option Op} {vs vs' : List ShownValue} {r r' : Text}
    (hvs : vs ≠ []) (hvs' : vs' ≠ []) (h : valuesText op vs ++ r = valuesText op' vs' ++ r') :
    (vs = vs' ∧ (2 ≤ vs.length → op = op')) ∧ r = r' := by
  rcases vs with - | ⟨v, - | ⟨w, vs⟩⟩
  · exact absurd rfl hvs
  · rcases vs' with - | ⟨v', - | ⟨w', vs'⟩⟩
    · exact absurd rfl hvs'
    · obtain ⟨rfl, hr⟩ := ShownValue.literal_append_inj h
      refine ⟨⟨rfl, fun hlength => ?_⟩, hr⟩
      simp at hlength
    · exact absurd h (ne_of_beginsWith (literal_beginsWith v)
        (listText_beginsWith op' (v' :: w' :: vs')) (by decide))
  · rcases vs' with - | ⟨v', - | ⟨w', vs'⟩⟩
    · exact absurd rfl hvs'
    · exact absurd h.symm (ne_of_beginsWith (literal_beginsWith v')
        (listText_beginsWith op (v :: w :: vs)) (by decide))
    · obtain ⟨hop, hvalues, hr⟩ := listText_append_inj hvs hvs' h
      exact ⟨⟨hvalues, fun _ => hop⟩, hr⟩

/-! ### Expressions -/

/-- The characters with which values begin. -/
def valueStarts : List Char := ['"', 'D', '[', 'A', 'O']

def fuzzyText (isFuzzy : Bool) (base : Text) : Text :=
  if isFuzzy then "Fuzzy(" ++ base ++ ")" else base

def negatedText (isExcluded : Bool) (shaped : Text) : Text :=
  if isExcluded then '~' :: shaped else shaped

theorem fuzzyText_true_append (base r : Text) :
    fuzzyText true base ++ r = 'F' :: ("uzzy(".toList ++ (base ++ ')' :: r)) := by
  unfold fuzzyText
  simp

theorem fuzzyText_beginsWith (isFuzzy : Bool) {base : Text} (h : BeginsWith valueStarts base) :
    BeginsWith ('F' :: valueStarts) (fuzzyText isFuzzy base) := by
  cases isFuzzy with
  | true =>
    have htext := fuzzyText_true_append base []
    rw [List.append_nil] at htext
    exact ⟨'F', _, htext, List.mem_cons_self⟩
  | false =>
    obtain ⟨c, t, ht, hc⟩ := h
    exact ⟨c, t, ht, List.mem_cons_of_mem 'F' hc⟩

section Wrapped

variable {base base' r r' : Text} {P : Prop} (hbase : BeginsWith valueStarts base)
  (hbase' : BeginsWith valueStarts base')
  (hsettled : ∀ t t', base ++ t = base' ++ t' → P ∧ t = t')

include hbase hbase' hsettled

theorem fuzzyText_append_inj {isFuzzy isFuzzy' : Bool}
    (h : fuzzyText isFuzzy base ++ r = fuzzyText isFuzzy' base' ++ r') :
    (isFuzzy = isFuzzy' ∧ P) ∧ r = r' := by
  have hfuzzy : ∀ s : Text, BeginsWith ['F'] (fuzzyText true s) := by
    intro s
    have htext := fuzzyText_true_append s []
    rw [List.append_nil] at htext
    exact ⟨'F', _, htext, List.mem_singleton_self 'F'⟩
  cases isFuzzy with
  | true =>
    cases isFuzzy' with
    | true =>
      -- both are wrapped, and the closing parenthesis goes with the rest
      rw [fuzzyText_true_append, fuzzyText_true_append] at h
      obtain ⟨hp, hclose⟩ := hsettled _ _ (List.append_cancel_left (List.cons.inj h).2)
      exact ⟨⟨rfl, hp⟩, (List.cons.inj hclose).2⟩
    -- values never begin like a wrapped expression
    | false => exact absurd h (ne_of_beginsWith (hfuzzy base) hbase' (by decide))
  | false =>
    cases isFuzzy' with
    | true => exact absurd h.symm (ne_of_beginsWith (hfuzzy base') hbase (by decide))
    | false =>
      obtain ⟨hp, hr⟩ := hsettled r r' h
      exact ⟨⟨rfl, hp⟩, hr⟩

/-- An expression tells its context and whether it is fuzzy by what stands before its values. -/
theorem negatedText_append_inj {isExcluded isExcluded' isFuzzy isFuzzy' : Bool}
    (h : negatedText isExcluded (fuzzyText isFuzzy base) ++ r =
      negatedText isExcluded' (fuzzyText isFuzzy' base') ++ r') :
    (isExcluded = isExcluded' ∧ isFuzzy = isFuzzy' ∧ P) ∧ r = r' := by
  have hnegated : ∀ s : Text, BeginsWith ['~'] ('~' :: s) := fun s =>
    ⟨'~', s, rfl, List.mem_singleton_self '~'⟩
  cases isExcluded with
  | true =>
    cases isExcluded' with
    | true =>
      obtain ⟨hp, hr⟩ := fuzzyText_append_inj hbase hbase' hsettled (List.cons.inj h).2
      exact ⟨⟨rfl, hp⟩, hr⟩
    | false =>
      exact absurd h (ne_of_beginsWith (hnegated (fuzzyText isFuzzy base))
        (fuzzyText_beginsWith isFuzzy' hbase') (by decide))
  | false =>
    cases isExcluded' with
    | true =>
      exact absurd h.symm (ne_of_beginsWith (hnegated (fuzzyText isFuzzy' base'))
        (fuzzyText_beginsWith isFuzzy hbase) (by decide))
    | false =>
      obtain ⟨hp, hr⟩ := fuzzyText_append_inj hbase hbase' hsettled h
      exact ⟨⟨rfl, hp⟩, hr⟩

end Wrapped

/-- A flag is its own value, and its context tells which. -/
def flagText (isExcluded : Bool) : Text := if isExcluded then "False" else "True"

theorem flagText_append_inj {isExcluded isExcluded' : Bool} {r r' : Text}
    (h : flagText isExcluded ++ r = flagText isExcluded' ++ r') :
    isExcluded = isExcluded' ∧ r = r' := by
  cases isExcluded with
  | true =>
    cases isExcluded' with
    | true => exact ⟨rfl, List.append_cancel_left h⟩
    | false => cases (List.cons.inj h).1
  | false =>
    cases isExcluded' with
    | true => cases (List.cons.inj h).1
    | false => exact ⟨rfl, List.append_cancel_left h⟩

/-! ### Keywords -/

namespace FilterType

theorem nodup_keywords :
    ((known.filter fun kind => kind.keyword?.isSome).map keyword?).Nodup := by
  decide +kernel

theorem mem_known_of_keyword? {kind : FilterType} {keyword : Text}
    (h : kind.keyword? = some keyword) : kind ∈ known := by
  cases kind with
  | unknown name => cases h
  | _ => decide

/-- The keyword tells the type. -/
theorem eq_of_keyword? {kind kind' : FilterType} {keyword : Text}
    (h : kind.keyword? = some keyword) (h' : kind'.keyword? = some keyword) : kind = kind' := by
  have hmem : kind ∈ known.filter fun kind => kind.keyword?.isSome :=
    List.mem_filter.mpr ⟨mem_known_of_keyword? h, by rw [h]; rfl⟩
  have hmem' : kind' ∈ known.filter fun kind => kind.keyword?.isSome :=
    List.mem_filter.mpr ⟨mem_known_of_keyword? h', by rw [h']; rfl⟩
  exact List.inj_on_of_nodup_map nodup_keywords hmem hmem' (h.trans h'.symm)

/-- The client has no keyword for the ids of items, for pages, for the test for contents and for
types that are not known, and one for every other type. -/
theorem keyword?_eq_none_iff {kind : FilterType} :
    kind.keyword? = none ↔
      kind.isKnown = false ∨ kind = .uid ∨ kind = .page ∨ kind = .hasTextContents := by
  cases kind <;> simp [keyword?, isKnown]

theorem ne_equals_of_mem_keyword {kind : FilterType} {keyword : Text}
    (h : kind.keyword? = some keyword) : ∀ c ∈ keyword, c ≠ '=' := by
  have hchars : (known.all fun kind => (kind.keyword?.getD []).all (· ≠ '=')) = true := by
    decide +kernel
  have hkeyword := List.all_eq_true.mp hchars kind (mem_known_of_keyword? h)
  rw [h] at hkeyword
  intro c hc
  simpa using List.all_eq_true.mp hkeyword c hc

end FilterType

/-! ### Arguments -/

namespace Filter

/-- Whether a call shows a filter: it has a keyword argument, and is a flag or has a value. -/
def isShown (f : Filter) : Bool := f.type.keyword?.isSome && (f.type.isFlag || !f.isWildcard)

/-- Of the two flags only one has a keyword, so a filter of any other type needs a value. -/
theorem isShown_iff {f : Filter} :
    f.isShown = true ↔
      (f.type.isKnown = true ∧ f.type ≠ .uid ∧ f.type ≠ .page ∧ f.type ≠ .hasTextContents) ∧
        (f.type = .isFront ∨ f.isWildcard = false) := by
  have hkeyword : f.type.keyword?.isSome = true ↔
      f.type.isKnown = true ∧ f.type ≠ .uid ∧ f.type ≠ .page ∧ f.type ≠ .hasTextContents := by
    rw [Option.isSome_iff_ne_none, Ne, FilterType.keyword?_eq_none_iff]
    simp
  have hflag : f.type.isFlag = true ↔ f.type = .isFront ∨ f.type = .hasTextContents := by
    cases f.type <;> simp [FilterType.isFlag]
  rw [isShown, Bool.and_eq_true, Bool.or_eq_true, hkeyword, hflag, Bool.not_eq_true']
  constructor
  · rintro ⟨hnone, hvalue⟩
    exact ⟨hnone, hvalue.imp_left fun h => h.resolve_right hnone.2.2.2⟩
  · rintro ⟨hnone, hvalue⟩
    exact ⟨hnone, hvalue.imp_left .inl⟩

/-- A value as the call shows it: a date range by its bounds, if it is one. -/
def shownValue (f : Filter) (value : Text) : ShownValue :=
  if f.type = .daterange then
    match splitRange? value with
    | some (low, high) => .dates low high
    | none => .text value
  else .text value

/-- Whether two filters are the same as far as a call can show them. -/
structure SameInCall (f g : Filter) : Prop where
  type : f.type = g.type
  context : f.context = g.context
  precision : f.type.isFlag = false → (f.precision = some .fuzzy ↔ g.precision = some .fuzzy)
  values : f.type.isFlag = false → f.values.map f.shownValue = g.values.map g.shownValue
  op : f.type.isFlag = false → 2 ≤ f.values.length → f.op = g.op

def expressionText (f : Filter) : Text :=
  if f.type.isFlag then flagText f.isExcluded
  else negatedText f.isExcluded (fuzzyText (decide (f.precision = some .fuzzy))
    (valuesText f.op (f.values.map f.shownValue)))

def argumentText (f : Filter) : Text := f.type.keyword?.getD [] ++ '=' :: f.expressionText

theorem valueLiteral_eq (f : Filter) (value : Text) :
    f.valueLiteral value = (f.shownValue value).literal := by
  unfold valueLiteral shownValue
  split
  · unfold dateRangeLiteral
    cases splitRange? value with
    | none => rfl
    | some bounds => rfl
  · rfl

theorem valuesLiteral?_eq (f : Filter) :
    f.valuesLiteral? =
      if f.isWildcard then none else some (valuesText f.op (f.values.map f.shownValue)) := by
  have hliterals : f.values.map f.valueLiteral =
      (f.values.map f.shownValue).map ShownValue.literal := by
    rw [List.map_map]
    exact List.map_congr_left fun value _ => f.valueLiteral_eq value
  unfold valuesLiteral? isWildcard
  rcases hvalues : f.values with - | ⟨value, - | ⟨next, rest⟩⟩
  · rfl
  · simp [valuesText, valueLiteral_eq]
  · rw [hvalues] at hliterals
    simp only [hliterals]
    rfl

theorem argument?_of_values_nil {f : Filter} (hflag : f.type.isFlag = false)
    (hvalues : f.values = []) : f.argument? = none := by
  have hrange : f.rangeLiteral? = none := by rw [rangeLiteral?, hvalues]
  have hlist : f.valuesLiteral? = none := by rw [valuesLiteral?, hvalues]
  unfold argument?
  rw [hflag, hrange, hlist, ite_self]
  rfl

theorem keywordArgument?_of_not_isShown {f : Filter} (h : f.isShown = false) :
    f.keywordArgument? = none := by
  unfold keywordArgument?
  cases hkeyword : f.type.keyword? with
  | none => rfl
  | some keyword =>
    have hneither : f.type.isFlag = false ∧ f.values = [] := by
      simpa [isShown, hkeyword, isWildcard] using h
    rw [argument?_of_values_nil hneither.1 hneither.2]

theorem argument?_of_isShown {f : Filter} (h : f.isShown = true)
    (hrange : f.type.isNumericRange = false) : f.argument? = some f.expressionText := by
  unfold argument? expressionText
  by_cases hflag : f.type.isFlag = true
  · rw [if_pos hflag, if_pos hflag]
    rfl
  · have hvalues : f.isWildcard = false := by
      simp only [isShown, hflag, Bool.false_or, Bool.and_eq_true] at h
      simpa using h.2
    rw [if_neg hflag, if_neg hflag, hrange, valuesLiteral?_eq, hvalues]
    simp only [Bool.false_eq_true, if_false, Option.map_some, negatedText, fuzzyText,
      decide_eq_true_eq]

theorem keywordArgument?_of_isShown {f : Filter} (h : f.isShown = true)
    (hrange : f.type.isNumericRange = false) : f.keywordArgument? = some f.argumentText := by
  have hkeyword : f.type.keyword?.isSome = true := (Bool.and_eq_true_iff.mp h).1
  obtain ⟨keyword, hkeyword⟩ := Option.isSome_iff_exists.mp hkeyword
  rw [keywordArgument?, argument?_of_isShown h hrange, argumentText, hkeyword]
  rfl

theorem filterMap_keywordArgument? {filters : List Filter}
    (hranges : ∀ f ∈ filters, f.type.isNumericRange = false) :
    filters.filterMap keywordArgument? = (filters.filter isShown).map argumentText := by
  induction filters with
  | nil => rfl
  | cons f filters ih =>
    have hrest := ih fun g hg => hranges g (List.mem_cons_of_mem f hg)
    cases h : f.isShown with
    | true =>
      have hf := keywordArgument?_of_isShown h (hranges f List.mem_cons_self)
      rw [List.filterMap_cons_some hf, List.filter_cons_of_pos h, List.map_cons, hrest]
    | false =>
      have hf : ¬f.isShown = true := by simp [h]
      rw [List.filterMap_cons_none (keywordArgument?_of_not_isShown h), List.filter_cons_of_neg hf,
        hrest]

/-! ### What an argument tells -/

theorem map_shownValue_ne_nil {f : Filter} (h : f.isShown = true) (hflag : f.type.isFlag = false) :
    f.values.map f.shownValue ≠ [] := by
  simp only [isShown, hflag, Bool.false_or, Bool.and_eq_true] at h
  simpa [isWildcard] using h.2

theorem context_eq_of_isExcluded {f g : Filter} (h : f.isExcluded = g.isExcluded) :
    f.context = g.context := by
  unfold isExcluded at h
  cases hf : f.context <;> cases hg : g.context <;> simp_all

/-- An argument tells everything that a call shows of its filter, and where it ends. -/
theorem argumentText_append_inj {f g : Filter} (hf : f.isShown = true) (hg : g.isShown = true)
    {r r' : Text} (h : f.argumentText ++ r = g.argumentText ++ r') :
    f.SameInCall g ∧ r = r' := by
  obtain ⟨keyword, hkeyword⟩ := Option.isSome_iff_exists.mp (Bool.and_eq_true_iff.mp hf).1
  obtain ⟨keyword', hkeyword'⟩ := Option.isSome_iff_exists.mp (Bool.and_eq_true_iff.mp hg).1
  simp only [argumentText, hkeyword, hkeyword', Option.getD_some, List.append_assoc,
    List.cons_append] at h
  -- a keyword ends at the first equals sign, and tells the type
  obtain ⟨rfl, -⟩ := append_cons_inj_of_forall (FilterType.ne_equals_of_mem_keyword hkeyword)
    (FilterType.ne_equals_of_mem_keyword hkeyword') (fun hne => hne rfl) (fun hne => hne rfl) h
  have htype := FilterType.eq_of_keyword? hkeyword hkeyword'
  have hexpression := (List.cons.inj (List.append_cancel_left h)).2
  unfold expressionText at hexpression
  rw [← htype] at hexpression
  by_cases hflag : f.type.isFlag = true
  · -- a flag is `True` or `False`, and that tells its context
    rw [if_pos hflag, if_pos hflag] at hexpression
    obtain ⟨hexcluded, hr⟩ := flagText_append_inj hexpression
    have hnever : ¬f.type.isFlag = false := by
      rw [hflag]
      decide
    exact ⟨⟨htype, context_eq_of_isExcluded hexcluded, fun hnone => absurd hnone hnever,
      fun hnone => absurd hnone hnever, fun hnone => absurd hnone hnever⟩, hr⟩
  · have hnone : f.type.isFlag = false := by simpa using hflag
    have hvalues := map_shownValue_ne_nil hf hnone
    have hvalues' := map_shownValue_ne_nil hg (htype ▸ hnone)
    rw [if_neg hflag, if_neg hflag] at hexpression
    obtain ⟨⟨hexcluded, hfuzzy, hshown, hop⟩, hr⟩ := negatedText_append_inj
      (valuesText_beginsWith f.op hvalues) (valuesText_beginsWith g.op hvalues')
      (fun t t' => valuesText_append_inj hvalues hvalues') hexpression
    refine ⟨⟨htype, context_eq_of_isExcluded hexcluded, ?_, fun _ => hshown, ?_⟩, hr⟩
    · intro _
      simpa using hfuzzy
    · intro _ hlength
      exact hop (by simpa using hlength)

/-- What a call shows of a filter settles its argument. -/
theorem SameInCall.argumentText_eq {f g : Filter} (h : f.SameInCall g) :
    f.argumentText = g.argumentText := by
  have hexcluded : f.isExcluded = g.isExcluded := by rw [isExcluded, isExcluded, h.context]
  unfold argumentText expressionText
  rw [← h.type, ← hexcluded]
  by_cases hflag : f.type.isFlag = true
  · rw [if_pos hflag, if_pos hflag]
  · have hnone : f.type.isFlag = false := by simpa using hflag
    have hfuzzy : decide (f.precision = some .fuzzy) = decide (g.precision = some .fuzzy) := by
      simp only [h.precision hnone]
    have hvalues : valuesText f.op (f.values.map f.shownValue) =
        valuesText g.op (f.values.map f.shownValue) := by
      rcases hf : f.values with - | ⟨value, - | ⟨next, rest⟩⟩
      · rfl
      · rfl
      · rw [h.op hnone (by simp [hf])]
    rw [if_neg hflag, if_neg hflag, hvalues, h.values hnone, hfuzzy]

end Filter

/-! ### Calls -/

/-- Arguments on lines of their own, in parentheses. -/
def linedText (arguments : List Text) : Text :=
  "(\n\t" ++ List.intercalate ",\n\t" arguments ++ "\n)"

/-- Arguments as they stand behind the name of a function. -/
def argumentsText : List Text → Text
  | [] => "()"
  | arguments => linedText arguments

theorem linedText_eq (arguments : List Text) :
    linedText arguments =
      '(' :: '\n' :: '\t' :: (List.intercalate ",\n\t" arguments ++ ['\n', ')']) := rfl

theorem compileCall_eq (resource function : Text) (filters : List Filter) :
    compileCall resource function filters = ("impresso." ++ resource ++ '.' :: function) ++
      argumentsText (filters.filterMap Filter.keywordArgument?) := by
  unfold compileCall
  cases filters.filterMap Filter.keywordArgument? with
  | nil => rfl
  | cons first rest =>
    generalize ("impresso." ++ resource ++ '.' :: function : Text) = call
    change call ++ _ ++ _ ++ _ = call ++ (_ ++ _ ++ _)
    rw [List.append_assoc, List.append_assoc, List.append_assoc]

theorem argumentsText_nil_ne {arguments : List Text} (h : arguments ≠ []) :
    argumentsText [] ≠ argumentsText arguments := by
  intro heq
  obtain ⟨first, rest, rfl⟩ := List.exists_cons_of_ne_nil h
  change ['(', ')'] = linedText (first :: rest) at heq
  rw [linedText_eq] at heq
  cases (List.cons.inj (List.cons.inj heq).2).1

theorem forall₂_of_argumentsText {xs ys : List Filter} (hxs : ∀ f ∈ xs, f.isShown = true)
    (hys : ∀ g ∈ ys, g.isShown = true)
    (h : argumentsText (xs.map Filter.argumentText) = argumentsText (ys.map Filter.argumentText)) :
    List.Forall₂ Filter.SameInCall xs ys := by
  by_cases hx : xs = []
  · by_cases hy : ys = []
    · rw [hx, hy]
      exact .nil
    · -- a call without arguments has its parentheses on one line
      rw [hx] at h
      exact absurd h (argumentsText_nil_ne (by simpa using hy))
  · by_cases hy : ys = []
    · rw [hy] at h
      exact absurd h.symm (argumentsText_nil_ne (by simpa using hx))
    · have hlined : ∀ zs : List Filter, zs ≠ [] →
          argumentsText (zs.map Filter.argumentText) =
            linedText (zs.map Filter.argumentText) := by
        intro zs hzs
        obtain ⟨z, zs, rfl⟩ := List.exists_cons_of_ne_nil hzs
        rfl
      rw [hlined xs hx, hlined ys hy, linedText_eq, linedText_eq] at h
      -- what is left is the list of arguments, and the line end that closes it
      have hbody := (List.cons.inj (List.cons.inj (List.cons.inj h).2).2).2
      have hmembers : ∀ f ∈ xs, ∀ g ∈ ys, ∀ r r' : Text,
          f.argumentText ++ r = g.argumentText ++ r' → f.SameInCall g ∧ r = r' := by
        intro f hf g hg r r'
        exact Filter.argumentText_append_inj (hxs f hf) (hys g hg)
      have hsep : ∀ s t : Text, (",\n\t" : Text) ++ s ≠ '\n' :: t := by
        intro s t hst
        cases (List.cons.inj hst).1
      exact (forall₂_of_intercalate hx hy hmembers hsep hbody).1

theorem map_argumentText_eq {xs ys : List Filter} (h : List.Forall₂ Filter.SameInCall xs ys) :
    xs.map Filter.argumentText = ys.map Filter.argumentText := by
  induction h with
  | nil => rfl
  | cons hfirst _ ih => rw [List.map_cons, List.map_cons, hfirst.argumentText_eq, ih]

theorem isShown_of_mem_filter {filters : List Filter} :
    ∀ f ∈ filters.filter Filter.isShown, f.isShown = true :=
  fun _ hf => (List.mem_filter.mp hf).2

/-- **What a call shows.** Two calls of one function, of filters of any types but the numeric
ranges, have the same text if and only if their shown filters are the same in their order, each as
far as a call shows it. Filters that are not shown, of any type, change no call. -/
theorem compileCall_faithful (resource function : Text) :
    (∀ xs ys : List Filter, (∀ f ∈ xs, f.type.isNumericRange = false) →
      (∀ g ∈ ys, g.type.isNumericRange = false) →
      (compileCall resource function xs = compileCall resource function ys ↔
        List.Forall₂ Filter.SameInCall (xs.filter Filter.isShown) (ys.filter Filter.isShown))) ∧
    ∀ before inserted after : List Filter, (∀ f ∈ inserted, f.isShown = false) →
      compileCall resource function (before ++ inserted ++ after) =
        compileCall resource function (before ++ after) := by
  constructor
  · intro xs ys hxs hys
    rw [compileCall_eq, compileCall_eq, List.append_cancel_left_eq,
      Filter.filterMap_keywordArgument? hxs, Filter.filterMap_keywordArgument? hys]
    constructor
    · exact forall₂_of_argumentsText isShown_of_mem_filter isShown_of_mem_filter
    · intro hsame
      rw [map_argumentText_eq hsame]
  · intro before inserted after hinserted
    have hnone : inserted.filterMap Filter.keywordArgument? = [] :=
      List.filterMap_eq_nil_iff.mpr fun f hf =>
        Filter.keywordArgument?_of_not_isShown (hinserted f hf)
    rw [compileCall_eq, compileCall_eq, List.filterMap_append, List.filterMap_append,
      List.filterMap_append, hnone, List.append_nil]

/-- Two newspapers, one of them with a quote, a range of dates and a flag that is not wanted. -/
def plainFilters : List Filter :=
  [{ type := .newspaper, op := some .or, q := some (.many ["GDL", "a\", \"b"]) },
    { type := .daterange, q := some (.one "1900 TO 1910") },
    { type := .isFront, context := .excluded }]

/-- The same filters in other spellings, with one more that is not shown. -/
def respelledFilters : List Filter :=
  [{ type := .newspaper, op := some .or, precision := some .exact,
      q := some (.many ["GDL", " ", "a\", \"b"]) },
    { type := .uid, q := some (.one "JDG-1900-01-01-a") },
    { type := .daterange, op := some .and, q := some (.many ["[ 1900 TO 1910 ]"]) },
    { type := .isFront, context := .excluded, q := some (.one "true") }]

theorem compileCall_faithful_respelled :
    ((∀ f ∈ plainFilters, f.type.isNumericRange = false) ∧
      (∀ f ∈ respelledFilters, f.type.isNumericRange = false) ∧
      (plainFilters.filter Filter.isShown = plainFilters ∧
        respelledFilters.filter Filter.isShown = respelledFilters.eraseIdx 1) ∧
      compileCall "search" "find" plainFilters = compileCall "search" "find" respelledFilters ∧
      List.Forall₂ Filter.SameInCall (plainFilters.filter Filter.isShown)
        (respelledFilters.filter Filter.isShown)) ∧
    (∀ f ∈ [{ type := .uid, q := some (.one "x") }], Filter.isShown f = false) ∧
      compileCall "search" "find"
          (plainFilters ++ [{ type := .uid, q := some (.one "x") }] ++ respelledFilters) =
        compileCall "search" "find" (plainFilters ++ respelledFilters) := by
  have hplain : ∀ f ∈ plainFilters, f.type.isNumericRange = false := by decide
  have hrespelled : ∀ f ∈ respelledFilters, f.type.isNumericRange = false := by decide
  have hhidden : ∀ f ∈ [{ type := .uid, q := some (.one "x") }], Filter.isShown f = false := by
    decide +kernel
  have hcalls : compileCall "search" "find" plainFilters =
      compileCall "search" "find" respelledFilters := by
    decide +kernel
  have hshown : plainFilters.filter Filter.isShown = plainFilters ∧
      respelledFilters.filter Filter.isShown = respelledFilters.eraseIdx 1 := by
    decide +kernel
  obtain ⟨hfaithful, hunchanged⟩ := compileCall_faithful "search" "find"
  exact ⟨⟨hplain, hrespelled, hshown, hcalls, (hfaithful _ _ hplain hrespelled).mp hcalls⟩,
    hhidden, hunchanged plainFilters _ respelledFilters hhidden⟩

end FilterAlgebra
