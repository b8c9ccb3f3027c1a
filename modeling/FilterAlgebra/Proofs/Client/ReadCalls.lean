import FilterAlgebra.Proofs.Client.Lexing

/-!
# Calls are read as they are meant

Every argument of a call is put together from names, marks and string literals, so its tokens can be
put together in the same way, from those of its values. An argument without a numeric range has
exactly these tokens (`argumentTokens`) wherever it stands, if no value is broken off by a carriage
return or a NUL. If one is, the argument cannot be read (`reads_argumentText`), and neither can the
call.
-/

namespace FilterAlgebra

open CallLexer

/-! ### Values -/

namespace ShownValue

def isUnbroken : ShownValue → Bool
  | text value => CallLexer.isUnbroken value
  | dates low high => CallLexer.isUnbroken low && CallLexer.isUnbroken high

def tokens : ShownValue → List Token
  | text value => [.string value]
  | dates low high =>
    [.name "DateRange", .mark '(', .string low, .mark ',', .string high, .mark ')']

end ShownValue

theorem opens_comma : Opens ", " [.mark ','] :=
  (opens_mark (c := ',') (by decide)).append (opens_space (c := ' ') (by decide))

theorem opens_close : Opens ")" [.mark ')'] := opens_mark (c := ')') (by decide)

/-- A name and the parenthesis behind it. -/
theorem opens_called {word text : Text} (h : isName word = true) (htext : text = word ++ ['(']) :
    Opens text [.name word, .mark '('] := by
  rw [htext]
  exact (reads_name h).opens (opens_mark (by decide)) (by decide)

theorem reads_literal (v : ShownValue) : Reads v.literal v.isUnbroken v.tokens := by
  cases v with
  | text value => exact reads_stringLiteral value
  | dates low high =>
    have hbounds := (reads_stringLiteral low).append (opens_comma.reads (reads_stringLiteral high))
      (stops_append (by decide) _)
    have hname : Opens "DateRange(" [.name "DateRange", .mark '('] :=
      opens_called (by decide) (by decide)
    have hcall := hbounds.enclosed hname opens_close (by decide)
    change Reads (datesLiteral low high) _ _
    unfold datesLiteral
    simp only [List.append_assoc] at hcall ⊢
    exact hcall

/-! ### Expressions -/

/-- The tokens of values in brackets, under the operator if there is one. -/
def listTokens (op : Option Op) (vs : List ShownValue) : List Token :=
  let list := .mark '[' :: (List.intercalate [.mark ','] (vs.map ShownValue.tokens) ++ [.mark ']'])
  match op with
  | some op => .name op.name :: .mark '(' :: (list ++ [.mark ')'])
  | none => list

def valuesTokens (op : Option Op) : List ShownValue → List Token
  | [] => []
  | [v] => v.tokens
  | vs => listTokens op vs

theorem reads_listText (op : Option Op) {vs : List ShownValue} (hvs : vs ≠ []) :
    Reads (listText op vs) (vs.all ShownValue.isUnbroken) (listTokens op vs) := by
  have hmembers : Reads (List.intercalate ", " (vs.map ShownValue.literal))
      (vs.all ShownValue.isUnbroken) (List.intercalate [.mark ','] (vs.map ShownValue.tokens)) :=
    reads_intercalate hvs (fun v _ => reads_literal v) opens_comma (by decide)
  have hlist := hmembers.enclosed (opens_mark (c := '[') (by decide))
    (opens_mark (c := ']') (by decide)) (by decide)
  cases op with
  | none => exact hlist
  | some op =>
    have hname : isName op.name = true := by cases op <;> decide
    have hcall := hlist.enclosed (opens_called hname rfl) opens_close (by decide)
    simpa [listText, listTokens] using hcall

theorem reads_valuesText (op : Option Op) {vs : List ShownValue} (hvs : vs ≠ []) :
    Reads (valuesText op vs) (vs.all ShownValue.isUnbroken) (valuesTokens op vs) := by
  rcases vs with - | ⟨v, - | ⟨w, vs⟩⟩
  · exact absurd rfl hvs
  · simpa [valuesText, valuesTokens] using reads_literal v
  · exact reads_listText op hvs

def fuzzyTokens (isFuzzy : Bool) (base : List Token) : List Token :=
  if isFuzzy then .name "Fuzzy" :: .mark '(' :: (base ++ [.mark ')']) else base

def negatedTokens (isExcluded : Bool) (shaped : List Token) : List Token :=
  if isExcluded then .mark '~' :: shaped else shaped

section Wrapped

variable {base : Text} {sound : Bool} {tokens : List Token}

theorem reads_fuzzyText (isFuzzy : Bool) (h : Reads base sound tokens) :
    Reads (fuzzyText isFuzzy base) sound (fuzzyTokens isFuzzy tokens) := by
  cases isFuzzy with
  | false => exact h
  | true =>
    have hname : Opens "Fuzzy(" [.name "Fuzzy", .mark '('] := opens_called (by decide) (by decide)
    exact h.enclosed hname opens_close (by decide)

theorem reads_negatedText (isExcluded : Bool) (h : Reads base sound tokens) :
    Reads (negatedText isExcluded base) sound (negatedTokens isExcluded tokens) := by
  cases isExcluded with
  | false => exact h
  | true => exact (opens_mark (c := '~') (by decide)).reads h

end Wrapped

/-! ### Arguments -/

namespace Filter

/-- Whether no value of a filter is broken off; a flag shows none of them. -/
def isUnbroken (f : Filter) : Bool :=
  f.type.isFlag || (f.values.map f.shownValue).all ShownValue.isUnbroken

def expressionTokens (f : Filter) : List Token :=
  if f.type.isFlag then [.name (flagText f.isExcluded)]
  else negatedTokens f.isExcluded (fuzzyTokens (decide (f.precision = some .fuzzy))
    (valuesTokens f.op (f.values.map f.shownValue)))

def argumentTokens (f : Filter) : List Token :=
  .name (f.type.keyword?.getD []) :: .mark '=' :: f.expressionTokens

theorem isName_keyword {f : Filter} (h : f.isShown = true) :
    isName (f.type.keyword?.getD []) = true := by
  have hnames : (FilterType.known.all fun kind => (kind.keyword?.map isName).getD true) = true := by
    decide +kernel
  obtain ⟨keyword, hkeyword⟩ := Option.isSome_iff_exists.mp (Bool.and_eq_true_iff.mp h).1
  have hname := List.all_eq_true.mp hnames _ (FilterType.mem_known_of_keyword? hkeyword)
  rw [hkeyword] at hname ⊢
  exact hname

theorem reads_expressionText {f : Filter} (h : f.isShown = true) :
    Reads f.expressionText f.isUnbroken f.expressionTokens := by
  unfold expressionText isUnbroken expressionTokens
  cases hflag : f.type.isFlag with
  | true =>
    have hname : isName (flagText f.isExcluded) = true := by cases f.isExcluded <;> decide
    exact reads_name hname
  | false =>
    have hvalues := map_shownValue_ne_nil h hflag
    exact reads_negatedText _ (reads_fuzzyText _ (reads_valuesText f.op hvalues))

theorem reads_argumentText {f : Filter} (h : f.isShown = true) :
    Reads f.argumentText f.isUnbroken f.argumentTokens := by
  have hkeyword := (reads_name (isName_keyword h)).opens (opens_mark (c := '=') (by decide))
    (by decide)
  have hargument := hkeyword.reads (reads_expressionText h)
  rwa [List.append_assoc] at hargument

end Filter

/-! ### Calls -/

/-- The tokens of arguments in parentheses. -/
def argumentsTokens (filters : List Filter) : List Token :=
  .mark '(' :: (List.intercalate [.mark ','] (filters.map Filter.argumentTokens) ++ [.mark ')'])

theorem lex_argumentsText {filters : List Filter} (h : ∀ f ∈ filters, f.isShown = true) :
    lex (argumentsText (filters.map Filter.argumentText)) =
      if filters.all Filter.isUnbroken then some (argumentsTokens filters) else none := by
  by_cases hne : filters = []
  · subst hne
    decide
  · -- between arguments there is a comma, and blanks that are no tokens
    have hline : Opens ",\n\t" [.mark ','] :=
      ((opens_mark (c := ',') (by decide)).append (opens_space (c := '\n') (by decide))).append
        (opens_space (c := '\t') (by decide))
    have hfirst : Opens "(\n\t" [.mark '('] :=
      ((opens_mark (c := '(') (by decide)).append (opens_space (c := '\n') (by decide))).append
        (opens_space (c := '\t') (by decide))
    have hlast : Opens "\n)" [.mark ')'] :=
      (opens_space (c := '\n') (by decide)).append opens_close
    have harguments := (reads_intercalate hne (fun f hf => Filter.reads_argumentText (h f hf)) hline
      (by decide)).enclosed hfirst hlast (by decide) [] rfl
    obtain ⟨first, rest, rfl⟩ := List.exists_cons_of_ne_nil hne
    rw [List.append_nil] at harguments
    change lex (linedText ((first :: rest).map Filter.argumentText)) = _
    refine harguments.trans ?_
    cases (first :: rest).all Filter.isUnbroken with
    | false => rfl
    | true => simp [lexFrom, finish, argumentsTokens]

theorem intercalate_append_cons (sep part : Text) (before after : List Text) :
    List.intercalate sep (before ++ part :: after) =
      before.flatMap (· ++ sep) ++ (part ++ after.flatMap (sep ++ ·)) := by
  induction before with
  | nil => exact Text.intercalate_cons sep part after
  | cons first before ih =>
    obtain ⟨next, rest, hrest⟩ : ∃ next rest, before ++ part :: after = next :: rest :=
      List.exists_cons_of_ne_nil (by simp)
    rw [List.cons_append, hrest, List.intercalate_cons_cons, ← hrest, ih, List.flatMap_cons]
    simp only [List.append_assoc]

/-- What stands before an argument ends with the tabulator of its line. -/
theorem exists_line_start (before : List Text) :
    ∃ left, ("(\n\t" : Text) ++ before.flatMap (· ++ (",\n\t" : Text)) = left ++ ['\t'] := by
  rcases List.eq_nil_or_concat before with rfl | ⟨before, last, rfl⟩
  · exact ⟨['(', '\n'], by decide⟩
  · refine ⟨("(\n\t" : Text) ++ before.flatMap (· ++ (",\n\t" : Text)) ++ last ++ [',', '\n'], ?_⟩
    simp

/-- An argument stands on a line of its own. -/
theorem exists_compileCall_eq (resource function : Text) (before after : List Filter) {f : Filter}
    {argument : Text} (h : f.keywordArgument? = some argument) :
    ∃ left right, compileCall resource function (before ++ f :: after) =
      left ++ '\t' :: (argument ++ right) ∧ endsToken right = true := by
  rw [compileCall_eq, List.filterMap_append, List.filterMap_cons_some h]
  generalize before.filterMap Filter.keywordArgument? = first
  generalize after.filterMap Filter.keywordArgument? = last
  obtain ⟨left, hleft⟩ := exists_line_start first
  -- the line of the argument, whether it is the first one or not
  have hlines : argumentsText (first ++ argument :: last) =
      left ++ ['\t'] ++ (argument ++ (last.flatMap ((",\n\t" : Text) ++ ·) ++ "\n)")) := by
    have hlined : argumentsText (first ++ argument :: last) =
        linedText (first ++ argument :: last) := by
      cases first <;> rfl
    rw [hlined, linedText, intercalate_append_cons, ← hleft]
    simp only [List.append_assoc]
  refine ⟨("impresso." ++ resource ++ '.' :: function) ++ left,
    last.flatMap ((",\n\t" : Text) ++ ·) ++ "\n)", ?_, ?_⟩
  · rw [hlines]
    simp only [List.append_assoc, List.cons_append, List.nil_append]
  · -- behind it there is a comma or a line end
    cases last with
    | nil => decide
    | cons next last => rfl

/-- **Strings of calls.** A string literal has no line feed in it, a carriage return only where the
value has one, and no quotes that are not escaped but its first and last character. It is read as
the value, unless a carriage return or a NUL breaks it off. So the argument of a filter without a
numeric range is read in every call as the values of the filter, and a call without numeric ranges
as all the values in it, if none of them is broken off. -/
theorem compileCall_lexed (resource function : Text) :
    (∀ s, lex (stringLiteral s) = (if CallLexer.isUnbroken s then some [.string s] else none) ∧
      '\n' ∉ stringLiteral s ∧ ('\r' ∈ stringLiteral s ↔ '\r' ∈ s) ∧
      afterPhrase? (stringLiteral s) = some []) ∧
    (∀ before f after, f.type.isNumericRange = false → f.isShown = true →
      ∃ left right, compileCall resource function (before ++ f :: after) =
          left ++ '\t' :: (f.argumentText ++ right) ∧
        lexFrom .between (f.argumentText ++ right) =
          if f.isUnbroken then (lexFrom .between right).map (f.argumentTokens ++ ·) else none) ∧
    (∀ filters, (∀ f ∈ filters, f.type.isNumericRange = false) →
      ∃ arguments, compileCall resource function filters =
          ("impresso." ++ resource ++ '.' :: function) ++ arguments ∧
        lex arguments =
          if (filters.filter Filter.isShown).all Filter.isUnbroken then
            some (argumentsTokens (filters.filter Filter.isShown))
          else none) := by
  refine ⟨?_, ?_, ?_⟩
  · intro s
    exact ⟨lex_stringLiteral s, lineFeed_notMem_stringLiteral s, carriageReturn_mem_stringLiteral s,
      afterPhrase?_stringLiteral s⟩
  · intro before f after hrange hshown
    obtain ⟨left, right, hcall, hright⟩ := exists_compileCall_eq resource function before after
      (Filter.keywordArgument?_of_isShown hshown hrange)
    exact ⟨left, right, hcall, Filter.reads_argumentText hshown right hright⟩
  · intro filters hranges
    refine ⟨_, compileCall_eq resource function filters, ?_⟩
    rw [Filter.filterMap_keywordArgument? hranges]
    exact lex_argumentsText isShown_of_mem_filter

/-- A title with everything in it that is escaped. -/
def escapedTitle : Filter :=
  { type := .title, precision := some .fuzzy, q := some (.one "a\"b\\c\nd\te") }

/-- A range of dates that is not wanted, with an open bound. -/
def openDates : Filter := { type := .daterange, context := .excluded, q := some (.one "1900 TO *") }

theorem compileCall_lexed_escapedTitle :
    escapedTitle.type.isNumericRange = false ∧ escapedTitle.isShown = true ∧
      (∃ left right, compileCall "search" "find" [{ type := .uid }, escapedTitle] =
          left ++ '\t' :: (escapedTitle.argumentText ++ right) ∧
        lexFrom .between (escapedTitle.argumentText ++ right) =
          (lexFrom .between right).map (escapedTitle.argumentTokens ++ ·)) ∧
      (∀ f ∈ [escapedTitle, openDates], f.type.isNumericRange = false) ∧
      ∃ arguments, compileCall "search" "find" [escapedTitle, openDates] =
          "impresso.search.find".toList ++ arguments ∧
        lex arguments = some
          [.mark '(', .name "title", .mark '=', .name "Fuzzy", .mark '(',
            .string "a\"b\\c\nd\te", .mark ')', .mark ',', .name "date_range", .mark '=',
            .mark '~', .name "DateRange", .mark '(', .string "1900", .mark ',', .string "*",
            .mark ')', .mark ')'] := by
  obtain ⟨-, hargument, hcall⟩ := compileCall_lexed "search" "find"
  have hranges : ∀ f ∈ [escapedTitle, openDates], f.type.isNumericRange = false := by decide
  have hshown : escapedTitle.isShown = true := by decide +kernel
  exact ⟨rfl, hshown, hargument [{ type := .uid }] escapedTitle [] rfl hshown, hranges,
    hcall _ hranges⟩

/-- A term with a carriage return in it. -/
def brokenTerm : Filter := { type := .string, q := some (.one "a\rb") }

/-- A carriage return is not escaped, and the literal is not read. -/
theorem stringLiteral_brokenTerm_ne :
    '\r' ∈ stringLiteral "a\rb" ∧ lex (stringLiteral "a\rb") ≠ some [.string "a\rb"] ∧
      compileCall "search" "find" [brokenTerm] ≠ "impresso.search.find(\n\tterm=\"a\\rb\"\n)" := by
  decide +kernel

end FilterAlgebra
