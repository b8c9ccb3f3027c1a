import FilterAlgebra.Proofs.Number.Written
import FilterAlgebra.Proofs.Query.Scanning
import FilterAlgebra.Relevance.Formula

/-!
# The grammar of formulas

The language in which the search engine reads a formula: a field name, a signed number, a string
between single quotes, such a string as a local parameter, or a call with at least one argument. In
a string a backslash takes the next character with it. The grammar is unambiguous
(`ParsesAs.unique`): the first character of an argument tells its shape, and the text settles where
a name, a number and a string end. A text of the grammar has no blanks outside its strings, so
nothing is taken out of it (`Spelled.normalizeFrom_append`).
-/

namespace FilterAlgebra

/-! ### Trees -/

/-- A formula as it is read. Strings keep their backslashes. -/
inductive FormulaTree where
  | field (name : Text)
  | number (text : Text)
  | quoted (body : Text)
  | localQuery (body : Text)
  | call (name : Text) (args : List FormulaTree)

namespace FormulaTree

def mul (a b : FormulaTree) : FormulaTree := .call "mul" [a, b]

/-- Whether a tree is part of another one. -/
inductive Within (sub : FormulaTree) : FormulaTree → Prop
  | refl : Within sub sub
  | arg {name : Text} {args : List FormulaTree} {a : FormulaTree} (ha : a ∈ args)
      (h : Within sub a) : Within sub (.call name args)

/-! ### Tokens -/

def isNameStart (c : Char) : Bool := c.isAlpha || c = '_'

def isNameChar (c : Char) : Bool := isNameStart c || c.isDigit

/-- Whether a text is the name of a field or of a function. -/
def isName : Text → Bool
  | [] => false
  | c :: rest => isNameStart c && rest.all isNameChar

def isNumberChar (c : Char) : Bool := c.isDigit || c = '-' || c = '.'

theorem toNat_of_isNameStart {c : Char} (h : isNameStart c = true) :
    65 ≤ c.toNat ∧ c.toNat ≤ 122 := by
  rw [isNameStart, Bool.or_eq_true, decide_eq_true_eq] at h
  rcases h with h | rfl
  · change (decide (65 ≤ c.val ∧ c.val ≤ 90) || (decide (97 ≤ c.val) && decide (c.val ≤ 122))) =
      true at h
    simp only [Bool.or_eq_true, Bool.and_eq_true, decide_eq_true_eq, UInt32.le_iff_toNat_le] at h
    change (65 ≤ c.toNat ∧ c.toNat ≤ 90) ∨ (97 ≤ c.toNat ∧ c.toNat ≤ 122) at h
    omega
  · decide

theorem toNat_of_isNameChar {c : Char} (h : isNameChar c = true) :
    48 ≤ c.toNat ∧ c.toNat ≤ 122 := by
  rw [isNameChar, Bool.or_eq_true] at h
  rcases h with h | h
  · have hletter := toNat_of_isNameStart h
    omega
  · have hdigit := toNat_of_isDigit h
    omega

theorem toNat_of_isNumberChar {c : Char} (h : isNumberChar c = true) :
    45 ≤ c.toNat ∧ c.toNat ≤ 57 := by
  simp only [isNumberChar, Bool.or_eq_true, decide_eq_true_eq] at h
  rcases h with (h | rfl) | rfl
  · have hdigit := toNat_of_isDigit h
    omega
  · decide
  · decide

/-- The pieces of a string between single quotes. -/
def stringLexis : Lexis where
  IsPlain c := c ≠ '\x27' ∧ c ≠ '\\'
  IsOpening _ := False
  IsBlock _ := False
  not_isPlain_backslash := fun h => h.2 rfl
  not_isOpening_backslash := not_false
  not_isPlain_of_isOpening := False.elim
  exists_of_isBlock := @Lexis.exists_of_no_block
  eq_of_isBlock := @Lexis.eq_of_no_block

theorem stringLexis_stops (r : Text) : stringLexis.Stops ('\x27' :: r) := by
  rw [Lexis.stops_cons]
  rintro (h | h | h)
  · exact h.1 rfl
  · cases h
  · exact h

theorem exists_cons_of_isName {s : Text} (h : isName s = true) :
    ∃ c t, s = c :: t ∧ isNameStart c = true := by
  rcases s with - | ⟨c, t⟩
  · cases h
  · exact ⟨c, t, rfl, (Bool.and_eq_true_iff.mp h).1⟩

theorem isNameChar_of_isName {s : Text} (h : isName s = true) : ∀ c ∈ s, isNameChar c = true := by
  rcases s with - | ⟨c, t⟩
  · cases h
  obtain ⟨hc, ht⟩ := Bool.and_eq_true_iff.mp h
  intro x hx
  rcases List.mem_cons.mp hx with rfl | hx
  · rw [isNameChar, hc, Bool.true_or]
  · exact List.all_eq_true.mp ht x hx

theorem isNumberChar_of_isUnsigned {s : Text} (h : IsUnsigned s) :
    ∀ c ∈ s, isNumberChar c = true := by
  have hdigits : ∀ {t : Text}, IsDigits t → ∀ c ∈ t, isNumberChar c = true := by
    intro t ht c hc
    rw [isNumberChar, ht.2 c hc]
    rfl
  cases h with
  | whole hs => exact hdigits hs
  | fraction hs ht =>
    intro c hc
    rcases List.mem_append.mp hc with hc | hc
    · exact hdigits hs c hc
    · rcases List.mem_cons.mp hc with rfl | hc
      · rfl
      · exact hdigits ht c hc

theorem isNumberChar_of_isNumber {s : Text} (h : IsNumber s) : ∀ c ∈ s, isNumberChar c = true := by
  cases h with
  | plus hs => exact isNumberChar_of_isUnsigned hs
  | minus hs =>
    intro c hc
    rcases List.mem_cons.mp hc with rfl | hc
    · rfl
    · exact isNumberChar_of_isUnsigned hs c hc

/-! ### Spellings -/

/-- What a piece of text spells: a whole tree, or the arguments that follow the first one of a call,
up to its closing parenthesis. -/
inductive TreePart where
  | whole (tree : FormulaTree)
  | rest (args : List FormulaTree)

inductive Spelled : TreePart → Text → Prop where
  | field {s : Text} (hs : isName s = true) : Spelled (.whole (.field s)) s
  | number {s : Text} (hs : IsNumber s) : Spelled (.whole (.number s)) s
  | quoted {s : Text} (hs : stringLexis.Run s) :
      Spelled (.whole (.quoted s)) ('\x27' :: (s ++ ['\x27']))
  | localQuery {s : Text} (hs : stringLexis.Run s) :
      Spelled (.whole (.localQuery s))
        ('\x7b' :: '!' :: 'v' :: '=' :: '\x27' :: (s ++ ['\x27', '\x7d']))
  | call {name s t : Text} {first : FormulaTree} {args : List FormulaTree} (hname : isName name = true)
      (hfirst : Spelled (.whole first) s) (hrest : Spelled (.rest args) t) :
      Spelled (.whole (.call name (first :: args))) (name ++ '(' :: (s ++ t))
  | next {s t : Text} {tree : FormulaTree} {args : List FormulaTree}
      (hfirst : Spelled (.whole tree) s) (hrest : Spelled (.rest args) t) :
      Spelled (.rest (tree :: args)) (',' :: (s ++ t))
  | close : Spelled (.rest []) [')']

def ParsesAs (s : Text) (tree : FormulaTree) : Prop := Spelled (.whole tree) s

/-! ### Where a tree ends -/

/-- Whether an argument may end before a text: it is empty, or goes on with a comma or with a
closing parenthesis. -/
def EndsArgument (r : Text) : Prop := ∀ c t, r = c :: t → c = ',' ∨ c = ')'

theorem endsArgument_nil : EndsArgument [] := by
  intro c t h
  cases h

namespace Spelled

theorem endsArgument_rest {args : List FormulaTree} {t : Text} (h : Spelled (.rest args) t) (r : Text) :
    EndsArgument (t ++ r) := by
  intro c u hcu
  cases h with
  | next => exact .inl (List.cons.inj hcu).1.symm
  | close => exact .inr (List.cons.inj hcu).1.symm

end Spelled

/-- Two tokens of one class that begin the same text are equal, if each ends before a character that
is not of the class. -/
theorem token_eq_of_append {p : Char → Bool} {s s' r r' : Text} (hs : ∀ c ∈ s, p c = true)
    (hs' : ∀ c ∈ s', p c = true) (hr : ∀ c t, r = c :: t → p c = false)
    (hr' : ∀ c t, r' = c :: t → p c = false) (h : s ++ r = s' ++ r') : s = s' := by
  have htake : ∀ {u v : Text}, (∀ c ∈ u, p c = true) → (∀ c t, v = c :: t → p c = false) →
      (u ++ v).takeWhile p = u := by
    intro u v hu hv
    rw [List.takeWhile_append_of_pos hu]
    rcases v with - | ⟨c, t⟩
    · rw [List.takeWhile_nil, List.append_nil]
    · have hc : ¬p c = true := by
        rw [hv c t rfl]
        exact Bool.false_ne_true
      rw [List.takeWhile_cons_of_neg hc, List.append_nil]
  rw [← htake hs hr, h, htake hs' hr']

theorem name_eq_of_append {s s' r r' : Text} (hs : isName s = true) (hs' : isName s' = true)
    (hr : ∀ c t, r = c :: t → isNameChar c = false)
    (hr' : ∀ c t, r' = c :: t → isNameChar c = false) (h : s ++ r = s' ++ r') : s = s' :=
  token_eq_of_append (isNameChar_of_isName hs) (isNameChar_of_isName hs') hr hr' h

theorem not_isNumberChar_of_endsArgument {r : Text} (h : EndsArgument r) :
    ∀ c t, r = c :: t → isNumberChar c = false := by
  intro c t hct
  rcases h c t hct with rfl | rfl <;> rfl

theorem not_isNameChar_of_endsArgument {r : Text} (h : EndsArgument r) :
    ∀ c t, r = c :: t → isNameChar c = false := by
  intro c t hct
  rcases h c t hct with rfl | rfl <;> decide

theorem not_isNameChar_open (t : Text) : ∀ c u, '(' :: t = c :: u → isNameChar c = false := by
  intro c u h
  rw [← (List.cons.inj h).1]
  decide

/-! ### Shapes -/

/-- What the first character tells of a tree. -/
inductive Shape where
  | named
  | number
  | quoted
  | localQuery
  deriving DecidableEq, Repr

def shape : FormulaTree → Shape
  | field _ => .named
  | number _ => .number
  | quoted _ => .quoted
  | localQuery _ => .localQuery
  | call _ _ => .named

def shapeOf (c : Char) : Shape :=
  if c = '\x27' then .quoted else if c = '\x7b' then .localQuery
  else if isNumberChar c then .number else .named

theorem shapeOf_isNameStart {c : Char} (h : isNameStart c = true) : shapeOf c = .named := by
  have hletter := toNat_of_isNameStart h
  have hquote : c ≠ '\x27' := by
    rintro rfl
    exact absurd hletter (by decide)
  have hbrace : c ≠ '\x7b' := by
    rintro rfl
    exact absurd hletter (by decide)
  have hnumber : ¬isNumberChar c = true := by
    intro hnumber
    have hdigit := toNat_of_isNumberChar hnumber
    omega
  rw [shapeOf, if_neg hquote, if_neg hbrace, if_neg hnumber]

theorem shapeOf_isNumberChar {c : Char} (h : isNumberChar c = true) : shapeOf c = .number := by
  have hdigit := toNat_of_isNumberChar h
  have hquote : c ≠ '\x27' := by
    rintro rfl
    exact absurd hdigit (by decide)
  have hbrace : c ≠ '\x7b' := by
    rintro rfl
    exact absurd hdigit (by decide)
  rw [shapeOf, if_neg hquote, if_neg hbrace, if_pos h]

theorem exists_cons_of_isNumber {s : Text} (h : IsNumber s) : ∃ c t, s = c :: t := by
  cases h with
  | minus => exact ⟨_, _, rfl⟩
  | plus hs =>
    cases hs with
    | whole hs => exact List.exists_cons_of_ne_nil hs.1
    | fraction hs => exact List.exists_cons_of_ne_nil (List.append_ne_nil_of_left_ne_nil hs.1 _)

namespace Spelled

theorem exists_shape {tree : FormulaTree} {s : Text} (h : Spelled (.whole tree) s) :
    ∃ c t, s = c :: t ∧ shapeOf c = tree.shape := by
  cases h with
  | field hs =>
    obtain ⟨c, t, rfl, hc⟩ := exists_cons_of_isName hs
    exact ⟨c, t, rfl, shapeOf_isNameStart hc⟩
  | number hs =>
    obtain ⟨c, t, rfl⟩ := exists_cons_of_isNumber hs
    exact ⟨c, t, rfl, shapeOf_isNumberChar (isNumberChar_of_isNumber hs c List.mem_cons_self)⟩
  | quoted => exact ⟨_, _, rfl, rfl⟩
  | localQuery => exact ⟨_, _, rfl, rfl⟩
  | call hname =>
    obtain ⟨c, t, rfl, hc⟩ := exists_cons_of_isName hname
    exact ⟨c, _, rfl, shapeOf_isNameStart hc⟩

theorem shape_eq_of_append {tree tree' : FormulaTree} {s s' r r' : Text}
    (h : Spelled (.whole tree) s) (h' : Spelled (.whole tree') s') (heq : s ++ r = s' ++ r') :
    tree.shape = tree'.shape := by
  obtain ⟨c, t, rfl, hc⟩ := h.exists_shape
  obtain ⟨c', t', rfl, hc'⟩ := h'.exists_shape
  rw [← hc, ← hc', (List.cons.inj heq).1]

/-! ### The grammar is unambiguous -/

/-- That no other spelling of the same kind begins a text that this one begins. -/
def Settled (s : Text) : TreePart → Prop
  | .whole tree => ∀ {tree' : FormulaTree} {s' r r' : Text}, Spelled (.whole tree') s' →
      EndsArgument r → EndsArgument r' → s ++ r = s' ++ r' → tree = tree' ∧ s = s'
  | .rest args => ∀ {args' : List FormulaTree} {s' r r' : Text}, Spelled (.rest args') s' →
      s ++ r = s' ++ r' → args = args' ∧ s = s'

theorem settled {p : TreePart} {s : Text} (h : Spelled p s) : Settled s p := by
  induction h with
  | field hs =>
    intro tree' s' r r' h' hr hr' heq
    have hshape := (Spelled.field hs).shape_eq_of_append h' heq
    cases h' with
    | field hs' =>
      have hname := name_eq_of_append hs hs' (not_isNameChar_of_endsArgument hr)
        (not_isNameChar_of_endsArgument hr') heq
      exact ⟨congrArg FormulaTree.field hname, hname⟩
    | call hname' =>
      -- the name would be followed by a parenthesis that opens
      rw [List.append_assoc] at heq
      obtain rfl := name_eq_of_append hs hname' (not_isNameChar_of_endsArgument hr)
        (not_isNameChar_open _) heq
      rcases hr _ _ (List.append_cancel_left heq) with hc | hc <;> cases hc
    | number => cases hshape
    | quoted => cases hshape
    | localQuery => cases hshape
  | number hs =>
    intro tree' s' r r' h' hr hr' heq
    have hshape := (Spelled.number hs).shape_eq_of_append h' heq
    cases h' with
    | number hs' =>
      have hnumber := token_eq_of_append (isNumberChar_of_isNumber hs)
        (isNumberChar_of_isNumber hs') (not_isNumberChar_of_endsArgument hr)
        (not_isNumberChar_of_endsArgument hr') heq
      exact ⟨congrArg FormulaTree.number hnumber, hnumber⟩
    | field => cases hshape
    | quoted => cases hshape
    | localQuery => cases hshape
    | call => cases hshape
  | quoted hs =>
    intro tree' s' r r' h' hr hr' heq
    have hshape := (Spelled.quoted hs).shape_eq_of_append h' heq
    cases h' with
    | quoted hs' =>
      simp only [List.cons_append, List.append_assoc, List.cons.injEq, true_and] at heq
      obtain rfl := hs.eq_of_append hs' (stringLexis_stops _) (stringLexis_stops _) heq
      exact ⟨rfl, rfl⟩
    | field => cases hshape
    | number => cases hshape
    | localQuery => cases hshape
    | call => cases hshape
  | localQuery hs =>
    intro tree' s' r r' h' hr hr' heq
    have hshape := (Spelled.localQuery hs).shape_eq_of_append h' heq
    cases h' with
    | localQuery hs' =>
      simp only [List.cons_append, List.append_assoc, List.cons.injEq, true_and] at heq
      obtain rfl := hs.eq_of_append hs' (stringLexis_stops _) (stringLexis_stops _) heq
      exact ⟨rfl, rfl⟩
    | field => cases hshape
    | number => cases hshape
    | quoted => cases hshape
    | call => cases hshape
  | call hname hfirst hrest ihFirst ihRest =>
    intro tree' s' r r' h' hr hr' heq
    have hshape := (Spelled.call hname hfirst hrest).shape_eq_of_append h' heq
    cases h' with
    | field hs' =>
      rw [List.append_assoc] at heq
      obtain rfl := name_eq_of_append hname hs' (not_isNameChar_open _)
        (not_isNameChar_of_endsArgument hr') heq
      rcases hr' _ _ (List.append_cancel_left heq).symm with hc | hc <;> cases hc
    | call hname' hfirst' hrest' =>
      simp only [List.append_assoc, List.cons_append] at heq
      obtain rfl := name_eq_of_append hname hname' (not_isNameChar_open _)
        (not_isNameChar_open _) heq
      have hbody := (List.cons.inj (List.append_cancel_left heq)).2
      obtain ⟨rfl, rfl⟩ := ihFirst hfirst' (hrest.endsArgument_rest r) (hrest'.endsArgument_rest r') hbody
      obtain ⟨rfl, rfl⟩ := ihRest hrest' (List.append_cancel_left hbody)
      exact ⟨rfl, rfl⟩
    | number => cases hshape
    | quoted => cases hshape
    | localQuery => cases hshape
  | next hfirst hrest ihFirst ihRest =>
    intro args' s' r r' h' heq
    cases h' with
    | next hfirst' hrest' =>
      simp only [List.cons_append, List.append_assoc, List.cons.injEq, true_and] at heq
      obtain ⟨rfl, rfl⟩ := ihFirst hfirst' (hrest.endsArgument_rest r) (hrest'.endsArgument_rest r') heq
      obtain ⟨rfl, rfl⟩ := ihRest hrest' (List.append_cancel_left heq)
      exact ⟨rfl, rfl⟩
    | close => cases (List.cons.inj heq).1
  | close =>
    intro args' s' r r' h' heq
    cases h' with
    | next => cases (List.cons.inj heq).1
    | close => exact ⟨rfl, rfl⟩

end Spelled

/-- **The grammar of formulas is unambiguous.** -/
theorem ParsesAs.unique {s : Text} {tree tree' : FormulaTree} (h : ParsesAs s tree)
    (h' : ParsesAs s tree') : tree = tree' :=
  (Spelled.settled h h' endsArgument_nil endsArgument_nil rfl).1

/-! ### Blanks -/

/-- Whether a character is kept wherever it stands, and neither begins nor ends a string. -/
def IsPunctual (c : Char) : Prop := isBlank c = false ∧ c ≠ '\x27'

theorem isPunctual_of_toNat {c : Char} (h : 33 ≤ c.toNat ∧ c.toNat ≤ 126 ∧ c.toNat ≠ 39) :
    IsPunctual c := by
  constructor
  · simp only [isBlank, blankRanges, List.any_cons, List.any_nil, Bool.or_eq_false_iff,
      Bool.and_eq_false_iff, decide_eq_false_iff_not, and_true]
    omega
  · rintro rfl
    exact h.2.2 (by decide)

/-- What stands in front of the string of a local parameter is kept. -/
theorem isPunctual_of_mem_opening : ∀ c ∈ ['\x7b', '!', 'v', '='], IsPunctual c := by
  simp only [List.forall_mem_cons, List.not_mem_nil, false_imp_iff, implies_true, and_true]
  exact ⟨isPunctual_of_toNat (by decide), isPunctual_of_toNat (by decide),
    isPunctual_of_toNat (by decide), isPunctual_of_toNat (by decide)⟩

theorem normalizeFrom_cons {state : QuoteState} {c : Char} (h : ¬(state = .outside ∧ isBlank c))
    (rest : Text) :
    normalizeFrom state (c :: rest) = c :: normalizeFrom (state.next c) rest := by
  rw [normalizeFrom]
  exact if_neg h

theorem normalizeFrom_outside {s : Text} (hs : ∀ c ∈ s, IsPunctual c) (r : Text) :
    normalizeFrom .outside (s ++ r) = s ++ normalizeFrom .outside r := by
  induction s with
  | nil => rfl
  | cons c s ih =>
    obtain ⟨hblank, hquote⟩ := hs c List.mem_cons_self
    have hkept : ¬(QuoteState.outside = .outside ∧ isBlank c = true) := by
      rw [hblank]
      exact fun h => Bool.false_ne_true h.2
    have hnext : QuoteState.outside.next c = .outside := if_neg hquote
    rw [List.cons_append, normalizeFrom_cons hkept, hnext,
      ih fun d hd => hs d (List.mem_cons_of_mem c hd), List.cons_append]

theorem normalizeFrom_inside {s : Text} (hs : stringLexis.Run s) (r : Text) :
    normalizeFrom .inside (s ++ r) = s ++ normalizeFrom .inside r := by
  have hinside : ∀ c, ¬(QuoteState.inside = .outside ∧ isBlank c = true) := fun c h => by cases h.1
  have hescaped : ∀ c, ¬(QuoteState.escaped = .outside ∧ isBlank c = true) := fun c h => by
    cases h.1
  induction hs with
  | nil => rfl
  | piece hpiece _ ih =>
    cases hpiece with
    | @plain c hc =>
      have hnext : QuoteState.inside.next c = .inside := (if_neg hc.1).trans (if_neg hc.2)
      rw [List.append_assoc, List.singleton_append, normalizeFrom_cons (hinside c), hnext, ih]
      rfl
    | escaped c =>
      -- the character behind the backslash is kept, blank or not
      rw [List.append_assoc, List.cons_append, List.singleton_append,
        normalizeFrom_cons (hinside '\\')]
      change '\\' :: normalizeFrom .escaped (c :: _) = _
      rw [normalizeFrom_cons (hescaped c)]
      change '\\' :: c :: normalizeFrom .inside _ = _
      rw [ih]
      rfl
    | block hs => exact hs.elim

/-- A string is kept whole, and the scan goes on outside it. -/
theorem normalizeFrom_string {s : Text} (hs : stringLexis.Run s) (r : Text) :
    normalizeFrom .outside ('\x27' :: (s ++ '\x27' :: r)) =
      '\x27' :: (s ++ '\x27' :: normalizeFrom .outside r) := by
  have hquote : ∀ state, ¬(state = QuoteState.outside ∧ isBlank '\x27' = true) := fun state h =>
    absurd h.2 (by decide)
  rw [normalizeFrom_cons (hquote .outside)]
  change '\x27' :: normalizeFrom .inside _ = _
  rw [normalizeFrom_inside hs, normalizeFrom_cons (hquote .inside)]
  rfl

theorem isPunctual_of_isName {s : Text} (h : isName s = true) : ∀ c ∈ s, IsPunctual c := by
  intro c hc
  have hrange := toNat_of_isNameChar (isNameChar_of_isName h c hc)
  exact isPunctual_of_toNat (by omega)

theorem isPunctual_of_isNumber {s : Text} (h : IsNumber s) : ∀ c ∈ s, IsPunctual c := by
  intro c hc
  have hrange := toNat_of_isNumberChar (isNumberChar_of_isNumber h c hc)
  exact isPunctual_of_toNat (by omega)

theorem normalizeFrom_punctual {c : Char} (hc : IsPunctual c) (r : Text) :
    normalizeFrom .outside (c :: r) = c :: normalizeFrom .outside r :=
  normalizeFrom_outside (s := [c]) (by simpa using hc) r

/-- Nothing is taken out of a text of the grammar. -/
theorem Spelled.normalizeFrom_append {p : TreePart} {s : Text} (h : Spelled p s) (r : Text) :
    normalizeFrom .outside (s ++ r) = s ++ normalizeFrom .outside r := by
  induction h generalizing r with
  | field hs => exact normalizeFrom_outside (isPunctual_of_isName hs) r
  | number hs => exact normalizeFrom_outside (isPunctual_of_isNumber hs) r
  | @quoted s hs =>
    -- strings are skipped as a whole
    have htext : '\x27' :: (s ++ ['\x27']) ++ r = '\x27' :: (s ++ '\x27' :: r) := by simp
    rw [htext, normalizeFrom_string hs]
    simp
  | @localQuery s hs =>
    have htext : '\x7b' :: '!' :: 'v' :: '=' :: '\x27' :: (s ++ ['\x27', '\x7d']) ++ r =
        ['\x7b', '!', 'v', '='] ++ '\x27' :: (s ++ '\x27' :: ('\x7d' :: r)) := by
      simp
    rw [htext, normalizeFrom_outside isPunctual_of_mem_opening, normalizeFrom_string hs,
      normalizeFrom_punctual (isPunctual_of_toNat (by decide))]
    simp
  | call hname _ _ ihFirst ihRest =>
    -- what a call has besides its arguments is no blank
    simp only [List.append_assoc, List.cons_append]
    rw [normalizeFrom_outside (isPunctual_of_isName hname),
      normalizeFrom_punctual (isPunctual_of_toNat (by decide)), ihFirst, ihRest]
  | next _ _ ihFirst ihRest =>
    simp only [List.append_assoc, List.cons_append]
    rw [normalizeFrom_punctual (isPunctual_of_toNat (by decide)), ihFirst, ihRest]
  | close => exact normalizeFrom_punctual (isPunctual_of_toNat (by decide)) r

theorem length_normalizeFrom_le (state : QuoteState) (s : Text) :
    (normalizeFrom state s).length ≤ s.length := by
  induction s generalizing state with
  | nil => exact Nat.le_refl 0
  | cons c s ih =>
    have htail := ih (state.next c)
    rw [normalizeFrom, List.length_cons]
    split
    · omega
    · rw [List.length_cons]
      omega

/-- Where nothing is taken out, every blank stands in a string. -/
theorem state_ne_outside_of_isBlank {state : QuoteState} {before after : Text} {c : Char}
    (h : normalizeFrom state (before ++ c :: after) = before ++ c :: after)
    (hc : isBlank c = true) : before.foldl QuoteState.next state ≠ .outside := by
  have hkept : ∀ {state : QuoteState} {d : Char} {s : Text},
      normalizeFrom state (d :: s) = d :: s → ¬(state = .outside ∧ isBlank d = true) := by
    intro state d s hs hd
    have hlength := length_normalizeFrom_le (state.next d) s
    rw [normalizeFrom, if_pos hd] at hs
    rw [hs, List.length_cons] at hlength
    omega
  induction before generalizing state with
  | nil => exact fun hstate => hkept h ⟨hstate, hc⟩
  | cons d before ih =>
    have hd := hkept h
    rw [List.cons_append, normalizeFrom_cons hd] at h
    exact ih (List.cons.inj h).2

end FormulaTree

end FilterAlgebra
