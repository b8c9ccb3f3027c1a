import FilterAlgebra.Proofs.Query.Expression
import FilterAlgebra.Proofs.Query.Scanning

/-!
# Lexing queries

The search engine reads a query as a sequence of tokens before it looks at its structure: a
backslash escapes the next character, a colon ends the name of a field, and a word that is spelled
as one of the keywords is an operator. What else a word or a phrase says does not show in the
tokens, so two queries with the same tokens have the same structure.

Two texts are *alike* when nothing that stands before them tells them apart (`Alike`). Being alike
is kept by whatever is written in front, however the lexer reads that, so the laws below need to
know nothing about the texts around a value.
-/

namespace FilterAlgebra

namespace Lexer

/-! ### Tokens -/

inductive Token where
  | symbol (c : Char)
  | operator (word : Text)
  | field (name : Text)
  /-- A word or a phrase. -/
  | term
  deriving DecidableEq, Repr

/-- What has been read of the token at hand. -/
inductive Place where
  | word (spelled : Text)
  /-- After a backslash in a word. -/
  | wordEscape (spelled : Text)
  | phrase
  /-- After a backslash in a phrase. -/
  | phraseEscape
  deriving DecidableEq, Repr

/-- Between two tokens. -/
def start : Place := .word []

def separators : List Char := [' ', '\t', '\n', '\r', '\u3000']

def symbols : List Char :=
  ['+', '-', '&', '|', '!', '(', ')', '\x7b', '\x7d', '[', ']', '^', '~', '*', '?', '/']

/-- The token of a word that has come to its end, unless the word is empty. -/
def ended (token : Token) (word : Text) : List Token :=
  if word = [] then [] else if word ∈ keywords then [.operator word] else [token]

/-- The tokens that end with a character, and where it leads. -/
def step : Place → Char → List Token × Place
  | .word spelled, c =>
    if c = '\\' then ([], .wordEscape (spelled ++ [c]))
    else if c = ':' then (ended (.field spelled) spelled ++ [.symbol c], start)
    else if c = '"' then (ended .term spelled, .phrase)
    else if separators.contains c then (ended .term spelled, start)
    else if symbols.contains c then (ended .term spelled ++ [.symbol c], start)
    else ([], .word (spelled ++ [c]))
  | .wordEscape spelled, c => ([], .word (spelled ++ [c]))
  | .phrase, c =>
    if c = '\\' then ([], .phraseEscape)
    else if c = '"' then ([.term], start)
    else ([], .phrase)
  | .phraseEscape, _ => ([], .phrase)

def finish : Place → List Token
  | .word spelled | .wordEscape spelled => ended .term spelled
  -- A phrase that is never closed leaves its quote.
  | .phrase | .phraseEscape => [.symbol '"']

def lexFrom (place : Place) : Text → List Token
  | [] => finish place
  | c :: rest => (step place c).1 ++ lexFrom (step place c).2 rest

def tokens (text : Text) : List Token := lexFrom start text

/-! ### Texts that are alike -/

/-- Two texts have the same tokens, whatever stands before them. -/
def Alike (s s' : Text) : Prop := ∀ place, lexFrom place s = lexFrom place s'

theorem Alike.refl (s : Text) : Alike s s := fun _ => rfl

theorem Alike.append_left {r r' : Text} (h : Alike r r') (s : Text) : Alike (s ++ r) (s ++ r') := by
  induction s with
  | nil => exact h
  | cons c s ih =>
    intro place
    rw [List.cons_append, List.cons_append, lexFrom, lexFrom, ih]

/-! ### Words -/

def isOrdinary (c : Char) : Bool := !(separators ++ symbols ++ [':', '"', '\\']).contains c

theorem isOrdinary_of_not_needsEscape {c : Char} (h : needsEscape c = false) :
    isOrdinary c = true := by
  have hescaped : (separators ++ symbols ++ [':', '"', '\\']).all needsEscape = true := by decide
  cases hc : isOrdinary c with
  | true => rfl
  | false =>
    rw [isOrdinary, Bool.not_eq_false', List.contains_iff_mem] at hc
    rw [List.all_eq_true.mp hescaped c hc] at h
    cases h

theorem step_word_of_isOrdinary {c : Char} (h : isOrdinary c = true) (spelled : Text) :
    step (.word spelled) c = ([], .word (spelled ++ [c])) := by
  simp only [isOrdinary, List.contains_eq_mem, List.mem_append, List.mem_cons, List.not_mem_nil,
    or_false, Bool.not_eq_true', decide_eq_false_iff_not, not_or] at h
  obtain ⟨⟨hseparator, hsymbol⟩, hcolon, hquote, hbackslash⟩ := h
  simp only [step, hbackslash, hcolon, hquote, if_false, List.contains_eq_mem, hseparator, hsymbol,
    decide_false, Bool.false_eq_true]

theorem step_phrase_of_isOrdinary {c : Char} (h : isOrdinary c = true) :
    step .phrase c = ([], .phrase) := by
  simp only [isOrdinary, List.contains_eq_mem, List.mem_append, List.mem_cons, List.not_mem_nil,
    or_false, Bool.not_eq_true', decide_eq_false_iff_not, not_or] at h
  simp only [step, h, if_false]

/-- A piece of a word: an ordinary character, or any character after a backslash. -/
def wordPieces : Lexis where
  IsPlain c := isOrdinary c = true
  IsOpening _ := False
  IsBlock _ := False
  not_isPlain_backslash := by decide
  not_isOpening_backslash := not_false
  not_isPlain_of_isOpening := False.elim
  exists_of_isBlock := @Lexis.exists_of_no_block
  eq_of_isBlock := @Lexis.eq_of_no_block

theorem lexFrom_word_run {s : Text} (h : wordPieces.Run s) (spelled r : Text) :
    lexFrom (.word spelled) (s ++ r) = lexFrom (.word (spelled ++ s)) r := by
  induction h generalizing spelled with
  | nil => rw [List.nil_append, List.append_nil]
  | piece hpiece _ ih =>
    rw [List.append_assoc]
    cases hpiece with
    | plain hc =>
      rw [List.singleton_append, lexFrom, step_word_of_isOrdinary hc, List.nil_append, ih,
        List.append_assoc]
    | escaped c =>
      change lexFrom (.word ((spelled ++ ['\\']) ++ [c])) (_ ++ r) = _
      rw [ih]
      simp only [List.append_assoc, List.cons_append, List.nil_append]
    | block hs => exact hs.elim

theorem lexFrom_phrase_run {s : Text} (h : wordPieces.Run s) (r : Text) :
    lexFrom .phrase (s ++ r) = lexFrom .phrase r := by
  induction h with
  | nil => rfl
  | piece hpiece _ ih =>
    rw [List.append_assoc]
    cases hpiece with
    | plain hc =>
      rw [List.singleton_append, lexFrom, step_phrase_of_isOrdinary hc, List.nil_append, ih]
    | escaped c => exact ih
    | block hs => exact hs.elim

/-! ### The ends of words -/

/-- Whether a word before the text ends there. -/
def EndsWords (r : Text) : Prop :=
  ∀ spelled, lexFrom (.word spelled) r = ended .term spelled ++ lexFrom start r

theorem endsWords_nil : EndsWords [] := by
  intro spelled
  exact (List.append_nil _).symm

theorem endsWords_blank (r : Text) : EndsWords (' ' :: r) := by
  intro spelled
  rfl

theorem endsWords_close (r : Text) : EndsWords (')' :: r) := by
  intro spelled
  change (ended .term spelled ++ [.symbol ')']) ++ lexFrom start r = _
  exact List.append_assoc _ _ _

/-! ### Fields and their values -/

/-- The value of a field may be replaced when the field cannot tell the difference: it stands at the
start of a word or within a phrase. -/
theorem alike_field {field s s' : Text} (hne : field ≠ [])
    (hfield : ∀ c ∈ field, isOrdinary c = true) (hstart : lexFrom start s = lexFrom start s')
    (hphrase : lexFrom .phrase s = lexFrom .phrase s') :
    Alike (field ++ ':' :: s) (field ++ ':' :: s') := by
  have hcolon : ∀ spelled, lexFrom (.word spelled) (':' :: s) =
      lexFrom (.word spelled) (':' :: s') := by
    intro spelled
    change _ ++ lexFrom start s = _ ++ lexFrom start s'
    rw [hstart]
  have hword : ∀ field, wordPieces.Run field → ∀ spelled,
      lexFrom (.word spelled) (field ++ ':' :: s) =
        lexFrom (.word spelled) (field ++ ':' :: s') := by
    intro field hrun spelled
    rw [lexFrom_word_run hrun, lexFrom_word_run hrun, hcolon]
  have hinside : ∀ field, wordPieces.Run field →
      lexFrom .phrase (field ++ ':' :: s) = lexFrom .phrase (field ++ ':' :: s') := by
    intro field hrun
    rw [lexFrom_phrase_run hrun, lexFrom_phrase_run hrun]
    exact hphrase
  have hrun : wordPieces.Run field := .of_plain hfield
  intro place
  cases place with
  | word spelled => exact hword field hrun spelled
  | phrase => exact hinside field hrun
  -- A backslash takes the first character of the field, and the rest is read as a field.
  | wordEscape spelled =>
    obtain ⟨c, rest, rfl⟩ := List.exists_cons_of_ne_nil hne
    exact hword rest (.of_plain fun x hx => hfield x (List.mem_cons_of_mem c hx)) (spelled ++ [c])
  | phraseEscape =>
    obtain ⟨c, rest, rfl⟩ := List.exists_cons_of_ne_nil hne
    exact hinside rest (.of_plain fun x hx => hfield x (List.mem_cons_of_mem c hx))

theorem alike_fieldValue {field value value' r r' : Text} (hne : field ≠ [])
    (hfield : ∀ c ∈ field, isOrdinary c = true) (hvalue : wordPieces.Run value)
    (hvalue' : wordPieces.Run value') (hsame : ended .term value = ended .term value')
    (hr : EndsWords r) (hr' : EndsWords r') (h : Alike r r') :
    Alike (field ++ ':' :: value ++ r) (field ++ ':' :: value' ++ r') := by
  rw [List.append_assoc, List.append_assoc, List.cons_append, List.cons_append]
  apply alike_field hne hfield
  · rw [start, lexFrom_word_run hvalue, lexFrom_word_run hvalue', hr, hr', List.nil_append,
      List.nil_append, hsame, h]
  · rw [lexFrom_phrase_run hvalue, lexFrom_phrase_run hvalue', h]

/-! ### Escaped values -/

/-- The keyword that a value is, apart from blanks around it. -/
def keyword? (value : Text) : Option Text :=
  if Text.trim value ∈ keywords then some (Text.trim value) else none

theorem run_escapeTerm (value : Text) : wordPieces.Run (escapeTerm value) :=
  .escapeTerm (fun _ hc => isOrdinary_of_not_needsEscape hc) value

/-- Where escaping leaves no backslash, it has changed nothing. -/
theorem flatMap_escapedTermChar_eq_self {s : Text} (h : '\\' ∉ s.flatMap escapedTermChar) :
    s.flatMap escapedTermChar = s := by
  induction s with
  | nil => rfl
  | cons c s ih =>
    rw [List.flatMap_cons, List.mem_append, not_or] at h
    have hc : escapedTermChar c = [c] := by
      unfold escapedTermChar at h ⊢
      split
      · next hescaped => simp [hescaped] at h
      · rfl
    rw [List.flatMap_cons, hc, ih h.2, List.singleton_append]

theorem escapeTerm_of_mem_keywords {value : Text} (h : Text.trim value ∈ keywords) :
    escapeTerm value = Text.trim value := by
  have hplain : ∀ word ∈ keywords, word.flatMap escapedTermChar = word := by decide
  exact hplain _ h

theorem escapeTerm_mem_keywords_iff (value : Text) :
    escapeTerm value ∈ keywords ↔ Text.trim value ∈ keywords := by
  constructor
  · intro h
    have hbackslash : ∀ word ∈ keywords, '\\' ∉ word := by decide
    rwa [escapeTerm, flatMap_escapedTermChar_eq_self (hbackslash _ h)] at h
  · intro h
    rwa [escapeTerm_of_mem_keywords h]

/-- **The token of an escaped value** is an operator if the value is a keyword, else a term. -/
theorem ended_escapeTerm {value : Text} (h : Text.isBlankText value = false) :
    ended .term (escapeTerm value) = [((keyword? value).map Token.operator).getD .term] := by
  rw [ended, if_neg (escapeTerm_ne_nil h), keyword?]
  by_cases hkeyword : Text.trim value ∈ keywords
  · rw [if_pos ((escapeTerm_mem_keywords_iff value).mpr hkeyword), if_pos hkeyword,
      escapeTerm_of_mem_keywords hkeyword]
    rfl
  · rw [if_neg fun hescaped => hkeyword ((escapeTerm_mem_keywords_iff value).mp hescaped),
      if_neg hkeyword]
    rfl

end Lexer

end FilterAlgebra
