import FilterAlgebra.Proofs.Query.Lexing
import FilterAlgebra.Query.FreeText

/-!
# Lexemes

The lexer of `Lexing` hides what words and phrases say; here they are read with their content
(`read`). A backslash escapes the next character, in a word as in a phrase, and is no part of what
is said. Every other character with a meaning that stands outside of phrases, and every blank there,
is a lexeme of its own, so a list of lexemes leaves no room for others.

The laws are about a text in front of others: its lexemes do not depend on what follows, as long as
that does not go on with its last word (`Breaks`).
-/

namespace FilterAlgebra

/-! ### Reading -/

inductive Lexeme where
  /-- A word that is no operator, without its escapes. -/
  | word (said : Text)
  | operator (spelled : Text)
  /-- What stands between two quotes, without its escapes. -/
  | phrase (said : Text)
  /-- A tilde with the digits behind it: how far words may lie apart. -/
  | near (distance : Text)
  /-- A blank, or another character with a meaning. -/
  | mark (c : Char)
  /-- A phrase or an escape that does not come to its end. -/
  | unclosed
  deriving DecidableEq, Repr

namespace Lexeme

/-- The characters with a meaning outside of phrases that are lexemes of their own, blanks apart. -/
def symbols : List Char :=
  ['+', '-', '&', '|', '!', '(', ')', '\x7b', '\x7d', '[', ']', '^', '*', '?', ':', ';', ',', '/']

def isMark (c : Char) : Bool := isBlank c || symbols.contains c

/-- What has been read of the lexeme at hand. -/
inductive Place where
  /-- A word, as it is spelled and as it is said. -/
  | word (spelled said : Text)
  | wordEscape (spelled said : Text)
  | phrase (said : Text)
  | phraseEscape (said : Text)
  | near (distance : Text)
  deriving DecidableEq, Repr

/-- Between two lexemes. -/
def start : Place := .word [] []

/-- The lexeme of a word that has come to its end, unless the word is empty. -/
def ended (spelled said : Text) : List Lexeme :=
  if spelled = [] then [] else if keywords.contains spelled then [operator spelled] else [word said]

def stepWord (spelled said : Text) (c : Char) : List Lexeme × Place :=
  if c = '\\' then ([], .wordEscape spelled said)
  else if c = '"' then (ended spelled said, .phrase [])
  else if c = '~' then (ended spelled said, .near [])
  else if isMark c then (ended spelled said ++ [mark c], start)
  else ([], .word (spelled ++ [c]) (said ++ [c]))

/-- The lexemes that end with a character, and where it leads. -/
def step : Place → Char → List Lexeme × Place
  | .word spelled said, c => stepWord spelled said c
  | .wordEscape spelled said, c => ([], .word (spelled ++ ['\\', c]) (said ++ [c]))
  | .phrase said, c =>
    if c = '\\' then ([], .phraseEscape said)
    else if c = '"' then ([phrase said], start)
    else ([], .phrase (said ++ [c]))
  | .phraseEscape said, c => ([], .phrase (said ++ [c]))
  | .near distance, c =>
    if c.isDigit then ([], .near (distance ++ [c]))
    else (near distance :: (stepWord [] [] c).1, (stepWord [] [] c).2)

def finish : Place → List Lexeme
  | .word spelled said => ended spelled said
  | .near distance => [near distance]
  | .wordEscape .. | .phrase _ | .phraseEscape _ => [unclosed]

def readFrom (place : Place) : Text → List Lexeme
  | [] => finish place
  | c :: rest => (step place c).1 ++ readFrom (step place c).2 rest

/-- The lexemes of a text. -/
def read (s : Text) : List Lexeme := readFrom start s

/-- The words that a lexeme says. -/
def words : Lexeme → List Text
  | word said => [said]
  | phrase said => Text.words said
  | _ => []

/-! ### Ends of words -/

/-- Whether a word before the text ends there. -/
def Breaks (r : Text) : Prop :=
  ∀ spelled said, readFrom (.word spelled said) r = ended spelled said ++ read r

theorem breaks_nil : Breaks [] := fun _ _ => (List.append_nil _).symm

theorem stepWord_of_isMark {c : Char} (h : isMark c = true) (spelled said : Text) :
    stepWord spelled said c = (ended spelled said ++ [mark c], start) := by
  have hne : c ≠ '\\' ∧ c ≠ '"' ∧ c ≠ '~' := by
    refine ⟨?_, ?_, ?_⟩ <;>
    · rintro rfl
      revert h
      decide
  simp only [stepWord, if_neg hne.1, if_neg hne.2.1, if_neg hne.2.2, if_pos h]

theorem read_mark {c : Char} (h : isMark c = true) (r : Text) : read (c :: r) = mark c :: read r := by
  rw [read, start, readFrom, step, stepWord_of_isMark h]
  rfl

theorem breaks_mark {c : Char} (h : isMark c = true) (r : Text) : Breaks (c :: r) := by
  intro spelled said
  rw [read_mark h, readFrom, step, stepWord_of_isMark h, List.append_assoc]
  rfl

theorem isMark_of_isDelimiter {c : Char} (h : isDelimiter c = true) : isMark c = true := by
  simp only [isDelimiter, Bool.or_eq_true, decide_eq_true_eq] at h
  rw [isMark, Bool.or_eq_true]
  rcases h with (h | rfl) | rfl
  · exact .inl h
  · exact .inr rfl
  · exact .inr rfl

theorem breaks_of_delimited {r : Text} (h : Delimited r) : Breaks r := by
  cases r with
  | nil => exact breaks_nil
  | cons c r => exact breaks_mark (isMark_of_isDelimiter h) r

/-! ### Escaped words and phrases -/

theorem stepWord_of_not_needsEscape {c : Char} (h : needsEscape c = false) (spelled said : Text) :
    stepWord spelled said c = ([], .word (spelled ++ [c]) (said ++ [c])) := by
  have hsymbols : ∀ d ∈ '\\' :: '"' :: '~' :: symbols, needsEscape d = true :=
    List.all_eq_true.mp (by decide)
  have hne : ∀ d ∈ '\\' :: '"' :: '~' :: symbols, c ≠ d := by
    rintro d hd rfl
    rw [hsymbols c hd] at h
    cases h
  have hmark : ¬isMark c = true := by
    rw [isMark, Bool.or_eq_true, List.contains_iff_mem]
    rintro (hblank | hsymbol)
    · simp [needsEscape, hblank] at h
    · exact hne c (by simp [hsymbol]) rfl
  simp only [stepWord, if_neg (hne '\\' (by simp)), if_neg (hne '"' (by simp)),
    if_neg (hne '~' (by simp)), if_neg hmark]

/-- An escaped text goes on with the word before it and says itself. -/
theorem readFrom_word_escaped (s spelled said r : Text) :
    readFrom (.word spelled said) (s.flatMap escapedTermChar ++ r) =
      readFrom (.word (spelled ++ s.flatMap escapedTermChar) (said ++ s)) r := by
  induction s generalizing spelled said with
  | nil => simp
  | cons c s ih =>
    rw [List.flatMap_cons, List.append_assoc, escapedTermChar]
    split
    · have hescaped := ih (spelled ++ ['\\', c]) (said ++ [c])
      simp only [List.append_assoc, List.cons_append, List.nil_append] at hescaped ⊢
      exact hescaped
    · next h =>
      have hplain := ih (spelled ++ [c]) (said ++ [c])
      simp only [List.append_assoc, List.cons_append, List.nil_append] at hplain ⊢
      rw [readFrom, step, stepWord_of_not_needsEscape (by simpa using h), List.nil_append, hplain]

theorem readFrom_phrase_escaped (s said r : Text) :
    readFrom (.phrase said) (escapePhrase s ++ '"' :: r) = phrase (said ++ s) :: read r := by
  induction s generalizing said with
  | nil =>
    rw [List.append_nil]
    rfl
  | cons c s ih =>
    have hrest := ih (said ++ [c])
    rw [List.append_assoc, List.singleton_append] at hrest
    rw [← hrest, escapePhrase, List.flatMap_cons, List.append_assoc, escapedPhraseChar]
    split
    · rfl
    · next h =>
      rw [not_or] at h
      rw [List.singleton_append, readFrom, step, if_neg h.1, if_neg h.2]
      rfl

theorem read_phrase (s r : Text) :
    read (FilterAlgebra.phrase (escapePhrase s) ++ r) = phrase s :: read r := by
  have hbody := readFrom_phrase_escaped s [] r
  rw [FilterAlgebra.phrase, List.cons_append, List.append_assoc]
  exact hbody

theorem read_escapeTerm {w : Text} (hw : Text.isBlankText w = false) (hkeyword : Text.trim w ∉ keywords)
    {r : Text} (hr : Breaks r) : read (escapeTerm w ++ r) = word (Text.trim w) :: read r := by
  have hescaped := readFrom_word_escaped (Text.trim w) [] [] r
  rw [List.nil_append, List.nil_append, ← escapeTerm, hr] at hescaped
  have hword : ¬keywords.contains (escapeTerm w) = true := by
    rwa [List.contains_iff_mem, Lexer.escapeTerm_mem_keywords_iff]
  rw [read, start, hescaped, ended, if_neg (escapeTerm_ne_nil hw), if_neg hword]
  rfl

end Lexeme

end FilterAlgebra
