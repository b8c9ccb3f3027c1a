import FilterAlgebra.Proofs.Query.Lexemes
import FilterAlgebra.Proofs.Query.TextQueries
import FilterAlgebra.Proofs.Text.Words

/-!
# Shaped text

A value of free text keeps its words, whatever they are made of. Each precision has a form of its
own: a phrase, an open word or a near phrase, any of the words, all of the words with an open end.
Reading the query form of a value gives the lexemes of that form and no others, in front of
everything that may stand behind a unit (`yields_shapedText`), and what the lexemes say are the
words of the value (`words_formLexemes`).
-/

namespace FilterAlgebra

open Lexeme

/-! ### The forms -/

/-- A word, quoted if it is spelled like an operator. -/
def wordLexeme (w : Text) : Lexeme := if keywords.contains w then .phrase w else .word w

/-- A word with an open end, unless it is spelled like an operator. -/
def openWordLexemes (w : Text) : List Lexeme :=
  if keywords.contains w then [.phrase w] else [.word w, .mark '*']

/-- Lexemes between parentheses, with a separator between them. -/
def groupLexemes (sep : List Lexeme) (parts : List (List Lexeme)) : List Lexeme :=
  .mark '(' :: (List.intercalate sep parts ++ [.mark ')'])

/-- Words that may lie apart by one place, of which a single one has an open end instead. -/
def fuzzyLexemes : List Text → List Lexeme
  | [w] => openWordLexemes w
  | ws => [.phrase (List.intercalate [' '] ws), .near ['1']]

/-- Words of which any may occur. -/
def softLexemes : List Text → List Lexeme
  | [w] => [wordLexeme w]
  | ws => groupLexemes [.mark ' ', .operator ['O', 'R'], .mark ' '] (ws.map ([wordLexeme ·]))

/-- Words of which each must occur, the last with an open end. -/
def partLexemes : List Text → List Lexeme
  | [] => [.mark '*']
  | [w] => openWordLexemes w
  | w :: ws =>
    groupLexemes [.mark ' ']
      ((w :: ws).dropLast.map ([wordLexeme ·]) ++
        [openWordLexemes ((w :: ws).getLast (List.cons_ne_nil w ws))])

/-- The form of a value under a precision. -/
def formLexemes (precision : Precision) (value : Text) : List Lexeme :=
  match precision with
  | .exact => [.phrase (Text.trim value)]
  | .fuzzy => fuzzyLexemes (Text.words value)
  | .soft => softLexemes (Text.words value)
  | .part => partLexemes (Text.words value)

/-! ### What the forms say -/

theorem words_wordLexeme {w : Text} (hne : w ≠ []) (hchars : ∀ c ∈ w, isBlank c = false) :
    (wordLexeme w).words = [w] := by
  unfold wordLexeme
  split
  · exact Text.words_of_word hne hchars
  · rfl

theorem words_openWordLexemes {w : Text} (hne : w ≠ []) (hchars : ∀ c ∈ w, isBlank c = false) :
    (openWordLexemes w).flatMap Lexeme.words = [w] := by
  unfold openWordLexemes
  split
  · rw [List.flatMap_singleton, Lexeme.words, Text.words_of_word hne hchars]
  · rfl

/-- Parentheses and separators say nothing. -/
theorem words_groupLexemes {seps : List Lexeme} (hseps : seps.flatMap Lexeme.words = [])
    (forms : List (List Lexeme)) :
    (groupLexemes seps forms).flatMap Lexeme.words = forms.flatMap (·.flatMap Lexeme.words) := by
  have hbody : (List.intercalate seps forms).flatMap Lexeme.words =
      forms.flatMap (·.flatMap Lexeme.words) := by
    induction forms with
    | nil => rfl
    | cons form forms ih =>
      cases forms with
      | nil => simp
      | cons next forms =>
        rw [List.intercalate_cons_cons, List.flatMap_append, List.flatMap_append, hseps, ih,
          List.append_nil]
        rfl
  rw [groupLexemes, List.flatMap_cons, List.flatMap_append, hbody]
  simp [Lexeme.words]

section Words

variable {ws : List Text} (hws : ∀ w ∈ ws, w ≠ [] ∧ ∀ c ∈ w, isBlank c = false)

include hws

theorem words_map_wordLexeme :
    (ws.map ([wordLexeme ·])).flatMap (·.flatMap Lexeme.words) = ws := by
  induction ws with
  | nil => rfl
  | cons w ws ih =>
    rw [List.forall_mem_cons] at hws
    rw [List.map_cons, List.flatMap_cons, ih hws.2, List.flatMap_singleton,
      words_wordLexeme hws.1.1 hws.1.2, List.singleton_append]

theorem words_fuzzyLexemes : (fuzzyLexemes ws).flatMap Lexeme.words = ws := by
  unfold fuzzyLexemes
  split
  · next w =>
    obtain ⟨hne, hchars⟩ := hws w (List.mem_singleton_self w)
    exact words_openWordLexemes hne hchars
  · simp [Lexeme.words, Text.words_intercalate hws]

theorem words_softLexemes : (softLexemes ws).flatMap Lexeme.words = ws := by
  unfold softLexemes
  split
  · next w =>
    obtain ⟨hne, hchars⟩ := hws w (List.mem_singleton_self w)
    rw [List.flatMap_singleton, words_wordLexeme hne hchars]
  · rw [words_groupLexemes rfl, words_map_wordLexeme hws]

theorem words_partLexemes : (partLexemes ws).flatMap Lexeme.words = ws := by
  unfold partLexemes
  split
  · rfl
  · next w =>
    obtain ⟨hne, hchars⟩ := hws w (List.mem_singleton_self w)
    exact words_openWordLexemes hne hchars
  · next w ws _ =>
    have hne := List.cons_ne_nil w ws
    have hlast := hws _ (List.getLast_mem hne)
    rw [words_groupLexemes rfl, List.flatMap_append,
      words_map_wordLexeme fun v hv => hws v ((List.dropLast_sublist _).mem hv),
      List.flatMap_singleton, words_openWordLexemes hlast.1 hlast.2,
      List.dropLast_append_getLast hne]

end Words

/-- The form of a value says its words. -/
theorem words_formLexemes (precision : Precision) (value : Text) :
    (formLexemes precision value).flatMap Lexeme.words = Text.words value := by
  have hwords : ∀ w ∈ Text.words value, w ≠ [] ∧ ∀ c ∈ w, isBlank c = false :=
    fun w => Text.not_isBlank_of_mem_words
  cases precision with
  | exact => rw [formLexemes, List.flatMap_singleton, Lexeme.words, Text.words_trim]
  | fuzzy => exact words_fuzzyLexemes hwords
  | soft => exact words_softLexemes hwords
  | part => exact words_partLexemes hwords

/-! ### Texts and their lexemes -/

/-- Whether a text has some lexemes in front of everything that may stand behind a unit. -/
def Yields (s : Text) (lexemes : List Lexeme) : Prop :=
  ∀ r, Delimited r → read (s ++ r) = lexemes ++ read r

theorem yields_phrase (s : Text) : Yields (phrase (escapePhrase s)) [.phrase s] :=
  fun r _ => read_phrase s r

theorem phrase_escapePhrase_of_mem_keywords {w : Text} (h : w ∈ keywords) :
    phrase (escapePhrase w) = phrase w := by
  have hplain : ∀ w ∈ keywords, escapePhrase w = w := by decide
  rw [hplain w h]

theorem isOperatorWord_eq (w : Text) : isOperatorWord w = keywords.contains w := rfl

section Word

variable {w : Text} (hne : w ≠ []) (hchars : ∀ c ∈ w, isBlank c = false)

include hne hchars

theorem read_wordText {r : Text} (hr : Breaks r) :
    read (wordText w ++ r) = wordLexeme w :: read r := by
  have hblank : Text.isBlankText w = false := by
    obtain ⟨c, rest, rfl⟩ := List.exists_cons_of_ne_nil hne
    simp [Text.isBlankText, hchars c List.mem_cons_self]
  unfold wordText wordLexeme
  rw [isOperatorWord_eq]
  by_cases h : keywords.contains w = true
  · rw [if_pos h, if_pos h, ← phrase_escapePhrase_of_mem_keywords (List.contains_iff_mem.mp h),
      read_phrase]
  · have htrim := Text.trim_of_forall hchars
    have hkeyword : Text.trim w ∉ keywords := by rwa [htrim, ← List.contains_iff_mem]
    have hword := read_escapeTerm hblank hkeyword hr
    rw [htrim] at hword
    rw [if_neg h, if_neg h, hword]

theorem yields_wordText : Yields (wordText w) [wordLexeme w] :=
  fun _ hr => read_wordText hne hchars (breaks_of_delimited hr)

theorem yields_openWordText : Yields (openWordText w) (openWordLexemes w) := by
  intro r _
  have hstar : isMark '*' = true := by decide
  have hword := read_wordText hne hchars (breaks_mark hstar r)
  unfold openWordText openWordLexemes
  unfold wordText wordLexeme at hword
  rw [isOperatorWord_eq] at hword ⊢
  by_cases h : keywords.contains w = true
  · rw [if_pos h, if_pos h, ← phrase_escapePhrase_of_mem_keywords (List.contains_iff_mem.mp h)]
    exact read_phrase w r
  · rw [if_neg h, if_neg h] at hword ⊢
    rw [List.append_assoc, List.singleton_append, hword, read_mark hstar]
    rfl

end Word

theorem yields_nearPhrase (s : Text) :
    Yields (phrase (escapePhrase s) ++ ['~', '1']) [.phrase s, .near ['1']] := by
  intro r hr
  have hnear : read ('~' :: '1' :: r) = .near ['1'] :: read r := by
    cases r with
    | nil => rfl
    | cons c r =>
      have hdigit : ¬c.isDigit = true := by
        intro hdigit
        have hfield := isFieldChar_of_isAlphanum (c := c) (.inl (by simp [Char.isAlphanum, hdigit]))
        have hdelimiter : isDelimiter c = true := hr
        simp [isFieldChar, hdelimiter] at hfield
      change (step (.near ['1']) c).1 ++ readFrom (step (.near ['1']) c).2 r = _
      rw [step, if_neg hdigit]
      rfl
  rw [List.append_assoc, read_phrase, List.cons_append, List.cons_append, List.nil_append, hnear]
  rfl

/-- Whether a text may stand between parts: it ends the part before it and has some lexemes of its
own, whatever follows. -/
def Separates (sep : Text) (seps : List Lexeme) : Prop :=
  ∀ r, Delimited (sep ++ r) ∧ read (sep ++ r) = seps ++ read r

theorem separates_blank : Separates [' '] [.mark ' '] := by
  intro r
  constructor
  · simp [Delimited, isDelimiter, show isBlank ' ' = true by decide]
  · exact read_mark (by decide) r

theorem separates_or : Separates " OR " [.mark ' ', .operator ['O', 'R'], .mark ' '] := by
  intro r
  have hdelimiter : isDelimiter ' ' = true := by decide
  exact ⟨hdelimiter, rfl⟩

/-- Parts are read one after the other, if the separator is. -/
theorem Yields.intercalate {sep : Text} {seps : List Lexeme} (hsep : Separates sep seps)
    {parts : List Text} {forms : List (List Lexeme)} (h : List.Forall₂ Yields parts forms) :
    Yields (List.intercalate sep parts) (List.intercalate seps forms) := by
  intro r hr
  induction h with
  | nil => rfl
  | @cons part form parts forms hpart h ih =>
    cases h with
    | nil =>
      rw [List.intercalate_singleton, List.intercalate_singleton]
      exact hpart r hr
    | @cons next form' parts forms hnext h =>
      rw [List.intercalate_cons_cons, List.intercalate_cons_cons]
      simp only [List.append_assoc]
      rw [hpart _ (hsep _).1, (hsep _).2, ih]

theorem yields_parenthesized {sep : Text} {seps : List Lexeme} (hsep : Separates sep seps)
    {parts : List Text} {forms : List (List Lexeme)} (h : List.Forall₂ Yields parts forms) :
    Yields (parenthesized sep parts) (groupLexemes seps forms) := by
  intro r _
  have hclose : isMark ')' = true := by decide
  have hbody := Yields.intercalate hsep h (')' :: r) (by simp [Delimited, isDelimiter])
  rw [parenthesized, groupLexemes, List.cons_append, List.append_assoc, List.singleton_append,
    read_mark (by decide), hbody, read_mark hclose, List.cons_append, List.append_assoc]
  rfl

/-! ### Values -/

section Values

variable {ws : List Text} (hws : ∀ w ∈ ws, w ≠ [] ∧ ∀ c ∈ w, isBlank c = false)

include hws

theorem forall₂_yields_wordText :
    List.Forall₂ Yields (ws.map wordText) (ws.map ([wordLexeme ·])) := by
  rw [List.forall₂_map_left_iff, List.forall₂_map_right_iff, List.forall₂_same]
  exact fun w hw => yields_wordText (hws w hw).1 (hws w hw).2

theorem yields_openWords : Yields (openWords ws) (partLexemes ws) := by
  match ws with
  | [] => exact fun r _ => read_mark (by decide) r
  | [w] =>
    obtain ⟨hne, hchars⟩ := hws w (by simp)
    exact yields_openWordText hne hchars
  | w :: next :: ws =>
    have hlast := hws _ (List.getLast_mem (List.cons_ne_nil w (next :: ws)))
    have hwords := forall₂_yields_wordText fun v hv => hws v ((List.dropLast_sublist _).mem hv)
    have hparts := List.rel_append hwords (.cons (yields_openWordText hlast.1 hlast.2) .nil)
    rw [openWords, partLexemes, List.getLast?_eq_some_getLast (List.cons_ne_nil w _)]
    · exact yields_parenthesized separates_blank hparts
    all_goals simp

end Values

theorem yields_shapedText {precision : Precision} {value : Text}
    (hoperators : precision = .part → hasOperators (Text.trim value) = false) :
    Yields (shapedText precision (Text.trim value)) (formLexemes precision value) := by
  have hwords : ∀ w ∈ Text.words value, w ≠ [] ∧ ∀ c ∈ w, isBlank c = false :=
    fun w => Text.not_isBlank_of_mem_words
  cases precision with
  | exact => exact yields_phrase (Text.trim value)
  | fuzzy =>
    simp only [shapedText, formLexemes, Text.words_trim]
    generalize Text.words value = ws at hwords
    rcases ws with - | ⟨w, - | ⟨next, ws⟩⟩
    · exact yields_nearPhrase []
    · -- one word is open at its end
      obtain ⟨hne, hchars⟩ := hwords w (List.mem_singleton_self w)
      exact yields_openWordText hne hchars
    · -- several words are a near phrase
      exact yields_nearPhrase (List.intercalate [' '] (w :: next :: ws))
  | soft =>
    simp only [shapedText, formLexemes, Text.words_trim]
    generalize Text.words value = ws at hwords
    rcases ws with - | ⟨w, - | ⟨next, ws⟩⟩
    · exact yields_parenthesized separates_or .nil
    · -- one word stands by itself
      obtain ⟨hne, hchars⟩ := hwords w (List.mem_singleton_self w)
      exact yields_wordText hne hchars
    · exact yields_parenthesized separates_or (forall₂_yields_wordText hwords)
  | part =>
    rw [shapedText, hoperators rfl, formLexemes, Text.words_trim]
    exact yields_openWords hwords

/-- **Free text is shaped without loss.** A value that is shaped by the precision alone becomes a
unit. In front of everything that may stand behind a unit it is read as the form of the value under
the precision and as nothing else, and what it says are the words of the value in their order. -/
theorem freeText_lexemes {precision : Option Precision} {value : Text}
    (h : IsShaped precision value) :
    IsUnit (freeText precision value) ∧
      (∀ r, Delimited r → read (freeText precision value ++ r) =
        formLexemes (precision.getD .part) value ++ read r) ∧
      (read (freeText precision value)).flatMap Lexeme.words = Text.words value := by
  have hyields := yields_shapedText h.hasOperators_eq_false
  rw [← h.freeText_eq] at hyields
  refine ⟨h.isUnit, hyields, ?_⟩
  have hread := hyields [] trivial
  rw [List.append_nil, show read [] = [] from rfl, List.append_nil] at hread
  rw [hread, words_formLexemes]

/-- Two words, one spelled like an operator and one that ends with a quote and a backslash. -/
def trickyValue : Text := " NOT a\"\\ ".toList

theorem isShaped_trickyValue : IsShaped none trickyValue := by
  have hunquoted : quotedBody? (Text.trim trickyValue) = none := by decide +kernel
  refine ⟨?_, fun _ => by decide +kernel⟩
  rintro ⟨body, hbody⟩
  rw [quotedBody?, Text.inside?_eq_some_iff.mpr hbody] at hunquoted
  cases hunquoted

theorem freeText_lexemes_trickyValue :
    IsShaped none trickyValue ∧
      IsUnit (freeText none trickyValue) ∧
      (∀ r, Delimited r → read (freeText none trickyValue ++ r) =
        [.mark '(', .phrase "NOT".toList, .mark ' ', .word "a\"\\".toList, .mark '*', .mark ')'] ++
          read r) ∧
      (read (freeText none trickyValue)).flatMap Lexeme.words =
        ["NOT".toList, "a\"\\".toList] :=
  ⟨isShaped_trickyValue, freeText_lexemes isShaped_trickyValue⟩

end FilterAlgebra
