import FilterAlgebra.Text.Blank

/-!
# Escaping

The query language of the search engine gives some characters a meaning; a backslash takes it away
again. Three ways to escape: a term has every such character and every blank escaped, so that it
stays one term; a phrase stands between quotes, where only quotes and backslashes matter; and text
that a caller has quoted already gets a backslash before each quote that has none yet.
-/

namespace FilterAlgebra

/-- The characters with a meaning in the query language. -/
def specialChars : List Char :=
  ['(', ')', '\\', '+', '-', '&', '|', '!', '\x7b', '\x7d', '[', ']', '?', '*', ':', ';', ',', '"',
    '/', '^', '~']

/-- Whether a character ends a term, or means something in one, unless it is escaped. -/
def needsEscape (c : Char) : Bool := specialChars.contains c || isBlank c

def escapedTermChar (c : Char) : Text := if needsEscape c then ['\\', c] else [c]

/-- A text as one term: without the blanks around it, and with those inside escaped. -/
def escapeTerm (s : Text) : Text := (Text.trim s).flatMap escapedTermChar

theorem escapeTerm_ne_nil {value : Text} (h : Text.isBlankText value = false) :
    escapeTerm value ≠ [] := by
  have htrim : Text.trim value ≠ [] := by simp [Text.trim_eq_nil_iff, h]
  obtain ⟨c, rest, hc⟩ := List.exists_cons_of_ne_nil htrim
  rw [escapeTerm, hc, List.flatMap_cons, escapedTermChar]
  split <;> simp

def escapedPhraseChar (c : Char) : Text := if c = '\\' ∨ c = '"' then ['\\', c] else [c]

/-- A text as the body of a phrase. -/
def escapePhrase (s : Text) : Text := s.flatMap escapedPhraseChar

def phrase (body : Text) : Text := '"' :: (body ++ ['"'])

/-- Escapes the quotes of a text that are not escaped, where `escaped` tells whether the first
character is. -/
def escapeQuotesFrom (escaped : Bool) : Text → Text
  | [] => []
  | c :: rest =>
    let tail := c :: escapeQuotesFrom (c = '\\' && !escaped) rest
    if c = '"' && !escaped then '\\' :: tail else tail

/-- Escapes the quotes of a text that are not escaped. -/
def escapeQuotes (s : Text) : Text := escapeQuotesFrom false s

/-- The text between a quote at its start and another at its end, if it has both. -/
def quotedBody? (s : Text) : Option Text := Text.inside? '"' '"' s

/-- Whether a text begins and ends with a quote, the two being different characters. -/
def isQuoted (s : Text) : Bool := (quotedBody? s).isSome

end FilterAlgebra
