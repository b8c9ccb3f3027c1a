import FilterAlgebra.Filter.Basic
import FilterAlgebra.Query.Escape

/-!
# Free text

A value of free text is shaped by the precision of its filter: a phrase, a phrase that allows for
small differences, any of the words, or all of the words with the last one open at its end. A quoted
value is always a phrase. Words that are spelled like operators are quoted, so that they are read as
words; only the default precision lets a caller write operators of his own.
-/

namespace FilterAlgebra

/-- The words that are operators of the query language. -/
def operatorWords : List Text := ["AND", "OR", "NOT"]

/-- Whether a word is spelled like an operator. -/
def isOperatorWord (word : Text) : Bool := operatorWords.contains word

/-- A word as a term, or as a phrase where it is spelled like an operator. -/
def wordText (word : Text) : Text :=
  if isOperatorWord word then phrase word else escapeTerm word

/-- A word that may go on, unless it is spelled like an operator. -/
def openWordText (word : Text) : Text :=
  if isOperatorWord word then phrase word else escapeTerm word ++ ['*']

/-- Whether a text has an operator between blanks, and so is a boolean query of the caller. -/
def hasOperators (s : Text) : Bool := Text.contains s " AND " || Text.contains s " OR "

/-- Parts in parentheses, with a separator between them. -/
def parenthesized (sep : Text) (parts : List Text) : Text :=
  '(' :: (List.intercalate sep parts ++ [')'])

/-- Words of which each must occur, the last one open at its end. -/
def openWords : List Text → Text
  | [] => ['*']
  | [word] => openWordText word
  | words =>
    parenthesized [' '] (words.dropLast.map wordText ++ (words.getLast?.map openWordText).toList)

/-- The query form of a value without blanks around it that is not quoted. -/
def shapedText (precision : Precision) (s : Text) : Text :=
  match precision with
  | .exact => phrase (escapePhrase s)
  | .fuzzy =>
    match Text.words s with
    | [word] => openWordText word
    | words => phrase (escapePhrase (List.intercalate [' '] words)) ++ "~1"
  | .soft =>
    match Text.words s with
    | [word] => wordText word
    | words => parenthesized " OR " (words.map wordText)
  | .part => if hasOperators s then '(' :: (s ++ [')']) else openWords (Text.words s)

/-- The query form of a value of free text; without a precision the last word is open. -/
def freeText (precision : Option Precision) (value : Text) : Text :=
  match quotedBody? (Text.trim value) with
  | some body => phrase (escapeQuotes body)
  | none => shapedText (precision.getD .part) (Text.trim value)

end FilterAlgebra
