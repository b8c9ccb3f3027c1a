import FilterAlgebra.Query.FreeText
import Mathlib.Data.List.Induction

/-!
# Closed phrases

A value that its caller has quoted is kept as a phrase, and a backslash is put before each quote
inside it that has none. The phrase should be closed (`afterPhrase?`): the first quote behind the
opening one that is not escaped should be its last character.

Putting backslashes before quotes changes nothing about what stands behind the text: a scan of the
escaped text meets no quote that is not escaped, and arrives in the state in which a scan of the
text itself arrives (`afterQuote?_escapeQuotesFrom`). So the body decides whether the last quote is
escaped, and it does so by the number of backslashes at its end (`escapesNext_eq`).
-/

namespace FilterAlgebra

/-! ### Scanning -/

/-- Whether what follows a text is escaped, where `escaped` tells whether its first character is. -/
def escapesNext (escaped : Bool) : Text → Bool
  | [] => escaped
  | c :: rest => escapesNext (c = '\\' && !escaped) rest

/-- What follows the first quote of a text that is not escaped, where `escaped` tells whether the
first character is. -/
def afterQuote? (escaped : Bool) : Text → Option Text
  | [] => none
  | c :: rest =>
    if c = '"' && !escaped then some rest else afterQuote? (c = '\\' && !escaped) rest

/-- What follows the phrase at the start of a text, if the text begins with a quote and has another
one that is not escaped. Nothing follows a closed phrase. -/
def afterPhrase? (s : Text) : Option Text := (Text.afterFirst? '"' s).bind (afterQuote? false)

/-- The number of backslashes at the end of a text. -/
def finalBackslashes (s : Text) : Nat := (s.reverse.takeWhile fun c => c = '\\').length

/-! ### What a text does to the text behind it -/

theorem escapesNext_concat (escaped : Bool) (s : Text) (c : Char) :
    escapesNext escaped (s ++ [c]) = (c = '\\' && !escapesNext escaped s) := by
  induction s generalizing escaped with
  | nil => rfl
  | cons d s ih => exact ih _

theorem finalBackslashes_concat (s : Text) (c : Char) :
    finalBackslashes (s ++ [c]) = if c = '\\' then finalBackslashes s + 1 else 0 := by
  by_cases hc : c = '\\' <;> simp [finalBackslashes, hc]

/-- What follows a text is escaped when the backslashes at the end of the text are odd in
number. -/
theorem escapesNext_eq (s : Text) :
    escapesNext false s = decide (finalBackslashes s % 2 = 1) := by
  induction s using List.reverseRecOn with
  | nil => rfl
  | append_singleton s c ih =>
    rw [escapesNext_concat, finalBackslashes_concat, ih]
    by_cases hc : c = '\\'
    · rcases Nat.mod_two_eq_zero_or_one (finalBackslashes s) with hparity | hparity
      · simp [hc, Nat.add_mod, hparity]
      · simp [hc, Nat.add_mod, hparity]
    · simp [hc]

/-- **Escaped quotes do not end a phrase.** A scan of the escaped text finds nothing and goes on
behind it as it would behind the text itself. -/
theorem afterQuote?_escapeQuotesFrom (escaped : Bool) (s r : Text) :
    afterQuote? escaped (escapeQuotesFrom escaped s ++ r) =
      afterQuote? (escapesNext escaped s) r := by
  -- the scan of the text and that of the escaped text are in the same state after each character
  induction s generalizing escaped with
  | nil => rfl
  | cons c s ih =>
    rw [escapeQuotesFrom, escapesNext, ← ih]
    by_cases hquote : c = '"'
    · subst hquote
      cases escaped <;> simp [afterQuote?]
    · simp [afterQuote?, hquote]

/-! ### Quoted values -/

theorem freeText_of_quoted {value body : Text} (precision : Option Precision)
    (hquoted : Text.trim value = '"' :: (body ++ ['"'])) :
    freeText precision value = '"' :: (escapeQuotes body ++ ['"']) := by
  have hbody : quotedBody? (Text.trim value) = some body := Text.inside?_eq_some_iff.mpr hquoted
  simp only [freeText, hbody, phrase]

/-- **Quoted values.** What a quoted value becomes begins with a quote. If the number of backslashes
at the end of the value's body is even, the next quote that is not escaped is the last character; if
it is odd, there is none. The precision makes no difference. -/
theorem afterPhrase?_freeText {value body : Text} (precision : Option Precision)
    (hquoted : Text.trim value = '"' :: (body ++ ['"'])) :
    (freeText precision value).head? = some '"' ∧
      afterPhrase? (freeText precision value) =
        if finalBackslashes body % 2 = 0 then some [] else none := by
  rw [freeText_of_quoted precision hquoted]
  refine ⟨rfl, ?_⟩
  have hlast : afterPhrase? ('"' :: (escapeQuotes body ++ ['"'])) =
      afterQuote? (escapesNext false body) ['"'] :=
    afterQuote?_escapeQuotesFrom false body ['"']
  rw [hlast, escapesNext_eq]
  -- only the last quote is left to scan, and the body decides whether it is escaped
  rcases Nat.mod_two_eq_zero_or_one (finalBackslashes body) with hparity | hparity
  · simp [hparity, afterQuote?]
  · simp [hparity, afterQuote?]

/-- A quoted value with blanks around it, quotes of each kind inside, and two backslashes at its
end. -/
def quotedTitle : Text := " \"the \"red\" and \\\"black\\\" C:\\\\\" "

theorem afterPhrase?_freeText_quotedTitle :
    Text.trim quotedTitle = '"' :: ("the \"red\" and \\\"black\\\" C:\\\\".toList ++ ['"']) ∧
      (freeText none quotedTitle).head? = some '"' ∧
      afterPhrase? (freeText none quotedTitle) = some [] := by
  have hquoted : Text.trim quotedTitle =
      '"' :: ("the \"red\" and \\\"black\\\" C:\\\\".toList ++ ['"']) := by decide +kernel
  have hclosed := afterPhrase?_freeText none hquoted
  have heven : finalBackslashes "the \"red\" and \\\"black\\\" C:\\\\" % 2 = 0 := by
    decide +kernel
  rw [if_pos heven] at hclosed
  exact ⟨hquoted, hclosed⟩

/-- A quoted value with one backslash at its end. -/
def quotedDrive : Text := "\"C:\\\""

/-- A backslash at the end of a quoted value escapes the last quote, and the phrase is not
closed. -/
theorem afterPhrase?_freeText_quotedDrive_ne :
    (∃ body, Text.trim quotedDrive = '"' :: (body ++ ['"'])) ∧
      afterPhrase? (freeText none quotedDrive) ≠ some [] := by
  constructor
  · exact ⟨['C', ':', '\\'], by decide +kernel⟩
  · decide +kernel

end FilterAlgebra
