import FilterAlgebra.Proofs.Query.ClosedPhrases
import FilterAlgebra.Proofs.Query.Lexemes
import Mathlib.Data.List.Basic

/-!
# Escapes

A reader of the query language goes through a text from left to right. A backslash takes the meaning
from the character behind it, and is itself a character with a meaning unless another backslash
stands before it. So each character of a text has one of three parts to play (`scan`), whatever the
runs of backslashes.

An escaped term has no character with a meaning left but the backslashes that escape, and what they
leave is the value (`scan_escapeTerm`). Escaping the quotes of a text gives each quote that has none
the backslash it lacks, and changes the part of no other character (`scan_escapeQuotes`).
-/

namespace FilterAlgebra

/-! ### Scanning -/

/-- The part that a character plays in a text. -/
inductive Scanned where
  | plain (c : Char)
  /-- A backslash that escapes the next character. -/
  | backslash
  | escaped (c : Char)
  deriving DecidableEq, Repr

namespace Scanned

def char : Scanned → Char
  | plain c => c
  | backslash => '\\'
  | escaped c => c

/-- The character that is meant, if one is. -/
def said? : Scanned → Option Char
  | plain c => some c
  | backslash => none
  | escaped c => some c

/-- The part of a character, where `isEscaped` tells whether it is escaped. -/
def ofChar (isEscaped : Bool) (c : Char) : Scanned :=
  if isEscaped then escaped c else if c = '\\' then backslash else plain c

theorem char_ofChar (isEscaped : Bool) (c : Char) : (ofChar isEscaped c).char = c := by
  unfold ofChar
  split_ifs with hescaped hc
  · rfl
  · exact hc.symm
  · rfl

end Scanned

open Scanned

/-- The parts of the characters of a text, where `isEscaped` tells whether the first one is
escaped. -/
def scanFrom (isEscaped : Bool) : Text → List Scanned
  | [] => []
  | c :: rest => ofChar isEscaped c :: scanFrom (c = '\\' && !isEscaped) rest

def scan (s : Text) : List Scanned := scanFrom false s

theorem map_char_scanFrom (isEscaped : Bool) (s : Text) :
    (scanFrom isEscaped s).map Scanned.char = s := by
  induction s generalizing isEscaped with
  | nil => rfl
  | cons c s ih => rw [scanFrom, List.map_cons, char_ofChar, ih]

/-! ### Terms -/

/-- The characters with a meaning in the query language: those that stand for themselves, and those
that escape, begin a phrase or tell how far words may lie apart. -/
def syntaxChars : List Char := '\\' :: '"' :: '~' :: Lexeme.symbols

theorem mem_syntaxChars_iff (c : Char) : c ∈ syntaxChars ↔ c ∈ specialChars := by
  have hspecial : syntaxChars.all specialChars.contains = true := by decide
  have hsyntax : specialChars.all syntaxChars.contains = true := by decide
  constructor
  · intro h
    exact List.contains_iff_mem.mp (List.all_eq_true.mp hspecial c h)
  · intro h
    exact List.contains_iff_mem.mp (List.all_eq_true.mp hsyntax c h)

theorem needsEscape_eq_false_iff (c : Char) :
    needsEscape c = false ↔ c ∉ syntaxChars ∧ isBlank c = false := by
  rw [mem_syntaxChars_iff, needsEscape, Bool.or_eq_false_iff, ← Bool.not_eq_true,
    List.contains_iff_mem]

/-- The parts of the characters that a character of a term becomes. -/
def termParts (c : Char) : List Scanned :=
  if needsEscape c then [backslash, escaped c] else [plain c]

/-- In an escaped term every escape is complete before the next character begins. -/
theorem escapedTermChar_append (c : Char) (s : Text) :
    scanFrom false (escapedTermChar c ++ s) = termParts c ++ scanFrom false s ∧
      escapesNext false (escapedTermChar c ++ s) = escapesNext false s := by
  unfold escapedTermChar termParts
  by_cases h : needsEscape c = true
  · rw [if_pos h, if_pos h]
    simp [scanFrom, ofChar, escapesNext]
  · have hc : c ≠ '\\' := by
      rintro rfl
      exact h (by decide)
    rw [if_neg h, if_neg h]
    simp [scanFrom, ofChar, escapesNext, hc]

theorem scan_escapeTerm (v : Text) :
    scan (escapeTerm v) = (Text.trim v).flatMap termParts ∧
      escapesNext false (escapeTerm v) = false := by
  rw [escapeTerm, scan]
  induction Text.trim v with
  | nil => exact ⟨rfl, rfl⟩
  | cons c s ih =>
    have hfirst := escapedTermChar_append c (s.flatMap escapedTermChar)
    rw [List.flatMap_cons, List.flatMap_cons, hfirst.1, hfirst.2, ih.1, ih.2]
    exact ⟨rfl, rfl⟩

theorem filterMap_said?_termParts (s : Text) : (s.flatMap termParts).filterMap said? = s := by
  induction s with
  | nil => rfl
  | cons c s ih =>
    rw [List.flatMap_cons, List.filterMap_append, ih, termParts]
    split <;> rfl

/-- **An escaped term is one term and says its value.** A scan of it meets no character with a
meaning and no blank that is not escaped, does not end inside an escape, and leaves the value
without the blanks around it. So values become one term only if they agree up to those blanks. -/
theorem escapeTerm_isOneTerm (v : Text) :
    (∀ c, plain c ∈ scan (escapeTerm v) → c ∉ syntaxChars ∧ isBlank c = false) ∧
    (∀ c, escaped c ∈ scan (escapeTerm v) → c ∈ syntaxChars ∨ isBlank c = true) ∧
    escapesNext false (escapeTerm v) = false ∧
    (scan (escapeTerm v)).filterMap said? = Text.trim v ∧
    ∀ w, escapeTerm v = escapeTerm w ↔ Text.trim v = Text.trim w := by
  have hsays : ∀ w, (scan (escapeTerm w)).filterMap said? = Text.trim w := by
    intro w
    rw [(scan_escapeTerm w).1, filterMap_said?_termParts]
  refine ⟨?_, ?_, (scan_escapeTerm v).2, hsays v, ?_⟩
  · -- what stands plain has no meaning and is no blank
    intro c hc
    rw [(scan_escapeTerm v).1, List.mem_flatMap] at hc
    obtain ⟨d, -, hd⟩ := hc
    rw [← needsEscape_eq_false_iff]
    unfold termParts at hd
    split at hd
    · simp at hd
    · next h =>
      obtain rfl : c = d := by simpa using hd
      simpa using h
  · -- what is escaped is one or the other
    intro c hc
    rw [(scan_escapeTerm v).1, List.mem_flatMap] at hc
    obtain ⟨d, -, hd⟩ := hc
    unfold termParts at hd
    split at hd
    · next h =>
      obtain rfl : c = d := by simpa using hd
      by_contra hnone
      rw [not_or, Bool.not_eq_true, ← needsEscape_eq_false_iff, h] at hnone
      cases hnone
    · simp at hd
  · -- equal terms say equal values
    intro w
    constructor
    · intro h
      rw [← hsays v, h, hsays w]
    · intro h
      rw [escapeTerm, h, escapeTerm]

/-! ### Quotes -/

/-- A quote that is not escaped with the backslash it lacks, and any other character as it is. -/
def requoted (x : Scanned) : List Scanned :=
  if x = plain '"' then [backslash, escaped '"'] else [x]

/-- Escaping quotes changes the part of a quote that is not escaped, and of nothing else. -/
theorem scanFrom_escapeQuotesFrom (isEscaped : Bool) (s : Text) :
    scanFrom isEscaped (escapeQuotesFrom isEscaped s) =
      (scanFrom isEscaped s).flatMap requoted := by
  induction s generalizing isEscaped with
  | nil => rfl
  | cons c s ih =>
    rw [escapeQuotesFrom, scanFrom, List.flatMap_cons, ← ih]
    by_cases hquote : c = '"'
    · subst hquote
      cases isEscaped <;> simp [scanFrom, ofChar, requoted]
    · have hpart : requoted (ofChar isEscaped c) = [ofChar isEscaped c] := by
        apply if_neg
        intro hplain
        apply hquote
        rw [← char_ofChar isEscaped c, hplain]
        rfl
      rw [hpart]
      simp [scanFrom, hquote]

theorem scan_escapeQuotes (v : Text) : scan (escapeQuotes v) = (scan v).flatMap requoted :=
  scanFrom_escapeQuotesFrom false v

/-- What follows a text is escaped if and only if it is behind the text with its quotes escaped. -/
theorem escapesNext_escapeQuotesFrom (isEscaped : Bool) (s : Text) :
    escapesNext isEscaped (escapeQuotesFrom isEscaped s) = escapesNext isEscaped s := by
  induction s generalizing isEscaped with
  | nil => rfl
  | cons c s ih =>
    rw [escapeQuotesFrom, escapesNext, ← ih]
    by_cases hquote : c = '"'
    · subst hquote
      cases isEscaped <;> simp [escapesNext]
    · simp [escapesNext, hquote]

theorem plain_quote_notMem_flatMap_requoted (parts : List Scanned) :
    plain '"' ∉ parts.flatMap requoted := by
  rw [List.mem_flatMap]
  rintro ⟨x, -, hx⟩
  unfold requoted at hx
  split at hx
  · simp at hx
  · next h => exact h (List.mem_singleton.mp hx).symm

theorem flatMap_requoted_eq_self {parts : List Scanned} (h : plain '"' ∉ parts) :
    parts.flatMap requoted = parts := by
  have hparts : ∀ x ∈ parts, requoted x = [x] := by
    intro x hx
    apply if_neg
    rintro rfl
    exact h hx
  rw [List.flatMap_congr hparts, List.flatMap_singleton']

/-- A text is what its scan says, so texts that are scanned alike are the same. -/
theorem scan_injective : Function.Injective scan := by
  intro s t h
  rw [← map_char_scanFrom false s, ← map_char_scanFrom false t]
  exact congrArg (List.map Scanned.char) h

theorem escapeQuotes_eq_self_iff (v : Text) : escapeQuotes v = v ↔ plain '"' ∉ scan v := by
  constructor
  · intro h
    rw [← h, scan_escapeQuotes]
    exact plain_quote_notMem_flatMap_requoted _
  · intro h
    apply scan_injective
    rw [scan_escapeQuotes, flatMap_requoted_eq_self h]

/-- **Escaping quotes adds what is missing and nothing else.** Afterwards no quote is without its
escape, so escaping again changes nothing, as it changes no text whose quotes are all escaped. The
text is had back by taking one backslash away before each quote that was not escaped, and what
follows it is escaped as before. -/
theorem escapeQuotes_isMinimal (v : Text) :
    plain '"' ∉ scan (escapeQuotes v) ∧
    escapeQuotes (escapeQuotes v) = escapeQuotes v ∧
    (plain '"' ∉ scan v ↔ escapeQuotes v = v) ∧
    ((scan v).map Scanned.char = v ∧
      escapeQuotes v =
        (scan v).flatMap fun x => if x = plain '"' then ['\\', '"'] else [x.char]) ∧
    escapesNext false (escapeQuotes v) = escapesNext false v := by
  have hquotes : plain '"' ∉ scan (escapeQuotes v) := by
    rw [scan_escapeQuotes]
    exact plain_quote_notMem_flatMap_requoted _
  refine ⟨hquotes, (escapeQuotes_eq_self_iff _).mpr hquotes, (escapeQuotes_eq_self_iff v).symm,
    ⟨map_char_scanFrom false v, ?_⟩, escapesNext_escapeQuotesFrom false v⟩
  have hspelled : ∀ x ∈ scan v, (requoted x).map Scanned.char =
      if x = plain '"' then ['\\', '"'] else [x.char] := by
    intro x _
    unfold requoted
    split <;> rfl
  rw [← List.flatMap_congr hspelled, ← List.map_flatMap, ← scan_escapeQuotes]
  exact (map_char_scanFrom false (escapeQuotes v)).symm

end FilterAlgebra
