import FilterAlgebra.Proofs.Query.Compiled
import FilterAlgebra.Proofs.Query.Scanning
import FilterAlgebra.Proofs.Range.Forms

/-!
# Queries without free text

Where every filter tests terms, ranges or flags, an atom is a run of characters in which a backslash
escapes the next one and brackets enclose a block; it ends before a blank or a parenthesis that is
not escaped (`termLexis`). Whatever the values are, the clauses are such atoms
(`isOperand_clauseText`), so a compiled query is read as the filters mean it.
-/

namespace FilterAlgebra

/-! ### Atoms -/

/-- A block in brackets, which ends at its first closing bracket. -/
def IsBracketed (s : Text) : Prop := ∃ body, s = '[' :: (body ++ [']']) ∧ ']' ∉ body

/-- The characters that stand for themselves in an atom. -/
def isTermChar (c : Char) : Bool := !isDelimiter c && c != '\\' && c != '['

theorem IsBracketed.eq_of_append {s s' r r' : Text} (h : IsBracketed s) (h' : IsBracketed s')
    (heq : s ++ r = s' ++ r') : s = s' := by
  obtain ⟨body, rfl, hbody⟩ := h
  obtain ⟨body', rfl, hbody'⟩ := h'
  have htail : body ++ ']' :: r = body' ++ ']' :: r' := by simpa using heq
  have hne : ∀ {s : Text}, ']' ∉ s → ∀ c ∈ s, c ≠ ']' := fun hs c hc hcc => hs (hcc ▸ hc)
  obtain ⟨rfl, -⟩ := append_cons_inj_of_forall (hne hbody) (hne hbody') (by simp) (by simp) htail
  rfl

def termLexis : Lexis where
  IsPlain c := isTermChar c = true
  IsOpening c := c = '['
  IsBlock := IsBracketed
  not_isPlain_backslash := by decide
  not_isOpening_backslash := by decide
  not_isPlain_of_isOpening := by
    rintro c rfl
    decide
  exists_of_isBlock := by
    rintro s ⟨body, rfl, -⟩
    exact ⟨_, _, rfl, rfl⟩
  eq_of_isBlock := IsBracketed.eq_of_append

theorem stops_of_delimited {r : Text} (h : Delimited r) : termLexis.Stops r := by
  rintro c t rfl
  have hc : isDelimiter c = true := h
  rintro (hplain | rfl | rfl)
  · have hplain : isTermChar c = true := hplain
    simp [isTermChar, hc] at hplain
  · revert hc
    decide
  · revert hc
    decide

theorem termLexis_run_of_all {s : Text} (h : s.all isTermChar = true) : termLexis.Run s :=
  .of_plain (List.all_eq_true.mp h)

theorem termLexis_run_keyword {word : Text} (h : word ∈ keywords) : termLexis.Run word := by
  have hchars : ∀ word ∈ keywords, word.all isTermChar = true := by decide
  exact termLexis_run_of_all (hchars word h)

def termAtoms : AtomClass where
  IsAtom s := s ≠ [] ∧ termLexis.Run s
  ne_open := by
    rintro s r t ⟨hne, hrun⟩ heq
    obtain ⟨c, s, rfl⟩ := List.exists_cons_of_ne_nil hne
    obtain ⟨rfl, -⟩ := List.cons.inj heq
    have hbegins := hrun.begins
    revert hbegins
    change ¬(isTermChar '(' = true ∨ '(' = '\\' ∨ '(' = '[')
    decide
  eq_keyword := by
    rintro s r word t ⟨-, hrun⟩ hr hword heq
    have hblank : Delimited (' ' :: t) := (by decide : isDelimiter ' ' = true)
    exact hrun.eq_of_append (termLexis_run_keyword hword) (stops_of_delimited hr)
      (stops_of_delimited hblank) heq
  eq_of_append := by
    rintro s s' r r' ⟨-, hrun⟩ ⟨-, hrun'⟩ hr hr' heq
    exact hrun.eq_of_append hrun' (stops_of_delimited hr) (stops_of_delimited hr') heq

/-! ### Clauses are atoms -/

theorem notMem_keywords_of_colon {s : Text} (h : ':' ∈ s) : s ∉ keywords := by
  intro hs
  revert h
  revert s
  decide

theorem isTermChar_of_not_needsEscape {c : Char} (h : needsEscape c = false) :
    isTermChar c = true := by
  simp only [needsEscape, specialChars, List.contains_cons, List.contains_nil] at h
  simp_all [isTermChar, isDelimiter]

theorem run_rangeText {low high : Text} (hlow : ']' ∉ low) (hhigh : ']' ∉ high) :
    termLexis.Run (rangeText low high) := by
  have hseparator : ']' ∉ rangeSeparator := by decide
  have hblock : IsBracketed (rangeText low high) :=
    ⟨low ++ rangeSeparator ++ high, by simp [rangeText], by simp [hlow, hhigh, hseparator]⟩
  exact .of_piece (.block hblock)

theorem run_queryForm {kind : ValueKind} (htext : kind ≠ .text) (hflag : kind ≠ .flag)
    {precision : Option Precision} {value form : Text}
    (hform : kind.queryForm precision value = .ok form) : termLexis.Run form := by
  cases kind with
  | text => exact absurd rfl htext
  | flag => exact absurd rfl hflag
  | term =>
    cases hform
    exact .escapeTerm (fun c hc => isTermChar_of_not_needsEscape hc) value
  | dateRange =>
    obtain ⟨low, high, rfl, hlow, hhigh⟩ := exists_of_dateRangeValue hform
    exact run_rangeText hlow hhigh
  | numericRange =>
    obtain ⟨low, high, rfl, hlow, hhigh⟩ := exists_of_numericRangeValue hform
    exact run_rangeText hlow hhigh

namespace Descriptor

variable {scope : Namespace} {kind : FilterType} {d : Descriptor}
  (hd : Descriptor.of? scope kind = some d) {languages : List Text} {field : Text}
  (hfield : field ∈ d.fields.expanded languages)

include hd hfield

theorem run_field (htext : d.kind ≠ .text) (hflag : d.kind ≠ .flag) : termLexis.Run field := by
  apply Lexis.Run.of_plain
  intro c hc
  exact isTermChar_of_not_needsEscape ((plain_of_mem_expanded hd htext hflag hfield).2 c hc)

theorem field_of_flag (hflag : d.kind = .flag) :
    field = "front_b:1".toList ∨ field = "content_length_i:[1 TO *]".toList := by
  cases kind <;> cases scope <;> cases hd <;> simp_all [onFields, Fields.expanded]

theorem isOperand_of_flag (hflag : d.kind = .flag) : termAtoms.IsOperand field := by
  rcases field_of_flag hd hfield hflag with rfl | rfl
  · exact ⟨⟨by decide, termLexis_run_of_all (by decide)⟩, by decide⟩
  · have hlength : termLexis.Run "content_length_i:".toList := termLexis_run_of_all (by decide)
    have hrange : termLexis.Run "[1 TO *]".toList :=
      @run_rangeText "1".toList "*".toList (by decide) (by decide)
    exact ⟨⟨by decide, hlength.append hrange⟩, by decide⟩

/-- **Clauses of terms, ranges and flags are operands.** -/
theorem isOperand_clauseText (htext : d.kind ≠ .text) {precision : Option Precision}
    {value form : Text} (hform : d.kind.queryForm precision value = .ok form) :
    termAtoms.IsOperand (d.kind.clauseText field form) := by
  by_cases hflag : d.kind = .flag
  · rw [hflag]
    exact isOperand_of_flag hd hfield hflag
  · have hrunField := run_field hd hfield htext hflag
    have hform := run_queryForm htext hflag hform
    have hcolon : termLexis.IsPiece [':'] := .plain (by decide : isTermChar ':' = true)
    rw [ValueKind.clauseText_eq hflag]
    refine ⟨⟨by simp, ?_⟩, notMem_keywords_of_colon (by simp)⟩
    exact hrunField.append (.piece hcolon hform)

end Descriptor

/-! ### Compiled queries -/

/-- **Queries without free text mean what the filters say.** If all types of a list test terms,
ranges or flags in a collection, then the query that is compiled for the list parses in exactly one
way, and under every assignment that makes the universal token true it is true exactly when all the
filters are. -/
theorem reads_termQuery {filters : List Filter} {scope : Namespace} {settings : Settings}
    {text : Text} (huniversal : termAtoms.IsOperand settings.universalQuery)
    (hkinds : ∀ f ∈ filters, ∃ d, Descriptor.of? scope f.type = some d ∧ d.kind ≠ .text)
    (htext : compileExpression filters scope settings = .ok text) :
    ∃ e, (∀ e', Parses termAtoms text e' ↔ e' = e) ∧
      ∀ holds, holds settings.universalQuery = true →
        e.eval holds = filters.all fun f => f.isTrueIn scope settings holds := by
  apply reads_compileExpression huniversal _ htext
  intro f hf d hd g _ value _ form hform field hfield
  obtain ⟨d', hd', hkind⟩ := hkinds f hf
  obtain rfl := Option.some.inj (hd'.symm.trans hd)
  exact Descriptor.isOperand_clauseText hd hfield hkind hform

/-- Two unwanted newspapers, one with special characters in its name, a flag and two bounds. -/
def mixedTerms : List Filter :=
  [{ type := .newspaper, context := .excluded, q := some (.many ["GDL", "a (b"]) },
    { type := .hasTextContents },
    { type := .contentLength, q := some (.many ["1", "20"]) }]

def mixedTermsText : Text :=
  "(NOT (meta_journal_s:GDL OR meta_journal_s:a\\ \\(b) AND content_length_i:[1 TO *] AND " ++
    "content_length_i:[1 TO 20])"

theorem reads_termQuery_mixedTerms :
    termAtoms.IsOperand ({} : Settings).universalQuery ∧
    (∀ f ∈ mixedTerms, ∃ d, Descriptor.of? .search f.type = some d ∧ d.kind ≠ .text) ∧
    compileExpression mixedTerms .search {} = .ok mixedTermsText ∧
    ∃ e, (∀ e', Parses termAtoms mixedTermsText e' ↔ e' = e) ∧
      ∀ holds, holds ({} : Settings).universalQuery = true →
        e.eval holds = mixedTerms.all fun f => f.isTrueIn .search {} holds := by
  have huniversal : termAtoms.IsOperand ({} : Settings).universalQuery :=
    ⟨⟨by decide, termLexis_run_of_all (by decide)⟩, by decide⟩
  have hkinds : ∀ f ∈ mixedTerms, ∃ d, Descriptor.of? .search f.type = some d ∧ d.kind ≠ .text := by
    simp only [mixedTerms, List.forall_mem_cons, List.not_mem_nil, IsEmpty.forall_iff, implies_true,
      and_true]
    exact ⟨⟨_, rfl, by decide⟩, ⟨_, rfl, by decide⟩, ⟨_, rfl, by decide⟩⟩
  have htext : compileExpression mixedTerms .search {} = .ok mixedTermsText := by decide +kernel
  exact ⟨huniversal, hkinds, htext, reads_termQuery huniversal hkinds htext⟩

end FilterAlgebra
