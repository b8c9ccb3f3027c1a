import FilterAlgebra.Proofs.Relevance.QuotedArguments

/-!
# Blanks outside quoted regions

A quote begins a region of a formula, and the next quote that no backslash takes with it ends the
region. Outside of regions a backslash is a character like any other, and the last region may have
no end. Each text is divided in this way (`DividedFormula`), and in no other.

The blanks that are taken out of a formula are exactly those outside its regions
(`normalizeFormula_text`). So the division of what is left is known, and taking blanks out again
changes nothing. A text in two parts can be dealt with part by part if the first part ends outside
its regions, and only then: behind a region without an end, a blank is kept
(`forall_normalizeFormula_append_iff`).
-/

namespace FilterAlgebra

open FormulaTree

/-! ### Regions without an end -/

/-- Whether no quote ends a region with this text: a quote would end it behind whole pieces only. -/
def IsUnended (body : Text) : Prop :=
  ∀ before after, body = before ++ '\x27' :: after → ¬stringLexis.Run before

/-- Behind its whole pieces a text has a quote, or a last backslash that escapes nothing, or
nothing. -/
theorem exists_run_append : ∀ s : Text, ∃ run rest, stringLexis.Run run ∧ s = run ++ rest ∧
    (rest = [] ∨ rest = ['\\'] ∨ ∃ after, rest = '\x27' :: after)
  | [] => ⟨[], [], .nil, rfl, .inl rfl⟩
  | c :: s => by
    by_cases hquote : c = '\x27'
    · exact ⟨[], c :: s, .nil, rfl, .inr (.inr ⟨s, by rw [hquote]⟩)⟩
    by_cases hbackslash : c = '\\'
    · subst hbackslash
      rcases s with - | ⟨d, s⟩
      · exact ⟨[], ['\\'], .nil, rfl, .inr (.inl rfl)⟩
      · obtain ⟨run, rest, hrun, rfl, hrest⟩ := exists_run_append s
        exact ⟨'\\' :: d :: run, rest, .piece (.escaped d) hrun, rfl, hrest⟩
    · have hpiece : stringLexis.IsPiece [c] := .plain ⟨hquote, hbackslash⟩
      obtain ⟨run, rest, hrun, rfl, hrest⟩ := exists_run_append s
      exact ⟨c :: run, rest, .piece hpiece hrun, rfl, hrest⟩

namespace IsUnended

variable {body : Text} (h : IsUnended body)

include h

/-- A region without an end is kept whole. -/
theorem normalizeFrom_inside : normalizeFrom .inside body = body := by
  obtain ⟨run, rest, hrun, rfl, hrest⟩ := exists_run_append body
  rw [FormulaTree.normalizeFrom_inside hrun]
  rcases hrest with rfl | rfl | ⟨after, rfl⟩
  · rfl
  · rfl
  · exact absurd hrun (h run after rfl)

/-- A character that is no quote does not end a region. -/
theorem concat {c : Char} (hc : c ≠ '\x27') : IsUnended (body ++ [c]) := by
  intro before after hsplit
  rcases List.eq_nil_or_concat after with rfl | ⟨after, d, rfl⟩
  · have hlast := List.append_inj_right' hsplit rfl
    exact absurd (List.cons.inj hlast).1 hc
  · rw [List.concat_eq_append, ← List.cons_append, ← List.append_assoc] at hsplit
    exact h before after (List.append_inj_left' hsplit rfl)

end IsUnended

/-- Whether a text is empty or a region without an end. -/
inductive IsTail : Text → Prop where
  | empty : IsTail []
  | region {body : Text} (h : IsUnended body) : IsTail ('\x27' :: body)

namespace IsTail

variable {s : Text} (h : IsTail s)

include h

theorem normalizeFormula_eq_self : normalizeFormula s = s := by
  cases h with
  | empty => rfl
  | @region body hbody =>
    change '\x27' :: normalizeFrom .inside body = '\x27' :: body
    rw [hbody.normalizeFrom_inside]

/-- No whole piece begins with a region without an end. -/
theorem ne_text_append {t : FormulaToken} (ht : t.IsWhole) (r : Text) : s ≠ t.text ++ r := by
  intro heq
  cases h with
  | empty => cases t <;> cases heq
  | region hbody =>
    cases t with
    | mark c => exact ht (List.cons.inj heq).1.symm
    | argument body =>
      rw [FormulaToken.text, List.cons_append, List.append_assoc] at heq
      exact hbody body r (List.cons.inj heq).2 ht

theorem concat (hne : s ≠ []) {c : Char} (hc : c ≠ '\x27') : IsTail (s ++ [c]) := by
  cases h with
  | empty => exact absurd rfl hne
  | region hbody => exact .region (hbody.concat hc)

end IsTail

/-! ### Divided formulas -/

/-- A formula divided at its quotes. -/
structure DividedFormula where
  /-- The characters outside regions, and the regions that end. -/
  tokens : List FormulaToken
  /-- The last region, if it has no end. -/
  tail : Text
  isWhole : ∀ t ∈ tokens, t.IsWhole
  isTail : IsTail tail

namespace DividedFormula

def text (d : DividedFormula) : Text := d.tokens.flatMap FormulaToken.text ++ d.tail

theorem text_of_tail_eq_nil (d : DividedFormula) (h : d.tail = []) :
    d.text = d.tokens.flatMap FormulaToken.text := by
  rw [text, h, List.append_nil]

/-- The division without the blanks outside regions. -/
def withoutBlanks (d : DividedFormula) : DividedFormula where
  tokens := d.tokens.filter FormulaToken.isKept
  tail := d.tail
  isWhole t ht := d.isWhole t (List.mem_of_mem_filter ht)
  isTail := d.isTail

theorem withoutBlanks_withoutBlanks (d : DividedFormula) :
    d.withoutBlanks.withoutBlanks = d.withoutBlanks := by
  simp only [withoutBlanks, List.filter_filter, Bool.and_self]

/-! ### Each text is divided -/

/-- A division with one more piece in front. -/
def cons {t : FormulaToken} (ht : t.IsWhole) (d : DividedFormula) : DividedFormula where
  tokens := t :: d.tokens
  tail := d.tail
  isWhole := List.forall_mem_cons.mpr ⟨ht, d.isWhole⟩
  isTail := d.isTail

theorem text_cons {t : FormulaToken} (ht : t.IsWhole) (d : DividedFormula) :
    (cons ht d).text = t.text ++ d.text := by
  rw [text, cons, List.flatMap_cons, List.append_assoc]
  rfl

theorem exists_text_eq : ∀ s : Text, ∃ d : DividedFormula, d.text = s
  | [] => ⟨⟨[], [], nofun, .empty⟩, rfl⟩
  | c :: s => by
    by_cases hquote : c = '\x27'
    · subst hquote
      -- the quote begins an argument if a quote behind it ends one, and otherwise the tail
      by_cases hends : ∃ body after, s = body ++ '\x27' :: after ∧ stringLexis.Run body
      · obtain ⟨body, after, hs, hbody⟩ := hends
        obtain ⟨d, hd⟩ := exists_text_eq after
        have hwhole : (FormulaToken.argument body).IsWhole := hbody
        refine ⟨cons hwhole d, ?_⟩
        rw [text_cons, hd, hs, FormulaToken.text, List.cons_append, List.append_assoc,
          List.singleton_append]
      · have hunended : IsUnended s := fun body after hs hbody => hends ⟨body, after, hs, hbody⟩
        exact ⟨⟨[], '\x27' :: s, nofun, .region hunended⟩, rfl⟩
    · obtain ⟨d, rfl⟩ := exists_text_eq s
      have hwhole : (FormulaToken.mark c).IsWhole := hquote
      exact ⟨cons hwhole d, text_cons hwhole d⟩
termination_by s => s.length
decreasing_by
  · rw [hs]
    simp only [List.length_cons, List.length_append]
    omega
  · exact Nat.lt_succ_self _

/-! ### In one way only -/

/-- The text settles with which piece it begins. -/
theorem token_eq_of_append {t t' : FormulaToken} {r r' : Text} (h : t.IsWhole) (h' : t'.IsWhole)
    (heq : t.text ++ r = t'.text ++ r') : t = t' := by
  cases t with
  | mark c =>
    cases t' with
    | mark c' => rw [(List.cons.inj heq).1]
    | argument body' => exact absurd (List.cons.inj heq).1 h
  | argument body =>
    cases t' with
    | mark c' => exact absurd (List.cons.inj heq).1.symm h'
    | argument body' =>
      simp only [FormulaToken.text, List.cons_append, List.append_assoc, List.cons.injEq,
        true_and] at heq
      rw [Lexis.Run.eq_of_append h h' (stringLexis_stops _) (stringLexis_stops _) heq]

theorem tokens_eq_of_append {tokens tokens' : List FormulaToken} {r r' : Text}
    (h : ∀ t ∈ tokens, t.IsWhole) (h' : ∀ t ∈ tokens', t.IsWhole) (hr : IsTail r) (hr' : IsTail r')
    (heq : tokens.flatMap FormulaToken.text ++ r = tokens'.flatMap FormulaToken.text ++ r') :
    tokens = tokens' := by
  -- the first piece is settled by the text, and a tail is told from texts that have one
  induction tokens generalizing tokens' with
  | nil =>
    cases tokens' with
    | nil => rfl
    | cons t' tokens' =>
      rw [List.flatMap_cons, List.append_assoc] at heq
      exact absurd heq (hr.ne_text_append (h' t' List.mem_cons_self) _)
  | cons t tokens ih =>
    obtain ⟨ht, htokens⟩ := List.forall_mem_cons.mp h
    rw [List.flatMap_cons, List.append_assoc] at heq
    cases tokens' with
    | nil => exact absurd heq.symm (hr'.ne_text_append ht _)
    | cons t' tokens' =>
      obtain ⟨ht', htokens'⟩ := List.forall_mem_cons.mp h'
      rw [List.flatMap_cons, List.append_assoc] at heq
      obtain rfl := token_eq_of_append ht ht' heq
      rw [ih htokens htokens' (List.append_cancel_left heq)]

theorem text_injective : Function.Injective text := by
  rintro ⟨tokens, tail, hwhole, htail⟩ ⟨tokens', tail', hwhole', htail'⟩ heq
  obtain rfl := tokens_eq_of_append hwhole hwhole' htail htail' heq
  obtain rfl := List.append_cancel_left heq
  rfl

/-! ### Blanks -/

/-- Exactly the blanks outside regions are taken out. -/
theorem normalizeFormula_text (d : DividedFormula) :
    normalizeFormula d.text = d.withoutBlanks.text := by
  have htail : normalizeFrom .outside d.tail = d.tail := d.isTail.normalizeFormula_eq_self
  rw [normalizeFormula, text, normalizeFrom_flatMap_text d.isWhole, htail]
  rfl

/-- What follows a text can be dealt with by itself just when the text ends outside its regions. -/
theorem forall_normalizeFormula_append_iff (d : DividedFormula) :
    (∀ r, normalizeFormula (d.text ++ r) = normalizeFormula d.text ++ normalizeFormula r) ↔
      d.tail = [] := by
  constructor
  · intro h
    by_contra hne
    -- a blank behind a region without an end is kept, alone it is taken out
    have hblank : IsTail (d.tail ++ [' ']) := d.isTail.concat hne (by decide)
    have hlonger := normalizeFormula_text { d with tail := d.tail ++ [' '], isTail := hblank }
    have hsplit := h [' ']
    rw [normalizeFormula_text] at hsplit
    simp only [text, withoutBlanks, ← List.append_assoc] at hlonger hsplit
    rw [hlonger] at hsplit
    cases List.append_cancel_left hsplit
  · intro h r
    have hkept : normalizeFormula d.text =
        (d.tokens.filter FormulaToken.isKept).flatMap FormulaToken.text :=
      d.normalizeFormula_text.trans (d.withoutBlanks.text_of_tail_eq_nil h)
    rw [hkept, d.text_of_tail_eq_nil h]
    exact normalizeFrom_flatMap_text d.isWhole r

end DividedFormula

/-- **Blanks outside quoted regions.** Each text is divided in exactly one way. Taking the blanks
out of it leaves this division without the blanks outside its regions, so that taking them out again
changes nothing. What follows the text can be dealt with by itself exactly when the text ends
outside its regions. -/
theorem normalizeFormula_dropsOuterBlanks (s : Text) :
    ∃ d : DividedFormula, (∀ e : DividedFormula, e.text = s ↔ e = d) ∧
      normalizeFormula s = d.withoutBlanks.text ∧
      normalizeFormula (normalizeFormula s) = normalizeFormula s ∧
      ((∀ r, normalizeFormula (s ++ r) = normalizeFormula s ++ normalizeFormula r) ↔
        d.tail = []) := by
  obtain ⟨d, rfl⟩ := DividedFormula.exists_text_eq s
  refine ⟨d, ?_, d.normalizeFormula_text, ?_, d.forall_normalizeFormula_append_iff⟩
  · intro e
    exact DividedFormula.text_injective.eq_iff
  · rw [d.normalizeFormula_text, d.withoutBlanks.normalizeFormula_text,
      d.withoutBlanks_withoutBlanks]

/-- A backslash outside of regions does not keep a quote from beginning one. -/
example : normalizeFormula "f( \\ 'a \\' b' , 'c d" = "f(\\'a \\' b','c d" := by decide +kernel

end FilterAlgebra
