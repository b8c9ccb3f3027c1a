import FilterAlgebra.Proofs.Query.ClosedPhrases
import FilterAlgebra.Proofs.Relevance.Structure

/-!
# Quoted arguments

The text of a formula is read piece by piece (`formulaTokens?`), by the rule by which its blanks are
taken out: a quote begins an argument, in which a backslash takes the next character with it, and
the next quote ends it. A text should be quoted so that it is one argument, whatever it is, and so
that the argument gives it back.

Quoting puts a backslash before each quote of a text and leaves the backslashes of the text alone.
So these have a say in it: an odd number of them in front of a quote lets the quote end the
argument, and an odd number at the end lets it go on. Where all are even in number (`ClosesAtEnd`),
the text is one argument (`run_stringChars_iff`), but reading it takes backslashes away
(`unescape_stringChars_iff`). The queries for clusters have gone through another escape before,
which makes the numbers even (`unescape_clusterQuery`).

The pieces of an item are its quoted texts and, besides these, names, numbers and signs only
(`RelevanceItem.allTokens_formula`). So the text of an item is read as its pieces exactly when each
quoted text closes at its end (`formulaTokens?_formulaText`).
-/

namespace FilterAlgebra

open FormulaTree

/-! ### Reading a formula -/

/-- A piece of a formula: a character outside its arguments, or a quoted argument as a whole. -/
inductive FormulaToken where
  | mark (c : Char)
  | argument (body : Text)
  deriving DecidableEq, Repr

/-- The pieces of a text from a state of the scan: what is left of the argument that the text begins
in, and the pieces behind it. A text that ends inside an argument has none. -/
def tokensFrom? (state : QuoteState) : Text → Option (Text × List FormulaToken)
  | [] => if state = .outside then some ([], []) else none
  | c :: rest =>
    (tokensFrom? (state.next c) rest).map fun (body, tokens) =>
      match state, state.next c with
      | .outside, .outside => ([], .mark c :: tokens)
      | .outside, _ => ([], .argument body :: tokens)
      | _, .outside => ([], tokens)
      | _, _ => (c :: body, tokens)

/-- The pieces of a formula, if each of its arguments ends. -/
def formulaTokens? (formula : Text) : Option (List FormulaToken) :=
  (tokensFrom? .outside formula).map Prod.snd

namespace FormulaToken

def text : FormulaToken → Text
  | mark c => [c]
  | argument body => '\x27' :: (body ++ ['\x27'])

/-- Whether the piece is read back from its text: a character is neither a blank nor a quote, and an
argument ends at its last quote. -/
def IsTidy : FormulaToken → Prop
  | mark c => IsPunctual c
  | argument body => stringLexis.Run body

/-- Whether the piece, if it is an argument, ends at its last quote. -/
def IsClosed : FormulaToken → Prop
  | mark _ => True
  | argument body => stringLexis.Run body

/-- Whether the piece is one piece of its text, blank or not: a character is no quote, and an
argument ends at its last quote. -/
def IsWhole : FormulaToken → Prop
  | mark c => c ≠ '\x27'
  | argument body => stringLexis.Run body

/-- Whether the piece is left when the blanks outside arguments are taken out. -/
def isKept : FormulaToken → Bool
  | mark c => !isBlank c
  | argument _ => true

theorem IsTidy.isWhole {t : FormulaToken} (h : t.IsTidy) : t.IsWhole := by
  cases t with
  | mark c => exact h.2
  | argument body => exact h

theorem IsTidy.isKept {t : FormulaToken} (h : t.IsTidy) : t.isKept = true := by
  cases t with
  | mark c => rw [FormulaToken.isKept, h.1, Bool.not_false]
  | argument body => rfl

end FormulaToken

/-! ### Steps of the reader -/

theorem tokensFrom?_mark {c : Char} (h : c ≠ '\x27') (rest : Text) :
    tokensFrom? .outside (c :: rest) =
      (tokensFrom? .outside rest).map fun read => ([], .mark c :: read.2) := by
  have hnext : QuoteState.outside.next c = .outside := if_neg h
  rw [tokensFrom?, hnext]

theorem tokensFrom?_open (rest : Text) :
    tokensFrom? .outside ('\x27' :: rest) =
      (tokensFrom? .inside rest).map fun read => ([], .argument read.1 :: read.2) :=
  rfl

theorem tokensFrom?_close (rest : Text) :
    tokensFrom? .inside ('\x27' :: rest) =
      (tokensFrom? .outside rest).map fun read => ([], read.2) :=
  rfl

theorem tokensFrom?_inside {c : Char} (hquote : c ≠ '\x27') (hbackslash : c ≠ '\\') (rest : Text) :
    tokensFrom? .inside (c :: rest) =
      (tokensFrom? .inside rest).map fun read => (c :: read.1, read.2) := by
  have hnext : QuoteState.inside.next c = .inside := (if_neg hquote).trans (if_neg hbackslash)
  rw [tokensFrom?, hnext]

theorem tokensFrom?_backslash (rest : Text) :
    tokensFrom? .inside ('\\' :: rest) =
      (tokensFrom? .escaped rest).map fun read => ('\\' :: read.1, read.2) :=
  rfl

theorem tokensFrom?_escaped (c : Char) (rest : Text) :
    tokensFrom? .escaped (c :: rest) =
      (tokensFrom? .inside rest).map fun read => (c :: read.1, read.2) :=
  rfl

theorem tokensFrom?_argument {body : Text} (h : stringLexis.Run body) (r : Text) :
    tokensFrom? .inside (body ++ '\x27' :: r) =
      (tokensFrom? .outside r).map fun read => (body, read.2) := by
  induction h with
  | nil => exact tokensFrom?_close r
  | piece hpiece _ ih =>
    cases hpiece with
    | plain hc =>
      -- a character of the argument by itself
      rw [List.append_assoc, List.singleton_append, tokensFrom?_inside hc.1 hc.2, ih,
        Option.map_map]
      rfl
    | escaped c =>
      -- two characters, behind which the argument goes on
      rw [List.append_assoc, List.cons_append, List.singleton_append, tokensFrom?_backslash,
        tokensFrom?_escaped, ih, Option.map_map, Option.map_map]
      rfl
    | block hs => exact hs.elim

/-! ### Blanks outside arguments -/

/-- A whole piece is kept as it is or taken out, and the scan goes on outside of arguments. -/
theorem normalizeFrom_text_append {t : FormulaToken} (h : t.IsWhole) (r : Text) :
    normalizeFrom .outside (t.text ++ r) =
      (if t.isKept then t.text else []) ++ normalizeFrom .outside r := by
  cases t with
  | mark c =>
    rw [FormulaToken.text, FormulaToken.isKept, List.singleton_append]
    by_cases hc : isBlank c = true
    · have hnext : QuoteState.outside.next c = .outside := if_neg h
      rw [hc, normalizeFrom, if_pos ⟨rfl, hc⟩, hnext]
      rfl
    · rw [Bool.not_eq_true] at hc
      rw [hc, normalizeFrom_punctual ⟨hc, h⟩]
      rfl
  | argument body =>
    rw [FormulaToken.text, FormulaToken.isKept, if_pos rfl, List.cons_append, List.append_assoc,
      List.singleton_append, normalizeFrom_string h, List.cons_append, List.append_assoc,
      List.singleton_append]

/-- Of whole pieces exactly the blanks outside arguments are taken out. -/
theorem normalizeFrom_flatMap_text {tokens : List FormulaToken} (h : ∀ t ∈ tokens, t.IsWhole)
    (r : Text) : normalizeFrom .outside (tokens.flatMap FormulaToken.text ++ r) =
      (tokens.filter FormulaToken.isKept).flatMap FormulaToken.text ++
        normalizeFrom .outside r := by
  induction tokens with
  | nil => rfl
  | cons t tokens ih =>
    obtain ⟨ht, htokens⟩ := List.forall_mem_cons.mp h
    rw [List.flatMap_cons, List.append_assoc, normalizeFrom_text_append ht, ih htokens,
      List.filter_cons]
    split
    · rw [List.flatMap_cons, List.append_assoc]
    · rw [List.nil_append]

/-! ### Tidy pieces are read back -/

section Tidy

variable {tokens : List FormulaToken} (h : ∀ t ∈ tokens, t.IsTidy)

include h

theorem formulaTokens?_flatMap_text :
    formulaTokens? (tokens.flatMap FormulaToken.text) = some tokens := by
  have hread : tokensFrom? .outside (tokens.flatMap FormulaToken.text) = some ([], tokens) := by
    induction tokens with
    | nil => rfl
    | cons t tokens ih =>
      obtain ⟨ht, htokens⟩ := List.forall_mem_cons.mp h
      rw [List.flatMap_cons]
      cases t with
      | mark c =>
        rw [FormulaToken.text, List.singleton_append, tokensFrom?_mark ht.2, ih htokens]
        rfl
      | argument body =>
        rw [FormulaToken.text, List.cons_append, List.append_assoc, List.singleton_append,
          tokensFrom?_open, tokensFrom?_argument ht, ih htokens]
        rfl
  rw [formulaTokens?, hread]
  rfl

theorem normalizeFormula_flatMap_text :
    normalizeFormula (tokens.flatMap FormulaToken.text) = tokens.flatMap FormulaToken.text := by
  have hkept : tokens.filter FormulaToken.isKept = tokens :=
    List.filter_eq_self.mpr fun t ht => (h t ht).isKept
  have hnormal := normalizeFrom_flatMap_text (fun t ht => (h t ht).isWhole) []
  rwa [normalizeFrom, List.append_nil, List.append_nil, hkept] at hnormal

end Tidy

/-! ### What is read is tidy -/

/-- What is left of an argument in a state of the scan. -/
def QuoteState.IsRest (state : QuoteState) (body : Text) : Prop :=
  match state with
  | outside => body = []
  | inside => stringLexis.Run body
  | escaped => ∃ c rest, body = c :: rest ∧ stringLexis.Run rest

/-- The text of what is left of an argument in a state of the scan. -/
def QuoteState.restText (state : QuoteState) (body : Text) : Text :=
  match state with
  | outside => []
  | inside | escaped => body ++ ['\x27']

/-- What is read is what the text is made of, and all arguments in it are closed. -/
theorem of_tokensFrom? {state : QuoteState} {s body : Text} {tokens : List FormulaToken}
    (h : tokensFrom? state s = some (body, tokens)) :
    state.IsRest body ∧ (∀ t ∈ tokens, t.IsClosed) ∧
      s = state.restText body ++ tokens.flatMap FormulaToken.text := by
  induction s generalizing state body tokens with
  | nil =>
    cases state with
    | outside =>
      cases h
      exact ⟨rfl, fun _ ht => absurd ht List.not_mem_nil, rfl⟩
    | inside => cases h
    | escaped => cases h
  | cons c rest ih =>
    rw [tokensFrom?, Option.map_eq_some_iff] at h
    obtain ⟨⟨left, later⟩, hread, hresult⟩ := h
    obtain ⟨hleft, hlater, rfl⟩ := ih hread
    cases state with
    | outside =>
      by_cases hquote : c = '\x27'
      · -- the quote begins an argument, and what was left of that is its body
        subst hquote
        cases hresult
        refine ⟨rfl, List.forall_mem_cons.mpr ⟨hleft, hlater⟩, ?_⟩
        rw [List.flatMap_cons]
        rfl
      · -- a character outside of arguments
        have hnext : QuoteState.outside.next c = .outside := if_neg hquote
        rw [hnext] at hresult ⊢
        cases hresult
        refine ⟨rfl, List.forall_mem_cons.mpr ⟨trivial, hlater⟩, ?_⟩
        rw [List.flatMap_cons]
        rfl
    | inside =>
      by_cases hquote : c = '\x27'
      · -- the quote ends the argument
        subst hquote
        cases hresult
        exact ⟨.nil, hlater, rfl⟩
      · by_cases hbackslash : c = '\\'
        · -- the backslash makes a piece with the character behind it
          subst hbackslash
          cases hresult
          obtain ⟨d, rest, rfl, hrun⟩ := hleft
          exact ⟨.piece (.escaped d) hrun, hlater, rfl⟩
        · -- a character of the argument
          have hnext : QuoteState.inside.next c = .inside :=
            (if_neg hquote).trans (if_neg hbackslash)
          have hpiece : stringLexis.IsPiece [c] := .plain ⟨hquote, hbackslash⟩
          rw [hnext] at hleft hresult ⊢
          cases hresult
          exact ⟨.piece hpiece hleft, hlater, rfl⟩
    | escaped =>
      cases hresult
      -- the character that the backslash takes, whatever it is
      exact ⟨⟨c, left, rfl, hleft⟩, hlater, rfl⟩

/-! ### Backslashes that are even in number -/

/-- Whether the backslashes in front of each quote of a text, and those at its end, are even in
number. -/
def ClosesAtEnd (s : Text) : Prop :=
  ∀ before after, s = before ++ after → (after = [] ∨ after.head? = some '\x27') →
    finalBackslashes before % 2 = 0

/-- Whether neither a quote of a text is escaped by what stands before it nor what follows the text,
where `escaped` tells whether the first character is. -/
def LeavesQuotes (escaped : Bool) (s : Text) : Prop :=
  ∀ before after, s = before ++ after → (after = [] ∨ after.head? = some '\x27') →
    escapesNext escaped before = false

theorem leavesQuotes_false_iff (s : Text) : LeavesQuotes false s ↔ ClosesAtEnd s := by
  unfold LeavesQuotes ClosesAtEnd
  simp only [escapesNext_eq, decide_eq_false_iff_not, Nat.mod_two_not_eq_one]

theorem leavesQuotes_nil (escaped : Bool) : LeavesQuotes escaped [] ↔ escaped = false := by
  constructor
  · intro h
    exact h [] [] rfl (.inl rfl)
  · intro h before after hsplit _
    rw [(List.append_eq_nil_iff.mp hsplit.symm).1]
    exact h

theorem leavesQuotes_cons (escaped : Bool) (c : Char) (s : Text) : LeavesQuotes escaped (c :: s) ↔
    (c = '\x27' → escaped = false) ∧ LeavesQuotes (c = '\\' && !escaped) s := by
  constructor
  · intro h
    refine ⟨fun hc => h [] (c :: s) rfl (.inr (congrArg some hc)), ?_⟩
    intro before after hsplit hafter
    exact h (c :: before) after (congrArg (c :: ·) hsplit) hafter
  · rintro ⟨hc, hs⟩ before after hsplit hafter
    rcases before with - | ⟨d, before⟩
    · -- the quote is the first character itself
      rw [List.nil_append] at hsplit
      rcases hafter with rfl | hafter
      · cases hsplit
      · rw [← hsplit] at hafter
        exact hc (Option.some.inj hafter)
    · -- a quote behind the first character, or the end
      obtain ⟨rfl, hrest⟩ := List.cons.inj hsplit
      exact hs before after hrest hafter

theorem run_escaped_iff (c : Char) (s : Text) :
    stringLexis.Run ('\\' :: c :: s) ↔ stringLexis.Run s :=
  Lexis.Run.piece_append_iff (.escaped c)

theorem run_plain_iff {c : Char} (hquote : c ≠ '\x27') (hbackslash : c ≠ '\\') (s : Text) :
    stringLexis.Run (c :: s) ↔ stringLexis.Run s := by
  have hpiece : stringLexis.IsPiece [c] := .plain ⟨hquote, hbackslash⟩
  exact Lexis.Run.piece_append_iff hpiece

theorem not_run_quote (s : Text) : ¬stringLexis.Run ('\x27' :: s) :=
  fun h => stringLexis_stops s '\x27' s rfl h.begins

theorem not_run_backslash : ¬stringLexis.Run ['\\'] := by
  intro h
  generalize hs : ['\\'] = s at h
  cases h with
  | nil => cases hs
  | piece hpiece _ =>
    cases hpiece with
    | plain hc => exact hc.2 (List.cons.inj hs).1.symm
    | escaped => cases (List.cons.inj hs).2
    | block hblock => exact hblock

/-- Whether a text is a run when its quotes are escaped, alone and behind a backslash. -/
theorem run_stringChars_iff (s : Text) :
    (stringLexis.Run (s.flatMap stringChar) ↔ LeavesQuotes false s) ∧
      (stringLexis.Run ('\\' :: s.flatMap stringChar) ↔ LeavesQuotes true s) := by
  induction s with
  | nil =>
    rw [leavesQuotes_nil, leavesQuotes_nil]
    exact ⟨iff_of_true .nil rfl, iff_of_false not_run_backslash nofun⟩
  | cons c s ih =>
    obtain ⟨ihPlain, ihEscaped⟩ := ih
    rw [leavesQuotes_cons, leavesQuotes_cons, List.flatMap_cons]
    by_cases hquote : c = '\x27'
    · -- the backslash of the quote takes the quote with it, unless it is itself taken
      have hcode : stringChar c ++ s.flatMap stringChar =
          '\\' :: '\x27' :: s.flatMap stringChar := by
        rw [hquote]
        rfl
      rw [hcode, run_escaped_iff, run_escaped_iff, ihPlain]
      simp [hquote, not_run_quote]
    · have hcode : stringChar c ++ s.flatMap stringChar = c :: s.flatMap stringChar := by
        rw [stringChar, if_neg hquote]
        rfl
      rw [hcode, run_escaped_iff, ihPlain]
      by_cases hbackslash : c = '\\'
      · rw [hbackslash, ihEscaped]
        simp
      · rw [run_plain_iff hquote hbackslash, ihPlain]
        simp [hquote, hbackslash]

theorem run_stringChars_iff_closesAtEnd (s : Text) :
    stringLexis.Run (s.flatMap stringChar) ↔ ClosesAtEnd s :=
  (run_stringChars_iff s).1.trans (leavesQuotes_false_iff s)

/-! ### Quoted texts -/

/-- A quoted text is read as one argument just when that is its body with its quotes escaped. -/
theorem formulaTokens?_quoteArgument (s body : Text) :
    formulaTokens? (quoteArgument s) = some [.argument body] ↔
      body = s.flatMap stringChar ∧ ClosesAtEnd s := by
  rw [← run_stringChars_iff_closesAtEnd]
  constructor
  · intro h
    obtain ⟨⟨left, tokens⟩, hread, rfl⟩ := Option.map_eq_some_iff.mp h
    obtain ⟨-, hclosed, htext⟩ := of_tokensFrom? hread
    rw [List.flatMap_singleton] at htext
    change '\x27' :: (s.flatMap stringChar ++ ['\x27']) = '\x27' :: (body ++ ['\x27']) at htext
    obtain rfl := List.append_cancel_right (List.cons.inj htext).2
    exact ⟨rfl, hclosed _ List.mem_cons_self⟩
  · rintro ⟨rfl, hrun⟩
    have htidy : ∀ t ∈ [FormulaToken.argument (s.flatMap stringChar)], t.IsTidy :=
      List.forall_mem_singleton.mpr hrun
    have hread := formulaTokens?_flatMap_text htidy
    rwa [List.flatMap_singleton] at hread

/-- In a run each quote stands behind a backslash that is taken away. -/
theorem count_unescape_le {body : Text} (h : stringLexis.Run body) :
    body.count '\\' + 2 * body.count '\x27' + 3 * (unescape body).length ≤ 3 * body.length := by
  induction h with
  | nil => exact Nat.le_refl 0
  | @piece s t hpiece _ ih =>
    rw [List.count_append, List.count_append, List.length_append]
    cases hpiece with
    | @plain c hc =>
      -- neither a quote nor a backslash
      rw [(Stands.plain hc.1 hc.2).unescape_append, List.length_cons, List.count_singleton,
        List.count_singleton, List.length_singleton]
      simp only [beq_iff_eq, hc.1, hc.2, if_false]
      omega
    | escaped c =>
      -- the pair has one backslash, and a second one or a quote at most
      have hpair : ['\\', c].count '\\' + 2 * ['\\', c].count '\x27' ≤ 3 := by
        by_cases hquote : c = '\x27'
        · rw [hquote]
          decide
        · by_cases hbackslash : c = '\\' <;> simp [hquote, hbackslash]
      rw [Stands.escaped.unescape_append, List.length_cons, List.length_cons,
        List.length_singleton]
      omega
    | block hs => exact hs.elim

theorem count_flatMap_stringChar (s : Text) :
    (s.flatMap stringChar).count '\\' = s.count '\\' + s.count '\x27' ∧
      (s.flatMap stringChar).count '\x27' = s.count '\x27' ∧
      (s.flatMap stringChar).length = s.length + s.count '\x27' := by
  induction s with
  | nil => exact ⟨rfl, rfl, rfl⟩
  | cons c s ih =>
    rw [List.flatMap_cons, ← List.singleton_append, List.count_append, List.count_append,
      List.count_append, List.count_append, List.length_append, List.length_append]
    by_cases hquote : c = '\x27'
    · have hcode : stringChar c = ['\\', '\x27'] := by
        rw [hquote]
        rfl
      have hcounts : ['\x27'].count '\x27' = 1 ∧ ['\x27'].count '\\' = 0 ∧
          ['\\', '\x27'].count '\x27' = 1 ∧ ['\\', '\x27'].count '\\' = 1 := by decide
      rw [hcode, hquote, List.length_cons, List.length_singleton]
      omega
    · have hcode : stringChar c = [c] := if_neg hquote
      have hnone : [c].count '\x27' = 0 := List.count_eq_zero.mpr (by simpa using Ne.symm hquote)
      rw [hcode]
      omega

/-- Backslashes are taken away and never come back. -/
theorem unescape_stringChars_iff {s : Text} (h : ClosesAtEnd s) :
    unescape (s.flatMap stringChar) = s ↔ '\\' ∉ s := by
  constructor
  · intro hsame
    have hle := count_unescape_le ((run_stringChars_iff_closesAtEnd s).mpr h)
    obtain ⟨hbackslashes, hquotes, hlength⟩ := count_flatMap_stringChar s
    rw [hsame] at hle
    rw [← List.count_eq_zero]
    omega
  · intro hplain
    exact unescape_flatMap (forall_stands_stringChar hplain)

theorem closesAtEnd_of_notMem {s : Text} (h : '\\' ∉ s) : ClosesAtEnd s := by
  rw [← run_stringChars_iff_closesAtEnd]
  exact run_flatMap (forall_stands_stringChar h)

/-- From the query for a cluster the backslashes of the term are gone as well. -/
theorem unescape_clusterQuery (id : Text) :
    unescape (("cluster_id_ss:" ++ escapeTerm id : Text).flatMap stringChar) =
      "cluster_id_ss:" ++ Text.trim id := by
  have hfield : ∀ s : Text, unescape ("cluster_id_ss:" ++ s) = "cluster_id_ss:" ++ unescape s :=
    fun _ => rfl
  rw [flatMap_clusterQuery, hfield, flatMap_escapeTerm,
    unescape_flatMap fun c _ => stands_termChar c]

/-! ### The pieces of a formula -/

namespace Formula

mutual

/-- The pieces of which a formula should consist: each quoted text is one argument, in which its
quotes are escaped, and all else stands for itself. -/
def tokens : Formula → List FormulaToken
  | atom text => text.map .mark
  | quoted text => [.argument (text.flatMap stringChar)]
  | localQuery text =>
    ("\x7b!v=" : Text).map .mark ++ [.argument (text.flatMap stringChar), .mark '\x7d']
  | call name args =>
    name.map .mark ++
      .mark '(' :: (List.intercalate [.mark ','] (tokensAll args) ++ [.mark ')'])

def tokensAll : List Formula → List (List FormulaToken)
  | [] => []
  | arg :: args => arg.tokens :: tokensAll args

end

theorem tokensAll_eq_map (args : List Formula) : tokensAll args = args.map tokens := by
  induction args with
  | nil => rfl
  | cons arg args ih => rw [tokensAll, ih, List.map_cons]

theorem flatMap_text_map_mark (s : Text) :
    (s.map FormulaToken.mark).flatMap FormulaToken.text = s := by
  induction s with
  | nil => rfl
  | cons c s ih => rw [List.map_cons, List.flatMap_cons, ih]; rfl

theorem flatMap_text_intercalate (parts : List (List FormulaToken)) :
    (List.intercalate [.mark ','] parts).flatMap FormulaToken.text =
      List.intercalate [','] (parts.map (List.flatMap FormulaToken.text)) := by
  cases parts with
  | nil => rfl
  | cons part parts =>
    rw [List.map_cons, Text.intercalate_cons, Text.intercalate_cons, List.flatMap_append,
      List.flatMap_assoc, List.flatMap_map]
    simp only [List.flatMap_append]
    rfl

mutual

/-- A formula is rendered piece by piece. -/
theorem flatMap_text_tokens (f : Formula) : f.tokens.flatMap FormulaToken.text = f.render := by
  cases f with
  | atom text => exact flatMap_text_map_mark text
  | quoted text => exact List.flatMap_singleton FormulaToken.text _
  | localQuery text =>
    rw [tokens, List.flatMap_append, flatMap_text_map_mark, render_localQuery, List.flatMap_cons,
      List.flatMap_singleton]
    change '\x7b' :: '!' :: 'v' :: '=' :: '\x27' :: (_ ++ ['\x27'] ++ ['\x7d']) = _
    rw [List.append_assoc]
    rfl
  | call name args =>
    rw [tokens, render, ← map_flatMap_text_tokensAll args, ← flatMap_text_intercalate,
      List.flatMap_append, flatMap_text_map_mark, List.flatMap_cons, List.flatMap_append]
    rfl

theorem map_flatMap_text_tokensAll (args : List Formula) :
    (tokensAll args).map (List.flatMap FormulaToken.text) = renderAll args := by
  cases args with
  | nil => rfl
  | cons arg args =>
    rw [tokensAll, List.map_cons, flatMap_text_tokens arg, map_flatMap_text_tokensAll args,
      renderAll]

end

/-! ### Properties of all pieces -/

/-- Whether all pieces of a formula have a property. -/
def AllTokens (P : FormulaToken → Prop) (f : Formula) : Prop := ∀ t ∈ f.tokens, P t

section AllTokens

variable {P : FormulaToken → Prop}

theorem allTokens_quoted (text : Text) :
    (quoted text).AllTokens P ↔ P (.argument (text.flatMap stringChar)) :=
  List.forall_mem_singleton

variable (hP : ∀ c, IsPunctual c → P (.mark c))

include hP

theorem forall_mem_map_mark {s : Text} (h : ∀ c ∈ s, IsPunctual c) :
    ∀ t ∈ s.map FormulaToken.mark, P t :=
  List.forall_mem_map.mpr fun c hc => hP c (h c hc)

theorem allTokens_localQuery (text : Text) :
    (localQuery text).AllTokens P ↔ P (.argument (text.flatMap stringChar)) := by
  have hopen : ∀ t ∈ ("\x7b!v=" : Text).map FormulaToken.mark, P t :=
    forall_mem_map_mark hP isPunctual_of_mem_opening
  have hclose : P (.mark '\x7d') := hP '\x7d' (isPunctual_of_toNat (by decide))
  rw [AllTokens, tokens, List.forall_mem_append, List.forall_mem_cons, List.forall_mem_singleton]
  exact ⟨fun h => h.2.1, fun h => ⟨hopen, h, hclose⟩⟩

theorem forall_mem_intercalate (parts : List (List FormulaToken)) :
    (∀ t ∈ List.intercalate [.mark ','] parts, P t) ↔ ∀ part ∈ parts, ∀ t ∈ part, P t := by
  have hcomma : P (.mark ',') := hP ',' (isPunctual_of_toNat (by decide))
  cases parts with
  | nil => exact iff_of_true nofun nofun
  | cons part parts =>
    rw [Text.intercalate_cons, List.forall_mem_append, List.forall_mem_cons,
      List.forall_mem_flatMap]
    simp only [List.singleton_append, List.forall_mem_cons, hcomma, true_and]

theorem allTokens_call {name : Text} (hname : isName name = true) (args : List Formula) :
    (call name args).AllTokens P ↔ ∀ arg ∈ args, arg.AllTokens P := by
  have hmarks := forall_mem_map_mark hP (isPunctual_of_isName hname)
  have hopen : P (.mark '(') := hP '(' (isPunctual_of_toNat (by decide))
  have hclose : P (.mark ')') := hP ')' (isPunctual_of_toNat (by decide))
  have hargs : (∀ part ∈ args.map tokens, ∀ t ∈ part, P t) ↔ ∀ arg ∈ args, arg.AllTokens P :=
    List.forall_mem_map
  rw [AllTokens, tokens, List.forall_mem_append, List.forall_mem_cons, List.forall_mem_append,
    List.forall_mem_singleton, forall_mem_intercalate hP, tokensAll_eq_map, hargs]
  exact ⟨fun h => h.2.2.1, fun h => ⟨hmarks, hopen, h, hclose⟩⟩

theorem allTokens_number {text : Text} (h : IsNumber text) : (atom text).AllTokens P :=
  forall_mem_map_mark hP (isPunctual_of_isNumber h)

theorem allTokens_field {text : Text} (h : isName text = true) : (atom text).AllTokens P :=
  forall_mem_map_mark hP (isPunctual_of_isName h)

theorem allTokens_one : (atom "1.0").AllTokens P := allTokens_number hP (.plus isUnsigned_one)

/-- A factor that is a number has no say in it. -/
theorem allTokens_weighted (f : Formula) (x : Binary64) :
    (mul f (number x)).AllTokens P ↔ f.AllTokens P := by
  rw [mul, allTokens_call hP (by decide), List.forall_mem_cons, List.forall_mem_singleton]
  exact and_iff_left (allTokens_number hP x.isNumber_weightText)

theorem allTokens_sumOf (terms : List Formula) :
    (sumOf terms).AllTokens P ↔ ∀ term ∈ terms, term.AllTokens P := by
  rcases terms with - | ⟨first, - | ⟨second, terms⟩⟩
  · exact iff_of_true (allTokens_one hP) nofun
  · exact List.forall_mem_singleton.symm
  · exact allTokens_call hP (by decide) _

/-! ### Items -/

theorem allTokens_payload {fieldName : Text} (hfield : isName fieldName = true)
    (entry : WeightedId) : (payloadFormula fieldName entry).AllTokens P ↔
      P (.argument (entry.id.flatMap stringChar)) := by
  rw [payloadFormula, allTokens_weighted hP, allTokens_call hP (by decide), List.forall_mem_cons,
    List.forall_mem_singleton, allTokens_quoted]
  exact and_iff_right (allTokens_field hP hfield)

theorem allTokens_cluster (entry : WeightedId) : (clusterFormula entry).AllTokens P ↔
    P (.argument (("cluster_id_ss:" ++ escapeTerm entry.id : Text).flatMap stringChar)) := by
  rw [clusterFormula, allTokens_weighted hP, allTokens_call hP (by decide),
    List.forall_mem_singleton, allTokens_call hP (by decide), List.forall_mem_singleton,
    allTokens_localQuery hP]

theorem allTokens_timeRange (start stop : Option Int) :
    (timeRangeFormula start stop).AllTokens P := by
  have hzero : (atom "0.0").AllTokens P := allTokens_number hP (.plus isUnsigned_zero)
  have hyear : ∀ {comparison : Text}, isName comparison = true → ∀ year,
      (compareYear comparison year).AllTokens P := by
    intro comparison hcomparison year
    rw [compareYear, allTokens_call hP hcomparison, List.forall_mem_cons, List.forall_mem_singleton]
    exact ⟨allTokens_field hP (by decide), allTokens_number hP (isNumber_intText year)⟩
  have hindicator : ∀ {condition : Formula}, condition.AllTokens P →
      (indicator condition).AllTokens P := by
    intro condition hcondition
    rw [indicator, allTokens_call hP (by decide), List.forall_mem_cons, List.forall_mem_cons,
      List.forall_mem_singleton]
    exact ⟨hcondition, allTokens_one hP, hzero⟩
  rcases start with - | start
  · rcases stop with - | stop
    · exact allTokens_one hP
    · exact hindicator (hyear (by decide) stop)
  · rcases stop with - | stop
    · exact hindicator (hyear (by decide) start)
    · apply hindicator
      rw [allTokens_call hP (by decide), List.forall_mem_cons, List.forall_mem_singleton]
      exact ⟨hyear (by decide) stop, hyear (by decide) start⟩

end AllTokens

end Formula

/-- The texts that are quoted for an item: identifiers, or the queries for clusters. -/
def RelevanceKind.quotedTexts : RelevanceKind → List Text
  | timeRange _ _ => []
  | locations ids | persons ids | topics ids => ids.map WeightedId.id
  | textReuseClusters ids => ids.map fun entry => "cluster_id_ss:" ++ escapeTerm entry.id

/-- All pieces of an item but its arguments are names, numbers and signs. -/
theorem RelevanceItem.allTokens_formula {P : FormulaToken → Prop}
    (hP : ∀ c, IsPunctual c → P (.mark c)) (item : RelevanceItem) :
    item.formula.AllTokens P ↔
      ∀ s ∈ item.kind.quotedTexts, P (.argument (s.flatMap stringChar)) := by
  have hpayloads : ∀ (fieldName : Text) (ids : List WeightedId), isName fieldName = true →
      ((Formula.sumOf (ids.map (payloadFormula fieldName))).AllTokens P ↔
        ∀ s ∈ ids.map WeightedId.id, P (.argument (s.flatMap stringChar))) := by
    intro fieldName ids hfield
    simp only [Formula.allTokens_sumOf hP, List.forall_mem_map,
      Formula.allTokens_payload hP hfield]
  rw [RelevanceItem.formula, Formula.allTokens_weighted hP]
  cases item.kind with
  | timeRange start stop => exact iff_of_true (Formula.allTokens_timeRange hP start stop) nofun
  | locations ids => exact hpayloads _ ids (by decide)
  | persons ids => exact hpayloads _ ids (by decide)
  | topics ids => exact hpayloads _ ids (by decide)
  | textReuseClusters ids =>
    rw [RelevanceKind.formula, RelevanceKind.quotedTexts, Formula.allTokens_sumOf hP]
    simp only [List.forall_mem_map, Formula.allTokens_cluster hP]

/-- The text of an item is read as its pieces just when each quoted text closes at its end. -/
theorem formulaTokens?_formulaText (item : RelevanceItem) :
    formulaTokens? item.formulaText = some item.formula.tokens ↔
      ∀ s ∈ item.kind.quotedTexts, ClosesAtEnd s := by
  simp only [← run_stringChars_iff_closesAtEnd]
  constructor
  · -- whatever is read has its arguments closed, and those of the item are among it
    intro h
    obtain ⟨⟨left, tokens⟩, hread, htokens⟩ := Option.map_eq_some_iff.mp h
    have hclosed : item.formula.AllTokens FormulaToken.IsClosed := by
      intro t ht
      rw [← htokens] at ht
      exact (of_tokensFrom? hread).2.1 t ht
    exact (item.allTokens_formula fun _ _ => trivial).mp hclosed
  · -- closed arguments make tidy pieces, which are read back
    intro h
    have htidy : item.formula.AllTokens FormulaToken.IsTidy :=
      (item.allTokens_formula fun _ hc => hc).mpr h
    rw [RelevanceItem.formulaText, ← Formula.flatMap_text_tokens,
      normalizeFormula_flatMap_text htidy, formulaTokens?_flatMap_text htidy]

/-- **Quoted arguments.** A quoted text is read as one argument exactly when it closes at its end,
and the argument gives the text back exactly when there is no backslash in it. The query for a
cluster always is one argument, which gives it back without the backslashes of its term. The formula
of an item consists of the intended pieces exactly when each text quoted in it closes at its end. -/
theorem formulaTokens?_quoted (s id : Text) (item : RelevanceItem) :
    ((∃ body, formulaTokens? (quoteArgument s) = some [.argument body]) ↔ ClosesAtEnd s) ∧
    ((∃ body, formulaTokens? (quoteArgument s) = some [.argument body] ∧ unescape body = s) ↔
      '\\' ∉ s) ∧
    (∃ body, formulaTokens? (quoteArgument ("cluster_id_ss:" ++ escapeTerm id)) =
      some [.argument body] ∧ unescape body = "cluster_id_ss:" ++ Text.trim id) ∧
    (formulaTokens? item.formulaText = some item.formula.tokens ↔
      ∀ s ∈ item.kind.quotedTexts, ClosesAtEnd s) := by
  refine ⟨?_, ?_, ?_, formulaTokens?_formulaText item⟩
  · simp only [formulaTokens?_quoteArgument, exists_eq_left]
  · simp only [formulaTokens?_quoteArgument, and_assoc, exists_eq_left]
    constructor
    · rintro ⟨hclosed, hsame⟩
      exact (unescape_stringChars_iff hclosed).mp hsame
    · intro hplain
      have hclosed := closesAtEnd_of_notMem hplain
      exact ⟨hclosed, (unescape_stringChars_iff hclosed).mpr hplain⟩
  · simp only [formulaTokens?_quoteArgument, and_assoc, exists_eq_left]
    exact ⟨(run_stringChars_iff_closesAtEnd _).mp (run_clusterQuery id), unescape_clusterQuery id⟩

/-- An identifier can break out of its argument. -/
example : formulaTokens? (quoteArgument "\\',f,'") =
    some [.argument "\\\\", .mark ',', .mark 'f', .mark ',', .mark '\\', .argument ""] := by
  decide +kernel

/-- A topic whose identifier ends with a backslash. -/
def openTopic : RelevanceItem := { kind := .topics [⟨"a\\", .ofInt 1⟩], weight := .ofInt 1 }

/-- The backslash takes the last quote with it, and nothing ends the argument. -/
theorem formulaTokens?_openTopic_ne :
    (¬∃ body, formulaTokens? (quoteArgument "a\\") = some [.argument body] ∧
      unescape body = "a\\") ∧
      formulaTokens? openTopic.formulaText ≠ some openTopic.formula.tokens := by
  have hargument : formulaTokens? (quoteArgument "a\\") = none := by decide +kernel
  have hitem : formulaTokens? openTopic.formulaText = none := by decide +kernel
  rw [hargument, hitem]
  exact ⟨nofun, nofun⟩

end FilterAlgebra
