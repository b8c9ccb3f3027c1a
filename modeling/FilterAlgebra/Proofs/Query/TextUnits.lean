import FilterAlgebra.Proofs.Query.Expression
import FilterAlgebra.Proofs.Query.Scanning
import FilterAlgebra.Query.FreeText

/-!
# Units of free text

What a value of free text becomes is a unit (`isUnit_shapedText`): a word, which may be open at its
end, a phrase, which may allow for small differences, or a group in parentheses. A unit is opaque to
the boolean language around it. That is so because each kind of unit begins with characters of its
own and the text settles where it ends (`IsUnit.eq_of_append`); groups may be nested, and end at the
parenthesis that matches.
-/

namespace FilterAlgebra

/-! ### Words -/

/-- The characters that stand for themselves in a word. -/
def isWordChar (c : Char) : Bool := !isDelimiter c && c != '"' && c != '\\' && c != '*'

def wordLexis : Lexis where
  IsPlain c := isWordChar c = true
  IsOpening _ := False
  IsBlock _ := False
  not_isPlain_backslash := by decide
  not_isOpening_backslash := not_false
  not_isPlain_of_isOpening := False.elim
  exists_of_isBlock := @Lexis.exists_of_no_block
  eq_of_isBlock := @Lexis.eq_of_no_block

/-! ### Phrases -/

/-- The characters that stand for themselves between quotes. -/
def isPhraseChar (c : Char) : Bool := c != '"' && c != '\\'

def phraseLexis : Lexis where
  IsPlain c := isPhraseChar c = true
  IsOpening _ := False
  IsBlock _ := False
  not_isPlain_backslash := by decide
  not_isOpening_backslash := not_false
  not_isPlain_of_isOpening := False.elim
  exists_of_isBlock := @Lexis.exists_of_no_block
  eq_of_isBlock := @Lexis.eq_of_no_block

theorem phraseLexis_stops (r : Text) : phraseLexis.Stops ('"' :: r) := by
  rw [Lexis.stops_cons]
  rintro (h | h | h)
  · revert h
    change ¬isPhraseChar '"' = true
    decide
  · cases h
  · exact h

def IsPhrase (s : Text) : Prop := ∃ body, s = phrase body ∧ phraseLexis.Run body

theorem IsPhrase.eq_of_append {s s' r r' : Text} (h : IsPhrase s) (h' : IsPhrase s')
    (heq : s ++ r = s' ++ r') : s = s' := by
  obtain ⟨body, rfl, hbody⟩ := h
  obtain ⟨body', rfl, hbody'⟩ := h'
  have htail : body ++ '"' :: r = body' ++ '"' :: r' := by simpa [phrase] using heq
  rw [hbody.eq_of_append hbody' (phraseLexis_stops r) (phraseLexis_stops r') htail]

/-! ### Groups -/

/-- The characters that stand for themselves between parentheses. -/
def isGroupChar (c : Char) : Bool := c != '(' && c != ')' && isPhraseChar c

def groupLexis : Lexis where
  IsPlain c := isGroupChar c = true
  IsOpening c := c = '"'
  IsBlock := IsPhrase
  not_isPlain_backslash := by decide
  not_isOpening_backslash := by decide
  not_isPlain_of_isOpening := by
    rintro c rfl
    decide
  exists_of_isBlock := by
    rintro s ⟨body, rfl, -⟩
    exact ⟨_, _, rfl, rfl⟩
  eq_of_isBlock := IsPhrase.eq_of_append

/-- What stands between the parentheses of a group: pieces, phrases among them, and further
groups. -/
inductive GroupBody : Text → Prop where
  | nil : GroupBody []
  | piece {s t : Text} : groupLexis.IsPiece s → GroupBody t → GroupBody (s ++ t)
  | nested {s t : Text} : GroupBody s → GroupBody t → GroupBody ('(' :: (s ++ ')' :: t))

theorem not_begins_open : ¬groupLexis.Begins '(' := by
  change ¬(isGroupChar '(' = true ∨ '(' = '\\' ∨ '(' = '"')
  decide

theorem not_begins_close : ¬groupLexis.Begins ')' := by
  change ¬(isGroupChar ')' = true ∨ ')' = '\\' ∨ ')' = '"')
  decide

namespace GroupBody

/-- The parenthesis that matches is settled by the text. -/
theorem eq_of_append {s s' r r' : Text} (h : GroupBody s) (h' : GroupBody s')
    (heq : s ++ ')' :: r = s' ++ ')' :: r') : s = s' := by
  induction h generalizing s' r r' with
  | nil =>
    cases h' with
    | nil => rfl
    | piece hpiece _ =>
      -- no piece begins with the parenthesis that closes
      obtain ⟨c, t, rfl, hbegins⟩ := hpiece.begins
      rw [← (List.cons.inj heq).1] at hbegins
      exact absurd hbegins not_begins_close
    | nested => simp at heq
  | piece hpiece _ ih =>
    cases h' with
    | nil =>
      obtain ⟨c, t, rfl, hbegins⟩ := hpiece.begins
      rw [(List.cons.inj heq).1] at hbegins
      exact absurd hbegins not_begins_close
    | piece hpiece' hrest' =>
      rw [List.append_assoc, List.append_assoc] at heq
      -- the same first piece, and the rest by induction
      obtain rfl := hpiece.eq_of_append hpiece' heq
      rw [ih hrest' (List.append_cancel_left heq)]
    | nested =>
      obtain ⟨c, t, rfl, hbegins⟩ := hpiece.begins
      rw [(List.cons.inj heq).1] at hbegins
      exact absurd hbegins not_begins_open
  | nested _ _ ihInner ihRest =>
    cases h' with
    | nil => simp at heq
    | piece hpiece' _ =>
      obtain ⟨c, t, rfl, hbegins⟩ := hpiece'.begins
      rw [← (List.cons.inj heq).1] at hbegins
      exact absurd hbegins not_begins_open
    | nested hinner' hrest' =>
      simp only [List.cons_append, List.append_assoc, List.cons.injEq, true_and] at heq
      -- the same inner group up to its own parenthesis, and the rest by induction
      obtain rfl := ihInner hinner' heq
      have htail := (List.cons.inj (List.append_cancel_left heq)).2
      rw [ihRest hrest' htail]

theorem append {s t : Text} (hs : GroupBody s) (ht : GroupBody t) : GroupBody (s ++ t) := by
  induction hs with
  | nil => exact ht
  | piece hpiece _ ih =>
    rw [List.append_assoc]
    exact .piece hpiece ih
  | nested hinner _ _ ih =>
    rw [List.cons_append, List.append_assoc, List.cons_append]
    exact .nested hinner ih

theorem of_run {s : Text} (h : groupLexis.Run s) : GroupBody s := by
  induction h with
  | nil => exact .nil
  | piece hpiece _ ih => exact .piece hpiece ih

theorem intercalate {sep : Text} {parts : List Text} (hsep : GroupBody sep)
    (hparts : ∀ part ∈ parts, GroupBody part) : GroupBody (List.intercalate sep parts) := by
  induction parts with
  | nil => exact nil
  | cons part parts ih =>
    have hpart := hparts part List.mem_cons_self
    have hrest := ih fun p hp => hparts p (List.mem_cons_of_mem part hp)
    cases parts with
    | nil => simpa using hpart
    | cons next parts =>
      rw [List.intercalate_cons_cons, List.append_assoc]
      exact hpart.append (hsep.append hrest)

end GroupBody

/-! ### Units -/

/-- A unit: a word that may be open at its end, a phrase that may allow for small differences, or a
group. -/
inductive IsUnit : Text → Prop where
  | word {body mark : Text} : wordLexis.Run body → mark = [] ∨ mark = ['*'] → body ++ mark ≠ [] →
      IsUnit (body ++ mark)
  | phrase {s mark : Text} : IsPhrase s → mark = [] ∨ mark = ['~', '1'] → IsUnit (s ++ mark)
  | group {body : Text} : GroupBody body → IsUnit ('(' :: (body ++ [')']))

theorem mark_eq_of_append {c : Char} {m mark mark' r r' : Text} (hc : isDelimiter c = false)
    (h : mark = [] ∨ mark = c :: m) (h' : mark' = [] ∨ mark' = c :: m) (hr : Delimited r)
    (hr' : Delimited r') (heq : mark ++ r = mark' ++ r') : mark = mark' := by
  rcases h with rfl | rfl
  · rcases h' with rfl | rfl
    · rfl
    · rw [List.nil_append] at heq
      rw [heq] at hr
      exact absurd hr (by simp [Delimited, hc])
  · rcases h' with rfl | rfl
    · rw [List.nil_append] at heq
      rw [← heq] at hr'
      exact absurd hr' (by simp [Delimited, hc])
    · rfl

theorem wordLexis_stops {mark r : Text} (h : mark = [] ∨ mark = ['*']) (hr : Delimited r) :
    wordLexis.Stops (mark ++ r) := by
  rcases h with rfl | rfl
  · rintro c t rfl
    have hc : isDelimiter c = true := hr
    rintro (hplain | rfl | hopening)
    · have hplain : isWordChar c = true := hplain
      simp [isWordChar, hc] at hplain
    · revert hc
      decide
    · exact hopening
  · rw [List.singleton_append, Lexis.stops_cons]
    change ¬(isWordChar '*' = true ∨ '*' = '\\' ∨ False)
    decide

theorem ne_of_word {body mark r t : Text} {c : Char} (hbody : wordLexis.Run body)
    (hmark : mark = [] ∨ mark = ['*']) (hne : body ++ mark ≠ [])
    (heq : body ++ mark ++ r = c :: t) : c ≠ '"' ∧ c ≠ '(' := by
  cases body with
  | nil =>
    rcases hmark with rfl | rfl
    · exact absurd rfl hne
    · obtain ⟨rfl, -⟩ := List.cons.inj heq
      decide
  | cons b body =>
    obtain ⟨rfl, -⟩ := List.cons.inj heq
    have hbegins : isWordChar b = true ∨ b = '\\' ∨ False := hbody.begins
    constructor
    · rintro rfl
      revert hbegins
      decide
    · rintro rfl
      revert hbegins
      decide

/-- **Where a unit ends** is settled by the text. -/
theorem IsUnit.eq_of_append {s s' r r' : Text} (h : IsUnit s) (h' : IsUnit s') (hr : Delimited r)
    (hr' : Delimited r') (heq : s ++ r = s' ++ r') : s = s' := by
  cases h with
  | @word body mark hbody hmark hne =>
    cases h' with
    | @word body' mark' hbody' hmark' _ =>
      rw [List.append_assoc, List.append_assoc] at heq
      -- a word ends before its mark, and the mark before what follows
      obtain rfl := hbody.eq_of_append hbody' (wordLexis_stops hmark hr)
        (wordLexis_stops hmark' hr') heq
      have htail := List.append_cancel_left heq
      rw [mark_eq_of_append (by decide) hmark hmark' hr hr' htail]
    | phrase hs =>
      obtain ⟨body', rfl, -⟩ := hs
      -- a word begins neither like a phrase nor like a group
      exact absurd rfl (ne_of_word hbody hmark hne heq).1
    | group => exact absurd rfl (ne_of_word hbody hmark hne heq).2
  | @phrase s mark hs hmark =>
    cases h' with
    | word hbody' hmark' hne' =>
      obtain ⟨body, rfl, -⟩ := hs
      exact absurd rfl (ne_of_word hbody' hmark' hne' heq.symm).1
    | phrase hs' hmark' =>
      rw [List.append_assoc, List.append_assoc] at heq
      -- a phrase ends at its quote
      obtain rfl := hs.eq_of_append hs' heq
      have htail := List.append_cancel_left heq
      rw [mark_eq_of_append (by decide) hmark hmark' hr hr' htail]
    | group =>
      obtain ⟨body, rfl, -⟩ := hs
      simp [FilterAlgebra.phrase] at heq
  | group hbody =>
    cases h' with
    | word hbody' hmark' hne' => exact absurd rfl (ne_of_word hbody' hmark' hne' heq.symm).2
    | phrase hs' =>
      obtain ⟨body', rfl, -⟩ := hs'
      simp [FilterAlgebra.phrase] at heq
    | group hbody' =>
      simp only [List.cons_append, List.append_assoc, List.cons.injEq, true_and] at heq
      rw [hbody.eq_of_append hbody' heq]

/-! ### Values are units -/

theorem isWordChar_of_not_needsEscape {c : Char} (h : needsEscape c = false) :
    isWordChar c = true := by
  simp only [needsEscape, specialChars, List.contains_cons, List.contains_nil] at h
  simp_all [isWordChar, isDelimiter]

theorem isGroupChar_of_not_needsEscape {c : Char} (h : needsEscape c = false) :
    isGroupChar c = true := by
  simp only [needsEscape, specialChars, List.contains_cons, List.contains_nil] at h
  simp_all [isGroupChar, isPhraseChar]

theorem isPhrase_escapePhrase (s : Text) : IsPhrase (phrase (escapePhrase s)) := by
  refine ⟨_, rfl, .flatMap fun c _ => ?_⟩
  unfold escapedPhraseChar
  split
  · exact .of_piece (.escaped c)
  · next hc =>
    refine .of_piece (.plain ?_)
    change isPhraseChar c = true
    simp_all [isPhraseChar]

theorem isPhrase_of_isOperatorWord {word : Text} (h : isOperatorWord word = true) :
    IsPhrase (phrase word) := by
  have hchars : ∀ word ∈ operatorWords, word.all isPhraseChar = true := by decide
  have hword : word ∈ operatorWords := by simpa [isOperatorWord] using h
  exact ⟨word, rfl, .of_plain (List.all_eq_true.mp (hchars word hword))⟩

theorem isBlankText_of_mem_words {s word : Text} (h : word ∈ Text.words s) :
    Text.isBlankText word = false := by
  obtain ⟨hne, hchars⟩ := Text.not_isBlank_of_mem_words h
  obtain ⟨c, rest, rfl⟩ := List.exists_cons_of_ne_nil hne
  simp [Text.isBlankText, hchars c List.mem_cons_self]

theorem isUnit_wordText {word : Text} (hword : Text.isBlankText word = false) :
    IsUnit (wordText word) := by
  unfold wordText
  split
  · next h => simpa using IsUnit.phrase (isPhrase_of_isOperatorWord h) (.inl rfl)
  · have hrun : wordLexis.Run (escapeTerm word) :=
      .escapeTerm (fun c hc => isWordChar_of_not_needsEscape hc) word
    simpa using IsUnit.word hrun (.inl rfl) (by simpa using escapeTerm_ne_nil hword)

theorem isUnit_openWordText (word : Text) : IsUnit (openWordText word) := by
  unfold openWordText
  split
  · next h => simpa using IsUnit.phrase (isPhrase_of_isOperatorWord h) (.inl rfl)
  · have hrun : wordLexis.Run (escapeTerm word) :=
      .escapeTerm (fun c hc => isWordChar_of_not_needsEscape hc) word
    exact IsUnit.word hrun (.inr rfl) (by simp)

theorem groupBody_wordText (word : Text) : GroupBody (wordText word) := by
  unfold wordText
  split
  · next h => exact .of_run (.of_piece (.block (isPhrase_of_isOperatorWord h)))
  · exact .of_run (.escapeTerm (fun c hc => isGroupChar_of_not_needsEscape hc) word)

theorem groupBody_openWordText (word : Text) : GroupBody (openWordText word) := by
  have hstar : groupLexis.IsPiece ['*'] := .plain (by decide : isGroupChar '*' = true)
  have hwordText := groupBody_wordText word
  unfold openWordText
  unfold wordText at hwordText
  split
  · next h => rwa [if_pos h] at hwordText
  · next h =>
    rw [if_neg h] at hwordText
    exact hwordText.append (.of_run (.of_piece hstar))

theorem isUnit_parenthesized {sep : Text} {parts : List Text} (hsep : GroupBody sep)
    (hparts : ∀ part ∈ parts, GroupBody part) : IsUnit (parenthesized sep parts) :=
  .group (.intercalate hsep hparts)

theorem groupBody_of_all {s : Text} (h : s.all isGroupChar = true) : GroupBody s :=
  .of_run (.of_plain (List.all_eq_true.mp h))

theorem isUnit_openWords (words : List Text) : IsUnit (openWords words) := by
  have hblank : GroupBody [' '] := groupBody_of_all (by decide)
  unfold openWords
  split
  · exact IsUnit.word .nil (.inr rfl) (by simp)
  · exact isUnit_openWordText _
  · apply isUnit_parenthesized hblank
    intro part hpart
    rcases List.mem_append.mp hpart with hpart | hpart
    · obtain ⟨word, -, rfl⟩ := List.mem_map.mp hpart
      exact groupBody_wordText word
    · rw [Option.mem_toList, Option.map_eq_some_iff] at hpart
      obtain ⟨word, -, rfl⟩ := hpart
      exact groupBody_openWordText word

/-- **Values are units**, if the caller writes neither quotes around them nor operators into
them. -/
theorem isUnit_shapedText {precision : Precision} {s : Text}
    (hoperators : precision = .part → hasOperators s = false) :
    IsUnit (shapedText precision s) := by
  cases precision with
  | exact => simpa [shapedText] using IsUnit.phrase (isPhrase_escapePhrase s) (.inl rfl)
  | part =>
    rw [shapedText, hoperators rfl]
    exact isUnit_openWords _
  | fuzzy =>
    simp only [shapedText]
    split
    · -- one word
      exact isUnit_openWordText _
    · exact IsUnit.phrase (isPhrase_escapePhrase _) (.inr rfl)
  | soft =>
    simp only [shapedText]
    split
    · next word hword =>
      exact isUnit_wordText (isBlankText_of_mem_words (hword ▸ List.mem_singleton_self word))
    · -- words in parentheses, or none
      apply isUnit_parenthesized (groupBody_of_all (by decide))
      intro part hpart
      obtain ⟨word, -, rfl⟩ := List.mem_map.mp hpart
      exact groupBody_wordText word

end FilterAlgebra
