import FilterAlgebra.Text.Blank

/-!
# Words

The words of a text are not changed by blanks around it (`words_trim`), and words that are written
with a blank between them are the words of what is written (`words_intercalate`). A blank closes the
word before it, so everything follows from what a text does behind a word.
-/

namespace FilterAlgebra.Text

theorem wordsFrom_append {word : Text} (h : ∀ c ∈ word, isBlank c = false) (s : Text) :
    wordsFrom (word ++ s) = (word ++ (wordsFrom s).1, (wordsFrom s).2) := by
  induction word with
  | nil => rfl
  | cons c word ih =>
    rw [List.forall_mem_cons] at h
    simp [wordsFrom, h.1, ih h.2]

theorem words_cons_of_isBlank {c : Char} (h : isBlank c = true) (s : Text) :
    words (c :: s) = words s := by
  simp [words, wordsFrom, h, consWord]

theorem words_append_of_isBlankText {before : Text} (h : isBlankText before = true) (s : Text) :
    words (before ++ s) = words s := by
  induction before with
  | nil => rfl
  | cons c before ih =>
    rw [isBlankText, List.all_cons, Bool.and_eq_true] at h
    rw [List.cons_append, words_cons_of_isBlank h.1]
    exact ih h.2

theorem wordsFrom_append_of_isBlankText {after : Text} (h : isBlankText after = true) (s : Text) :
    wordsFrom (s ++ after) = wordsFrom s := by
  induction s with
  | nil =>
    induction after with
    | nil => rfl
    | cons c after ih =>
      rw [isBlankText, List.all_cons, Bool.and_eq_true] at h
      have hrest := ih h.2
      rw [List.nil_append] at hrest ⊢
      simp [wordsFrom, hrest, h.1, consWord]
  | cons c s ih => rw [List.cons_append, wordsFrom, ih, wordsFrom]

/-- Blanks around a text are no part of its words. -/
theorem words_trim (s : Text) : words (trim s) = words s := by
  have hstart : s.takeWhile isBlank ++ trimStart s = s := List.takeWhile_append_dropWhile
  have hend : trim s ++ ((trimStart s).reverse.takeWhile isBlank).reverse = trimStart s := by
    rw [trim, trimEnd, ← List.reverse_append, List.takeWhile_append_dropWhile,
      List.reverse_reverse]
  have hbefore : isBlankText (s.takeWhile isBlank) = true := List.all_takeWhile
  have hafter : isBlankText ((trimStart s).reverse.takeWhile isBlank).reverse = true := by
    rw [isBlankText_reverse]
    exact List.all_takeWhile
  calc words (trim s) = words (trimStart s) := by
        rw [← hend, words, words, wordsFrom_append_of_isBlankText hafter]
    _ = words s := by rw [← words_append_of_isBlankText hbefore, hstart]

theorem words_of_word {word : Text} (hne : word ≠ []) (h : ∀ c ∈ word, isBlank c = false) :
    words word = [word] := by
  have hfrom := wordsFrom_append h []
  rw [List.append_nil] at hfrom
  simp [words, hfrom, wordsFrom, consWord, hne]

theorem consWord_append (word : Text) (others more : List Text) :
    consWord word (others ++ more) = consWord word others ++ more := by
  unfold consWord
  split <;> rfl

/-- A blank ends the words before it and has no say in those behind it. -/
theorem words_append_cons {c : Char} (h : isBlank c = true) (s t : Text) :
    words (s ++ c :: t) = words s ++ words t := by
  have hfrom : wordsFrom (s ++ c :: t) = ((wordsFrom s).1, (wordsFrom s).2 ++ words t) := by
    induction s with
    | nil => simp [wordsFrom, words, h]
    | cons d s ih =>
      by_cases hd : isBlank d = true <;> simp [wordsFrom, ih, hd, consWord_append]
  rw [words, hfrom, consWord_append, ← words]

theorem words_append_blank {word : Text} (hne : word ≠ []) (h : ∀ c ∈ word, isBlank c = false)
    (s : Text) : words (word ++ ' ' :: s) = word :: words s := by
  rw [words_append_cons (by decide), words_of_word hne h]
  rfl

/-- **Joined words** are found again. -/
theorem words_intercalate {ws : List Text}
    (h : ∀ word ∈ ws, word ≠ [] ∧ ∀ c ∈ word, isBlank c = false) :
    words (List.intercalate [' '] ws) = ws := by
  induction ws with
  | nil => rfl
  | cons word rest ih =>
    rw [List.forall_mem_cons] at h
    cases rest with
    | nil => rw [List.intercalate_singleton, words_of_word h.1.1 h.1.2]
    | cons next rest =>
      rw [List.intercalate_cons_cons, List.append_assoc, List.singleton_append,
        words_append_blank h.1.1 h.1.2, ih h.2]

/-! ### Texts of one word -/

theorem exists_of_wordsFrom {s : Text} (h : (wordsFrom s).2 = []) :
    ∃ after, isBlankText after = true ∧ s = (wordsFrom s).1 ++ after := by
  induction s with
  | nil => exact ⟨[], rfl, rfl⟩
  | cons c s ih =>
    by_cases hc : isBlank c = true
    · simp only [wordsFrom, hc, if_true] at h ⊢
      -- behind a blank no word may begin
      unfold consWord at h
      split at h
      · next hfirst =>
        obtain ⟨after, hafter, hs⟩ := ih h
        rw [hfirst, List.nil_append] at hs
        exact ⟨c :: after, Bool.and_eq_true_iff.mpr ⟨hc, hafter⟩, by rw [← hs]; rfl⟩
      · cases h
    · simp only [wordsFrom, hc] at h ⊢
      obtain ⟨after, hafter, hs⟩ := ih h
      exact ⟨after, hafter, congrArg (c :: ·) hs⟩

/-- A text with one word is that word between blanks. -/
theorem trim_eq_of_words {s word : Text} (h : words s = [word]) : trim s = word := by
  have hword : ∀ c ∈ word, isBlank c = false :=
    (not_isBlank_of_mem_words (s := s) (by rw [h]; exact List.mem_singleton_self word)).2
  obtain ⟨before, after, hbefore, hafter, rfl⟩ : ∃ before after, isBlankText before = true ∧
      isBlankText after = true ∧ s = before ++ word ++ after := by
    induction s with
    | nil => cases h
    | cons c s ih =>
      by_cases hc : isBlank c = true
      · rw [words_cons_of_isBlank hc] at h
        obtain ⟨before, after, hbefore, hafter, rfl⟩ := ih h
        exact ⟨c :: before, after, Bool.and_eq_true_iff.mpr ⟨hc, hbefore⟩, hafter,
          rfl⟩
      · have hfrom : wordsFrom (c :: s) = (c :: (wordsFrom s).1, (wordsFrom s).2) := by
          simp [wordsFrom, hc]
        rw [words, hfrom, consWord, if_neg (List.cons_ne_nil _ _)] at h
        obtain ⟨rfl, hothers⟩ := List.cons.inj h
        obtain ⟨after, hafter, hs⟩ := exists_of_wordsFrom hothers
        exact ⟨[], after, rfl, hafter, congrArg (c :: ·) hs⟩
  rw [trim_surrounded hbefore hafter, trim_of_forall hword]

end FilterAlgebra.Text
