import FilterAlgebra.Text.Basic

/-!
# Blanks

The characters with the Unicode property White_Space, and the two operations on text that depend on
them: taking the blanks off both ends, and cutting a text into its words.
-/

namespace FilterAlgebra

/-- The code points with the property White_Space, as closed intervals. -/
def blankRanges : List (Nat × Nat) :=
  [(0x09, 0x0D), (0x20, 0x20), (0x85, 0x85), (0xA0, 0xA0), (0x1680, 0x1680), (0x2000, 0x200A),
    (0x2028, 0x2029), (0x202F, 0x202F), (0x205F, 0x205F), (0x3000, 0x3000)]

/-- Whether a character has the property White_Space. -/
def isBlank (c : Char) : Bool :=
  blankRanges.any fun (low, high) => decide (low ≤ c.toNat) && decide (c.toNat ≤ high)

namespace Text

/-! ### Blanks at the ends -/

/-- The text without the blanks at its start. -/
def trimStart (s : Text) : Text := s.dropWhile isBlank

/-- The text without the blanks at its end. -/
def trimEnd (s : Text) : Text := (s.reverse.dropWhile isBlank).reverse

/-- The text without the blanks at its start and end. -/
def trim (s : Text) : Text := trimEnd (trimStart s)

/-- Whether a text has no character that is not blank. -/
def isBlankText (s : Text) : Bool := s.all isBlank

theorem isBlankText_reverse (s : Text) : isBlankText s.reverse = isBlankText s := by
  simp [isBlankText]

theorem isBlankText_trimStart (s : Text) : isBlankText (trimStart s) = isBlankText s := by
  induction s with
  | nil => rfl
  | cons c rest ih =>
    simp only [trimStart, isBlankText] at ih
    by_cases hc : isBlank c = true <;> simp [trimStart, isBlankText, hc, ih]

theorem trimStart_eq_nil_iff (s : Text) : trimStart s = [] ↔ isBlankText s = true := by
  induction s with
  | nil => simp [trimStart, isBlankText]
  | cons c rest ih =>
    simp only [trimStart, isBlankText] at ih
    by_cases hc : isBlank c = true <;> simp [trimStart, isBlankText, hc, ih]

theorem trimEnd_eq_nil_iff (s : Text) : trimEnd s = [] ↔ isBlankText s = true := by
  rw [trimEnd, List.reverse_eq_nil_iff, ← isBlankText_reverse]
  exact trimStart_eq_nil_iff s.reverse

/-- Only of a text of blanks is nothing left. -/
theorem trim_eq_nil_iff (s : Text) : trim s = [] ↔ isBlankText s = true := by
  rw [trim, trimEnd_eq_nil_iff, isBlankText_trimStart]

theorem trimStart_append {before : Text} (h : isBlankText before = true) (s : Text) :
    trimStart (before ++ s) = trimStart s :=
  List.dropWhile_append_of_pos (List.all_eq_true.mp h)

theorem trimEnd_append {after : Text} (h : isBlankText after = true) (s : Text) :
    trimEnd (s ++ after) = trimEnd s := by
  rw [← isBlankText_reverse] at h
  rw [trimEnd, List.reverse_append]
  exact congrArg List.reverse (trimStart_append h s.reverse)

/-- Blanks around a text do not change what is left of it. -/
theorem trim_surrounded {before after : Text} (hbefore : isBlankText before = true)
    (hafter : isBlankText after = true) (s : Text) : trim (before ++ s ++ after) = trim s := by
  rw [List.append_assoc, trim, trimStart_append hbefore, ← trim]
  by_cases h : isBlankText s = true
  · have hall : isBlankText (s ++ after) = true := by
      rw [isBlankText, List.all_append, Bool.and_eq_true]
      exact ⟨h, hafter⟩
    rw [(trim_eq_nil_iff s).mpr h, (trim_eq_nil_iff (s ++ after)).mpr hall]
  · have hne : (trimStart s).isEmpty = false := by
      rw [List.isEmpty_eq_false_iff]
      exact mt (trimStart_eq_nil_iff s).mp h
    have happend : trimStart (s ++ after) = trimStart s ++ after := by
      rw [trimStart, List.dropWhile_append, ← trimStart, hne]
      rfl
    rw [trim, happend, trimEnd_append hafter, ← trim]

theorem trimStart_of_forall {s : Text} (h : ∀ c ∈ s, isBlank c = false) : trimStart s = s := by
  cases s with
  | nil => rfl
  | cons c rest =>
    rw [trimStart, List.dropWhile_cons, h c List.mem_cons_self]
    rfl

theorem trim_of_forall {s : Text} (h : ∀ c ∈ s, isBlank c = false) : trim s = s := by
  have hreverse : trimStart s.reverse = s.reverse :=
    trimStart_of_forall fun c hc => h c (List.mem_reverse.mp hc)
  rw [trim, trimStart_of_forall h, trimEnd, ← trimStart, hreverse, List.reverse_reverse]

/-! ### Words -/

/-- A word in front of others, unless it is empty. -/
def consWord (word : Text) (others : List Text) : List Text :=
  if word = [] then others else word :: others

/-- The word with which a text starts, empty where that starts with a blank, and the words after
it. -/
def wordsFrom : Text → Text × List Text
  | [] => ([], [])
  | c :: rest =>
    let (word, others) := wordsFrom rest
    if isBlank c then ([], consWord word others) else (c :: word, others)

/-- The maximal runs of characters that are not blank, in order. -/
def words (s : Text) : List Text := consWord (wordsFrom s).1 (wordsFrom s).2

theorem mem_consWord {w word : Text} {others : List Text} :
    w ∈ consWord word others ↔ (w = word ∧ word ≠ []) ∨ w ∈ others := by
  unfold consWord
  split <;> simp_all

theorem not_isBlank_of_mem_wordsFrom (s : Text) :
    (∀ c ∈ (wordsFrom s).1, isBlank c = false) ∧
      ∀ w ∈ (wordsFrom s).2, w ≠ [] ∧ ∀ c ∈ w, isBlank c = false := by
  induction s with
  | nil => simp [wordsFrom]
  | cons c rest ih =>
    obtain ⟨first, others⟩ := ih
    by_cases hc : isBlank c = true
    · simp only [wordsFrom, hc, if_true]
      refine ⟨by simp, fun w hw => ?_⟩
      rcases mem_consWord.1 hw with ⟨rfl, hne⟩ | hw
      · exact ⟨hne, first⟩
      · exact others w hw
    · simp only [wordsFrom, hc]
      refine ⟨fun d hd => ?_, others⟩
      rcases List.mem_cons.1 hd with rfl | hd
      · simpa using hc
      · exact first d hd

/-- A word has a character, and no blank. -/
theorem not_isBlank_of_mem_words {s w : Text} (h : w ∈ words s) :
    w ≠ [] ∧ ∀ c ∈ w, isBlank c = false := by
  obtain ⟨first, others⟩ := not_isBlank_of_mem_wordsFrom s
  rcases mem_consWord.1 h with ⟨rfl, hne⟩ | hw
  · exact ⟨hne, first⟩
  · exact others w hw

end Text

end FilterAlgebra
