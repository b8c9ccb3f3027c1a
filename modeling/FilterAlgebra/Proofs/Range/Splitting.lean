import FilterAlgebra.Proofs.Text.Words
import FilterAlgebra.Range.Basic

/-!
# Splitting ranges

A range may be spelled with blanks around its bounds and in brackets, and it is split into its
bounds all the same (`SpellsRange.splitRange?_eq`). Blanks do not hide a separator or make one,
because there is a letter in it.

Two bounds that are joined with the separator between them are split where they were joined, as long
as they can be bounds of a range at all (`splitRange?_joined`). There is one exception: a bracket in
front of the first and another behind the second are taken for the brackets of the range
(`brackets_of_trim_joined`).
-/

namespace FilterAlgebra

/-! ### The ends of trimmed text -/

namespace Text

theorem trim_enclosed {left right : Char} (hleft : isBlank left = false)
    (hright : isBlank right = false) (body : Text) :
    trim (left :: (body ++ [right])) = left :: (body ++ [right]) := by
  have hstart : trimStart (left :: (body ++ [right])) = left :: (body ++ [right]) := by
    simp [trimStart, hleft]
  rw [trim, hstart]
  simp [trimEnd, hright]

theorem exists_trim_cons {c : Char} (hc : isBlank c = false) (s : Text) :
    ∃ t, trim (c :: s) = c :: t := by
  have hstart : trimStart (c :: s) = c :: s := by simp [trimStart, hc]
  rw [trim, hstart, trimEnd, List.reverse_cons, List.dropWhile_append]
  split
  · exact ⟨[], by simp [hc]⟩
  · exact ⟨(s.reverse.dropWhile isBlank).reverse, by simp⟩

theorem exists_trim_concat {c : Char} (hc : isBlank c = false) (s : Text) :
    ∃ t, trim (s ++ [c]) = t ++ [c] := by
  have hend : ∀ t : Text, trimEnd (t ++ [c]) = t ++ [c] := by
    intro t
    simp [trimEnd, hc]
  rw [trim, trimStart, List.dropWhile_append]
  split
  · exact ⟨[], by simpa [hc] using hend []⟩
  · exact ⟨s.dropWhile isBlank, hend _⟩

theorem isBlank_of_trim_eq_cons {c : Char} {s t : Text} (h : trim s = c :: t) :
    isBlank c = false := by
  have hend : trim s ++ ((trimStart s).reverse.takeWhile isBlank).reverse = trimStart s := by
    rw [trim, trimEnd, ← List.reverse_append, List.takeWhile_append_dropWhile, List.reverse_reverse]
  have hhead := List.head?_dropWhile_not isBlank s
  rw [← trimStart, ← hend, h] at hhead
  exact hhead

theorem isBlank_of_trim_eq_concat {c : Char} {s t : Text} (h : trim s = t ++ [c]) :
    isBlank c = false := by
  have hhead := List.head?_dropWhile_not isBlank (trimStart s).reverse
  rw [trim, trimEnd, List.reverse_eq_iff, List.reverse_concat] at h
  rw [h] at hhead
  exact hhead

end Text

/-! ### The first separator -/

section Separator

variable {c : Char} {s : Text}

/-- No separator begins with a character that is no space, or with one that has no letter behind
it. -/
theorem splitOnce?_rangeSeparator_cons (h : c ≠ ' ' ∨ ∀ t, s ≠ 'T' :: t) :
    Text.splitOnce? rangeSeparator (c :: s) =
      (Text.splitOnce? rangeSeparator s).map fun (before, after) => (c :: before, after) := by
  have hprefix : rangeSeparator.isPrefixOf (c :: s) = false := by
    rcases h with hc | hs
    · simp [rangeSeparator, List.isPrefixOf, Ne.symm hc]
    · rcases s with - | ⟨d, t⟩
      · simp [rangeSeparator, List.isPrefixOf]
      · have hd : 'T' ≠ d := by
          rintro rfl
          exact hs t rfl
        simp [rangeSeparator, List.isPrefixOf, hd]
  rw [Text.splitOnce?, hprefix]
  rfl

theorem splitOnce?_append_of_notMem {before : Text} (h : ' ' ∉ before) (s : Text) :
    Text.splitOnce? rangeSeparator (before ++ s) =
      (Text.splitOnce? rangeSeparator s).map fun (first, last) => (before ++ first, last) := by
  induction before with
  | nil => simp
  | cons c before ih =>
    rw [List.mem_cons, not_or] at h
    rw [List.cons_append, splitOnce?_rangeSeparator_cons (.inl (Ne.symm h.1)), ih h.2,
      Option.map_map]
    rfl

/-- Blanks in front of anything but the letter of a separator are no part of one. -/
theorem splitOnce?_append_of_isBlankText {before : Text} (h : Text.isBlankText before = true)
    (hs : ∀ t, s ≠ 'T' :: t) :
    Text.splitOnce? rangeSeparator (before ++ s) =
      (Text.splitOnce? rangeSeparator s).map fun (first, last) => (before ++ first, last) := by
  induction before with
  | nil => simp
  | cons c before ih =>
    rw [Text.isBlankText, List.all_cons, Bool.and_eq_true] at h
    have hnext : ∀ t, before ++ s ≠ 'T' :: t := by
      rcases before with - | ⟨d, before⟩
      · exact hs
      · intro t ht
        have hd : isBlank 'T' = true := (List.cons.inj ht).1 ▸ (List.all_eq_true.mp h.2 d (by simp))
        revert hd
        decide
    rw [List.cons_append, splitOnce?_rangeSeparator_cons (.inr hnext), ih h.2, Option.map_map]
    rfl

theorem splitOnce?_rangeSeparator_append (high : Text) :
    Text.splitOnce? rangeSeparator (rangeSeparator ++ high) = some ([], high) := by
  simp [rangeSeparator, Text.splitOnce?]

theorem splitOnce?_rangeSeparator {low : Text} (hlow : ' ' ∉ low) (high : Text) :
    Text.splitOnce? rangeSeparator (low ++ rangeSeparator ++ high) = some (low, high) := by
  rw [List.append_assoc, splitOnce?_append_of_notMem hlow, splitOnce?_rangeSeparator_append]
  simp

end Separator

/-! ### Spellings of a range -/

/-- A text with blanks on both sides of it, or on one, or on none. -/
def IsPadded (s padded : Text) : Prop :=
  ∃ before after, Text.isBlankText before = true ∧ Text.isBlankText after = true ∧
    padded = before ++ s ++ after

/-- The ways to spell a range: blanks may stand around each of its bounds, and there may be brackets
around it, with blanks around them as well. -/
inductive SpellsRange (low high : Text) : Text → Prop where
  | bare {first last : Text} (hfirst : IsPadded low first) (hlast : IsPadded high last) :
      SpellsRange low high (first ++ rangeSeparator ++ last)
  | bracketed {first last value : Text} (hfirst : IsPadded low first) (hlast : IsPadded high last)
      (hvalue : IsPadded (rangeText first last) value) : SpellsRange low high value

theorem isPadded_refl (s : Text) : IsPadded s s := ⟨[], [], rfl, rfl, by simp⟩

theorem IsPadded.trim_eq {s padded : Text} (h : IsPadded s padded) :
    Text.trim padded = Text.trim s := by
  obtain ⟨before, after, hbefore, hafter, rfl⟩ := h
  exact Text.trim_surrounded hbefore hafter s

/-- A text is what is left of it with blanks around that. -/
theorem isPadded_trim (s : Text) : IsPadded (Text.trim s) s := by
  let rest := Text.trimStart s
  refine ⟨s.takeWhile isBlank, (rest.reverse.takeWhile isBlank).reverse, ?_, ?_, ?_⟩
  · exact List.all_takeWhile
  · rw [Text.isBlankText_reverse]
    exact List.all_takeWhile
  · have hrest : Text.trim s ++ (rest.reverse.takeWhile isBlank).reverse = rest := by
      rw [Text.trim, Text.trimEnd, ← List.reverse_append, List.takeWhile_append_dropWhile,
        List.reverse_reverse]
    rw [List.append_assoc, hrest]
    exact List.takeWhile_append_dropWhile.symm

theorem notMem_space_of_isBlank {s : Text} (h : ∀ c ∈ s, isBlank c = false) : ' ' ∉ s := by
  intro hmem
  have hspace := h ' ' hmem
  revert hspace
  decide

theorem contains_rangeSeparator {s : Text} (h : ∀ c ∈ s, isBlank c = false) :
    Text.contains s rangeSeparator = false := by
  cases hsplit : Text.splitOnce? rangeSeparator s with
  | none => simp [Text.contains, hsplit]
  | some parts =>
    have hmem : ' ' ∈ s := by
      rw [Text.append_of_splitOnce? hsplit]
      simp [rangeSeparator]
    exact absurd hmem (notMem_space_of_isBlank h)

/-- A range is split where its first separator is. -/
theorem splitRange?_of_parts {value first last low high : Text}
    (hparts : Text.splitOnce? rangeSeparator (unbracketed (Text.trim value)) = some (first, last))
    (hfirst : Text.trim first = low) (hlast : Text.trim last = high) (hlow : low ≠ [])
    (hhigh : high ≠ []) (hhighChars : ∀ c ∈ high, isBlank c = false) :
    splitRange? value = some (low, high) := by
  simp only [splitRange?, hparts, hfirst, hlast]
  rw [if_neg (by simp [hlow, hhigh, contains_rangeSeparator hhighChars])]

theorem splitRange?_rangeText {low high : Text} (hlow : low ≠ []) (hhigh : high ≠ [])
    (hlowChars : ∀ c ∈ low, isBlank c = false) (hhighChars : ∀ c ∈ high, isBlank c = false) :
    splitRange? (rangeText low high) = some (low, high) := by
  have hbrackets :
      unbracketed (Text.trim (rangeText low high)) = low ++ rangeSeparator ++ high := by
    rw [rangeText, Text.trim_enclosed (by decide) (by decide), unbracketed,
      Text.inside?_eq_some_iff.mpr rfl]
    rfl
  refine splitRange?_of_parts ?_ (Text.trim_of_forall hlowChars) (Text.trim_of_forall hhighChars)
    hlow hhigh hhighChars
  rw [hbrackets, splitOnce?_rangeSeparator (notMem_space_of_isBlank hlowChars)]

section Spelled

variable {low high : Text}

theorem splitOnce?_of_isPadded {first : Text} (hfirst : IsPadded low first)
    (hchars : ∀ c ∈ low, isBlank c = false) (hletter : ∀ t, low ≠ 'T' :: t) (last : Text) :
    Text.splitOnce? rangeSeparator (first ++ rangeSeparator ++ last) = some (first, last) := by
  obtain ⟨before, after, hbefore, hafter, rfl⟩ := hfirst
  have hseparator : ∀ t, rangeSeparator ++ last ≠ 'T' :: t := by
    intro t ht
    cases (List.cons.inj ht).1
  -- whether the bound is empty or not, what follows the first blanks does not begin with the letter
  have hnext : ∀ t, low ++ (after ++ (rangeSeparator ++ last)) ≠ 'T' :: t := by
    intro t ht
    rcases low with - | ⟨c, low⟩
    · rcases after with - | ⟨c, after⟩
      · exact hseparator t ht
      · have hc : isBlank 'T' = true :=
          (List.cons.inj ht).1 ▸ List.all_eq_true.mp hafter c List.mem_cons_self
        revert hc
        decide
    · exact hletter low (by rw [(List.cons.inj ht).1])
  rw [List.append_assoc, List.append_assoc, List.append_assoc,
    splitOnce?_append_of_isBlankText hbefore hnext,
    splitOnce?_append_of_notMem (notMem_space_of_isBlank hchars),
    splitOnce?_append_of_isBlankText hafter hseparator, splitOnce?_rangeSeparator_append]
  simp

/-- **Spelled ranges** are split into their bounds. A bound that begins like a separator or like a
range in brackets would be taken for that. -/
theorem SpellsRange.splitRange?_eq {value : Text} (h : SpellsRange low high value)
    (hlow : low ≠ []) (hhigh : high ≠ []) (hlowChars : ∀ c ∈ low, isBlank c = false)
    (hhighChars : ∀ c ∈ high, isBlank c = false) (hletter : ∀ t, low ≠ 'T' :: t)
    (hbracket : ∀ t, low ≠ '[' :: t) : splitRange? value = some (low, high) := by
  have htrimLow := Text.trim_of_forall hlowChars
  have htrimHigh := Text.trim_of_forall hhighChars
  cases h with
  | bare hfirst hlast =>
    obtain ⟨before, after, hbefore, hafter, rfl⟩ := hfirst
    obtain ⟨before', after', hbefore', hafter', rfl⟩ := hlast
    obtain ⟨c, low, rfl⟩ := List.exists_cons_of_ne_nil hlow
    obtain ⟨high, d, rfl⟩ : ∃ high' d, high = high' ++ [d] :=
      ⟨_, _, (List.dropLast_concat_getLast hhigh).symm⟩
    have hfirst : IsPadded (c :: low) (c :: low ++ after) := ⟨[], after, rfl, hafter, rfl⟩
    have hlast : IsPadded (high ++ [d]) (before' ++ (high ++ [d])) :=
      ⟨before', [], hbefore', rfl, by simp⟩
    -- blanks outside go, and what is left begins with the first bound and ends with the second
    let inner : Text := low ++ after ++ rangeSeparator ++ before' ++ high
    have htrim : Text.trim (before ++ (c :: low) ++ after ++ rangeSeparator ++
        (before' ++ (high ++ [d]) ++ after')) = c :: (inner ++ [d]) :=
      calc _ = Text.trim (before ++ (c :: (inner ++ [d])) ++ after') := by simp [inner]
        _ = Text.trim (c :: (inner ++ [d])) := Text.trim_surrounded hbefore hafter' _
        _ = c :: (inner ++ [d]) :=
          Text.trim_enclosed (hlowChars c (by simp)) (hhighChars d (by simp)) inner
    have hbare : unbracketed (c :: (inner ++ [d])) =
        (c :: low ++ after) ++ rangeSeparator ++ (before' ++ (high ++ [d])) := by
      have hc : c ≠ '[' := fun hc => hbracket low (by rw [hc])
      simp [unbracketed, Text.inside?, Text.afterFirst?, hc, inner]
    refine splitRange?_of_parts ?_ (hfirst.trim_eq.trans htrimLow) (hlast.trim_eq.trans htrimHigh)
      hlow hhigh hhighChars
    rw [htrim, hbare, splitOnce?_of_isPadded hfirst hlowChars hletter]
  | @bracketed first last _ hfirst hlast hvalue =>
    have hbrackets : unbracketed (Text.trim value) = first ++ rangeSeparator ++ last := by
      rw [hvalue.trim_eq, rangeText, Text.trim_enclosed (by decide) (by decide), unbracketed,
        Text.inside?_eq_some_iff.mpr rfl]
      rfl
    refine splitRange?_of_parts ?_ (hfirst.trim_eq.trans htrimLow) (hlast.trim_eq.trans htrimHigh)
      hlow hhigh hhighChars
    rw [hbrackets, splitOnce?_of_isPadded hfirst hlowChars hletter]

end Spelled

/-! ### Joined bounds -/

theorem unbracketed_cases (s : Text) : unbracketed s = s ∨ s = '[' :: (unbracketed s ++ [']']) := by
  unfold unbracketed
  cases hinside : Text.inside? '[' ']' s with
  | none => exact .inl rfl
  | some inner => exact .inr (Text.inside?_eq_some_iff.mp hinside)

theorem parts_of_splitRange? {value low high : Text} (h : splitRange? value = some (low, high)) :
    ∃ first last, unbracketed (Text.trim value) = first ++ rangeSeparator ++ last ∧
      Text.trim first = low ∧ Text.trim last = high := by
  unfold splitRange? at h
  split at h
  · cases h
  · next first last hparts =>
    simp only at h
    split at h
    · cases h
    · cases h
      exact ⟨first, last, Text.append_of_splitOnce? hparts, rfl, rfl⟩

/-- The separator is a word of its own among the words of the bounds. -/
theorem words_joined (first last : Text) :
    Text.words (first ++ rangeSeparator ++ last) =
      Text.words first ++ ['T', 'O'] :: Text.words last := by
  have hword : ∀ c ∈ ['T', 'O'], isBlank c = false :=
    List.forall_mem_cons.mpr ⟨by decide, List.forall_mem_singleton.mpr (by decide)⟩
  have hlast := Text.words_append_blank (List.cons_ne_nil 'T' ['O']) hword last
  rw [List.append_assoc]
  exact (Text.words_append_cons (by decide) first _).trans (congrArg _ hlast)

theorem eq_of_append_separator {xs ys : List Text} {low sep high : Text}
    (h : xs ++ sep :: ys = [low, sep, high]) (hlow : low ≠ sep) (hhigh : high ≠ sep) :
    xs = [low] ∧ ys = [high] := by
  rcases xs with - | ⟨x, - | ⟨y, - | ⟨z, xs⟩⟩⟩ <;> simp_all

/-- Joined bounds in brackets come from a bracket at the start of the first and another at the end
of the second: the separator is not left out where a bound is empty. -/
theorem brackets_of_trim_joined {first last inner : Text}
    (h : Text.trim (Text.trim first ++ rangeSeparator ++ Text.trim last) =
      '[' :: (inner ++ [']'])) :
    (∃ t, Text.trim first = '[' :: t) ∧ ∃ t, Text.trim last = t ++ [']'] := by
  have hblank : Text.isBlankText [' '] = true := by decide
  have hnone : Text.isBlankText [] = true := rfl
  constructor
  · rcases hfirst : Text.trim first with - | ⟨c, t⟩
    · -- without a first bound the text would begin with the separator
      obtain ⟨s, hs⟩ := Text.exists_trim_cons (c := 'T') (by decide) ('O' :: ' ' :: Text.trim last)
      have hspace := Text.trim_surrounded hblank hnone ('T' :: 'O' :: ' ' :: Text.trim last)
      rw [List.append_nil, hs] at hspace
      rw [hfirst] at h
      cases (List.cons.inj (hspace.symm.trans h)).1
    · -- the first bound keeps its first character
      obtain ⟨s, hs⟩ := Text.exists_trim_cons (Text.isBlank_of_trim_eq_cons hfirst)
        (t ++ rangeSeparator ++ Text.trim last)
      rw [hfirst, List.cons_append, List.cons_append, hs] at h
      rw [(List.cons.inj h).1]
      exact ⟨t, rfl⟩
  · rw [← List.cons_append] at h
    rcases List.eq_nil_or_concat (Text.trim last) with hlast | ⟨t, c, hlast⟩
    · -- without a last bound it would end with the separator
      obtain ⟨s, hs⟩ :=
        Text.exists_trim_concat (c := 'O') (by decide) (Text.trim first ++ [' ', 'T'])
      have hspace := Text.trim_surrounded hnone hblank (Text.trim first ++ [' ', 'T'] ++ ['O'])
      rw [List.nil_append, hs] at hspace
      rw [hlast, List.append_nil] at h
      have hend : s ++ ['O'] = '[' :: inner ++ [']'] := by
        rw [← h, ← hspace]
        simp [rangeSeparator]
      cases List.append_inj_right' hend rfl
    · -- the last bound keeps its last character
      rw [List.concat_eq_append] at hlast
      obtain ⟨s, hs⟩ := Text.exists_trim_concat (Text.isBlank_of_trim_eq_concat hlast)
        (Text.trim first ++ rangeSeparator ++ t)
      rw [hlast, ← List.append_assoc, hs] at h
      have hend := List.append_inj_right' h rfl
      rw [hlast, hend]
      exact ⟨t, rfl⟩

/-- **Joined bounds** that are split into two words, neither of them the separator, are split where
they were joined, unless they brought brackets along. -/
theorem splitRange?_joined {first last low high : Text}
    (h : splitRange? (Text.trim first ++ rangeSeparator ++ Text.trim last) = some (low, high))
    (hlow : Text.words low = [low]) (hhigh : Text.words high = [high]) (hlowWord : low ≠ ['T', 'O'])
    (hhighWord : high ≠ ['T', 'O']) :
    (Text.trim first = low ∧ Text.trim last = high) ∨
      (∃ t, Text.trim first = '[' :: t) ∧ ∃ t, Text.trim last = t ++ [']'] := by
  obtain ⟨before, after, hparts, rfl, rfl⟩ := parts_of_splitRange? h
  rcases unbracketed_cases (Text.trim (Text.trim first ++ rangeSeparator ++ Text.trim last)) with
    hbare | hbrackets
  · left
    have hwords : Text.words first ++ ['T', 'O'] :: Text.words last =
        [Text.trim before, ['T', 'O'], Text.trim after] :=
      calc Text.words first ++ ['T', 'O'] :: Text.words last
          = Text.words (Text.trim first ++ rangeSeparator ++ Text.trim last) := by
            rw [words_joined, Text.words_trim, Text.words_trim]
        _ = Text.words (before ++ rangeSeparator ++ after) := by
            rw [← Text.words_trim, ← hbare, hparts]
        _ = [Text.trim before, ['T', 'O'], Text.trim after] := by
            rw [words_joined, ← Text.words_trim before, ← Text.words_trim after, hlow, hhigh]
            rfl
    obtain ⟨hfirst, hlast⟩ := eq_of_append_separator hwords hlowWord hhighWord
    exact ⟨Text.trim_eq_of_words hfirst, Text.trim_eq_of_words hlast⟩
  · exact .inr (brackets_of_trim_joined hbrackets)

end FilterAlgebra
