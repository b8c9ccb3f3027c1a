import FilterAlgebra.Query.Escape

/-!
# Scanning

Atoms are scanned piece by piece: a character that stands for itself, a backslash with the character
it escapes, or a block that is taken whole, such as a phrase. Which characters and blocks there are
differs from place to place, so they are the parameters of a lexis (`Lexis`); the laws of a lexis
say that the first character tells what kind of piece begins, and that the text settles where a
block ends. Then the text also settles where a run of pieces ends, if it ends before a character
that begins none (`Run.eq_of_append`).
-/

namespace FilterAlgebra

/-- What stands before the first character without a property is settled by the text. -/
theorem append_cons_inj_of_forall {p : Char → Prop} {c c' : Char} {s s' r r' : Text}
    (hs : ∀ x ∈ s, p x) (hs' : ∀ x ∈ s', p x) (hc : ¬p c) (hc' : ¬p c')
    (heq : s ++ c :: r = s' ++ c' :: r') : s = s' ∧ c = c' := by
  induction s generalizing s' with
  | nil =>
    cases s' with
    | nil => exact ⟨rfl, (List.cons.inj heq).1⟩
    | cons x s' =>
      have hx := (List.cons.inj heq).1
      exact absurd (hx ▸ hs' x List.mem_cons_self) hc
  | cons x s ih =>
    cases s' with
    | nil =>
      have hx := (List.cons.inj heq).1
      exact absurd (hx ▸ hs x List.mem_cons_self) hc'
    | cons x' s' =>
      obtain ⟨rfl, htail⟩ := List.cons.inj heq
      obtain ⟨rfl, hcc⟩ := ih (fun y hy => hs y (List.mem_cons_of_mem x hy))
        (fun y hy => hs' y (List.mem_cons_of_mem x hy)) htail
      exact ⟨rfl, hcc⟩

/-- The pieces of a place in the query language. -/
structure Lexis where
  /-- The characters that stand for themselves. -/
  IsPlain : Char → Prop
  /-- The characters with which a block begins. -/
  IsOpening : Char → Prop
  IsBlock : Text → Prop
  not_isPlain_backslash : ¬IsPlain '\\'
  not_isOpening_backslash : ¬IsOpening '\\'
  not_isPlain_of_isOpening : ∀ {c : Char}, IsOpening c → ¬IsPlain c
  exists_of_isBlock : ∀ {s : Text}, IsBlock s → ∃ c t, s = c :: t ∧ IsOpening c
  eq_of_isBlock : ∀ {s s' r r' : Text}, IsBlock s → IsBlock s' → s ++ r = s' ++ r' → s = s'

namespace Lexis

theorem exists_of_no_block {s : Text} : False → ∃ c t, s = c :: t ∧ False := False.elim

theorem eq_of_no_block {s s' r r' : Text} : False → False → s ++ r = s' ++ r' → s = s' :=
  fun h => h.elim

variable {L : Lexis}

inductive IsPiece (L : Lexis) : Text → Prop where
  | plain {c : Char} : L.IsPlain c → IsPiece L [c]
  | escaped (c : Char) : IsPiece L ['\\', c]
  | block {s : Text} : L.IsBlock s → IsPiece L s

/-- A run of pieces. -/
inductive Run (L : Lexis) : Text → Prop where
  | nil : Run L []
  | piece {s t : Text} : L.IsPiece s → Run L t → Run L (s ++ t)

/-- Whether a character may begin a piece. -/
def Begins (L : Lexis) (c : Char) : Prop := L.IsPlain c ∨ c = '\\' ∨ L.IsOpening c

/-- Whether a text is empty or begins with a character that begins no piece. -/
def Stops (L : Lexis) (r : Text) : Prop := ∀ c t, r = c :: t → ¬L.Begins c

theorem stops_cons {c : Char} {r : Text} : L.Stops (c :: r) ↔ ¬L.Begins c := by
  constructor
  · intro h
    exact h c r rfl
  · intro h c' t heq
    cases heq
    exact h

/-! ### Pieces -/

theorem IsPiece.begins {s : Text} (h : L.IsPiece s) : ∃ c t, s = c :: t ∧ L.Begins c := by
  cases h with
  | plain hc => exact ⟨_, [], rfl, .inl hc⟩
  | escaped c => exact ⟨'\\', [c], rfl, .inr (.inl rfl)⟩
  | block hs =>
    obtain ⟨c, t, rfl, hc⟩ := L.exists_of_isBlock hs
    exact ⟨c, t, rfl, .inr (.inr hc)⟩

theorem IsPiece.eq_of_append {s s' r r' : Text} (h : L.IsPiece s) (h' : L.IsPiece s')
    (heq : s ++ r = s' ++ r') : s = s' := by
  cases h with
  | plain hc =>
    cases h' with
    | plain hc' => rw [(List.cons.inj heq).1]
    | escaped c =>
      -- the first characters differ, as the kinds of pieces do
      rw [(List.cons.inj heq).1] at hc
      exact absurd hc L.not_isPlain_backslash
    | block hs =>
      obtain ⟨c, t, rfl, hopening⟩ := L.exists_of_isBlock hs
      rw [(List.cons.inj heq).1] at hc
      exact absurd hc (L.not_isPlain_of_isOpening hopening)
  | escaped c =>
    cases h' with
    | plain hc' =>
      rw [← (List.cons.inj heq).1] at hc'
      exact absurd hc' L.not_isPlain_backslash
    | escaped c' =>
      -- behind both backslashes stands one character
      have htail := (List.cons.inj heq).2
      rw [(List.cons.inj htail).1]
    | block hs =>
      obtain ⟨c, t, rfl, hopening⟩ := L.exists_of_isBlock hs
      rw [← (List.cons.inj heq).1] at hopening
      exact absurd hopening L.not_isOpening_backslash
  | block hs =>
    cases h' with
    | plain hc' =>
      obtain ⟨c, t, rfl, hopening⟩ := L.exists_of_isBlock hs
      rw [← (List.cons.inj heq).1] at hc'
      exact absurd hc' (L.not_isPlain_of_isOpening hopening)
    | escaped c' =>
      obtain ⟨c, t, rfl, hopening⟩ := L.exists_of_isBlock hs
      rw [(List.cons.inj heq).1] at hopening
      exact absurd hopening L.not_isOpening_backslash
    -- two blocks end at the same place by the law of the lexis
    | block hs' => exact L.eq_of_isBlock hs hs' heq

/-! ### Runs -/

namespace Run

theorem begins {c : Char} {t : Text} (h : L.Run (c :: t)) : L.Begins c := by
  generalize hs : c :: t = s at h
  cases h with
  | nil => cases hs
  | piece hpiece _ =>
    obtain ⟨c', t', rfl, hbegins⟩ := hpiece.begins
    rw [(List.cons.inj hs).1]
    exact hbegins

/-- **Where a run ends** is settled by the text. -/
theorem eq_of_append {s s' r r' : Text} (h : L.Run s) (h' : L.Run s') (hr : L.Stops r)
    (hr' : L.Stops r') (heq : s ++ r = s' ++ r') : s = s' := by
  induction h generalizing s' with
  | nil =>
    cases h' with
    | nil => rfl
    | piece hpiece _ =>
      obtain ⟨c, t, rfl, hbegins⟩ := hpiece.begins
      exact absurd hbegins (hr c _ heq)
  | piece hpiece _ ih =>
    cases h' with
    | nil =>
      obtain ⟨c, t, rfl, hbegins⟩ := hpiece.begins
      exact absurd hbegins (hr' c _ heq.symm)
    | piece hpiece' hrest' =>
      rw [List.append_assoc, List.append_assoc] at heq
      obtain rfl := hpiece.eq_of_append hpiece' heq
      rw [ih hrest' (List.append_cancel_left heq)]

theorem append {s t : Text} (hs : L.Run s) (ht : L.Run t) : L.Run (s ++ t) := by
  induction hs with
  | nil => exact ht
  | piece hpiece _ ih =>
    rw [List.append_assoc]
    exact .piece hpiece ih

/-- A piece in front of a text has no say in whether the text is a run. -/
theorem piece_append_iff {s t : Text} (hpiece : L.IsPiece s) : L.Run (s ++ t) ↔ L.Run t := by
  constructor
  · intro h
    generalize hst : s ++ t = u at h
    cases h with
    | nil =>
      obtain ⟨c, s, rfl, -⟩ := hpiece.begins
      cases hst
    | piece hpiece' hrest =>
      obtain rfl := hpiece.eq_of_append hpiece' hst
      rw [List.append_cancel_left hst]
      exact hrest
  · exact piece hpiece

theorem of_piece {s : Text} (h : L.IsPiece s) : L.Run s := by
  have hrun := piece h nil
  rwa [List.append_nil] at hrun

theorem of_plain {s : Text} (h : ∀ c ∈ s, L.IsPlain c) : L.Run s := by
  induction s with
  | nil => exact nil
  | cons c s ih =>
    have hc : L.IsPiece [c] := .plain (h c List.mem_cons_self)
    exact piece hc (ih fun c' hc' => h c' (List.mem_cons_of_mem c hc'))

theorem flatMap {f : Char → Text} {s : Text} (h : ∀ c ∈ s, L.Run (f c)) : L.Run (s.flatMap f) := by
  induction s with
  | nil => exact nil
  | cons c s ih =>
    rw [List.flatMap_cons]
    exact append (h c List.mem_cons_self) (ih fun c' hc' => h c' (List.mem_cons_of_mem c hc'))

/-- A value is a run as a term wherever the characters that a term leaves as they are stand for
themselves. -/
theorem escapeTerm (h : ∀ c, needsEscape c = false → L.IsPlain c) (value : Text) :
    L.Run (FilterAlgebra.escapeTerm value) := by
  apply flatMap
  intro c _
  unfold escapedTermChar
  split
  · exact of_piece (.escaped c)
  · next hc => exact of_piece (.plain (h c (by simpa using hc)))

end Run

end Lexis

end FilterAlgebra
