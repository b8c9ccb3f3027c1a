import FilterAlgebra.Json.Printer
import FilterAlgebra.Json.Reader
import FilterAlgebra.Proofs.Number.Written
import Mathlib.Data.List.Forall2
import Mathlib.Data.List.TakeWhile

/-!
# JSON strings and numbers are read as they were written

A string is followed character by character: each is written in one of three ways (`Writes`), and
each way is read as one piece. Numbers are integers of at most sixty-four bits, since no other is
read exactly; what stands behind a number has to end it (`EndsValue`).
-/

namespace FilterAlgebra

namespace Json

/-! ### Strings -/

/-- A character, how it is written between quotes, and the piece that it is read as. -/
inductive Writes (c : Char) : Text → Piece → Prop
  | plain (hquote : c ≠ '"') (hbackslash : c ≠ '\\') (hcontrol : 0x20 ≤ c.toNat) :
      Writes c [c] (.char c)
  | short {e : Char} (hunit : e ≠ 'u') (he : shortEscape? e = some c) :
      Writes c ['\\', e] (.char c)
  | unit {a b : Char} (hcontrol : c.toNat < 0x20) (hab : hexUnit? '0' '0' a b = some c.toNat) :
      Writes c ['\\', 'u', '0', '0', a, b] (.unit c.toNat)

theorem hexUnit?_control {n : Nat} (h : n < 0x20) :
    hexUnit? '0' '0' (hexDigit (n / 16)) (hexDigit (n % 16)) = some n := by
  have hall : ∀ k : Fin 0x20,
      hexUnit? '0' '0' (hexDigit (k.val / 16)) (hexDigit (k.val % 16)) = some k.val := by
    decide
  exact hall ⟨n, h⟩

theorem exists_writes (c : Char) : ∃ piece, Writes c (escapedChar c) piece := by
  unfold escapedChar
  -- the seven characters with an escape of one letter
  iterate 7
    split
    · next h =>
      subst h
      exact ⟨_, .short (by decide) rfl⟩
  next hquote hbackslash _ _ _ _ _ =>
    split
    · next hcontrol => exact ⟨_, .unit hcontrol (hexUnit?_control hcontrol)⟩
    · next hcontrol => exact ⟨_, .plain hquote hbackslash (Nat.le_of_not_lt hcontrol)⟩

theorem Writes.readPieces?_append {c : Char} {s rest rest' : Text} {piece : Piece}
    {pieces : List Piece} (h : Writes c s piece)
    (hrest : readPieces? rest = some (pieces, rest')) :
    readPieces? (s ++ rest) = some (piece :: pieces, rest') := by
  cases h with
  | plain hquote hbackslash hcontrol =>
    -- a character as it is
    have hkept : ¬(c = '\\' ∨ c.toNat < 0x20) := by
      rintro (hc | hc)
      · exact hbackslash hc
      · omega
    change readPieces? (c :: rest) = _
    rw [readPieces?, if_neg hkept, hrest]
    · exact hquote
    · intro a b d e u h
      exact absurd h hbackslash
    · intro d u h
      exact absurd h hbackslash
  | short hunit he =>
    -- a backslash and one letter
    rename_i e
    change readPieces? ('\\' :: e :: rest) = _
    rw [readPieces?, he, hrest]
    intro a b d f u h
    exact absurd h hunit
  | unit hcontrol hab =>
    -- a code of four digits, of which a control character leaves the first two zero
    rename_i a b
    change readPieces? ('\\' :: 'u' :: '0' :: '0' :: a :: b :: rest) = _
    rw [readPieces?, hab, hrest]

theorem joinPieces?_unit {n : Nat} (h : n < 0xD800) (pieces : List Piece) :
    joinPieces? (.unit n :: pieces) = (joinPieces? pieces).map (Char.ofNat n :: ·) := by
  have hhigh : ¬(0xD800 ≤ n ∧ n ≤ 0xDBFF) := by omega
  have hlow : ¬(0xDC00 ≤ n ∧ n ≤ 0xDFFF) := by omega
  have hneither : ¬(0xD800 ≤ n ∧ n ≤ 0xDFFF) := by omega
  rcases pieces with - | ⟨piece, pieces⟩
  · simp only [joinPieces?, if_neg hneither]
  · cases piece with
    | char c => simp only [joinPieces?, if_neg hneither]
    | unit low => simp only [joinPieces?, if_neg hhigh, if_neg hlow]

theorem Writes.joinPieces?_cons {c : Char} {s text : Text} {piece : Piece} {pieces : List Piece}
    (h : Writes c s piece) (hpieces : joinPieces? pieces = some text) :
    joinPieces? (piece :: pieces) = some (c :: text) := by
  cases h with
  | plain hquote hbackslash hcontrol =>
    rw [joinPieces?, hpieces]
    rfl
  | short hunit he =>
    rw [joinPieces?, hpieces]
    rfl
  | unit hcontrol hab =>
    rw [joinPieces?_unit (by omega), hpieces, Option.map_some, Char.ofNat_toNat]

/-- The text between the quotes is read up to the closing quote, as pieces that spell it. -/
theorem readPieces?_escaped (s rest : Text) :
    ∃ pieces, readPieces? (s.flatMap escapedChar ++ '"' :: rest) = some (pieces, rest) ∧
      joinPieces? pieces = some s := by
  induction s with
  | nil => exact ⟨[], by simp [readPieces?], rfl⟩
  | cons c s ih =>
    obtain ⟨pieces, hread, hjoin⟩ := ih
    obtain ⟨piece, hpiece⟩ := exists_writes c
    refine ⟨piece :: pieces, ?_, hpiece.joinPieces?_cons hjoin⟩
    rw [List.flatMap_cons, List.append_assoc]
    exact hpiece.readPieces?_append hread

theorem stringText_append (s rest : Text) :
    stringText s ++ rest = '"' :: (s.flatMap escapedChar ++ '"' :: rest) := by
  rw [stringText, List.cons_append, List.append_assoc]
  rfl

/-! ### Ends of values -/

/-- The characters that may stand behind a value: commas, closing brackets and spaces. -/
def endings : List Char := [',', ']', '\x7d', ' ', '\t', '\n', '\r']

/-- Whether a text may stand behind a value. -/
def EndsValue (rest : Text) : Prop := ∀ c ∈ rest.head?, c ∈ endings

theorem endsValue_nil : EndsValue [] := by
  intro c hc
  cases hc

theorem endsValue_cons {c : Char} {rest : Text} (h : c ∈ endings) : EndsValue (c :: rest) := by
  intro d hd
  cases hd
  exact h

def IsSpaces (s : Text) : Prop := ∀ c ∈ s, isSpace c = true

theorem isSpaces_nil : IsSpaces [] := List.forall_mem_nil _

theorem skipSpace_append {spaces : Text} (h : IsSpaces spaces) (s : Text) :
    skipSpace (spaces ++ s) = skipSpace s :=
  List.dropWhile_append_of_pos h

theorem skipSpace_cons {c : Char} (h : isSpace c = false) (s : Text) :
    skipSpace (c :: s) = c :: s :=
  List.dropWhile_cons_of_neg (by rw [h]; exact Bool.false_ne_true)

theorem mem_endings_of_isSpace {c : Char} (h : isSpace c = true) : c ∈ endings := by
  simp only [isSpace, Bool.or_eq_true, decide_eq_true_eq] at h
  rcases h with ((rfl | rfl) | rfl) | rfl <;> decide

theorem IsSpaces.endsValue {spaces rest : Text} (h : IsSpaces spaces) (hrest : EndsValue rest) :
    EndsValue (spaces ++ rest) := by
  cases spaces with
  | nil => exact hrest
  | cons c spaces => exact endsValue_cons (mem_endings_of_isSpace (h c List.mem_cons_self))

/-! ### Numbers -/

theorem EndsValue.digits {rest : Text} (h : EndsValue rest) (n : Nat) :
    (natText n ++ rest).takeWhile Char.isDigit = natText n ∧
      (natText n ++ rest).dropWhile Char.isDigit = rest := by
  have hdigits : ∀ c ∈ natText n, c.isDigit = true := fun c => isDigit_of_mem_natText
  have hrest : rest.takeWhile Char.isDigit = [] ∧ rest.dropWhile Char.isDigit = rest := by
    rcases rest with - | ⟨c, rest⟩
    · exact ⟨rfl, rfl⟩
    · have hendings : ∀ c ∈ endings, ¬c.isDigit = true := by simp [endings]
      have hc := hendings c (h c rfl)
      exact ⟨List.takeWhile_cons_of_neg hc, List.dropWhile_cons_of_neg hc⟩
  rw [List.takeWhile_append_of_pos hdigits, List.dropWhile_append_of_pos hdigits, hrest.1, hrest.2,
    List.append_nil]
  exact ⟨rfl, rfl⟩

theorem readWhole?_natText {rest : Text} (h : EndsValue rest) (n : Nat) :
    readWhole? (natText n ++ rest) = some (natText n, rest) := by
  unfold readWhole?
  rw [(h.digits n).1, (h.digits n).2]
  split
  · next hnil => exact absurd hnil (natText_ne_nil n)
  · next c t hzero =>
    rcases Nat.eq_zero_or_pos n with rfl | hpos
    · cases hzero
    · exact absurd hzero (natText_ne_zero_cons hpos _)
  · rfl

theorem EndsValue.readFraction? {rest : Text} (h : EndsValue rest) :
    Json.readFraction? rest = some ([], rest) := by
  cases rest with
  | nil => rfl
  | cons c rest =>
    have hpoint : ∀ c ∈ endings, c ≠ '.' := by simp [endings]
    unfold Json.readFraction?
    split
    · next t hpointed => exact absurd (List.cons.inj hpointed).1 (hpoint c (h c rfl))
    · rfl

theorem EndsValue.readPower? {rest : Text} (h : EndsValue rest) :
    Json.readPower? rest = some (none, rest) := by
  cases rest with
  | nil => rfl
  | cons c rest =>
    have hexponent : ∀ c ∈ endings, ¬(c = 'e' ∨ c = 'E') := by simp [endings]
    rw [Json.readPower?, if_neg (hexponent c (h c rfl))]

theorem numberOf_natText {negative : Bool} {k : Nat} {n : Int} (hzero : negative = true → 0 < k)
    (hn : (if negative then -(k : Int) else k) = n)
    (hfits : fitsSigned n = true ∨ fitsUnsigned n = true) :
    numberOf negative (natText k) [] none = .int n := by
  have hinteger : ¬(negative = true ∧ (k : Int) = 0) := by
    rintro ⟨hnegative, hk⟩
    have hpos := hzero hnegative
    omega
  simp only [numberOf, digitsValue_natText, hn]
  exact if_pos ⟨⟨trivial, trivial, hinteger⟩, hfits⟩

theorem readNumber_intText {rest : Text} (h : EndsValue rest) {n : Int}
    (hfits : fitsSigned n = true ∨ fitsUnsigned n = true) :
    readNumber (intText n ++ rest) = (.int n, some rest) := by
  unfold intText
  by_cases hneg : n < 0
  · have hnumber : numberOf true (natText n.natAbs) [] none = .int n :=
      numberOf_natText (fun _ => by omega) (by rw [if_pos rfl]; omega) hfits
    rw [if_pos hneg, List.cons_append]
    simp only [readNumber, readWhole?_natText h, h.readFraction?, h.readPower?, hnumber]
  · have hnumber : numberOf false (natText n.natAbs) [] none = .int n :=
      numberOf_natText (fun hfalse => by cases hfalse)
        (by rw [if_neg Bool.false_ne_true]; omega) hfits
    -- what the reader asks of the text before it takes it as unsigned
    have hsign : ∀ t, natText n.natAbs ++ rest = '-' :: t → False :=
      natText_append_ne_minus n.natAbs rest
    rw [if_neg hneg]
    simp only [readNumber, readWhole?_natText h, h.readFraction?, h.readPower?, hnumber]

end Json

end FilterAlgebra
