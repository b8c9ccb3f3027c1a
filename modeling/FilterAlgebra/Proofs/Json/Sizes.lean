import FilterAlgebra.Json.Reader
import FilterAlgebra.Proofs.Number.Lengths

/-!
# How much can be read of a text

A reading is no larger than its text. A string takes no more octets than its spelling, with escapes
or without, and a list has no more items than its text has octets, since each item takes some. So
every length in the reading of a text of less than `2 ^ 64` octets fits a head of 64 bits
(`read_fitsHeads`).
-/

namespace FilterAlgebra

namespace Text

/-! ### Octets -/

/-- The number of octets of a text in UTF-8. -/
def octetCount (s : Text) : Nat := (toBytes s).length

theorem octetCount_cons (c : Char) (s : Text) : octetCount (c :: s) = c.utf8Size + octetCount s := by
  rw [octetCount, toBytes, List.flatMap_cons, List.length_append, String.length_utf8EncodeChar]
  rfl

theorem octetCount_append (s t : Text) : octetCount (s ++ t) = octetCount s + octetCount t := by
  rw [octetCount, toBytes, List.flatMap_append, List.length_append]
  rfl

theorem octetCount_pos {s : Text} (h : s ≠ []) : 0 < octetCount s := by
  obtain ⟨c, s, rfl⟩ := List.exists_cons_of_ne_nil h
  rw [octetCount_cons]
  exact Nat.add_pos_left c.utf8Size_pos _

theorem octetCount_le_of_suffix {s t : Text} (h : t <:+ s) : octetCount t ≤ octetCount s := by
  obtain ⟨before, rfl⟩ := h
  rw [octetCount_append]
  exact Nat.le_add_left _ _

theorem octetCount_le_mul (s : Text) : octetCount s ≤ 4 * s.length := by
  induction s with
  | nil => exact Nat.le_refl 0
  | cons c s ih =>
    have hc := c.utf8Size_le_four
    rw [octetCount_cons, List.length_cons]
    omega

end Text

open Text

namespace Json

/-! ### Strings -/

/-- The octets that the spelling of a piece takes at least. -/
def Piece.octetCount : Piece → Nat
  | .char c => c.utf8Size
  | .unit _ => 6

theorem utf8Size_le_of_shortEscape? {e c : Char} (h : shortEscape? e = some c) :
    c.utf8Size ≤ 1 := by
  unfold shortEscape? at h
  split at h
  · next he =>
    obtain rfl := Option.some.inj h
    rcases he with rfl | rfl | rfl <;> decide
  -- the five letters
  iterate 5
    split at h
    · obtain rfl := Option.some.inj h
      decide
  cases h

/-- The pieces of a string and its closing quote come from octets of their own. -/
theorem readPieces?_octetCount {s rest : Text} {pieces : List Piece}
    (h : readPieces? s = some (pieces, rest)) :
    (pieces.map Piece.octetCount).sum + octetCount rest < octetCount s := by
  fun_induction readPieces? s generalizing pieces rest with
  | case1 => cases h
  | case2 t =>
    -- the closing quote
    cases h
    rw [octetCount_cons, List.map_nil, List.sum_nil]
    have hquote := Char.utf8Size_pos '"'
    omega
  | case3 a b c d t n pieces' rest' hrest hunit ih =>
    -- a code takes the six octets of its six characters
    cases h
    have ih := ih hrest
    have hpos := fun x : Char => x.utf8Size_pos
    have hsix := And.intro (hpos a) (And.intro (hpos b) (And.intro (hpos c) (hpos d)))
    have hescape := And.intro (hpos '\\') (hpos 'u')
    simp only [octetCount_cons, List.map_cons, List.sum_cons, Piece.octetCount]
    omega
  | case4 => cases h
  | case5 e t hunit c pieces' rest' hrest hescape ih =>
    -- what a short escape stands for is one octet long
    cases h
    have ih := ih hrest
    have hc := utf8Size_le_of_shortEscape? hescape
    have hbackslash := Char.utf8Size_pos '\\'
    simp only [octetCount_cons, List.map_cons, List.sum_cons, Piece.octetCount]
    omega
  | case6 => cases h
  | case7 => cases h
  | case8 c t hquote hunit hshort hplain pieces' rest' hrest ih =>
    cases h
    have ih := ih hrest
    simp only [octetCount_cons, List.map_cons, List.sum_cons, Piece.octetCount]
    omega
  | case9 => cases h

/-- What pieces spell takes no more octets than they do. -/
theorem octetCount_joinPieces? {pieces : List Piece} {s : Text} (h : joinPieces? pieces = some s) :
    octetCount s ≤ (pieces.map Piece.octetCount).sum := by
  have hunit (n : Nat) : (Char.ofNat n).utf8Size ≤ 6 :=
    Nat.le_trans (Char.utf8Size_le_four _) (by decide)
  fun_induction joinPieces? pieces generalizing s with
  | case1 =>
    cases h
    exact Nat.le_refl 0
  | case2 c pieces ih =>
    obtain ⟨t, ht, rfl⟩ := Option.map_eq_some_iff.mp h
    have ih := ih ht
    simp only [octetCount_cons, List.map_cons, List.sum_cons, Piece.octetCount]
    omega
  | case3 high low pieces hhigh hlow ih =>
    obtain ⟨t, ht, rfl⟩ := Option.map_eq_some_iff.mp h
    have ih := ih ht
    -- two halves of a pair are one character
    have hc := hunit (0x10000 + (high - 0xD800) * 0x400 + (low - 0xDC00))
    simp only [octetCount_cons, List.map_cons, List.sum_cons, Piece.octetCount]
    omega
  | case4 => cases h
  | case5 => cases h
  | case6 high low pieces hhigh hlow ih =>
    obtain ⟨t, ht, rfl⟩ := Option.map_eq_some_iff.mp h
    have ih := ih ht
    have hc := hunit high
    simp only [octetCount_cons, List.map_cons, List.sum_cons, Piece.octetCount] at ih ⊢
    omega
  | case7 => cases h
  | case8 n pieces hpair hplain ih =>
    obtain ⟨t, ht, rfl⟩ := Option.map_eq_some_iff.mp h
    have ih := ih ht
    have hc := hunit n
    simp only [octetCount_cons, List.map_cons, List.sum_cons, Piece.octetCount]
    omega

/-- What is left of a text after its first string. -/
theorem octetCount_str {s rest value : Text} {pieces : List Piece}
    (h : readPieces? s = some (pieces, rest)) (hjoin : joinPieces? pieces = some value) :
    octetCount value + octetCount rest < octetCount s :=
  Nat.lt_of_le_of_lt (Nat.add_le_add_right (octetCount_joinPieces? hjoin) _)
    (readPieces?_octetCount h)

/-! ### Readings that fit -/

/-- Readings in which every length has a head and every number is a binary64 number. -/
inductive Reading.FitsHeads : Reading → Prop
  | null : FitsHeads .null
  | bool (value : Bool) : FitsHeads (.bool value)
  | int (value : Int) : FitsHeads (.int value)
  | float {value : Binary64} (h : value.InFormat) : FitsHeads (.float value)
  | str {value : Text} (h : octetCount value < 2 ^ 64) : FitsHeads (.str value)
  | arr {items : List Reading} (hlength : items.length < 2 ^ 64)
      (hitems : ∀ item ∈ items, FitsHeads item) : FitsHeads (.arr items)
  | obj {members : List (Text × Reading)} (h : ∀ member ∈ members, FitsHeads member.2) :
      FitsHeads (.obj members)
  | torn (members : List (Text × Reading)) (whole : Bool) : FitsHeads (.torn members whole)
  | unusable : FitsHeads .unusable
  | broken : FitsHeads .broken

theorem Reading.FitsHeads.withMember {object value : Reading} (hobject : object.FitsHeads)
    (hvalue : value.FitsHeads) (key : Text) : (object.withMember key value).FitsHeads := by
  cases hobject with
  | obj h => exact .obj (List.forall_mem_cons.mpr ⟨hvalue, h⟩)
  | torn members whole => exact .torn _ whole
  | null => exact .null
  | bool value => exact .bool value
  | int value => exact .int value
  | float h => exact .float h
  | str h => exact .str h
  | arr hlength hitems => exact .arr hlength hitems
  | unusable => exact .unusable
  | broken => exact .broken

/-! ### Numbers -/

theorem inFormat_of_filter {x y : Binary64} (h : (some x).filter Binary64.isFinite = some y)
    (hx : x.InFormat) : y.InFormat := by
  obtain ⟨hsome, -⟩ := Option.filter_eq_some_iff.mp h
  cases hsome
  exact hx

theorem inFormat_product? {x y z : Binary64} (h : x.product? y = some z) : z.InFormat := by
  unfold Binary64.product? at h
  split at h
  · exact inFormat_of_filter h (Binary64.inFormat_ofRatio _ _ _)
  · cases h

theorem inFormat_quotient? {x y z : Binary64} (h : x.quotient? y = some z) : z.InFormat := by
  unfold Binary64.quotient? at h
  split at h
  · split at h
    · cases h
    · exact inFormat_of_filter h (Binary64.inFormat_ofRatio _ _ _)
  · cases h

theorem inFormat_scaled? {x y : Binary64} {exponent : Int} (h : x.scaled? exponent = some y)
    (hx : x.InFormat) : y.InFormat := by
  unfold Binary64.scaled? at h
  split at h
  · cases h
    exact hx
  split at h
  · split at h
    · exact inFormat_product? h
    · cases h
  · obtain ⟨z, -, hz⟩ := Option.bind_eq_some_iff.mp h
    exact inFormat_quotient? hz

theorem inFormat_ofDigits? {negative : Bool} {whole fraction : Text} {power : Int} {x : Binary64}
    (h : Binary64.ofDigits? negative whole fraction power = some x) : x.InFormat := by
  simp only [Binary64.ofDigits?] at h
  exact inFormat_scaled? h (Binary64.inFormat_ofRatio _ _ _)

theorem fitsHeads_numberOf (negative : Bool) (whole fraction : Text) (power : Option Int) :
    (numberOf negative whole fraction power).FitsHeads := by
  unfold numberOf
  extract_lets magnitude integer isInteger
  split
  · exact .int integer
  split
  · next value h => exact .float (inFormat_ofDigits? h)
  · exact .unusable

theorem octetCount_readWhole? {s digits rest : Text} (h : readWhole? s = some (digits, rest)) :
    octetCount rest < octetCount s := by
  have happend := octetCount_append (s.takeWhile Char.isDigit) (s.dropWhile Char.isDigit)
  rw [List.takeWhile_append_dropWhile] at happend
  unfold readWhole? at h
  split at h
  · cases h
  · cases h
  · next hne _ =>
    cases h
    have hpos := octetCount_pos hne
    omega

theorem octetCount_readFraction? {s digits rest : Text} (h : readFraction? s = some (digits, rest)) :
    octetCount rest ≤ octetCount s := by
  unfold readFraction? at h
  split at h
  · next t =>
    split at h
    · cases h
    · cases h
      exact octetCount_le_of_suffix ((List.dropWhile_suffix _).trans (List.suffix_cons '.' t))
  · cases h
    exact Nat.le_refl _

theorem octetCount_readSign (s : Text) : octetCount (Decimal.readSign s).2 ≤ octetCount s := by
  unfold Decimal.readSign
  split
  · exact octetCount_le_of_suffix (List.suffix_cons _ _)
  · exact octetCount_le_of_suffix (List.suffix_cons _ _)
  · exact Nat.le_refl _

theorem octetCount_readPower? {s rest : Text} {power : Option Int}
    (h : readPower? s = some (power, rest)) : octetCount rest ≤ octetCount s := by
  cases s with
  | nil =>
    cases h
    exact Nat.le_refl _
  | cons c s =>
    have hsign := octetCount_readSign s
    have hdigits := octetCount_le_of_suffix
      (List.dropWhile_suffix (l := (Decimal.readSign s).2) Char.isDigit)
    simp only [readPower?] at h
    rw [octetCount_cons]
    split at h
    · split at h
      · cases h
      · cases h
        omega
    · cases h
      rw [octetCount_cons]

/-! ### Readers -/

/-- Whether a reader leaves less of a text than there was, if it leaves anything to read on. -/
def Consumes (s : Text) (left : Option Text) : Prop :=
  ∀ rest ∈ left, octetCount rest < octetCount s

theorem consumes_none (s : Text) : Consumes s none := by
  intro rest hrest
  cases hrest

theorem consumes_some {s rest : Text} (h : octetCount rest < octetCount s) :
    Consumes s (some rest) := by
  intro rest' hrest
  cases hrest
  exact h

theorem Consumes.of_le {s t : Text} {left : Option Text} (h : Consumes t left)
    (hle : octetCount t ≤ octetCount s) : Consumes s left :=
  fun rest hrest => Nat.lt_of_lt_of_le (h rest hrest) hle

theorem octetCount_skipSpace_le (s : Text) : octetCount (skipSpace s) ≤ octetCount s :=
  octetCount_le_of_suffix (List.dropWhile_suffix _)

theorem octetCount_lt_of_skipSpace {s rest : Text} {c : Char} (h : skipSpace s = c :: rest) :
    octetCount rest < octetCount s := by
  have hle := octetCount_skipSpace_le s
  have hc := c.utf8Size_pos
  rw [h, octetCount_cons] at hle
  omega

theorem readWord_fitsHeads {word : Text} (hword : word ≠ []) {value : Reading}
    (hvalue : value.FitsHeads) (s : Text) :
    (readWord word value s).1.FitsHeads ∧ Consumes s (readWord word value s).2 := by
  unfold readWord
  split
  · next hprefix =>
    obtain ⟨t, rfl⟩ := List.isPrefixOf_iff_prefix.mp hprefix
    have hpos := octetCount_pos hword
    refine ⟨hvalue, consumes_some ?_⟩
    rw [List.drop_left, octetCount_append]
    omega
  · exact ⟨.broken, consumes_none s⟩

theorem readNumber_fitsHeads (s : Text) :
    (readNumber s).1.FitsHeads ∧ Consumes s (readNumber s).2 := by
  unfold readNumber
  split
  next negative t hsign =>
  -- sign, whole digits, fraction and power, each of which leaves less of the text
  have ht : octetCount t ≤ octetCount s := by
    split at hsign
    · cases hsign
      exact octetCount_le_of_suffix (List.suffix_cons _ _)
    · cases hsign
      exact Nat.le_refl _
  split
  · exact ⟨.broken, consumes_none s⟩
  next whole r hwhole =>
  have hr := octetCount_readWhole? hwhole
  split
  · exact ⟨.broken, consumes_none s⟩
  next fraction r' hfraction =>
  have hr' := octetCount_readFraction? hfraction
  split
  · exact ⟨.broken, consumes_none s⟩
  next power rest hpower =>
  have hrest := octetCount_readPower? hpower
  exact ⟨fitsHeads_numberOf negative whole fraction power, consumes_some (by omega)⟩

mutual

theorem readValue_fitsHeads (fuel : Nat) {s : Text} (h : octetCount s < 2 ^ 64) :
    (readValue fuel s).1.FitsHeads ∧ Consumes s (readValue fuel s).2 := by
  match fuel with
  | 0 => exact ⟨.broken, consumes_none s⟩
  | fuel + 1 =>
    have hskip := octetCount_skipSpace_le s
    rw [readValue]
    split
    · exact ⟨.broken, consumes_none s⟩
    next c rest hs =>
    have hrest := octetCount_lt_of_skipSpace hs
    rw [hs] at hskip
    split
    · -- a string, whose pieces have to make sense together
      split
      · exact ⟨.broken, consumes_none s⟩
      · next pieces rest' hread =>
        split
        · next value hjoin =>
          have hvalue := octetCount_str hread hjoin
          exact ⟨.str (by omega), consumes_some (by omega)⟩
        · have hread := readPieces?_octetCount hread
          exact ⟨.unusable, consumes_some (by omega)⟩
    split
    · -- a list, empty or not
      split
      · next rest' hclose =>
        have hclose := octetCount_lt_of_skipSpace hclose
        exact ⟨.arr (by simp) (List.forall_mem_nil _), consumes_some (by omega)⟩
      · obtain ⟨hitems, hlength, hleft⟩ := readItems_fitsHeads fuel (s := rest) (by omega)
        exact ⟨.arr (by omega) hitems, hleft.of_le (by omega)⟩
    split
    · -- an object, empty or not
      split
      · next rest' hclose =>
        have hclose := octetCount_lt_of_skipSpace hclose
        exact ⟨.obj (List.forall_mem_nil _), consumes_some (by omega)⟩
      · obtain ⟨hmembers, hleft⟩ := readMembers_fitsHeads fuel (s := rest) (by omega)
        exact ⟨hmembers, hleft.of_le (by omega)⟩
    -- what is left is a number or a word
    have hleft : ∀ {r : Reading × Option Text}, r.1.FitsHeads ∧ Consumes (c :: rest) r.2 →
        r.1.FitsHeads ∧ Consumes s r.2 := fun hr => ⟨hr.1, hr.2.of_le hskip⟩
    split
    · exact hleft (readNumber_fitsHeads _)
    split
    · exact hleft (readWord_fitsHeads (by decide) (.bool true) _)
    split
    · exact hleft (readWord_fitsHeads (by decide) (.bool false) _)
    · exact hleft (readWord_fitsHeads (by decide) .null _)
termination_by fuel

theorem readItems_fitsHeads (fuel : Nat) {s : Text} (h : octetCount s < 2 ^ 64) :
    (∀ item ∈ (readItems fuel s).1, item.FitsHeads) ∧
      (readItems fuel s).1.length ≤ octetCount s + 1 ∧ Consumes s (readItems fuel s).2 := by
  match fuel with
  | 0 => exact ⟨List.forall_mem_singleton.mpr .broken, Nat.le_add_left 1 _, consumes_none s⟩
  | fuel + 1 =>
    have hvalue := readValue_fitsHeads fuel h
    rw [readItems]
    split
    · -- the item is broken, and nothing is read behind it
      next item hread =>
      rw [hread] at hvalue
      exact ⟨List.forall_mem_singleton.mpr hvalue.1, Nat.le_add_left 1 _, consumes_none s⟩
    next item rest hread =>
    rw [hread] at hvalue
    have hrest := hvalue.2 rest rfl
    split
    · -- a comma, and more items
      next rest' hnext =>
      have hnext := octetCount_lt_of_skipSpace hnext
      obtain ⟨hitems, hlength, hleft⟩ := readItems_fitsHeads fuel (s := rest') (by omega)
      refine ⟨List.forall_mem_cons.mpr ⟨hvalue.1, hitems⟩, ?_, hleft.of_le (by omega)⟩
      simp only [List.length_cons]
      omega
    · -- the closing bracket
      next rest' hclose =>
      have hclose := octetCount_lt_of_skipSpace hclose
      exact ⟨List.forall_mem_singleton.mpr hvalue.1, Nat.le_add_left 1 _,
        consumes_some (by omega)⟩
    · refine ⟨?_, ?_, consumes_none s⟩
      · exact List.forall_mem_cons.mpr ⟨hvalue.1, List.forall_mem_singleton.mpr .broken⟩
      · simp only [List.length_cons, List.length_nil]
        omega
termination_by fuel

theorem readMembers_fitsHeads (fuel : Nat) {s : Text} (h : octetCount s < 2 ^ 64) :
    (readMembers fuel s).1.FitsHeads ∧ Consumes s (readMembers fuel s).2 := by
  match fuel with
  | 0 => exact ⟨.torn [] false, consumes_none s⟩
  | fuel + 1 =>
    rw [readMembers]
    split
    · next rest hs =>
      have hrest := octetCount_lt_of_skipSpace hs
      split
      · exact ⟨.torn [] false, consumes_none s⟩
      · next pieces rest' hread =>
        have hread := readPieces?_octetCount hread
        have hskip := octetCount_skipSpace_le rest'
        obtain ⟨hvalue, hothers, hleft⟩ := readMember_fitsHeads fuel (s := skipSpace rest') (by omega)
        have hleft := hleft.of_le (s := s) (by omega)
        simp only
        split
        · exact ⟨hothers.withMember hvalue _, hleft⟩
        · exact ⟨.torn [] _, hleft⟩
    · exact ⟨.torn [] false, consumes_none s⟩
termination_by fuel

theorem readMember_fitsHeads (fuel : Nat) {s : Text} (h : octetCount s < 2 ^ 64) :
    (readMember fuel s).1.FitsHeads ∧ (readMember fuel s).2.1.FitsHeads ∧
      Consumes s (readMember fuel s).2.2 := by
  -- a member that breaks off leaves an object without members
  have hnone : (Reading.obj []).FitsHeads := .obj (List.forall_mem_nil _)
  match fuel with
  | 0 => exact ⟨.broken, hnone, consumes_none s⟩
  | fuel + 1 =>
    unfold readMember
    split
    · next rest =>
      rw [octetCount_cons] at h
      have hvalue := readValue_fitsHeads fuel (s := rest) (by omega)
      have hcolon : octetCount rest ≤ octetCount (':' :: rest) := by
        rw [octetCount_cons]
        omega
      split
      · next value hread =>
        rw [hread] at hvalue
        exact ⟨hvalue.1, hnone, consumes_none _⟩
      next value rest' hread =>
      rw [hread] at hvalue
      have hrest := hvalue.2 rest' rfl
      split
      · next rest'' hnext =>
        have hnext := octetCount_lt_of_skipSpace hnext
        obtain ⟨hothers, hleft⟩ := readMembers_fitsHeads fuel (s := rest'') (by omega)
        exact ⟨hvalue.1, hothers, hleft.of_le (by omega)⟩
      · next rest'' hclose =>
        have hclose := octetCount_lt_of_skipSpace hclose
        exact ⟨hvalue.1, hnone, consumes_some (by omega)⟩
      · exact ⟨hvalue.1, .torn [] false, consumes_none _⟩
    · exact ⟨.broken, hnone, consumes_none _⟩
termination_by fuel

end

theorem read_fst (s : Text) : (read s).1 = (readValue (2 * s.length + 2) s).1 := by
  unfold read
  split
  · next h => rw [h]
  · next h => rw [h]

/-- **Readings fit their texts.** What is read of a text of less than `2 ^ 64` octets has only
lengths that fit heads. -/
theorem read_fitsHeads {s : Text} (h : octetCount s < 2 ^ 64) : (read s).1.FitsHeads := by
  rw [read_fst]
  exact (readValue_fitsHeads (2 * s.length + 2) h).1

end Json

end FilterAlgebra
