import FilterAlgebra.Proofs.Json.Scalars
import FilterAlgebra.Proofs.Number.WideIntegers
import FilterAlgebra.Proofs.Wire.DecodedFilters

/-!
# Integers among the values of a filter

Values may be given as integers, and an integer is kept by its text. Wherever it stands among the
values, and whatever else the filter holds (`ScalarPlace`), the integer counts as a string would
that has this text. The text has the digits of the integer if a word with a sign holds it. Of the
others, up to the greatest word without a sign, a multiple of a thousand is kept
(`exists_integerText`).
-/

namespace FilterAlgebra

open Json

/-! ### Places -/

/-- A place for a scalar in the values of a filter. -/
inductive ScalarPlace where
  /-- The scalar is all there is. -/
  | only
  /-- The scalar is an item of a list, between others. -/
  | item (before after : List Reading)

namespace ScalarPlace

/-- The values with a scalar in the place. -/
def fill : ScalarPlace → Reading → Reading
  | only, scalar => scalar
  | item before after, scalar => .arr (before ++ scalar :: after)

/-- The text that stands in the place. -/
def text? : ScalarPlace → FilterValue → Option Text
  | only, .one value => some value
  | item before _, .many values => values[before.length]?
  | _, _ => none

end ScalarPlace

/-- A place for the values of a filter. -/
inductive ValuesPlace where
  /-- Among the members of an object. -/
  | member (before after : List (Text × Reading))
  /-- In a list of fields, behind the four that come first. -/
  | field (type context op precision : Reading) (after : List Reading)

/-- The filter with values in the place. -/
def ValuesPlace.fill : ValuesPlace → Reading → Reading
  | member before after, values => .obj (before ++ (("q" : Text), values) :: after)
  | field type context op precision after, values =>
    .arr (type :: context :: op :: precision :: values :: after)

/-! ### Filling a place in values -/

theorem areSound_append (depth : Nat) (items others : List Reading) :
    Reading.areSound depth (items ++ others) =
      (Reading.areSound depth items && Reading.areSound depth others) := by
  induction items with
  | nil => rfl
  | cons item items ih =>
    rw [List.cons_append, Reading.areSound, Reading.areSound, ih, Bool.and_assoc]

section Filled

variable (place : ScalarPlace) (n : Int)

/-- In every place an integer counts as a string that has its text. -/
theorem decodeFilterValue_fill (depth : Nat) :
    decodeFilterValue depth (place.fill (.int n)) =
      decodeFilterValue depth (place.fill (.str (integerText n))) := by
  cases place with
  | only => rfl
  | item before after =>
    have hsound : (Reading.arr (before ++ .int n :: after)).isSound depth =
        (Reading.arr (before ++ .str (integerText n) :: after)).isSound depth := by
      rw [Reading.isSound, Reading.isSound, areSound_append, areSound_append]
      rfl
    have hvalue : filterValue? (.arr (before ++ .int n :: after)) =
        filterValue? (.arr (before ++ .str (integerText n) :: after)) := by
      rw [filterValue?, filterValue?, mapM_append_cons, mapM_append_cons]
      rfl
    unfold decodeFilterValue ScalarPlace.fill
    rw [hsound, hvalue]

theorem fill_ne_null {scalar : Reading} (h : scalar ≠ .null) : place.fill scalar ≠ .null := by
  cases place with
  | only => exact h
  | item before after => exact fun hnull => by cases hnull

theorem decodeOption_fill (depth : Nat) :
    decodeOption (decodeFilterValue depth) (place.fill (.int n)) =
      decodeOption (decodeFilterValue depth) (place.fill (.str (integerText n))) := by
  rw [decodeOption_eq_map (fill_ne_null place fun h => by cases h),
    decodeOption_eq_map (fill_ne_null place fun h => by cases h), decodeFilterValue_fill]

variable {place n}

theorem text?_of_filterValue? {q : FilterValue} (h : filterValue? (place.fill (.int n)) = some q) :
    place.text? q = some (integerText n) := by
  cases place with
  | only =>
    cases h
    rfl
  | item before after =>
    obtain ⟨values, hvalues, rfl⟩ := Option.map_eq_some_iff.mp h
    rw [mapM_append_cons] at hvalues
    obtain ⟨ys, hys, hvalues⟩ := Option.bind_eq_some_iff.mp hvalues
    obtain ⟨text, htext, hvalues⟩ := Option.bind_eq_some_iff.mp hvalues
    obtain ⟨zs, -, hvalues⟩ := Option.bind_eq_some_iff.mp hvalues
    cases htext
    cases hvalues
    rw [ScalarPlace.text?, (forall₂_of_mapM hys).length_eq, List.getElem?_append_right le_rfl]
    simp

theorem text?_of_decodeFilterValue {depth : Nat} {q : Option FilterValue}
    (h : decodeOption (decodeFilterValue depth) (place.fill (.int n)) = .ok q) :
    q.bind place.text? = some (integerText n) := by
  rw [decodeOption_eq_map (fill_ne_null place fun hnull => by cases hnull)] at h
  obtain ⟨value, hvalue, rfl⟩ := map_eq_ok_iff.mp h
  unfold decodeFilterValue at hvalue
  split at hvalue
  · split at hvalue
    · next hq =>
      cases hvalue
      exact text?_of_filterValue? hq
    · cases hvalue
  · cases hvalue

end Filled

/-! ### Filling a place in a filter -/

namespace FilterDraft

variable {form : Form} {depth : Nat} {draft draft' : FilterDraft} {q : Option FilterValue}

/-- Values that have been read stay. -/
theorem readMember_keeps {key : Text} {value : Reading} (hq : draft.q = some q)
    (h : draft.readMember form depth key value = .ok draft') : draft'.q = some q := by
  by_cases hkey : key = "q"
  · subst hkey
    obtain ⟨x, hx, -⟩ := bind_eq_ok_iff.mp h
    rw [hq] at hx
    cases hx
  · unfold readMember at h
    split_ifs at h
    all_goals
      obtain ⟨x, -, h⟩ := bind_eq_ok_iff.mp h
      cases h
      exact hq

theorem exists_of_readMember {value : Reading}
    (h : draft.readMember form depth "q" value = .ok draft') :
    ∃ q, draft'.q = some q ∧ decodeOption (decodeFilterValue depth) value = .ok q := by
  obtain ⟨q, hq, h⟩ := bind_eq_ok_iff.mp h
  cases h
  exact exists_of_decodeField hq

theorem readMember_congr {value value' : Reading}
    (h : decodeOption (decodeFilterValue depth) value =
      decodeOption (decodeFilterValue depth) value') :
    draft.readMember form depth "q" value = draft.readMember form depth "q" value' := by
  have hfield : decodeField "q" draft.q (decodeOption (decodeFilterValue depth)) value =
      decodeField "q" draft.q (decodeOption (decodeFilterValue depth)) value' := by
    unfold decodeField
    rw [h]
  exact congrArg (· >>= _) hfield

end FilterDraft

/-- Decoding a filter reads its values once: what stands before them is read first, and what comes
after keeps them. -/
theorem exists_decodeFilter_fill (form : Form) (outer : Nat) (place : ValuesPlace) :
    ∃ (before : Decoded FilterDraft) (after : FilterDraft → Decoded Filter),
      (∀ values, decodeFilter form outer (place.fill values) =
        before >>= fun draft =>
          draft.readMember form (nestingLimit - outer - 1) "q" values >>= after) ∧
      ∀ draft q f, draft.q = some q → after draft = .ok f → f.q = q := by
  cases place with
  | member before after =>
    -- a member of an object, with members before and after it
    let decoder := FilterDraft.decoder form (nestingLimit - outer - 1)
    refine ⟨decoder.members {} before, fun draft => decoder.members draft after >>= decoder.finish,
      ?_, ?_⟩
    · intro values
      change decoder.members {} (before ++ (("q" : Text), values) :: after) >>= decoder.finish = _
      rw [decoder.members_append, bind_assoc]
      refine congrArg _ (funext fun draft => ?_)
      change (draft.readMember form (nestingLimit - outer - 1) "q" values >>= _) >>= _ = _
      rw [bind_assoc]
    · intro draft q f hq h
      obtain ⟨draft', hdraft, h⟩ := bind_eq_ok_iff.mp h
      obtain ⟨kind, -, rfl⟩ := map_eq_ok_iff.mp h
      have hkept : draft'.q = some q :=
        StructureDecoder.members_keep (P := fun draft => draft.q = some q) hq
          (fun _ _ _ _ hq hmember => FilterDraft.readMember_keeps hq hmember) hdraft
      rw [FilterDraft.withType, hkept]
      rfl
  | field type context op precision after =>
    -- the fifth item of a list, where only items that are too many can follow
    let decoder := FilterDraft.decoder form (nestingLimit - outer - 1)
    refine ⟨decoder.items 0 {} [type, context, op, precision], fun draft => do
      let f ← decoder.finishList (after.length + 5) draft
      if 5 < after.length + 5 then decoder.tooLong form (after.length + 5) else .ok f, ?_, ?_⟩
    · intro values
      change decoder.items 0 {} ([type, context, op, precision] ++ [values]) >>= _ = _
      rw [decoder.items_append, bind_assoc]
      refine congrArg _ (funext fun draft => ?_)
      change (draft.readMember form (nestingLimit - outer - 1) "q" values >>= _) >>= _ = _
      rw [bind_assoc]
      rfl
    · intro draft q f hq h
      obtain ⟨f', hf', h⟩ := bind_eq_ok_iff.mp h
      obtain ⟨kind, -, rfl⟩ := FilterDraft.exists_of_finishList hf'
      split at h
      · cases form <;> cases h
      · cases h
        rw [FilterDraft.withType, hq]
        rfl

section Decoded

variable (form : Form) (outer : Nat) (place : ValuesPlace) (scalar : ScalarPlace) (n : Int)

/-- In every place of every filter an integer counts as a string that has its text. -/
theorem decodeFilter_fill :
    decodeFilter form outer (place.fill (scalar.fill (.int n))) =
      decodeFilter form outer (place.fill (scalar.fill (.str (integerText n)))) := by
  obtain ⟨before, after, hfill, -⟩ := exists_decodeFilter_fill form outer place
  rw [hfill, hfill]
  refine congrArg _ (funext fun draft => ?_)
  rw [FilterDraft.readMember_congr (decodeOption_fill scalar n _)]

variable {form outer place scalar n}

theorem text?_of_decodeFilter {f : Filter}
    (h : decodeFilter form outer (place.fill (scalar.fill (.int n))) = .ok f) :
    f.q.bind scalar.text? = some (integerText n) := by
  obtain ⟨before, after, hfill, hkeeps⟩ := exists_decodeFilter_fill form outer place
  rw [hfill] at h
  obtain ⟨draft, -, h⟩ := bind_eq_ok_iff.mp h
  obtain ⟨draft', hdraft, h⟩ := bind_eq_ok_iff.mp h
  obtain ⟨q, hq, hdecode⟩ := FilterDraft.exists_of_readMember hdraft
  rw [hkeeps draft' q f hq h]
  exact text?_of_decodeFilterValue hdecode

end Decoded

/-! ### The kept integer -/

section Kept

variable {n m : Int}

/-- What is kept of an integer: itself, or a near multiple of a thousand. -/
theorem exists_integerText (hn : fitsSigned n = true ∨ fitsUnsigned n = true) :
    ∃ kept : Int, integerText n = intText kept ∧ fitsSigned kept = fitsSigned n ∧
      (fitsSigned n = true → kept = n) ∧
      (fitsSigned n = false → 1000 ∣ kept ∧ kept ≤ n + 3072 ∧ n ≤ kept + 3072) := by
  cases hsigned : fitsSigned n with
  | true =>
    refine ⟨n, if_pos hsigned, hsigned, fun _ => rfl, fun hfalse => ?_⟩
    cases hfalse
  | false =>
    rw [hsigned] at hn
    obtain ⟨kept, htext, hkept, hnear⟩ :=
      exists_integerText_of_wide hsigned (hn.resolve_left Bool.false_ne_true)
    refine ⟨kept, htext, hkept, fun htrue => ?_, fun _ => hnear⟩
    cases htrue

/-- Two integers with one text are the same, or near each other and both without room in a word with
a sign. -/
theorem eq_or_wide_of_integerText_eq (hn : fitsSigned n = true ∨ fitsUnsigned n = true)
    (hm : fitsSigned m = true ∨ fitsUnsigned m = true) (h : integerText n = integerText m) :
    n = m ∨ (fitsSigned n = false ∧ fitsSigned m = false ∧ n ≤ m + 6144 ∧ m ≤ n + 6144) := by
  obtain ⟨kept, hkept, hfits, hsame, hwide⟩ := exists_integerText hn
  obtain ⟨kept', hkept', hfits', hsame', hwide'⟩ := exists_integerText hm
  obtain rfl : kept = kept' := intText_injective (by rw [← hkept, h, hkept'])
  cases hsigned : fitsSigned n with
  | true =>
    have hsigned' : fitsSigned m = true := by rw [← hfits', hfits, hsigned]
    exact .inl ((hsame hsigned).symm.trans (hsame' hsigned'))
  | false =>
    have hsigned' : fitsSigned m = false := by rw [← hfits', hfits, hsigned]
    obtain ⟨-, hnear⟩ := hwide hsigned
    obtain ⟨-, hnear'⟩ := hwide' hsigned'
    exact .inr ⟨rfl, hsigned', by omega, by omega⟩

end Kept

/-- **Integers among values** are read from their digits as they are. Wherever an integer stands, it
counts as a string of digits would: its own digits if a word with a sign holds it, and those of a
near multiple of a thousand otherwise. So two different integers become one value only if both need
a word without a sign, and then they are near each other. -/
theorem decodeFilter_integer (form : Form) (outer : Nat) (place : ValuesPlace)
    (scalar : ScalarPlace) {n : Int} (hn : fitsSigned n = true ∨ fitsUnsigned n = true) :
    (∀ rest, EndsValue rest → readNumber (intText n ++ rest) = (.int n, some rest)) ∧
    (∃ kept : Int,
      decodeFilter form outer (place.fill (scalar.fill (.int n))) =
        decodeFilter form outer (place.fill (scalar.fill (.str (intText kept)))) ∧
      (∀ f, decodeFilter form outer (place.fill (scalar.fill (.int n))) = .ok f →
        f.q.bind scalar.text? = some (intText kept)) ∧
      (fitsSigned n = true → kept = n) ∧
      (fitsSigned n = false → 1000 ∣ kept ∧ kept ≤ n + 3072 ∧ n ≤ kept + 3072)) ∧
    ∀ (place' : ValuesPlace) (scalar' : ScalarPlace) (m : Int) (f f' : Filter),
      fitsSigned m = true ∨ fitsUnsigned m = true →
      decodeFilter form outer (place.fill (scalar.fill (.int n))) = .ok f →
      decodeFilter form outer (place'.fill (scalar'.fill (.int m))) = .ok f' →
      f.q.bind scalar.text? = f'.q.bind scalar'.text? →
      n = m ∨ (fitsSigned n = false ∧ fitsSigned m = false ∧ n ≤ m + 6144 ∧ m ≤ n + 6144) := by
  refine ⟨fun rest hrest => readNumber_intText hrest hn, ?_, ?_⟩
  · obtain ⟨kept, htext, -, hkept⟩ := exists_integerText hn
    refine ⟨kept, ?_, ?_, hkept⟩
    · rw [decodeFilter_fill, htext]
    · intro f hf
      rw [text?_of_decodeFilter hf, htext]
  · intro place' scalar' m f f' hm hf hf' hsame
    rw [text?_of_decodeFilter hf, text?_of_decodeFilter hf'] at hsame
    exact eq_or_wide_of_integerText_eq hn hm (Option.some.inj hsame)

/-- The greatest integer that a word with a sign holds, between other values. -/
theorem decodeFilter_integer_greatest :
    fitsSigned 9223372036854775807 = true ∧
    ∃ f, decodeFilter .text 1 (.obj [("type", .str "uid"),
        ("q", .arr [.str "a", .int 9223372036854775807, .int 5])]) = .ok f ∧
      f.q.bind (ScalarPlace.item [.str "a"] [.int 5]).text? = some "9223372036854775807" := by
  obtain ⟨-, ⟨kept, -, htext, hsame, -⟩, -⟩ := decodeFilter_integer .text 1
    (.member [("type", .str "uid")] []) (.item [.str "a"] [.int 5])
    (.inl (by decide) : fitsSigned 9223372036854775807 = true ∨ _)
  obtain rfl := hsame (by decide)
  exact ⟨by decide, _, rfl, htext _ rfl⟩

/-- The least two integers beyond it lose their digits and become one value. -/
theorem decodeFilter_neighbours_ne :
    fitsUnsigned 9223372036854775808 = true ∧ fitsUnsigned 9223372036854775809 = true ∧
    (decodeDocument (decodeFilter .text 0)
        "\x7b\"type\":\"uid\",\"q\":[9223372036854775808,9223372036854775809]\x7d").map
          Filter.q = .ok (some (.many ["9223372036854776000", "9223372036854776000"])) ∧
    intText 9223372036854775808 ≠ "9223372036854776000" ∧
    intText 9223372036854775809 ≠ "9223372036854776000" := by
  decide +kernel

end FilterAlgebra
