import FilterAlgebra.Proofs.Wire.Base64
import FilterAlgebra.Proofs.Wire.Filters

/-!
# Wire texts

A list of filters is got back from its wire text, and from no text that stops before its end is
anything got: such a text is no Base64, or it holds octets that stop early.
-/

namespace FilterAlgebra.Wire

theorem decodeFilters_surrounded {filters : List Filter} (h : IsWritable filters)
    {before after : Text} (hbefore : Text.isBlankText before = true)
    (hafter : Text.isBlankText after = true) :
    decodeFilters (before ++ encodeFilters filters ++ after) = .ok filters := by
  have htrim : Text.trim (encodeFilters filters) = encodeFilters filters :=
    Text.trim_of_forall fun c => Base64.isBlank_of_mem_encode
  rw [decodeFilters, Text.trim_surrounded hbefore hafter, htrim, encodeFilters,
    Base64.decode_encode]
  simp only [readList?_filtersOctets h]

/-- **Wire texts.** A list of filters is written with the symbols of the alphabet only. Its wire
text is decoded as the same list, between any blanks, so different lists have different wire texts. -/
theorem decodeFilters_encodeFilters {filters : List Filter} (h : IsWritable filters) :
    (∀ c ∈ encodeFilters filters, Base64.isSymbol c = true) ∧
    (∀ before after, Text.isBlankText before = true → Text.isBlankText after = true →
      decodeFilters (before ++ encodeFilters filters ++ after) = .ok filters) ∧
    ∀ others, IsWritable others → encodeFilters others = encodeFilters filters →
      others = filters := by
  refine ⟨fun c => Base64.isSymbol_of_mem_encode, fun before after => decodeFilters_surrounded h, ?_⟩
  intro others hothers heq
  have hsame := @decodeFilters_surrounded others hothers [] [] rfl rfl
  rw [heq, decodeFilters_surrounded h rfl rfl] at hsame
  exact (Except.ok.inj hsame).symm

/-- Filters of known and unknown types, with one value, several, none and an empty list. -/
def mixedFilters : List Filter :=
  [{ type := .string, context := .excluded, precision := some .exact, q := some (.one "la lune") },
    { type := .newspaper, op := some .or, q := some (.many ["GDL", "JDG"]) },
    { type := .isFront },
    { type := .unknown "né", q := some (.many []) },
    { type := .language, q := some (.many ["fr"]) }]

theorem isWritable_mixedFilters : IsWritable mixedFilters := by
  constructor
  · simp only [mixedFilters, List.forall_mem_cons, List.not_mem_nil, false_imp_iff, implies_true,
      and_true]
    exact ⟨⟨_, (FilterType.ofName_name rfl).symm⟩, ⟨_, (FilterType.ofName_name rfl).symm⟩,
      ⟨_, (FilterType.ofName_name rfl).symm⟩, ⟨"né", by decide⟩,
      ⟨_, (FilterType.ofName_name rfl).symm⟩⟩
  · decide
  · simp only [mixedFilters, List.forall_mem_cons, List.not_mem_nil, false_imp_iff, implies_true,
      and_true]
    exact ⟨⟨by decide, by decide, by decide⟩, ⟨by decide, by decide, by decide⟩,
      ⟨by decide, by decide, by decide⟩, ⟨by decide, by decide, by decide⟩,
      ⟨by decide, by decide, by decide⟩⟩

theorem decodeFilters_encodeFilters_mixed :
    IsWritable mixedFilters ∧
      decodeFilters (" " ++ encodeFilters mixedFilters ++ "\n") = .ok mixedFilters :=
  ⟨isWritable_mixedFilters,
    (decodeFilters_encodeFilters isWritable_mixedFilters).2.1 _ _ (by decide) (by decide)⟩

/-- **Wire texts that stop early** are no wire texts. -/
theorem decodeFilters_cut {filters : List Filter} (h : IsWritable filters) {part : Text}
    (hpart : part <+: encodeFilters filters) (hne : part ≠ encodeFilters filters) :
    ∃ error detail, decodeFilters part = .error error ∧ error.toFailure = .wire detail := by
  have htrim : Text.trim part = part :=
    Text.trim_of_forall fun c hc => Base64.isBlank_of_mem_encode (hpart.subset hc)
  cases hdecode : Base64.decode (Text.toBytes part) with
  | error error =>
    refine ⟨.base64 error, _, ?_, rfl⟩
    rw [decodeFilters, htrim, hdecode]
  | ok octets =>
    obtain ⟨hoctets, hproper⟩ := Base64.decode_cut hpart hne hdecode
    refine ⟨.cbor, _, ?_, rfl⟩
    rw [decodeFilters, htrim, hdecode]
    simp only [readList?_cut h octets.length hoctets hproper]

/-- The text stops behind the second filter, so that it holds two whole filters. -/
theorem decodeFilters_cut_mixed :
    IsWritable mixedFilters ∧
      (encodeFilters mixedFilters).take 140 <+: encodeFilters mixedFilters ∧
      (encodeFilters mixedFilters).take 140 ≠ encodeFilters mixedFilters ∧
      ∃ error detail, decodeFilters ((encodeFilters mixedFilters).take 140) = .error error ∧
        error.toFailure = .wire detail := by
  have hpart := List.take_prefix 140 (encodeFilters mixedFilters)
  have hne : (encodeFilters mixedFilters).take 140 ≠ encodeFilters mixedFilters := by
    decide +kernel
  exact ⟨isWritable_mixedFilters, hpart, hne, decodeFilters_cut isWritable_mixedFilters hpart hne⟩

end FilterAlgebra.Wire
