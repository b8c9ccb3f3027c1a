import FilterAlgebra.Proofs.Json.Decoding
import FilterAlgebra.Proofs.Json.Sizes
import FilterAlgebra.Proofs.Wire.Filters

/-!
# Decoded filters can be written

Filters that have been decoded from a reading can be written on the wire, if the reading fits heads
(`isWritable_of_decodeFilters`): their types have been read from names, and their values are texts
of the reading, or the short texts of its numbers. Field by field the draft of a filter keeps to
that, whether the filter is an object or a list.
-/

namespace FilterAlgebra

open Json Text

/-! ### Values -/

theorem octetCount_integerText_lt (n : Int) : octetCount (integerText n) < 2 ^ 64 := by
  have hcount := octetCount_le_mul (integerText n)
  have hlength : (integerText n).length < 4096 := by
    unfold integerText
    split
    · next hfits =>
      simp only [fitsSigned, Bool.and_eq_true, decide_eq_true_eq] at hfits
      have hdigits : (natText n.natAbs).length ≤ 19 :=
        length_natText_le (by decide) (by omega)
      unfold intText
      split
      · rw [List.length_cons]
        omega
      · omega
    · exact Binary64.length_plain_lt (Binary64.inFormat_ofRatio _ _ _)
  omega

theorem octetCount_scalarText? {reading : Reading} {text : Text}
    (h : scalarText? reading = some text) (hreading : reading.FitsHeads) :
    octetCount text < 2 ^ 64 := by
  cases hreading with
  | str hvalue =>
    cases h
    exact hvalue
  | int n =>
    cases h
    exact octetCount_integerText_lt n
  | @float x hx =>
    cases h
    have hcount := octetCount_le_mul x.plain
    have hlength := Binary64.length_plain_lt hx
    omega
  | bool value =>
    cases h
    cases value <;> decide
  | _ => cases h

/-- The lengths of values have heads. -/
structure FilterValue.FitsHeads (q : FilterValue) : Prop where
  count : q.toList.length < 2 ^ 64
  values : ∀ value ∈ q.toList, octetCount value < 2 ^ 64

theorem fitsHeads_filterValue? {reading : Reading} {q : FilterValue}
    (h : filterValue? reading = some q) (hreading : reading.FitsHeads) : q.FitsHeads := by
  unfold filterValue? at h
  split at h
  · next items =>
    obtain ⟨values, hvalues, rfl⟩ := Option.map_eq_some_iff.mp h
    cases hreading with
    | arr hlength hitems =>
      have hkept := forall₂_of_mapM hvalues
      refine ⟨hkept.length_eq.ge.trans_lt hlength, ?_⟩
      intro value hvalue
      obtain ⟨item, hitem, htext⟩ := exists_of_mem_forall₂ hkept hvalue
      exact octetCount_scalarText? htext (hitems item hitem)
  · obtain ⟨value, hvalue, rfl⟩ := Option.map_eq_some_iff.mp h
    exact ⟨Nat.one_lt_two_pow (by decide),
      List.forall_mem_singleton.mpr (octetCount_scalarText? hvalue hreading)⟩

theorem fitsHeads_decodeFilterValue {depth : Nat} {reading : Reading} {q : FilterValue}
    (h : decodeFilterValue depth reading = .ok q) (hreading : reading.FitsHeads) : q.FitsHeads := by
  unfold decodeFilterValue at h
  split at h
  · split at h
    · next q' hq =>
      cases h
      exact fitsHeads_filterValue? hq hreading
    · cases h
  · cases h

/-! ### Drafts -/

namespace FilterDraft

/-- What a draft has of a filter can be written. -/
structure FitsHeads (draft : FilterDraft) : Prop where
  type : ∀ kind ∈ draft.type, (∃ name, kind = .ofName name) ∧ octetCount kind.name < 2 ^ 64
  q : ∀ q, draft.q = some (some q) → q.FitsHeads

theorem fitsHeads_start : FitsHeads {} := ⟨by simp, by simp⟩

theorem decodeType_fitsHeads {reading : Reading} {kind : FilterType}
    (h : decodeType reading = .ok kind) (hreading : reading.FitsHeads) :
    (∃ name, kind = .ofName name) ∧ octetCount kind.name < 2 ^ 64 := by
  obtain ⟨name, hname, rfl⟩ := map_eq_ok_iff.mp h
  refine ⟨⟨name, rfl⟩, ?_⟩
  rw [FilterType.name_ofName]
  cases hreading with
  | str hvalue =>
    cases hname
    exact hvalue
  | _ => cases hname

variable {form : Form} {depth : Nat} {draft draft' : FilterDraft}

theorem readMember_fitsHeads {key : Text} {value : Reading}
    (h : draft.readMember form depth key value = .ok draft') (hdraft : draft.FitsHeads)
    (hvalue : value.FitsHeads) : draft'.FitsHeads := by
  unfold readMember at h
  split at h
  · -- the type is read from a name
    obtain ⟨type, htype, h⟩ := bind_eq_ok_iff.mp h
    cases h
    obtain ⟨kind, rfl, hkind⟩ := exists_of_decodeField htype
    refine ⟨?_, hdraft.q⟩
    rintro kind' hmem
    cases hmem
    exact decodeType_fitsHeads hkind hvalue
  split at h
  · -- context, operator and precision are no texts
    obtain ⟨context, -, h⟩ := bind_eq_ok_iff.mp h
    cases h
    exact ⟨hdraft.type, hdraft.q⟩
  split at h
  · obtain ⟨op, -, h⟩ := bind_eq_ok_iff.mp h
    cases h
    exact ⟨hdraft.type, hdraft.q⟩
  split at h
  · obtain ⟨precision, -, h⟩ := bind_eq_ok_iff.mp h
    cases h
    exact ⟨hdraft.type, hdraft.q⟩
  split at h
  · -- the values are texts of the reading
    obtain ⟨q, hq, h⟩ := bind_eq_ok_iff.mp h
    cases h
    obtain ⟨q', rfl, hq'⟩ := exists_of_decodeField hq
    refine ⟨hdraft.type, ?_⟩
    rintro q'' hsome
    cases hsome
    exact fitsHeads_decodeFilterValue (exists_of_decodeOption hq') hvalue
  · -- other members are skipped
    obtain ⟨-, -, h⟩ := bind_eq_ok_iff.mp h
    cases h
    exact hdraft

/-- A finished draft is a filter that can be written. -/
theorem FitsHeads.withType (hdraft : draft.FitsHeads) {kind : FilterType}
    (hkind : draft.type = some kind) :
    (∃ name, (draft.withType kind).type = .ofName name) ∧ (draft.withType kind).FitsHeads := by
  obtain ⟨hname, hlength⟩ := hdraft.type kind hkind
  have hraw : (draft.withType kind).rawValues = [] ∨
      ∃ q, draft.q = some (some q) ∧ (draft.withType kind).rawValues = q.toList := by
    cases hq : draft.q with
    | none => exact .inl (by simp [FilterDraft.withType, Filter.rawValues, hq])
    | some q =>
      cases q with
      | none => exact .inl (by simp [FilterDraft.withType, Filter.rawValues, hq])
      | some q => exact .inr ⟨q, rfl, by simp [FilterDraft.withType, Filter.rawValues, hq]⟩
  rcases hraw with hraw | ⟨q, hq, hraw⟩
  · exact ⟨hname, hlength, by simp [hraw], by simp [hraw]⟩
  · have hfits := hdraft.q q hq
    exact ⟨hname, hlength, hraw ▸ hfits.count, hraw ▸ hfits.values⟩

theorem exists_of_finishList {length : Nat} {f : Filter}
    (h : (decoder form depth).finishList length draft = .ok f) :
    ∃ kind, draft.type = some kind ∧ f = draft.withType kind := by
  simp only [decoder] at h
  split at h
  · next kind hkind =>
    cases h
    exact ⟨kind, hkind, rfl⟩
  · cases h

end FilterDraft

/-! ### Filters -/

theorem decodeFilter_fitsHeads {form : Form} {outer : Nat} {reading : Reading} {f : Filter}
    (h : decodeFilter form outer reading = .ok f) (hreading : reading.FitsHeads) :
    (∃ name, f.type = .ofName name) ∧ f.FitsHeads := by
  cases hreading with
  | obj hmembers =>
    obtain ⟨draft, hdraft, h⟩ := bind_eq_ok_iff.mp h
    obtain ⟨kind, hkind, rfl⟩ := map_eq_ok_iff.mp h
    have hfits : draft.FitsHeads := StructureDecoder.members_keep FilterDraft.fitsHeads_start
      (fun member hmember _ _ hkept hread =>
        FilterDraft.readMember_fitsHeads hread hkept (hmembers member hmember)) hdraft
    exact hfits.withType (eq_some_of_required hkind)
  | torn members whole =>
    obtain ⟨-, -, h⟩ := bind_eq_ok_iff.mp h
    cases h
  | @arr items hlength hitems =>
    obtain ⟨draft, hdraft, h⟩ := bind_eq_ok_iff.mp h
    obtain ⟨f', hf', h⟩ := bind_eq_ok_iff.mp h
    have hfits : draft.FitsHeads := StructureDecoder.items_keep FilterDraft.fitsHeads_start
      (fun item hitem _ _ _ hkept hread =>
        FilterDraft.readMember_fitsHeads hread hkept (hitems item (List.mem_of_mem_take hitem)))
      hdraft
    -- a list with too many items is not decoded
    have hsame : f' = f := by
      split at h
      · cases form <;> cases h
      · exact Except.ok.inj h
    subst hsame
    obtain ⟨kind, hkind, rfl⟩ := FilterDraft.exists_of_finishList hf'
    exact hfits.withType hkind
  | _ => cases h

/-- **Decoded filters can be written**, if they come from a reading that fits heads. -/
theorem isWritable_of_decodeFilters {form : Form} {reading : Reading} {filters : List Filter}
    (h : decodeFilters form reading = .ok filters) (hreading : reading.FitsHeads) :
    Wire.IsWritable filters := by
  cases hreading with
  | arr hlength hitems =>
    have hfits : ∀ f ∈ filters, (∃ name, f.type = .ofName name) ∧ f.FitsHeads := by
      intro f hf
      obtain ⟨item, hitem, hdecode⟩ := exists_of_mem_mapM h hf
      exact decodeFilter_fitsHeads hdecode (hitems item hitem)
    have hcount := (mapM_eq_ok_iff.mp h).length_eq
    exact ⟨fun f hf => (hfits f hf).1, hcount ▸ hlength, fun f hf => (hfits f hf).2⟩
  | _ => cases h

end FilterAlgebra
