import FilterAlgebra.Proofs.Filter.Blocks
import FilterAlgebra.Proofs.Filter.Grouping

/-!
# The truth of filters

Under an assignment of truth values to single tests, a filter is true or false: its values are
joined by its operator, and an excluded filter is true when what it describes is not there. A list
is true when all of its filters are.

Merging keeps the truth of wanted filters (`isMet_foldl_merge`). It does not keep that of unwanted
ones: a block of several excluded filters becomes the negation of one conjunction, which is true as
soon as one of them is (`isTrue_foldl_merge_iff`).
-/

namespace FilterAlgebra

/-! ### Truth -/

/-- Whether a filter finds what it describes, given what each of its values finds: all values under
a conjunction, one of them otherwise. Without values that count it finds anything. -/
def Filter.isMet (test : Text → Bool) (f : Filter) : Bool :=
  f.values.isEmpty || if f.op = some .and then f.values.all test else f.values.any test

/-- Whether a filter is true: one for what is unwanted must not find it. -/
def Filter.isTrue (test : Text → Bool) (f : Filter) : Bool :=
  if f.isExcluded then !f.isMet test else f.isMet test

/-- Whether all filters of a list are true, where `holds` says what a value finds under a type. -/
def allTrue (holds : FilterType → Text → Bool) (filters : List Filter) : Bool :=
  filters.all fun f => f.isTrue (holds f.type)

theorem allTrue_iff {holds : FilterType → Text → Bool} {filters : List Filter} :
    allTrue holds filters = true ↔ ∀ f ∈ filters, f.isTrue (holds f.type) = true := by
  simp [allTrue]

/-! ### What a merged block finds -/

theorem Filter.mergeOp_eq_and {f : Filter} (hop : f.op ≠ some .or)
    (hsome : f.mergeOp.isSome = true) : f.mergeOp = some .and := by
  unfold mergeOp at hsome ⊢
  rcases hf : f.op with - | op
  · rw [hf] at hsome
    simp only at hsome ⊢
    split at hsome
    · next hcount => rw [if_pos hcount]
    · cases hsome
  · cases op with
    | and => rfl
    | or => exact absurd hf hop

/-- A filter that merges as a conjunction asks for all of its values, be it by its operator or
because there is only one. -/
theorem Filter.isMet_of_mergeOp {f : Filter} (hop : f.mergeOp = some .and)
    (hvalues : f.values ≠ []) (test : Text → Bool) : f.isMet test = f.values.all test := by
  have hempty : f.values.isEmpty = false := by simpa using hvalues
  rw [isMet, hempty, Bool.false_or]
  rcases hf : f.op with - | op
  · have hcount : f.values.length ≤ 1 := by
      have hraw : f.rawValues.length ≤ 1 := by
        simp only [mergeOp, hf] at hop
        split at hop
        · next h =>
          cases hq : f.q with
          | none => simp [rawValues, hq]
          | some q => simpa [rawValues, valueCount, FilterValue.length, hq] using h
        · cases hop
      exact Nat.le_trans (List.length_filter_le _ _) hraw
    obtain ⟨v, hv⟩ : ∃ v, f.values = [v] := by
      have hpos := List.length_pos_iff.mpr hvalues
      exact List.length_eq_one_iff.mp (by omega)
    simp [hv]
  · simp only [mergeOp, hf, Option.some.injEq] at hop
    simp [hop]

theorem values_foldl_merge (rest : List Filter) (first : Filter) :
    (rest.foldl Filter.merge first).values = (first :: rest).flatMap Filter.values := by
  unfold Filter.values
  rw [rawValues_foldl_merge, List.filter_flatMap]

section Block

variable {first : Filter} {rest : List Filter}
  (hchain : (first :: rest).IsChain fun f g => f.isMergeable g)
  (hop : ∀ f ∈ first :: rest, f.op ≠ some .or) (hvalues : ∀ f ∈ first :: rest, f.values ≠ [])

include hchain hop

theorem mergeOp_of_mem_block (hrest : rest ≠ []) :
    ∀ f ∈ first :: rest, f.mergeOp = some .and := by
  obtain ⟨g, hg⟩ := List.exists_mem_of_ne_nil rest hrest
  have hagree := agree_of_isChain hchain
  have hfirst := Filter.mergeOp_eq_and (hop first List.mem_cons_self) (hagree g hg).1
  intro f hf
  rcases List.mem_cons.mp hf with rfl | hf
  · exact hfirst
  · rw [(hagree f hf).2.1, hfirst]

include hvalues

/-- A merged block finds what it describes when all of its members do. -/
theorem isMet_foldl_merge (test : Text → Bool) :
    (rest.foldl Filter.merge first).isMet test = (first :: rest).all fun f => f.isMet test := by
  by_cases hrest : rest = []
  · simp [hrest]
  · have hand := mergeOp_of_mem_block hchain hop hrest
    have hfirst := hand first List.mem_cons_self
    have hmerged : (rest.foldl Filter.merge first).mergeOp = some .and := by
      rw [mergeOp_foldl_merge (fun _ => hfirst ▸ rfl), hfirst]
    have hne : (rest.foldl Filter.merge first).values ≠ [] := by
      rw [values_foldl_merge, List.flatMap_cons]
      exact List.append_ne_nil_of_left_ne_nil (hvalues first List.mem_cons_self) _
    rw [Filter.isMet_of_mergeOp hmerged hne, values_foldl_merge, List.all_flatMap, Bool.eq_iff_iff]
    simp only [List.all_eq_true]
    apply forall₂_congr
    intro f hf
    rw [Filter.isMet_of_mergeOp (hand f hf) (hvalues f hf), List.all_eq_true]

omit hop hvalues in
theorem isExcluded_of_mem_block : ∀ f ∈ first :: rest, f.isExcluded = first.isExcluded := by
  intro f hf
  rcases List.mem_cons.mp hf with rfl | hf
  · rfl
  · simp [Filter.isExcluded, (agree_of_isChain hchain f hf).2.2]

/-- **A merged block.** Wanted filters are true together; of unwanted ones, one is enough. -/
theorem isTrue_foldl_merge_iff (test : Text → Bool) :
    (rest.foldl Filter.merge first).isTrue test = true ↔
      if first.isExcluded then ∃ f ∈ first :: rest, f.isTrue test = true
      else ∀ f ∈ first :: rest, f.isTrue test = true := by
  have hexcluded := isExcluded_of_mem_block hchain
  have hmerged : (rest.foldl Filter.merge first).isExcluded = first.isExcluded := by
    simp [Filter.isExcluded, context_foldl_merge]
  unfold Filter.isTrue
  rw [hmerged, isMet_foldl_merge hchain hop hvalues]
  by_cases h : first.isExcluded = true
  · rw [if_pos h, if_pos h]
    simp only [Bool.not_eq_true', List.all_eq_false]
    apply exists_congr
    intro f
    apply and_congr_right
    intro hf
    simp [hexcluded f hf, h]
  · rw [if_neg h, if_neg h, List.all_eq_true]
    apply forall₂_congr
    intro f hf
    simp [hexcluded f hf, h]

end Block

theorem isExcluded_congr_of_block {block : List Filter}
    (hchain : block.IsChain fun f g => f.isMergeable g) {f g : Filter} (hf : f ∈ block)
    (hg : g ∈ block) : f.isExcluded = g.isExcluded := by
  rcases block with - | ⟨first, rest⟩
  · cases hf
  · have hexcluded := isExcluded_of_mem_block hchain
    rw [hexcluded f hf, hexcluded g hg]

end FilterAlgebra
