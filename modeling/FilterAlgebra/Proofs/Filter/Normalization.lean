import FilterAlgebra.Proofs.Filter.Truth

/-!
# What normalization means

Each filter of a normalized list comes from one block of neighbours of one type
(`mem_aggregate_iff`). So the truth of the list is settled block by block: a block of wanted filters
is true when all of them are, a block of excluded filters when one of them is
(`isTrue_mergedBlock_iff`).
-/

namespace FilterAlgebra

/-! ### The filters of a normalized list -/

/-- A normalized list has one filter for each block of each type. -/
theorem mem_aggregate_iff {filters : List Filter} {g : Filter} :
    g ∈ aggregate filters ↔
      ∃ kind, ∃ block ∈ blocksOf kind
          ((filters.filter Filter.isKept).filter fun f => decide (f.type = kind)),
        mergedBlock? block = some g := by
  simp only [aggregate, groupByType, groupBy_eq, List.mem_flatMap, List.mem_map, mergeGroup_eq,
    List.mem_filterMap, List.mem_eraseDups]
  constructor
  · rintro ⟨group, ⟨kind, -, rfl⟩, block, hblock, hg⟩
    exact ⟨kind, block, hblock, hg⟩
  · rintro ⟨kind, block, hblock, hg⟩
    refine ⟨_, ⟨kind, ?_, rfl⟩, block, hblock, hg⟩
    rcases block with - | ⟨f, rest⟩
    · cases hg
    · obtain ⟨hf, hkind⟩ := List.mem_filter.mp (mem_of_mem_blocksOf hblock List.mem_cons_self)
      exact ⟨f, hf, by simpa using hkind⟩

/-- A filter with values takes part. -/
theorem Filter.isKept_of_values {f : Filter} (h : f.values ≠ []) : f.isKept = true := by
  cases hq : f.q with
  | none => exact absurd (by simp [values, rawValues, hq]) h
  | some q => simp [isKept, hq]

/-! ### Excluded blocks -/

/-- A block of excluded filters of a list: neighbours of one type that normalization merges. -/
def IsExcludedBlock (filters block : List Filter) : Prop :=
  (∃ kind, block ∈ blocksOf kind (filters.filter fun f => decide (f.type = kind))) ∧
    ∀ f ∈ block, f.isExcluded = true

/-- Filters that all have the same values that count. -/
def HaveSameValues (block : List Filter) : Prop := ∀ f ∈ block, ∀ g ∈ block, f.values ⊆ g.values

/-- Filters of an excluded block with the same values are true together. -/
theorem isTrue_congr_of_block {block : List Filter}
    (hchain : block.IsChain fun f g => f.isMergeable g) (hop : ∀ f ∈ block, f.op ≠ some .or)
    (hvalues : ∀ f ∈ block, f.values ≠ []) (hsame : HaveSameValues block) (test : Text → Bool)
    {f g : Filter} (hf : f ∈ block) (hg : g ∈ block) (h : f.isTrue test = true) :
    g.isTrue test = true := by
  rcases block with - | ⟨first, rest⟩
  · cases hf
  · by_cases hrest : rest = []
    · subst hrest
      rw [List.mem_singleton] at hf hg
      rwa [hg, ← hf]
    · have hand := mergeOp_of_mem_block hchain hop hrest
      have hexcluded := isExcluded_of_mem_block hchain
      have hmet : g.isMet test = f.isMet test := by
        rw [Filter.isMet_of_mergeOp (hand g hg) (hvalues g hg),
          Filter.isMet_of_mergeOp (hand f hf) (hvalues f hf), Bool.eq_iff_iff, List.all_eq_true,
          List.all_eq_true]
        exact ⟨fun hall v hv => hall v (hsame f hf g hg hv),
          fun hall v hv => hall v (hsame g hg f hf hv)⟩
      unfold Filter.isTrue at h ⊢
      rwa [hmet, hexcluded g hg, ← hexcluded f hf]

section Normalized

variable {filters : List Filter} (hop : ∀ f ∈ filters, f.op ≠ some .or)
  (hvalues : ∀ f ∈ filters, f.values ≠ [])

/-- The members of a block are filters of the list, of the type of the block. -/
theorem mem_filters_of_block {kind : FilterType} {block : List Filter}
    (hblock : block ∈ blocksOf kind (filters.filter fun f => decide (f.type = kind)))
    {f : Filter} (hf : f ∈ block) : f ∈ filters ∧ f.type = kind := by
  simpa using mem_of_mem_blocksOf hblock hf

include hop hvalues

/-- The filter of a block is true when the wanted filters of the block are and, if all of them are
excluded, one of them is. -/
theorem isTrue_mergedBlock_iff {kind : FilterType} {block : List Filter} {g : Filter}
    (hblock : block ∈ blocksOf kind (filters.filter fun f => decide (f.type = kind)))
    (hg : mergedBlock? block = some g) (holds : FilterType → Text → Bool) :
    g.isTrue (holds g.type) = true ↔
      (∀ f ∈ block, f.isExcluded = false → f.isTrue (holds f.type) = true) ∧
        ((∀ f ∈ block, f.isExcluded = true) → ∃ f ∈ block, f.isTrue (holds f.type) = true) := by
  rcases block with - | ⟨first, rest⟩
  · cases hg
  · have hmem := fun f (hf : f ∈ first :: rest) => mem_filters_of_block hblock hf
    have hchain := isChain_of_mem_blocksOf hblock
    have hexcluded := isExcluded_of_mem_block hchain
    have hfirst : first ∈ first :: rest := List.mem_cons_self
    simp only [mergedBlock?, Option.some.injEq] at hg
    rw [← hg, type_foldl_merge, (hmem first hfirst).2,
      isTrue_foldl_merge_iff hchain (fun f hf => hop f (hmem f hf).1)
        (fun f hf => hvalues f (hmem f hf).1)]
    have htests : ∀ f ∈ first :: rest, f.isTrue (holds f.type) = f.isTrue (holds kind) :=
      fun f hf => by rw [(hmem f hf).2]
    by_cases hex : first.isExcluded = true
    · -- an excluded block, where one filter is enough
      rw [if_pos hex]
      constructor
      · rintro ⟨f, hf, htrue⟩
        refine ⟨fun f' hf' hwanted => ?_, fun _ => ⟨f, hf, (htests f hf).trans htrue⟩⟩
        rw [hexcluded f' hf', hex] at hwanted
        cases hwanted
      · rintro ⟨-, hsome⟩
        obtain ⟨f, hf, htrue⟩ := hsome fun f hf => (hexcluded f hf).trans hex
        exact ⟨f, hf, (htests f hf).symm.trans htrue⟩
    · -- a block of wanted filters, where all of them count
      rw [if_neg hex]
      rw [Bool.not_eq_true] at hex
      constructor
      · intro hall
        refine ⟨fun f hf _ => (htests f hf).trans (hall f hf), fun hex' => ?_⟩
        exact ⟨first, hfirst, (htests first hfirst).trans (hall first hfirst)⟩
      · rintro ⟨hall, -⟩ f hf
        exact (htests f hf).symm.trans (hall f hf ((hexcluded f hf).trans hex))

/-- Wanted filters keep their truth; of an excluded block, one true filter is enough. -/
theorem allTrue_aggregate_iff_excluded (holds : FilterType → Text → Bool) :
    allTrue holds (aggregate filters) = true ↔
      (∀ f ∈ filters, f.isExcluded = false → f.isTrue (holds f.type) = true) ∧
        ∀ block, IsExcludedBlock filters block → ∃ f ∈ block, f.isTrue (holds f.type) = true := by
  have hkept : filters.filter Filter.isKept = filters :=
    List.filter_eq_self.mpr fun f hf => Filter.isKept_of_values (hvalues f hf)
  rw [allTrue_iff]
  simp only [mem_aggregate_iff, hkept]
  constructor
  · intro h
    -- every block has become a filter, and that is true
    have hblocks : ∀ kind, ∀ block ∈ blocksOf kind
        (filters.filter fun f => decide (f.type = kind)), ∃ g, mergedBlock? block = some g ∧
          g.isTrue (holds g.type) = true := by
      intro kind block hblock
      rcases block with - | ⟨first, rest⟩
      · exact absurd rfl (ne_nil_of_mem_blocksOf hblock)
      · exact ⟨_, rfl, h _ ⟨kind, _, hblock, rfl⟩⟩
    constructor
    · intro f hf hwanted
      have hkind : f ∈ filters.filter fun f' => decide (f'.type = f.type) :=
        List.mem_filter.mpr ⟨hf, by simp⟩
      obtain ⟨block, hblock, hfblock⟩ := exists_mem_blocksOf f.type hkind
      obtain ⟨g, hg, htrue⟩ := hblocks f.type block hblock
      exact ((isTrue_mergedBlock_iff hop hvalues hblock hg holds).mp htrue).1 f hfblock hwanted
    · rintro block ⟨⟨kind, hblock⟩, hex⟩
      obtain ⟨g, hg, htrue⟩ := hblocks kind block hblock
      exact ((isTrue_mergedBlock_iff hop hvalues hblock hg holds).mp htrue).2 hex
  · rintro ⟨hwanted, hexcluded⟩ g ⟨kind, block, hblock, hg⟩
    refine (isTrue_mergedBlock_iff hop hvalues hblock hg holds).mpr ⟨?_, ?_⟩
    · exact fun f hf => hwanted f (mem_filters_of_block hblock hf).1
    · exact fun hex => hexcluded block ⟨⟨kind, hblock⟩, hex⟩

/-- A list whose excluded blocks have the same values throughout keeps its truth. -/
theorem allTrue_aggregate_of_haveSameValues
    (hsame : ∀ block, IsExcludedBlock filters block → HaveSameValues block)
    (holds : FilterType → Text → Bool) :
    allTrue holds (aggregate filters) = allTrue holds filters := by
  rw [Bool.eq_iff_iff, allTrue_aggregate_iff_excluded hop hvalues, allTrue_iff]
  constructor
  · rintro ⟨hwanted, hexcluded⟩ f hf
    by_cases hex : f.isExcluded = true
    · -- an excluded filter is as true as the one of its block that is
      have hkind : f ∈ filters.filter fun f' => decide (f'.type = f.type) :=
        List.mem_filter.mpr ⟨hf, by simp⟩
      obtain ⟨block, hblock, hfblock⟩ := exists_mem_blocksOf f.type hkind
      have hmem := fun g (hg : g ∈ block) => mem_filters_of_block hblock hg
      have hchain := isChain_of_mem_blocksOf hblock
      have hall : ∀ g ∈ block, g.isExcluded = true := fun g hg =>
        (isExcluded_congr_of_block hchain hg hfblock).trans hex
      have hblock' : IsExcludedBlock filters block := ⟨⟨f.type, hblock⟩, hall⟩
      obtain ⟨g, hg, htrue⟩ := hexcluded block hblock'
      rw [(hmem g hg).2] at htrue
      exact isTrue_congr_of_block hchain (fun g hg => hop g (hmem g hg).1)
        (fun g hg => hvalues g (hmem g hg).1) (hsame block hblock') (holds f.type) hg hfblock htrue
    · exact hwanted f hf (by simpa using hex)
  · intro h
    refine ⟨fun f hf _ => h f hf, ?_⟩
    rintro block ⟨⟨kind, hblock⟩, -⟩
    obtain ⟨f, hf⟩ := List.exists_mem_of_ne_nil block (ne_nil_of_mem_blocksOf hblock)
    exact ⟨f, hf, h f (mem_filters_of_block hblock hf).1⟩

omit hop hvalues in
theorem isExcludedBlock_self_iff {block : List Filter} (hblock : IsExcludedBlock filters block)
    {other : List Filter} : IsExcludedBlock block other ↔ other = block := by
  obtain ⟨⟨kind, hkind⟩, hex⟩ := hblock
  have hmem := fun f (hf : f ∈ block) => mem_filters_of_block hkind hf
  have hwhole : blocksOf kind block = [block] :=
    List.splitBy_of_isChain (ne_nil_of_mem_blocksOf hkind) (List.isChain_of_mem_splitBy hkind)
  have hfilter : block.filter (fun f => decide (f.type = kind)) = block :=
    List.filter_eq_self.mpr fun f hf => by simp [(hmem f hf).2]
  constructor
  · rintro ⟨⟨kind', hother⟩, -⟩
    obtain ⟨f, hf⟩ := List.exists_mem_of_ne_nil other (ne_nil_of_mem_blocksOf hother)
    obtain ⟨hfblock, hkind'⟩ := mem_filters_of_block hother hf
    rw [← hkind', (hmem f hfblock).2, hfilter, hwhole, List.mem_singleton] at hother
    exact hother
  · rintro rfl
    exact ⟨⟨kind, by rw [hfilter, hwhole]; exact List.mem_singleton_self _⟩, hex⟩

/-- An excluded block keeps its truth under every assignment exactly when its filters have the same
values: a value that one of them lacks can be what the others do not find. -/
theorem allTrue_aggregate_block_iff {block : List Filter} (hblock : IsExcludedBlock filters block) :
    (∀ holds, allTrue holds (aggregate block) = allTrue holds block) ↔ HaveSameValues block := by
  obtain ⟨⟨kind, hkind⟩, hex⟩ := id hblock
  have hmem := fun f (hf : f ∈ block) => mem_filters_of_block hkind hf
  have hop' : ∀ f ∈ block, f.op ≠ some .or := fun f hf => hop f (hmem f hf).1
  have hvalues' : ∀ f ∈ block, f.values ≠ [] := fun f hf => hvalues f (hmem f hf).1
  constructor
  · intro h f hf g hg v hv
    by_contra hvg
    have hne : f ≠ g := fun heq => hvg (heq ▸ hv)
    have hand : ∀ f' ∈ block, f'.mergeOp = some .and := by
      rcases block with - | ⟨first, rest⟩
      · cases hf
      · refine mergeOp_of_mem_block (isChain_of_mem_blocksOf hkind) hop' ?_
        rintro rfl
        rw [List.mem_singleton] at hf hg
        exact hne (hf.trans hg.symm)
    -- everything is found but the value that `g` lacks
    let holds : FilterType → Text → Bool := fun _ w => decide (w ≠ v)
    have hfTrue : f.isTrue (holds f.type) = true := by
      rw [Filter.isTrue, if_pos (hex f hf), Filter.isMet_of_mergeOp (hand f hf) (hvalues' f hf),
        Bool.not_eq_true', List.all_eq_false]
      exact ⟨v, hv, by simp [holds]⟩
    have hgFalse : g.isTrue (holds g.type) = false := by
      rw [Filter.isTrue, if_pos (hex g hg), Filter.isMet_of_mergeOp (hand g hg) (hvalues' g hg),
        Bool.not_eq_false', List.all_eq_true]
      exact fun w hw => decide_eq_true fun heq => hvg (heq ▸ hw)
    have hmerged : allTrue holds (aggregate block) = true := by
      rw [allTrue_aggregate_iff_excluded hop' hvalues']
      refine ⟨fun f' hf' hwanted => ?_, fun other hother => ?_⟩
      · rw [hex f' hf'] at hwanted
        cases hwanted
      · rw [isExcludedBlock_self_iff hblock] at hother
        exact ⟨f, hother ▸ hf, hfTrue⟩
    rw [h holds, allTrue_iff] at hmerged
    rw [hmerged g hg] at hgFalse
    cases hgFalse
  · intro hsame holds
    refine allTrue_aggregate_of_haveSameValues hop' hvalues' (fun other hother => ?_) holds
    rwa [(isExcludedBlock_self_iff hblock).mp hother]

/-- **What a normalized list means.** Wanted filters keep their truth, and of an excluded block one
true filter is enough. So a list keeps its truth when the filters of every excluded block have the
same values, and a block on its own does so in no other case. -/
theorem allTrue_aggregate :
    (∀ holds, allTrue holds (aggregate filters) = true ↔
      (∀ f ∈ filters, f.isExcluded = false → f.isTrue (holds f.type) = true) ∧
        ∀ block, IsExcludedBlock filters block → ∃ f ∈ block, f.isTrue (holds f.type) = true) ∧
    ((∀ block, IsExcludedBlock filters block → HaveSameValues block) →
      ∀ holds, allTrue holds (aggregate filters) = allTrue holds filters) ∧
    ∀ block, IsExcludedBlock filters block →
      ((∀ holds, allTrue holds (aggregate block) = allTrue holds block) ↔ HaveSameValues block) :=
  ⟨allTrue_aggregate_iff_excluded hop hvalues, allTrue_aggregate_of_haveSameValues hop hvalues,
    fun _ hblock => allTrue_aggregate_block_iff hop hvalues hblock⟩

end Normalized

/-! ### Two excluded newspapers -/

/-- Neither of two newspapers is wanted, and each is excluded by a filter of its own. -/
def excludedNewspapers : List Filter :=
  [{ type := .newspaper, context := .excluded, q := some (.one "GDL") },
    { type := .newspaper, context := .excluded, q := some (.one "JDG") }]

/-- The general statement at the two newspapers, whose block does not have the same values. -/
theorem allTrue_aggregate_excludedNewspapers :
    (∀ f ∈ excludedNewspapers, f.op ≠ some .or) ∧ (∀ f ∈ excludedNewspapers, f.values ≠ []) ∧
      IsExcludedBlock excludedNewspapers excludedNewspapers ∧
      ((∀ holds, allTrue holds (aggregate excludedNewspapers) =
        allTrue holds excludedNewspapers) ↔ HaveSameValues excludedNewspapers) := by
  have hop : ∀ f ∈ excludedNewspapers, f.op ≠ some .or := by decide
  have hvalues : ∀ f ∈ excludedNewspapers, f.values ≠ [] := by decide
  have hblock : IsExcludedBlock excludedNewspapers excludedNewspapers :=
    ⟨⟨.newspaper, by decide⟩, by decide⟩
  exact ⟨hop, hvalues, hblock, (allTrue_aggregate hop hvalues).2.2 _ hblock⟩

/-- Normalization does not keep the truth of excluded filters: a document of one of the two
newspapers is excluded by the list, but not by its normal form. -/
theorem exists_allTrue_aggregate_ne :
    ¬ ∀ (holds : FilterType → Text → Bool) (filters : List Filter),
      (∀ f ∈ filters, f.op ≠ some .or) → (∀ f ∈ filters, f.values ≠ []) →
      (∀ f ∈ filters, ∀ g ∈ filters, f.type = g.type → f.precision = g.precision) →
      allTrue holds (aggregate filters) = allTrue holds filters := by
  intro h
  have heq := h (fun _ v => decide (v = ['G', 'D', 'L'])) excludedNewspapers (by decide)
    (by decide) (by decide)
  exact absurd heq (by decide)

end FilterAlgebra
