import FilterAlgebra.Proofs.Filter.Truth

/-!
# Kept filters

A query of the search engine is made of some of the filters only: not of those that the relational
store answers, and not of those without a value field, flags apart. Normalization works on the kept
filters of each type by themselves. The normal form has their types, in the order in which they are
first seen, and under each type the merged filters of that type, with the same values in the same
order (`groupByType_aggregate`).
-/

namespace FilterAlgebra

/-- The filters of which a query of the search engine is made. -/
def keptFilters (filters : List Filter) : List Filter :=
  filters.filter fun f => decide (f.type ≠ .wikidataId) && f.isKept

/-- The kept filters of a type. -/
def keptOf (kind : FilterType) (filters : List Filter) : List Filter :=
  (keptFilters filters).filter fun f => f.type = kind

/-- The types of the kept filters, in the order in which they are first seen. -/
def keptTypes (filters : List Filter) : List FilterType :=
  ((keptFilters filters).map Filter.type).eraseDups

theorem mem_keptTypes_iff {kind : FilterType} {filters : List Filter} :
    kind ∈ keptTypes filters ↔ keptOf kind filters ≠ [] := by
  simp [keptTypes, keptOf, List.filter_eq_nil_iff]

theorem nodup_keptTypes (filters : List Filter) : (keptTypes filters).Nodup :=
  nodup_eraseDups _

theorem type_of_mem_keptOf {kind : FilterType} {filters : List Filter} {f : Filter}
    (hf : f ∈ keptOf kind filters) : f.type = kind := by
  simpa using (List.mem_filter.mp hf).2

theorem keptOf_wikidataId (filters : List Filter) : keptOf .wikidataId filters = [] := by
  rw [keptOf, keptFilters, List.filter_filter, List.filter_eq_nil_iff]
  intro f _
  by_cases hkind : f.type = .wikidataId <;> simp [hkind]

theorem keptFilters_append (xs ys : List Filter) :
    keptFilters (xs ++ ys) = keptFilters xs ++ keptFilters ys :=
  List.filter_append xs ys

theorem keptFilters_eq_nil {filters : List Filter}
    (h : ∀ f ∈ filters, f.type = .wikidataId ∨ (f.q = none ∧ f.type.isFlag = false)) :
    keptFilters filters = [] := by
  rw [keptFilters, List.filter_eq_nil_iff]
  intro f hf
  rcases h f hf with hkind | ⟨hq, hflag⟩
  · simp [hkind]
  · simp [Filter.isKept, hq, hflag]

/-! ### The merged filters of a type -/

theorem type_of_mem_mergeGroup {kind : FilterType} {members : List Filter}
    (h : ∀ f ∈ members, f.type = kind) : ∀ g ∈ mergeGroup kind members, g.type = kind := by
  intro g hg
  rw [mergeGroup_eq, List.mem_filterMap] at hg
  obtain ⟨block, hblock, hg⟩ := hg
  rcases block with - | ⟨first, rest⟩
  · cases hg
  · cases hg
    rw [type_foldl_merge]
    exact h first (mem_of_mem_blocksOf hblock List.mem_cons_self)

theorem mergeGroup_ne_nil {kind : FilterType} {members : List Filter} (h : members ≠ []) :
    mergeGroup kind members ≠ [] := by
  obtain ⟨f, hf⟩ := List.exists_mem_of_ne_nil members h
  obtain ⟨block, hblock, hfblock⟩ := exists_mem_blocksOf kind hf
  rcases block with - | ⟨first, rest⟩
  · cases hfblock
  · rw [mergeGroup_eq]
    exact List.ne_nil_of_mem (List.mem_filterMap.mpr ⟨_, hblock, rfl⟩)

theorem values_filterMap_mergedBlock? (blocks : List (List Filter)) :
    (blocks.filterMap mergedBlock?).flatMap Filter.values =
      blocks.flatten.flatMap Filter.values := by
  induction blocks with
  | nil => rfl
  | cons block blocks ih =>
    rcases block with - | ⟨first, rest⟩
    · exact ih
    · have hmerged : mergedBlock? (first :: rest) = some (rest.foldl Filter.merge first) := rfl
      rw [List.filterMap_cons_some hmerged, List.flatMap_cons, values_foldl_merge, ih,
        List.flatten_cons, List.flatMap_append]

/-- Merging keeps the values that count, in their order. -/
theorem values_mergeGroup (kind : FilterType) (members : List Filter) :
    (mergeGroup kind members).flatMap Filter.values = members.flatMap Filter.values := by
  have hflatten : (blocksOf kind members).flatten = members := List.flatten_splitBy _ members
  rw [mergeGroup_eq, values_filterMap_mergedBlock?, hflatten]

/-- The groups of a normal form are the groups of the kept filters, each of them merged. -/
theorem groupByType_aggregate_eq (filters : List Filter) :
    groupByType (aggregate filters) =
      (groupByType (filters.filter Filter.isKept)).map
        fun group => (group.1, mergeGroup group.1 group.2) := by
  have haggregate : aggregate filters =
      ((filters.filter Filter.isKept).map Filter.type).eraseDups.flatMap fun kind =>
        mergeGroup kind ((filters.filter Filter.isKept).filter fun f => f.type = kind) := by
    rw [aggregate, groupByType, groupBy_eq, List.flatMap_map]
  rw [haggregate, groupByType, groupBy_flatMap (nodup_eraseDups _), groupByType, groupBy_eq,
    List.map_map]
  · rfl
  · intro kind hkind
    obtain ⟨f, hf, rfl⟩ := List.mem_map.mp (List.mem_eraseDups.mp hkind)
    exact mergeGroup_ne_nil (List.ne_nil_of_mem (List.mem_filter.mpr ⟨hf, by simp⟩))
  · intro kind _
    exact type_of_mem_mergeGroup fun f hf => by simpa using (List.mem_filter.mp hf).2

/-- **Types apart.** The groups of a normal form are the merged groups of what is kept. -/
theorem groupByType_aggregate (filters : List Filter) :
    groupByType (aggregate (filters.filter fun f => f.type ≠ .wikidataId)) =
      (keptTypes filters).map fun kind => (kind, mergeGroup kind (keptOf kind filters)) := by
  have hkept : (filters.filter fun f => f.type ≠ .wikidataId).filter Filter.isKept =
      keptFilters filters := by
    rw [List.filter_filter]
    exact List.filter_congr fun f _ => Bool.and_comm _ _
  rw [groupByType_aggregate_eq, hkept, groupByType, groupBy_eq, List.map_map]
  rfl

end FilterAlgebra
