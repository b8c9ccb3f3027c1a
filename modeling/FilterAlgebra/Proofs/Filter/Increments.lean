import FilterAlgebra.Proofs.Filter.MaximalBlocks

/-!
# Increments

A normal form can be carried on: filters that come later may be added to it, and normalizing again
gives what normalizing everything at once gives. Merging goes from left to right and remembers only
the filter that it has merged last (`mergeRuns_append`). That filter is also the last one of the
normal form, and nothing before it can be merged any more, so merging the normal form again arrives
at the same place (`mergeGroup_mergeGroup_append`).
-/

namespace FilterAlgebra

/-! ### Merging, carried on -/

theorem mergeRuns_ne_nil (run : Filter) (members : List Filter) : mergeRuns run members ≠ [] := by
  induction members generalizing run with
  | nil => exact List.cons_ne_nil run []
  | cons f rest ih =>
    unfold mergeRuns
    split
    · exact ih (run.merge f)
    · exact List.cons_ne_nil run _

/-- Merging goes on with the filter that was merged last. -/
theorem mergeRuns_append (run : Filter) (members later : List Filter) :
    mergeRuns run (members ++ later) =
      (mergeRuns run members).dropLast ++
        mergeRuns ((mergeRuns run members).getLast (mergeRuns_ne_nil run members)) later := by
  induction members generalizing run with
  | nil => rfl
  | cons f rest ih =>
    by_cases h : run.isMergeable f = true
    · simp only [List.cons_append, mergeRuns, if_pos h]
      exact ih (run.merge f)
    · simp only [List.cons_append, mergeRuns, if_neg h]
      rw [ih f, List.dropLast_cons_of_ne_nil (mergeRuns_ne_nil f rest),
        List.getLast_cons (mergeRuns_ne_nil f rest), List.cons_append]

/-- What cannot be merged is passed by. -/
theorem mergeRuns_append_of_isChain {first : Filter} {rest : List Filter}
    (h : (first :: rest).IsChain fun f g => ¬f.Joins g) (later : List Filter) :
    mergeRuns first (rest ++ later) =
      (first :: rest).dropLast ++
        mergeRuns ((first :: rest).getLast (List.cons_ne_nil first rest)) later := by
  induction rest generalizing first with
  | nil => rfl
  | cons second rest ih =>
    rw [List.isChain_cons_cons, Filter.joins_iff] at h
    simp only [List.cons_append, mergeRuns, if_neg h.1]
    rw [ih h.2, List.dropLast_cons_of_ne_nil (List.cons_ne_nil second rest),
      List.getLast_cons (List.cons_ne_nil second rest), List.cons_append]

/-- **Merging the merged.** Filters of a type may be merged before more of them come. -/
theorem mergeGroup_mergeGroup_append (kind : FilterType) (members later : List Filter) :
    mergeGroup kind (mergeGroup kind members ++ later) = mergeGroup kind (members ++ later) := by
  cases hkind : kind.isMerged with
  | false => simp only [mergeGroup_of_not_isMerged hkind]
  | true =>
    have hnever : ¬(kind.isFlag || kind.isNumericRange) = true := by
      simpa [FilterType.isMerged] using hkind
    cases members with
    | nil => simp [mergeGroup]
    | cons first rest =>
      have hmerged : mergeGroup kind (first :: rest) = mergeRuns first rest := by
        simp only [mergeGroup, if_neg hnever]
      have hchain := isChain_mergeGroup hkind (first :: rest)
      have happend := mergeRuns_append first rest later
      rw [hmerged] at hchain ⊢
      obtain ⟨first', rest', hruns⟩ := List.exists_cons_of_ne_nil (mergeRuns_ne_nil first rest)
      simp only [hruns] at hchain happend ⊢
      simp only [List.cons_append, mergeGroup, if_neg hnever, happend]
      exact mergeRuns_append_of_isChain hchain later

/-! ### Normal forms, carried on -/

theorem isKept_foldl_merge {first : Filter} (h : first.isKept = true) (rest : List Filter) :
    (rest.foldl Filter.merge first).isKept = true := by
  induction rest generalizing first with
  | nil => exact h
  | cons g rest ih =>
    have hmerged : (first.merge g).isKept = true := rfl
    exact ih hmerged

theorem isKept_of_mem_mergeGroup {kind : FilterType} {members : List Filter}
    (h : ∀ f ∈ members, f.isKept = true) : ∀ g ∈ mergeGroup kind members, g.isKept = true := by
  intro g hg
  rw [mergeGroup_eq, List.mem_filterMap] at hg
  obtain ⟨block, hblock, hg⟩ := hg
  rcases block with - | ⟨first, rest⟩
  · cases hg
  · cases hg
    exact isKept_foldl_merge (h first (mem_of_mem_blocksOf hblock List.mem_cons_self)) rest

/-- Every filter of a normal form takes part. -/
theorem filter_isKept_aggregate (filters : List Filter) :
    (aggregate filters).filter Filter.isKept = aggregate filters := by
  rw [List.filter_eq_self]
  intro g hg
  rw [aggregate_eq, List.mem_flatMap] at hg
  obtain ⟨kind, -, hg⟩ := hg
  refine isKept_of_mem_mergeGroup (fun f hf => ?_) g hg
  exact (List.mem_filter.mp (List.mem_filter.mp hf).1).2

theorem typesSeen_append_congr {xs xs' : List Filter} (h : typesSeen xs = typesSeen xs')
    (ys : List Filter) : typesSeen (xs ++ ys) = typesSeen (xs' ++ ys) := by
  have hmem : ∀ kind, kind ∈ xs.map Filter.type ↔ kind ∈ xs'.map Filter.type := fun kind => by
    rw [← List.mem_eraseDups, ← List.mem_eraseDups (l := xs'.map _)]
    exact Eq.to_iff (congrArg (kind ∈ ·) h)
  have hremove : (ys.map Filter.type).removeAll (xs.map Filter.type) =
      (ys.map Filter.type).removeAll (xs'.map Filter.type) := by
    refine List.filter_congr fun kind _ => ?_
    simp only [List.elem_eq_mem, hmem]
  unfold typesSeen at h ⊢
  rw [List.map_append, List.map_append, List.eraseDups_append, List.eraseDups_append, h, hremove]

theorem ofType_append (kind : FilterType) (xs ys : List Filter) :
    ofType kind (xs ++ ys) = ofType kind xs ++ ofType kind ys :=
  List.filter_append xs ys

/-- **Normal forms can be carried on.** Filters may be normalized before more of them come, and
normalizing twice is normalizing once. -/
theorem aggregate_increments (xs ys : List Filter) :
    aggregate (aggregate xs ++ ys) = aggregate (xs ++ ys) ∧
      aggregate (aggregate xs) = aggregate xs := by
  have hmore : ∀ ys, aggregate (aggregate xs ++ ys) = aggregate (xs ++ ys) := by
    intro ys
    rw [aggregate_eq, aggregate_eq (xs ++ ys), List.filter_append, List.filter_append,
      filter_isKept_aggregate, typesSeen_append_congr (typesSeen_aggregate xs)]
    refine congrArg (List.flatMap · _) (funext fun kind => ?_)
    rw [ofType_append, ofType_append, ofType_aggregate, mergeGroup_mergeGroup_append]
  have htwice := hmore []
  rw [List.append_nil, List.append_nil] at htwice
  exact ⟨hmore ys, htwice⟩

end FilterAlgebra
