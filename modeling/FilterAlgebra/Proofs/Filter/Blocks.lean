import FilterAlgebra.Filter.Aggregate
import Mathlib.Data.List.SplitBy

/-!
# Blocks of filters

Aggregation merges the filters of a type from left to right. Here the same result is described at
once: the filters of a type are cut into maximal blocks of neighbours that can be merged
(`blocksOf`), and each block becomes one filter (`mergeGroup_eq`). All members of a block agree on
their context and on the operator they merge under (`agree_of_isChain`), which is what every
statement about merged filters rests on.
-/

namespace FilterAlgebra

/-! ### Merging two filters -/

namespace Filter

theorem isMergeable_iff {f g : Filter} :
    f.isMergeable g = true ↔
      f.mergeOp.isSome = true ∧ g.mergeOp = f.mergeOp ∧ g.context = f.context := by
  simp only [isMergeable, Bool.and_eq_true, decide_eq_true_eq, and_assoc]
  constructor
  · rintro ⟨hsome, hop, hcontext⟩
    exact ⟨hsome, hop.symm, hcontext.symm⟩
  · rintro ⟨hsome, hop, hcontext⟩
    exact ⟨hsome, hop.symm, hcontext.symm⟩

/-- Whether a filter can be merged with the next depends on its operator and context only. -/
theorem isMergeable_congr {f f' : Filter} (hop : f'.mergeOp = f.mergeOp)
    (hcontext : f'.context = f.context) (g : Filter) : f'.isMergeable g = f.isMergeable g := by
  simp [isMergeable, hop, hcontext]

@[simp] theorem type_merge (f g : Filter) : (f.merge g).type = f.type := rfl

@[simp] theorem context_merge (f g : Filter) : (f.merge g).context = f.context := rfl

@[simp] theorem op_merge (f g : Filter) : (f.merge g).op = f.mergeOp := rfl

@[simp] theorem rawValues_merge (f g : Filter) :
    (f.merge g).rawValues = f.rawValues ++ g.rawValues := rfl

theorem mergeOp_merge {f : Filter} (h : f.mergeOp.isSome = true) (g : Filter) :
    (f.merge g).mergeOp = f.mergeOp := by
  obtain ⟨op, hop⟩ := Option.isSome_iff_exists.mp h
  have hmerge : (f.merge g).op = some op := hop
  rw [hop]
  simp only [mergeOp, hmerge]

end Filter

/-! ### Merging a block -/

/-- A block as one filter; there is no filter for the empty block. -/
def mergedBlock? : List Filter → Option Filter
  | [] => none
  | first :: rest => some (rest.foldl Filter.merge first)

/-- Whether neighbours of a type are merged; flags and ranges never are. -/
def mergesUnder (kind : FilterType) (f g : Filter) : Bool :=
  !(kind.isFlag || kind.isNumericRange) && f.isMergeable g

/-- The filters of a type, cut into maximal blocks of neighbours that are merged. -/
def blocksOf (kind : FilterType) (members : List Filter) : List (List Filter) :=
  members.splitBy (mergesUnder kind)

/-- All members of a block agree with its first. -/
theorem agree_of_isChain {first : Filter} {rest : List Filter}
    (h : (first :: rest).IsChain fun f g => f.isMergeable g) :
    ∀ g ∈ rest, first.mergeOp.isSome = true ∧ g.mergeOp = first.mergeOp ∧
      g.context = first.context := by
  induction rest generalizing first with
  | nil => simp
  | cons second rest ih =>
    rw [List.isChain_cons_cons] at h
    obtain ⟨hsome, hop, hcontext⟩ := Filter.isMergeable_iff.mp h.1
    intro g hg
    rcases List.mem_cons.mp hg with rfl | hg
    · exact ⟨hsome, hop, hcontext⟩
    · obtain ⟨-, hop', hcontext'⟩ := ih h.2 g hg
      exact ⟨hsome, hop'.trans hop, hcontext'.trans hcontext⟩

theorem type_foldl_merge (rest : List Filter) (first : Filter) :
    (rest.foldl Filter.merge first).type = first.type := by
  induction rest generalizing first with
  | nil => rfl
  | cons g rest ih => exact ih (first.merge g)

theorem context_foldl_merge (rest : List Filter) (first : Filter) :
    (rest.foldl Filter.merge first).context = first.context := by
  induction rest generalizing first with
  | nil => rfl
  | cons g rest ih => exact ih (first.merge g)

theorem rawValues_foldl_merge (rest : List Filter) (first : Filter) :
    (rest.foldl Filter.merge first).rawValues = (first :: rest).flatMap Filter.rawValues := by
  induction rest generalizing first with
  | nil => simp
  | cons g rest ih =>
    rw [List.foldl_cons, ih]
    simp

theorem mergeOp_foldl_merge {first : Filter} {rest : List Filter}
    (h : rest ≠ [] → first.mergeOp.isSome = true) :
    (rest.foldl Filter.merge first).mergeOp = first.mergeOp := by
  induction rest generalizing first with
  | nil => rfl
  | cons g rest ih =>
    have hsome := h (List.cons_ne_nil g rest)
    have hmerge := Filter.mergeOp_merge hsome g
    rw [List.foldl_cons, ih (fun _ => hmerge ▸ hsome), hmerge]

/-- The last member of a block decides about the next filter as the merged block does. -/
theorem isMergeable_foldl_merge {first : Filter} {rest : List Filter}
    (h : (first :: rest).IsChain fun f g => f.isMergeable g) (g : Filter) :
    (rest.foldl Filter.merge first).isMergeable g =
      ((first :: rest).getLast (List.cons_ne_nil first rest)).isMergeable g := by
  have hagree := agree_of_isChain h
  have hsome : rest ≠ [] → first.mergeOp.isSome = true := fun hrest =>
    let ⟨f, hf⟩ := List.exists_mem_of_ne_nil rest hrest
    (hagree f hf).1
  have hmerged := Filter.isMergeable_congr (mergeOp_foldl_merge hsome)
    (context_foldl_merge rest first) g
  rcases List.mem_cons.mp (List.getLast_mem (List.cons_ne_nil first rest)) with hlast | hlast
  · rw [hmerged, hlast]
  · obtain ⟨-, hop, hcontext⟩ := hagree _ hlast
    rw [hmerged, Filter.isMergeable_congr hop hcontext]

/-- The run so far is a block, of which nothing is known but that it can still grow. -/
theorem mergeRuns_foldl_merge {first : Filter} {rest : List Filter}
    (h : (first :: rest).IsChain fun f g => f.isMergeable g) (later : List Filter) :
    mergeRuns (rest.foldl Filter.merge first) later =
      ((first :: rest ++ later).splitBy Filter.isMergeable).filterMap mergedBlock? := by
  induction later generalizing first rest with
  | nil =>
    rw [List.append_nil, List.splitBy_of_isChain (List.cons_ne_nil first rest) h]
    rfl
  | cons g later ih =>
    have hgrow := isMergeable_foldl_merge h g
    simp only [mergeRuns]
    by_cases hg : (rest.foldl Filter.merge first).isMergeable g = true
    · -- the block takes `g` in
      rw [hg] at hgrow
      have hchain : (first :: (rest ++ [g])).IsChain fun f g => f.isMergeable g := by
        rw [← List.cons_append, List.isChain_append]
        refine ⟨h, List.isChain_singleton g, ?_⟩
        intro f hf g' hg'
        rw [List.getLast?_eq_some_getLast (List.cons_ne_nil first rest)] at hf
        simp only [Option.mem_def, Option.some.injEq, List.head?_cons] at hf hg'
        rw [← hf, ← hg']
        exact hgrow.symm
      have hih := ih hchain
      rw [List.foldl_append, List.foldl_cons, List.foldl_nil] at hih
      rw [if_pos hg, hih]
      simp
    · -- the block is closed, and `g` opens the next
      rw [Bool.not_eq_true] at hg
      rw [hg] at hgrow
      have hsplit : (first :: rest ++ g :: later).splitBy Filter.isMergeable =
          (first :: rest) :: (g :: later).splitBy Filter.isMergeable := by
        rw [List.splitBy_append, List.splitBy_of_isChain (List.cons_ne_nil first rest) h]
        · rfl
        · intro f hf g' hg'
          rw [List.getLast?_eq_some_getLast (List.cons_ne_nil first rest)] at hf
          simp only [Option.mem_def, Option.some.injEq, List.head?_cons] at hf hg'
          rw [← hf, ← hg']
          exact hgrow.symm
      rw [if_neg (by simp [hg]), hsplit, List.filterMap_cons]
      have hih := @ih g [] (List.isChain_singleton g)
      simp only [List.foldl_nil] at hih
      simp [mergedBlock?, hih]

theorem splitBy_false (members : List Filter) :
    members.splitBy (fun _ _ => false) = members.map fun f => [f] := by
  induction members with
  | nil => rfl
  | cons f members ih =>
    rw [← List.singleton_append, List.splitBy_append (by simp), ih]
    rfl

/-- **What merging gives.** The normal form of the filters of a type has one filter for each
block. -/
theorem mergeGroup_eq (kind : FilterType) (members : List Filter) :
    mergeGroup kind members = (blocksOf kind members).filterMap mergedBlock? := by
  unfold mergeGroup blocksOf
  by_cases hkind : (kind.isFlag || kind.isNumericRange) = true
  · have hnever : mergesUnder kind = fun _ _ => false := by
      funext f g
      simp [mergesUnder, hkind]
    rw [if_pos hkind, hnever, splitBy_false, List.filterMap_map]
    exact (List.filterMap_some).symm
  · have hmerges : mergesUnder kind = Filter.isMergeable := by
      funext f g
      simp [mergesUnder, hkind]
    rw [if_neg hkind, hmerges]
    cases members with
    | nil => rfl
    | cons first rest => exact mergeRuns_foldl_merge (List.isChain_singleton first) rest

/-- The members of a block can be merged one after the other. -/
theorem isChain_of_mem_blocksOf {kind : FilterType} {members block : List Filter}
    (h : block ∈ blocksOf kind members) : block.IsChain fun f g => f.isMergeable g := by
  refine (List.isChain_of_mem_splitBy h).imp ?_
  intro f g hfg
  simp only [mergesUnder, Bool.and_eq_true] at hfg
  exact hfg.2

theorem mem_of_mem_blocksOf {kind : FilterType} {members block : List Filter}
    (h : block ∈ blocksOf kind members) {f : Filter} (hf : f ∈ block) : f ∈ members := by
  have hflatten : (blocksOf kind members).flatten = members := List.flatten_splitBy _ members
  rw [← hflatten, List.mem_flatten]
  exact ⟨block, h, hf⟩

theorem ne_nil_of_mem_blocksOf {kind : FilterType} {members block : List Filter}
    (h : block ∈ blocksOf kind members) : block ≠ [] :=
  List.ne_nil_of_mem_splitBy h

/-- Every filter stands in a block. -/
theorem exists_mem_blocksOf (kind : FilterType) {members : List Filter} {f : Filter}
    (hf : f ∈ members) : ∃ block ∈ blocksOf kind members, f ∈ block := by
  have hflatten : (blocksOf kind members).flatten = members := List.flatten_splitBy _ members
  rw [← hflatten, List.mem_flatten] at hf
  exact hf

end FilterAlgebra
