import FilterAlgebra.Proofs.Filter.KeptFilters

/-!
# Maximal blocks

What the normal form of a list of filters is, said without merging. The kept filters of a type are
cut into maximal blocks: in a block all filters have one context and one operator, and no two
neighbouring blocks make a block together. There is one such cut (`isCut_iff`). A block of one
filter stays as it is, and a longer one becomes its first filter with the operator of the block and
all its raw values (`Becomes`). So no raw value is lost, doubled or moved, and nothing is left to
merge.
-/

namespace FilterAlgebra

/-! ### Blocks -/

namespace Filter

/-- The operator of a filter: the one that is given, or the conjunction for at most one raw value.
A longer list without an operator has none. -/
inductive HasOp (f : Filter) : Op → Prop
  | given {op : Op} (h : f.op = some op) : HasOp f op
  | single (hop : f.op = none) (hvalues : f.rawValues.length ≤ 1) : HasOp f .and

/-- Whether two filters may stand in one block. -/
def Joins (f g : Filter) : Prop := f.context = g.context ∧ ∃ op, f.HasOp op ∧ g.HasOp op

theorem valueCount_eq (f : Filter) : f.valueCount = f.rawValues.length := by
  cases hq : f.q <;> simp [valueCount, rawValues, FilterValue.length, hq]

theorem hasOp_iff {f : Filter} {op : Op} : f.HasOp op ↔ f.mergeOp = some op := by
  constructor
  · intro h
    cases h with
    | given h => simp only [mergeOp, h]
    | single hop hvalues =>
      rw [← valueCount_eq] at hvalues
      simp only [mergeOp, hop, if_pos hvalues]
  · intro h
    unfold mergeOp at h
    split at h
    · next given hgiven => exact .given (hgiven.trans h)
    · next hnone =>
      split at h
      · next hcount =>
        obtain rfl := Option.some.inj h
        exact .single hnone (f.valueCount_eq ▸ hcount)
      · cases h

theorem joins_iff {f g : Filter} : f.Joins g ↔ f.isMergeable g = true := by
  simp only [Joins, hasOp_iff, isMergeable_iff, Option.isSome_iff_exists]
  constructor
  · rintro ⟨hcontext, op, hf, hg⟩
    exact ⟨⟨op, hf⟩, hg.trans hf.symm, hcontext.symm⟩
  · rintro ⟨⟨op, hf⟩, hg, hcontext⟩
    exact ⟨hcontext.symm, op, hf, hg.trans hf⟩

end Filter

/-- One filter, or several of which any two may stand in one block. -/
structure IsBlock (block : List Filter) : Prop where
  ne_nil : block ≠ []
  joins : block.Pairwise Filter.Joins

/-- A cut into maximal blocks: no two neighbours make one block together. -/
structure IsCut (members : List Filter) (blocks : List (List Filter)) : Prop where
  flatten : blocks.flatten = members
  isBlock : ∀ block ∈ blocks, IsBlock block
  maximal : blocks.IsChain fun block next => ¬IsBlock (block ++ next)

/-- What a block becomes. -/
inductive Becomes : List Filter → Filter → Prop
  | single (f : Filter) : Becomes [f] f
  | merged {first second : Filter} {rest : List Filter} {op : Op} (hop : first.HasOp op) :
      Becomes (first :: second :: rest)
        { first with
          op := some op, q := some (.many ((first :: second :: rest).flatMap Filter.rawValues)) }

/-- Whether filters of the type are merged at all. -/
def FilterType.isMerged (kind : FilterType) : Bool := !(kind.isFlag || kind.isNumericRange)

theorem mergesUnder_eq {kind : FilterType} (h : kind.isMerged = true) :
    mergesUnder kind = Filter.isMergeable := by
  funext f g
  rw [mergesUnder, ← FilterType.isMerged, h, Bool.true_and]

/-- Neighbours that join make a block, because joining passes on. -/
theorem pairwise_joins_iff {block : List Filter} :
    block.Pairwise Filter.Joins ↔ block.IsChain fun f g => f.isMergeable g := by
  constructor
  · intro h
    exact h.isChain.imp fun f g => Filter.joins_iff.mp
  · intro h
    induction block with
    | nil => exact .nil
    | cons first rest ih =>
      refine .cons (fun g hg => ?_) (ih h.tail)
      obtain ⟨hsome, hop, hcontext⟩ := agree_of_isChain h g hg
      exact Filter.joins_iff.mpr (Filter.isMergeable_iff.mpr ⟨hsome, hop, hcontext⟩)

/-- Two blocks make one together if the last filter of the first joins the first of the second. -/
theorem isBlock_append_iff {block next : List Filter} (hblock : IsBlock block)
    (hnext : IsBlock next) :
    IsBlock (block ++ next) ↔
      (block.getLast hblock.ne_nil).isMergeable (next.head hnext.ne_nil) = true := by
  have hchain := pairwise_joins_iff.mp hblock.joins
  have hchain' := pairwise_joins_iff.mp hnext.joins
  have happend : (block ++ next).IsChain (fun f g => f.isMergeable g = true) ↔
      (block.getLast hblock.ne_nil).isMergeable (next.head hnext.ne_nil) = true := by
    rw [List.isChain_append, List.getLast?_eq_some_getLast hblock.ne_nil,
      List.head?_eq_some_head hnext.ne_nil]
    simp [hchain, hchain']
  rw [← happend, ← pairwise_joins_iff]
  exact ⟨IsBlock.joins, fun h => ⟨List.append_ne_nil_of_left_ne_nil hblock.ne_nil next, h⟩⟩

theorem isBlock_iff {block : List Filter} :
    IsBlock block ↔ block ≠ [] ∧ block.IsChain fun f g => f.isMergeable g := by
  rw [← pairwise_joins_iff]
  exact ⟨fun h => ⟨h.ne_nil, h.joins⟩, fun h => ⟨h.1, h.2⟩⟩

/-- **The cut into maximal blocks** is unique, and it is the one that merging makes. -/
theorem isCut_iff {kind : FilterType} (hkind : kind.isMerged = true) {members : List Filter}
    {blocks : List (List Filter)} : IsCut members blocks ↔ blocks = blocksOf kind members := by
  have hmaximal : (∀ block ∈ blocks, IsBlock block) →
      ((blocks.IsChain fun block next => ¬IsBlock (block ++ next)) ↔
        blocks.IsChain fun block next =>
          ∃ hblock hnext, (block.getLast hblock).isMergeable (next.head hnext) = false) := by
    intro hblocks
    refine List.IsChain.iff_of_mem_imp fun block next hblock hnext => ?_
    rw [isBlock_append_iff (hblocks block hblock) (hblocks next hnext), Bool.not_eq_true]
    exact ⟨fun h => ⟨_, _, h⟩, fun ⟨_, _, h⟩ => h⟩
  rw [blocksOf, mergesUnder_eq hkind, eq_comm (a := blocks), List.splitBy_eq_iff]
  constructor
  · intro h
    refine ⟨h.flatten.symm, fun hnil => (h.isBlock [] hnil).ne_nil rfl, fun block hblock => ?_,
      (hmaximal h.isBlock).mp h.maximal⟩
    exact (isBlock_iff.mp (h.isBlock block hblock)).2
  · rintro ⟨hflatten, hnil, hchain, hends⟩
    have hblocks : ∀ block ∈ blocks, IsBlock block := fun block hblock =>
      isBlock_iff.mpr ⟨fun h => hnil (h ▸ hblock), hchain block hblock⟩
    exact ⟨hflatten.symm, hblocks, (hmaximal hblocks).mpr hends⟩

/-! ### Merged blocks -/

theorem foldl_merge_eq {first : Filter} (hsome : first.mergeOp.isSome = true) (second : Filter)
    (rest : List Filter) :
    (second :: rest).foldl Filter.merge first =
      { first with
        op := first.mergeOp, q := some (.many ((first :: second :: rest).flatMap Filter.rawValues)) } := by
  induction rest generalizing first second with
  | nil => simp [Filter.merge]
  | cons third rest ih =>
    have hmerge := Filter.mergeOp_merge hsome second
    rw [List.foldl_cons, ih (hmerge ▸ hsome), hmerge]
    simp only [List.flatMap_cons, Filter.rawValues_merge, List.append_assoc]
    rfl

theorem becomes_mergedBlock {first : Filter} {rest : List Filter} (h : IsBlock (first :: rest)) :
    Becomes (first :: rest) (rest.foldl Filter.merge first) := by
  cases rest with
  | nil => exact .single first
  | cons second rest =>
    have hagree := agree_of_isChain (isBlock_iff.mp h).2 second List.mem_cons_self
    obtain ⟨op, hop⟩ := Option.isSome_iff_exists.mp hagree.1
    rw [foldl_merge_eq hagree.1, hop]
    exact .merged (Filter.hasOp_iff.mpr hop)

theorem forall₂_becomes {blocks : List (List Filter)} (h : ∀ block ∈ blocks, IsBlock block) :
    List.Forall₂ Becomes blocks (blocks.filterMap mergedBlock?) := by
  induction blocks with
  | nil => exact .nil
  | cons block blocks ih =>
    rw [List.forall_mem_cons] at h
    obtain ⟨first, rest, rfl⟩ := List.exists_cons_of_ne_nil h.1.ne_nil
    rw [List.filterMap_cons_some (show mergedBlock? (first :: rest) = some _ from rfl)]
    exact .cons (becomes_mergedBlock h.1) (ih h.2)

theorem Becomes.agree {block : List Filter} {g : Filter} (hg : Becomes block g)
    (hblock : IsBlock block) {f : Filter} (hf : f ∈ block) :
    g.context = f.context ∧ ∀ op, g.HasOp op ↔ f.HasOp op := by
  cases hg with
  | single =>
    rw [List.mem_singleton] at hf
    exact ⟨hf ▸ rfl, fun op => hf ▸ Iff.rfl⟩
  | @merged first second rest op hop =>
    have hfirst : first.context = f.context ∧ f.mergeOp = first.mergeOp := by
      rcases List.mem_cons.mp hf with rfl | hf
      · exact ⟨rfl, rfl⟩
      · obtain ⟨-, hsame, hcontext⟩ := agree_of_isChain (isBlock_iff.mp hblock).2 f hf
        exact ⟨hcontext.symm, hsame⟩
    refine ⟨hfirst.1, fun op' => ?_⟩
    rw [Filter.hasOp_iff, Filter.hasOp_iff, hfirst.2, Filter.hasOp_iff.mp hop]
    rfl

theorem Becomes.rawValues {block : List Filter} {g : Filter} (hg : Becomes block g) :
    g.rawValues = block.flatMap Filter.rawValues := by
  cases hg with
  | single => simp
  | merged => rfl

/-- Filters that could still be merged would come from blocks that make one together. -/
theorem isBlock_append_of_joins {block next : List Filter} {f g : Filter} (hblock : IsBlock block)
    (hnext : IsBlock next) (hf : Becomes block f) (hg : Becomes next g) (h : f.Joins g) :
    IsBlock (block ++ next) := by
  rw [isBlock_append_iff hblock hnext, ← Filter.joins_iff]
  obtain ⟨hcontext, op, hop, hop'⟩ := h
  obtain ⟨hlast, hlastOp⟩ := hf.agree hblock (List.getLast_mem hblock.ne_nil)
  obtain ⟨hhead, hheadOp⟩ := hg.agree hnext (List.head_mem hnext.ne_nil)
  exact ⟨hlast.symm.trans (hcontext.trans hhead), op, (hlastOp op).mp hop, (hheadOp op).mp hop'⟩

theorem isChain_of_becomes {blocks : List (List Filter)} {group : List Filter}
    (hblocks : ∀ block ∈ blocks, IsBlock block)
    (hmaximal : blocks.IsChain fun block next => ¬IsBlock (block ++ next))
    (h : List.Forall₂ Becomes blocks group) : group.IsChain fun f g => ¬f.Joins g := by
  induction h with
  | nil => exact .nil
  | @cons block f blocks group hf h ih =>
    rw [List.forall_mem_cons] at hblocks
    cases h with
    | nil => exact .singleton f
    | @cons next g blocks group hg h =>
      rw [List.isChain_cons_cons] at hmaximal
      have hnext := hblocks.2 next List.mem_cons_self
      refine .cons_cons (fun hjoins => ?_) (ih hblocks.2 hmaximal.2)
      exact hmaximal.1 (isBlock_append_of_joins hblocks.1 hnext hf hg hjoins)

theorem flatMap_rawValues_of_becomes {blocks : List (List Filter)} {group : List Filter}
    (h : List.Forall₂ Becomes blocks group) :
    group.flatMap Filter.rawValues = blocks.flatten.flatMap Filter.rawValues := by
  induction h with
  | nil => rfl
  | cons hf _ ih =>
    rw [List.flatMap_cons, hf.rawValues, ih, List.flatten_cons, List.flatMap_append]

theorem mergeGroup_of_not_isMerged {kind : FilterType} (hkind : kind.isMerged = false)
    (members : List Filter) : mergeGroup kind members = members := by
  rw [FilterType.isMerged, Bool.not_eq_false'] at hkind
  unfold mergeGroup
  exact if_pos hkind

theorem exists_isCut {kind : FilterType} (hkind : kind.isMerged = true) (members : List Filter) :
    ∃ blocks, (∀ blocks', IsCut members blocks' ↔ blocks' = blocks) ∧
      List.Forall₂ Becomes blocks (mergeGroup kind members) := by
  have hcut : IsCut members (blocksOf kind members) := (isCut_iff hkind).mpr rfl
  refine ⟨_, fun _ => isCut_iff hkind, ?_⟩
  rw [mergeGroup_eq]
  exact forall₂_becomes hcut.isBlock

theorem isChain_mergeGroup {kind : FilterType} (hkind : kind.isMerged = true)
    (members : List Filter) : (mergeGroup kind members).IsChain fun f g => ¬f.Joins g := by
  obtain ⟨blocks, hcut, hbecomes⟩ := exists_isCut hkind members
  have hblocks := (hcut blocks).mpr rfl
  exact isChain_of_becomes hblocks.isBlock hblocks.maximal hbecomes

theorem flatMap_rawValues_mergeGroup (kind : FilterType) (members : List Filter) :
    (mergeGroup kind members).flatMap Filter.rawValues = members.flatMap Filter.rawValues := by
  cases hkind : kind.isMerged with
  | false => rw [mergeGroup_of_not_isMerged hkind]
  | true =>
    obtain ⟨blocks, hcut, hbecomes⟩ := exists_isCut hkind members
    rw [flatMap_rawValues_of_becomes hbecomes, ((hcut blocks).mpr rfl).flatten]

/-! ### The normal form -/

/-- The filters of a type. -/
def ofType (kind : FilterType) (filters : List Filter) : List Filter :=
  filters.filter fun f => f.type = kind

/-- The types of filters, in the order in which they are first seen. -/
def typesSeen (filters : List Filter) : List FilterType := (filters.map Filter.type).eraseDups

theorem groupByType_eq (filters : List Filter) :
    groupByType filters = (typesSeen filters).map fun kind => (kind, ofType kind filters) :=
  groupBy_eq Filter.type filters

theorem typesSeen_aggregate (filters : List Filter) :
    typesSeen (aggregate filters) = typesSeen (filters.filter Filter.isKept) := by
  rw [typesSeen, ← groupBy_fst, ← groupByType, groupByType_aggregate_eq, List.map_map,
    typesSeen, ← groupBy_fst]
  rfl

theorem ofType_eq_nil_iff {kind : FilterType} {filters : List Filter} :
    ofType kind filters = [] ↔ kind ∉ typesSeen filters := by
  simp [ofType, typesSeen, List.filter_eq_nil_iff]

/-- **Types apart.** The filters of a type in the normal form are the merged kept filters of the
type. -/
theorem ofType_aggregate (kind : FilterType) (filters : List Filter) :
    ofType kind (aggregate filters) =
      mergeGroup kind (ofType kind (filters.filter Filter.isKept)) := by
  have htypes := typesSeen_aggregate filters
  by_cases hkind : kind ∈ typesSeen (filters.filter Filter.isKept)
  · have hgroups := groupByType_aggregate_eq filters
    rw [groupByType_eq, groupByType_eq, htypes, List.map_map, List.map_inj_left] at hgroups
    exact congrArg Prod.snd (hgroups kind hkind)
  · rw [ofType_eq_nil_iff.mpr hkind, ofType_eq_nil_iff.mpr (htypes ▸ hkind)]
    simp [mergeGroup]

theorem aggregate_eq (filters : List Filter) :
    aggregate filters =
      (typesSeen (filters.filter Filter.isKept)).flatMap fun kind =>
        mergeGroup kind (ofType kind (filters.filter Filter.isKept)) := by
  rw [aggregate, groupByType_eq, List.flatMap_map]

/-- **The exact normal form.** The types stand in the order in which the kept filters first show
them, each with its filters together. Flags and numeric ranges are kept as they are. The filters of
any other type are those that the maximal blocks of its kept filters become. No raw value is lost,
doubled or moved within its type, and no two neighbours of one type could still be merged. -/
theorem aggregate_exact (filters : List Filter) :
    aggregate filters =
      (typesSeen (filters.filter Filter.isKept)).flatMap
        (fun kind => ofType kind (aggregate filters)) ∧
    (∀ kind, kind.isMerged = false →
      ofType kind (aggregate filters) = ofType kind (filters.filter Filter.isKept)) ∧
    (∀ kind, kind.isMerged = true →
      ∃ blocks, (∀ blocks', IsCut (ofType kind (filters.filter Filter.isKept)) blocks' ↔
          blocks' = blocks) ∧
        List.Forall₂ Becomes blocks (ofType kind (aggregate filters))) ∧
    (∀ kind, (ofType kind (aggregate filters)).flatMap Filter.rawValues =
      (ofType kind (filters.filter Filter.isKept)).flatMap Filter.rawValues) ∧
    ∀ f g, [f, g] <:+: aggregate filters → g.type = f.type → f.type.isMerged = true →
      ¬f.Joins g := by
  simp only [ofType_aggregate]
  refine ⟨aggregate_eq filters, fun kind hkind => mergeGroup_of_not_isMerged hkind _,
    fun kind hkind => exists_isCut hkind _, fun kind => flatMap_rawValues_mergeGroup kind _, ?_⟩
  intro f g hneighbours htype hkind
  -- the two are neighbours among the filters of their type as well
  have hgroup := hneighbours.filter fun h => decide (h.type = f.type)
  rw [List.filter_eq_self.mpr (by simp [htype])] at hgroup
  have hchain := isChain_mergeGroup hkind (ofType f.type (filters.filter Filter.isKept))
  rw [← ofType_aggregate] at hchain
  have hpair := List.IsChain.infix hchain hgroup
  exact List.isChain_pair.mp hpair

/-- Values without an operator are joined, a list without one stands alone, and the two languages
with one operator are no neighbours. -/
example :
    aggregate
      [{ type := .newspaper, q := some (.one "GDL") },
        { type := .language, op := some .or, q := some (.one "fr") },
        { type := .newspaper, op := some .and, q := some (.many ["JDG", "IMP"]) },
        { type := .language, q := some (.many ["de", "it"]) },
        { type := .language, op := some .or, q := some (.one "en") }] =
      [{ type := .newspaper, op := some .and, q := some (.many ["GDL", "JDG", "IMP"]) },
        { type := .language, op := some .or, q := some (.one "fr") },
        { type := .language, q := some (.many ["de", "it"]) },
        { type := .language, op := some .or, q := some (.one "en") }] := by
  decide

end FilterAlgebra
