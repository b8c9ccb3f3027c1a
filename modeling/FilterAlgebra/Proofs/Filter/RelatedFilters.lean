import FilterAlgebra.Proofs.Filter.KeptFilters

/-!
# Related filters in a normal form

Two lists whose filters are related one by one have normal forms whose filters are, if the relation
keeps the type and the context, whether a filter takes part, and how neighbours are merged
(`Filter.NormalizesAlike`). Flags are never merged, so nothing is asked of the relation there.
-/

namespace FilterAlgebra

/-- What a relation of filters has to keep so that normal forms keep the relation. -/
structure Filter.NormalizesAlike (R : Filter → Filter → Prop) : Prop where
  type : ∀ {f g : Filter}, R f g → g.type = f.type
  context : ∀ {f g : Filter}, R f g → g.context = f.context
  isKept : ∀ {f g : Filter}, R f g → g.isKept = f.isKept
  mergeOp : ∀ {f g : Filter}, f.type.isFlag = false → R f g → g.mergeOp = f.mergeOp
  merge : ∀ {f g f' g' : Filter}, f.type.isFlag = false → f'.type.isFlag = false →
    R f g → R f' g' → R (f.merge f') (g.merge g')

namespace Filter.NormalizesAlike

variable {R : Filter → Filter → Prop} (hR : NormalizesAlike R)

include hR

theorem isMergeable {f g f' g' : Filter} (hflag : f.type.isFlag = false)
    (hflag' : f'.type.isFlag = false) (h : R f g) (h' : R f' g') :
    g.isMergeable g' = f.isMergeable f' := by
  rw [Filter.isMergeable, Filter.isMergeable, hR.mergeOp hflag h, hR.mergeOp hflag' h',
    hR.context h, hR.context h']

theorem forall₂_mergeRuns {run run' : Filter} {rest rest' : List Filter} (hrun : R run run')
    (hrest : List.Forall₂ R rest rest') (hflags : ∀ f ∈ run :: rest, f.type.isFlag = false) :
    List.Forall₂ R (mergeRuns run rest) (mergeRuns run' rest') := by
  induction hrest generalizing run run' with
  | nil => exact .cons hrun .nil
  | @cons f f' rest rest' hf _ ih =>
    obtain ⟨hrunFlag, hlater⟩ := List.forall_mem_cons.mp hflags
    obtain ⟨hfFlag, hrestFlags⟩ := List.forall_mem_cons.mp hlater
    rw [mergeRuns, mergeRuns, hR.isMergeable hrunFlag hfFlag hrun hf]
    by_cases hmergeable : run.isMergeable f = true
    · rw [if_pos hmergeable, if_pos hmergeable]
      apply ih (hR.merge hrunFlag hfFlag hrun hf)
      exact List.forall_mem_cons.mpr ⟨hrunFlag, hrestFlags⟩
    · rw [if_neg hmergeable, if_neg hmergeable]
      exact .cons hrun (ih hf hlater)

theorem forall₂_mergeGroup {kind : FilterType} {members members' : List Filter}
    (h : List.Forall₂ R members members') (hkind : ∀ f ∈ members, f.type = kind) :
    List.Forall₂ R (mergeGroup kind members) (mergeGroup kind members') := by
  unfold mergeGroup
  split
  · exact h
  · next hmerged =>
    cases h with
    | nil => exact .nil
    | cons hfirst hrest =>
      apply hR.forall₂_mergeRuns hfirst hrest
      intro f hf
      rw [Bool.or_eq_true, not_or] at hmerged
      rw [hkind f hf, Bool.eq_false_iff]
      exact hmerged.1

section Lists

variable {filters others : List Filter} (h : List.Forall₂ R filters others)

include h

theorem forall₂_keptFilters : List.Forall₂ R (keptFilters filters) (keptFilters others) := by
  apply List.rel_filter _ h
  intro f g hfg
  simp only [hR.type hfg, hR.isKept hfg]

theorem keptTypes_eq : keptTypes others = keptTypes filters := by
  have htypes : (keptFilters others).map Filter.type = (keptFilters filters).map Filter.type := by
    rw [← List.forall₂_eq_eq_eq, List.forall₂_map_left_iff, List.forall₂_map_right_iff]
    exact (hR.forall₂_keptFilters h).flip.imp fun _ _ hfg => hR.type hfg
  rw [keptTypes, keptTypes, htypes]

theorem forall₂_keptOf (kind : FilterType) :
    List.Forall₂ R (keptOf kind filters) (keptOf kind others) := by
  apply List.rel_filter _ (hR.forall₂_keptFilters h)
  intro f g hfg
  simp only [hR.type hfg]

/-- **Related filters** stay related when the kept filters of a type are merged. -/
theorem forall₂_mergeGroup_keptOf (kind : FilterType) :
    List.Forall₂ R (mergeGroup kind (keptOf kind filters)) (mergeGroup kind (keptOf kind others)) :=
  hR.forall₂_mergeGroup (hR.forall₂_keptOf h kind) fun _ hf => type_of_mem_keptOf hf

end Lists

end Filter.NormalizesAlike

end FilterAlgebra
