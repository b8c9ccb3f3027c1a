import FilterAlgebra.Filter.Aggregate
import Mathlib.Data.List.Induction
import Mathlib.Data.List.Nodup

/-!
# Laws of grouping

Grouping adds one element after the other to the group of its key. These lemmas replace that fold by
its result: the groups are the keys in the order in which they are first seen, and the members of a
group are the elements with its key, in the order of the list. Everything else that is said about
grouped filters follows from this one equation (`groupBy_eq`), so no later proof opens the fold
again.
-/

namespace FilterAlgebra

variable {κ α : Type} [DecidableEq κ]

/-! ### Keys in the order in which they are first seen -/

/-- A key at the end of a list is first seen there, or was seen before. -/
theorem eraseDups_concat (ks : List κ) (k : κ) :
    (ks ++ [k]).eraseDups = if k ∈ ks then ks.eraseDups else ks.eraseDups ++ [k] := by
  rw [List.eraseDups_append]
  by_cases h : k ∈ ks
  · simp [List.removeAll, h]
  · simp [List.removeAll, h, List.eraseDups_cons]

theorem nodup_eraseDups (ks : List κ) : ks.eraseDups.Nodup := by
  induction ks using List.reverseRecOn with
  | nil => simp
  | append_singleton ks k ih =>
    rw [eraseDups_concat]
    split
    · exact ih
    · next h =>
      rw [List.nodup_append]
      refine ⟨ih, List.nodup_singleton k, ?_⟩
      intro a ha b hb hab
      rw [List.mem_singleton] at hb
      exact h (List.mem_eraseDups.mp (hb ▸ hab ▸ ha))

/-- Leaving out some of the keys does not change the order of the others. -/
theorem eraseDups_filter (p : κ → Bool) (ks : List κ) :
    (ks.filter p).eraseDups = ks.eraseDups.filter p := by
  induction ks using List.reverseRecOn with
  | nil => rfl
  | append_singleton ks k ih =>
    rw [List.filter_append, eraseDups_concat]
    by_cases hp : p k = true
    · have hfilter : List.filter p [k] = [k] := by simp [hp]
      rw [hfilter, eraseDups_concat, ih]
      by_cases hk : k ∈ ks
      · simp [hk, hp]
      · simp [hk, hp]
    · by_cases hk : k ∈ ks
      · simp [hk, hp, ih]
      · simp [hk, hp, ih]

/-! ### Groups -/

theorem addToGroup_map (k : κ) (x : α) (ks : List κ) (members : κ → List α)
    (hks : ks.Nodup) (hnew : k ∉ ks → members k = []) :
    addToGroup k x (ks.map fun k' => (k', members k')) =
      (if k ∈ ks then ks else ks ++ [k]).map
        fun k' => (k', members k' ++ if k' = k then [x] else []) := by
  induction ks with
  | nil => simp [addToGroup, hnew]
  | cons k₀ ks ih =>
    rw [List.nodup_cons] at hks
    by_cases h : k₀ = k
    · -- the group is found, and no later one has its key
      subst h
      have hrest : ∀ k' ∈ ks, k' ≠ k₀ := fun k' hk' heq => hks.1 (heq ▸ hk')
      simp only [List.map_cons, addToGroup, if_true, List.mem_cons, true_or]
      congr 1
      apply List.map_congr_left
      intro k' hk'
      simp [hrest k' hk']
    · -- another group, which stays as it is
      have hmem : k ∈ k₀ :: ks ↔ k ∈ ks := by simp [Ne.symm h]
      have hih := ih hks.2 (fun hk => hnew (fun hk' => hk (hmem.mp hk')))
      simp only [List.map_cons, addToGroup, if_neg h, hih]
      by_cases hk : k ∈ ks
      · simp [hk, h]
      · simp [hk, h, Ne.symm h]

/-- **What grouping gives.** The keys in the order in which they are first seen, each with the
elements that have it. -/
theorem groupBy_eq (key : α → κ) (xs : List α) :
    groupBy key xs =
      (xs.map key).eraseDups.map fun k => (k, xs.filter fun x => decide (key x = k)) := by
  induction xs using List.reverseRecOn with
  | nil => rfl
  | append_singleton xs x ih =>
    have hstep : groupBy key (xs ++ [x]) = addToGroup (key x) x (groupBy key xs) := by
      simp [groupBy]
    rw [hstep, ih, addToGroup_map _ _ _ _ (nodup_eraseDups _)]
    · rw [List.map_append, List.map_singleton, eraseDups_concat]
      simp only [List.mem_eraseDups]
      apply List.map_congr_left
      intro k _
      by_cases hk : k = key x
      · simp [hk]
      · simp [hk, Ne.symm hk]
    · intro hx
      rw [List.mem_eraseDups, List.mem_map] at hx
      rw [List.filter_eq_nil_iff]
      intro y hy hkey
      exact hx ⟨y, hy, by simpa using hkey⟩

/-- A group holds its members, and nothing is lost: a property of all elements is one of all members
of all groups. -/
theorem all_groupBy (key : α → κ) (p : α → Bool) (xs : List α) :
    ((groupBy key xs).all fun group => group.2.all p) = xs.all p := by
  rw [groupBy_eq, Bool.eq_iff_iff]
  simp only [List.all_map, List.all_eq_true, Function.comp_apply, List.mem_filter,
    List.mem_eraseDups, List.mem_map, decide_eq_true_eq]
  constructor
  · intro h x hx
    exact h (key x) ⟨x, hx, rfl⟩ x ⟨hx, rfl⟩
  · rintro h k - x ⟨hx, -⟩
    exact h x hx

/-- The members of a group are elements of the list, with the key of the group. -/
theorem mem_of_mem_groupBy {key : α → κ} {xs : List α} {group : κ × List α}
    (hgroup : group ∈ groupBy key xs) {x : α} (hx : x ∈ group.2) : x ∈ xs ∧ key x = group.1 := by
  rw [groupBy_eq, List.mem_map] at hgroup
  obtain ⟨k, -, rfl⟩ := hgroup
  simpa using hx

/-- Leaving out the elements with some keys leaves out their groups. -/
theorem groupBy_filter (key : α → κ) (p : κ → Bool) (xs : List α) :
    groupBy key (xs.filter fun x => p (key x)) =
      (groupBy key xs).filter fun group => p group.1 := by
  have hkeys : (xs.filter fun x => p (key x)).map key = (xs.map key).filter p := by
    rw [List.filter_map]
    rfl
  rw [groupBy_eq, groupBy_eq, hkeys, eraseDups_filter, List.filter_map]
  apply List.map_congr_left
  intro k hk
  have hp : p k = true := (List.mem_filter.mp hk).2
  rw [List.filter_filter]
  refine congrArg (Prod.mk k) (List.filter_congr fun x _ => ?_)
  by_cases hx : key x = k
  · simp [hx, hp]
  · simp [hx]

theorem members_of_mem_groupBy {key : α → κ} {xs : List α} {group : κ × List α}
    (hgroup : group ∈ groupBy key xs) : group.2 = xs.filter fun x => decide (key x = group.1) := by
  rw [groupBy_eq, List.mem_map] at hgroup
  obtain ⟨k, -, rfl⟩ := hgroup
  rfl

theorem groupBy_fst (key : α → κ) (xs : List α) :
    (groupBy key xs).map Prod.fst = (xs.map key).eraseDups := by
  rw [groupBy_eq, List.map_map]
  exact List.map_id _

theorem groupBy_of_forall_eq {key : α → κ} {xs : List α} {k : κ} (hne : xs ≠ [])
    (hkey : ∀ x ∈ xs, key x = k) : groupBy key xs = [(k, xs)] := by
  have hkeys : (xs.map key).eraseDups = [k] := by
    obtain ⟨x, rest, rfl⟩ := List.exists_cons_of_ne_nil hne
    have hrest : (rest.map key).filter (fun b => !b == k) = [] := by
      rw [List.filter_eq_nil_iff]
      intro b hb
      obtain ⟨y, hy, rfl⟩ := List.mem_map.mp hb
      simp [hkey y (List.mem_cons_of_mem x hy)]
    rw [List.map_cons, hkey x List.mem_cons_self, List.eraseDups_cons, hrest, List.eraseDups_nil]
  rw [groupBy_eq, hkeys, List.map_singleton]
  refine congrArg (fun members => [(k, members)]) ?_
  exact List.filter_eq_self.mpr fun x hx => by simpa using hkey x hx

/-- Lists without a common key are grouped one after the other. -/
theorem groupBy_append {key : α → κ} {xs ys : List α} (h : ∀ x ∈ xs, ∀ y ∈ ys, key x ≠ key y) :
    groupBy key (xs ++ ys) = groupBy key xs ++ groupBy key ys := by
  have hkeys : ((xs ++ ys).map key).eraseDups =
      (xs.map key).eraseDups ++ (ys.map key).eraseDups := by
    rw [List.map_append, List.eraseDups_append]
    refine congrArg (fun ks : List κ => (xs.map key).eraseDups ++ ks.eraseDups) ?_
    refine List.filter_eq_self.mpr fun k hk => ?_
    obtain ⟨y, hy, rfl⟩ := List.mem_map.mp hk
    simpa using fun x hx => h x hx y hy
  rw [groupBy_eq, groupBy_eq, groupBy_eq, hkeys, List.map_append]
  refine congrArg₂ (· ++ ·) (List.map_congr_left fun k hk => ?_)
    (List.map_congr_left fun k hk => ?_)
  · obtain ⟨x, hx, rfl⟩ := List.mem_map.mp (List.mem_eraseDups.mp hk)
    have hnone : ys.filter (fun y => decide (key y = key x)) = [] :=
      List.filter_eq_nil_iff.mpr fun y hy => by simpa using (h x hx y hy).symm
    rw [List.filter_append, hnone, List.append_nil]
  · obtain ⟨y, hy, rfl⟩ := List.mem_map.mp (List.mem_eraseDups.mp hk)
    have hnone : xs.filter (fun x => decide (key x = key y)) = [] :=
      List.filter_eq_nil_iff.mpr fun x hx => by simpa using h x hx y hy
    rw [List.filter_append, hnone, List.nil_append]

/-- Groups that are put together again are found again. -/
theorem groupBy_flatMap {key : α → κ} {members : κ → List α} {ks : List κ} (hks : ks.Nodup)
    (hne : ∀ k ∈ ks, members k ≠ []) (hkey : ∀ k ∈ ks, ∀ x ∈ members k, key x = k) :
    groupBy key (ks.flatMap members) = ks.map fun k => (k, members k) := by
  induction ks with
  | nil => rfl
  | cons k ks ih =>
    rw [List.nodup_cons] at hks
    rw [List.forall_mem_cons] at hne hkey
    have hdisjoint : ∀ x ∈ members k, ∀ y ∈ ks.flatMap members, key x ≠ key y := by
      intro x hx y hy
      obtain ⟨k', hk', hy⟩ := List.mem_flatMap.mp hy
      rw [hkey.1 x hx, hkey.2 k' hk' y hy]
      rintro rfl
      exact hks.1 hk'
    rw [List.flatMap_cons, groupBy_append hdisjoint, groupBy_of_forall_eq hne.1 hkey.1,
      ih hks.2 hne.2 hkey.2, List.map_cons, List.singleton_append]

/-- Two lists that are related member by member, keys kept, have groups that are: the keys are the
same, and the members of each group are related. -/
theorem forall₂_groupBy {key : α → κ} {R : α → α → Prop} (hkey : ∀ x y, R x y → key y = key x)
    {xs ys : List α} (h : List.Forall₂ R xs ys) :
    List.Forall₂ (fun group group' => group'.1 = group.1 ∧ List.Forall₂ R group.2 group'.2)
      (groupBy key xs) (groupBy key ys) := by
  have hkeys : ys.map key = xs.map key := by
    induction h with
    | nil => rfl
    | cons hxy _ ih => rw [List.map_cons, List.map_cons, ih, hkey _ _ hxy]
  have hmembers : ∀ k, List.Forall₂ R (xs.filter fun x => decide (key x = k))
      (ys.filter fun y => decide (key y = k)) := by
    intro k
    clear hkeys
    induction h with
    | nil => exact .nil
    | @cons x y xs ys hxy _ ih =>
      by_cases hx : key x = k
      · have hy : key y = k := (hkey x y hxy).trans hx
        simpa [hx, hy] using ⟨hxy, ih⟩
      · have hy : key y ≠ k := fun hy => hx ((hkey x y hxy).symm.trans hy)
        simpa [hx, hy] using ih
  rw [groupBy_eq, groupBy_eq, hkeys, List.forall₂_map_left_iff, List.forall₂_map_right_iff,
    List.forall₂_same]
  intro k _
  exact ⟨rfl, hmembers k⟩

theorem ne_nil_of_mem_groupBy {key : α → κ} {xs : List α} {group : κ × List α}
    (hgroup : group ∈ groupBy key xs) : group.2 ≠ [] := by
  rw [groupBy_eq, List.mem_map] at hgroup
  obtain ⟨k, hk, rfl⟩ := hgroup
  rw [List.mem_eraseDups, List.mem_map] at hk
  obtain ⟨x, hx, rfl⟩ := hk
  exact List.ne_nil_of_mem (List.mem_filter.mpr ⟨hx, by simp⟩)

end FilterAlgebra
