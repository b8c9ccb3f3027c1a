import FilterAlgebra.Text.Basic
import Mathlib.Data.List.Forall2
import Mathlib.Data.List.Perm.Basic

/-!
# Lists of checked results

Compiling a list means compiling its members one after the other and stopping at the first failure.
These lemmas say what such a collected list holds (`mapM_eq_ok_iff`), which failure it ends with
(`failureOf?_mapM`) and when two of them end alike (`EndAlike.mapM`), so that no later proof takes
the collecting apart.
-/

namespace FilterAlgebra

variable {ε α β γ : Type}

theorem bind_eq_ok_iff {x : Except ε α} {k : α → Except ε β} {z : β} :
    (x >>= k) = .ok z ↔ ∃ y, x = .ok y ∧ k y = .ok z := by
  cases x with
  | error e =>
    constructor
    · intro h
      cases h
    · rintro ⟨y, hy, -⟩
      cases hy
  | ok y =>
    constructor
    · exact fun h => ⟨y, rfl, h⟩
    · rintro ⟨y', hy, h⟩
      cases hy
      exact h

theorem bind_eq_error_iff {x : Except ε α} {k : α → Except ε β} {e : ε} :
    (x >>= k) = .error e ↔ x = .error e ∨ ∃ y, x = .ok y ∧ k y = .error e := by
  cases x with
  | error e' => simp [bind, Except.bind]
  | ok y => simp [bind, Except.bind]

theorem map_eq_ok_iff {x : Except ε α} {k : α → β} {z : β} :
    x.map k = .ok z ↔ ∃ y, x = .ok y ∧ k y = z := by
  cases x <;> simp [Except.map]

/-- All members succeed, or the first failure is the result. -/
theorem mapM_cons_eq (f : α → Except ε β) (x : α) (xs : List α) :
    (x :: xs).mapM f = match f x with
      | .ok y => (xs.mapM f).map (y :: ·)
      | .error e => .error e := by
  rw [List.mapM_cons]
  cases f x with
  | error e => rfl
  | ok y => cases xs.mapM f <;> rfl

/-- A collected list holds the results of the members in order. -/
theorem mapM_eq_ok_iff {f : α → Except ε β} {xs : List α} {ys : List β} :
    xs.mapM f = .ok ys ↔ List.Forall₂ (fun x y => f x = .ok y) xs ys := by
  induction xs generalizing ys with
  | nil =>
    rw [List.forall₂_nil_left_iff, List.mapM_nil]
    constructor
    · intro h
      cases h
      rfl
    · rintro rfl
      rfl
  | cons x xs ih =>
    rw [mapM_cons_eq, List.forall₂_cons_left_iff]
    cases hx : f x with
    -- the first member fails, and there is nothing to hold
    | error e => simp
    | ok y =>
      cases hxs : xs.mapM f with
      | error e =>
        -- a later one fails, so no results belong to the others
        simp only [Except.map, reduceCtorEq, Except.ok.injEq, false_iff]
        rintro ⟨y', ys', -, hys, -⟩
        rw [← ih, hxs] at hys
        cases hys
      | ok zs =>
        have hih := ih.mp hxs
        simp only [Except.map, Except.ok.injEq]
        constructor
        · rintro rfl
          exact ⟨y, zs, rfl, hih, rfl⟩
        · rintro ⟨y', ys', rfl, hys, rfl⟩
          rw [← ih, hxs] at hys
          cases hys
          rfl

theorem exists_of_mem_forall₂ {R : α → β → Prop} {xs : List α} {ys : List β}
    (h : List.Forall₂ R xs ys) {y : β} (hy : y ∈ ys) : ∃ x ∈ xs, R x y := by
  induction h with
  | nil => cases hy
  | cons hx _ ih =>
    rcases List.mem_cons.mp hy with rfl | hy
    · exact ⟨_, List.mem_cons_self, hx⟩
    · obtain ⟨x, hmem, hxy⟩ := ih hy
      exact ⟨x, List.mem_cons_of_mem _ hmem, hxy⟩

theorem exists_of_mem_mapM {f : α → Except ε β} {xs : List α} {ys : List β}
    (h : xs.mapM f = .ok ys) {y : β} (hy : y ∈ ys) : ∃ x ∈ xs, f x = .ok y :=
  exists_of_mem_forall₂ (mapM_eq_ok_iff.mp h) hy

theorem all_mapM {f : α → Except ε β} {xs : List α} {ys : List β} (h : xs.mapM f = .ok ys)
    {p : α → Bool} {q : β → Bool} (hpq : ∀ x ∈ xs, ∀ y, f x = .ok y → q y = p x) :
    ys.all q = xs.all p := by
  rw [mapM_eq_ok_iff] at h
  induction h with
  | nil => rfl
  | cons hx _ ih =>
    rw [List.all_cons, List.all_cons, hpq _ List.mem_cons_self _ hx,
      ih fun x hmem => hpq x (List.mem_cons_of_mem _ hmem)]

theorem mapM_filter {f : α → Except ε β} {xs : List α} {ys : List β} (h : xs.mapM f = .ok ys)
    {p : α → Bool} {q : β → Bool} (hpq : ∀ x ∈ xs, ∀ y, f x = .ok y → q y = p x) :
    (xs.filter p).mapM f = .ok (ys.filter q) := by
  rw [mapM_eq_ok_iff] at h
  induction h with
  | nil => rfl
  | @cons x y xs ys hx _ ih =>
    have hrest := ih fun x' hmem => hpq x' (List.mem_cons_of_mem x hmem)
    have hxy := hpq x List.mem_cons_self y hx
    cases hp : p x with
    | true =>
      rw [List.filter_cons_of_pos hp, List.filter_cons_of_pos (hxy.trans hp), mapM_cons_eq, hx,
        hrest]
      rfl
    | false => simp [hp, hxy, hrest]

/-- Members whose results are those of another computation, changed. -/
theorem mapM_map {f : α → Except ε β} {g : α → Except ε γ} {k : β → γ} {xs : List α} {ys : List β}
    (h : xs.mapM f = .ok ys) (hfg : ∀ x ∈ xs, ∀ y, f x = .ok y → g x = .ok (k y)) :
    xs.mapM g = .ok (ys.map k) := by
  rw [mapM_eq_ok_iff] at h
  induction h with
  | nil => rfl
  | @cons x y xs ys hx _ ih =>
    have hrest := ih fun x' hmem => hfg x' (List.mem_cons_of_mem x hmem)
    rw [mapM_cons_eq, hfg x List.mem_cons_self y hx, hrest]
    rfl

theorem map_eq_error_iff {x : Except ε α} {k : α → β} {e : ε} :
    x.map k = .error e ↔ x = .error e := by
  cases x <;> simp [Except.map]

/-- Two computations that fail together on each member fail together on the list. -/
theorem mapM_eq_error_congr {f : α → Except ε β} {g : α → Except ε γ} {xs : List α}
    (h : ∀ x ∈ xs, ∀ e, f x = .error e ↔ g x = .error e) (e : ε) :
    xs.mapM f = .error e ↔ xs.mapM g = .error e := by
  induction xs with
  | nil =>
    rw [List.mapM_nil, List.mapM_nil]
    constructor <;> intro herror <;> cases herror
  | cons x xs ih =>
    have hrest := ih fun x' hmem => h x' (List.mem_cons_of_mem x hmem)
    have hx := h x List.mem_cons_self
    rw [mapM_cons_eq, mapM_cons_eq]
    cases hf : f x with
    | error e' =>
      -- the failure of the first member is that of the list
      rw [(hx e').mp hf]
      simp only [Except.error.injEq]
    | ok y =>
      cases hg : g x with
      | error e' =>
        rw [(hx e').mpr hg] at hf
        cases hf
      | ok z =>
        simp only [map_eq_error_iff, hrest]

theorem mapM_eq_ok_iff_map {f : α → Except ε β} {xs : List α} {ys : List β} :
    xs.mapM f = .ok ys ↔ xs.map f = ys.map .ok := by
  rw [mapM_eq_ok_iff, ← List.forall₂_eq_eq_eq, List.forall₂_map_left_iff,
    List.forall₂_map_right_iff]

/-- The members in another order give the results in another order. -/
theorem perm_of_mapM {f : α → Except ε β} {xs xs' : List α} {ys ys' : List β}
    (hxs : xs.Perm xs') (h : xs.mapM f = .ok ys) (h' : xs'.mapM f = .ok ys') : ys.Perm ys' := by
  rw [mapM_eq_ok_iff_map] at h h'
  have hmap := hxs.map f
  rw [h, h', List.map_perm_map_iff fun _ _ => Except.ok.inj] at hmap
  exact hmap

theorem exists_mapM_eq_ok {f : α → Except ε β} {xs : List α} (h : ∀ x ∈ xs, ∃ y, f x = .ok y) :
    ∃ ys, xs.mapM f = .ok ys := by
  induction xs with
  | nil => exact ⟨[], rfl⟩
  | cons x xs ih =>
    obtain ⟨y, hy⟩ := h x List.mem_cons_self
    obtain ⟨ys, hys⟩ := ih fun x' hx' => h x' (List.mem_cons_of_mem x hx')
    exact ⟨y :: ys, by rw [mapM_cons_eq, hy, hys]; rfl⟩

/-- Lists that are related member by member have related results when related members do. -/
theorem exists_mapM_of_forall₂ {α' β' : Type} {f : α → Except ε β} {g : α' → Except ε β'}
    {R : α → α' → Prop} {S : β → β' → Prop} {xs : List α} {xs' : List α'}
    (h : List.Forall₂ R xs xs')
    (hfg : ∀ x ∈ xs, ∀ x', R x x' → ∃ y y', f x = .ok y ∧ g x' = .ok y' ∧ S y y') :
    ∃ ys ys', xs.mapM f = .ok ys ∧ xs'.mapM g = .ok ys' ∧ List.Forall₂ S ys ys' := by
  induction h with
  | nil => exact ⟨[], [], rfl, rfl, .nil⟩
  | @cons x x' xs xs' hx _ ih =>
    obtain ⟨y, y', hy, hy', hyy⟩ := hfg x List.mem_cons_self x' hx
    obtain ⟨ys, ys', hys, hys', hrest⟩ := ih fun z hz => hfg z (List.mem_cons_of_mem x hz)
    refine ⟨y :: ys, y' :: ys', ?_, ?_, .cons hyy hrest⟩
    · rw [mapM_cons_eq, hy, hys]
      rfl
    · rw [mapM_cons_eq, hy', hys']
      rfl

/-- A list can be collected when all of its members succeed. -/
theorem exists_mapM_eq_ok_iff {f : α → Except ε β} {xs : List α} :
    (∃ ys, xs.mapM f = .ok ys) ↔ ∀ x ∈ xs, ∃ y, f x = .ok y := by
  refine ⟨?_, exists_mapM_eq_ok⟩
  rintro ⟨ys, hys⟩ x hx
  rw [mapM_eq_ok_iff_map] at hys
  have hmem : f x ∈ xs.map f := List.mem_map_of_mem hx
  rw [hys] at hmem
  obtain ⟨y, -, hy⟩ := List.mem_map.mp hmem
  exact ⟨y, hy.symm⟩

theorem mapM_ok (f : α → β) (xs : List α) :
    xs.mapM (fun x => (Except.ok (f x) : Except ε β)) = .ok (xs.map f) := by
  rw [mapM_eq_ok_iff, List.forall₂_map_right_iff, List.forall₂_same]
  exact fun _ _ => rfl

theorem mapM_eq_self {f : α → Except ε α} {xs : List α} (h : ∀ x ∈ xs, f x = .ok x) :
    xs.mapM f = .ok xs := by
  rw [mapM_eq_ok_iff, List.forall₂_same]
  exact h

/-! ### Optional results -/

theorem mapM_append_cons (f : α → Option β) (before after : List α) (x : α) :
    (before ++ x :: after).mapM f =
      (before.mapM f).bind fun ys => (f x).bind fun y => (after.mapM f).bind fun zs =>
        some (ys ++ y :: zs) := by
  rw [List.mapM_append, List.mapM_cons]
  simp [Option.bind_eq_bind, Option.bind_assoc]

/-- A list of optional results has one for each member. -/
theorem forall₂_of_mapM {f : α → Option β} {xs : List α} {ys : List β}
    (h : xs.mapM f = some ys) : List.Forall₂ (fun x y => f x = some y) xs ys := by
  induction xs generalizing ys with
  | nil =>
    cases h
    exact .nil
  | cons x xs ih =>
    rw [List.mapM_cons] at h
    obtain ⟨y, hy, h⟩ := Option.bind_eq_some_iff.mp h
    obtain ⟨rest, hrest, h⟩ := Option.bind_eq_some_iff.mp h
    cases h
    exact .cons hy (ih hrest)

/-! ### Failures -/

/-- The failure of a computation, if it fails. -/
def failureOf? : Except ε α → Option ε
  | .ok _ => none
  | .error e => some e

theorem failureOf?_eq_some_iff {x : Except ε α} {e : ε} : failureOf? x = some e ↔ x = .error e := by
  cases x <;> simp [failureOf?]

theorem failureOf?_map (x : Except ε α) (k : α → β) : failureOf? (x.map k) = failureOf? x := by
  cases x <;> rfl

/-- The failure of a list is that of the first member that fails. -/
theorem failureOf?_mapM (f : α → Except ε β) (xs : List α) :
    failureOf? (xs.mapM f) = xs.findSome? fun x => failureOf? (f x) := by
  induction xs with
  | nil => rfl
  | cons x xs ih =>
    rw [mapM_cons_eq, List.findSome?_cons, ← ih]
    cases f x with
    | error e => rfl
    | ok y => exact failureOf?_map _ _

/-- The failure of a list, by the member that fails first. -/
theorem failureOf?_mapM_eq_find? (f : α → Except ε β) (xs : List α) :
    failureOf? (xs.mapM f) =
      (xs.find? fun x => !(f x).isOk).bind fun x => failureOf? (f x) := by
  rw [failureOf?_mapM]
  induction xs with
  | nil => rfl
  | cons x xs ih =>
    rw [List.findSome?_cons, List.find?_cons, ih]
    cases hx : f x with
    | error e =>
      simp only [failureOf?, Except.isOk, Except.toBool, Bool.not_false, Option.bind_some, hx]
    | ok y => rfl

/-- Where each member can fail in one way only, the first that fails tells how. -/
theorem findSome?_failureOf? {f : α → Except ε β} {cause : α → ε}
    (hcause : ∀ x e, f x = .error e → e = cause x) (xs : List α) :
    (xs.findSome? fun x => failureOf? (f x)) = (xs.find? fun x => !(f x).isOk).map cause := by
  induction xs with
  | nil => rfl
  | cons x xs ih =>
    rw [List.findSome?_cons, List.find?_cons, ih]
    cases hx : f x with
    | error e =>
      rw [hcause x e hx]
      rfl
    | ok y => rfl

/-! ### Computations that end alike -/

/-- Whether two computations both succeed, with related results, or both fail, with related
failures. -/
inductive EndAlike {ε α β : Type} (E : ε → ε → Prop) (S : α → β → Prop) :
    Except ε α → Except ε β → Prop
  | ok {x : α} {y : β} (h : S x y) : EndAlike E S (.ok x) (.ok y)
  | error {e e' : ε} (h : E e e') : EndAlike E S (.error e) (.error e')

namespace EndAlike

variable {α' β' : Type} {E : ε → ε → Prop} {S : α → β → Prop} {S' : α' → β' → Prop}

theorem map {x : Except ε α} {y : Except ε β} (h : EndAlike E S x y) {k : α → α'} {l : β → β'}
    (hkl : ∀ a b, S a b → S' (k a) (l b)) : EndAlike E S' (x.map k) (y.map l) := by
  cases h with
  | ok h => exact .ok (hkl _ _ h)
  | error h => exact .error h

theorem imp {T : α → β → Prop} {x : Except ε α} {y : Except ε β} (h : EndAlike E S x y)
    (hST : ∀ a b, S a b → T a b) : EndAlike E T x y := by
  cases h with
  | ok h => exact .ok (hST _ _ h)
  | error h => exact .error h

/-- Related members end alike, so lists of them do: the first failures are at one place. -/
theorem mapM {R : α' → β' → Prop} {f : α' → Except ε α} {g : β' → Except ε β} {xs : List α'}
    {ys : List β'} (h : List.Forall₂ R xs ys)
    (hfg : ∀ x ∈ xs, ∀ y, R x y → EndAlike E S (f x) (g y)) :
    EndAlike E (List.Forall₂ S) (xs.mapM f) (ys.mapM g) := by
  induction h with
  | nil => exact .ok .nil
  | @cons x y xs ys hxy _ ih =>
    have hrest := ih fun x' hx' => hfg x' (List.mem_cons_of_mem x hx')
    have hfirst := hfg x List.mem_cons_self y hxy
    rw [mapM_cons_eq, mapM_cons_eq]
    generalize f x = result at hfirst
    generalize g y = result' at hfirst
    cases hfirst with
    | error he => exact .error he
    | ok hresult => exact hrest.map fun _ _ hresults => .cons hresult hresults

theorem with_result {x : Except ε α} {y : Except ε β} (h : EndAlike E S x y) {P : α → Prop}
    (hP : ∀ a, x = .ok a → P a) : EndAlike E (fun a b => P a ∧ S a b) x y := by
  cases h with
  | ok h => exact .ok ⟨hP _ rfl, h⟩
  | error h => exact .error h

theorem ok_iff {x y : Except ε α} (h : EndAlike E Eq x y) (z : α) : y = .ok z ↔ x = .ok z := by
  cases h with
  | ok h => rw [h]
  | error _ => constructor <;> intro hz <;> cases hz

theorem eq {x y : Except ε α} (h : EndAlike Eq Eq x y) : y = x := by
  cases h with
  | ok h => rw [h]
  | error h => rw [h]

theorem refl (hE : ∀ e, E e e) {S : α → α → Prop} (hS : ∀ a, S a a) (x : Except ε α) :
    EndAlike E S x x := by
  cases x with
  | ok a => exact .ok (hS a)
  | error e => exact .error (hE e)

end EndAlike

end FilterAlgebra
