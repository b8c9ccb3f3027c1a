import FilterAlgebra.Query.Request
import Mathlib.Data.Char
import Mathlib.Data.List.Induction
import Mathlib.Data.List.Lex

/-!
# Steps of a request

A request is built in steps: a page, an order, a ranking. Each step sets its own part and nothing
else (`apply_eq`), so after any run of steps each part is what the last step for it says (`run_eq`),
and steps for different parts may change places (`apply_comm`). A ranking without items is no step
at all.
-/

namespace FilterAlgebra

/-! ### Keys set twice -/

section Table

variable {α : Type} {key key' : Text} {value value' : α}

theorem putEntry_putEntry (entries : List (Text × α)) :
    putEntry key value' (putEntry key value entries) = putEntry key value' entries := by
  induction entries with
  | nil => simp [putEntry]
  | cons entry entries ih =>
    obtain ⟨k, v⟩ := entry
    rcases lt_trichotomy key k with hlt | rfl | hgt
    · simp [putEntry, hlt]
    · simp [putEntry]
    · simp [putEntry, hgt.not_gt, hgt.ne', ih]

theorem putEntry_comm (hlt : key < key') (entries : List (Text × α)) :
    putEntry key value (putEntry key' value' entries) =
      putEntry key' value' (putEntry key value entries) := by
  induction entries with
  | nil => simp [putEntry, hlt, hlt.not_gt, hlt.ne']
  | cons entry entries ih =>
    obtain ⟨k, v⟩ := entry
    rcases lt_trichotomy key' k with hk' | rfl | hk'
    · have hk := hlt.trans hk'
      simp [putEntry, hlt, hlt.not_gt, hlt.ne', hk, hk']
    · simp [putEntry, hlt, hlt.not_gt, hlt.ne']
    · rcases lt_trichotomy key k with hk | rfl | hk
      · simp [putEntry, hlt.not_gt, hlt.ne', hk, hk'.not_gt, hk'.ne']
      · simp [putEntry, hlt.not_gt, hlt.ne']
      · simp [putEntry, hk.not_gt, hk.ne', hk'.not_gt, hk'.ne', ih]

namespace Table

theorem put_put (t : Table α) : (t.put key value).put key value' = t.put key value' :=
  congrArg mk (putEntry_putEntry t.entries)

theorem put_comm (hlt : key < key') (t : Table α) :
    (t.put key' value').put key value = (t.put key value).put key' value' :=
  congrArg mk (putEntry_comm hlt t.entries)

end Table

end Table

/-! ### Steps -/

/-- A step by which a request is built. -/
inductive RequestStep where
  | page (limit offset : Nat)
  | sort (sort : Text)
  | relevance (items : List RelevanceItem)

namespace RequestStep

/-- The part of a request that a step is for. -/
inductive Kind where
  | page
  | sort
  | relevance
  deriving DecidableEq

def kind : RequestStep → Kind
  | page .. => .page
  | sort _ => .sort
  | relevance _ => .relevance

/-- The limit and the offset that a step sets. -/
def page? : RequestStep → Option (Nat × Nat)
  | page limit offset => some (limit, offset)
  | _ => none

/-- The order that a step sets. -/
def sort? : RequestStep → Option Text
  | sort order => some order
  | _ => none

/-- The items that a step ranks by, if there are any. -/
def items? : RequestStep → Option (List RelevanceItem)
  | relevance (item :: items) => some (item :: items)
  | _ => none

def apply : RequestStep → SearchRequest → SearchRequest
  | page limit offset, r => r.withPage limit offset
  | sort order, r => r.withSort order
  | relevance items, r => r.withRelevance items

/-- The request after steps in order. -/
def run (steps : List RequestStep) (r : SearchRequest) : SearchRequest :=
  steps.foldl (fun r step => step.apply r) r

/-- What the last of the steps that say something says. -/
def last? {α : Type} (part? : RequestStep → Option α) (steps : List RequestStep) : Option α :=
  (steps.filterMap part?).getLast?

theorem last?_append_singleton {α : Type} (part? : RequestStep → Option α)
    (steps : List RequestStep) (step : RequestStep) :
    last? part? (steps ++ [step]) = (part? step).or (last? part? steps) := by
  cases h : part? step with
  | none => simp [last?, h]
  | some x => simp [last?, h]

theorem run_append (steps others : List RequestStep) (r : SearchRequest) :
    run (steps ++ others) r = run others (run steps r) :=
  List.foldl_append

theorem run_append_singleton (steps : List RequestStep) (step : RequestStep) (r : SearchRequest) :
    run (steps ++ [step]) r = step.apply (run steps r) :=
  run_append steps [step] r

/-! ### What one step sets -/

/-- The parameters with those of a ranking by items, if there are items. -/
def ranked (items : Option (List RelevanceItem)) (params : Table Text) : Table Text :=
  match items with
  | none => params
  | some items =>
    (params.put "rq" SearchRequest.rerankParameter).put "rqq"
      ("\x7b!func\x7d" ++ (combinedFormula? items).getD [])

/-- Of two rankings the later one counts. -/
theorem ranked_ranked (items items' : Option (List RelevanceItem)) (params : Table Text) :
    ranked items' (ranked items params) = ranked (items'.or items) params := by
  have hlt : ("rq" : Text) < "rqq" := by decide
  cases items' with
  | none => rfl
  | some items' =>
    cases items with
    | none => rfl
    | some items =>
      simp only [ranked, Option.some_or]
      rw [Table.put_comm hlt, Table.put_put, Table.put_put]

/-- A step in full: it sets the part it is for, and leaves the others. -/
theorem apply_eq (step : RequestStep) (r : SearchRequest) :
    step.apply r =
      { r with
        limit := (step.page?.getD (r.limit, r.offset)).1
        offset := (step.page?.getD (r.limit, r.offset)).2
        sort := step.sort?.or r.sort
        params := ranked step.items? r.params } := by
  cases step with
  | page limit offset => rfl
  | sort order => rfl
  | relevance items => cases items <;> rfl

/-- Steps for different parts may be taken in either order. -/
theorem apply_comm {step step' : RequestStep} (h : step.kind ≠ step'.kind) (r : SearchRequest) :
    step'.apply (step.apply r) = step.apply (step'.apply r) := by
  rw [apply_eq, apply_eq, apply_eq, apply_eq]
  cases step <;> cases step' <;> first | exact absurd rfl h | rfl

/-! ### What a run sets -/

/-- A run in full: each part is what the last step for it says. -/
theorem run_eq (steps : List RequestStep) (r : SearchRequest) :
    run steps r =
      { r with
        limit := ((last? page? steps).getD (r.limit, r.offset)).1
        offset := ((last? page? steps).getD (r.limit, r.offset)).2
        sort := (last? sort? steps).or r.sort
        params := ranked (last? items? steps) r.params } := by
  induction steps using List.reverseRecOn with
  | nil => rfl
  | append_singleton steps step ih =>
    simp only [run_append_singleton, last?_append_singleton, apply_eq, ih, Option.getD_or,
      Option.or_assoc, ranked_ranked]

/-- The items of the last ranking are there. -/
theorem exists_of_last?_items? {steps : List RequestStep} {items : List RelevanceItem}
    (h : last? items? steps = some items) :
    ∃ item rest, items = item :: rest := by
  obtain ⟨step, -, hstep⟩ := List.mem_filterMap.mp (List.mem_of_getLast? h)
  cases step with
  | relevance found =>
    cases found with
    | nil => cases hstep
    | cons item rest =>
      cases hstep
      exact ⟨item, rest, rfl⟩
  | _ => cases hstep

/-- **Steps of a request touch their own parts only**, whatever it is at the start and in whatever
order they come. After any run the queries and all other parameters are those of the start, and
each remaining part is what the last step for it says, or that of the start if there is none. Steps
for different parts may change places anywhere in a run, and rankings without items may be left
out. -/
theorem run_touchesOwnParts (steps : List RequestStep) (r : SearchRequest) :
    ((run steps r).query = r.query ∧ (run steps r).filter = r.filter) ∧
    ((run steps r).limit, (run steps r).offset) =
      (last? page? steps).getD (r.limit, r.offset) ∧
    (run steps r).sort = (last? sort? steps).or r.sort ∧
    (∀ key, key ≠ "rq".toList → key ≠ "rqq".toList →
      (run steps r).params.get? key = r.params.get? key) ∧
    (last? items? steps = none → (run steps r).params = r.params) ∧
    (∀ items, last? items? steps = some items → ∃ formula, combinedFormula? items = some formula ∧
      (run steps r).params.get? "rq" = some SearchRequest.rerankParameter ∧
      (run steps r).params.get? "rqq" = some ("\x7b!func\x7d" ++ formula)) ∧
    (∀ before step step' after, step.kind ≠ step'.kind →
      run (before ++ step :: step' :: after) r = run (before ++ step' :: step :: after) r) ∧
    ∀ before after, run (before ++ relevance [] :: after) r = run (before ++ after) r := by
  refine ⟨?_, ?_, ?_, ?_, ?_, ?_, ?_, ?_⟩
  · rw [run_eq]
    exact ⟨rfl, rfl⟩
  · rw [run_eq]
  · rw [run_eq]
  · intro key hrq hrqq
    rw [run_eq]
    -- a ranking is stored under two keys, and this is another one
    cases last? items? steps with
    | none => rfl
    | some items => simp only [ranked, Table.get?_put, if_neg hrq, if_neg hrqq]
  · intro hnone
    rw [run_eq, hnone, ranked]
  · intro items hitems
    -- the last ranking has items, so there is a formula for it
    obtain ⟨item, rest, rfl⟩ := exists_of_last?_items? hitems
    rw [run_eq, hitems]
    refine ⟨_, rfl, ?_, ?_⟩
    · have hne : ("rq" : Text) ≠ "rqq" := by decide
      simp only [ranked, Table.get?_put, if_neg hne, if_pos]
    · simp only [ranked, Table.get?_put, if_pos]
      rfl
  · intro before step step' after hkind
    rw [run_append, run_append]
    -- only the two steps themselves have to change places
    exact congrArg (run after) (apply_comm hkind _)
  · intro before after
    rw [run_append, run_append]
    rfl

/-- Two pages, an order and two rankings, the second without items, over parameters of which one is
set anew. -/
theorem run_touchesOwnParts_newRanking :
    let ranking : List RelevanceItem :=
      [{ kind := .topics [⟨"tm-7", .ofInt 2⟩], weight := .ofInt 1 }]
    let start : SearchRequest :=
      { query := "*:*", filter := ["meta_journal_s:GDL"], limit := 10, offset := 0,
        params := .ofList [("rq", "old"), ("fl", "id")] }
    let final := run [.page 5 10, .relevance ranking, .sort "score desc", .relevance [],
      .page 20 40] start
    final.query = "*:*" ∧ final.filter = ["meta_journal_s:GDL"] ∧
      (final.limit, final.offset) = (20, 40) ∧ final.sort = some "score desc" ∧
      final.params.get? "fl" = some "id" ∧
      final.params.get? "rq" = some SearchRequest.rerankParameter ∧
      final.params.get? "rqq" =
        some "\x7b!func\x7dmul(mul(payload(topics_dpfs,'tm-7'),2.0),1.0)" := by
  intro ranking start final
  obtain ⟨⟨hquery, hfilter⟩, hpage, hsort, hother, -, hranked, -⟩ :=
    run_touchesOwnParts [.page 5 10, .relevance ranking, .sort "score desc", .relevance [],
      .page 20 40] start
  obtain ⟨formula, hformula, hrq, hrqq⟩ := hranked ranking rfl
  have hsum : combinedFormula? ranking = some "mul(mul(payload(topics_dpfs,'tm-7'),2.0),1.0)" := by
    decide +kernel
  obtain rfl : formula = "mul(mul(payload(topics_dpfs,'tm-7'),2.0),1.0)".toList :=
    Option.some.inj (hformula.symm.trans hsum)
  exact ⟨hquery, hfilter, hpage, hsort, hother "fl" (by decide) (by decide), hrq, hrqq⟩

end RequestStep

end FilterAlgebra
