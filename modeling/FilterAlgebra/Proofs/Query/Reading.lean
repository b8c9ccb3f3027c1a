import FilterAlgebra.Proofs.Collected
import FilterAlgebra.Proofs.Filter.Truth
import FilterAlgebra.Proofs.Query.Expression
import FilterAlgebra.Query.Build

/-!
# Reading statements

A statement is a tree and its text is read by the grammar of boolean expressions. That a statement
*reads as* a truth value means that its text parses, and that what it parses as has this truth under
every assignment that makes the universal token true. The lemmas follow the shape of statements:
clauses, groups, the values of a filter, a filter, and the filters of a rule, each of which is a
group (`readsAs_group`). They need nothing but that clauses and the universal token are operands.
-/

namespace FilterAlgebra

/-! ### Statements -/

/-- The text of a statement parses as an expression with the given truth. -/
def Statement.ReadsAs (A : AtomClass) (universal : Text) (statement : Statement)
    (truth : (Text → Bool) → Bool) : Prop :=
  ∃ e, Spells A.IsOperand (.whole e) (statement.render universal) ∧
    ∀ holds, holds universal = true → e.eval holds = truth holds

namespace Statement

variable {A : AtomClass} {universal : Text}

theorem readsAs_clause {text : Text} (h : A.IsOperand text) :
    (clause text).ReadsAs A universal fun holds => holds text :=
  ⟨.atom text, .atom h, fun _ _ => rfl⟩

theorem readsAs_all (h : A.IsOperand universal) : all.ReadsAs A universal fun _ => true :=
  ⟨.atom universal, .atom h, fun _ holds => holds⟩

theorem ReadsAs.congr {statement : Statement} {truth truth' : (Text → Bool) → Bool}
    (h : statement.ReadsAs A universal truth) (htruth : ∀ holds, truth holds = truth' holds) :
    statement.ReadsAs A universal truth' := by
  obtain ⟨e, hparse, heval⟩ := h
  exact ⟨e, hparse, fun holds huniversal => (heval holds huniversal).trans (htruth holds)⟩

theorem spells_negatedText {s : Text} {e : Expression} (negated : Bool)
    (h : Spells A.IsOperand (.whole e) s) :
    ∃ e', Spells A.IsOperand (.whole e') (negatedText negated s) ∧
      ∀ holds, e'.eval holds = (negated ^^ e.eval holds) := by
  cases negated with
  | false => exact ⟨e, h, fun holds => (Bool.false_xor _).symm⟩
  | true => exact ⟨.negation e, .negation h, fun holds => (Bool.true_xor _).symm⟩

/-- The members of a group after the first. -/
theorem spells_rest {members : List Statement} {truths : List ((Text → Bool) → Bool)} (op : Op)
    (h : List.Forall₂ (fun m truth => m.ReadsAs A universal truth) members truths)
    (hne : members ≠ []) :
    ∃ e es, Spells A.IsOperand (.rest op (e :: es)) (' ' :: (op.name ++ ' ' ::
        (List.intercalate (' ' :: op.name ++ [' ']) (members.map (render universal)) ++ [')']))) ∧
      ∀ holds, holds universal = true →
        (e :: es).map (Expression.eval holds) = truths.map fun truth => truth holds := by
  induction h with
  | nil => exact absurd rfl hne
  | @cons m truth members truths hm hmembers ih =>
    obtain ⟨e, hparse, heval⟩ := hm
    rcases members with - | ⟨m', members⟩
    · cases hmembers
      refine ⟨e, [], ?_, fun holds huniversal => by simp [heval holds huniversal]⟩
      have hclose : Spells A.IsOperand (.rest op []) [')'] := .close
      simpa using Spells.next hparse hclose
    · obtain ⟨e', es, hrest, hevals⟩ := ih (List.cons_ne_nil m' members)
      refine ⟨e, e' :: es, ?_, fun holds huniversal => ?_⟩
      · simpa [List.intercalate_cons_cons] using Spells.next hparse hrest
      · rw [List.map_cons, heval holds huniversal, hevals holds huniversal, List.map_cons]

/-- **Groups.** An empty group is true, and a negated one is false then; otherwise the truths of the
members are joined. -/
theorem readsAs_group {members : List Statement} {truths : List ((Text → Bool) → Bool)} (op : Op)
    (negated : Bool) (huniversal : A.IsOperand universal)
    (h : List.Forall₂ (fun m truth => m.ReadsAs A universal truth) members truths) :
    (group op negated members).ReadsAs A universal fun holds =>
      negated ^^ (truths.isEmpty || op.join (truths.map fun truth => truth holds)) := by
  have hbody : ∃ e,
      Spells A.IsOperand (.whole e) (joinMembers universal op (renderAll universal members)) ∧
      ∀ holds, holds universal = true →
        e.eval holds = (truths.isEmpty || op.join (truths.map fun truth => truth holds)) := by
    rw [renderAll_eq_map]
    cases h with
    | nil =>
      -- no member, and the universal token takes its place
      exact ⟨.atom universal, .atom huniversal, fun holds htrue => htrue⟩
    | @cons m truth members truths hm hmembers =>
      obtain ⟨e, hparse, heval⟩ := hm
      rcases members with - | ⟨m', members⟩
      · -- a single member stands without parentheses
        cases hmembers
        refine ⟨e, hparse, fun holds htrue => ?_⟩
        cases op <;> simp [Op.join, heval holds htrue]
      · -- several members in parentheses
        obtain ⟨e', es, hrest, hevals⟩ := spells_rest op hmembers (List.cons_ne_nil m' members)
        refine ⟨.joined op (e :: e' :: es), ?_, fun holds htrue => ?_⟩
        · simpa [joinMembers, parenthesized, List.intercalate_cons_cons] using
            Spells.joined hparse hrest
        · rw [Expression.eval, Expression.evalAll_eq_map, List.map_cons, heval holds htrue,
            hevals holds htrue]
          simp
  obtain ⟨e, hparse, heval⟩ := hbody
  obtain ⟨e', hparse', heval'⟩ := spells_negatedText negated hparse
  exact ⟨e', hparse', fun holds htrue => by rw [heval' holds, heval holds htrue]⟩

theorem readsAs_group_map {α : Type} {xs : List α} {member : α → Statement}
    (truth : α → (Text → Bool) → Bool) (op : Op) (negated : Bool)
    (huniversal : A.IsOperand universal)
    (h : ∀ x ∈ xs, (member x).ReadsAs A universal (truth x)) :
    (group op negated (xs.map member)).ReadsAs A universal fun holds =>
      negated ^^ (xs.isEmpty || op.join (xs.map fun x => truth x holds)) := by
  have hreads : List.Forall₂ (fun m truth => m.ReadsAs A universal truth) (xs.map member)
      (xs.map truth) := by
    rw [List.forall₂_map_left_iff, List.forall₂_map_right_iff, List.forall₂_same]
    exact h
  apply (readsAs_group op negated huniversal hreads).congr
  intro holds
  simp [Function.comp_def]

theorem readsAs_group_of_mapM {α ε : Type} {f : α → Except ε Statement} {xs : List α}
    {members : List Statement} (truth : α → (Text → Bool) → Bool) (op : Op) (negated : Bool)
    (huniversal : A.IsOperand universal) (hmembers : xs.mapM f = .ok members)
    (h : ∀ x ∈ xs, ∀ m, f x = .ok m → m.ReadsAs A universal (truth x)) :
    (group op negated members).ReadsAs A universal fun holds =>
      negated ^^ (xs.isEmpty || op.join (xs.map fun x => truth x holds)) := by
  have hreads : List.Forall₂ (fun m truth => m.ReadsAs A universal truth) members
      (xs.map truth) := by
    rw [List.forall₂_map_right_iff]
    have hboth := (List.forall₂_and_left xs members).mpr
      ⟨fun x hx => hx, mapM_eq_ok_iff.mp hmembers⟩
    refine hboth.flip.imp ?_
    rintro m x ⟨hx, hm⟩
    exact h x hx m hm
  apply (readsAs_group op negated huniversal hreads).congr
  intro holds
  simp [Function.comp_def]

end Statement

end FilterAlgebra
