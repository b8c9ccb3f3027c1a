import FilterAlgebra.Query.Statement

/-!
# Boolean expressions

The language in which compiled queries are read: an expression is an atom, a negation written
`NOT e`, or a group of at least two members, written in parentheses with `AND` or with `OR` between
them. What an atom is differs with the kind of values, so the grammar has the class of its atoms
(`AtomClass`) as a parameter; all it needs is that the text settles where an atom ends and that no
atom begins like a group.

A keyword may well be an atom of the grammar. So a text can be ambiguous, but none is that spells
some expression with operands, which are the atoms that are no keywords (`Parses.unique`). This
holds because of two spellings that begin the same text, each up to where a member of a group can
end, neither is longer (`Determined`).
-/

namespace FilterAlgebra

/-! ### Expressions and their truth -/

inductive Expression where
  | atom (text : Text)
  | negation (e : Expression)
  | joined (op : Op) (members : List Expression)

/-- The truth of a group from that of its members. -/
def Op.join : Op → List Bool → Bool
  | .and, truths => truths.all id
  | .or, truths => truths.any id

namespace Expression

mutual

/-- The truth of an expression, where `holds` says which atoms are true. -/
def eval (holds : Text → Bool) : Expression → Bool
  | atom text => holds text
  | negation e => !e.eval holds
  | joined op members => op.join (evalAll holds members)

def evalAll (holds : Text → Bool) : List Expression → List Bool
  | [] => []
  | e :: members => e.eval holds :: evalAll holds members

end

theorem evalAll_eq_map (holds : Text → Bool) (members : List Expression) :
    evalAll holds members = members.map (eval holds) := by
  induction members with
  | nil => rfl
  | cons e members ih => rw [evalAll, ih, List.map_cons]

end Expression

/-! ### The grammar -/

/-- The words that are no operands. They belong to the language in which a query is read, so the
grammar has its own list of them, apart from the words that are quoted when a query is written; that
no keyword is left out there is a fact about writing (`isOperatorWord_eq`). -/
def keywords : List Text := ["AND", "OR", "NOT"]

/-- What ends an atom: a blank or a parenthesis. -/
def isDelimiter (c : Char) : Bool := isBlank c || c = '(' || c = ')'

/-- Whether a text is empty or begins with a delimiter, so that an atom may end before it. -/
def Delimited : Text → Prop
  | [] => True
  | c :: _ => isDelimiter c = true

/-- A class of atoms that can be told from each other and from the rest of the grammar. -/
structure AtomClass where
  IsAtom : Text → Prop
  ne_open : ∀ {s r t : Text}, IsAtom s → s ++ r ≠ '(' :: t
  eq_keyword : ∀ {s r word t : Text}, IsAtom s → Delimited r → word ∈ keywords →
    s ++ r = word ++ ' ' :: t → s = word
  eq_of_append : ∀ {s s' r r' : Text}, IsAtom s → IsAtom s' → Delimited r → Delimited r' →
    s ++ r = s' ++ r' → s = s'

/-- An atom that is no keyword. -/
def AtomClass.IsOperand (A : AtomClass) (s : Text) : Prop := A.IsAtom s ∧ s ∉ keywords

/-- What a piece of text spells: a whole expression, or the members that follow the first one of a
group, up to its closing parenthesis. -/
inductive Part where
  | whole (e : Expression)
  | rest (op : Op) (members : List Expression)

inductive Spells (IsAtom : Text → Prop) : Part → Text → Prop where
  | atom {s : Text} : IsAtom s → Spells IsAtom (.whole (.atom s)) s
  | negation {e : Expression} {s : Text} : Spells IsAtom (.whole e) s →
      Spells IsAtom (.whole (.negation e)) ('N' :: 'O' :: 'T' :: ' ' :: s)
  | joined {op : Op} {first second : Expression} {members : List Expression} {s t : Text} :
      Spells IsAtom (.whole first) s → Spells IsAtom (.rest op (second :: members)) t →
      Spells IsAtom (.whole (.joined op (first :: second :: members))) ('(' :: (s ++ t))
  | next {op : Op} {e : Expression} {members : List Expression} {s t : Text} :
      Spells IsAtom (.whole e) s → Spells IsAtom (.rest op members) t →
      Spells IsAtom (.rest op (e :: members)) (' ' :: (op.name ++ ' ' :: (s ++ t)))
  | close {op : Op} : Spells IsAtom (.rest op []) [')']

def Parses (A : AtomClass) (s : Text) (e : Expression) : Prop := Spells A.IsAtom (.whole e) s

/-! ### Where an expression ends -/

/-- Whether a member of a group may end before a text: it is empty, or closes the group, or goes on
with an operator. -/
def Follows (r : Text) : Prop :=
  r = [] ∨ (∃ t, r = ')' :: t) ∨ ∃ (op : Op) (t : Text), r = ' ' :: (op.name ++ ' ' :: t)

theorem Follows.delimited {r : Text} (h : Follows r) : Delimited r := by
  rcases h with rfl | ⟨t, rfl⟩ | ⟨op, t, rfl⟩
  · trivial
  · exact (by decide : isDelimiter ')' = true)
  · exact (by decide : isDelimiter ' ' = true)

theorem Op.name_mem_keywords (op : Op) : op.name ∈ keywords := by
  cases op <;> decide

theorem not_mem_keywords : "NOT".toList ∈ keywords := by
  decide

namespace Spells

variable {IsAtom : Text → Prop} {A : AtomClass}

theorem follows_rest {op : Op} {members : List Expression} {t : Text}
    (h : Spells IsAtom (.rest op members) t) (r : Text) : Follows (t ++ r) := by
  cases h with
  | @next op e members s t => exact .inr (.inr ⟨op, s ++ (t ++ r), by simp⟩)
  | close => exact .inr (.inl ⟨r, rfl⟩)

theorem of_operands {p : Part} {s : Text} (h : Spells A.IsOperand p s) : Spells A.IsAtom p s := by
  induction h with
  | atom hs => exact .atom hs.1
  | negation _ ih => exact .negation ih
  | joined _ _ ihFirst ihRest => exact .joined ihFirst ihRest
  | next _ _ ihFirst ihRest => exact .next ihFirst ihRest
  | close => exact .close

theorem ne_operator {e : Expression} {s r : Text} (h : Spells A.IsOperand (.whole e) s)
    (hr : Follows r) (op : Op) (t : Text) : s ++ r ≠ op.name ++ ' ' :: t := by
  intro heq
  cases h with
  | atom hs =>
    have hkeyword := A.eq_keyword hs.1 hr.delimited op.name_mem_keywords heq
    exact hs.2 (hkeyword ▸ op.name_mem_keywords)
  | negation => cases op <;> simp [Op.name] at heq
  | joined => cases op <;> simp [Op.name] at heq

/-! ### The grammar is unambiguous -/

theorem op_eq_of_append {IsAtom' : Text → Prop} {op op' : Op} {e e' : Expression}
    {members members' : List Expression} {t t' r r' : Text}
    (h : Spells IsAtom (.rest op (e :: members)) t)
    (h' : Spells IsAtom' (.rest op' (e' :: members')) t') (heq : t ++ r = t' ++ r') : op = op' := by
  cases h with
  | next =>
    cases h' with
    | next =>
      cases op with
      | and =>
        cases op' with
        | and => rfl
        | or => simp [Op.name] at heq
      | or =>
        cases op' with
        | and => simp [Op.name] at heq
        | or => rfl

/-- That no other spelling of the same kind begins a text that this one begins. -/
def Determined (A : AtomClass) (s : Text) : Part → Prop
  | .whole e => ∀ {e' : Expression} {s' r r' : Text}, Spells A.IsAtom (.whole e') s' →
      Follows r → Follows r' → s ++ r = s' ++ r' → e = e' ∧ s = s'
  | .rest op members => ∀ {members' : List Expression} {s' r r' : Text},
      Spells A.IsAtom (.rest op members') s' → s ++ r = s' ++ r' → members = members' ∧ s = s'

theorem determined {p : Part} {s : Text} (h : Spells A.IsOperand p s) : Determined A s p := by
  induction h with
  | atom hs =>
    intro e' s' r r' h' hr hr' heq
    cases h' with
    | atom hs' =>
      have hatom := A.eq_of_append hs.1 hs' hr.delimited hr'.delimited heq
      exact ⟨congrArg Expression.atom hatom, hatom⟩
    | negation =>
      have hkeyword := A.eq_keyword hs.1 hr.delimited not_mem_keywords heq
      exact absurd (hkeyword ▸ not_mem_keywords) hs.2
    | joined => exact absurd heq (A.ne_open hs.1)
  | negation h ih =>
    intro e' s' r r' h' hr hr' heq
    cases h' with
    | atom hs' =>
      -- The atom would be the keyword itself, and the operand an operator.
      obtain rfl := A.eq_keyword hs' hr'.delimited not_mem_keywords heq.symm
      have htail := List.append_cancel_left (show "NOT".toList ++ _ = "NOT".toList ++ _ from heq)
      rcases hr' with rfl | ⟨t, rfl⟩ | ⟨op, t, rfl⟩
      · cases htail
      · cases htail
      · exact absurd (List.cons.inj htail).2 (h.ne_operator hr op t)
    | negation h' =>
      simp only [List.cons_append, List.cons.injEq, true_and] at heq
      obtain ⟨he, hs⟩ := ih h' hr hr' heq
      exact ⟨congrArg Expression.negation he, by rw [hs]⟩
    | joined => simp at heq
  | joined _ hrest ihFirst ihRest =>
    intro e' s' r r' h' hr hr' heq
    cases h' with
    | atom hs' => exact absurd heq.symm (A.ne_open hs')
    | negation => simp at heq
    | joined hfirst' hrest' =>
      simp only [List.cons_append, List.append_assoc, List.cons.injEq, true_and] at heq
      obtain ⟨hfirst, hs⟩ := ihFirst hfirst' (hrest.follows_rest r) (hrest'.follows_rest r') heq
      rw [hs] at heq
      have htail := List.append_cancel_left heq
      obtain rfl := op_eq_of_append hrest hrest' htail
      obtain ⟨hmembers, ht⟩ := ihRest hrest' htail
      exact ⟨by rw [hfirst, hmembers], by rw [hs, ht]⟩
  | next _ hrest ihFirst ihRest =>
    intro members' s' r r' h' heq
    cases h' with
    | next hfirst' hrest' =>
      simp only [List.cons_append, List.append_assoc, List.cons.injEq, true_and,
        List.append_cancel_left_eq] at heq
      obtain ⟨hfirst, hs⟩ := ihFirst hfirst' (hrest.follows_rest r) (hrest'.follows_rest r') heq
      rw [hs] at heq
      obtain ⟨hmembers, ht⟩ := ihRest hrest' (List.append_cancel_left heq)
      exact ⟨by rw [hfirst, hmembers], by rw [hs, ht]⟩
    | close => simp at heq
  | close =>
    intro members' s' r r' h' heq
    cases h' with
    | next => simp at heq
    | close => exact ⟨rfl, rfl⟩

end Spells

/-- **The grammar is unambiguous** where it is used with operands. -/
theorem Parses.unique {A : AtomClass} {s : Text} {e e' : Expression}
    (h : Spells A.IsOperand (.whole e) s) (h' : Parses A s e') : e = e' := by
  have hnil : Follows [] := .inl rfl
  exact (Spells.determined h h' hnil hnil rfl).1

end FilterAlgebra
