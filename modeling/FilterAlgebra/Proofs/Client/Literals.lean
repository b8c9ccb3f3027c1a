import FilterAlgebra.Client.Call
import FilterAlgebra.Proofs.Query.Scanning
import Mathlib.Data.List.Forall2

/-!
# Where literals end

A literal of the client language tells its value and where it ends, whatever is written after it: a
string by its quotes, in which every quote of the value is escaped, a date range by its two strings,
and a list by its brackets, as long as its members tell where they end. So two texts that begin with
literals are equal only if the literals are (`literal_append_inj`), and the text of a call can be
taken apart from left to right.
-/

namespace FilterAlgebra

/-! ### Strings -/

/-- The character that stands for a letter behind a backslash. -/
def escapeMeaning (c : Char) : Char :=
  if c = 'n' then '\n' else if c = 't' then '\t' else c

/-- A character stands for itself in a literal, or behind a backslash that tells which it is. -/
theorem literalChar_cases (c : Char) :
    (literalChar c = [c] ∧ c ≠ '"' ∧ c ≠ '\\') ∨
      ∃ e, literalChar c = ['\\', e] ∧ escapeMeaning e = c := by
  by_cases hquote : c = '"'
  · rw [hquote]
    exact .inr ⟨'"', rfl, rfl⟩
  by_cases hbackslash : c = '\\'
  · rw [hbackslash]
    exact .inr ⟨'\\', rfl, rfl⟩
  by_cases hline : c = '\n'
  · rw [hline]
    exact .inr ⟨'n', rfl, rfl⟩
  by_cases htab : c = '\t'
  · rw [htab]
    exact .inr ⟨'t', rfl, rfl⟩
  refine .inl ⟨?_, hquote, hbackslash⟩
  rw [literalChar, if_neg hquote, if_neg hbackslash, if_neg hline, if_neg htab]

theorem eq_of_literalChar_append {c c' : Char} {s s' : Text}
    (h : literalChar c ++ s = literalChar c' ++ s') : c = c' := by
  rcases literalChar_cases c with ⟨hc, -, hplain⟩ | ⟨e, hc, hmeaning⟩
  · rcases literalChar_cases c' with ⟨hc', -, -⟩ | ⟨e', hc', -⟩
    · rw [hc, hc'] at h
      exact (List.cons.inj h).1
    · rw [hc, hc'] at h
      exact absurd (List.cons.inj h).1 hplain
  · rcases literalChar_cases c' with ⟨hc', -, hplain'⟩ | ⟨e', hc', hmeaning'⟩
    · rw [hc, hc'] at h
      exact absurd (List.cons.inj h).1.symm hplain'
    · rw [hc, hc'] at h
      have he := (List.cons.inj (List.cons.inj h).2).1
      rw [← hmeaning, ← hmeaning', he]

/-- The closing quote is the first character that begins no code. -/
theorem literalChar_append_ne (c : Char) (s r : Text) : literalChar c ++ s ≠ '"' :: r := by
  intro h
  rcases literalChar_cases c with ⟨hc, hplain, -⟩ | ⟨e, hc, -⟩
  · rw [hc] at h
    exact hplain (List.cons.inj h).1
  · rw [hc] at h
    cases (List.cons.inj h).1

theorem flatMap_literalChar_inj {s s' r r' : Text}
    (h : s.flatMap literalChar ++ '"' :: r = s'.flatMap literalChar ++ '"' :: r') :
    s = s' ∧ r = r' := by
  induction s generalizing s' with
  | nil =>
    rcases s' with - | ⟨c', s'⟩
    · exact ⟨rfl, (List.cons.inj h).2⟩
    · rw [List.flatMap_cons, List.append_assoc] at h
      exact absurd h.symm (literalChar_append_ne c' _ r)
  | cons c s ih =>
    rcases s' with - | ⟨c', s'⟩
    · rw [List.flatMap_cons, List.append_assoc] at h
      exact absurd h (literalChar_append_ne c _ r')
    · rw [List.flatMap_cons, List.flatMap_cons, List.append_assoc, List.append_assoc] at h
      obtain rfl := eq_of_literalChar_append h
      obtain ⟨rfl, hr⟩ := ih (List.append_cancel_left h)
      exact ⟨rfl, hr⟩

theorem stringLiteral_append (s r : Text) :
    stringLiteral s ++ r = '"' :: (s.flatMap literalChar ++ '"' :: r) := by
  rw [stringLiteral, List.cons_append, List.append_assoc]
  rfl

theorem stringLiteral_append_inj {s s' r r' : Text}
    (h : stringLiteral s ++ r = stringLiteral s' ++ r') : s = s' ∧ r = r' := by
  rw [stringLiteral_append, stringLiteral_append] at h
  exact flatMap_literalChar_inj (List.cons.inj h).2

/-! ### Values -/

/-- The literal of a date range. -/
def datesLiteral (low high : Text) : Text :=
  "DateRange(" ++ stringLiteral low ++ ", " ++ stringLiteral high ++ ")"

theorem datesLiteral_append (low high r : Text) :
    datesLiteral low high ++ r =
      'D' :: ("ateRange(".toList ++
        (stringLiteral low ++ (", ".toList ++ (stringLiteral high ++ ')' :: r)))) := by
  unfold datesLiteral
  simp

/-- A value as a call shows it: a text, or the two bounds of a date range. -/
inductive ShownValue where
  | text (value : Text)
  | dates (low high : Text)
  deriving DecidableEq, Repr

namespace ShownValue

def literal : ShownValue → Text
  | text value => stringLiteral value
  | dates low high => datesLiteral low high

theorem literal_append_inj {v v' : ShownValue} {r r' : Text}
    (h : v.literal ++ r = v'.literal ++ r') : v = v' ∧ r = r' := by
  cases v with
  | text value =>
    cases v' with
    | text value' =>
      obtain ⟨rfl, hr⟩ := stringLiteral_append_inj h
      exact ⟨rfl, hr⟩
    | dates low' high' =>
      -- a quote is no letter
      rw [literal, literal, stringLiteral_append, datesLiteral_append] at h
      cases (List.cons.inj h).1
  | dates low high =>
    cases v' with
    | text value' =>
      rw [literal, literal, stringLiteral_append, datesLiteral_append] at h
      cases (List.cons.inj h).1
    | dates low' high' =>
      -- the two strings end one after the other, then the parenthesis
      rw [literal, literal, datesLiteral_append, datesLiteral_append] at h
      obtain ⟨rfl, hhigh⟩ :=
        stringLiteral_append_inj (List.append_cancel_left (List.cons.inj h).2)
      obtain ⟨rfl, hclose⟩ := stringLiteral_append_inj (List.append_cancel_left hhigh)
      exact ⟨rfl, (List.cons.inj hclose).2⟩

end ShownValue

/-! ### Lists -/

/-- A list between separators tells its members and where it ends, if its members do and what ends
the list is no separator. -/
theorem forall₂_of_intercalate {α : Type} {text : α → Text} {R : α → α → Prop} {xs ys : List α}
    {sep r r' : Text} {c : Char} (hxs : xs ≠ []) (hys : ys ≠ [])
    (hmembers : ∀ x ∈ xs, ∀ y ∈ ys, ∀ r r', text x ++ r = text y ++ r' → R x y ∧ r = r')
    (hsep : ∀ s t, sep ++ s ≠ c :: t)
    (h : List.intercalate sep (xs.map text) ++ c :: r =
      List.intercalate sep (ys.map text) ++ c :: r') :
    List.Forall₂ R xs ys ∧ r = r' := by
  induction xs generalizing ys with
  | nil => exact absurd rfl hxs
  | cons x xs ih =>
    obtain ⟨y, ys, rfl⟩ := List.exists_cons_of_ne_nil hys
    have hfirst := hmembers x List.mem_cons_self y List.mem_cons_self
    rcases xs with - | ⟨x', xs⟩
    · rcases ys with - | ⟨y', ys⟩
      · -- one member each
        simp only [List.map_cons, List.map_nil, List.intercalate_singleton] at h
        obtain ⟨hxy, hr⟩ := hfirst _ _ h
        exact ⟨.cons hxy .nil, (List.cons.inj hr).2⟩
      · simp only [List.map_cons, List.map_nil, List.intercalate_singleton,
          List.intercalate_cons_cons, List.append_assoc] at h
        -- where one list goes on, the other would have to go on with a separator
        exact absurd (hfirst _ _ h).2.symm (hsep _ _)
    · rcases ys with - | ⟨y', ys⟩
      · simp only [List.map_cons, List.map_nil, List.intercalate_singleton,
          List.intercalate_cons_cons, List.append_assoc] at h
        exact absurd (hfirst _ _ h).2 (hsep _ _)
      · -- more members on both sides
        simp only [List.map_cons, List.intercalate_cons_cons, List.append_assoc] at h
        obtain ⟨hxy, hrest⟩ := hfirst _ _ h
        have hmembers' : ∀ a ∈ x' :: xs, ∀ b ∈ y' :: ys, ∀ r r',
            text a ++ r = text b ++ r' → R a b ∧ r = r' := by
          intro a ha b hb
          exact hmembers a (List.mem_cons_of_mem x ha) b (List.mem_cons_of_mem y hb)
        obtain ⟨hall, hr⟩ := ih (List.cons_ne_nil x' xs) (List.cons_ne_nil y' ys) hmembers'
          (List.append_cancel_left hrest)
        exact ⟨.cons hxy hall, hr⟩

theorem literals_append_inj {vs vs' : List ShownValue} {r r' : Text} (hvs : vs ≠ [])
    (hvs' : vs' ≠ [])
    (h : List.intercalate ", " (vs.map ShownValue.literal) ++ ']' :: r =
      List.intercalate ", " (vs'.map ShownValue.literal) ++ ']' :: r') : vs = vs' ∧ r = r' := by
  have hsep : ∀ s t : Text, ", ".toList ++ s ≠ ']' :: t := by
    intro s t hst
    cases (List.cons.inj hst).1
  obtain ⟨hall, hr⟩ := forall₂_of_intercalate hvs hvs'
    (fun _ _ _ _ _ _ => ShownValue.literal_append_inj) hsep h
  exact ⟨List.forall₂_eq_eq_eq ▸ hall, hr⟩

end FilterAlgebra
