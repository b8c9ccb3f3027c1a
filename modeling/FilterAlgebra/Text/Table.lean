import FilterAlgebra.Text.Basic

/-!
# Tables

Values under keys that are texts, in the order of the keys. A key holds one value at a time.
-/

namespace FilterAlgebra

/-- Entries in the order of their keys, with a key set to a value; a value it had is lost. -/
def putEntry {α : Type} (key : Text) (value : α) : List (Text × α) → List (Text × α)
  | [] => [(key, value)]
  | (k, v) :: entries =>
    if key < k then (key, value) :: (k, v) :: entries
    else if key = k then (key, value) :: entries
    else (k, v) :: putEntry key value entries

theorem lookup_putEntry {α : Type} (key k : Text) (value : α) (entries : List (Text × α)) :
    (putEntry key value entries).lookup k = if k = key then some value else entries.lookup k := by
  induction entries with
  | nil =>
    by_cases h : k = key
    · simp [putEntry, h]
    · simp [putEntry, List.lookup_cons, h, beq_eq_false_iff_ne.2 h]
  | cons entry entries ih =>
    obtain ⟨other, old⟩ := entry
    by_cases h : k = key
    · -- the key itself, whose entry is found or added where it belongs
      subst h
      simp only [putEntry]
      split
      · simp
      · split
        · simp
        · next hne => simp [List.lookup_cons, beq_eq_false_iff_ne.2 hne, ih]
    · -- another key, whose entry only moves
      have hk := beq_eq_false_iff_ne.2 h
      simp only [putEntry]
      split
      · simp [List.lookup_cons, hk]
      · split
        · next heq => subst heq; simp [List.lookup_cons, hk]
        · simp [List.lookup_cons, ih, h]

/-- Values under keys, in the order of the keys. -/
structure Table (α : Type) where
  entries : List (Text × α) := []
  deriving DecidableEq, Repr

namespace Table

variable {α : Type}

/-- The table with a key set to a value. -/
def put (key : Text) (value : α) (t : Table α) : Table α := ⟨putEntry key value t.entries⟩

def get? (t : Table α) (key : Text) : Option α := t.entries.lookup key

/-- The table of a list of entries, of which the last one counts where a key is repeated. -/
def ofList (entries : List (Text × α)) : Table α :=
  entries.foldl (fun t (key, value) => t.put key value) {}

theorem get?_put (t : Table α) (key k : Text) (value : α) :
    (t.put key value).get? k = if k = key then some value else t.get? k :=
  lookup_putEntry key k value t.entries

end Table

end FilterAlgebra
