import FilterAlgebra.Proofs.Json.Scalars

/-!
# JSON is read as it was written

A text spells a value if its tokens are those of the value, with any spaces between them (`Spells`).
Reading gives back what a text spells, in front of everything that may stand behind a value
(`Spells.readValue_append`). Both layouts of a value spell it (`spells_compact`, `spells_indented`),
so a value is read back from either of them.
-/

namespace FilterAlgebra

namespace Json

/-! ### Spelling -/

mutual

/-- The texts of a value of which every integer fits a word, with any spaces inside. -/
inductive Spells : Json → Text → Prop
  | null : Spells .null "null"
  | bool (value : Bool) : Spells (.bool value) (if value then "true" else "false")
  | int {value : Int} (h : fitsSigned value = true ∨ fitsUnsigned value = true) :
      Spells (.int value) (intText value)
  | str (value : Text) : Spells (.str value) (stringText value)
  | noItems {spaces : Text} (h : IsSpaces spaces) : Spells (.arr []) ('[' :: (spaces ++ [']']))
  | arr {items : List Json} {s : Text} (h : SpellsItems items s) : Spells (.arr items) ('[' :: s)
  | noMembers {spaces : Text} (h : IsSpaces spaces) :
      Spells (.obj []) ('\x7b' :: (spaces ++ ['\x7d']))
  | obj {members : List (Text × Json)} {s : Text} (h : SpellsMembers members s) :
      Spells (.obj members) ('\x7b' :: s)

/-- The texts of a value between spaces. -/
inductive SpellsPart : Json → Text → Prop
  | mk {value : Json} {before s after : Text} (hbefore : IsSpaces before) (h : Spells value s)
      (hafter : IsSpaces after) : SpellsPart value (before ++ (s ++ after))

/-- The texts of items, up to the closing bracket. -/
inductive SpellsItems : List Json → Text → Prop
  | last {item : Json} {s : Text} (h : SpellsPart item s) : SpellsItems [item] (s ++ [']'])
  | next {item : Json} {items : List Json} {s t : Text} (h : SpellsPart item s)
      (hitems : SpellsItems items t) : SpellsItems (item :: items) (s ++ ',' :: t)

/-- The texts of members, up to the closing brace. -/
inductive SpellsMembers : List (Text × Json) → Text → Prop
  | last {key : Text} {value : Json} {s t : Text} (hkey : SpellsPart (.str key) s)
      (h : SpellsPart value t) : SpellsMembers [(key, value)] (s ++ ':' :: (t ++ ['\x7d']))
  | next {key : Text} {value : Json} {members : List (Text × Json)} {s t u : Text}
      (hkey : SpellsPart (.str key) s) (h : SpellsPart value t)
      (hmembers : SpellsMembers members u) :
      SpellsMembers ((key, value) :: members) (s ++ ':' :: (t ++ ',' :: u))

end

theorem exists_intText_cons (n : Int) :
    ∃ c t, intText n = c :: t ∧ (c = '-' ∨ c.isDigit = true) := by
  by_cases hneg : n < 0
  · exact ⟨'-', _, by rw [intText, if_pos hneg], .inl rfl⟩
  · obtain ⟨c, t, hct⟩ := List.exists_cons_of_ne_nil (natText_ne_nil n.natAbs)
    exact ⟨c, t, by rw [intText, if_neg hneg, hct],
      .inr (isDigit_of_mem_natText (hct ▸ List.mem_cons_self))⟩

theorem ne_of_startsNumber {c : Char} (h : c = '-' ∨ c.isDigit = true) {d : Char} (hminus : d ≠ '-')
    (hdigit : d.isDigit = false) : c ≠ d := by
  rintro rfl
  rcases h with h | h
  · exact hminus h
  · rw [hdigit] at h
    cases h

/-- A value begins with a character that is no space and does not close a list. -/
theorem Spells.exists_cons {value : Json} {s : Text} (h : Spells value s) :
    ∃ c t, s = c :: t ∧ isSpace c = false ∧ c ≠ ']' := by
  cases h with
  | null => exact ⟨'n', _, rfl, by decide⟩
  | bool value => cases value <;> exact ⟨_, _, rfl, by decide⟩
  | @int value _ =>
    obtain ⟨c, t, hct, hstart⟩ := exists_intText_cons value
    refine ⟨c, t, hct, ?_, ne_of_startsNumber hstart (by decide) (by decide)⟩
    have hspaces : ∀ d ∈ [' ', '\t', '\n', '\r'], c ≠ d := by
      intro d hd
      have hplain : ∀ d ∈ [' ', '\t', '\n', '\r'], d ≠ '-' ∧ d.isDigit = false := by simp
      exact ne_of_startsNumber hstart (hplain d hd).1 (hplain d hd).2
    simpa [isSpace, and_assoc] using hspaces
  | str value => exact ⟨'"', _, rfl, by decide⟩
  | noItems => exact ⟨'[', _, rfl, by decide⟩
  | arr => exact ⟨'[', _, rfl, by decide⟩
  | noMembers => exact ⟨'\x7b', _, rfl, by decide⟩
  | obj => exact ⟨'\x7b', _, rfl, by decide⟩

/-! ### Steps of the readers -/

section Steps

variable {fuel : Nat} {s s' r rest spaces : Text}

theorem readValue_spaces (h : IsSpaces spaces) (s : Text) :
    readValue fuel (spaces ++ s) = readValue fuel s := by
  cases fuel with
  | zero => rfl
  | succ fuel => rw [readValue, readValue, skipSpace_append h]

theorem readMembers_spaces (h : IsSpaces spaces) (s : Text) :
    readMembers fuel (spaces ++ s) = readMembers fuel s := by
  cases fuel with
  | zero => rfl
  | succ fuel => rw [readMembers, readMembers, skipSpace_append h]

theorem readValue_int {n : Int} (hrest : EndsValue rest)
    (hfits : fitsSigned n = true ∨ fitsUnsigned n = true) :
    readValue (fuel + 1) (intText n ++ rest) = (.int n, some rest) := by
  obtain ⟨c, t, hct, hspace, -⟩ := (Spells.int hfits).exists_cons
  obtain ⟨c', t', hct', hstart⟩ := exists_intText_cons n
  obtain ⟨rfl, rfl⟩ := List.cons.inj (hct'.symm.trans hct)
  have hnumber := readNumber_intText hrest hfits
  rw [hct, List.cons_append] at hnumber ⊢
  rw [readValue, skipSpace_cons hspace]
  simp only [if_neg (ne_of_startsNumber hstart (d := '"') (by decide) (by decide)),
    if_neg (ne_of_startsNumber hstart (d := '[') (by decide) (by decide)),
    if_neg (ne_of_startsNumber hstart (d := '\x7b') (by decide) (by decide)), if_pos hstart, hnumber]

theorem readValue_str (text rest : Text) :
    readValue (fuel + 1) (stringText text ++ rest) = (.str text, some rest) := by
  obtain ⟨pieces, hread, hjoin⟩ := readPieces?_escaped text rest
  rw [stringText_append, readValue, skipSpace_cons (by decide)]
  simp only [if_true, hread, hjoin]

theorem readValue_noItems (h : IsSpaces spaces) :
    readValue (fuel + 1) ('[' :: (spaces ++ ']' :: rest)) = (.arr [], some rest) := by
  rw [readValue, skipSpace_cons (by decide)]
  simp only [show ('[' : Char) ≠ '"' by decide, if_false, if_true, skipSpace_append h,
    skipSpace_cons (show isSpace ']' = false by decide)]

theorem readValue_arr {items : List Reading} (hopen : ∃ c t, skipSpace s = c :: t ∧ c ≠ ']')
    (h : readItems fuel s = (items, some rest)) :
    readValue (fuel + 1) ('[' :: s) = (.arr items, some rest) := by
  obtain ⟨c, t, hct, hclose⟩ := hopen
  rw [readValue, skipSpace_cons (by decide)]
  simp only [show ('[' : Char) ≠ '"' by decide, if_false, if_true, hct, h]
  split
  · next hempty => exact absurd (List.cons.inj hempty).1 hclose
  · rfl

theorem readItems_last {item : Reading} (h : readValue fuel s = (item, some r))
    (hr : skipSpace r = ']' :: rest) : readItems (fuel + 1) s = ([item], some rest) := by
  rw [readItems, h]
  simp only [hr]

theorem readItems_next {item : Reading} {items : List Reading}
    (h : readValue fuel s = (item, some r)) (hr : skipSpace r = ',' :: s')
    (hitems : readItems fuel s' = (items, some rest)) :
    readItems (fuel + 1) s = (item :: items, some rest) := by
  rw [readItems, h]
  simp only [hr, hitems]

theorem readValue_noMembers (h : IsSpaces spaces) :
    readValue (fuel + 1) ('\x7b' :: (spaces ++ '\x7d' :: rest)) = (.obj [], some rest) := by
  rw [readValue, skipSpace_cons (by decide)]
  simp only [show ('\x7b' : Char) ≠ '"' by decide, show ('\x7b' : Char) ≠ '[' by decide, if_false,
    if_true, skipSpace_append h, skipSpace_cons (show isSpace '\x7d' = false by decide)]

theorem readValue_obj {object : Reading} (hopen : ∃ t, skipSpace s = '"' :: t)
    (h : readMembers fuel s = (object, some rest)) :
    readValue (fuel + 1) ('\x7b' :: s) = (object, some rest) := by
  obtain ⟨t, ht⟩ := hopen
  rw [readValue, skipSpace_cons (by decide)]
  simp only [show ('\x7b' : Char) ≠ '"' by decide, show ('\x7b' : Char) ≠ '[' by decide, if_false,
    if_true, ht, h]
  rfl

theorem readMember_last {value : Reading} (h : readValue fuel s = (value, some r))
    (hr : skipSpace r = '\x7d' :: rest) :
    readMember (fuel + 1) (':' :: s) = (value, .obj [], some rest) := by
  rw [readMember, h]
  simp only [hr]

theorem readMember_next {value object : Reading} (h : readValue fuel s = (value, some r))
    (hr : skipSpace r = ',' :: s') (hobject : readMembers fuel s' = (object, some rest)) :
    readMember (fuel + 1) (':' :: s) = (value, object, some rest) := by
  rw [readMember, h]
  simp only [hr, hobject]

theorem readMembers_key {key k : Text} {value : Reading} {members : List (Text × Reading)}
    (hkey : SpellsPart (.str key) k)
    (h : readMember fuel (':' :: s) = (value, .obj members, some rest)) :
    readMembers (fuel + 1) (k ++ ':' :: s) = (.obj ((key, value) :: members), some rest) := by
  obtain @⟨_, before, _, after, hbefore, hspells, hafter⟩ := hkey
  cases hspells
  obtain ⟨pieces, hread, hjoin⟩ := readPieces?_escaped key (after ++ ':' :: s)
  rw [List.append_assoc, List.append_assoc, readMembers_spaces hbefore, stringText_append,
    readMembers, skipSpace_cons (by decide)]
  simp only [hread, hjoin, skipSpace_append hafter,
    skipSpace_cons (show isSpace ':' = false by decide), h, Reading.withMember]

end Steps

/-! ### Whole values -/

theorem SpellsPart.exists_cons {value : Json} {s : Text} (h : SpellsPart value s) (rest : Text) :
    ∃ c t, skipSpace (s ++ rest) = c :: t ∧ c ≠ ']' := by
  obtain ⟨hbefore, hspells, -⟩ := h
  obtain ⟨c, t, rfl, hspace, hclose⟩ := hspells.exists_cons
  rw [List.append_assoc, skipSpace_append hbefore, List.cons_append, List.cons_append,
    skipSpace_cons hspace]
  exact ⟨c, _, rfl, hclose⟩

theorem SpellsItems.exists_cons {items : List Json} {s : Text} (h : SpellsItems items s)
    (rest : Text) : ∃ c t, skipSpace (s ++ rest) = c :: t ∧ c ≠ ']' := by
  cases h with
  | last hpart =>
    rw [List.append_assoc]
    exact hpart.exists_cons _
  | next hpart =>
    rw [List.append_assoc]
    exact hpart.exists_cons _

theorem SpellsMembers.exists_cons {members : List (Text × Json)} {s : Text}
    (h : SpellsMembers members s) (rest : Text) : ∃ t, skipSpace (s ++ rest) = '"' :: t := by
  have hkey : ∀ {key k : Text}, SpellsPart (.str key) k → ∀ t, ∃ u, skipSpace (k ++ t) = '"' :: u := by
    intro key k ⟨hbefore, hspells, _⟩ t
    cases hspells
    rw [List.append_assoc, skipSpace_append hbefore, List.append_assoc, stringText_append,
      skipSpace_cons (by decide)]
    exact ⟨_, rfl⟩
  cases h with
  | last hpart =>
    rw [List.append_assoc]
    exact hkey hpart _
  | next hpart =>
    rw [List.append_assoc]
    exact hkey hpart _

theorem SpellsPart.length_pos {value : Json} {s : Text} (h : SpellsPart value s) : 0 < s.length := by
  obtain ⟨-, hspells, -⟩ := h
  obtain ⟨c, t, rfl, -⟩ := hspells.exists_cons
  simp only [List.length_append, List.length_cons]
  omega

mutual

/-- A value is read from a text that spells it, with as much fuel as twice its characters. -/
theorem Spells.readValue_append {value : Json} {s : Text} (h : Spells value s) (fuel : Nat)
    (hfuel : 2 * s.length ≤ fuel) {rest : Text} (hrest : EndsValue rest) :
    readValue fuel (s ++ rest) = (toReading value, some rest) := by
  obtain ⟨c, t, hct, -⟩ := h.exists_cons
  obtain ⟨fuel, rfl⟩ : ∃ n, fuel = n + 1 :=
    ⟨fuel - 1, by rw [hct, List.length_cons] at hfuel; omega⟩
  cases h with
  | null => rfl
  | bool value => cases value <;> rfl
  | int hfits => exact readValue_int hrest hfits
  | str value => exact readValue_str value rest
  | noItems hspaces =>
    rw [List.cons_append, List.append_assoc]
    exact readValue_noItems hspaces
  | arr hitems =>
    -- the bracket pays for the step from the list to its items
    rw [List.length_cons] at hfuel
    exact readValue_arr (hitems.exists_cons rest) (hitems.readItems_append fuel (by omega) rest)
  | noMembers hspaces =>
    rw [List.cons_append, List.append_assoc]
    exact readValue_noMembers hspaces
  | obj hmembers =>
    rw [List.length_cons] at hfuel
    exact readValue_obj (hmembers.exists_cons rest) (hmembers.readMembers_append fuel (by omega) rest)
termination_by (fuel, 0)

/-- Behind a value between spaces nothing but spaces is left in front of the next token. -/
theorem SpellsPart.readValue_append {value : Json} {s : Text} (h : SpellsPart value s) (fuel : Nat)
    (hfuel : 2 * s.length ≤ fuel) {c : Char} (hc : c ∈ endings) (hspace : isSpace c = false)
    (rest : Text) :
    ∃ r, readValue fuel (s ++ c :: rest) = (toReading value, some r) ∧ skipSpace r = c :: rest := by
  obtain @⟨_, before, s, after, hbefore, hspells, hafter⟩ := h
  simp only [List.length_append] at hfuel
  have hends : EndsValue (after ++ c :: rest) := hafter.endsValue (endsValue_cons hc)
  have hread := hspells.readValue_append fuel (by omega) hends
  refine ⟨after ++ c :: rest, ?_, ?_⟩
  · rw [List.append_assoc, readValue_spaces hbefore, List.append_assoc, hread]
  · rw [skipSpace_append hafter, skipSpace_cons hspace]
termination_by (fuel, 1)

theorem SpellsItems.readItems_append {items : List Json} {s : Text} (h : SpellsItems items s)
    (fuel : Nat) (hfuel : 2 * s.length ≤ fuel + 1) (rest : Text) :
    readItems fuel (s ++ rest) = (toReadings items, some rest) := by
  cases h with
  | last hitem =>
    simp only [List.length_append, List.length_singleton] at hfuel
    have hpos := hitem.length_pos
    obtain ⟨fuel, rfl⟩ : ∃ n, fuel = n + 1 := ⟨fuel - 1, by omega⟩
    obtain ⟨r, hread, hr⟩ := hitem.readValue_append fuel (c := ']') (by omega) (by decide)
      (by decide) rest
    rw [List.append_assoc]
    exact readItems_last hread hr
  | next hitem hitems =>
    simp only [List.length_append, List.length_cons] at hfuel
    have hpos := hitem.length_pos
    obtain ⟨fuel, rfl⟩ : ∃ n, fuel = n + 1 := ⟨fuel - 1, by omega⟩
    obtain ⟨r, hread, hr⟩ := hitem.readValue_append fuel (c := ',') (by omega) (by decide)
      (by decide) (_ ++ rest)
    rw [List.append_assoc]
    exact readItems_next hread hr (hitems.readItems_append fuel (by omega) rest)
termination_by (fuel, 0)

theorem SpellsMembers.readMembers_append {members : List (Text × Json)} {s : Text}
    (h : SpellsMembers members s) (fuel : Nat) (hfuel : 2 * s.length ≤ fuel + 1) (rest : Text) :
    readMembers fuel (s ++ rest) = (.obj (memberReadings members), some rest) := by
  cases h with
  | last hkey hvalue =>
    simp only [List.length_append, List.length_cons, List.length_nil] at hfuel
    have hpos := hvalue.length_pos
    obtain ⟨fuel, rfl⟩ : ∃ n, fuel = n + 2 := ⟨fuel - 2, by omega⟩
    obtain ⟨r, hread, hr⟩ := hvalue.readValue_append fuel (c := '\x7d') (by omega)
      (by decide) (by decide) rest
    rw [List.append_assoc, List.cons_append, List.append_assoc]
    exact readMembers_key hkey (readMember_last hread hr)
  | next hkey hvalue hmembers =>
    simp only [List.length_append, List.length_cons] at hfuel
    have hpos := hvalue.length_pos
    obtain ⟨fuel, rfl⟩ : ∃ n, fuel = n + 2 := ⟨fuel - 2, by omega⟩
    obtain ⟨r, hread, hr⟩ := hvalue.readValue_append fuel (c := ',') (by omega)
      (by decide) (by decide) (_ ++ rest)
    rw [List.append_assoc, List.cons_append, List.append_assoc]
    exact readMembers_key hkey
      (readMember_next hread hr (hmembers.readMembers_append fuel (by omega) rest))
termination_by (fuel, 0)

end

/-- **Spelled values.** What a text spells is read from it, and nothing is left of the text. -/
theorem Spells.read_eq {value : Json} {s : Text} (h : Spells value s) :
    read s = (toReading value, true) := by
  have hvalue := h.readValue_append (2 * s.length + 2) (by omega) endsValue_nil
  rw [List.append_nil] at hvalue
  rw [read, hvalue]
  rfl

/-! ### Layouts -/

mutual

/-- Whether a word can hold every integer of a value, with a sign or without one. -/
def HasWords : Json → Prop
  | int value => fitsSigned value = true ∨ fitsUnsigned value = true
  | arr items => HaveWords items
  | obj members => MembersHaveWords members
  | _ => True

def HaveWords : List Json → Prop
  | [] => True
  | item :: items => HasWords item ∧ HaveWords items

def MembersHaveWords : List (Text × Json) → Prop
  | [] => True
  | (_, value) :: members => HasWords value ∧ MembersHaveWords members

end

theorem SpellsPart.of_spells {value : Json} {before s : Text} (hbefore : IsSpaces before)
    (h : Spells value s) : SpellsPart value (before ++ s) := by
  have hpart := SpellsPart.mk hbefore h isSpaces_nil
  rwa [List.append_nil] at hpart

/-- A member with spaces in front of its value. -/
def SpellsMember (member : Text × Json) (part : Text) : Prop :=
  ∃ gap s, IsSpaces gap ∧ Spells member.2 s ∧ part = stringText member.1 ++ ':' :: (gap ++ s)

section Layouts

variable {gap after : Text} (hgap : IsSpaces gap) (hafter : IsSpaces after)

include hgap hafter

theorem spellsItems_intercalate {item : Json} {items : List Json} {parts : List Text}
    (h : List.Forall₂ Spells (item :: items) parts) :
    SpellsItems (item :: items)
      (gap ++ (List.intercalate (',' :: gap) parts ++ (after ++ [']']))) := by
  induction items generalizing item parts with
  | nil =>
    obtain ⟨part, parts, hpart, hparts, rfl⟩ := List.forall₂_cons_left_iff.mp h
    cases hparts
    have hlast := SpellsItems.last (.mk hgap hpart hafter)
    rw [List.intercalate_singleton]
    simpa only [List.append_assoc] using hlast
  | cons next items ih =>
    obtain ⟨part, parts, hpart, hparts, rfl⟩ := List.forall₂_cons_left_iff.mp h
    have hitems := ih hparts
    have hnext := SpellsItems.next (.of_spells hgap hpart) hitems
    obtain ⟨part', parts, -, -, rfl⟩ := List.forall₂_cons_left_iff.mp hparts
    rw [List.intercalate_cons_cons]
    simpa only [List.append_assoc, List.cons_append] using hnext

theorem spellsMembers_intercalate {member : Text × Json} {members : List (Text × Json)}
    {parts : List Text} (h : List.Forall₂ SpellsMember (member :: members) parts) :
    SpellsMembers (member :: members)
      (gap ++ (List.intercalate (',' :: gap) parts ++ (after ++ ['\x7d']))) := by
  induction members generalizing member parts with
  | nil =>
    obtain ⟨_, parts, ⟨colonGap, s, hcolonGap, hvalue, rfl⟩, hparts, rfl⟩ :=
      List.forall₂_cons_left_iff.mp h
    cases hparts
    have hlast := SpellsMembers.last (.of_spells hgap (.str member.1)) (.mk hcolonGap hvalue hafter)
    rw [List.intercalate_singleton]
    simpa only [List.append_assoc, List.cons_append] using hlast
  | cons next members ih =>
    obtain ⟨_, parts, ⟨colonGap, s, hcolonGap, hvalue, rfl⟩, hparts, rfl⟩ :=
      List.forall₂_cons_left_iff.mp h
    have hmembers := ih hparts
    have hnext := SpellsMembers.next (.of_spells hgap (.str member.1))
      (.of_spells hcolonGap hvalue) hmembers
    obtain ⟨part', parts, -, -, rfl⟩ := List.forall₂_cons_left_iff.mp hparts
    rw [List.intercalate_cons_cons]
    simpa only [List.append_assoc, List.cons_append] using hnext

end Layouts

mutual

theorem spells_compact (value : Json) (h : HasWords value) : Spells value (compact value) := by
  match value with
  | .null => exact .null
  | .bool value => exact .bool value
  | .int value => exact .int h
  | .str value => exact .str value
  | .arr [] => exact .noItems isSpaces_nil
  | .arr (item :: items) =>
    exact .arr (spellsItems_intercalate isSpaces_nil isSpaces_nil (spells_compactItems _ h))
  | .obj [] => exact .noMembers isSpaces_nil
  | .obj (member :: members) =>
    exact .obj (spellsMembers_intercalate isSpaces_nil isSpaces_nil (spells_compactMembers _ h))

theorem spells_compactItems (items : List Json) (h : HaveWords items) :
    List.Forall₂ Spells items (compactItems items) := by
  match items with
  | [] => exact .nil
  | item :: items => exact .cons (spells_compact item h.1) (spells_compactItems items h.2)

theorem spells_compactMembers (members : List (Text × Json)) (h : MembersHaveWords members) :
    List.Forall₂ SpellsMember members (compactMembers members) := by
  match members with
  | [] => exact .nil
  | (key, value) :: members =>
    exact .cons ⟨[], _, isSpaces_nil, spells_compact value h.1, rfl⟩
      (spells_compactMembers members h.2)

end

theorem isSpaces_lineBreak (level : Nat) : IsSpaces (lineBreak level) := by
  intro c hc
  rcases List.mem_cons.mp hc with rfl | hc
  · rfl
  · rw [List.eq_of_mem_replicate hc]
    rfl

theorem block_eq {left right : Char} {level : Nat} {parts : List Text} (h : parts ≠ []) :
    block left right level parts =
      left :: (lineBreak (level + 1) ++ (List.intercalate (',' :: lineBreak (level + 1)) parts ++
        (lineBreak level ++ [right]))) := by
  rw [block, if_neg h]
  simp only [List.cons_append, List.append_assoc]

mutual

theorem spells_indented (level : Nat) (value : Json) (h : HasWords value) :
    Spells value (indented level value) := by
  match value with
  | .null => exact .null
  | .bool value => exact .bool value
  | .int value => exact .int h
  | .str value => exact .str value
  | .arr [] => exact .noItems isSpaces_nil
  | .arr (item :: items) =>
    have hitems := spells_indentedItems (level + 1) (item :: items) h
    rw [indented, block_eq (by simp [indentedItems])]
    exact .arr (spellsItems_intercalate (isSpaces_lineBreak _) (isSpaces_lineBreak _) hitems)
  | .obj [] => exact .noMembers isSpaces_nil
  | .obj ((key, value) :: members) =>
    have hmembers := spells_indentedMembers (level + 1) ((key, value) :: members) h
    rw [indented, block_eq (by simp [indentedMembers])]
    exact .obj (spellsMembers_intercalate (isSpaces_lineBreak _) (isSpaces_lineBreak _) hmembers)

theorem spells_indentedItems (level : Nat) (items : List Json) (h : HaveWords items) :
    List.Forall₂ Spells items (indentedItems level items) := by
  match items with
  | [] => exact .nil
  | item :: items =>
    exact .cons (spells_indented level item h.1) (spells_indentedItems level items h.2)

theorem spells_indentedMembers (level : Nat) (members : List (Text × Json))
    (h : MembersHaveWords members) :
    List.Forall₂ SpellsMember members (indentedMembers level members) := by
  match members with
  | [] => exact .nil
  | (key, value) :: members =>
    refine .cons ⟨[' '], _, ?_, spells_indented level value h.1, ?_⟩
      (spells_indentedMembers level members h.2)
    · exact List.forall_mem_singleton.mpr rfl
    · rw [List.append_assoc]
      rfl

end

end Json

end FilterAlgebra
