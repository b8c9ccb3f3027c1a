/-!
# Text

Text is held as its list of characters, so that a rule about text is a rule about lists and every
law of lists applies to it. A string literal stands for its characters. The operations here cut text
at a separator and take off a surrounding pair of characters; joining is `List.intercalate`.
-/

namespace FilterAlgebra

/-- Text is the list of its characters. -/
abbrev Text := List Char

/-- A string literal may be written where text is expected. -/
instance : Coe String Text := ⟨String.toList⟩

namespace Text

/-! ### Cutting at a separator -/

/-- The parts of a text before and after the first occurrence of `sep`, if there is one. -/
def splitOnce? (sep : Text) : Text → Option (Text × Text)
  | [] => if sep = [] then some ([], []) else none
  | c :: rest =>
    if sep.isPrefixOf (c :: rest) then some ([], (c :: rest).drop sep.length)
    else (splitOnce? sep rest).map fun (before, after) => (c :: before, after)

/-- The parts are what is left and right of the separator. -/
theorem append_of_splitOnce? {sep s before after : Text}
    (h : splitOnce? sep s = some (before, after)) : s = before ++ sep ++ after := by
  induction s generalizing before after with
  | nil =>
    simp only [splitOnce?] at h
    split at h
    · next hsep => cases h; simp [hsep]
    · cases h
  | cons c rest ih =>
    simp only [splitOnce?] at h
    split at h
    · next hp =>
      cases h
      obtain ⟨t, ht⟩ := List.isPrefixOf_iff_prefix.1 hp
      simp [← ht]
    · obtain ⟨⟨before', after'⟩, hrest, heq⟩ := Option.map_eq_some_iff.1 h
      cases heq
      rw [ih hrest]
      simp

def contains (s part : Text) : Bool := (splitOnce? part s).isSome

/-- The parts of a text between the occurrences of the character `sep`; always one more than there
are occurrences. -/
def splitOn (sep : Char) : Text → List Text
  | [] => [[]]
  | c :: rest =>
    if c = sep then [] :: splitOn sep rest
    else match splitOn sep rest with
      | [] => [[c]]
      | part :: parts => (c :: part) :: parts

/-- Joined parts are the first part, and each further one behind a separator. -/
theorem intercalate_cons {α : Type} (sep part : List α) (parts : List (List α)) :
    List.intercalate sep (part :: parts) = part ++ parts.flatMap (sep ++ ·) := by
  induction parts generalizing part with
  | nil => rw [List.intercalate_singleton, List.flatMap_nil, List.append_nil]
  | cons next parts ih =>
    rw [List.intercalate_cons_cons, ih next, List.flatMap_cons, List.append_assoc,
      List.append_assoc]

/-! ### Surrounding characters -/

/-- The text after a leading `c`, if it has one. -/
def afterFirst? (c : Char) : Text → Option Text
  | [] => none
  | d :: rest => if d = c then some rest else none

/-- The text before a final `c`, if it has one. -/
def beforeLast? (c : Char) (s : Text) : Option Text :=
  (afterFirst? c s.reverse).map List.reverse

/-- The text inside a leading `left` and a final `right`, which must be two characters. -/
def inside? (left right : Char) (s : Text) : Option Text :=
  (afterFirst? left s).bind (beforeLast? right)

theorem afterFirst?_eq_some_iff {c : Char} {s t : Text} :
    afterFirst? c s = some t ↔ s = c :: t := by
  cases s with
  | nil => simp [afterFirst?]
  | cons d rest => simp [afterFirst?]

theorem beforeLast?_eq_some_iff {c : Char} {s t : Text} :
    beforeLast? c s = some t ↔ s = t ++ [c] := by
  simp only [beforeLast?, Option.map_eq_some_iff, afterFirst?_eq_some_iff]
  constructor
  · rintro ⟨u, hu, rfl⟩
    rw [← List.reverse_reverse s, hu, List.reverse_cons]
  · rintro rfl
    exact ⟨t.reverse, by simp, by simp⟩

theorem inside?_eq_some_iff {left right : Char} {s t : Text} :
    inside? left right s = some t ↔ s = left :: (t ++ [right]) := by
  simp only [inside?, Option.bind_eq_some_iff, afterFirst?_eq_some_iff, beforeLast?_eq_some_iff]
  constructor
  · rintro ⟨u, rfl, rfl⟩
    rfl
  · rintro rfl
    exact ⟨_, rfl, rfl⟩

/-! ### Octets -/

/-- The octets of a text in UTF-8. -/
def toBytes (s : Text) : List UInt8 := s.flatMap String.utf8EncodeChar

/-- The text whose UTF-8 form the octets are, if they are one. -/
def ofBytes? (bytes : List UInt8) : Option Text :=
  (String.fromUTF8? bytes.toByteArray).map String.toList

theorem ofBytes?_toBytes (s : Text) : ofBytes? (toBytes s) = some s := by
  have h : (toBytes s).toByteArray = (String.ofList s).toByteArray := by
    simp [toBytes, List.utf8Encode]
  rw [ofBytes?, h, String.fromUTF8?, dif_pos (String.ofList s).isValidUTF8]
  exact congrArg some String.toList_ofList

end Text

end FilterAlgebra
