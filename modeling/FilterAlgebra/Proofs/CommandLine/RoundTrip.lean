import FilterAlgebra.CommandLine.Run
import FilterAlgebra.Proofs.Filter.CanonicalText
import FilterAlgebra.Proofs.Wire.DecodedFilters
import FilterAlgebra.Proofs.Wire.RoundTrip

/-!
# Encoding and decoding on the command line

What the one command prints is an argument for the other. An argument stands for itself unless it
begins with a hyphen, which makes it an option or the standard input, or with an at sign, which
makes it the name of a file. The alphabet of wire texts has the hyphen, but no wire text begins with
it: its first symbol comes from the head of a list (`isLiteral_encodeFilters`). Texts that are read
as filters begin with neither sign, since no list does (`isLiteral_of_decodeDocument`).
-/

namespace FilterAlgebra

open Json

/-! ### Arguments that stand for themselves -/

/-- Whether an argument is no option and stands neither for the standard input nor for a file. -/
def IsLiteral (argument : Text) : Prop := ∃ c rest, argument = c :: rest ∧ c ≠ '-' ∧ c ≠ '@'

namespace IsLiteral

variable {argument : Text} (h : IsLiteral argument)

include h

theorem sort?_eq (options : Bool) :
    Arguments.sort? options [argument] = some { positional := [argument] } := by
  obtain ⟨c, rest, rfl, hhyphen, -⟩ := h
  have hoption : ¬Arguments.isOption (c :: rest) = true := by
    unfold Arguments.isOption
    split
    · next heq => exact absurd (List.cons.inj heq).1 hhyphen
    · exact Bool.false_ne_true
  have hend : c :: rest ≠ ("--" : Text) := fun heq => hhyphen (List.cons.inj heq).1
  rw [Arguments.sort?, if_neg hend, if_neg hoption]
  rfl

theorem readInput_eq (s : Surroundings) : s.readInput argument = .ok argument := by
  obtain ⟨c, rest, rfl, hhyphen, hat⟩ := h
  unfold Surroundings.readInput
  split
  · next heq => exact absurd (List.cons.inj heq).1 hhyphen
  · next heq => exact absurd (List.cons.inj heq).1 hat
  · rfl

end IsLiteral

/-! ### Texts of filters -/

theorem numberOf_ne_arr (negative : Bool) (whole fraction : Text) (power : Option Int)
    (items : List Reading) : numberOf negative whole fraction power ≠ .arr items := by
  unfold numberOf
  extract_lets magnitude integer isInteger
  split
  · simp
  · split <;> simp

theorem readNumber_ne_arr (s : Text) (items : List Reading) : (readNumber s).1 ≠ .arr items := by
  unfold readNumber
  split
  split
  · simp
  split
  · simp
  split
  · simp
  · dsimp only
    exact numberOf_ne_arr _ _ _ _ items

theorem decode_of_decodeDocument {α : Type} {decode : Reading → Decoded α} {text : Text} {value : α}
    (h : decodeDocument decode text = .ok value) : decode (read text).1 = .ok value := by
  unfold decodeDocument at h
  generalize read text = result at h ⊢
  obtain ⟨reading, ended⟩ := result
  obtain ⟨value', hvalue, h⟩ := bind_eq_ok_iff.mp h
  cases ended with
  | true =>
    cases h
    exact hvalue
  | false => cases h

/-- A text that begins with a hyphen is read as a number at best, and no value begins with an at
sign. -/
theorem isLiteral_of_decodeDocument {text : Text} {filters : List Filter}
    (h : decodeDocument (decodeFilters .text) text = .ok filters) : IsLiteral text := by
  obtain ⟨items, hitems⟩ : ∃ items, (read text).1 = .arr items := by
    have hdecode := decode_of_decodeDocument h
    cases hread : (read text).1 with
    | arr items => exact ⟨items, rfl⟩
    | _ =>
      rw [hread] at hdecode
      cases hdecode
  rw [read_fst] at hitems
  cases text with
  | nil => cases hitems
  | cons c rest =>
    refine ⟨c, rest, rfl, ?_, ?_⟩
    · rintro rfl
      exact readNumber_ne_arr ('-' :: rest) items hitems
    · rintro rfl
      cases hitems

/-! ### Wire texts -/

theorem exists_headOctets_cons (n : Nat) :
    ∃ first rest, Cbor.headOctets 4 n = first :: rest ∧ 128 ≤ first.toNat ∧ first.toNat < 156 := by
  unfold Cbor.headOctets
  split
  · next hsmall =>
    refine ⟨_, [], rfl, ?_⟩
    rw [UInt8.toNat_ofNat']
    omega
  split
  · exact ⟨_, _, rfl, by decide⟩
  split
  · exact ⟨_, _, rfl, by decide⟩
  split
  · exact ⟨_, _, rfl, by decide⟩
  · exact ⟨_, _, rfl, by decide⟩

theorem exists_encode_cons (first : UInt8) (rest : List UInt8) :
    ∃ t, Base64.encode (first :: rest) = Base64.symbol (first.toNat / 4) :: t := by
  match rest with
  | [] => exact ⟨_, rfl⟩
  | [_] => exact ⟨_, rfl⟩
  | _ :: _ :: _ => exact ⟨_, rfl⟩

/-- The first symbol of a wire text is a letter, whatever the length of the list. -/
theorem isLiteral_encodeFilters (filters : List Filter) : IsLiteral (Wire.encodeFilters filters) := by
  have hletters : ∀ n : Fin 39, 32 ≤ n.val → Base64.symbol n ≠ '-' ∧ Base64.symbol n ≠ '@' := by
    decide
  obtain ⟨first, rest, hhead, hlow, hhigh⟩ := exists_headOctets_cons filters.length
  obtain ⟨t, ht⟩ := exists_encode_cons first (rest ++ filters.flatMap Wire.filterOctets)
  refine ⟨_, t, ?_, hletters ⟨first.toNat / 4, by omega⟩ (by simp only; omega)⟩
  rw [Wire.encodeFilters, Wire.filtersOctets, hhead, List.cons_append, ht]

/-! ### Commands -/

namespace Command

theorem runWords_encode {text : Text} {filters : List Filter}
    (h : decodeDocument (decodeFilters .text) text = .ok filters) (s : Surroundings) (tally : Tally) :
    (runWords s ["encode", text]).run tally = (.ok (Wire.encodeFilters filters), tally) := by
  have hliteral := isLiteral_of_decodeDocument h
  have hparse : parse? ["encode", text] = some (.encode text) := by
    simp only [parse?, ofWords?, hliteral.sort?_eq]
    rfl
  have hread : s.readFilters text = .ok filters := by
    rw [Surroundings.readFilters, Surroundings.readJson, hliteral.readInput_eq]
    exact bind_eq_ok_iff.mpr ⟨text, rfl, by rw [h]⟩
  simp only [runWords, hparse, run, hread]
  rfl

theorem runWords_decode {wire : Text} {filters : List Filter} (hliteral : IsLiteral wire)
    (h : Wire.decodeFilters wire = .ok filters) (s : Surroundings) (tally : Tally) :
    (runWords s ["decode", wire]).run tally = (.ok (filtersJson filters).pretty, tally) := by
  have hparse : parse? ["decode", wire] = some (.decode wire) := by
    simp only [parse?, ofWords?, hliteral.sort?_eq]
    rfl
  simp only [runWords, hparse, run, hliteral.readInput_eq, h]
  rfl

/-- **Encoding and decoding are inverse.** A text that is read as filters can be given to `encode`
as it is; its octets are counted by a word, as those of any text in memory are. The wire text that
is printed begins with neither a hyphen nor an at sign, so it can be given to `decode` as it is, and
what is printed then is read as the same filters. -/
theorem runWords_roundTrip {text : Text} {filters : List Filter}
    (hsize : (Text.toBytes text).length < 2 ^ 64)
    (htext : decodeDocument (decodeFilters .text) text = .ok filters) :
    ∃ wire printed,
      (∀ s tally, (runWords s ["encode", text]).run tally = (.ok wire, tally)) ∧
      (∃ c rest, wire = c :: rest ∧ c ≠ '-' ∧ c ≠ '@') ∧
      (∀ s tally, (runWords s ["decode", wire]).run tally = (.ok printed, tally)) ∧
      decodeDocument (decodeFilters .text) printed = .ok filters := by
  have hwritable : Wire.IsWritable filters :=
    isWritable_of_decodeFilters (decode_of_decodeDocument htext) (read_fitsHeads hsize)
  have hliteral := isLiteral_encodeFilters filters
  have hwire : Wire.decodeFilters (Wire.encodeFilters filters) = .ok filters := by
    have hsurrounded := @Wire.decodeFilters_surrounded filters hwritable [] [] rfl rfl
    rwa [List.nil_append, List.append_nil] at hsurrounded
  exact ⟨_, _, runWords_encode htext, hliteral, runWords_decode hliteral hwire,
    decodeDocument_of_spells (spells_indented 0 _ (hasWords_filtersJson filters)) hwritable.types⟩

/-- Filters as a caller may write them: with spaces, an escape and numbers, and one as a list. -/
def writtenFilters : Text :=
  " [\x7b\"q\": [\"GDL\", 7, 5e-1], \"type\": \"newspaper\"\x7d, [\"n\\u00e9\", \"exclude\"]]"

/-- What is read of them. -/
def meantFilters : List Filter :=
  [{ type := .newspaper, q := some (.many ["GDL", "7", "0.5"]) },
    { type := .unknown "né", context := .excluded }]

theorem runWords_roundTrip_writtenFilters :
    (Text.toBytes writtenFilters).length < 2 ^ 64 ∧
    decodeDocument (decodeFilters .text) writtenFilters = .ok meantFilters ∧
    ∃ wire printed,
      (∀ s tally, (runWords s ["encode", writtenFilters]).run tally = (.ok wire, tally)) ∧
      (∃ c rest, wire = c :: rest ∧ c ≠ '-' ∧ c ≠ '@') ∧
      (∀ s tally, (runWords s ["decode", wire]).run tally = (.ok printed, tally)) ∧
      decodeDocument (decodeFilters .text) printed = .ok meantFilters := by
  have hsize : (Text.toBytes writtenFilters).length < 2 ^ 64 := by decide +kernel
  have htext : decodeDocument (decodeFilters .text) writtenFilters = .ok meantFilters := by
    decide +kernel
  exact ⟨hsize, htext, runWords_roundTrip hsize htext⟩

end Command

end FilterAlgebra
