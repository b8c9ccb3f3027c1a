import FilterAlgebra.Proofs.Query.Compiled
import FilterAlgebra.Proofs.Query.TextUnits

/-!
# Queries of free text

Where every filter tests free text, an atom is a unit in a field (`IsTextAtom`). As long as the
callers write neither quotes around their values nor operators into them, every value is a unit
(`IsShaped.isUnit`), so a query always compiles and is read as the filters mean it, over any number
of languages.
-/

namespace FilterAlgebra

/-! ### Atoms -/

/-- The characters of field names. -/
def isFieldChar (c : Char) : Bool := !isDelimiter c && c != ':' && c != '"' && c != '\\'

def IsTextAtom (s : Text) : Prop :=
  ∃ field unit, s = field ++ ':' :: unit ∧ field ≠ [] ∧ (∀ c ∈ field, isFieldChar c = true) ∧
    IsUnit unit

theorem isFieldChar_of_isAlphanum {c : Char} (h : c.isAlphanum = true ∨ c = '_') :
    isFieldChar c = true := by
  rcases h with h | rfl
  · change ((decide (65 ≤ c.val ∧ c.val ≤ 90) || (decide (97 ≤ c.val) && decide (c.val ≤ 122))) ||
      (decide (48 ≤ c.val) && decide (c.val ≤ 57))) = true at h
    simp only [Bool.or_eq_true, Bool.and_eq_true, decide_eq_true_eq, UInt32.le_iff_toNat_le] at h
    change ((65 ≤ c.toNat ∧ c.toNat ≤ 90) ∨ (97 ≤ c.toNat ∧ c.toNat ≤ 122)) ∨
      (48 ≤ c.toNat ∧ c.toNat ≤ 57) at h
    have hblank : isBlank c = false := by
      simp only [isBlank, blankRanges, List.any_cons, List.any_nil, Bool.or_eq_false_iff,
        Bool.and_eq_false_iff, decide_eq_false_iff_not, and_true]
      omega
    have hne : ∀ d : Char, d.toNat < 48 ∨ d.toNat = 58 ∨ d.toNat = 92 → c ≠ d := by
      rintro d hd rfl
      omega
    simp [isFieldChar, isDelimiter, hblank, hne '(' (by decide), hne ')' (by decide),
      hne ':' (by decide), hne '"' (by decide), hne '\\' (by decide)]
  · decide

theorem isFieldChar_of_mem_keywords {word : Text} (h : word ∈ keywords) :
    ∀ c ∈ word, isFieldChar c = true := by
  have hchars : ∀ word ∈ keywords, word.all isFieldChar = true := by decide
  exact List.all_eq_true.mp (hchars word h)

def textAtoms : AtomClass where
  IsAtom := IsTextAtom
  ne_open := by
    rintro s r t ⟨field, unit, rfl, hne, hfield, -⟩ heq
    obtain ⟨c, field, rfl⟩ := List.exists_cons_of_ne_nil hne
    obtain ⟨rfl, -⟩ := List.cons.inj heq
    have hopen := hfield '(' List.mem_cons_self
    revert hopen
    decide
  eq_keyword := by
    rintro s r word t ⟨field, unit, rfl, -, hfield, -⟩ - hword heq
    rw [List.append_assoc, List.cons_append] at heq
    obtain ⟨-, hcolon⟩ := append_cons_inj_of_forall hfield (isFieldChar_of_mem_keywords hword)
      (by decide) (by decide) heq
    exact absurd hcolon (by decide)
  eq_of_append := by
    rintro s s' r r' ⟨field, unit, rfl, -, hfield, hunit⟩ ⟨field', unit', rfl, -, hfield', hunit'⟩
      hr hr' heq
    rw [List.append_assoc, List.append_assoc, List.cons_append, List.cons_append] at heq
    obtain ⟨rfl, -⟩ := append_cons_inj_of_forall hfield hfield' (by decide) (by decide) heq
    have htail := (List.cons.inj (List.append_cancel_left heq)).2
    rw [hunit.eq_of_append hunit' hr hr' htail]

theorem isOperand_of_isTextAtom {s : Text} (h : IsTextAtom s) : textAtoms.IsOperand s := by
  refine ⟨h, fun hs => ?_⟩
  obtain ⟨field, unit, rfl, -⟩ := h
  have hcolon := isFieldChar_of_mem_keywords hs ':' (by simp)
  revert hcolon
  decide

/-! ### Clauses are atoms -/

/-- Whether a value is shaped by the precision alone: it has no quotes around it, and no operators
where a caller may write his own. -/
def IsShaped (precision : Option Precision) (value : Text) : Prop :=
  (¬∃ body, Text.trim value = '"' :: (body ++ ['"'])) ∧
    (precision = some .part ∨ precision = none →
      ¬" AND ".toList <:+: Text.trim value ∧ ¬" OR ".toList <:+: Text.trim value)

theorem infix_of_contains {s part : Text} (h : Text.contains s part = true) : part <:+: s := by
  obtain ⟨⟨before, after⟩, hsplit⟩ := Option.isSome_iff_exists.mp h
  exact ⟨before, after, (Text.append_of_splitOnce? hsplit).symm⟩

namespace IsShaped

variable {precision : Option Precision} {value : Text} (h : IsShaped precision value)

include h

theorem freeText_eq :
    freeText precision value = shapedText (precision.getD .part) (Text.trim value) := by
  have hbody : quotedBody? (Text.trim value) = none := by
    rw [Option.eq_none_iff_forall_ne_some]
    intro body hbody
    exact h.1 ⟨body, Text.inside?_eq_some_iff.mp hbody⟩
  rw [freeText, hbody]

theorem hasOperators_eq_false (hpart : precision.getD .part = .part) :
    hasOperators (Text.trim value) = false := by
  have hprecision : precision = some .part ∨ precision = none := by
    cases precision with
    | none => exact .inr rfl
    | some precision => exact .inl (congrArg some hpart)
  obtain ⟨hand, hor⟩ := h.2 hprecision
  rw [hasOperators, Bool.or_eq_false_iff, Bool.eq_false_iff, Bool.eq_false_iff]
  exact ⟨fun h => hand (infix_of_contains h), fun h => hor (infix_of_contains h)⟩

theorem isUnit : IsUnit (freeText precision value) := by
  rw [h.freeText_eq]
  exact isUnit_shapedText h.hasOperators_eq_false

end IsShaped

namespace Descriptor

variable {scope : Namespace} {kind : FilterType} {d : Descriptor}
  (hd : Descriptor.of? scope kind = some d) (hkind : kind.isText = true)

include hd hkind

theorem exists_stem_of_isText : ∃ base, d = ⟨.text, .stem base⟩ ∧ base ≠ [] ∧
    base.all isFieldChar = true := by
  cases kind with
  | string => cases scope <;> cases hd <;> exact ⟨_, rfl, by decide, by decide⟩
  | title => cases scope <;> cases hd <;> exact ⟨_, rfl, by decide, by decide⟩
  | _ => cases hkind

theorem isFieldChar_of_mem_field {languages : List Text} {field : Text}
    (hlanguages : ∀ language ∈ languages, ∀ c ∈ language, isFieldChar c = true)
    (hfield : field ∈ d.fields.expanded languages) :
    field ≠ [] ∧ ∀ c ∈ field, isFieldChar c = true := by
  obtain ⟨base, rfl, hne, hchars⟩ := exists_stem_of_isText hd hkind
  have hbase := List.all_eq_true.mp hchars
  rcases List.mem_append.mp hfield with hfield | hfield
  · obtain ⟨language, hlanguage, rfl⟩ := List.mem_map.mp hfield
    refine ⟨by simp, ?_⟩
    intro c hc
    rcases List.mem_append.mp hc with hc | hc
    · exact hbase c hc
    · rcases List.mem_cons.mp hc with rfl | hc
      · decide
      · exact hlanguages language hlanguage c hc
  · rw [List.mem_singleton.mp hfield]
    exact ⟨hne, hbase⟩

end Descriptor

/-! ### Compiled queries -/

/-- **Queries of free text mean what the filters say.** If all filters of a list test free text in a
collection and their values are shaped by the precision alone, then the list compiles, the query
parses in exactly one way, and under every assignment that makes the universal token true it is true
exactly when all the filters are. -/
theorem reads_textQuery {filters : List Filter} {scope : Namespace} {settings : Settings}
    (huniversal : textAtoms.IsAtom settings.universalQuery)
    (hlanguages : ∀ language ∈ settings.languages, ∀ c ∈ language, isFieldChar c = true)
    (hkinds : ∀ f ∈ filters, f.type.isText = true ∧ (Descriptor.of? scope f.type).isSome = true)
    (hvalues : ∀ f ∈ filters, ∀ value ∈ f.values, IsShaped f.precision value) :
    ∃ text, compileExpression filters scope settings = .ok text ∧
      ∃ e, (∀ e', Parses textAtoms text e' ↔ e' = e) ∧
        ∀ holds, holds settings.universalQuery = true →
          e.eval holds = filters.all fun f => f.isTrueIn scope settings holds := by
  have hcompiles : ∀ f ∈ filters, f.Compiles scope := by
    intro f hf
    obtain ⟨hkind, hsome⟩ := hkinds f hf
    obtain ⟨d, hd⟩ := Option.isSome_iff_exists.mp hsome
    obtain ⟨base, rfl, -⟩ := Descriptor.exists_stem_of_isText hd hkind
    exact ⟨_, hd, f, rfl, fun value _ => ⟨_, rfl⟩⟩
  obtain ⟨text, htext⟩ := exists_compileExpression hcompiles settings
  refine ⟨text, htext, reads_compileExpression (isOperand_of_isTextAtom huniversal) ?_ htext⟩
  intro f hf d hd g hg value hvalue form hform field hfield
  obtain ⟨hne, hchars⟩ :=
    Descriptor.isFieldChar_of_mem_field hd (hkinds f hf).1 hlanguages hfield
  obtain ⟨base, rfl, -⟩ := Descriptor.exists_stem_of_isText hd (hkinds f hf).1
  cases hg
  cases hform
  exact isOperand_of_isTextAtom ⟨field, _, rfl, hne, hchars, (hvalues f hf value hvalue).isUnit⟩

/-- Two wanted texts, one of them of two words, and an unwanted title with special characters. -/
def mixedTexts : List Filter :=
  [{ type := .string, op := some .and, q := some (.many ["grande guerre", "paix"]) },
    { type := .title, context := .excluded, precision := some .exact, q := some (.one "A (b") }]

theorem isTextAtom_default : IsTextAtom ({} : Settings).universalQuery := by
  have hstar : IsUnit ['*'] := IsUnit.word .nil (.inr rfl) (by simp)
  have hfield : ['*'].all isFieldChar = true := by decide
  exact ⟨['*'], ['*'], by decide, by simp, List.all_eq_true.mp hfield, hstar⟩

theorem reads_textQuery_mixedTexts :
    IsTextAtom ({} : Settings).universalQuery ∧
    (∀ language ∈ ({} : Settings).languages, ∀ c ∈ language, isFieldChar c = true) ∧
    (∀ f ∈ mixedTexts, f.type.isText = true ∧ (Descriptor.of? .search f.type).isSome = true) ∧
    (∀ f ∈ mixedTexts, ∀ value ∈ f.values, IsShaped f.precision value) ∧
    ∃ text, compileExpression mixedTexts .search {} = .ok text ∧
      ∃ e, (∀ e', Parses textAtoms text e' ↔ e' = e) ∧
        ∀ holds, holds ({} : Settings).universalQuery = true →
          e.eval holds = mixedTexts.all fun f => f.isTrueIn .search {} holds := by
  have hlanguages : ∀ language ∈ ({} : Settings).languages, ∀ c ∈ language,
      isFieldChar c = true := by
    have halphanum : ∀ language ∈ ({} : Settings).languages,
        language.all Char.isAlphanum = true := by decide
    intro language hlanguage c hc
    exact isFieldChar_of_isAlphanum (.inl (List.all_eq_true.mp (halphanum language hlanguage) c hc))
  have hkinds : ∀ f ∈ mixedTexts,
      f.type.isText = true ∧ (Descriptor.of? .search f.type).isSome = true := by decide
  have hunquoted : ∀ f ∈ mixedTexts, ∀ value ∈ f.values,
      quotedBody? (Text.trim value) = none := by decide +kernel
  have hplain : ∀ f ∈ mixedTexts, ∀ value ∈ f.values,
      ¬" AND ".toList <:+: Text.trim value ∧ ¬" OR ".toList <:+: Text.trim value := by
    decide +kernel
  have hvalues : ∀ f ∈ mixedTexts, ∀ value ∈ f.values, IsShaped f.precision value := by
    intro f hf value hvalue
    refine ⟨?_, fun _ => hplain f hf value hvalue⟩
    rintro ⟨body, hbody⟩
    have hnone := hunquoted f hf value hvalue
    rw [quotedBody?, Text.inside?_eq_some_iff.mpr hbody] at hnone
    cases hnone
  exact ⟨isTextAtom_default, hlanguages, hkinds, hvalues,
    reads_textQuery isTextAtom_default hlanguages hkinds hvalues⟩

end FilterAlgebra
