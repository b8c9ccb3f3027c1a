import FilterAlgebra.Digest.CacheKey
import FilterAlgebra.Proofs.Json.Decoding
import FilterAlgebra.Proofs.Json.Spelling
import FilterAlgebra.Proofs.Wire.Filters

/-!
# Canonical texts

The canonical text of a list of filters is read back as the list (`decodeDocument_of_spells`), field
by field: a field that a filter has not got is left out of the text and stays at its default in the
draft. So different lists have different canonical texts, and different cache keys unless the hash
takes their two texts together (`Blake3.Collide`).
-/

namespace FilterAlgebra

open Json

namespace Json

theorem toReadings_eq_map (items : List Json) : toReadings items = items.map toReading := by
  induction items with
  | nil => rfl
  | cons item items ih => rw [toReadings, ih, List.map_cons]

theorem memberReadings_append (members others : List (Text × Json)) :
    memberReadings (members ++ others) = memberReadings members ++ memberReadings others := by
  induction members with
  | nil => rfl
  | cons member members ih =>
    obtain ⟨key, value⟩ := member
    rw [List.cons_append, memberReadings, ih, memberReadings, List.cons_append]

/-! ### Values without numbers -/

theorem haveWords_of_forall {items : List Json} (h : ∀ item ∈ items, HasWords item) :
    HaveWords items := by
  induction items with
  | nil => exact trivial
  | cons item items ih =>
    have hitems : HaveWords items := ih fun other hother =>
      h other (List.mem_cons_of_mem item hother)
    exact ⟨h item List.mem_cons_self, hitems⟩

theorem membersHaveWords_append {members others : List (Text × Json)}
    (h : MembersHaveWords members) (h' : MembersHaveWords others) :
    MembersHaveWords (members ++ others) := by
  induction members with
  | nil => exact h'
  | cons member members ih => exact ⟨h.1, ih h.2⟩

theorem membersHaveWords_optional {α : Type} (key : Text) (value : Option α) (write : α → Json)
    (h : ∀ x, HasWords (write x)) : MembersHaveWords (optional key (value.map write)) := by
  cases value with
  | none => exact trivial
  | some x => exact ⟨h x, trivial⟩

end Json

theorem FilterValue.hasWords_toJson (q : FilterValue) : HasWords q.toJson := by
  cases q with
  | one value => exact trivial
  | many values =>
    apply haveWords_of_forall
    intro item hitem
    obtain ⟨value, -, rfl⟩ := List.mem_map.mp hitem
    exact trivial

theorem Filter.hasWords_toJson (f : Filter) : HasWords f.toJson := by
  have hop := membersHaveWords_optional "op" f.op (fun op => .str op.name) fun _ => trivial
  have hprecision := membersHaveWords_optional "precision" f.precision
    (fun precision => .str precision.name) fun _ => trivial
  have hq := membersHaveWords_optional "q" f.q FilterValue.toJson FilterValue.hasWords_toJson
  exact ⟨trivial, trivial, membersHaveWords_append (membersHaveWords_append hop hprecision) hq⟩

theorem hasWords_filtersJson (filters : List Filter) : HasWords (filtersJson filters) := by
  apply haveWords_of_forall
  intro item hitem
  obtain ⟨f, -, rfl⟩ := List.mem_map.mp hitem
  exact f.hasWords_toJson

/-! ### Parts of a filter -/

theorem isSound_texts {depth : Nat} (h : 0 < depth) (values : List Text) :
    (toReading (.texts values)).isSound depth = true := by
  have hitems : ∀ d, Reading.areSound d (toReadings (values.map Json.str)) = true := by
    intro d
    induction values with
    | nil => rfl
    | cons value values ih => exact ih
  change (decide (0 < depth) && Reading.areSound (depth - 1) _) = true
  rw [hitems, decide_eq_true h]
  rfl

theorem mapM_scalarText? (values : List Text) :
    (toReadings (values.map Json.str)).mapM scalarText? = some values := by
  induction values with
  | nil => rfl
  | cons value values ih =>
    rw [List.map_cons, toReadings, List.mapM_cons, ih]
    rfl

theorem decodeFilterValue_toJson {depth : Nat} (h : 0 < depth) (q : FilterValue) :
    decodeFilterValue depth (toReading q.toJson) = .ok q := by
  cases q with
  | one value => rfl
  | many values =>
    have hvalues : filterValue? (toReading (.texts values)) = some (.many values) := by
      change ((toReadings (values.map Json.str)).mapM scalarText?).map FilterValue.many = _
      rw [mapM_scalarText?]
      rfl
    rw [FilterValue.toJson, decodeFilterValue, if_pos (isSound_texts h values), hvalues]

theorem decodeType_name {kind : FilterType} (h : ∃ name, kind = .ofName name) :
    FilterDraft.decodeType (.str kind.name) = .ok kind := by
  obtain ⟨name, rfl⟩ := h
  change Except.ok (FilterType.ofName (FilterType.ofName name).name) = _
  rw [FilterType.name_ofName]

theorem decodeVariant_name {α : Type} {variants : List (Text × α)} {name : Text} {value : α}
    (h : variants.lookup name = some value) :
    decodeVariant .text variants (.str name) = .ok value := by
  change variantNamed variants name = _
  rw [variantNamed, h]

/-! ### Filters -/

namespace FilterDraft

variable {depth : Nat} {draft : FilterDraft}

theorem readMember_type (hdraft : draft.type = none) {kind : FilterType}
    (hkind : ∃ name, kind = .ofName name) :
    draft.readMember .text depth "type" (.str kind.name) =
      .ok { draft with type := some kind } := by
  unfold readMember
  rw [if_pos rfl, decodeField_eq_ok hdraft (decodeType_name hkind)]
  rfl

theorem readMember_context (hdraft : draft.context = none) (context : Context) :
    draft.readMember .text depth "context" (.str context.name) =
      .ok { draft with context := some context } := by
  have hname : contextNames.lookup context.name = some context := by cases context <;> decide
  unfold readMember
  rw [if_neg (by decide), if_pos rfl]
  simp only [decodeField_eq_ok hdraft (decodeVariant_name hname)]
  rfl

theorem readMember_op (hdraft : draft.op = none) (op : Op) :
    draft.readMember .text depth "op" (.str op.name) =
      .ok { draft with op := some (some op) } := by
  have hname : opNames.lookup op.name = some op := by cases op <;> decide
  have hop := decodeOption_eq_ok (by intro h; cases h) (decodeVariant_name hname)
  unfold readMember
  rw [if_neg (by decide), if_neg (by decide), if_pos rfl]
  simp only [decodeField_eq_ok hdraft hop]
  rfl

theorem readMember_precision (hdraft : draft.precision = none) (precision : Precision) :
    draft.readMember .text depth "precision" (.str precision.name) =
      .ok { draft with precision := some (some precision) } := by
  have hname : precisionNames.lookup precision.name = some precision := by
    cases precision <;> decide
  have hprecision := decodeOption_eq_ok (by intro h; cases h) (decodeVariant_name hname)
  unfold readMember
  rw [if_neg (by decide), if_neg (by decide), if_neg (by decide), if_pos rfl]
  simp only [decodeField_eq_ok hdraft hprecision]
  rfl

theorem readMember_q (hdepth : 0 < depth) (hdraft : draft.q = none) (q : FilterValue) :
    draft.readMember .text depth "q" (toReading q.toJson) =
      .ok { draft with q := some (some q) } := by
  have hnull : toReading q.toJson ≠ .null := by
    cases q <;> exact fun h => by cases h
  have hq := decodeOption_eq_ok hnull (decodeFilterValue_toJson hdepth q)
  unfold readMember
  rw [if_neg (by decide), if_neg (by decide), if_neg (by decide), if_neg (by decide), if_pos rfl]
  simp only [decodeField_eq_ok hdraft hq]
  rfl

theorem members_cons {next : FilterDraft} {key : Text} {value : Reading}
    (h : draft.readMember .text depth key value = .ok next) (rest : List (Text × Reading)) :
    (decoder .text depth).members draft ((key, value) :: rest) =
      (decoder .text depth).members next rest := by
  change (draft.readMember .text depth key value >>= _) = _
  rw [h]
  rfl

/-- A field that a filter need not have: `set` is the draft by what is known of the field. -/
theorem members_optional {α : Type} {key : Text} {value : Option α} {write : α → Json}
    (set : Option (Option α) → FilterDraft)
    (hmember : ∀ x, (set none).readMember .text depth key (toReading (write x)) =
      .ok (set (some (some x)))) (rest : List (Text × Reading)) :
    (decoder .text depth).members (set none)
        (memberReadings (optional key (value.map write)) ++ rest) =
      (decoder .text depth).members (set (value.map some)) rest := by
  cases value with
  | none => rfl
  | some x => exact members_cons (hmember x) rest

end FilterDraft

theorem decodeFilter_toJson {f : Filter} (h : ∃ name, f.type = .ofName name) :
    decodeFilter .text 1 (toReading f.toJson) = .ok f := by
  have hmembers : (FilterDraft.decoder .text (nestingLimit - 1 - 1)).members {}
      (("type", .str f.type.name) :: ("context", .str f.context.name)
        :: (memberReadings (optional "op" (f.op.map fun op => .str op.name))
          ++ (memberReadings (optional "precision" (f.precision.map fun p => .str p.name))
            ++ (memberReadings (optional "q" (f.q.map FilterValue.toJson)) ++ [])))) =
      .ok (Wire.draftOf f) := by
    -- field by field, each from the draft that the fields before it have made
    refine (FilterDraft.members_cons (FilterDraft.readMember_type rfl h) _).trans ?_
    refine (FilterDraft.members_cons
      (FilterDraft.readMember_context rfl f.context) _).trans ?_
    refine (FilterDraft.members_optional (fun op => ⟨some f.type, some f.context, op, none, none⟩)
      (fun op => FilterDraft.readMember_op rfl op) _).trans ?_
    refine (FilterDraft.members_optional
      (fun precision => ⟨some f.type, some f.context, f.op.map some, precision, none⟩)
      (fun precision => FilterDraft.readMember_precision rfl precision) _).trans ?_
    exact FilterDraft.members_optional
      (fun q => ⟨some f.type, some f.context, f.op.map some, f.precision.map some, q⟩)
      (fun q => FilterDraft.readMember_q (by decide) rfl q) _
  have hreading : toReading f.toJson = .obj (("type", .str f.type.name)
      :: ("context", .str f.context.name)
      :: (memberReadings (optional "op" (f.op.map fun op => .str op.name))
        ++ (memberReadings (optional "precision" (f.precision.map fun p => .str p.name))
          ++ (memberReadings (optional "q" (f.q.map FilterValue.toJson)) ++ [])))) := by
    change Reading.obj (_ :: _ :: memberReadings (_ ++ _ ++ _)) = _
    rw [memberReadings_append, memberReadings_append, List.append_assoc, List.append_nil]
    rfl
  rw [decodeFilter, hreading]
  change ((FilterDraft.decoder _ _).members {} _ >>= _) = _
  rw [hmembers]
  change Except.ok ((Wire.draftOf f).withType f.type) = _
  rw [Wire.withType_draftOf]

/-! ### Lists of filters -/

theorem decodeFilters_filtersJson {filters : List Filter}
    (h : ∀ f ∈ filters, ∃ name, f.type = .ofName name) :
    decodeFilters .text (toReading (filtersJson filters)) = .ok filters := by
  change (toReadings (filters.map Filter.toJson)).mapM (decodeFilter .text 1) = _
  rw [toReadings_eq_map, List.map_map, mapM_eq_ok_iff, List.forall₂_map_left_iff,
    List.forall₂_same]
  exact fun f hf => decodeFilter_toJson (h f hf)

/-- Whatever spells a list of filters is decoded as the list. -/
theorem decodeDocument_of_spells {filters : List Filter} {text : Text}
    (htext : Json.Spells (filtersJson filters) text) (h : ∀ f ∈ filters, ∃ name, f.type = .ofName name) :
    decodeDocument (decodeFilters .text) text = .ok filters := by
  rw [decodeDocument, htext.read_eq]
  change (decodeFilters .text _ >>= _) = _
  rw [decodeFilters_filtersJson h]
  rfl

theorem decodeDocument_canonicalText {filters : List Filter}
    (h : ∀ f ∈ filters, ∃ name, f.type = .ofName name) :
    decodeDocument (decodeFilters .text) (canonicalText filters) = .ok filters :=
  decodeDocument_of_spells (spells_compact _ (hasWords_filtersJson filters)) h

theorem Text.toBytes_injective : Function.Injective Text.toBytes := by
  intro s t h
  have hread := Text.ofBytes?_toBytes s
  rw [h, Text.ofBytes?_toBytes] at hread
  exact (Option.some.inj hread).symm

/-- Two different inputs with one hash. -/
def Blake3.Collide (octets others : List UInt8) : Prop :=
  octets ≠ others ∧ Blake3.hash octets = Blake3.hash others

/-- **Canonical texts.** The canonical text of a list of filters, whose types have been read from
their names, is decoded as the same list. So two lists have one canonical text only if they are
equal, and one cache key only if they are, as long as the octets of their texts do not collide. -/
theorem canonicalText_faithful {filters : List Filter}
    (h : ∀ f ∈ filters, ∃ name, f.type = .ofName name) :
    decodeDocument (decodeFilters .text) (canonicalText filters) = .ok filters ∧
    ∀ others : List Filter, (∀ f ∈ others, ∃ name, f.type = .ofName name) →
      (canonicalText others = canonicalText filters ↔ others = filters) ∧
      (¬Blake3.Collide (Text.toBytes (canonicalText others))
          (Text.toBytes (canonicalText filters)) →
        (cacheKey others = cacheKey filters ↔ others = filters)) := by
  have hdecode := decodeDocument_canonicalText h
  refine ⟨hdecode, fun others hothers => ?_⟩
  have htexts : canonicalText others = canonicalText filters ↔ others = filters := by
    constructor
    · intro htext
      have hsame := decodeDocument_canonicalText hothers
      rw [htext, hdecode] at hsame
      exact (Except.ok.inj hsame).symm
    · intro hsame
      rw [hsame]
  refine ⟨htexts, fun hapart => ?_⟩
  constructor
  · intro hkey
    -- equal keys of unequal texts would be a collision
    by_contra hne
    exact hapart ⟨fun hoctets => hne (htexts.mp (Text.toBytes_injective hoctets)), hkey⟩
  · intro hsame
    rw [hsame]

/-- A name and values with quotes, backslashes and controls, in an order that is not the usual. -/
def scalarFilters : List Filter :=
  [{ type := .unknown "a\"\\\u001fé", op := some .and, q := some (.many []) },
    { type := .newspaper, context := .excluded, precision := some .part,
      q := some (.one "\n\t\u0000\u007f😀") }]

/-- The same filters, with the second value in a list. -/
def listFilters : List Filter :=
  [{ type := .unknown "a\"\\\u001fé", op := some .and, q := some (.many []) },
    { type := .newspaper, context := .excluded, precision := some .part,
      q := some (.many ["\n\t\u0000\u007f😀"]) }]

/-- A value is not the list of the value, for the text and for the key. -/
theorem canonicalText_faithful_scalar :
    (∀ f ∈ scalarFilters, ∃ name, f.type = .ofName name) ∧
    (∀ f ∈ listFilters, ∃ name, f.type = .ofName name) ∧
    ¬Blake3.Collide (Text.toBytes (canonicalText listFilters))
      (Text.toBytes (canonicalText scalarFilters)) ∧
    decodeDocument (decodeFilters .text) (canonicalText scalarFilters) = .ok scalarFilters ∧
    canonicalText listFilters ≠ canonicalText scalarFilters ∧
    cacheKey listFilters ≠ cacheKey scalarFilters := by
  have hscalar : ∀ f ∈ scalarFilters, ∃ name, f.type = .ofName name := by
    simp only [scalarFilters, List.forall_mem_cons, List.not_mem_nil, false_imp_iff, implies_true,
      and_true]
    exact ⟨⟨"a\"\\\u001fé", by decide⟩, ⟨_, (FilterType.ofName_name rfl).symm⟩⟩
  have hlist : ∀ f ∈ listFilters, ∃ name, f.type = .ofName name := by
    simp only [listFilters, List.forall_mem_cons, List.not_mem_nil, false_imp_iff, implies_true,
      and_true]
    exact ⟨⟨"a\"\\\u001fé", by decide⟩, ⟨_, (FilterType.ofName_name rfl).symm⟩⟩
  have hapart : ¬Blake3.Collide (Text.toBytes (canonicalText listFilters))
      (Text.toBytes (canonicalText scalarFilters)) := by
    have hhash : Blake3.hash (Text.toBytes (canonicalText listFilters)) ≠
        Blake3.hash (Text.toBytes (canonicalText scalarFilters)) := by
      decide +kernel
    exact fun hcollide => hhash hcollide.2
  have hne : listFilters ≠ scalarFilters := by decide
  obtain ⟨hdecode, hothers⟩ := canonicalText_faithful hscalar
  obtain ⟨htexts, hkeys⟩ := hothers listFilters hlist
  exact ⟨hscalar, hlist, hapart, hdecode, fun h => hne (htexts.mp h),
    fun h => hne ((hkeys hapart).mp h)⟩

end FilterAlgebra
