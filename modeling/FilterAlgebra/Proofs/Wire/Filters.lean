import FilterAlgebra.Proofs.Wire.Cbor
import FilterAlgebra.Wire.Filters

/-!
# Filters in octets

The octets of a filter are a map with a field for each part that the filter has. Field by field the
reader of maps takes a draft of the filter further, and the last draft is the filter itself
(`readsWithin_fields`). So lists of filters are read as they were written
(`readList?_filtersOctets`), and nothing is read from octets that stop early (`readList?_cut`).
-/

namespace FilterAlgebra

/-! ### Filters that can be written -/

/-- The lengths of a filter have heads, which hold numbers of 64 bits. Texts and lists in memory are
never longer. -/
structure Filter.FitsHeads (f : Filter) : Prop where
  type : (Text.toBytes f.type.name).length < 2 ^ 64
  count : f.rawValues.length < 2 ^ 64
  values : ∀ value ∈ f.rawValues, (Text.toBytes value).length < 2 ^ 64

namespace Wire

open Cbor

variable {α : Type}

/-! ### Values -/

theorem reads_scalar {value : Text} (h : (Text.toBytes value).length < 2 ^ 64) :
    Reads readScalar? (textOctets value) value := by
  apply (reads_textHead h).of_head (headOctets_prefix_textOctets value) (reads_text h)
  · intro s hs
    rw [readScalar?, hs]
  · intro s rest hs
    rw [readScalar?, hs]

theorem readValue?_eq_none {s : Octets} (h : readHead? s = none) : readValue? s = none := by
  simp only [readValue?, readScalar?, h]
  rfl

theorem reads_value {q : FilterValue} (hcount : q.toList.length < 2 ^ 64)
    (hvalues : ∀ value ∈ q.toList, (Text.toBytes value).length < 2 ^ 64) :
    Reads readValue? (valueOctets q) q := by
  cases q with
  | one value =>
    -- a text has a head of its own, which is not that of a list
    have hvalue := hvalues value List.mem_cons_self
    apply (reads_textHead hvalue).of_head (headOctets_prefix_textOctets value)
      ((reads_scalar hvalue).map FilterValue.one)
    · intro s hs
      exact readValue?_eq_none hs
    · intro s rest hs
      rw [readValue?, hs]
  | many values =>
    have hscalars := readsWithin_items readScalars? (fun value hvalue =>
      ⟨reads_scalar (hvalues value hvalue), textOctets_ne_nil (hvalues value hvalue)⟩)
      (fun _ _ => rfl) (fun _ _ => rfl) fun _ _ _ => rfl
    have hhead := reads_arrayHead hcount
    have hmany := hscalars.reads.map FilterValue.many
    apply hhead.of_head (List.prefix_append _ _) (hhead.bind (fun _ => _) hmany)
    · intro s hs
      exact readValue?_eq_none hs
    · intro s rest hs
      rw [readValue?, hs]
      rfl

/-- What an item that may be absent has to be like: it begins with a head that is neither null nor
undefined, and its reader needs a head. -/
theorem reads_optional {read? : Reader α} {octets body : Octets} {head : Head} {value : α}
    (hhead : Reads readHead? octets head) (hsimple : ∀ n, head ≠ .simple n)
    (hread : Reads read? (octets ++ body) value) (hnone : ∀ s, readHead? s = none → read? s = none) :
    Reads (readOptional? read?) (octets ++ body) (some value) := by
  apply hhead.of_head (List.prefix_append octets body) (hread.map some)
  · intro s hs
    simp only [readOptional?, hs, hnone s hs, Option.map_none]
  · intro s rest hs
    rw [readOptional?, hs]
    cases head with
    | simple n => exact absurd rfl (hsimple n)
    | _ => rfl

/-! ### Names -/

theorem reads_type {kind : FilterType} (hkind : ∃ name, kind = .ofName name)
    (hlength : (Text.toBytes kind.name).length < 2 ^ 64) (fuel : Nat) :
    Reads (readType? (fuel + 1)) (textOctets kind.name) kind := by
  have hname : FilterType.ofName kind.name = kind := by
    obtain ⟨name, rfl⟩ := hkind
    rw [FilterType.name_ofName]
  have htext := (reads_text hlength).map FilterType.ofName
  rw [hname] at htext
  apply (reads_textHead hlength).of_head (headOctets_prefix_textOctets kind.name) htext
  · intro s hs
    simp only [readType?, hs, readText?_eq_none hs, Option.map_none]
  · intro s rest hs
    rw [readType?, hs]

theorem readVariant?_eq_none {variants : List (Text × α)} (fuel : Nat) {s : Octets}
    (h : readHead? s = none) : readVariant? variants (fuel + 1) s = none := by
  rw [readVariant?, h]

theorem reads_variant {variants : List (Text × α)} {name : Text} {value : α}
    (hlength : (Text.toBytes name).length ≤ nameLimit) (hvalue : variants.lookup name = some value)
    (fuel : Nat) : Reads (readVariant? variants (fuel + 1)) (textOctets name) value := by
  have hhead := reads_textHead (lt_of_le_nameLimit hlength)
  let variant? (octets : Octets) : Option α :=
    (Text.ofBytes? octets).bind fun name => variants.lookup name
  have hresult : variant? (Text.toBytes name) = some value := by
    simp only [variant?, Text.ofBytes?_toBytes, Option.bind_some, hvalue]
  have hnamed := (reads_name hlength).map? variant? hresult
  apply hhead.of_head (headOctets_prefix_textOctets name) hnamed
  · intro s hs
    exact readVariant?_eq_none fuel hs
  · intro s rest hs
    simp only [readVariant?, hs, variant?, Option.bind_eq_bind, Option.map_eq_bind]
    cases readName? s with
    | none => rfl
    | some result =>
      simp only [Option.bind_some]
      cases Text.ofBytes? result.1 <;> rfl

/-! ### Fields -/

/-- A field that has not been given yet, after whose value the draft is `set`. -/
theorem reads_field (read? : Nat → Reader α) {octets : Octets} {value : α}
    (h : ∀ fuel, Reads (read? (fuel + 1)) octets value) (set : Option α → FilterDraft) :
    Reads (fun s => do
      let (x, s) ← readField? none (read? (s.length + 1)) s
      return (set x, s)) octets (set (some value)) := by
  have hfield := (reads_of_forall_fuel h).map? (fun x => some (set (some x))) rfl
  constructor
  · intro rest
    rw [← hfield.whole rest]
    simp only [readField?, Option.bind_eq_bind, Option.bind_map]
    rfl
  · intro part hpart hne
    rw [← hfield.cut hpart hne]
    simp only [readField?, Option.bind_eq_bind, Option.bind_map]
    rfl

theorem reads_typeMember {draft : FilterDraft} (hdraft : draft.type = none) {kind : FilterType}
    (hkind : ∃ name, kind = .ofName name) (hlength : (Text.toBytes kind.name).length < 2 ^ 64) :
    Reads (readMember? draft (Text.toBytes "type")) (textOctets kind.name)
      { draft with type := some kind } := by
  have hfield := reads_field readType? (reads_type hkind hlength) fun type => { draft with type }
  rw [← hdraft] at hfield
  exact hfield

theorem reads_contextMember {draft : FilterDraft} (hdraft : draft.context = none)
    (context : Context) :
    Reads (readMember? draft (Text.toBytes "context")) (textOctets context.name)
      { draft with context := some context } := by
  have hlength : (Text.toBytes context.name).length ≤ nameLimit := by cases context <;> decide
  have hvalue : contextNames.lookup context.name = some context := by cases context <;> decide
  have hfield := reads_field (readVariant? contextNames) (reads_variant hlength hvalue)
    fun context => { draft with context }
  rw [← hdraft] at hfield
  exact hfield

theorem reads_optionalVariant {variants : List (Text × α)} {name : Text} {value : α}
    (hlength : (Text.toBytes name).length ≤ nameLimit) (hvalue : variants.lookup name = some value)
    (fuel : Nat) :
    Reads (readOptional? (readVariant? variants (fuel + 1))) (textOctets name) (some value) := by
  apply reads_optional (reads_textHead (lt_of_le_nameLimit hlength))
  · intro n hn
    cases hn
  · exact reads_variant hlength hvalue fuel
  · intro s hs
    exact readVariant?_eq_none fuel hs

theorem reads_opMember {draft : FilterDraft} (hdraft : draft.op = none) (op : Op) :
    Reads (readMember? draft (Text.toBytes "op")) (textOctets op.name)
      { draft with op := some (some op) } := by
  have hlength : (Text.toBytes op.name).length ≤ nameLimit := by cases op <;> decide
  have hvalue : opNames.lookup op.name = some op := by cases op <;> decide
  have hfield := reads_field (fun fuel => readOptional? (readVariant? opNames fuel))
    (reads_optionalVariant hlength hvalue) fun op => { draft with op }
  rw [← hdraft] at hfield
  exact hfield

theorem reads_precisionMember {draft : FilterDraft} (hdraft : draft.precision = none)
    (precision : Precision) :
    Reads (readMember? draft (Text.toBytes "precision")) (textOctets precision.name)
      { draft with precision := some (some precision) } := by
  have hlength : (Text.toBytes precision.name).length ≤ nameLimit := by
    cases precision <;> decide
  have hvalue : precisionNames.lookup precision.name = some precision := by
    cases precision <;> decide
  have hfield := reads_field (fun fuel => readOptional? (readVariant? precisionNames fuel))
    (reads_optionalVariant hlength hvalue) fun precision => { draft with precision }
  rw [← hdraft] at hfield
  exact hfield

theorem reads_optionalValue {q : FilterValue} (hcount : q.toList.length < 2 ^ 64)
    (hvalues : ∀ value ∈ q.toList, (Text.toBytes value).length < 2 ^ 64) :
    Reads (readOptional? readValue?) (valueOctets q) (some q) := by
  have hvalue := reads_value hcount hvalues
  cases q with
  | one value =>
    have hhead := reads_textHead (hvalues value List.mem_cons_self)
    exact reads_optional hhead (fun _ hn => by cases hn) hvalue fun s => readValue?_eq_none
  | many values =>
    exact reads_optional (reads_arrayHead hcount) (fun _ hn => by cases hn) hvalue fun s =>
      readValue?_eq_none

theorem reads_valueMember {draft : FilterDraft} (hdraft : draft.q = none) {q : FilterValue}
    (hcount : q.toList.length < 2 ^ 64)
    (hvalues : ∀ value ∈ q.toList, (Text.toBytes value).length < 2 ^ 64) :
    Reads (readMember? draft (Text.toBytes "q")) (valueOctets q)
      { draft with q := some (some q) } := by
  have hfield := reads_field (fun _ => readOptional? readValue?)
    (fun _ => reads_optionalValue hcount hvalues) fun q => { draft with q }
  rw [← hdraft] at hfield
  exact hfield

/-! ### Maps of fields -/

section Members

variable {draft draft' final : FilterDraft} {name : Text} {octets more : Octets} {count : Nat}

theorem readsWithin_member (hname : (Text.toBytes name).length ≤ nameLimit)
    (hmember : Reads (readMember? draft (Text.toBytes name)) octets draft')
    (hmore : ReadsWithin count (fun fuel => readMembers? fuel (some count) draft') more final) :
    ReadsWithin (count + 1) (fun fuel => readMembers? fuel (some (count + 1)) draft)
      (textOctets name ++ octets ++ more) final := by
  have hitem := (reads_name hname).bind (readMember? draft) hmember
  have hne : textOctets name ++ octets ≠ [] :=
    List.append_ne_nil_of_left_ne_nil (textOctets_ne_nil (lt_of_le_nameLimit hname)) octets
  apply ReadsWithin.cons hitem hne (fun draft fuel => readMembers? fuel (some count) draft) hmore
  · intro s
    rfl
  · intro fuel s
    simp only [readMembers?, Option.bind_eq_bind, Option.bind_assoc]

/-- A field that a filter need not have: `set` is the draft by what is known of the field. -/
theorem readsWithin_optionalMember {value : Option α} {write : α → Octets}
    (set : Option (Option α) → FilterDraft) (hname : (Text.toBytes name).length ≤ nameLimit)
    (hmember : ∀ x, value = some x →
      Reads (readMember? (set none) (Text.toBytes name)) (write x) (set (some (some x))))
    (hmore : ReadsWithin count
      (fun fuel => readMembers? fuel (some count) (set (value.map some))) more final) :
    ReadsWithin (value.toList.length + count)
      (fun fuel => readMembers? fuel (some (value.toList.length + count)) (set none))
      (fieldOctets name value write ++ more) final := by
  cases value with
  | none =>
    rw [Option.toList_none, List.length_nil, Nat.zero_add]
    exact hmore
  | some x =>
    rw [Option.toList_some, List.length_singleton, Nat.add_comm]
    exact readsWithin_member hname (hmember x rfl) hmore

end Members

/-- The draft of a filter of which all fields have been read. -/
def draftOf (f : Filter) : FilterDraft :=
  ⟨some f.type, some f.context, f.op.map some, f.precision.map some, f.q.map some⟩

theorem withType_draftOf (f : Filter) : (draftOf f).withType f.type = f := by
  obtain ⟨kind, context, op, precision, q⟩ := f
  cases op <;> cases precision <;> cases q <;> rfl

/-- The octets of the fields of a filter, from the last field on. -/
def fieldsOctets (f : Filter) : Octets :=
  textOctets "type" ++ textOctets f.type.name ++ (textOctets "context"
    ++ textOctets f.context.name ++ (fieldOctets "op" f.op (fun op => textOctets op.name)
    ++ (fieldOctets "precision" f.precision (fun precision => textOctets precision.name)
    ++ (fieldOctets "q" f.q valueOctets ++ []))))

theorem filterOctets_eq (f : Filter) :
    filterOctets f = headOctets 5 (fieldCount f) ++ fieldsOctets f := by
  simp only [filterOctets, fieldsOctets, List.append_assoc, List.append_nil]

theorem readsWithin_fields {f : Filter} (hkind : ∃ name, f.type = .ofName name)
    (hfits : f.FitsHeads) :
    ReadsWithin (fieldCount f) (fun fuel => readMembers? fuel (some (fieldCount f)) {})
      (fieldsOctets f) (draftOf f) := by
  have hnames : ∀ name ∈ FilterDraft.fieldNames, (Text.toBytes name).length ≤ nameLimit := by
    decide
  simp only [FilterDraft.fieldNames, List.forall_mem_cons] at hnames
  obtain ⟨htype, hcontext, hop, hprecision, hvalue, -⟩ := hnames
  have hvalues : ∀ q, f.q = some q → q.toList.length < 2 ^ 64 ∧
      ∀ value ∈ q.toList, (Text.toBytes value).length < 2 ^ 64 := by
    intro q hq
    have hraw : f.rawValues = q.toList := by simp [Filter.rawValues, hq]
    exact hraw ▸ ⟨hfits.count, hfits.values⟩
  have hcount : fieldCount f = f.op.toList.length + (f.precision.toList.length +
      (f.q.toList.length + 0)) + 1 + 1 := by
    rw [fieldCount]
    omega
  rw [hcount]
  -- field by field, each from the draft that the fields before it have made
  apply readsWithin_member htype (reads_typeMember rfl hkind hfits.type)
  apply readsWithin_member hcontext (reads_contextMember rfl f.context)
  apply readsWithin_optionalMember (fun op => ⟨some f.type, some f.context, op, none, none⟩) hop
    fun op _ => reads_opMember rfl op
  apply readsWithin_optionalMember
    (fun precision => ⟨some f.type, some f.context, f.op.map some, precision, none⟩) hprecision
    fun precision _ => reads_precisionMember rfl precision
  apply readsWithin_optionalMember
    (fun q => ⟨some f.type, some f.context, f.op.map some, f.precision.map some, q⟩) hvalue
    fun q hq => reads_valueMember rfl (hvalues q hq).1 (hvalues q hq).2
  exact .nil fun _ _ => rfl

/-! ### Filters -/

theorem fieldCount_lt (f : Filter) : fieldCount f < 2 ^ 64 := by
  rw [fieldCount]
  cases f.op <;> cases f.precision <;> cases f.q <;> simp

theorem filterOctets_ne_nil (f : Filter) : filterOctets f ≠ [] := by
  rw [filterOctets_eq]
  exact List.append_ne_nil_of_left_ne_nil (headOctets_ne_nil 5 (fieldCount_lt f)) _

/-- **Filters.** A filter is read from its octets. -/
theorem reads_filter {f : Filter} (hkind : ∃ name, f.type = .ofName name) (hfits : f.FitsHeads) :
    Reads readFilter? (filterOctets f) f := by
  have hhead := reads_of_forall_fuel
    ((reads_mapHead (fieldCount_lt f)).untagged fun _ hn => by cases hn)
  have hfields := (readsWithin_fields hkind hfits).reads
  rw [filterOctets_eq]
  constructor
  · intro rest
    have hread := hhead.whole (fieldsOctets f ++ rest)
    have hmembers := hfields.whole rest
    simp only [readFilter?, List.append_assoc, hread, hmembers, Option.bind_eq_bind,
      Option.bind_some]
    exact congrArg (fun f => some (f, rest)) (withType_draftOf f)
  · intro part hpart hne
    rcases prefix_append_cases hpart hne with ⟨hpart, hne⟩ | ⟨tail, rfl, htail, hne⟩
    · have hread := hhead.cut hpart hne
      simp only [readFilter?, hread, Option.bind_eq_bind, Option.bind_none]
    · have hread := hhead.whole tail
      have hmembers := hfields.cut htail hne
      simp only [readFilter?, hread, hmembers, Option.bind_eq_bind, Option.bind_some,
        Option.bind_none]

/-! ### Lists of filters -/

/-- Lists of filters that can be written and read: each type has been read from its name, and each
length has a head. -/
structure IsWritable (filters : List Filter) : Prop where
  types : ∀ f ∈ filters, ∃ name, f.type = .ofName name
  count : filters.length < 2 ^ 64
  lengths : ∀ f ∈ filters, f.FitsHeads

theorem reads_filters {filters : List Filter} (h : IsWritable filters) :
    Reads (fun s => readFilters? (s.length + 1) (some filters.length) s)
      (filters.flatMap filterOctets) filters := by
  have hitem : ∀ f ∈ filters, Reads readFilter? (filterOctets f) f ∧ filterOctets f ≠ [] := by
    intro f hf
    exact ⟨reads_filter (h.types f hf) (h.lengths f hf), filterOctets_ne_nil f⟩
  exact (readsWithin_items readFilters? hitem (fun _ _ => rfl) (fun _ _ => rfl)
    fun _ _ _ => rfl).reads

theorem readList?_filtersOctets {filters : List Filter} (h : IsWritable filters) (fuel : Nat) :
    readList? (fuel + 1) (filtersOctets filters) = some filters := by
  have hhead := (reads_arrayHead h.count).whole (filters.flatMap filterOctets)
  have hbody := (reads_filters h).whole []
  rw [List.append_nil] at hbody
  simp only [readList?, filtersOctets, hhead, hbody, Option.map_some]

/-- **Octets that stop early** hold no list of filters. -/
theorem readList?_cut {filters : List Filter} (h : IsWritable filters) (fuel : Nat)
    {part : Octets} (hpart : part <+: filtersOctets filters) (hne : part ≠ filtersOctets filters) :
    readList? (fuel + 1) part = none := by
  have hhead := reads_arrayHead h.count
  rcases prefix_append_cases hpart hne with ⟨hpart, hne⟩ | ⟨tail, rfl, htail, hne⟩
  · rw [readList?, hhead.cut hpart hne]
  · simp only [readList?, hhead.whole tail, (reads_filters h).cut htail hne, Option.map_none]

end Wire

end FilterAlgebra
