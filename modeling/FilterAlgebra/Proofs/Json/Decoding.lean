import FilterAlgebra.Json.Decoding
import FilterAlgebra.Proofs.Collected

/-!
# Laws of decoding

What the decoders of values, fields and structures share. A structure is decoded one member or item
after the other, so the decoding of a list can be cut anywhere (`members_append`), and what each
member keeps is kept by all of them (`members_keep`).
-/

namespace FilterAlgebra.Json

section Field

variable {α : Type} {name : Text} {seen : Option α} {decode : Reading → Decoded α}
  {reading : Reading}

/-! ### Options -/

theorem decodeOption_eq_map (h : reading ≠ .null) :
    decodeOption decode reading = (decode reading).map some := by
  unfold decodeOption
  split
  · exact absurd rfl h
  · rfl

theorem decodeOption_eq_ok {value : α} (hreading : reading ≠ .null)
    (h : decode reading = .ok value) : decodeOption decode reading = .ok (some value) := by
  rw [decodeOption_eq_map hreading, h]
  rfl

theorem exists_of_decodeOption {value : α} (h : decodeOption decode reading = .ok (some value)) :
    decode reading = .ok value := by
  by_cases hreading : reading = .null
  · subst hreading
    cases h
  · rw [decodeOption_eq_map hreading] at h
    obtain ⟨value', hvalue, hsome⟩ := map_eq_ok_iff.mp h
    cases hsome
    exact hvalue

/-! ### Fields -/

theorem decodeField_eq_ok {value : α} (hseen : seen = none) (h : decode reading = .ok value) :
    decodeField name seen decode reading = .ok (some value) := by
  rw [hseen]
  change (decode reading).map some = _
  rw [h]
  rfl

theorem exists_of_decodeField {x : Option α} (h : decodeField name seen decode reading = .ok x) :
    ∃ value, x = some value ∧ decode reading = .ok value := by
  unfold decodeField at h
  split at h
  · cases h
  · obtain ⟨value, hvalue, rfl⟩ := map_eq_ok_iff.mp h
    exact ⟨value, rfl, hvalue⟩

theorem eq_some_of_required {value : α} (h : required name seen = .ok value) :
    seen = some value := by
  cases seen with
  | none => cases h
  | some x =>
    cases h
    rfl

end Field

/-! ### Structures -/

namespace StructureDecoder

variable {σ α : Type} (decoder : StructureDecoder σ α)

theorem members_append (state : σ) (members others : List (Text × Reading)) :
    decoder.members state (members ++ others) =
      decoder.members state members >>= fun state => decoder.members state others := by
  induction members generalizing state with
  | nil => rfl
  | cons member members ih =>
    change decoder.member state member.1 member.2 >>= _ =
      (decoder.member state member.1 member.2 >>= _) >>= _
    rw [bind_assoc]
    exact congrArg _ (funext fun state => ih state)

theorem items_append (index : Nat) (state : σ) (items others : List Reading) :
    decoder.items index state (items ++ others) =
      decoder.items index state items >>= fun state =>
        decoder.items (index + items.length) state others := by
  induction items generalizing index state with
  | nil => rfl
  | cons item items ih =>
    change decoder.position index state item >>= _ =
      (decoder.position index state item >>= _) >>= _
    rw [bind_assoc]
    refine congrArg _ (funext fun state => (ih (index + 1) state).trans ?_)
    rw [List.length_cons, Nat.add_right_comm, Nat.add_assoc]

variable {decoder} {P : σ → Prop} {state state' : σ}

/-- What each member keeps is kept by all of them. -/
theorem members_keep {members : List (Text × Reading)} (hstate : P state)
    (hmember : ∀ member ∈ members, ∀ state state', P state →
      decoder.member state member.1 member.2 = .ok state' → P state')
    (h : decoder.members state members = .ok state') : P state' := by
  induction members generalizing state with
  | nil =>
    cases h
    exact hstate
  | cons member members ih =>
    rw [List.forall_mem_cons] at hmember
    obtain ⟨next, hnext, h⟩ := bind_eq_ok_iff.mp h
    exact ih (hmember.1 state next hstate hnext) hmember.2 h

/-- What each item keeps is kept by all of them. -/
theorem items_keep {index : Nat} {items : List Reading} (hstate : P state)
    (hitem : ∀ item ∈ items, ∀ index state state', P state →
      decoder.position index state item = .ok state' → P state')
    (h : decoder.items index state items = .ok state') : P state' := by
  induction items generalizing index state with
  | nil =>
    cases h
    exact hstate
  | cons item items ih =>
    rw [List.forall_mem_cons] at hitem
    obtain ⟨next, hnext, h⟩ := bind_eq_ok_iff.mp h
    exact ih (hitem.1 index state next hstate hnext) hitem.2 h

end StructureDecoder

end FilterAlgebra.Json
