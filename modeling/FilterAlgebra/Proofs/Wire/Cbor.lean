import FilterAlgebra.Wire.Cbor
import Mathlib.Algebra.Group.Nat.Defs

/-!
# Reading what was written

A reader fits what a writer made of a value (`Reads`) in two respects: it takes the value from its
octets, whatever stands behind them, and from a part of them that stops early it takes nothing. Both
are kept when one item is read behind another (`ReadsWithin.cons`), so a reader of a whole format
fits because the readers of its heads and strings do.
-/

namespace FilterAlgebra.Cbor

variable {α β : Type}

/-! ### Readers that fit -/

/-- A reader takes a value from its octets, whatever stands behind them, and nothing from a part of
them that stops early. -/
structure Reads (read? : Reader α) (octets : Octets) (value : α) : Prop where
  whole (rest : Octets) : read? (octets ++ rest) = some (value, rest)
  cut {part : Octets} (hpart : part <+: octets) (hne : part ≠ octets) : read? part = none

/-- What stops early stops in the first item, or behind it in the others. -/
theorem prefix_append_cases {part first more : Octets} (hpart : part <+: first ++ more)
    (hne : part ≠ first ++ more) :
    (part <+: first ∧ part ≠ first) ∨
      ∃ tail, part = first ++ tail ∧ tail <+: more ∧ tail ≠ more := by
  by_cases h : first <+: part
  · obtain ⟨tail, rfl⟩ := h
    refine .inr ⟨tail, rfl, (List.prefix_append_right_inj first).mp hpart, ?_⟩
    rintro rfl
    exact hne rfl
  · have hfirst := List.prefix_append first more
    rcases List.prefix_or_prefix_of_prefix hpart hfirst with hpart | hpart
    · refine .inl ⟨hpart, ?_⟩
      rintro rfl
      exact h List.prefix_rfl
    · exact absurd hpart h

namespace Reads

variable {read? : Reader α} {octets more : Octets} {value : α}

theorem bind {result : β} (h : Reads read? octets value) (next? : α → Reader β)
    (hnext : Reads (next? value) more result) :
    Reads (fun s => do let (x, s) ← read? s; next? x s) (octets ++ more) result where
  whole rest := by
    rw [List.append_assoc, h.whole]
    exact hnext.whole rest
  cut hpart hne := by
    rcases prefix_append_cases hpart hne with ⟨hpart, hne⟩ | ⟨tail, rfl, htail, hne⟩
    · rw [h.cut hpart hne]
      rfl
    · rw [h.whole]
      exact hnext.cut htail hne

theorem map (h : Reads read? octets value) (f : α → β) :
    Reads (fun s => (read? s).map fun (x, s) => (f x, s)) octets (f value) where
  whole rest := by
    rw [h.whole]
    rfl
  cut hpart hne := by
    rw [h.cut hpart hne]
    rfl

theorem map? {result : β} (h : Reads read? octets value) (f : α → Option β)
    (hresult : f value = some result) :
    Reads (fun s => (read? s).bind fun (x, s) => (f x).map fun y => (y, s)) octets result where
  whole rest := by
    simp only [h.whole, Option.bind_some, hresult, Option.map_some]
  cut hpart hne := by
    rw [h.cut hpart hne]
    rfl

/-- A reader that looks at the first head and then reads as another. -/
theorem of_head {head? : Reader α} {read? read'? : Reader β} {headOctets : Octets} {head : α}
    {value : β} (hhead : Reads head? headOctets head) (hoctets : headOctets <+: octets)
    (h : Reads read'? octets value) (hnone : ∀ s, head? s = none → read? s = none)
    (hsome : ∀ s rest, head? s = some (head, rest) → read? s = read'? s) :
    Reads read? octets value where
  whole rest := by
    obtain ⟨body, rfl⟩ := hoctets
    rw [← h.whole rest, List.append_assoc]
    exact hsome _ _ (hhead.whole _)
  cut {part} hpart hne := by
    obtain ⟨body, rfl⟩ := hoctets
    rcases prefix_append_cases hpart hne with ⟨hpart, hne⟩ | ⟨tail, rfl, -, -⟩
    · exact hnone _ (hhead.cut hpart hne)
    · rw [hsome _ _ (hhead.whole tail)]
      exact h.cut hpart hne

end Reads

/-! ### Readers with fuel -/

/-- A reader that fits with any fuel fits with one unit for each octet. -/
theorem reads_of_forall_fuel {read? : Nat → Reader α} {octets : Octets} {value : α}
    (h : ∀ fuel, Reads (read? (fuel + 1)) octets value) :
    Reads (fun s => read? (s.length + 1) s) octets value where
  whole rest := (h _).whole rest
  cut hpart hne := (h _).cut hpart hne

/-- A reader with fuel fits as soon as it has more fuel than it needs, for which an octet each is
enough. With less it takes nothing from a part that stops early either. -/
structure ReadsWithin (need : Nat) (read? : Nat → Reader α) (octets : Octets) (value : α) :
    Prop where
  enough : need ≤ octets.length
  whole {fuel : Nat} (hfuel : need < fuel) (rest : Octets) :
    read? fuel (octets ++ rest) = some (value, rest)
  cut (fuel : Nat) {part : Octets} (hpart : part <+: octets) (hne : part ≠ octets) :
    read? fuel part = none

namespace ReadsWithin

variable {read? : Nat → Reader α} {octets more : Octets} {value : α} {need : Nat}

theorem reads (h : ReadsWithin need read? octets value) :
    Reads (fun s => read? (s.length + 1) s) octets value where
  whole rest := by
    have henough := h.enough
    exact h.whole (by rw [List.length_append]; omega) rest
  cut hpart hne := h.cut _ hpart hne

theorem nil (h : ∀ fuel s, read? (fuel + 1) s = some (value, s)) :
    ReadsWithin 0 read? [] value where
  enough := Nat.zero_le _
  whole {fuel} hfuel rest := by
    obtain ⟨fuel, rfl⟩ := Nat.exists_eq_add_of_lt hfuel
    exact h _ rest
  cut _ _ hpart hne := absurd (List.prefix_nil.mp hpart) hne

/-- One item, and then the others with less fuel. -/
theorem cons {item? : Reader β} {item : β} (hitem : Reads item? octets item)
    (hoctets : octets ≠ []) (next? : β → Nat → Reader α)
    (hnext : ReadsWithin need (next? item) more value) (hzero : ∀ s, read? 0 s = none)
    (hsucc : ∀ fuel s, read? (fuel + 1) s = do let (x, s) ← item? s; next? x fuel s) :
    ReadsWithin (need + 1) read? (octets ++ more) value where
  enough := by
    have hpos := List.length_pos_iff.mpr hoctets
    have henough := hnext.enough
    rw [List.length_append]
    omega
  whole {fuel} hfuel rest := by
    obtain ⟨fuel, rfl⟩ : ∃ n, fuel = n + 1 := ⟨fuel - 1, by omega⟩
    rw [hsucc, List.append_assoc, hitem.whole]
    exact hnext.whole (by omega) rest
  cut fuel part hpart hne := by
    cases fuel with
    | zero => exact hzero part
    | succ fuel =>
      rw [hsucc]
      rcases prefix_append_cases hpart hne with ⟨hpart, hne⟩ | ⟨tail, rfl, htail, hne⟩
      · -- the part stops within the item
        rw [hitem.cut hpart hne]
        rfl
      · -- the part has the item, and stops in the others
        rw [hitem.whole]
        exact hnext.cut fuel htail hne

end ReadsWithin

theorem readsWithin_items (items? : Nat → Option Nat → Reader (List α)) {item? : Reader α}
    {octets : α → Octets} {xs : List α}
    (hitem : ∀ x ∈ xs, Reads item? (octets x) x ∧ octets x ≠ [])
    (hzero : ∀ count s, items? 0 count s = none)
    (hnil : ∀ fuel s, items? (fuel + 1) (some 0) s = some ([], s))
    (hcons : ∀ fuel count s, items? (fuel + 1) (some (count + 1)) s = do
      let (x, s) ← item? s
      let (xs, s) ← items? fuel (some count) s
      return (x :: xs, s)) :
    ReadsWithin xs.length (fun fuel => items? fuel (some xs.length)) (xs.flatMap octets) xs := by
  induction xs with
  | nil => exact .nil hnil
  | cons x xs ih =>
    have hrest := ih fun y hy => hitem y (List.mem_cons_of_mem x hy)
    obtain ⟨hx, hne⟩ := hitem x List.mem_cons_self
    let next? (x : α) (fuel : Nat) : Reader (List α) := fun s => do
      let (xs, s) ← items? fuel (some xs.length) s
      return (x :: xs, s)
    have hnext : ReadsWithin xs.length (next? x) (xs.flatMap octets) (x :: xs) :=
      { enough := hrest.enough
        whole := fun hfuel rest => by
          simp only [next?, hrest.whole hfuel]
          rfl
        cut := fun fuel part hpart hne => by
          simp only [next?, hrest.cut fuel hpart hne]
          rfl }
    exact .cons hx hne next? hnext (hzero _) fun fuel s => hcons fuel xs.length s

/-! ### Heads -/

theorem length_bigEndianOctets (count n : Nat) : (bigEndianOctets count n).length = count := by
  induction count generalizing n with
  | zero => rfl
  | succ count ih => rw [bigEndianOctets, List.length_append, ih, List.length_singleton]

theorem bigEndian_bigEndianOctets {count n : Nat} (h : n < 256 ^ count) :
    bigEndian (bigEndianOctets count n) = n := by
  induction count generalizing n with
  | zero =>
    rw [Nat.pow_zero] at h
    have hzero : n = 0 := by omega
    rw [hzero]
    rfl
  | succ count ih =>
    rw [Nat.pow_succ] at h
    have hquotient : n / 256 < 256 ^ count := Nat.div_lt_of_lt_mul (by omega)
    have hih := ih hquotient
    rw [bigEndian] at hih ⊢
    rw [bigEndianOctets, List.foldl_append, hih, List.foldl_cons, List.foldl_nil,
      UInt8.toNat_ofNat']
    omega

/-- The shortest head is one octet with the major type and some low bits, and behind it the octets
of the argument where the low bits do not hold it. -/
theorem exists_headOctets_eq (major : Nat) {n : Nat} (hn : n < 2 ^ 64) :
    ∃ low argument, low < 28 ∧ argumentWidth? low = some argument.length ∧
      (if low < 24 then low else bigEndian argument) = n ∧
      headOctets major n = .ofNat (32 * major + low) :: argument := by
  unfold headOctets
  split
  · next h => exact ⟨n, [], by omega, by simp [argumentWidth?, h], by simp [h], rfl⟩
  · split
    · next h =>
      exact ⟨24, bigEndianOctets 1 n, by omega, by rw [length_bigEndianOctets]; rfl,
        bigEndian_bigEndianOctets h, rfl⟩
    · split
      · next h =>
        exact ⟨25, bigEndianOctets 2 n, by omega, by rw [length_bigEndianOctets]; rfl,
          bigEndian_bigEndianOctets h, rfl⟩
      · split
        · next h =>
          exact ⟨26, bigEndianOctets 4 n, by omega, by rw [length_bigEndianOctets]; rfl,
            bigEndian_bigEndianOctets h, rfl⟩
        · exact ⟨27, bigEndianOctets 8 n, by omega, by rw [length_bigEndianOctets]; rfl,
            bigEndian_bigEndianOctets hn, rfl⟩

theorem headOctets_ne_nil (major : Nat) {n : Nat} (hn : n < 2 ^ 64) : headOctets major n ≠ [] := by
  obtain ⟨low, argument, -, -, -, heq⟩ := exists_headOctets_eq major hn
  rw [heq]
  exact List.cons_ne_nil _ _

theorem reads_octets (octets : Octets) : Reads (readOctets? octets.length) octets octets where
  whole rest := by simp [readOctets?]
  cut {part} hpart hne := by
    have hle := hpart.length_le
    have hlength : part.length ≠ octets.length := fun heq => hne (hpart.eq_of_length heq)
    rw [readOctets?, if_neg (by omega)]

/-- **Heads.** The shortest head is read with the argument it was written for. -/
theorem reads_head {major n : Nat} {head : Head} (hmajor : major < 8) (hn : n < 2 ^ 64)
    (hhead : ∀ low argument, (if low < 24 then low else bigEndian argument) = n →
      headOf? major low argument = some head) :
    Reads readHead? (headOctets major n) head := by
  obtain ⟨low, argument, hlow, hwidth, hvalue, heq⟩ := exists_headOctets_eq major hn
  have hfirst : (UInt8.ofNat (32 * major + low)).toNat = 32 * major + low := by
    rw [UInt8.toNat_ofNat']
    omega
  have hread : ∀ s, readHead? (.ofNat (32 * major + low) :: s) =
      (readOctets? argument.length s).bind fun read =>
        (headOf? major low read.1).map fun head => (head, read.2) := by
    intro s
    have hmajor : (32 * major + low) / 32 = major := by omega
    have hlow : (32 * major + low) % 32 = low := by omega
    simp only [readHead?, hfirst, hmajor, hlow, hwidth, if_neg (by omega : ¬low = 31),
      Option.bind_eq_bind, Option.bind_some, Option.map_eq_bind]
    rfl
  have hargument := reads_octets argument
  rw [heq]
  constructor
  · intro rest
    rw [List.cons_append, hread, hargument.whole, Option.bind_some]
    simp only [hhead low argument hvalue, Option.map_some]
  · intro part hpart hne
    rcases part with - | ⟨first, part⟩
    · rfl
    · -- the first octet tells how long the argument is, so a shorter one is missed
      obtain ⟨rfl, htail⟩ := List.cons_prefix_cons.mp hpart
      rw [hread, hargument.cut htail fun heq => hne (by rw [heq])]
      rfl

theorem reads_textHead {n : Nat} (hn : n < 2 ^ 64) :
    Reads readHead? (headOctets 3 n) (.text (some n)) :=
  reads_head (by decide) hn fun low argument h => by rw [← h]; rfl

theorem reads_arrayHead {n : Nat} (hn : n < 2 ^ 64) :
    Reads readHead? (headOctets 4 n) (.array (some n)) :=
  reads_head (by decide) hn fun low argument h => by rw [← h]; rfl

theorem reads_mapHead {n : Nat} (hn : n < 2 ^ 64) :
    Reads readHead? (headOctets 5 n) (.map (some n)) :=
  reads_head (by decide) hn fun low argument h => by rw [← h]; rfl

/-- A head that is no tag may be read as one behind tags. -/
theorem Reads.untagged {octets : Octets} {head : Head} (h : Reads readHead? octets head)
    (htag : ∀ n, head ≠ .tag n) (fuel : Nat) : Reads (readUntagged? (fuel + 1)) octets head := by
  refine h.of_head List.prefix_rfl h (fun s hs => ?_) fun s rest hs => ?_
  · rw [readUntagged?, hs]
  · rw [readUntagged?, hs]
    cases head with
    | tag n => exact absurd rfl (htag n)
    | _ => rfl

/-! ### Strings -/

theorem isText_toBytes (s : Text) : isText (Text.toBytes s) = true := by
  rw [isText, Text.ofBytes?_toBytes]
  rfl

theorem headOctets_prefix_textOctets (s : Text) :
    headOctets 3 (Text.toBytes s).length <+: textOctets s := List.prefix_append _ _

/-- A reader that makes something of the octets of a text string. -/
theorem reads_textOctets {read? : Reader α} {s : Text} {value : α} (f : Octets → Option α)
    (hs : (Text.toBytes s).length < 2 ^ 64) (hvalue : f (Text.toBytes s) = some value)
    (hnone : ∀ t, readHead? t = none → read? t = none)
    (hsome : ∀ t rest, readHead? t = some (.text (some (Text.toBytes s).length), rest) →
      read? t = (readOctets? (Text.toBytes s).length rest).bind fun (octets, rest) =>
        (f octets).map fun x => (x, rest)) :
    Reads read? (textOctets s) value := by
  have hbody := (reads_octets (Text.toBytes s)).map? f hvalue
  have hhead := reads_textHead hs
  refine hhead.of_head (headOctets_prefix_textOctets s) (hhead.bind (fun _ => _) hbody)
    hnone fun t rest ht => ?_
  rw [hsome t rest ht, ht]
  rfl

theorem textOctets_ne_nil {s : Text} (hs : (Text.toBytes s).length < 2 ^ 64) :
    textOctets s ≠ [] :=
  List.append_ne_nil_of_left_ne_nil (headOctets_ne_nil 3 hs) _

theorem readText?_eq_none {s : Octets} (h : readHead? s = none) : readText? s = none := by
  simp only [readText?, readParts?, h]
  rfl

/-- **Texts.** A text string is read as the text it was written for. -/
theorem reads_text {s : Text} (hs : (Text.toBytes s).length < 2 ^ 64) :
    Reads readText? (textOctets s) s := by
  refine reads_textOctets Text.ofBytes? hs (Text.ofBytes?_toBytes s)
    (fun t => readText?_eq_none) ?_
  · intro t rest ht
    simp only [readText?, readParts?, ht, reduceCtorEq, if_false, textLength?, isText]
    cases readOctets? (Text.toBytes s).length rest with
    | none => rfl
    | some result =>
      obtain ⟨part, rest⟩ := result
      cases hpart : Text.ofBytes? part with
      | none => simp [hpart]
      | some text => simp [hpart]

theorem lt_of_le_nameLimit {n : Nat} (h : n ≤ nameLimit) : n < 2 ^ 64 :=
  Nat.lt_of_le_of_lt h (by decide)

/-- **Names.** A text string that is short enough is read as the name it was written for. -/
theorem reads_name {s : Text} (hs : (Text.toBytes s).length ≤ nameLimit) :
    Reads readName? (textOctets s) (Text.toBytes s) := by
  refine reads_textOctets
    (fun name => if (Text.toBytes s).length ≤ nameLimit ∧ isText name then some name else none)
    (lt_of_le_nameLimit hs) (if_pos ⟨hs, isText_toBytes s⟩) ?_ ?_
  · intro t ht
    simp only [readName?, readUntagged?, ht]
    rfl
  · intro t rest ht
    simp only [readName?, readUntagged?, ht, Option.bind_eq_bind, Option.bind_some]
    cases readOctets? (Text.toBytes s).length rest with
    | none => rfl
    | some result =>
      obtain ⟨name, rest⟩ := result
      simp only [Option.bind_some]
      split <;> rfl

end FilterAlgebra.Cbor
