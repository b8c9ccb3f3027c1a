import FilterAlgebra.Text.Blank
import FilterAlgebra.Wire.Base64

/-!
# Base64 texts and their beginnings

An encoded text is a list of symbols, one for each number below sixty-four that the octets are cut
into. Decoding is therefore described on numbers (`sextets`). The whole text gives the octets back.
A text that stops early gives an octet for each eight bits that are left of it, if it gives any, so
it never gives all of the octets (`decode_cut`).
-/

namespace FilterAlgebra.Base64

/-! ### Symbols -/

/-- The characters of the alphabet. -/
def isSymbol (c : Char) : Bool := c.isAlphanum || c = '-' || c = '_'

/-- The octet of the symbol for a number. -/
def symbolOctet (n : Nat) : UInt8 := .ofNat (symbol n).toNat

theorem isSymbol_symbol {n : Nat} (h : n < 64) : isSymbol (symbol n) = true := by
  revert n
  decide

theorem isBlank_symbol {n : Nat} (h : n < 64) : isBlank (symbol n) = false := by
  revert n
  decide

theorem utf8EncodeChar_symbol {n : Nat} (h : n < 64) :
    String.utf8EncodeChar (symbol n) = [symbolOctet n] := by
  revert n
  decide

theorem symbolOctet_ne_padding {n : Nat} (h : n < 64) : symbolOctet n ≠ padding := by
  revert n
  decide

theorem toBytes_map_symbol {numbers : List Nat} (h : ∀ n ∈ numbers, n < 64) :
    Text.toBytes (numbers.map symbol) = numbers.map symbolOctet := by
  induction numbers with
  | nil => rfl
  | cons n numbers ih =>
    have hn := utf8EncodeChar_symbol (h n List.mem_cons_self)
    have hrest := ih fun m hm => h m (List.mem_cons_of_mem n hm)
    rw [Text.toBytes] at hrest ⊢
    rw [List.map_cons, List.flatMap_cons, hn, hrest]
    rfl

/-! ### The numbers of octets -/

/-- The numbers below sixty-four that octets are cut into. -/
def sextets : List UInt8 → List Nat
  | a :: b :: c :: rest =>
    a.toNat / 4 :: (a.toNat % 4 * 16 + b.toNat / 16) :: (b.toNat % 16 * 4 + c.toNat / 64)
      :: c.toNat % 64 :: sextets rest
  | [a, b] => [a.toNat / 4, a.toNat % 4 * 16 + b.toNat / 16, b.toNat % 16 * 4]
  | [a] => [a.toNat / 4, a.toNat % 4 * 16]
  | [] => []

theorem encode_eq (octets : List UInt8) : encode octets = (sextets octets).map symbol := by
  induction octets using sextets.induct with
  | case1 a b c rest ih => simp only [encode, sextets, List.map_cons, ih]
  | case2 a b => rfl
  | case3 a => rfl
  | case4 => rfl

theorem lt_of_mem_sextets {octets : List UInt8} : ∀ n ∈ sextets octets, n < 64 := by
  induction octets using sextets.induct with
  | case1 a b c rest ih =>
    have ha := a.toNat_lt
    have hb := b.toNat_lt
    have hc := c.toNat_lt
    simp only [sextets, List.forall_mem_cons]
    exact ⟨by omega, by omega, by omega, by omega, ih⟩
  | case2 a b =>
    have ha := a.toNat_lt
    have hb := b.toNat_lt
    simp only [sextets, List.forall_mem_cons, List.not_mem_nil, false_imp_iff, implies_true]
    exact ⟨by omega, by omega, by omega, trivial⟩
  | case3 a =>
    have ha := a.toNat_lt
    simp only [sextets, List.forall_mem_cons, List.not_mem_nil, false_imp_iff, implies_true]
    exact ⟨by omega, by omega, trivial⟩
  | case4 => simp [sextets]

theorem isSymbol_of_mem_encode {octets : List UInt8} {c : Char} (h : c ∈ encode octets) :
    isSymbol c = true := by
  rw [encode_eq, List.mem_map] at h
  obtain ⟨n, hn, rfl⟩ := h
  exact isSymbol_symbol (lt_of_mem_sextets n hn)

theorem isBlank_of_mem_encode {octets : List UInt8} {c : Char} (h : c ∈ encode octets) :
    isBlank c = false := by
  rw [encode_eq, List.mem_map] at h
  obtain ⟨n, hn, rfl⟩ := h
  exact isBlank_symbol (lt_of_mem_sextets n hn)

/-! ### Decoding numbers -/

theorem valueAt_symbolOctet {n : Nat} (h : n < 64) (offset : Nat) :
    valueAt offset (symbolOctet n) = .ok n := by
  rw [valueAt, symbolOctet, value?_symbol h]

theorem lastValues_map_symbolOctet {numbers : List Nat} (h : ∀ n ∈ numbers, n < 64)
    (start index : Nat) :
    lastValues start index none (numbers.map symbolOctet) = .ok (numbers, false) := by
  induction numbers generalizing index with
  | nil => rfl
  | cons n numbers ih =>
    have hn := h n List.mem_cons_self
    have hrest := ih (fun m hm => h m (List.mem_cons_of_mem n hm)) (index + 1)
    simp only [List.map_cons, lastValues, symbolOctet_ne_padding hn, if_false,
      valueAt_symbolOctet hn, hrest]
    rfl

theorem decodeFrom_group {a b c d : Nat} (ha : a < 64) (hb : b < 64) (hc : c < 64) (hd : d < 64)
    (start : Nat) (rest : List UInt8) :
    decodeFrom start
        (symbolOctet a :: symbolOctet b :: symbolOctet c :: symbolOctet d :: rest) =
      (decodeFrom (start + 4) rest).map (groupOctets a b c d ++ ·) := by
  cases rest with
  | nil =>
    have hlast : ∀ n ∈ [a, b, c, d], n < 64 := by simp [ha, hb, hc, hd]
    have hvalues := lastValues_map_symbolOctet hlast start 0
    simp only [List.map_cons, List.map_nil] at hvalues
    simp only [decodeFrom, decodeLast, hvalues]
    rfl
  | cons e rest =>
    simp only [decodeFrom, valueAt_symbolOctet ha, valueAt_symbolOctet hb, valueAt_symbolOctet hc,
      valueAt_symbolOctet hd]
    cases decodeFrom (start + 4) (e :: rest) <;> rfl

/-- The first octet of a group depends on its first two numbers. -/
def firstOctet (a b : Nat) : UInt8 := .ofNat (a * 4 + b / 16)

/-- The second octet of a group depends on its second and third number. -/
def secondOctet (b c : Nat) : UInt8 := .ofNat (b % 16 * 16 + c / 4)

theorem decodeFrom_two {a b : Nat} (ha : a < 64) (hb : b < 64) (start : Nat) :
    decodeFrom start [symbolOctet a, symbolOctet b] =
      if b % 16 = 0 then .ok [firstOctet a b]
      else .error (.lastSymbol (symbolOctet b) (start + 1)) := by
  have hlast : ∀ n ∈ [a, b], n < 64 := by simp [ha, hb]
  have hvalues := lastValues_map_symbolOctet hlast start 0
  simp only [List.map_cons, List.map_nil] at hvalues
  simp only [decodeFrom, decodeLast, hvalues]
  rfl

theorem decodeFrom_three {a b c : Nat} (ha : a < 64) (hb : b < 64) (hc : c < 64) (start : Nat) :
    decodeFrom start [symbolOctet a, symbolOctet b, symbolOctet c] =
      if c % 4 = 0 then .ok [firstOctet a b, secondOctet b c]
      else .error (.lastSymbol (symbolOctet c) (start + 2)) := by
  have hlast : ∀ n ∈ [a, b, c], n < 64 := by simp [ha, hb, hc]
  have hvalues := lastValues_map_symbolOctet hlast start 0
  simp only [List.map_cons, List.map_nil] at hvalues
  simp only [decodeFrom, decodeLast, hvalues]
  rfl

/-- A short group gives an octet less than it has numbers, if it gives any. -/
theorem eq_of_decodeFrom_short {numbers : List Nat} {found : List UInt8} {start : Nat}
    (h : ∀ n ∈ numbers, n < 64) (hlength : numbers.length < 4)
    (hfound : decodeFrom start (numbers.map symbolOctet) = .ok found) :
    found = [] ∨ (∃ a b, numbers = [a, b] ∧ found = [firstOctet a b]) ∨
      ∃ a b c, numbers = [a, b, c] ∧ found = [firstOctet a b, secondOctet b c] := by
  rcases numbers with - | ⟨a, - | ⟨b, - | ⟨c, - | ⟨d, more⟩⟩⟩⟩
  · cases hfound
    exact .inl rfl
  · -- a single number does not make an octet
    have hvalues := lastValues_map_symbolOctet h start 0
    simp only [List.map_cons, List.map_nil] at hvalues hfound
    simp only [decodeFrom, decodeLast, hvalues] at hfound
    cases hfound
  · -- two numbers hold an octet and four bits, which have to be zero
    simp only [List.forall_mem_cons] at h
    simp only [List.map_cons, List.map_nil, decodeFrom_two h.1 h.2.1] at hfound
    split at hfound
    · cases hfound
      exact .inr (.inl ⟨a, b, rfl, rfl⟩)
    · cases hfound
  · -- three hold two octets and two bits
    simp only [List.forall_mem_cons] at h
    simp only [List.map_cons, List.map_nil, decodeFrom_three h.1 h.2.1 h.2.2.1] at hfound
    split at hfound
    · cases hfound
      exact .inr (.inr ⟨a, b, c, rfl, rfl⟩)
    · cases hfound
  · simp only [List.length_cons] at hlength
    omega

/-! ### Octets from their numbers -/

theorem firstOctet_eq (a : UInt8) {m : Nat} (hm : m < 16) :
    firstOctet (a.toNat / 4) (a.toNat % 4 * 16 + m) = a := by
  have hvalue : a.toNat / 4 * 4 + (a.toNat % 4 * 16 + m) / 16 = a.toNat := by omega
  rw [firstOctet, hvalue, UInt8.ofNat_toNat]

theorem secondOctet_eq (b : UInt8) (m : Nat) {k : Nat} (hk : k < 4) :
    secondOctet (m * 16 + b.toNat / 16) (b.toNat % 16 * 4 + k) = b := by
  have hb := b.toNat_lt
  have hvalue : (m * 16 + b.toNat / 16) % 16 * 16 + (b.toNat % 16 * 4 + k) / 4 = b.toNat := by
    omega
  rw [secondOctet, hvalue, UInt8.ofNat_toNat]

theorem groupOctets_sextets (a b c : UInt8) :
    groupOctets (a.toNat / 4) (a.toNat % 4 * 16 + b.toNat / 16) (b.toNat % 16 * 4 + c.toNat / 64)
      (c.toNat % 64) = [a, b, c] := by
  have hb := b.toNat_lt
  have hc := c.toNat_lt
  have hfirst := firstOctet_eq a (m := b.toNat / 16) (by omega)
  have hsecond := secondOctet_eq b (a.toNat % 4) (k := c.toNat / 64) (by omega)
  have hthird : (b.toNat % 16 * 4 + c.toNat / 64) % 4 * 64 + c.toNat % 64 = c.toNat := by omega
  rw [firstOctet] at hfirst
  rw [secondOctet] at hsecond
  rw [groupOctets, hfirst, hsecond, hthird, UInt8.ofNat_toNat]

theorem decodeFrom_sextets (octets : List UInt8) (start : Nat) :
    decodeFrom start ((sextets octets).map symbolOctet) = .ok octets := by
  have hlt := @lt_of_mem_sextets octets
  induction octets using sextets.induct generalizing start with
  | case1 a b c rest ih =>
    -- three octets are four numbers
    simp only [sextets, List.forall_mem_cons] at hlt
    obtain ⟨ha, hb, hc, hd, hrest⟩ := hlt
    simp only [sextets, List.map_cons]
    rw [decodeFrom_group ha hb hc hd, ih _ hrest, groupOctets_sextets]
    rfl
  | case2 a b =>
    -- two octets are three numbers, the last of them shifted
    simp only [sextets, List.forall_mem_cons] at hlt
    obtain ⟨ha, hb, hc, -⟩ := hlt
    have hlast := b.toNat_lt
    have hsecond := secondOctet_eq b (a.toNat % 4) (k := 0) (by omega)
    rw [Nat.add_zero] at hsecond
    simp only [sextets, List.map_cons, List.map_nil]
    rw [decodeFrom_three ha hb hc, if_pos (by omega), firstOctet_eq a (by omega), hsecond]
  | case3 a =>
    -- one octet is two numbers
    simp only [sextets, List.forall_mem_cons] at hlt
    have hfirst := firstOctet_eq a (m := 0) (by omega)
    rw [Nat.add_zero] at hfirst
    simp only [sextets, List.map_cons, List.map_nil]
    rw [decodeFrom_two hlt.1 hlt.2.1, if_pos (by omega), hfirst]
  | case4 => rfl

/-- **Numbers that stop early.** If they can be decoded at all, some octets are missing at the
end. -/
theorem decodeFrom_cut {octets found : List UInt8} {numbers : List Nat} {start : Nat}
    (hpart : numbers <+: sextets octets) (hne : numbers ≠ sextets octets)
    (hfound : decodeFrom start (numbers.map symbolOctet) = .ok found) :
    found <+: octets ∧ found ≠ octets := by
  have hlt : ∀ n ∈ numbers, n < 64 := fun n hn => lt_of_mem_sextets n (hpart.subset hn)
  induction octets using sextets.induct generalizing numbers start found with
  | case1 a b c rest ih =>
    have hb := b.toNat_lt
    have hc := c.toNat_lt
    by_cases hlength : numbers.length < 4
    · -- the text stops inside the first group
      rcases eq_of_decodeFrom_short hlt hlength hfound with
        rfl | ⟨n₀, n₁, rfl, rfl⟩ | ⟨n₀, n₁, n₂, rfl, rfl⟩
      · simp
      · simp only [sextets, List.cons_prefix_cons] at hpart
        obtain ⟨rfl, rfl, -⟩ := hpart
        rw [firstOctet_eq a (by omega)]
        simp
      · simp only [sextets, List.cons_prefix_cons] at hpart
        obtain ⟨rfl, rfl, rfl, -⟩ := hpart
        rw [firstOctet_eq a (by omega), secondOctet_eq b _ (by omega)]
        simp
    · rcases numbers with - | ⟨n₀, - | ⟨n₁, - | ⟨n₂, - | ⟨n₃, more⟩⟩⟩⟩
      case cons.cons.cons.cons =>
        simp only [sextets, List.cons_prefix_cons] at hpart
        obtain ⟨rfl, rfl, rfl, rfl, hmore⟩ := hpart
        simp only [List.forall_mem_cons] at hlt
        obtain ⟨ha, hb, hc, hd, hlt⟩ := hlt
        simp only [List.map_cons] at hfound
        rw [decodeFrom_group ha hb hc hd, groupOctets_sextets] at hfound
        cases hrest : decodeFrom (start + 4) (more.map symbolOctet) with
        | error e =>
          rw [hrest] at hfound
          cases hfound
        | ok found' =>
          rw [hrest] at hfound
          cases hfound
          have hne' : more ≠ sextets rest := fun heq => hne (by rw [heq, sextets])
          obtain ⟨hbegins, hproper⟩ := ih hmore hne' hrest hlt
          simpa using ⟨hbegins, hproper⟩
      all_goals exact absurd (by simp) hlength
  | case2 a b =>
    have hb := b.toNat_lt
    have hlength : numbers.length < 4 := by
      have hle := hpart.length_le
      simp only [sextets, List.length_cons, List.length_nil] at hle
      omega
    rcases eq_of_decodeFrom_short hlt hlength hfound with
      rfl | ⟨n₀, n₁, rfl, rfl⟩ | ⟨n₀, n₁, n₂, rfl, rfl⟩
    · simp
    · simp only [sextets, List.cons_prefix_cons] at hpart
      obtain ⟨rfl, rfl, -⟩ := hpart
      rw [firstOctet_eq a (by omega)]
      simp
    · exact absurd (hpart.eq_of_length (by simp [sextets])) hne
  | case3 a =>
    have hlength : numbers.length ≤ 2 := by
      have hle := hpart.length_le
      simpa only [sextets, List.length_cons, List.length_nil] using hle
    rcases eq_of_decodeFrom_short hlt (by omega) hfound with
      rfl | ⟨n₀, n₁, rfl, rfl⟩ | ⟨n₀, n₁, n₂, rfl, rfl⟩
    · simp
    · exact absurd (hpart.eq_of_length (by simp [sextets])) hne
    · simp only [List.length_cons, List.length_nil] at hlength
      omega
  | case4 => exact absurd (List.prefix_nil.mp hpart) hne

/-! ### Decoding texts -/

/-- A text of symbols has no last octet that has to be reported first. -/
theorem decode_map_symbolOctet {numbers : List Nat} (h : ∀ n ∈ numbers, n < 64) :
    decode (numbers.map symbolOctet) = decodeFrom 0 (numbers.map symbolOctet) := by
  have hlast : (numbers.map symbolOctet).getLast?.getD padding = padding ∨
      value? ((numbers.map symbolOctet).getLast?.getD padding) ≠ none := by
    rcases numbers.eq_nil_or_concat with rfl | ⟨front, n, rfl⟩
    · exact .inl rfl
    · have hvalue := value?_symbol (h n (by simp))
      right
      simp only [List.concat_eq_append, List.map_append, List.map_singleton,
        List.getLast?_concat, Option.getD_some, symbolOctet, hvalue]
      simp
  rw [decode]
  refine if_neg ?_
  rintro ⟨-, hpadding, hnone⟩
  rcases hlast with h | h
  · exact hpadding h
  · exact h hnone

theorem decode_encode (octets : List UInt8) :
    decode (Text.toBytes (encode octets)) = .ok octets := by
  rw [encode_eq, toBytes_map_symbol lt_of_mem_sextets, decode_map_symbolOctet lt_of_mem_sextets,
    decodeFrom_sextets]

/-- **Texts that stop early.** Of an encoded text that is cut off nothing can be decoded, or not all
of the octets. -/
theorem decode_cut {octets found : List UInt8} {part : Text} (hpart : part <+: encode octets)
    (hne : part ≠ encode octets) (hfound : decode (Text.toBytes part) = .ok found) :
    found <+: octets ∧ found ≠ octets := by
  rw [encode_eq] at hpart hne
  obtain ⟨numbers, hnumbers, rfl⟩ := List.prefix_map_iff.mp hpart
  have hlt : ∀ n ∈ numbers, n < 64 := fun n hn => lt_of_mem_sextets n (hnumbers.subset hn)
  rw [toBytes_map_symbol hlt, decode_map_symbolOctet hlt] at hfound
  exact decodeFrom_cut hnumbers (fun heq => hne (by rw [heq])) hfound

end FilterAlgebra.Base64
