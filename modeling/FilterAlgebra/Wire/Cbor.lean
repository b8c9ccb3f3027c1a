import FilterAlgebra.Number.Binary64

/-!
# CBOR

The concise binary object representation: every item begins with a head of a major type and an
argument. Heads are written in their shortest form and lengths are always given; both are read in
any form. Readers take octets and return what they read together with the octets after it, or
nothing. Those that repeat themselves are bounded by fuel. Each head takes at least one octet, so
the number of octets is enough for those that read heads in a row.
-/

namespace FilterAlgebra.Cbor

/-- Octets that are still to be read. -/
abbrev Octets := List UInt8

/-- A reader: what it reads and the octets after that, or nothing. -/
abbrev Reader (α : Type) := Octets → Option (α × Octets)

/-! ### Heads -/

/-- The head of an item. A length of `none` means that the end is marked. -/
inductive Head where
  | unsigned (n : Nat)
  /-- The integer `-1 - n`. -/
  | negative (n : Nat)
  | bytes (length : Option Nat)
  | text (length : Option Nat)
  | array (length : Option Nat)
  | map (length : Option Nat)
  | tag (n : Nat)
  | simple (n : Nat)
  | float (value : Binary64)
  /-- The end of an item whose length was not given. -/
  | stop
  deriving DecidableEq, Repr

/-- The number that octets stand for, the weightiest first. -/
def bigEndian (octets : Octets) : Nat := octets.foldl (fun n octet => 256 * n + octet.toNat) 0

/-- The octets of a number, the weightiest first. -/
def bigEndianOctets : Nat → Nat → Octets
  | 0, _ => []
  | count + 1, n => bigEndianOctets count (n / 256) ++ [.ofNat n]

def readOctets? (count : Nat) : Reader Octets := fun s =>
  if count ≤ s.length then some (s.take count, s.drop count) else none

/-- The number of octets that hold an argument, by the low bits of the first octet. -/
def argumentWidth? (low : Nat) : Option Nat :=
  if low < 24 then some 0
  else if low < 28 then some (Nat.pow 2 (low - 24))
  else none

/-- The head with a major type, low bits and the octets of its argument. -/
def headOf? (major low : Nat) (argument : Octets) : Option Head :=
  let n := if low < 24 then low else bigEndian argument
  if major = 0 then some (.unsigned n)
  else if major = 1 then some (.negative n)
  else if major = 2 then some (.bytes (some n))
  else if major = 3 then some (.text (some n))
  else if major = 4 then some (.array (some n))
  else if major = 5 then some (.map (some n))
  else if major = 6 then some (.tag n)
  else if low = 25 then some (.float (.ofFields 5 10 n))
  else if low = 26 then some (.float (.ofFields 8 23 n))
  else if low = 27 then some (.float (.ofFields 11 52 n))
  else some (.simple n)

/-- The head with a major type and no length. -/
def openHead? (major : Nat) : Option Head :=
  if major = 2 then some (.bytes none)
  else if major = 3 then some (.text none)
  else if major = 4 then some (.array none)
  else if major = 5 then some (.map none)
  else if major = 7 then some .stop
  else none

def readHead? : Reader Head
  | [] => none
  | first :: s => do
    let major := first.toNat / 32
    let low := first.toNat % 32
    if low = 31 then return (← openHead? major, s)
    let (argument, s) ← readOctets? (← argumentWidth? low) s
    return (← headOf? major low argument, s)

/-- The octets of a head in its shortest form. Arguments are below `2 ^ 64`. -/
def headOctets (major argument : Nat) : Octets :=
  if argument < 24 then [.ofNat (32 * major + argument)]
  else if argument < 256 then .ofNat (32 * major + 24) :: bigEndianOctets 1 argument
  else if argument < 65536 then .ofNat (32 * major + 25) :: bigEndianOctets 2 argument
  else if argument < 4294967296 then .ofNat (32 * major + 26) :: bigEndianOctets 4 argument
  else .ofNat (32 * major + 27) :: bigEndianOctets 8 argument

/-- Reads a head behind any number of tags. -/
def readUntagged? : Nat → Reader Head
  | 0, _ => none
  | fuel + 1, s =>
    match readHead? s with
    | some (.tag _, s) => readUntagged? fuel s
    | result => result

/-! ### Strings -/

/-- The length in a head of a byte string. -/
def bytesLength? : Head → Option (Option Nat)
  | .bytes length => some length
  | _ => none

/-- The length in a head of a text string. -/
def textLength? : Head → Option (Option Nat)
  | .text length => some length
  | _ => none

/-- Reads a string from its head on. A string whose end is marked consists of strings of the same
kind; `level` counts those that are open. Each part with a length has to satisfy `valid`. -/
def readParts? (length? : Head → Option (Option Nat)) (valid : Octets → Bool) :
    Nat → Nat → Reader Octets
  | 0, _, _ => none
  | fuel + 1, level, s =>
    match readHead? s with
    | none => none
    | some (head, s) =>
      if head = .stop then
        if level = 0 then none
        else if level = 1 then some ([], s)
        else readParts? length? valid fuel (level - 1) s
      else
        match length? head with
        | none => none
        | some none => readParts? length? valid fuel (level + 1) s
        | some (some length) =>
          match readOctets? length s with
          | none => none
          | some (part, s) =>
            if !valid part then none
            else if level = 0 then some (part, s)
            else (readParts? length? valid fuel level s).map fun (parts, s) => (part ++ parts, s)

/-- Whether octets are the UTF-8 form of a text. -/
def isText (octets : Octets) : Bool := (Text.ofBytes? octets).isSome

/-- Reads a text string from its head on. -/
def readText? (s : Octets) : Option (Text × Octets) := do
  let (octets, s) ← readParts? textLength? isText (s.length + 1) 0 s
  return (← Text.ofBytes? octets, s)

/-- Reads a byte string from its head on. -/
def readBytes? (s : Octets) : Option (Octets × Octets) :=
  readParts? bytesLength? (fun _ => true) (s.length + 1) 0 s

def nameLimit : Nat := 4096

/-- Reads a name: a text or byte string of a given length, behind any number of tags. -/
def readName? (s : Octets) : Option (Octets × Octets) := do
  let (head, s) ← readUntagged? (s.length + 1) s
  match head with
  | .text (some length) =>
    let (name, s) ← readOctets? length s
    if length ≤ nameLimit ∧ isText name then some (name, s) else none
  | .bytes (some length) =>
    let (name, s) ← readOctets? length s
    if length ≤ nameLimit then some (name, s) else none
  | _ => none

def textOctets (s : Text) : Octets :=
  let octets := Text.toBytes s
  headOctets 3 octets.length ++ octets

/-! ### Passing over items -/

/-- The greatest length of a byte string that stands for an integer. -/
def integerLimit : Nat := 16

/-- The greatest integer of 128 bits with a sign, `2 ^ 127 - 1`. -/
def maxSigned128 : Nat := 170141183460469231731687303715884105727

/-- Whether a tag makes an integer of what follows it: a byte string of a given length behind tag 2,
or behind tag 3, which makes it negative. -/
def isTaggedInteger (tag : Nat) (s : Octets) : Bool :=
  match readHead? s with
  | some (.bytes (some length), _) => (tag = 2 || tag = 3) && decide (length ≤ integerLimit)
  | _ => false

/-- Passes over the octets of an integer behind its tag. A negative one has to fit 128 bits. -/
def skipTaggedInteger? (tag : Nat) (s : Octets) : Option Octets := do
  let (octets, s) ← readBytes? s
  if tag = 3 ∧ maxSigned128 < bigEndian octets then none else some s

mutual

/-- Passes over an item, in which lists, objects and tags may be nested `depth` deep. From one item
to the first one inside it are three steps, so three for each octet are enough. -/
def skip? : Nat → Nat → Octets → Option Octets
  | 0, _, _ => none
  | fuel + 1, depth, s =>
    match readHead? s with
    | none => none
    | some (.unsigned _, s) => some s
    | some (.negative _, s) => some s
    | some (.float _, s) => some s
    | some (.stop, _) => none
    | some (.simple n, s) => if 20 ≤ n ∧ n ≤ 23 then some s else none
    | some (.bytes _, _) => (readBytes? s).map Prod.snd
    | some (.text _, _) => (readText? s).map Prod.snd
    | some (.tag tag, s) =>
      if isTaggedInteger tag s then skipTaggedInteger? tag s
      else if depth = 0 then none
      else skip? fuel (depth - 1) s
    | some (.array length, s) => if depth = 0 then none else skipItems? fuel (depth - 1) 1 length s
    | some (.map length, s) => if depth = 0 then none else skipItems? fuel (depth - 1) 2 length s

/-- Passes over the given number of groups of `size` items, or over groups up to the mark of the
end. -/
def skipItems? : Nat → Nat → Nat → Option Nat → Octets → Option Octets
  | 0, _, _, _, _ => none
  | _ + 1, _, _, some 0, s => some s
  | fuel + 1, depth, size, some (count + 1), s =>
    match skipGroup? fuel depth size s with
    | some s => skipItems? fuel depth size (some count) s
    | none => none
  | fuel + 1, depth, size, none, s =>
    match readHead? s with
    | some (.stop, s) => some s
    | _ =>
      match skipGroup? fuel depth size s with
      | some s => skipItems? fuel depth size none s
      | none => none

def skipGroup? : Nat → Nat → Nat → Octets → Option Octets
  | _, _, 0, s => some s
  | 0, _, _ + 1, _ => none
  | fuel + 1, depth, size + 1, s =>
    match skip? fuel depth s with
    | some s => skipGroup? fuel depth size s
    | none => none

end

end FilterAlgebra.Cbor
