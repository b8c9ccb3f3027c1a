import FilterAlgebra.Number.Decimal

/-!
# Base64

The alphabet for URLs and file names, without padding. Each group of three octets is written with
four symbols, and a last group of one or two octets with two or three; the bits that such a group
leaves unused have to be zero. Positions in errors count the octets of the text.
-/

namespace FilterAlgebra.Base64

/-! ### Symbols -/

/-- The symbol for a number below sixty-four. -/
def symbol (n : Nat) : Char :=
  if n < 26 then Char.ofNat ('A'.toNat + n)
  else if n < 52 then Char.ofNat ('a'.toNat + (n - 26))
  else if n < 62 then Char.ofNat ('0'.toNat + (n - 52))
  else if n = 62 then '-'
  else '_'

/-- The number that an octet stands for as a symbol. -/
def value? (octet : UInt8) : Option Nat :=
  let n := octet.toNat
  if 'A'.toNat ≤ n ∧ n ≤ 'Z'.toNat then some (n - 'A'.toNat)
  else if 'a'.toNat ≤ n ∧ n ≤ 'z'.toNat then some (n - 'a'.toNat + 26)
  else if '0'.toNat ≤ n ∧ n ≤ '9'.toNat then some (n - '0'.toNat + 52)
  else if n = '-'.toNat then some 62
  else if n = '_'.toNat then some 63
  else none

theorem value?_symbol {n : Nat} (h : n < 64) : value? (.ofNat (symbol n).toNat) = some n := by
  revert n
  decide

/-- The octet of the padding sign, which is no symbol. -/
def padding : UInt8 := 61

/-! ### Encoding -/

def encode : List UInt8 → Text
  | a :: b :: c :: rest =>
    symbol (a.toNat / 4) :: symbol (a.toNat % 4 * 16 + b.toNat / 16)
      :: symbol (b.toNat % 16 * 4 + c.toNat / 64) :: symbol (c.toNat % 64) :: encode rest
  | [a, b] =>
    [symbol (a.toNat / 4), symbol (a.toNat % 4 * 16 + b.toNat / 16), symbol (b.toNat % 16 * 4)]
  | [a] => [symbol (a.toNat / 4), symbol (a.toNat % 4 * 16)]
  | [] => []

/-! ### Decoding -/

inductive DecodeError where
  /-- An octet that is no symbol. -/
  | symbol (octet : UInt8) (offset : Nat)
  /-- A single symbol after the last group. -/
  | length (count : Nat)
  /-- A last symbol with unused bits that are not zero. -/
  | lastSymbol (octet : UInt8) (offset : Nat)
  /-- Padding where it could stand. -/
  | padding
  deriving DecidableEq, Repr

def DecodeError.message : DecodeError → Text
  | symbol octet offset =>
    "Invalid symbol " ++ natText octet.toNat ++ ", offset " ++ natText offset ++ "."
  | length count => "Invalid input length: " ++ natText count
  | lastSymbol octet offset =>
    "Invalid last symbol " ++ natText octet.toNat ++ ", offset " ++ natText offset ++ "."
  | padding => "Invalid padding"

/-- The number of a symbol at an offset. -/
def valueAt (offset : Nat) (octet : UInt8) : Except DecodeError Nat :=
  match value? octet with
  | some n => .ok n
  | none => .error (.symbol octet offset)

/-- The octets of a group of four symbols. -/
def groupOctets (a b c d : Nat) : List UInt8 :=
  [.ofNat (a * 4 + b / 16), .ofNat (b % 16 * 16 + c / 4), .ofNat (c % 4 * 64 + d)]

/-- The symbols of the last group, which begins at `start`, from an index on; `padded` is the index
of the first padding sign before that. A padding sign may not stand where a symbol must, and no
symbol may stand behind one. -/
def lastValues (start index : Nat) (padded : Option Nat) :
    List UInt8 → Except DecodeError (List Nat × Bool)
  | [] => .ok ([], padded.isSome)
  | octet :: rest =>
    if octet = padding then
      if index < 2 then .error (.symbol octet (start + index))
      else lastValues start (index + 1) (some (padded.getD index)) rest
    else
      match padded with
      | some first => .error (.symbol padding (start + first))
      | none => do
        let n ← valueAt (start + index) octet
        let (values, isPadded) ← lastValues start (index + 1) none rest
        return (n :: values, isPadded)

/-- The octets of a last group of up to four octets, which begins at `start`. -/
def decodeLast (start : Nat) (group : List UInt8) : Except DecodeError (List UInt8) := do
  let (values, isPadded) ← lastValues start 0 none group
  match values with
  | [] => if group = [] then .ok [] else .error (.length start)
  | [_] => .error (.length (start + 1))
  | values =>
    if isPadded then .error .padding
    else
      let unused (count : Nat) : DecodeError :=
        .lastSymbol (group.getLast?.getD 0) (start + count - 1)
      match values with
      | [a, b] =>
        if b % 16 = 0 then .ok ((groupOctets a b 0 0).take 1) else .error (unused 2)
      | [a, b, c] =>
        if c % 4 = 0 then .ok ((groupOctets a b c 0).take 2) else .error (unused 3)
      | a :: b :: c :: d :: _ => .ok (groupOctets a b c d)
      | _ => .ok []

/-- Decodes groups, the first of which begins at `start`; the last one may be short. -/
def decodeFrom (start : Nat) : List UInt8 → Except DecodeError (List UInt8)
  | a :: b :: c :: d :: e :: rest => do
    let a ← valueAt start a
    let b ← valueAt (start + 1) b
    let c ← valueAt (start + 2) c
    let d ← valueAt (start + 3) d
    let octets ← decodeFrom (start + 4) (e :: rest)
    return groupOctets a b c d ++ octets
  | group => decodeLast start group

/-- Decodes a text, given by its octets. A lone octet after the last group that is no symbol is
reported before anything else. -/
def decode (octets : List UInt8) : Except DecodeError (List UInt8) :=
  let last := octets.getLast?.getD padding
  if octets.length % 4 = 1 ∧ last ≠ padding ∧ value? last = none then
    .error (.symbol last (octets.length - 1))
  else decodeFrom 0 octets

end FilterAlgebra.Base64
