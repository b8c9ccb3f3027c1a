import FilterAlgebra.Json.Basic
import FilterAlgebra.Number.Scaled

/-!
# Reading JSON

Reading never fails: it returns what stands in the text, and `broken` where the text stops being
JSON. Beside a value the readers return the text after it, or nothing once the text has broken off.
Strings are read in two steps, first into the pieces between their quotes, then into text, because
two escaped surrogates make one character.
-/

namespace FilterAlgebra.Json

/-! ### Blanks and words -/

/-- The four characters that JSON allows between its tokens. -/
def isSpace (c : Char) : Bool := c = ' ' || c = '\t' || c = '\n' || c = '\r'

/-- The text after the spaces in front of it. -/
def skipSpace (s : Text) : Text := s.dropWhile isSpace

def readWord (word : Text) (value : Reading) (s : Text) : Reading × Option Text :=
  if word.isPrefixOf s then (value, some (s.drop word.length)) else (.broken, none)

/-! ### Strings -/

/-- A piece of a quoted string: a character, or a code unit given by its number. -/
inductive Piece where
  | char (c : Char)
  | unit (n : Nat)
  deriving DecidableEq, Repr

def hexDigit? (c : Char) : Option Nat :=
  if '0' ≤ c ∧ c ≤ '9' then some (c.toNat - '0'.toNat)
  else if 'a' ≤ c ∧ c ≤ 'f' then some (c.toNat - 'a'.toNat + 10)
  else if 'A' ≤ c ∧ c ≤ 'F' then some (c.toNat - 'A'.toNat + 10)
  else none

def hexUnit? (a b c d : Char) : Option Nat :=
  match hexDigit? a, hexDigit? b, hexDigit? c, hexDigit? d with
  | some a, some b, some c, some d => some (((a * 16 + b) * 16 + c) * 16 + d)
  | _, _, _, _ => none

/-- The character that a one-letter escape stands for. -/
def shortEscape? (c : Char) : Option Char :=
  if c = '"' ∨ c = '\\' ∨ c = '/' then some c
  else if c = 'b' then some '\x08'
  else if c = 'f' then some '\x0c'
  else if c = 'n' then some '\n'
  else if c = 'r' then some '\r'
  else if c = 't' then some '\t'
  else none

/-- The pieces of a string up to its closing quote, and the text after that. -/
def readPieces? : Text → Option (List Piece × Text)
  | [] => none
  | '"' :: rest => some ([], rest)
  | '\\' :: 'u' :: a :: b :: c :: d :: rest =>
    match hexUnit? a b c d, readPieces? rest with
    | some n, some (pieces, rest) => some (.unit n :: pieces, rest)
    | _, _ => none
  | '\\' :: c :: rest =>
    match shortEscape? c, readPieces? rest with
    | some c, some (pieces, rest) => some (.char c :: pieces, rest)
    | _, _ => none
  | c :: rest =>
    if c = '\\' ∨ c.toNat < 0x20 then none
    else match readPieces? rest with
      | some (pieces, rest) => some (.char c :: pieces, rest)
      | none => none

/-- The text that pieces spell. Surrogates count only in pairs. -/
def joinPieces? : List Piece → Option Text
  | [] => some []
  | .char c :: pieces => (joinPieces? pieces).map (c :: ·)
  | .unit high :: .unit low :: pieces =>
    if 0xD800 ≤ high ∧ high ≤ 0xDBFF then
      if 0xDC00 ≤ low ∧ low ≤ 0xDFFF then
        (joinPieces? pieces).map
          (Char.ofNat (0x10000 + (high - 0xD800) * 0x400 + (low - 0xDC00)) :: ·)
      else none
    else if 0xDC00 ≤ high ∧ high ≤ 0xDFFF then none
    else (joinPieces? (.unit low :: pieces)).map (Char.ofNat high :: ·)
  | .unit n :: pieces =>
    if 0xD800 ≤ n ∧ n ≤ 0xDFFF then none else (joinPieces? pieces).map (Char.ofNat n :: ·)

/-! ### Numbers -/

/-- The digits in front of a text that are all of its first number: a zero stands alone. -/
def readWhole? (s : Text) : Option (Text × Text) :=
  match s.takeWhile Char.isDigit with
  | [] => none
  | '0' :: _ :: _ => none
  | digits => some (digits, s.dropWhile Char.isDigit)

/-- An optional point with digits after it. -/
def readFraction? : Text → Option (Text × Text)
  | '.' :: rest =>
    if rest.takeWhile Char.isDigit = [] then none
    else some (rest.takeWhile Char.isDigit, rest.dropWhile Char.isDigit)
  | s => some ([], s)

/-- An optional exponent: nothing, or its value. -/
def readPower? : Text → Option (Option Int × Text)
  | [] => some (none, [])
  | c :: rest =>
    if c = 'e' ∨ c = 'E' then
      let (negative, rest) := Decimal.readSign rest
      let digits := rest.takeWhile Char.isDigit
      if digits = [] then none
      else
        let value : Int := digitsValue digits
        some (some (if negative then -value else value), rest.dropWhile Char.isDigit)
    else some (none, c :: rest)

/-- The reading of a number by its parts. An integer that fits sixty-four bits, signed or unsigned,
is kept as it is; minus zero and every other number is a scaled decimal. -/
def numberOf (negative : Bool) (whole fraction : Text) (power : Option Int) : Reading :=
  let magnitude : Int := digitsValue whole
  let integer := if negative then -magnitude else magnitude
  let isInteger := fraction = [] ∧ power = none ∧ ¬(negative = true ∧ magnitude = 0)
  if isInteger ∧ (fitsSigned integer ∨ fitsUnsigned integer) then .int integer
  else
    match Binary64.ofDigits? negative whole fraction (power.getD 0) with
    | some value => .float value
    | none => .unusable

def readNumber (s : Text) : Reading × Option Text :=
  let (negative, s) := match s with
    | '-' :: rest => (true, rest)
    | s => (false, s)
  match readWhole? s with
  | none => (.broken, none)
  | some (whole, s) =>
    match readFraction? s with
    | none => (.broken, none)
    | some (fraction, s) =>
      match readPower? s with
      | none => (.broken, none)
      | some (power, s) => (numberOf negative whole fraction power, some s)

/-! ### Values -/

/-- An object with one more member in front. -/
def Reading.withMember (object : Reading) (key : Text) (value : Reading) : Reading :=
  match object with
  | .obj members => .obj ((key, value) :: members)
  | .torn members whole => .torn ((key, value) :: members) whole
  | reading => reading

/-- An object whose first key denotes no text, before the given value and members. -/
def Reading.withoutKey (value : Reading) (others : Reading) : Reading :=
  .torn [] (value.isWhole && others.isWhole)

/-- An object that breaks off where a key is due. -/
def Reading.cutOff : Reading := .torn [] false

mutual

/-- Reads a value; `fuel` bounds the number of values, items and members on the way. -/
def readValue : Nat → Text → Reading × Option Text
  | 0, _ => (.broken, none)
  | fuel + 1, s =>
    match skipSpace s with
    | [] => (.broken, none)
    | c :: rest =>
      if c = '"' then
        match readPieces? rest with
        | none => (.broken, none)
        | some (pieces, rest) =>
          match joinPieces? pieces with
          | some value => (.str value, some rest)
          | none => (.unusable, some rest)
      else if c = '[' then
        match skipSpace rest with
        | ']' :: rest => (.arr [], some rest)
        | _ =>
          let (items, rest) := readItems fuel rest
          (.arr items, rest)
      else if c = '\x7b' then
        match skipSpace rest with
        | '\x7d' :: rest => (.obj [], some rest)
        | _ => readMembers fuel rest
      else if c = '-' ∨ c.isDigit then readNumber (c :: rest)
      else if c = 't' then readWord "true" (.bool true) (c :: rest)
      else if c = 'f' then readWord "false" (.bool false) (c :: rest)
      else readWord "null" .null (c :: rest)

/-- Reads the items of a list of which one is due, and the closing bracket. -/
def readItems : Nat → Text → List Reading × Option Text
  | 0, _ => ([.broken], none)
  | fuel + 1, s =>
    match readValue fuel s with
    | (item, none) => ([item], none)
    | (item, some rest) =>
      match skipSpace rest with
      | ',' :: rest =>
        let (items, rest) := readItems fuel rest
        (item :: items, rest)
      | ']' :: rest => ([item], some rest)
      | _ => ([item, .broken], none)

/-- Reads the members of an object of which one is due, and the closing brace. -/
def readMembers : Nat → Text → Reading × Option Text
  | 0, _ => (.cutOff, none)
  | fuel + 1, s =>
    match skipSpace s with
    | '"' :: rest =>
      match readPieces? rest with
      | none => (.cutOff, none)
      | some (pieces, rest) =>
        let (value, others, rest) := readMember fuel (skipSpace rest)
        match joinPieces? pieces with
        | some key => (others.withMember key value, rest)
        | none => (.withoutKey value others, rest)
    | _ => (.cutOff, none)

/-- Reads the colon and the value of a member, then the members after it. -/
def readMember : Nat → Text → Reading × Reading × Option Text
  | 0, _ => (.broken, .obj [], none)
  | fuel + 1, s =>
    match s with
    | ':' :: rest =>
      match readValue fuel rest with
      | (value, none) => (value, .obj [], none)
      | (value, some rest) =>
        match skipSpace rest with
        | ',' :: rest =>
          let (others, rest) := readMembers fuel rest
          (value, others, rest)
        | '\x7d' :: rest => (value, .obj [], some rest)
        | _ => (value, .cutOff, none)
    | _ => (.broken, .obj [], none)

end

/-- What can be read of a text as one JSON value, and whether only spaces follow the value. A list
takes two steps to open and at least two characters in all, so the fuel is never the limit. -/
def read (s : Text) : Reading × Bool :=
  match readValue (2 * s.length + 2) s with
  | (value, some rest) => (value, decide (skipSpace rest = []))
  | (value, none) => (value, false)

end FilterAlgebra.Json
