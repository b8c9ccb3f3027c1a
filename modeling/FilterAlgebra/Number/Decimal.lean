import FilterAlgebra.Number.Binary64

/-!
# Decimal literals

A decimal literal is a sign, digits around an optional point and an optional exponent. It is read
into an exact decimal value first; the nearest binary64 number is a question of its own. Literals
whose exponent puts them far outside the finite numbers are settled by their size alone.
-/

namespace FilterAlgebra

/-- The decimal text of a natural number. -/
def natText (n : Nat) : Text := Nat.toDigits 10 n

/-- The decimal text of an integer, with a sign only when it is negative. -/
def intText (n : Int) : Text := if n < 0 then '-' :: natText n.natAbs else natText n.natAbs

/-- A number with one more decimal digit behind it. -/
def withDigit (n : Nat) (c : Char) : Nat := 10 * n + (c.toNat - '0'.toNat)

/-- The value of a run of decimal digits. -/
def digitsValue (digits : Text) : Nat := digits.foldl withDigit 0

/-- The exact value `± coefficient * 10 ^ exponent`. -/
structure Decimal where
  negative : Bool
  coefficient : Nat
  exponent : Int
  deriving DecidableEq, Repr

namespace Decimal

/-- The number nearest to a decimal value. A value with its first digit above place 309 is beyond
every finite number, and one with its first digit below place -324 rounds to zero. -/
def toBinary64 (d : Decimal) : Binary64 :=
  let places := d.exponent + (natText d.coefficient).length
  if d.coefficient = 0 ∨ places ≤ -324 then .finite d.negative 0 0
  else if 310 ≤ places then .infinite d.negative
  else
    .ofRatio d.negative (d.coefficient * Nat.pow 10 d.exponent.toNat)
      (Nat.pow 10 (-d.exponent).toNat)

/-- A leading sign and the text after it; no sign counts as plus. -/
def readSign : Text → Bool × Text
  | '-' :: rest => (true, rest)
  | '+' :: rest => (false, rest)
  | s => (false, s)

/-- The exponent part of a literal: nothing, or `e` and an integer. -/
def readExponent? : Text → Option Int
  | [] => some 0
  | c :: rest =>
    if c = 'e' ∨ c = 'E' then
      let (negative, digits) := readSign rest
      if digits ≠ [] ∧ digits.all Char.isDigit then
        some (if negative then -(digitsValue digits : Int) else digitsValue digits)
      else none
    else none

/-- The value of a literal: an optional sign, digits with an optional point among or beside them
(at least one digit in all), and an optional exponent. -/
def read? (s : Text) : Option Decimal :=
  let (negative, s) := readSign s
  let whole := s.takeWhile Char.isDigit
  let rest := s.dropWhile Char.isDigit
  let (fraction, rest) := match rest with
    | '.' :: rest => (rest.takeWhile Char.isDigit, rest.dropWhile Char.isDigit)
    | rest => ([], rest)
  if whole = [] ∧ fraction = [] then none
  else (readExponent? rest).map fun exponent =>
    ⟨negative, digitsValue (whole ++ fraction), exponent - fraction.length⟩

end Decimal

/-- The finite number that a literal denotes, if the text is a literal and its number is finite. -/
def Binary64.readFinite? (s : Text) : Option Binary64 :=
  ((Decimal.read? s).map Decimal.toBinary64).filter Binary64.isFinite

end FilterAlgebra
