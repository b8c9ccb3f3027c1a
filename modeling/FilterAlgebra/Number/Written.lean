import FilterAlgebra.Number.Shortest

/-!
# Written numbers

Three written forms of binary64 numbers. The plain form spells the shortest decimal in positional
notation, however long that gets, and has no point on whole numbers. The weight form is the plain
one, but whole numbers are spelled exactly and end in `.0`, and what is not finite counts as `0.0`.
The compact form changes to an exponent outside the places near one, and always shows that its
number is not an integer literal.
-/

namespace FilterAlgebra.Binary64

/-- A minus sign in front of the text of a negative number. -/
def signed (negative : Bool) (s : Text) : Text := if negative then '-' :: s else s

/-- The text of `coefficient * 10 ^ place` in positional notation, without a point if it has no
fractional digits. -/
def positional (coefficient : Nat) (place : Int) : Text :=
  let digits := natText coefficient
  let fractional := (-place).toNat
  if fractional = 0 then digits ++ List.replicate place.toNat '0'
  else if fractional < digits.length then
    digits.take (digits.length - fractional) ++ '.' :: digits.drop (digits.length - fractional)
  else "0." ++ List.replicate (fractional - digits.length) '0' ++ digits

/-- The plain form: the shortest decimal in positional notation. -/
def plain : Binary64 → Text
  | finite negative significand exponent =>
    signed negative <|
      if significand = 0 then "0"
      else
        let (coefficient, place) := shortest .up significand exponent
        positional coefficient place
  | infinite negative => signed negative "inf"
  | nan => "NaN"

/-- The weight form: whole numbers exactly with `.0`, others plain, `0.0` for what is not finite. -/
def weightText (x : Binary64) : Text :=
  match x with
  | finite negative _ _ =>
    match x.wholeMagnitude? with
    | some magnitude => signed negative (natText magnitude ++ ".0")
    | none => x.plain
  | _ => "0.0"

/-- The compact form of a finite number: positional with up to sixteen digits before the point and
up to four zeros after it, with a signed exponent otherwise. -/
def compact : Binary64 → Text
  | finite negative significand exponent =>
    signed negative <|
      if significand = 0 then "0.0"
      else
        let (coefficient, place) := shortest .even significand exponent
        let digits := natText coefficient
        let point := digits.length + place
        if 0 ≤ place ∧ point ≤ 16 then positional coefficient place ++ ".0"
        else if -5 < point ∧ point ≤ 16 then positional coefficient place
        else
          let fraction := digits.drop 1
          digits.take 1 ++ (if fraction = [] then [] else '.' :: fraction)
            ++ 'e' :: (if 0 < point then '+' :: intText (point - 1) else intText (point - 1))
  | infinite negative => signed negative "inf"
  | nan => "NaN"

end FilterAlgebra.Binary64
