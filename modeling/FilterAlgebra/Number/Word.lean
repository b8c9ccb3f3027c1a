/-!
# Integers of sixty-four bits

An integer that comes in from outside is kept as it is when a word of sixty-four bits can hold it,
with a sign or without one. Other integers are only known as binary64 numbers.
-/

namespace FilterAlgebra

/-- Whether a word with a sign can hold an integer. -/
def fitsSigned (n : Int) : Bool :=
  decide (-9223372036854775808 ≤ n) && decide (n < 9223372036854775808)

/-- Whether a word without a sign can hold an integer. -/
def fitsUnsigned (n : Int) : Bool := decide (0 ≤ n) && decide (n < 18446744073709551616)

end FilterAlgebra
