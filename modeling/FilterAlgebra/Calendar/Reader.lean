import FilterAlgebra.Calendar.Instant
import FilterAlgebra.Number.Decimal
import FilterAlgebra.Text.Blank

/-!
# Reading instants

Three spellings are read, in this order: the internet timestamp, with every field padded and an
offset from UTC; a date and a time joined by `T`, in UTC; and a bare date, which stands for its
first instant in UTC. The last two are lenient: blanks may stand before a number, numbers need not
be padded, and a year may be signed, which lets it have more than four digits.
-/

namespace FilterAlgebra.Instant

/-! ### Fields -/

def readChar? (c : Char) (s : Text) : Option Text := Text.afterFirst? c s

/-- Reads a number of exactly `count` digits. -/
def readPadded? (count : Nat) (s : Text) : Option (Nat × Text) :=
  let digits := s.take count
  if digits.length = count ∧ digits.all Char.isDigit then some (digitsValue digits, s.drop count)
  else none

/-- Reads the digits in front, at least one. -/
def readDigits? (s : Text) : Option (Text × Text) :=
  let digits := s.takeWhile Char.isDigit
  if digits = [] then none else some (digits, s.dropWhile Char.isDigit)

/-- Reads blanks and a number of one up to `most` digits. -/
def readLoose? (most : Nat) (s : Text) : Option (Nat × Text) :=
  let s := Text.trimStart s
  let digits := (s.take most).takeWhile Char.isDigit
  if digits = [] then none else some (digitsValue digits, s.drop digits.length)

/-- Reads blanks and a year: a sign and any number of digits, or up to four digits. -/
def readYear? (s : Text) : Option (Int × Text) :=
  match Text.trimStart s with
  | '-' :: rest => (readDigits? rest).map fun (digits, rest) => (-(digitsValue digits : Int), rest)
  | '+' :: rest => (readDigits? rest).map fun (digits, rest) => ((digitsValue digits : Int), rest)
  | rest => (readLoose? 4 rest).map fun (year, rest) => ((year : Int), rest)

/-- The years that a lenient spelling may have. -/
def isReadableYear (year : Int) : Bool := decide (-262143 ≤ year) && decide (year ≤ 262142)

/-! ### The internet timestamp -/

/-- Reads an optional fraction of a second as nanoseconds; digits after the ninth do not count. -/
def readFraction? : Text → Option (Nat × Text)
  | '.' :: rest =>
    (readDigits? rest).map fun (digits, rest) =>
      let counted := digits.take 9
      (digitsValue counted * Nat.pow 10 (9 - counted.length), rest)
  | s => some (0, s)

/-- Reads hours and minutes, neither beyond a day. -/
def readClock? (s : Text) : Option (Nat × Text) := do
  let (hour, s) ← readPadded? 2 s
  let s ← readChar? ':' s
  let (minute, s) ← readPadded? 2 s
  if hour ≤ 23 ∧ minute ≤ 59 then some (60 * hour + minute, s) else none

/-- Reads an offset from UTC in minutes: `Z`, or a sign and a clock time. The minus sign proper
(U+2212) is accepted beside the hyphen. -/
def readOffset? : Text → Option (Int × Text)
  | [] => none
  | sign :: s =>
    if sign = 'Z' ∨ sign = 'z' then some (0, s)
    else if sign = '+' then (readClock? s).map fun (minutes, s) => ((minutes : Int), s)
    else if sign = '-' ∨ sign = '\u2212' then
      (readClock? s).map fun (minutes, s) => (-(minutes : Int), s)
    else none

/-- Reads an internet timestamp that ends with the text. -/
def readTimestamp? (s : Text) : Option Instant := do
  let (year, s) ← readPadded? 4 s
  let s ← readChar? '-' s
  let (month, s) ← readPadded? 2 s
  let s ← readChar? '-' s
  let (day, s) ← readPadded? 2 s
  let s ← match s with
    | c :: rest => if c = 'T' ∨ c = 't' ∨ c = ' ' then some rest else none
    | [] => none
  let (minute, s) ← readClock? s
  let s ← readChar? ':' s
  let (second, s) ← readPadded? 2 s
  let (nanosecond, s) ← readFraction? s
  let (offset, s) ← readOffset? s
  let date ← Date.ofParts? year month day
  if s = [] then ofLocal? date minute second nanosecond offset else none

/-! ### The lenient spellings -/

def readDate? (s : Text) : Option (Date × Text) := do
  let (year, s) ← readYear? s
  let s ← readChar? '-' s
  let (month, s) ← readLoose? 2 s
  let s ← readChar? '-' s
  let (day, s) ← readLoose? 2 s
  let date ← Date.ofParts? year month day
  if isReadableYear year then some (date, s) else none

/-- Reads a lenient date and time that ends with the text. -/
def readDateTime? (s : Text) : Option Instant := do
  let (date, s) ← readDate? s
  let s ← readChar? 'T' s
  let (hour, s) ← readLoose? 2 s
  let s ← readChar? ':' s
  let (minute, s) ← readLoose? 2 s
  let s ← readChar? ':' s
  let (second, s) ← readLoose? 2 s
  if hour ≤ 23 ∧ minute ≤ 59 ∧ s = [] then ofLocal? date (60 * hour + minute) second 0 0 else none

/-- Reads a bare date that ends with the text. -/
def readDay? (s : Text) : Option Instant := do
  let (date, s) ← readDate? s
  if s = [] then some (startOfDay date) else none

/-- Reads an instant in any of the three spellings. -/
def read? (s : Text) : Option Instant :=
  (readTimestamp? s).or ((readDateTime? s).or (readDay? s))

end FilterAlgebra.Instant
