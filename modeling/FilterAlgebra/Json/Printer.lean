import FilterAlgebra.Json.Basic
import FilterAlgebra.Number.Decimal

/-!
# Writing JSON

Two layouts of the same value: compact, without any space, and indented by two spaces a level. In
strings only the quote, the backslash and the controls below U+0020 are escaped.
-/

namespace FilterAlgebra.Json

/-- The hexadecimal digit of a number below sixteen, in lower case. -/
def hexDigit (n : Nat) : Char := Nat.digitChar n

/-- A character as it stands between the quotes of a string. -/
def escapedChar (c : Char) : Text :=
  if c = '"' then "\\\""
  else if c = '\\' then "\\\\"
  else if c = '\x08' then "\\b"
  else if c = '\x0c' then "\\f"
  else if c = '\n' then "\\n"
  else if c = '\r' then "\\r"
  else if c = '\t' then "\\t"
  else if c.toNat < 0x20 then "\\u00" ++ [hexDigit (c.toNat / 16), hexDigit (c.toNat % 16)]
  else [c]

def stringText (s : Text) : Text := '"' :: (s.flatMap escapedChar ++ ['"'])

/-! ### The compact layout -/

mutual

def compact : Json → Text
  | null => "null"
  | bool value => if value then "true" else "false"
  | int value => intText value
  | str value => stringText value
  | arr items => '[' :: (List.intercalate [','] (compactItems items) ++ [']'])
  | obj members => '\x7b' :: (List.intercalate [','] (compactMembers members) ++ ['\x7d'])

def compactItems : List Json → List Text
  | [] => []
  | item :: items => compact item :: compactItems items

def compactMembers : List (Text × Json) → List Text
  | [] => []
  | (key, value) :: members =>
    (stringText key ++ ':' :: compact value) :: compactMembers members

end

/-! ### The indented layout -/

/-- A line break and the indentation of a level. -/
def lineBreak (level : Nat) : Text := '\n' :: List.replicate (2 * level) ' '

/-- Parts between brackets, one a line; nothing between the brackets if there are none. -/
def block (left right : Char) (level : Nat) (parts : List Text) : Text :=
  if parts = [] then [left, right]
  else
    left :: lineBreak (level + 1) ++ List.intercalate (',' :: lineBreak (level + 1)) parts
      ++ lineBreak level ++ [right]

mutual

/-- The indented text of a value that begins at the given level. -/
def indented (level : Nat) : Json → Text
  | arr items => block '[' ']' level (indentedItems (level + 1) items)
  | obj members => block '\x7b' '\x7d' level (indentedMembers (level + 1) members)
  | value => compact value

def indentedItems (level : Nat) : List Json → List Text
  | [] => []
  | item :: items => indented level item :: indentedItems level items

def indentedMembers (level : Nat) : List (Text × Json) → List Text
  | [] => []
  | (key, value) :: members =>
    (stringText key ++ ": " ++ indented level value) :: indentedMembers level members

end

def pretty (value : Json) : Text := indented 0 value

end FilterAlgebra.Json
