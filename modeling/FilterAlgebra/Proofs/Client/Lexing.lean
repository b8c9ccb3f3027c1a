import FilterAlgebra.Json.Reader
import FilterAlgebra.Proofs.Client.Calls
import FilterAlgebra.Proofs.Query.ClosedPhrases

/-!
# Lexing calls

A call is there to be copied into a program, where its literals have to be read as the values they
stand for. The lexer of the client language is written down here for what calls are made of: names,
marks, and strings in a pair of double quotes, with all the escapes that a string may have. Anything
else it refuses, and a string that has a line end or a NUL in it as it is.

In a literal, quotes, backslashes, line feeds and tabs are escaped, but carriage returns are not. So
a value is read back exactly when it has no carriage return and no NUL in it (`isUnbroken`).

The tokens of a text are put together from those of its parts. A mark has its tokens whatever stands
behind it (`Opens`), a name or a string only where a token ends behind it (`Reads`), so there is a
lemma for each way to join two of them.
-/

namespace FilterAlgebra

namespace CallLexer

/-! ### Tokens -/

inductive Token where
  | name (word : Text)
  | mark (c : Char)
  | string (value : Text)
  deriving DecidableEq, Repr

/-- Where the lexer is. In a string, that includes the value it has so far. -/
inductive Place where
  | between
  | name (spelled : Text)
  /-- Behind the quote that opens a string. -/
  | opened
  /-- Behind two quotes. With a third one, they would open a string over several lines. -/
  | emptied
  | inside (value : Text)
  /-- Behind a backslash. -/
  | escape (value : Text)
  /-- Among the octal digits of a code, of which `left` more may follow. -/
  | octal (value : Text) (left code : Nat)
  /-- Among the hexadecimal digits of a code, of which `left` more have to follow. -/
  | hex (value : Text) (left code : Nat)
  deriving DecidableEq, Repr

def marks : List Char := ['(', ')', '[', ']', ',', '=', '~', '.']

/-- The spaces between tokens. Inside parentheses, a line feed is one. -/
def spaces : List Char := [' ', '\t', '\n']

/-- The characters, besides the quote and the backslash, that do not stand in a string as they
are. -/
def breaks : List Char := ['\n', '\r', '\x00']

def isNameStart (c : Char) : Bool := c.isAlpha || c = '_'

def isNamePart (c : Char) : Bool := c.isAlphanum || c = '_'

def stepBetween (c : Char) : Option (List Token × Place) :=
  if isNameStart c then some ([], .name [c])
  else if c = '"' then some ([], .opened)
  else if marks.contains c then some ([.mark c], .between)
  else if spaces.contains c then some ([], .between)
  else none

def stepInside (value : Text) (c : Char) : Option (List Token × Place) :=
  if c = '"' then some ([.string value], .between)
  else if c = '\\' then some ([], .escape value)
  else if breaks.contains c then none
  else some ([], .inside (value ++ [c]))

/-! ### Escapes -/

/-- The character for which a backslash and a single character stand. -/
def meaning? (c : Char) : Option Char :=
  if c = '\\' ∨ c = '"' ∨ c = '\x27' then some c
  else if c = 'a' then some '\x07'
  else if c = 'b' then some '\x08'
  else if c = 'f' then some '\x0c'
  else if c = 'n' then some '\n'
  else if c = 'r' then some '\r'
  else if c = 't' then some '\t'
  else if c = 'v' then some '\x0b'
  else none

def octalDigit? (c : Char) : Option Nat := (Json.hexDigit? c).filter fun digit => digit < 8

/-- The number of hexadecimal digits behind the letter of a code. -/
def codeLength? (c : Char) : Option Nat :=
  if c = 'x' then some 2 else if c = 'u' then some 4 else if c = 'U' then some 8 else none

/-- A backslash before a line feed stands for nothing, and one before a character without a meaning
for itself. Characters that are given by name are not read. -/
def stepEscape (value : Text) (c : Char) : Option (List Token × Place) :=
  if c = '\n' then some ([], .inside value)
  else match meaning? c, octalDigit? c, codeLength? c with
    | some meaning, _, _ => some ([], .inside (value ++ [meaning]))
    | _, some digit, _ => some ([], .octal value 2 digit)
    | _, _, some length => some ([], .hex value length 0)
    | _, _, _ =>
      if c = 'N' ∨ breaks.contains c = true then none else some ([], .inside (value ++ ['\\', c]))

def stepOctal (value : Text) (left code : Nat) (c : Char) : Option (List Token × Place) :=
  match octalDigit? c with
  | none => stepInside (value ++ [Char.ofNat code]) c
  | some digit =>
    let code := 8 * code + digit
    if left = 1 then some ([], .inside (value ++ [Char.ofNat code]))
    else some ([], .octal value (left - 1) code)

/-- A code that is no character is not read: no text has such characters. -/
def stepHex (value : Text) (left code : Nat) (c : Char) : Option (List Token × Place) :=
  match Json.hexDigit? c with
  | none => none
  | some digit =>
    let code := 16 * code + digit
    if left ≠ 1 then some ([], .hex value (left - 1) code)
    else if code.isValidChar then some ([], .inside (value ++ [Char.ofNat code]))
    else none

/-! ### The lexer -/

/-- The tokens that end with a character, and where it leads. A name right before a string would
change what the string means. -/
def step : Place → Char → Option (List Token × Place)
  | .between, c => stepBetween c
  | .name spelled, c =>
    if isNamePart c then some ([], .name (spelled ++ [c]))
    else if c = '"' then none
    else (stepBetween c).map fun (tokens, place) => (.name spelled :: tokens, place)
  | .opened, c => if c = '"' then some ([], .emptied) else stepInside [] c
  | .emptied, c =>
    if c = '"' then none
    else (stepBetween c).map fun (tokens, place) => (.string [] :: tokens, place)
  | .inside value, c => stepInside value c
  | .escape value, c => stepEscape value c
  | .octal value left code, c => stepOctal value left code c
  | .hex value left code, c => stepHex value left code c

def finish : Place → Option (List Token)
  | .between => some []
  | .name spelled => some [.name spelled]
  | .emptied => some [.string []]
  | _ => none

def lexFrom (place : Place) : Text → Option (List Token)
  | [] => finish place
  | c :: rest =>
    match step place c with
    | none => none
    | some (tokens, place) => (lexFrom place rest).map (tokens ++ ·)

/-- The tokens of a text, if it can be read. -/
def lex (s : Text) : Option (List Token) := lexFrom .between s

/-! ### Steps -/

section Steps

variable {place next : Place} {c : Char} {tokens : List Token}

theorem lexFrom_cons (h : step place c = some (tokens, next)) (r : Text) :
    lexFrom place (c :: r) = (lexFrom next r).map (tokens ++ ·) := by
  rw [lexFrom, h]

theorem lexFrom_cons_of_nil (h : step place c = some ([], next)) (r : Text) :
    lexFrom place (c :: r) = lexFrom next r := by
  rw [lexFrom_cons h]
  exact congrFun Option.map_id _

theorem lexFrom_cons_of_none (h : step place c = none) (r : Text) :
    lexFrom place (c :: r) = none := by
  rw [lexFrom, h]

end Steps

/-! ### What ends a token -/

/-- The characters that no name and no string goes on with. -/
def isStop (c : Char) : Bool := (marks ++ spaces).contains c

theorem step_of_isStop {c : Char} (h : isStop c = true) :
    (∀ spelled, step (.name spelled) c =
      (stepBetween c).map fun (tokens, place) => (.name spelled :: tokens, place)) ∧
    step .emptied c =
      (stepBetween c).map fun (tokens, place) => (.string [] :: tokens, place) := by
  have hstops : ((marks ++ spaces).all fun c => !isNamePart c && decide (c ≠ '"')) = true := by
    decide
  have hc := List.all_eq_true.mp hstops c (List.contains_iff_mem.mp h)
  simp only [Bool.and_eq_true, Bool.not_eq_true', decide_eq_true_eq] at hc
  simp [step, hc.1, hc.2]

/-- Whether a text begins with a stop. -/
def stops (s : Text) : Bool := s.head?.any isStop

/-- Whether a token in front of a text ends there. -/
def endsToken (s : Text) : Bool := s.head?.all isStop

theorem stops_append {s : Text} (h : stops s = true) (r : Text) : stops (s ++ r) = true := by
  cases s with
  | nil => cases h
  | cons c s => exact h

theorem endsToken_append {s : Text} (h : stops s = true) (r : Text) :
    endsToken (s ++ r) = true := by
  cases s with
  | nil => cases h
  | cons c s => exact h

/-- A token that is not closed by a character of its own is closed by what ends it. -/
theorem lexFrom_of_endsToken {place : Place} {token : Token} (hfinish : finish place = some [token])
    (hstep : ∀ c, isStop c = true → step place c =
      (stepBetween c).map fun (tokens, place) => (token :: tokens, place))
    {r : Text} (h : endsToken r = true) :
    lexFrom place r = (lexFrom .between r).map (token :: ·) := by
  cases r with
  | nil => exact hfinish
  | cons c r =>
    rw [lexFrom, lexFrom, hstep c h, step]
    cases stepBetween c with
    | none => rfl
    | some next => simp [Option.map_map, Function.comp_def]

/-! ### Texts with tokens -/

/-- A text has its tokens whatever stands behind it. -/
def Opens (s : Text) (tokens : List Token) : Prop :=
  ∀ r, lexFrom .between (s ++ r) = (lexFrom .between r).map (tokens ++ ·)

/-- A text has its tokens wherever a token ends behind it, if it is sound, and is refused
otherwise. -/
def Reads (s : Text) (sound : Bool) (tokens : List Token) : Prop :=
  ∀ r, endsToken r = true → lexFrom .between (s ++ r) =
    if sound then (lexFrom .between r).map (tokens ++ ·) else none

theorem opens_mark {c : Char} (h : c ∈ marks) : Opens [c] [.mark c] := by
  have hstep : (marks.all fun c => step .between c = some ([.mark c], .between)) = true := by
    decide
  intro r
  exact lexFrom_cons (of_decide_eq_true (List.all_eq_true.mp hstep c h)) r

theorem opens_space {c : Char} (h : c ∈ spaces) : Opens [c] [] := by
  have hstep : (spaces.all fun c => step .between c = some ([], .between)) = true := by decide
  intro r
  exact lexFrom_cons (of_decide_eq_true (List.all_eq_true.mp hstep c h)) r

section Pieces

variable {s t : Text} {p q : Bool} {tokens others : List Token}

theorem map_append_append (rest : Option (List Token)) :
    (rest.map (others ++ ·)).map (tokens ++ ·) = rest.map ((tokens ++ others) ++ ·) := by
  cases rest <;> simp

theorem Opens.append (hs : Opens s tokens) (ht : Opens t others) :
    Opens (s ++ t) (tokens ++ others) := by
  intro r
  rw [List.append_assoc, hs, ht, map_append_append]

theorem Reads.opens (hs : Reads s true tokens) (ht : Opens t others) (hstop : stops t = true) :
    Opens (s ++ t) (tokens ++ others) := by
  intro r
  rw [List.append_assoc, hs _ (endsToken_append hstop r), ht, if_pos rfl, map_append_append]

theorem Opens.reads (hs : Opens s tokens) (ht : Reads t q others) :
    Reads (s ++ t) q (tokens ++ others) := by
  intro r hr
  rw [List.append_assoc, hs, ht r hr]
  cases q with
  | false => rfl
  | true => rw [if_pos rfl, if_pos rfl, map_append_append]

/-- What follows a text that is not closed by itself has to stop it. -/
theorem Reads.append (hs : Reads s p tokens) (ht : Reads t q others) (hstop : stops t = true) :
    Reads (s ++ t) (p && q) (tokens ++ others) := by
  intro r hr
  rw [List.append_assoc, hs _ (endsToken_append hstop r), ht r hr]
  cases p with
  | false => rfl
  | true =>
    cases q with
    | false => rfl
    | true => simp only [if_true, Bool.and_self, map_append_append]

theorem Opens.toReads (hs : Opens s tokens) : Reads s true tokens := by
  intro r _
  rw [hs, if_pos rfl]

/-- A text between two pieces of which the second stops it. -/
theorem Reads.enclosed {left right : Text} {before after : List Token} (hleft : Opens left before)
    (hs : Reads s p tokens) (hright : Opens right after) (hstop : stops right = true) :
    Reads (left ++ s ++ right) p (before ++ tokens ++ after) := by
  have h := (hleft.reads hs).append hright.toReads hstop
  rwa [Bool.and_true] at h

theorem reads_intercalate {α : Type} {text : α → Text} {sound : α → Bool}
    {tokensOf : α → List Token} {xs : List α} {sep : Text} (hne : xs ≠ [])
    (h : ∀ x ∈ xs, Reads (text x) (sound x) (tokensOf x)) (hsep : Opens sep others)
    (hstop : stops sep = true) :
    Reads (List.intercalate sep (xs.map text)) (xs.all sound)
      (List.intercalate others (xs.map tokensOf)) := by
  induction xs with
  | nil => exact absurd rfl hne
  | cons x xs ih =>
    have hx := h x List.mem_cons_self
    rcases xs with - | ⟨x', xs⟩
    · simpa using hx
    · have hrest := ih (List.cons_ne_nil x' xs) fun y hy => h y (List.mem_cons_of_mem x hy)
      have hall := hx.append (hsep.reads hrest) (stops_append hstop _)
      simpa only [List.map_cons, List.intercalate_cons_cons, List.append_assoc, List.all_cons]
        using hall

end Pieces

/-! ### Names -/

/-- Whether a text is a name. -/
def isName : Text → Bool
  | [] => false
  | c :: rest => isNameStart c && rest.all isNamePart

theorem lexFrom_name {rest : Text} (h : rest.all isNamePart = true) (spelled r : Text) :
    lexFrom (.name spelled) (rest ++ r) = lexFrom (.name (spelled ++ rest)) r := by
  induction rest generalizing spelled with
  | nil => rw [List.nil_append, List.append_nil]
  | cons c rest ih =>
    rw [List.all_cons, Bool.and_eq_true] at h
    have hstep : step (.name spelled) c = some ([], .name (spelled ++ [c])) := by
      simp only [step, h.1, if_true]
    rw [List.cons_append, lexFrom_cons_of_nil hstep, ih h.2, List.append_assoc]
    rfl

theorem reads_name {word : Text} (h : isName word = true) : Reads word true [.name word] := by
  intro r hr
  cases word with
  | nil => cases h
  | cons c rest =>
    rw [isName, Bool.and_eq_true] at h
    have hstep : step .between c = some ([], .name [c]) := by
      simp only [step, stepBetween, h.1, if_true]
    rw [List.cons_append, lexFrom_cons_of_nil hstep, lexFrom_name h.2, if_pos rfl]
    exact lexFrom_of_endsToken rfl (fun d hd => (step_of_isStop hd).1 _) hr

/-! ### Strings -/

/-- Whether a text has no character that a literal leaves as it is and a string must not have. -/
def isUnbroken (s : Text) : Bool := s.all fun c => decide (c ≠ '\r' ∧ c ≠ '\x00')

theorem lexFrom_literalChar {c : Char} (h : c ≠ '\r' ∧ c ≠ '\x00') (value r : Text) :
    lexFrom (.inside value) (literalChar c ++ r) = lexFrom (.inside (value ++ [c])) r := by
  by_cases hquote : c = '"'
  · subst hquote
    exact (lexFrom_cons_of_nil rfl _).trans (lexFrom_cons_of_nil rfl r)
  by_cases hbackslash : c = '\\'
  · subst hbackslash
    exact (lexFrom_cons_of_nil rfl _).trans (lexFrom_cons_of_nil rfl r)
  by_cases hline : c = '\n'
  · subst hline
    exact (lexFrom_cons_of_nil rfl _).trans (lexFrom_cons_of_nil rfl r)
  by_cases htab : c = '\t'
  · subst htab
    exact (lexFrom_cons_of_nil rfl _).trans (lexFrom_cons_of_nil rfl r)
  have hplain : literalChar c = [c] := by
    rw [literalChar, if_neg hquote, if_neg hbackslash, if_neg hline, if_neg htab]
  have hstep : step (.inside value) c = some ([], .inside (value ++ [c])) := by
    simp [step, stepInside, breaks, hquote, hbackslash, hline, h.1, h.2]
  rw [hplain]
  exact lexFrom_cons_of_nil hstep r

theorem lexFrom_literalChar_of_break {c : Char} (h : c = '\r' ∨ c = '\x00') (value r : Text) :
    lexFrom (.inside value) (literalChar c ++ r) = none := by
  rcases h with rfl | rfl
  · exact lexFrom_cons_of_none rfl r
  · exact lexFrom_cons_of_none rfl r

theorem lexFrom_flatMap_literalChar (s value r : Text) :
    lexFrom (.inside value) (s.flatMap literalChar ++ r) =
      if isUnbroken s then lexFrom (.inside (value ++ s)) r else none := by
  induction s generalizing value with
  | nil => rw [List.append_nil]; rfl
  | cons c s ih =>
    rw [List.flatMap_cons, List.append_assoc]
    by_cases hc : c ≠ '\r' ∧ c ≠ '\x00'
    · rw [lexFrom_literalChar hc, ih]
      simp [isUnbroken, hc]
    · rw [lexFrom_literalChar_of_break (by rwa [not_and_or, not_not, not_not] at hc)]
      simp [isUnbroken, hc]

theorem lexFrom_opened {s : Text} (h : ∀ t, s ≠ '"' :: t) :
    lexFrom .opened s = lexFrom (.inside []) s := by
  cases s with
  | nil => rfl
  | cons c s =>
    have hc : c ≠ '"' := fun hc => h s (by rw [hc])
    simp only [lexFrom, step, hc, if_false]

/-- **String literals** are read as their values, unless a character breaks them off. -/
theorem reads_stringLiteral (s : Text) : Reads (stringLiteral s) (isUnbroken s) [.string s] := by
  intro r hr
  have hopened : step .between '"' = some ([], .opened) := rfl
  have hemptied : step .opened '"' = some ([], .emptied) := rfl
  rw [stringLiteral_append, lexFrom_cons_of_nil hopened]
  cases s with
  | nil =>
    rw [List.flatMap_nil, List.nil_append, lexFrom_cons_of_nil hemptied]
    exact lexFrom_of_endsToken rfl (fun d hd => (step_of_isStop hd).2) hr
  | cons c s =>
    rw [lexFrom_opened, lexFrom_flatMap_literalChar]
    · exact congrArg (ite _ · none) (lexFrom_cons rfl r)
    · rw [List.flatMap_cons, List.append_assoc]
      exact literalChar_append_ne c _

theorem lex_stringLiteral (s : Text) :
    lex (stringLiteral s) = if isUnbroken s then some [.string s] else none := by
  have hread := reads_stringLiteral s [] rfl
  rw [List.append_nil] at hread
  rw [lex, hread]
  rfl

end CallLexer

/-! ### Lines and quotes of literals -/

theorem lineFeed_notMem_stringLiteral (s : Text) : '\n' ∉ stringLiteral s := by
  have hchar : ∀ c, '\n' ∉ literalChar c := by
    intro c
    unfold literalChar
    split_ifs with hquote hbackslash hline htab
    · decide
    · decide
    · decide
    · decide
    · exact fun h => hline (List.mem_singleton.mp h).symm
  simp [stringLiteral, hchar]

theorem carriageReturn_mem_stringLiteral (s : Text) : '\r' ∈ stringLiteral s ↔ '\r' ∈ s := by
  have hchar : ∀ c, '\r' ∈ literalChar c ↔ '\r' = c := by
    intro c
    unfold literalChar
    split_ifs with hquote hbackslash hline htab
    · subst hquote
      decide
    · subst hbackslash
      decide
    · subst hline
      decide
    · subst htab
      decide
    · exact List.mem_singleton
  simp [stringLiteral, hchar]

/-- The only quotes of a literal that are not escaped are its first and its last character. -/
theorem afterPhrase?_stringLiteral (s : Text) : afterPhrase? (stringLiteral s) = some [] := by
  have hbody : afterQuote? false (s.flatMap literalChar ++ ['"']) = some [] := by
    induction s with
    | nil => rfl
    | cons c s ih =>
      rw [List.flatMap_cons, List.append_assoc]
      rcases literalChar_cases c with ⟨hc, hquote, hbackslash⟩ | ⟨e, hc, -⟩
      · rw [hc]
        simpa [afterQuote?, hquote, hbackslash] using ih
      · rw [hc]
        simpa [afterQuote?] using ih
  exact hbody

end FilterAlgebra
