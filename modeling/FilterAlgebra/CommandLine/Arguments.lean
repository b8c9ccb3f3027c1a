import FilterAlgebra.Query.Descriptor

/-!
# Arguments

The command line has one command with its arguments. Only the first command has options, which may
stand anywhere among its arguments, each at most once, with their value behind an equals sign or in
the next word. A word that begins with a hyphen is an option, unless it is a lone hyphen or stands
behind `--`.
-/

namespace FilterAlgebra

/-- What is asked for on the command line. -/
inductive Command where
  /-- Main query and filter queries. -/
  | query (scope : Namespace) (config : Option Text) (filters : Text)
  /-- Combined formula of relevance items. -/
  | relevance (items : Text)
  /-- Call of the client library. -/
  | call (resource function filters : Text)
  /-- Condition for the relational store. -/
  | relational (filters : Text)
  | encode (filters : Text)
  | decode (wire : Text)
  deriving DecidableEq, Repr

/-- The words behind a command, sorted out. -/
structure Arguments where
  positional : List Text := []
  scope : Option Text := none
  config : Option Text := none
  deriving DecidableEq, Repr

namespace Arguments

/-- Whether a word is taken for an option. -/
def isOption : Text → Bool
  | '-' :: _ :: _ => true
  | _ => false

/-- The arguments with one more in front. -/
def withPositional (word : Text) (a : Arguments) : Arguments :=
  { a with positional := word :: a.positional }

/-- The arguments with an option set, unless it has been set already or is not known. -/
def withOption? (name value : Text) (a : Arguments) : Option Arguments :=
  if name = "--namespace" ∧ a.scope = none then some { a with scope := some value }
  else if name = "--config" ∧ a.config = none then some { a with config := some value }
  else none

/-- Sorts out words; `options` tells whether the command has any. -/
def sort? (options : Bool) : List Text → Option Arguments
  | [] => some {}
  | word :: rest =>
    if word = "--" then some { positional := rest }
    else if isOption word then
      if !options then none
      else
        match Text.splitOnce? ['='] word with
        | some (name, value) => (sort? options rest).bind (withOption? name value)
        | none =>
          match rest with
          | [] => none
          | value :: rest =>
            if isOption value then none else (sort? options rest).bind (withOption? word value)
    else (sort? options rest).map (withPositional word)

end Arguments

namespace Command

/-- The command with the given name and words, if they make one. -/
def ofWords? (name : Text) (words : List Text) : Option Command := do
  let arguments ← Arguments.sort? (decide (name = "solr")) words
  match arguments.positional with
  | [input] =>
    if name = "solr" then
      match Namespace.ofName (arguments.scope.getD "search") with
      | .ok scope => some (.query scope arguments.config input)
      | .error _ => none
    else if name = "relevance" then some (.relevance input)
    else if name = "relational" then some (.relational input)
    else if name = "encode" then some (.encode input)
    else if name = "decode" then some (.decode input)
    else none
  | [resource, function, filters] =>
    if name = "python" then some (.call resource function filters) else none
  | _ => none

/-- The command that the words of a command line make, if they make one. -/
def parse? : List Text → Option Command
  | [] => none
  | name :: words => ofWords? name words

end Command

end FilterAlgebra
