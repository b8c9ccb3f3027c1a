import FilterAlgebra.CommandLine.Arguments
import FilterAlgebra.Relational.Json
import FilterAlgebra.Relevance.Json
import FilterAlgebra.Settings.Json
import FilterAlgebra.Tally
import FilterAlgebra.Wire.Filters

/-!
# Running commands

A command reads its input, compiles it and gives the text to print. Input is given as it is, as the
name of a file behind an at sign, or by a hyphen for what comes in. Files and environment are values
here, so running a command is a function of what surrounds it.
-/

namespace FilterAlgebra

open Json

structure Surroundings where
  /-- The content of files by name. -/
  file : Text → Option Text
  /-- What comes in on the standard input. -/
  incoming : Text := []
  environment : Environment := {}

/-- Why a command gives nothing to print. -/
inductive CommandError where
  /-- The words make no command, or ask for help. -/
  | usage
  | failed (error : FilterError)
  | wire (error : Wire.DecodeError)
  /-- Input that cannot be read. -/
  | input (message : Text)
  deriving DecidableEq, Repr

namespace CommandError

def message : CommandError → Text
  | usage => "unknown command or arguments"
  | failed error => error.message
  | wire error => error.toFailure.message
  | input message => message

end CommandError

namespace Surroundings

/-- The content of a file that has to be there. -/
def readFile (s : Surroundings) (name : Text) : Except CommandError Text :=
  match s.file name with
  | some content => .ok content
  | none => .error (.input ("reading " ++ name))

/-- The input that an argument stands for. -/
def readInput (s : Surroundings) : Text → Except CommandError Text
  | ['-'] => .ok s.incoming
  | '@' :: name => s.readFile name
  | argument => .ok argument

/-- Decodes the JSON that an argument stands for. -/
def readJson {α : Type} (s : Surroundings) (decode : Reading → Decoded α) (argument : Text) :
    Except CommandError α := do
  let text ← s.readInput argument
  match decodeDocument decode text with
  | .ok value => .ok value
  | .error _ => .error (.input "parsing JSON input")

/-- The filters that an argument stands for. -/
def readFilters (s : Surroundings) (argument : Text) : Except CommandError (List Filter) :=
  s.readJson (decodeFilters .text) argument

/-- The settings of a file, or of the environment where no file is named. -/
def readSettings (s : Surroundings) : Option Text → Except CommandError Settings
  | none => .ok (.ofEnvironment s.environment)
  | some name => do
    let text ← s.readFile name
    match decodeDocument (decodeSettings .text) text with
    | .ok settings => .ok settings
    | .error _ => .error (.input ("parsing config " ++ name))

end Surroundings

/-- A condition as a report: its text, its values and the predicate itself. -/
def conditionReport (predicate : Predicate) : Json :=
  .obj
    [("sql", .str predicate.sql), ("binds", .texts predicate.binds),
      ("predicate", predicate.toJson)]

namespace Command

def run (s : Surroundings) : Command → Counted (Except CommandError Text)
  | query scope config filters =>
    let inputs : Except CommandError (Settings × List Filter) := do
      let settings ← s.readSettings config
      let filters ← s.readFilters filters
      return (settings, filters)
    match inputs with
    | .error error => return .error error
    | .ok (settings, filters) => do
      match ← Counted.query filters scope settings with
      | .ok parts => return .ok parts.toJson.pretty
      | .error error => return .error (.failed error)
  | relevance items =>
    match s.readJson decodeRelevanceItems items with
    | .error error => return .error error
    | .ok items => return .ok ((← Counted.combined items).getD [])
  | call resource function filters =>
    match s.readFilters filters with
    | .error error => return .error error
    | .ok filters => return .ok (← Counted.call resource function filters)
  | relational filters =>
    match s.readFilters filters with
    | .error error => return .error error
    | .ok filters => do
      match ← Counted.condition filters .wikidataId wikidataColumn with
      | some predicate => return .ok (conditionReport predicate).sorted.pretty
      | none => return .ok "null"
  | encode filters =>
    match s.readFilters filters with
    | .error error => return .error error
    | .ok filters => return .ok (Wire.encodeFilters filters)
  | decode wire =>
    match s.readInput wire with
    | .error error => return .error error
    | .ok wire =>
      match Wire.decodeFilters wire with
      | .ok filters => return .ok (filtersJson filters).pretty
      | .error error => return .error (.wire error)

/-- The inputs of a command, as arguments. -/
def inputs : Command → List Text
  | query _ _ filters => [filters]
  | relevance items => [items]
  | call _ _ filters => [filters]
  | relational filters => [filters]
  | encode filters => [filters]
  | decode wire => [wire]

/-- The names of the files that a command reads. -/
def fileNames (c : Command) : List Text :=
  let config := match c with
    | query _ (some name) _ => [name]
    | _ => []
  config ++ c.inputs.filterMap (Text.afterFirst? '@')

def runWords (s : Surroundings) (words : List Text) : Counted (Except CommandError Text) :=
  match parse? words with
  | none => return .error .usage
  | some command => command.run s

end Command

end FilterAlgebra
