import FilterAlgebra.Text.Blank

/-!
# Settings

What the compiler can be told: the languages over which text fields fan out, and the text that
matches everything in the search engine. The environment may set either; blank settings count as
absent ones.
-/

namespace FilterAlgebra

structure Settings where
  /-- The languages of text fields, in output order. -/
  languages : List Text := ["en", "fr", "de"]
  /-- What matches everything in the search engine. -/
  universalQuery : Text := "*:*"
  deriving DecidableEq, Repr

/-- What the environment says about the settings. -/
structure Environment where
  languages : Option Text := none
  universalQuery : Option Text := none
  deriving DecidableEq, Repr

namespace Settings

/-- The languages in a list with commas, without blanks around them. -/
def languagesOf (s : Text) : List Text :=
  ((Text.splitOn ',' s).map Text.trim).filter fun language => language ≠ []

/-- The settings that an environment asks for, and the defaults for those it leaves open. -/
def ofEnvironment (env : Environment) : Settings :=
  let defaults : Settings := {}
  let languages := languagesOf (env.languages.getD [])
  let universal := Text.trim (env.universalQuery.getD [])
  { languages := if languages = [] then defaults.languages else languages
    universalQuery := if universal = [] then defaults.universalQuery else universal }

end Settings

end FilterAlgebra
