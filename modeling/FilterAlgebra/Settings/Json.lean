import FilterAlgebra.Json.Decoding
import FilterAlgebra.Settings.Basic

/-!
# Settings as JSON

Settings are an object of the languages and of what matches everything, or a list of the two. What
is left out keeps its default.
-/

namespace FilterAlgebra

open Json

structure SettingsDraft where
  languages : Option (List Text) := none
  universalQuery : Option Text := none

namespace SettingsDraft

def readMember (draft : SettingsDraft) (key : Text) (value : Reading) : Decoded SettingsDraft :=
  if key = "languages" then do
    let decode := decodeList decodeText
    return { draft with languages := ← decodeField key draft.languages decode value }
  else if key = "universal_query" then do
    return { draft with universalQuery := ← decodeField key draft.universalQuery decodeText value }
  else do
    skipValue value
    return draft

/-- The settings with the defaults for what is left out. -/
def settings (draft : SettingsDraft) : Settings :=
  let defaults : Settings := {}
  { languages := draft.languages.getD defaults.languages
    universalQuery := draft.universalQuery.getD defaults.universalQuery }

def decoder : StructureDecoder SettingsDraft Settings where
  name := "CompilerConfig"
  fieldCount := 2
  start := {}
  member := readMember
  position index draft value :=
    draft.readMember (if index = 0 then "languages" else "universal_query") value
  finish draft := .ok draft.settings
  finishList _ draft := .ok draft.settings

end SettingsDraft

def decodeSettings (form : Form) (reading : Reading) : Decoded Settings :=
  SettingsDraft.decoder.run form reading

end FilterAlgebra
