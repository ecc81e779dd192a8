import ScriptPack.Compile
import ScriptPack.Json.Skip
import ScriptPack.Toml.Reader

/-!
Settings files, which give options for every compilation of a project. They are JSON or TOML
documents with the same fields; fields of other names mean nothing.
-/

namespace ScriptPack

structure Settings where
  packName : Option String := none
  includeDirectories : List String := []
  definitions : List (String × String) := []
  features : List String := []
  gameVersion : Option String := none
  /-- Where packs are written. -/
  outputDirectory : Option String := none

/-- What the values of a format can be read as. -/
structure SettingReader (α : Type) where
  text? : α → Option String
  texts? : α → Option (List String)
  textsByName? : α → Option (List (String × String))

namespace Settings

def fieldNames : List String :=
  ["project_name", "include_directories", "custom_variables", "features", "target_version",
    "output_directory"]

def optional {α β : Type} (read? : α → Option β) : Option α → Option (Option β)
  | none => some none
  | some value => (read? value).map some

def ofFields? {α : Type} (reader : SettingReader α) (field? : String → Option α) :
    Option Settings := do
  let packName ← optional reader.text? (field? "project_name")
  let includeDirectories ← optional reader.texts? (field? "include_directories")
  let definitions ← optional reader.textsByName? (field? "custom_variables")
  let features ← optional reader.texts? (field? "features")
  let gameVersion ← optional reader.text? (field? "target_version")
  let outputDirectory ← optional reader.text? (field? "output_directory")
  some {
    packName
    includeDirectories := includeDirectories.getD []
    definitions := definitions.getD []
    features := features.getD []
    gameVersion
    outputDirectory }

def putVariable (definitions : List (String × String)) (given : String × String) :
    List (String × String) :=
  definitions.filter (fun other => other.1 != given.1) ++ [given]

end Settings

def Json.texts? (json : Json) : Option (List String) := do
  (← json.items?).mapM text?

def Json.textsByName? : Json → Option (List (String × String))
  | .object members => do
      let pairs ← members.mapM fun (name, value) => value.text?.map fun text => (name, text)
      some (pairs.foldl Settings.putVariable [])
  | _ => none

def Json.settingReader : SettingReader Json := ⟨text?, texts?, textsByName?⟩

def Toml.text? : Toml → Option String
  | .string text => some text
  | _ => none

def Toml.texts? : Toml → Option (List String)
  | .array items => items.mapM text?
  | _ => none

def Toml.momentName : String := "$__toml_private_datetime"

def Toml.textsByName? : Toml → Option (List (String × String))
  | .table _ members =>
      members.mapM fun (name, value) => value.text?.map fun text => (name, text)
  | .moment written => some [(momentName, written)]
  | _ => none

def Toml.settingReader : SettingReader Toml := ⟨text?, texts?, textsByName?⟩

namespace Settings

/-- The settings of a JSON document. No field of theirs may be repeated; null is the same as an
absent field. An array gives every field without its name. -/
def ofJson? (document : Json) : Option Settings :=
  match document with
  | .object members =>
      if fieldNames.all fun name => (members.countP fun member => member.1 == name) ≤ 1 then
        ofMembers members
      else none
  | .array items =>
      if items.length == fieldNames.length then ofMembers (fieldNames.zip items) else none
  | _ => none
where
  ofMembers (members : List (String × Json)) : Option Settings :=
    ofFields? Json.settingReader fun name =>
      match members.lookup name with
      | some .null => none
      | other => other

def ofToml? (members : Toml.Members) : Option Settings :=
  ofFields? Toml.settingReader (Toml.get? members)

def ofText (path text : String) : Except SettingFault Settings :=
  let endsWith := fun ending : String => (Text.beforeEnd? ending.toList path.toList).isSome
  if endsWith ".json" then
    match (Json.readSome? fieldNames.contains text).bind ofJson? with
    | some settings => .ok settings
    | none => .error .malformedJson
  else if endsWith ".toml" then
    match (Toml.read? text).bind ofToml? with
    | some settings => .ok settings
    | none => .error .malformedToml
  else .error .unknownSettingsFormat

def load (storage : FileTree) (path : String) : Except Error Settings := do
  let text ← (storage.readText path).mapError fun cause =>
    .unreadable s!"Config file {path}" cause.message
  (ofText path text).mapError .setting

def options (settings : Settings) : Options where
  packName := settings.packName
  includeDirectories := settings.includeDirectories
  definitions := settings.definitions
  features := settings.features
  gameVersion := settings.gameVersion

end Settings

end ScriptPack
