import KiwiFront.Files
import KiwiFront.Settings.Layering
import KiwiFront.Settings.Reading
import KiwiFront.Toml.Document

/-!
# Loading settings

Settings come from the built-in defaults, then from files in order, then from
overrides. A file may be optional: then it does not matter whether it can be read,
but what is read has to be well-formed. A name without a file stands for the file
with `.toml` behind the name.
-/

namespace KiwiFront

mutual

/-- A value of a file as the value of a setting. -/
def SettingValue.ofToml (origin : String) : Toml.Value -> SettingValue
  | .boolean value => .scalar origin (.boolean value)
  | .integer value => .scalar origin (.integer value)
  | .float value => .scalar origin (.float value)
  | .text value => .scalar origin (.text value)
  | .dateTime value => .scalar origin (.text value)
  | .array items => .list origin (ofTomlItems origin items)
  | .table entries => .table origin (ofTomlEntries origin entries)

/-- The items of an array of a file. -/
def ofTomlItems (origin : String) : List Toml.Value -> List SettingValue
  | [] => []
  | item :: rest => SettingValue.ofToml origin item :: ofTomlItems origin rest

/-- The entries of a table of a file. -/
def ofTomlEntries (origin : String) :
    List (String × Toml.Value) -> List (String × SettingValue)
  | [] => []
  | (key, value) :: rest =>
      (key, SettingValue.ofToml origin value) :: ofTomlEntries origin rest

end

/-- A file to load settings from. -/
structure Layer where
  name : String
  required : Bool
deriving DecidableEq

/-- Why settings cannot be loaded. -/
inductive LoadError where
  /-- A required file does not exist. -/
  | notFound (name : String)
  /-- A required file is no text. -/
  | notUnicode
  /-- A file is no document. -/
  | malformed (origin : String)
  /-- A document holds something else than a table. -/
  | notATable (found : String) (origin : String)
  /-- The path of an override is malformed. -/
  | badPath (path : String)
  | reading (cause : ReadingError)
deriving DecidableEq

/-- The wording of an error. -/
def LoadError.message : LoadError -> String
  | .notFound name => s!"configuration file \"{name}\" not found"
  | .notUnicode => notUnicodeMessage
  | .malformed origin => s!"malformed document in {origin}"
  | .notATable found origin =>
      s!"invalid type: {found}, expected a map in {origin} in {origin}"
  | .badPath path => s!"malformed path {Text.quoted path}"
  | .reading cause => cause.message

namespace Layer

/-- What is added to a name that no file has. -/
def extension : String := ".toml"

/-- The names that a layer may have, the preferred one first. -/
def candidates (name : String) : List String :=
  match (pathParts name).getLast? with
  | none => [name]
  | some ".." => [name]
  | some _ => [name, plainPath name ++ extension]

/-- The contents of the file at a path, if there is a file. -/
def contents? (files : Files) (path : String) : Option (String × ByteArray) :=
  match files path with
  | .file contents => some (path, contents)
  | _ => none

/-- Reads the entries of a layer; an optional layer that cannot be read has none. -/
def load (files : Files) (layer : Layer) :
    Except LoadError (List (String × SettingValue)) :=
  match (candidates layer.name).findSome? (contents? files) with
  | none => if layer.required then .error (.notFound layer.name) else .ok []
  | some (path, contents) =>
      match String.fromUTF8? contents with
      | none => if layer.required then .error .notUnicode else .ok []
      | some text =>
          let origin := plainPath path
          match (Toml.read? text).map (SettingValue.ofToml origin) with
          | some (.table _ entries) => .ok entries
          | some (.scalar _ value) => .error (.notATable value.describe origin)
          | _ => .error (.malformed origin)

end Layer

/-- A value for what a path leads to. -/
structure Override where
  path : SettingPath
  value : SettingValue

/-- Reads the path of an override. -/
def Override.ofText (path : String) (value : SettingValue) : Except LoadError Override :=
  match SettingPath.read? path with
  | some path => .ok ⟨path, value⟩
  | none => .error (.badPath path)

namespace Settings

/-- The tree of values that layers and overrides make of the defaults. -/
def collect (files : Files) (layers : List Layer) (overrides : List Override) :
    Except LoadError SettingValue := do
  let start := SettingValue.table none Settings.default.toEntries
  let layered ← layers.foldlM (fun target layer => do
    return target.overLayer (← layer.load files)) start
  return overrides.foldl (fun target override =>
    SettingValue.assign override.value override.path.steps target) layered

/-- Loads settings. -/
def load (files : Files) (layers : List Layer) (overrides : List Override) :
    Except LoadError Settings := do
  let collected ← collect files layers overrides
  (Settings.ofEntries collected.entries).mapError .reading

end Settings

end KiwiFront
