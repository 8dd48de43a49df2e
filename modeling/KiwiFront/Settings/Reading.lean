import KiwiFront.Settings
import KiwiFront.Settings.Value
import KiwiFront.Text.LowerCase
import KiwiFront.Text.Quoted

/-!
# Reading settings

Every switch stands in a section of its own. A section is a table with the name of
the switch as a key; other keys do not matter. A list in the place of the table
gives the switch as its first item. The value of a switch may be written as a truth
value, as a number, which is off at zero, or as one of some words.
-/

namespace KiwiFront

/-- A section of the settings and the one switch in it. -/
structure Section where
  name : String
  switch : String
  /-- What the section is called in messages. -/
  title : String
deriving DecidableEq

namespace Section

def lexer : Section := ⟨"lexer", "fuse_sigil_names", "LexerConfig"⟩

def parser : Section := ⟨"parser", "packrat", "ParserConfig"⟩

def inspect : Section := ⟨"inspect", "show_spans", "InspectConfig"⟩

end Section

/-- Why settings cannot be read from a tree of values. -/
inductive ReadingError where
  /-- The value of a switch, at a path, cannot be understood. -/
  | notASwitch (found : String) (key : String) (origin : Option String)
  /-- Something stands in the place of a section. -/
  | notASection (found : String) (sought : Section)
  /-- A section is a list without items. -/
  | emptyList (sought : Section)
  /-- A section has no key for its switch. -/
  | missing (sought : Section)
deriving DecidableEq

/-- What the value of a switch should have been. -/
def ReadingError.expectedSwitch : String := "a boolean"

/-- The wording of an error. -/
def ReadingError.message : ReadingError -> String
  | .notASwitch found key origin =>
      let place := match origin with
        | some file => s!" in {file}"
        | none => ""
      s!"invalid type: {found}, expected {expectedSwitch} for key `{key}`{place}"
  | .notASection found sought => s!"invalid type: {found}, expected struct {sought.title}"
  | .emptyList sought => s!"invalid length 0, expected struct {sought.title} with 1 element"
  | .missing sought => s!"missing field `{sought.switch}`"

/-- Words for a switch that is on. -/
def onWords : List String := ["1", "true", "on", "yes"]

/-- Words for a switch that is off. -/
def offWords : List String := ["0", "false", "off", "no"]

namespace Scalar

/-- How messages name a value. Finite floats always have a point. -/
def describe : Scalar -> String
  | .nothing => "unit value"
  | .boolean value => s!"boolean `{value}`"
  | .integer value => s!"integer `{value}`"
  | .float value =>
      let text := value.toText
      let fraction := if value.isFinite && !text.toList.contains '.' then ".0" else ""
      s!"floating point `{text}{fraction}`"
  | .text value => s!"string {Text.quoted value}"

/-- The state of a switch, or how a message names what is none. -/
def readSwitch : Scalar -> Except String Bool
  | .nothing => .error (describe .nothing)
  | .boolean value => .ok value
  | .integer value => .ok (value != 0)
  | .float value => .ok !value.isZero
  | .text value =>
      let word := Text.lowerCase value
      if onWords.contains word then .ok true
      else if offWords.contains word then .ok false
      else .error (describe (.text word))

end Scalar

namespace SettingValue

/-- The state of a switch at a path. -/
def readSwitch (key : String) : SettingValue -> Except ReadingError Bool
  | .scalar origin value => value.readSwitch.mapError (.notASwitch · key origin)
  | .list origin _ => .error (.notASwitch "sequence" key origin)
  | .table origin _ => .error (.notASwitch "map" key origin)

/-- The state of the switch of a section. -/
def readSection (sought : Section) : SettingValue -> Except ReadingError Bool
  | .scalar _ value => .error (.notASection value.describe sought)
  | .list _ [] => .error (.emptyList sought)
  | .list _ (first :: _) => first.readSwitch s!"{sought.name}[0]"
  | .table _ entries =>
      match entries.lookup sought.switch with
      | some value => value.readSwitch s!"{sought.name}.{sought.switch}"
      | none => .error (.missing sought)

/-- The switch of a section in the outermost table. -/
def readNamed (entries : List (String × SettingValue)) (sought : Section) :
    Except ReadingError Bool :=
  ((entries.lookup sought.name).getD .emptyTable).readSection sought

end SettingValue

namespace Settings

/-- Reads settings from the entries of the outermost table. -/
def ofEntries (entries : List (String × SettingValue)) : Except ReadingError Settings := do
  let joinNames ← SettingValue.readNamed entries .lexer
  let packrat ← SettingValue.readNamed entries .parser
  let showSpans ← SettingValue.readNamed entries .inspect
  return ⟨joinNames, packrat, showSpans⟩

/-- A table for the switch of a section. -/
def sectionEntry (sought : Section) (state : Bool) : String × SettingValue :=
  (sought.name, .table none [(sought.switch, .scalar none (.boolean state))])

/-- Settings as the entries of the outermost table. -/
def toEntries (settings : Settings) : List (String × SettingValue) :=
  [sectionEntry .lexer settings.joinNames, sectionEntry .parser settings.packrat,
    sectionEntry .inspect settings.showSpans]

theorem ofEntries_toEntries (settings : Settings) :
    ofEntries settings.toEntries = .ok settings := by
  cases settings
  rfl

end Settings

end KiwiFront
