import KiwiFront.Toml.DateTime
import KiwiFront.Toml.Number
import KiwiFront.Toml.ReservedKey
import KiwiFront.Toml.Text
import KiwiFront.Toml.Value

/-!
# Documents

A document consists of lines. A line is blank, or holds an assignment or a heading;
a comment may end it. Arrays and inline tables nest up to a limit, and a dotted key
has no more parts than that limit allows. Line breaks may stand within arrays, but
not within inline tables.
-/

namespace KiwiFront.Toml

open Reader

/-- Arrays and inline tables nest less deep than this, and dotted keys have fewer
parts. -/
def depthLimit : Nat := 80

/-- Whether keys may contain a character without quotes. -/
def isKeyCharacter (character : Char) : Bool :=
  character.isAlphanum || character == '-' || character == '_'

/-- One part of a key. -/
def keyPart : Reader String :=
  oneOf [
    lineText '"',
    lineText '\'',
    (do
      let characters ← run isKeyCharacter
      require !characters.isEmpty
      return String.ofList characters)]

/-- The parts of a key: the path and the last one. -/
def key : Reader (List String × String) := do
  let parts ← separated '.' (do
    blanks
    let part ← keyPart
    blanks
    return part)
  require (decide (parts.length < depthLimit))
  match parts.getLast? with
  | some last => return (parts.dropLast, last)
  | none => failure

/-- A key with a value behind an equals sign. -/
def assignment (value : Reader Value) : Reader Assignment := do
  let (path, last) ← key
  character '='
  blanks
  let given ← value
  return ⟨path, last, given⟩

/-- A value without parts. -/
def scalar : Reader Value :=
  oneOf [
    (do return .text (← quotedText)),
    (do return .dateTime (← dateTime)),
    (do return .float (← float)),
    (do return .integer (← integer)),
    (do exactly "true"; return .boolean true),
    (do exactly "false"; return .boolean false)]

/-- An array. Its last item may have a comma behind it. -/
def array (value : Reader Value) : Reader Value := do
  character '['
  let items ← maybe (do
    let items ← separated ',' (do
      blankLines
      let item ← value
      blankLines
      return item)
    let _ ← maybe (character ',')
    return items)
  blankLines
  character ']'
  return .array (items.getD [])

/-- A table between braces. Nothing can be added to it later on. -/
def inlineTable (value : Reader Value) : Reader Value := do
  character '\x7b'
  let assignments ← maybe (separated ',' (do
    let given ← assignment value
    blanks
    return given))
  blanks
  character '\x7d'
  match Assignment.addAll [] (assignments.getD []) with
  | some entries => return .table (closeEntries entries)
  | none => failure

/-- A value with at most so many arrays and inline tables around any part of it. -/
def value : Nat -> Reader Value
  | 0 => scalar
  | depth + 1 => oneOf [scalar, array (value depth), inlineTable (value depth)]

/-- What a line may hold. -/
inductive Line where
  | blank
  | assignment (given : Assignment)
  | heading (isElement : Bool) (path : List String) (key : String)

/-- A heading. -/
def heading : Reader Line := do
  character '['
  let inner ← maybe (character '[')
  let (path, last) ← key
  character ']'
  if inner.isSome then character ']'
  return .heading inner.isSome path last

/-- The end of a line, or of the document. -/
def lineEnd : Reader Unit := do
  if (← peek).isSome then lineBreak

/-- A line with its end. -/
def line : Reader Line := do
  blanks
  let content ← maybe (oneOf [
    heading,
    (do return .assignment (← assignment (value (depthLimit - 1))))])
  blanks
  let _ ← maybe comment
  lineEnd
  return content.getD .blank

/-- The assignments before the first heading, and the blocks of the headings. -/
def gather : List Line -> List Assignment × List Block
  | [] => ([], [])
  | .blank :: rest => gather rest
  | .assignment given :: rest =>
      let (first, blocks) := gather rest
      (given :: first, blocks)
  | .heading isElement path key :: rest =>
      let (below, blocks) := gather rest
      ([], ⟨isElement, path, key, below⟩ :: blocks)

/-- The character that may mark the start of a text. -/
def startMark : Char := '\ufeff'

/-- The lines of a document. -/
def lines : Reader (List Line) := do
  let _ ← maybe (character startMark)
  many line

/-- Reads a document; nothing if it is malformed. It holds a table, unless that table
stands for a date or a time. -/
def read? (text : String) : Option Value := do
  let (first, blocks) := gather (← all? lines text.toList)
  let start ← Assignment.addAll [] first
  let entries ← blocks.foldlM Block.add start
  (Value.table (closeEntries entries)).resolve

end KiwiFront.Toml
