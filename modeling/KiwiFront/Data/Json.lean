import KiwiFront.Data.Datum

/-!
# JSON output

Data are written over several lines: every item of a list and every field of an
object stands on a line of its own, two columns deeper than what holds it. Lists
and objects without contents stay on one line. Only quotes, backslashes and
control characters are escaped.
-/

namespace KiwiFront.Json

/-- A digit in base sixteen. -/
def hexDigit (value : Nat) : Char :=
  Nat.digitChar value

/-- The written form of one character of a text. -/
def escapeCharacter (character : Char) : List Char :=
  match character with
  | '"' => ['\\', '"']
  | '\\' => ['\\', '\\']
  | '\x08' => ['\\', 'b']
  | '\x0c' => ['\\', 'f']
  | '\n' => ['\\', 'n']
  | '\r' => ['\\', 'r']
  | '\t' => ['\\', 't']
  | _ =>
      let code := character.toNat
      if code < 0x20 then ['\\', 'u', '0', '0', hexDigit (code / 16), hexDigit (code % 16)]
      else [character]

/-- The written form of a text. -/
def quoted (text : String) : String :=
  "\"" ++ String.ofList (text.toList.flatMap escapeCharacter) ++ "\""

/-- The start of a line at a depth. -/
def lineStart (depth : Nat) : String :=
  "\n" ++ String.ofList (List.replicate (2 * depth) ' ')

mutual

/-- The written form of a datum that stands at a depth. -/
def write (depth : Nat) : Datum -> String
  | .null => "null"
  | .integer value => toString value
  | .text value => quoted value
  | .list [] => "[]"
  | .list items => "[" ++ writeItems (depth + 1) items ++ lineStart depth ++ "]"
  | .object [] => "\x7b\x7d"
  | .object fields => "\x7b" ++ writeFields (depth + 1) fields ++ lineStart depth ++ "\x7d"

/-- Items, separated by commas. -/
def writeItems (depth : Nat) : List Datum -> String
  | [] => ""
  | [item] => lineStart depth ++ write depth item
  | item :: rest => lineStart depth ++ write depth item ++ "," ++ writeItems depth rest

/-- Fields, separated by commas. -/
def writeFields (depth : Nat) : List (String × Datum) -> String
  | [] => ""
  | [(key, value)] => lineStart depth ++ quoted key ++ ": " ++ write depth value
  | (key, value) :: rest =>
      lineStart depth ++ quoted key ++ ": " ++ write depth value ++ "," ++ writeFields depth rest

end

/-- A datum as JSON text, without a line feed at its end. -/
def ofDatum (datum : Datum) : String :=
  write 0 datum

end KiwiFront.Json
