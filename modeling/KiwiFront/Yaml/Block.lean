import KiwiFront.Data.Datum
import KiwiFront.Yaml.Scalar

/-!
# Block output

Objects and lists are written over several lines. The fields of an object stand
two columns deeper than the object that holds it, the items of a list in the
column of the key before them. The first field of an object in a list follows
right behind the dash. Lists and objects without contents are written in brackets.
-/

namespace KiwiFront.Yaml

/-- Blanks at the start of a line. -/
def blanks (indentation : Nat) : String :=
  String.ofList (List.replicate indentation ' ')

mutual

/-- What follows behind a key whose line starts at an indentation, up to the end of
the last line. -/
def writeValue (indentation : Nat) : Datum -> String
  | .null => " null\n"
  | .integer value => " " ++ toString value ++ "\n"
  | .text value => " " ++ scalar (indentation + 2) value ++ "\n"
  | .list [] => " []\n"
  | .list items => "\n" ++ writeItems indentation items
  | .object [] => " \x7b\x7d\n"
  | .object fields => "\n" ++ writeFields (indentation + 2) fields

/-- The items of a list, each behind a dash in a column. -/
def writeItems (indentation : Nat) : List Datum -> String
  | [] => ""
  | item :: rest =>
      blanks indentation ++ "-" ++ writeItem indentation item ++ writeItems indentation rest

/-- What follows behind a dash. -/
def writeItem (indentation : Nat) : Datum -> String
  | .null => " null\n"
  | .integer value => " " ++ toString value ++ "\n"
  | .text value => " " ++ scalar (indentation + 2) value ++ "\n"
  | .list [] => " []\n"
  | .list (item :: rest) =>
      " -" ++ writeItem (indentation + 2) item ++ writeItems (indentation + 2) rest
  | .object [] => " \x7b\x7d\n"
  | .object ((key, value) :: rest) =>
      " " ++ scalar 0 key ++ ":" ++ writeValue (indentation + 2) value ++
        writeFields (indentation + 2) rest

/-- The fields of an object, each on lines of its own that start in a column. -/
def writeFields (indentation : Nat) : List (String × Datum) -> String
  | [] => ""
  | (key, value) :: rest =>
      blanks indentation ++ scalar 0 key ++ ":" ++ writeValue indentation value ++
        writeFields indentation rest

end

/-- A datum as YAML text. It ends with a line feed. -/
def ofDatum : Datum -> String
  | .null => "null\n"
  | .integer value => toString value ++ "\n"
  | .text value => scalar 2 value ++ "\n"
  | .list [] => "[]\n"
  | .list items => writeItems 0 items
  | .object [] => "\x7b\x7d\n"
  | .object fields => writeFields 0 fields

end KiwiFront.Yaml
