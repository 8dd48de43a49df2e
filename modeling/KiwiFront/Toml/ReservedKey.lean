import KiwiFront.Toml.DateTime
import KiwiFront.Toml.Value

/-!
# The reserved key

One key is reserved for dates and times. A table in which it comes first is no table
but stands for the date or the time in the text behind the key, and whatever else is
in the table does not matter. In any other place the key is like all others.
-/

namespace KiwiFront.Toml

/-- The key that is reserved for dates and times. -/
def reservedKey : String := "$__toml_private_datetime"

mutual

/-- A value with dates and times in the place of the tables that stand for them;
nothing if such a table holds neither. -/
def Value.resolve : Value -> Option Value
  | .array items => (resolveItems items).map .array
  | .table ((key, first) :: rest) =>
      if key = reservedKey then
        match first with
        | .text text => (dateTimeOfText? text).map .dateTime
        | _ => none
      else do
        let first ← first.resolve
        return .table ((key, first) :: (← resolveEntries rest))
  | given => some given

/-- The items of an array, resolved. -/
def resolveItems : List Value -> Option (List Value)
  | [] => some []
  | item :: rest => do
      let first ← item.resolve
      return first :: (← resolveItems rest)

/-- The entries of a table that is one, resolved. -/
def resolveEntries : List (String × Value) -> Option (List (String × Value))
  | [] => some []
  | (key, value) :: rest => do
      let first ← value.resolve
      return (key, first) :: (← resolveEntries rest)

end

end KiwiFront.Toml
