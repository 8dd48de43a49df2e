import KiwiFront.Decimal.Binary64

/-!
# Setting values

Settings are collected as a tree of values before they are read. A value remembers
the file that it comes from, if it comes from one; a table that is merged from
several layers belongs to none of them.
-/

namespace KiwiFront

open Decimal

/-- A value without parts. -/
inductive Scalar where
  | nothing
  | boolean (value : Bool)
  | integer (value : Int)
  | float (value : Binary64)
  | text (value : String)
deriving DecidableEq

/-- A value that a setting may have, with the file that it comes from. -/
inductive SettingValue where
  | scalar (origin : Option String) (value : Scalar)
  | list (origin : Option String) (items : List SettingValue)
  | table (origin : Option String) (entries : List (String × SettingValue))

namespace SettingValue

/-- What stands where nothing was set. -/
def nothing : SettingValue := .scalar none .nothing

/-- A table without entries that belongs to no file. -/
def emptyTable : SettingValue := .table none []

/-- The file that a value comes from. -/
def origin : SettingValue -> Option String
  | .scalar origin _ => origin
  | .list origin _ => origin
  | .table origin _ => origin

end SettingValue

/-- Changes the value of a key, or adds the key. -/
def updateEntry {Value : Type} (key : String) (change : Option Value -> Value) :
    List (String × Value) -> List (String × Value)
  | [] => [(key, change none)]
  | (other, value) :: rest =>
      if other = key then (other, change (some value)) :: rest
      else (other, value) :: updateEntry key change rest

end KiwiFront
