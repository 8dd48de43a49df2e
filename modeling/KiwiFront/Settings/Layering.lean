import KiwiFront.Settings.Path
import KiwiFront.Settings.Value
import KiwiFront.Text.LowerCase

/-!
# Layers

Later values win over earlier ones. Tables are merged key by key, whatever case
the keys are written in; everything else is replaced as a whole. A table without
entries changes nothing.
-/

namespace KiwiFront

namespace SettingValue

/-- The entries of a table; other values have none. -/
def entries : SettingValue -> List (String × SettingValue)
  | .table _ entries => entries
  | _ => []

/-- A table as it is, and an empty table in the place of anything else. -/
def asTable : SettingValue -> SettingValue
  | .table origin entries => .table origin entries
  | _ => .emptyTable

/-- Changes the value of a key, which is added if need be. A value that is not a
table gives way to one. -/
def update (key : String) (change : Option SettingValue -> SettingValue)
    (target : SettingValue) : SettingValue :=
  match target with
  | .table origin entries => .table origin (updateEntry (Text.lowerCase key) change entries)
  | _ => .table none [(Text.lowerCase key, change none)]

mutual

/-- What a key has after a value was laid over what it had before. -/
def replacing (existing : Option SettingValue) : SettingValue -> SettingValue
  | .scalar origin value => .scalar origin value
  | .list origin items => .list origin items
  | .table _ entries => addEntries (existing.getD .emptyTable) entries

/-- Lays entries over a value, one after the other. -/
def addEntries (target : SettingValue) : List (String × SettingValue) -> SettingValue
  | [] => target
  | (key, value) :: rest =>
      addEntries (target.update key (fun existing => replacing existing value)) rest

end

/-- The position in a list that an index means; negative ones count from the end. -/
def positionOf (index : Int) (length : Nat) : Option Nat :=
  if 0 ≤ index then some index.toNat
  else if index.natAbs ≤ length then some (length - index.natAbs)
  else none

/-- Items up to a position at least, filled up with nothing. -/
def padTo (position : Nat) (items : List SettingValue) : List SettingValue :=
  items ++ List.replicate (position + 1 - items.length) .nothing

/-- Lays a value over what a path leads to. On the way a key makes a table of what it
is looked up in, and an index makes a list of it. A key at the end of the path merges
tables; an index there replaces the item as a whole. -/
def assign (value : SettingValue) : List PathStep -> SettingValue -> SettingValue
  | [], _ => value
  | [.key name], target => target.update name (fun existing => replacing existing value)
  | .key name :: rest, target =>
      target.update name (fun existing => assign value rest (existing.getD .nothing))
  | .index index :: rest, target =>
      let (origin, items) := match target with
        | .list origin items => (origin, items)
        | _ => (none, [])
      match positionOf index items.length with
      | some position =>
          .list origin ((padTo position items).modify position (assign value rest))
      | none => .list origin items

/-- Lays the entries of a file over a table. A key that can be read as a path is one. -/
def overLayer (target : SettingValue) (layer : List (String × SettingValue)) : SettingValue :=
  layer.foldl (fun target (key, value) =>
    match SettingPath.read? key with
    | some path => assign value path.steps target
    | none => assign value [.key key] target) target

end SettingValue

end KiwiFront
