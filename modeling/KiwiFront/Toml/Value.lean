import KiwiFront.Decimal.Binary64

/-!
# Tables under construction

A table is opened in one of three ways, and that decides what may still be added to
it. A table with a heading of its own takes the assignments below the heading. A
table that only a longer heading implies may still get a heading. A table that
dotted keys lead to takes more dotted keys, but no heading. No key is given twice.
-/

namespace KiwiFront.Toml

open Decimal

/-- A value. Dates and times are kept in their normal form. -/
inductive Value where
  | boolean (value : Bool)
  | integer (value : Int)
  | float (value : Binary64)
  | text (value : String)
  | dateTime (value : String)
  | array (items : List Value)
  | table (entries : List (String × Value))

/-- How a table came to be. -/
inductive Opening where
  | heading
  | implied
  | dotted
deriving DecidableEq

/-- What a key holds while a document is read. -/
inductive Item where
  | value (value : Value)
  | table (opening : Opening) (entries : List (String × Item))
  /-- Tables with headings in double brackets, in order. -/
  | tables (elements : List (List (String × Item)))

/-- The entries of a table that is under construction. -/
abbrev Entries := List (String × Item)

namespace Entries

/-- Replaces what a key holds, or adds the key. -/
def put (key : String) (item : Item) : Entries -> Entries
  | [] => [(key, item)]
  | (other, held) :: rest =>
      if other = key then (other, item) :: rest else (other, held) :: put key item rest

/-- Takes a key to the end and lets it hold something else. -/
def putLast (key : String) (item : Item) (entries : Entries) : Entries :=
  entries.filter (fun (other, _) => other != key) ++ [(key, item)]

/-- Changes the entries of the table that a path leads to, and opens the tables that
are missing on the way. Of several tables with one heading the last one counts.
Dotted keys do not lead through tables that have a heading. -/
def change (dotted : Bool) (action : Opening -> Entries -> Option Entries) :
    List String -> Opening -> Entries -> Option Entries
  | [], opening, entries => action opening entries
  | key :: rest, _, entries =>
      match entries.lookup key with
      | none => do
          let opening := if dotted then .dotted else .implied
          let inner ← change dotted action rest opening []
          return entries.put key (.table opening inner)
      | some (.value _) => none
      | some (.table opening inner) =>
          if dotted && opening == .heading then none
          else do
            let inner ← change dotted action rest opening inner
            return entries.put key (.table opening inner)
      | some (.tables elements) =>
          match elements.getLast? with
          | none => none
          | some last => do
              let changed ← change dotted action rest .heading last
              return entries.put key (.tables (elements.dropLast ++ [changed]))

end Entries

/-- A key with a value. The path is there if the key is dotted. -/
structure Assignment where
  path : List String
  key : String
  value : Value

namespace Assignment

/-- Adds an assignment to the table that its path leads to. A dotted key only adds
to tables that dotted keys opened. -/
def add (entries : Entries) (assignment : Assignment) : Option Entries :=
  let action (opening : Opening) (target : Entries) : Option Entries :=
    if !assignment.path.isEmpty && opening != .dotted then none
    else if (target.lookup assignment.key).isSome then none
    else some (target.put assignment.key (.value assignment.value))
  entries.change true action assignment.path .heading

/-- Adds assignments in order. -/
def addAll (entries : Entries) (assignments : List Assignment) : Option Entries :=
  assignments.foldlM add entries

end Assignment

/-- A heading, with the assignments below it. -/
structure Block where
  /-- Whether the heading stands in double brackets. -/
  isElement : Bool
  path : List String
  key : String
  assignments : List Assignment

/-- Adds a block to a document. A heading in brackets completes a table that longer
headings implied, which then comes last, or opens a new one; one in double brackets
opens one more table. -/
def Block.add (document : Entries) (block : Block) : Option Entries :=
  let action (_ : Opening) (parent : Entries) : Option Entries :=
    match parent.lookup block.key with
    | none => do
        let entries ← Assignment.addAll [] block.assignments
        return parent.put block.key
          (if block.isElement then .tables [entries] else .table .heading entries)
    | some (.tables elements) =>
        if block.isElement then do
          let entries ← Assignment.addAll [] block.assignments
          return parent.put block.key (.tables (elements ++ [entries]))
        else none
    | some (.table .implied entries) =>
        if block.isElement then none
        else do
          let entries ← Assignment.addAll entries block.assignments
          return parent.putLast block.key (.table .heading entries)
    | some _ => none
  document.change false action block.path .heading

mutual

/-- What a key holds once the document is complete. -/
def Item.close : Item -> Value
  | .value value => value
  | .table _ entries => .table (closeEntries entries)
  | .tables elements => .array (closeElements elements)

/-- The entries of a complete table. -/
def closeEntries : List (String × Item) -> List (String × Value)
  | [] => []
  | (key, item) :: rest => (key, item.close) :: closeEntries rest

/-- Complete tables with one heading. -/
def closeElements : List (List (String × Item)) -> List Value
  | [] => []
  | entries :: rest => .table (closeEntries entries) :: closeElements rest

end

end KiwiFront.Toml
