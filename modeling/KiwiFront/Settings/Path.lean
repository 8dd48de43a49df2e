/-!
# Setting paths

A path leads into a tree of values. It starts with a key; behind it come further
keys, each after a dot, and indices in brackets. Keys consist of ASCII letters,
digits, spaces, underscores and hyphens. An index may be negative, and may have
blanks around it.
-/

namespace KiwiFront

/-- One step into a tree of values. -/
inductive PathStep where
  | key (name : String)
  | index (position : Int)
deriving DecidableEq

/-- A way from the outermost table to a value. -/
structure SettingPath where
  first : String
  rest : List PathStep
deriving DecidableEq

namespace SettingPath

/-- All steps of a path. -/
def steps (path : SettingPath) : List PathStep :=
  .key path.first :: path.rest

/-- Whether a key may contain a character. -/
def isKeyCharacter (character : Char) : Bool :=
  character.isAlphanum || [' ', '_', '-'].contains character

/-- Blanks that may stand around an index. -/
def isIndexBlank (character : Char) : Bool :=
  character = ' ' || character = '\t'

/-- The greatest index that can be written. -/
def greatestIndex : Nat := Nat.pow 2 63 - 1

/-- The number that some digits with an optional minus sign stand for. -/
def readIndex? (characters : List Char) : Option Int :=
  match characters with
  | '-' :: digits => do
      let value ← (String.ofList digits).toNat?
      if digits.all Char.isDigit && decide (value ≤ greatestIndex + 1) then some (-(value : Int))
      else none
  | digits => do
      let value ← (String.ofList digits).toNat?
      if digits.all Char.isDigit && decide (value ≤ greatestIndex) then some value else none

/-- Reads the steps behind a key. The bound is the number of characters. -/
def readSteps : Nat -> List Char -> Option (List PathStep)
  | _, [] => some []
  | 0, _ => none
  | bound + 1, '.' :: rest =>
      let name := rest.takeWhile isKeyCharacter
      if name.isEmpty then none
      else do
        let others ← readSteps bound (rest.dropWhile isKeyCharacter)
        some (.key (String.ofList name) :: others)
  | bound + 1, '[' :: rest => do
      let rest := rest.dropWhile isIndexBlank
      let inside := rest.takeWhile (fun character => character.isDigit || character = '-')
      let position ← readIndex? inside
      match (rest.drop inside.length).dropWhile isIndexBlank with
      | ']' :: rest =>
          let others ← readSteps bound rest
          some (.index position :: others)
      | _ => none
  | _ + 1, _ => none

/-- Reads a path. -/
def read? (text : String) : Option SettingPath :=
  let characters := text.toList
  let name := characters.takeWhile isKeyCharacter
  if name.isEmpty then none
  else do
    let rest := characters.dropWhile isKeyCharacter
    let steps ← readSteps rest.length rest
    some ⟨String.ofList name, steps⟩

end SettingPath

end KiwiFront
