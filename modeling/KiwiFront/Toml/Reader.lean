/-!
# Readers

A reader takes characters off the front of a text. When it refuses them it takes
none, so that another reader can be tried in its place. Repetition stops as soon as
a reader refuses or takes nothing.
-/

namespace KiwiFront.Toml

/-- Reads a value off the front of some characters. -/
abbrev Reader := StateT (List Char) Option

namespace Reader

variable {Value : Type}

/-- The next character, which is not taken. -/
def peek : Reader (Option Char) := fun input => some (input.head?, input)

/-- Refuses unless a condition holds. -/
def require (condition : Bool) : Reader Unit :=
  if condition then pure () else failure

/-- Takes a character of a class. -/
def one (accepts : Char -> Bool) : Reader Char
  | [] => none
  | character :: rest => if accepts character then some (character, rest) else none

/-- Takes one certain character. -/
def character (wanted : Char) : Reader Unit := do
  let _ ← one (fun given => given == wanted)

/-- Takes certain characters, one after the other. -/
def exactly (wanted : String) : Reader Unit :=
  wanted.toList.forM character

/-- Takes all characters of a class up to the first one that is not. -/
def run (accepts : Char -> Bool) : Reader (List Char) := fun input =>
  some (input.takeWhile accepts, input.dropWhile accepts)

/-- Takes a fixed number of characters of a class. -/
def times (accepts : Char -> Bool) : Nat -> Reader (List Char)
  | 0 => pure []
  | count + 1 => do
      let first ← one accepts
      return first :: (← times accepts count)

/-- Takes what a reader takes, or nothing. -/
def maybe (reader : Reader Value) : Reader (Option Value) := fun input =>
  match reader input with
  | some (value, rest) => some (some value, rest)
  | none => some (none, input)

/-- Takes what the first reader does that does not refuse. -/
def oneOf (readers : List (Reader Value)) : Reader Value := fun input =>
  readers.findSome? (fun reader => reader input)

/-- What a reader takes over and over, and what is left. -/
def collect (reader : Reader Value) (input : List Char) : List Value × List Char :=
  match reader input with
  | none => ([], input)
  | some (value, rest) =>
      if rest.length < input.length then
        let (others, left) := collect reader rest
        (value :: others, left)
      else ([], input)
termination_by input.length

/-- Takes what a reader takes, over and over. -/
def many (reader : Reader Value) : Reader (List Value) := fun input =>
  some (collect reader input)

/-- Takes values with a character between them; at least one value. -/
def separated (separator : Char) (reader : Reader Value) : Reader (List Value) := do
  let first ← reader
  let others ← many (do character separator; reader)
  return first :: others

/-- The value of a reader that takes all characters. -/
def all? (reader : Reader Value) (input : List Char) : Option Value :=
  match reader input with
  | some (value, []) => some value
  | _ => none

end Reader

/-- Blanks within a line. -/
def isBlank (character : Char) : Bool :=
  character == ' ' || character == '\t'

/-- Characters that comments and texts may contain: tabs, and all that are no
controls of ASCII. -/
def isTextCharacter (character : Char) : Bool :=
  character == '\t' || (decide (0x20 ≤ character.toNat) && character != '\x7f')

/-- Blanks within a line, if there are any. -/
def blanks : Reader Unit := do
  let _ ← Reader.run isBlank

/-- A line break: a line feed, with or without a carriage return before it. -/
def lineBreak : Reader Unit :=
  Reader.oneOf [Reader.character '\n', Reader.exactly "\r\n"]

/-- A comment up to the end of its line. -/
def comment : Reader Unit := do
  Reader.character '#'
  let _ ← Reader.run isTextCharacter

/-- Blanks, line breaks and commented lines, if there are any. -/
def blankLines : Reader Unit := do
  let _ ← Reader.many (Reader.oneOf [
    (do let _ ← Reader.one isBlank), lineBreak, (do comment; lineBreak)])

end KiwiFront.Toml
