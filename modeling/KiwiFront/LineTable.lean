import KiwiFront.Position

/-!
# Byte offsets in a source text

A line table lists the byte offsets at which the lines of a text start. It turns
a byte offset into a row and a column: the row is that of the last line that
starts at or before the offset, and the column counts the characters from there.

Rows and columns are numbers of 32 bits. They can be counted without an end as
well, which makes a difference only where they are too large.
-/

namespace KiwiFront

/-- A text and the byte offsets of its lines, in ascending order. -/
structure LineTable where
  source : String
  starts : List Nat

/-- Why a byte offset has no position. -/
inductive OffsetError where
  /-- No line starts at or before the offset. -/
  | noLine
  /-- The offset lies within the bytes of a character. -/
  | insideCharacter
  /-- There is no number for the row or the column. -/
  | overflow
deriving DecidableEq

/-- How rows and columns are counted. -/
inductive Counting where
  /-- In 32-bit numbers. -/
  | int32
  /-- Without an end. -/
  | endless
deriving DecidableEq

namespace Counting

/-- The number of things that are there. In 32 bits, the upper bits of their number are cut off. -/
def number : Counting -> Nat -> Int
  | .int32, count => (Int32.ofNat count).toInt
  | .endless, count => count

/-- The number that comes next. In 32 bits, none comes next to the greatest. -/
def next? : Counting -> Int -> Except OffsetError Int
  | .int32, number =>
      if number = Int32.maxValue.toInt then .error .overflow else .ok (number + 1)
  | .endless, number => .ok (number + 1)

/-- The position with so many lines above it and so many characters to its left. -/
def position? (counting : Counting) (above left : Nat) : Except OffsetError Position := do
  let row ← counting.next? (counting.number above)
  let column ← counting.next? (counting.number left)
  return ⟨row, column⟩

/-- Whether rows and columns are counted up to a position. -/
def Reaches : Counting -> Position -> Prop
  | .int32, position =>
      position.row ≤ Int32.maxValue.toInt ∧ position.column ≤ Int32.maxValue.toInt
  | .endless, _ => True

instance (counting : Counting) (position : Position) : Decidable (counting.Reaches position) :=
  match counting with
  | .int32 => inferInstanceAs (Decidable (_ ∧ _))
  | .endless => inferInstanceAs (Decidable True)

end Counting

namespace LineTable

/-- The byte offsets after the line feeds of some characters, the first of which
stands at `offset`. -/
def startsAfter (offset : Nat) : List Char -> List Nat
  | [] => []
  | character :: rest =>
      let next := offset + character.utf8Size
      if character = '\n' then next :: startsAfter next rest else startsAfter next rest

/-- The line table of a text. -/
def ofSource (source : String) : LineTable :=
  ⟨source, 0 :: startsAfter 0 source.toList⟩

/-- The number of lines; a text that ends in a line feed has an empty last one. -/
def lineCount (table : LineTable) : Nat :=
  table.starts.length

/-- The index of the last line that starts at or before an offset, and the offset
at which it starts. -/
def enclosing? (table : LineTable) (offset : Nat) : Option (Nat × Nat) :=
  let before := table.starts.takeWhile (fun start => decide (start ≤ offset))
  before.getLast?.map (fun start => (before.length - 1, start))

/-- What looking for an offset among ascending starts can come to. -/
inductive Search where
  /-- The offset is the start at an index. -/
  | hit (index : Nat)
  /-- The offset is no start. It would have to be put in at an index. -/
  | miss (index : Nat)

namespace Search

/-- The answers that are right for an offset. -/
def IsRight (starts : List Nat) (offset : Nat) : Search -> Prop
  | hit index => starts[index]? = some offset
  | miss index =>
      index ≤ starts.length ∧ (∀ start ∈ starts.take index, start < offset) ∧
        ∀ start ∈ starts.drop index, offset < start

/-- The index of the last start that is not behind the offset, unless all of them are. -/
def line? : Search -> Option Nat
  | hit index => some index
  | miss 0 => none
  | miss (index + 1) => some index

end Search

/-- What follows after the first `count` bytes of some characters, if these are
whole characters. -/
def dropBytes? (count : Nat) : List Char -> Option (List Char)
  | [] => if count = 0 then some [] else none
  | character :: rest =>
      if count = 0 then some (character :: rest)
      else if count < character.utf8Size then none
      else dropBytes? (count - character.utf8Size) rest

/-- How many characters the first `count` bytes of some characters hold, if these
are whole characters. -/
def countInBytes? (count : Nat) : List Char -> Option Nat
  | [] => if count = 0 then some 0 else none
  | character :: rest =>
      if count = 0 then some 0
      else if count < character.utf8Size then none
      else (countInBytes? (count - character.utf8Size) rest).map (· + 1)

/-- The position of a byte offset. Offsets past the end stand for the end. -/
def positionIn? (counting : Counting) (table : LineTable) (offset : Nat) :
    Except OffsetError Position :=
  let clamped := min offset table.source.utf8ByteSize
  match table.enclosing? clamped with
  | none => .error .noLine
  | some (line, start) =>
      match (dropBytes? start table.source.toList).bind (countInBytes? (clamped - start)) with
      | none => .error .insideCharacter
      | some column => counting.position? line column

/-- The span between two byte offsets; each of them is located on its own. -/
def spanIn? (counting : Counting) (table : LineTable) (start stop : Nat) :
    Except OffsetError Span := do
  let first ← table.positionIn? counting start
  let last ← table.positionIn? counting stop
  return ⟨first, last⟩

/-- The position of a byte offset, in numbers of 32 bits. -/
def position? (table : LineTable) (offset : Nat) : Except OffsetError Position :=
  table.positionIn? .int32 offset

/-- The span between two byte offsets, in numbers of 32 bits. -/
def span? (table : LineTable) (start stop : Nat) : Except OffsetError Span :=
  table.spanIn? .int32 start stop

end LineTable

end KiwiFront
