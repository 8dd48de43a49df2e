/-!
# Positions and spans

A position is a row and a column, both counted from one. A span runs from its
start up to, but not including, its stop. Content that has no place in a source
text carries `Position.unlocated`, and a position is located exactly when it
differs from that one value.
-/

namespace KiwiFront

/-- A place in a source text. -/
structure Position where
  row : Int
  column : Int
deriving DecidableEq

namespace Position

/-- The place of content that cannot be located. -/
def unlocated : Position := ⟨-1, -1⟩

/-- The place of the first character of a text. -/
def first : Position := ⟨1, 1⟩

/-- Every position but `unlocated` is located. -/
def isLocated (position : Position) : Bool :=
  position != unlocated

/-- Positions are ordered by row, and within a row by column. -/
instance : LT Position where
  lt left right := left.row < right.row ∨ (left.row = right.row ∧ left.column < right.column)

instance : LE Position where
  le left right := left.row < right.row ∨ (left.row = right.row ∧ left.column ≤ right.column)

instance (left right : Position) : Decidable (left < right) :=
  inferInstanceAs (Decidable (left.row < right.row ∨
    (left.row = right.row ∧ left.column < right.column)))

instance (left right : Position) : Decidable (left ≤ right) :=
  inferInstanceAs (Decidable (left.row < right.row ∨
    (left.row = right.row ∧ left.column ≤ right.column)))

/-- Positions in ascending order. -/
def sort (positions : List Position) : List Position :=
  positions.mergeSort (fun left right => decide (left ≤ right))

/-- The greatest of some positions. -/
def greatest? (positions : List Position) : Option Position :=
  (sort positions).getLast?

/-- The row and the column with a colon between them. -/
def display (position : Position) : String :=
  s!"{position.row}:{position.column}"

/-- The place after a character: a line feed starts the next row, and any other
character is one column wide. -/
def advance (position : Position) (character : Char) : Position :=
  if character = '\n' then ⟨position.row + 1, 1⟩
  else ⟨position.row, position.column + 1⟩

/-- The place after a run of characters. -/
def advanceBy (position : Position) (characters : List Char) : Position :=
  characters.foldl advance position

@[simp] theorem advanceBy_nil (position : Position) : position.advanceBy [] = position := rfl

@[simp] theorem advanceBy_cons (position : Position) (character : Char) (rest : List Char) :
    position.advanceBy (character :: rest) = (position.advance character).advanceBy rest := rfl

@[simp] theorem advanceBy_append (position : Position) (left right : List Char) :
    position.advanceBy (left ++ right) = (position.advanceBy left).advanceBy right := by
  simp [advanceBy]

/-- Positions are ordered by rows first. -/
theorem lt_iff {left right : Position} :
    left < right ↔ left.row < right.row ∨ (left.row = right.row ∧ left.column < right.column) :=
  Iff.rfl

/-- The order between positions that may be equal. -/
theorem le_iff {left right : Position} :
    left ≤ right ↔ left.row < right.row ∨ (left.row = right.row ∧ left.column ≤ right.column) :=
  Iff.rfl

/-- The order is reflexive. -/
theorem le_refl (position : Position) : position ≤ position :=
  .inr ⟨rfl, Int.le_refl position.column⟩

/-- The order is transitive. -/
theorem le_trans {left middle right : Position} (first : left ≤ middle) (second : middle ≤ right) :
    left ≤ right := by
  rw [le_iff] at *
  omega

/-- A character leads to a later position. -/
theorem lt_advance (position : Position) (character : Char) :
    position < position.advance character := by
  rw [lt_iff, advance]
  split
  · exact .inl (Int.lt_succ position.row)
  · exact .inr ⟨rfl, Int.lt_succ position.column⟩

end Position

/-- A stretch of a source text; `stop` is one column past its last character. -/
structure Span where
  start : Position
  stop : Position
deriving DecidableEq

namespace Span

/-- The span of content that cannot be located. -/
def unlocated : Span := ⟨.unlocated, .unlocated⟩

/-- A span is located when both of its ends are. -/
def isLocated (span : Span) : Bool :=
  span.start.isLocated && span.stop.isLocated

/-- A located span contains the positions from its start up to its stop, the
stop excluded. -/
def contains (span : Span) (position : Position) : Bool :=
  span.isLocated && decide (span.start ≤ position) && decide (position < span.stop)

/-- Both ends with two dots between them. -/
def display (span : Span) : String :=
  s!"{span.start.display}..{span.stop.display}"

end Span

end KiwiFront
