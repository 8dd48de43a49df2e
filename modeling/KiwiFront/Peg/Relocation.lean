import KiwiFront.Peg.Evaluation
import KiwiFront.Tree.Relocation

/-!
# Moving what is parsed

When the tokens of a buffer move to other places, so should everything that is read from
them. Each rule says how its values move; `Expression.MovesBy` tells which map of values a
whole expression brings about, if its own steps cannot tell moved values from others.
Errors move with their positions.
-/

namespace KiwiFront.Peg

/-- The same error, elsewhere. No mark changes. -/
def ParseError.relocate (place : Position -> Position) : ParseError -> ParseError
  | .forced expected position mark => .forced expected (place position) mark
  | .invalidSyntax position => .invalidSyntax (place position)
  | .node cause => .node cause
  | .internal cause => .internal cause

namespace Expression

variable {Rule : Type} {Value : Rule -> Type}

/-- Moving the tokens that an expression reads moves its value by `move`, given how the
values of the rules move. -/
def MovesBy (place : Position -> Position) (ofRule : (rule : Rule) -> Value rule -> Value rule)
    {Result : Type} : Expression Rule Value Result -> (move : Result -> Result) -> Prop
  | .token _, move => move = Token.relocate place
  | .succeed value, move => move value = value
  | .fail, _ => True
  | .skip _, _ => True
  | .both first second, move =>
      ∃ moveFirst moveSecond, move = Prod.map moveFirst moveSecond ∧
        MovesBy place ofRule first moveFirst ∧ MovesBy place ofRule second moveSecond
  | .choice first second, move => MovesBy place ofRule first move ∧ MovesBy place ofRule second move
  | .many item, move => ∃ moveItem, move = List.map moveItem ∧ MovesBy place ofRule item moveItem
  | .look _ ahead, _ => ∃ moveAhead, MovesBy place ofRule ahead moveAhead
  | .force inner _, move => MovesBy place ofRule inner move
  | .map change inner, move =>
      ∃ moveInner, (∀ source, change (moveInner source) = move (change source)) ∧
        MovesBy place ofRule inner moveInner
  | .build _ make inner, move =>
      ∃ moveInner, (∀ source, make (moveInner source) = (make source).map move) ∧
        MovesBy place ofRule inner moveInner
  | .call rule, move => move = ofRule rule

end Expression

/-- The same buffer, elsewhere. -/
def Buffer.relocate (place : Position -> Position) (buffer : Buffer) : Buffer where
  tokens := buffer.tokens.map (Token.relocate place)
  nonempty := by
    rw [Array.size_map]
    exact buffer.nonempty

/-- The same setup over the tokens elsewhere. -/
def Setup.relocate (place : Position -> Position) (setup : Setup) : Setup :=
  { setup with buffer := setup.buffer.relocate place }

end KiwiFront.Peg
