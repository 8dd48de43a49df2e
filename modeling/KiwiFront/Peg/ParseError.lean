import KiwiFront.Tree.Node

/-!
# Errors that end a parse

A soft failure lets a parser try something else; the errors here do not. Most of
them tell where in the source the parse went wrong.
-/

namespace KiwiFront.Peg

/-- Why the parser itself gave up. -/
inductive InternalError where
  /-- The remembered value of a rule is of another type than the one asked for. -/
  | otherType (rule : String)
  /-- A left-recursive rule grew more often than there are tokens. -/
  | keptGrowing (rule : String)
  /-- A left-recursive rule began behind the buffer, where the count of the tokens ahead
  falls below zero. -/
  | beganBeyond (rule : String)
  /-- The evaluation did not end within its bound. -/
  | unfinished
deriving DecidableEq

/-- Why a parse ended without a value. -/
inductive ParseError where
  /-- A forced match failed at a position, with the cursor at a mark. -/
  | forced (expected : String) (position : Position) (mark : Nat)
  /-- The start rule failed, or did not use up the tokens. The position is that of
  the furthest token reached. -/
  | invalidSyntax (position : Position)
  | node (cause : NodeError)
  | internal (cause : InternalError)
deriving DecidableEq

/-- The wording of an error. -/
def InternalError.message : InternalError -> String
  | .otherType rule => s!"memo entry of {rule} holds another type"
  | .keptGrowing rule => s!"left-recursive rule {rule} kept growing past the end of input"
  | .beganBeyond rule => s!"left-recursive rule {rule}: attempt to subtract with overflow"
  | .unfinished => "evaluation did not end"

namespace ParseError

/-- The wording of an error. -/
def message : ParseError -> String
  | .forced expected position _ => s!"{position.display}: expected {expected}"
  | .invalidSyntax position => s!"{position.display}: invalid syntax"
  | .node cause => cause.message
  | .internal cause => s!"internal parser error: {cause.message}"

/-- Where the parse went wrong, if the error knows. -/
def position? : ParseError -> Option Position
  | .forced _ position _ => some position
  | .invalidSyntax position => some position
  | .node _ => none
  | .internal _ => none

end ParseError

/-- A mark as it is written. -/
def displayMark (mark : Nat) : String := s!"@{mark}"

end KiwiFront.Peg
