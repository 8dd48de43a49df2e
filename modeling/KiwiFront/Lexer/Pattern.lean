/-!
# Text patterns

A pattern is a regular expression over characters. `Pattern.Matches` says which
texts a pattern describes, by its shape alone. `Pattern.derivative` and
`Pattern.acceptsEmpty` decide the same question one character at a time: the
derivative of a pattern by a character describes what may follow that character.
-/

namespace KiwiFront

/-- A set of characters: those in some ranges, or those outside of them. -/
structure CharClass where
  ranges : List (Char × Char)
  complemented : Bool
deriving DecidableEq

namespace CharClass

/-- Whether a character belongs to the set. -/
def contains (charClass : CharClass) (character : Char) : Bool :=
  charClass.ranges.any (fun (low, high) => decide (low ≤ character) && decide (character ≤ high))
    != charClass.complemented

/-- The characters of some inclusive ranges. -/
def within (ranges : List (Char × Char)) : CharClass := ⟨ranges, false⟩

/-- The given characters. -/
def oneOf (characters : List Char) : CharClass :=
  ⟨characters.map (fun character => (character, character)), false⟩

/-- Every character but the given ones. -/
def noneOf (characters : List Char) : CharClass :=
  ⟨characters.map (fun character => (character, character)), true⟩

end CharClass

/-- A regular expression over characters. -/
inductive Pattern where
  /-- Describes no text at all. -/
  | never
  /-- Describes the empty text. -/
  | empty
  /-- Describes the texts of one character of a class. -/
  | one (charClass : CharClass)
  /-- Describes a text of `first` followed by a text of `second`. -/
  | sequence (first second : Pattern)
  /-- Describes the texts of either pattern. -/
  | either (first second : Pattern)
  /-- Describes any number of texts of a pattern, one after the other. -/
  | many (body : Pattern)
deriving DecidableEq

namespace Pattern

/-- The texts that a pattern describes. -/
inductive Matches : Pattern -> List Char -> Prop where
  | empty : Matches .empty []
  | one {charClass character} (belongs : charClass.contains character = true) :
      Matches (.one charClass) [character]
  | sequence {first second left right} (before : Matches first left)
      (after : Matches second right) : Matches (.sequence first second) (left ++ right)
  | first {first second text} (described : Matches first text) :
      Matches (.either first second) text
  | second {first second text} (described : Matches second text) :
      Matches (.either first second) text
  | stop {body} : Matches (.many body) []
  | more {body left right} (before : Matches body left) (after : Matches (.many body) right) :
      Matches (.many body) (left ++ right)

/-- The pattern of one text. -/
def literal : List Char -> Pattern
  | [] => .empty
  | [character] => .one (.oneOf [character])
  | character :: rest => .sequence (.one (.oneOf [character])) (literal rest)

/-- One or more texts of a pattern. -/
def atLeastOne (body : Pattern) : Pattern := .sequence body (.many body)

/-- A text of a pattern, or nothing. -/
def optional (body : Pattern) : Pattern := .either body .empty

/-- Several patterns, one after the other. -/
def inOrder : List Pattern -> Pattern
  | [] => .empty
  | [last] => last
  | head :: rest => .sequence head (inOrder rest)

/-- `sequence` with the trivial cases removed. -/
def joined : Pattern -> Pattern -> Pattern
  | .never, _ => .never
  | _, .never => .never
  | .empty, second => second
  | first, second => .sequence first second

/-- `either` with the trivial cases removed. -/
def united : Pattern -> Pattern -> Pattern
  | .never, second => second
  | first, .never => first
  | first, second => if first = second then first else .either first second

/-- Whether the empty text is described. -/
def acceptsEmpty : Pattern -> Bool
  | .never => false
  | .empty => true
  | .one _ => false
  | .sequence first second => first.acceptsEmpty && second.acceptsEmpty
  | .either first second => first.acceptsEmpty || second.acceptsEmpty
  | .many _ => true

/-- The pattern of what may follow `character` in the texts of a pattern. -/
def derivative (character : Char) : Pattern -> Pattern
  | .never => .never
  | .empty => .never
  | .one charClass => if charClass.contains character then .empty else .never
  | .sequence first second =>
      let through := joined (first.derivative character) second
      if first.acceptsEmpty then united through (second.derivative character) else through
  | .either first second => united (first.derivative character) (second.derivative character)
  | .many body => joined (body.derivative character) (.many body)

end Pattern

end KiwiFront
