import KiwiFront.Tree.Outline

/-!
# Walking an outline

A walk comes by everything in an outline, each node before its children. The path of
a visit tells the way from the root: the names of fields behind slashes, and the
positions of elements in brackets.
-/

namespace KiwiFront.Outline

/-- What a walk comes by. A sequence is located only where its first and last elements
are. -/
inductive Found where
  | node (name : String) (label : Option String) (span : Span)
  | sequence (length : Nat) (start? stop? : Option Position)
deriving DecidableEq

/-- Something that a walk comes by, and where. -/
structure Visit where
  path : String
  found : Found
deriving DecidableEq

/-- What a walk finds at the root of an outline. -/
def found : Outline -> Found
  | .node name label span _ => .node name label span
  | .sequence elements =>
      let span := (Outline.sequence elements).span
      .sequence elements.length
        (some span.start |>.filter Position.isLocated)
        (some span.stop |>.filter Position.isLocated)

mutual

/-- The visits to an outline and everything below it. -/
def visits (path : String) : Outline -> List Visit
  | .node name label span children =>
      ⟨path, .node name label span⟩ :: childVisits path children
  | .sequence elements =>
      ⟨path, (Outline.sequence elements).found⟩ :: elementVisits path 0 elements

/-- The visits to the children of a node. -/
def childVisits (path : String) : List (String × Outline) -> List Visit
  | [] => []
  | (field, child) :: rest => visits s!"{path}/{field}" child ++ childVisits path rest

/-- The visits to the elements of a sequence from some position on. -/
def elementVisits (path : String) (position : Nat) : List Outline -> List Visit
  | [] => []
  | element :: rest =>
      visits s!"{path}[{position}]" element ++ elementVisits path (position + 1) rest

end

/-- The visits of a walk. -/
def walk (outline : Outline) : List Visit :=
  visits "" outline

end KiwiFront.Outline
