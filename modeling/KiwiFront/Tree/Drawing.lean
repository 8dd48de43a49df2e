import KiwiFront.Tree.Outline

/-!
# Tree drawings

A drawing has one line for every node and every sequence of an outline, parents
before children. Each line below the root starts with one group of two characters
for every ancestor below the root, a bar where that ancestor has a later sibling,
and then a connector. Children are named by their field, sequences by their
length, and long labels are cut. A located item ends with its span, if spans are
shown.
-/

namespace KiwiFront

namespace Drawing

/-- The greatest number of characters of a label that is drawn in full. -/
def labelLimit : Nat := 30

/-- Cuts a text after a number of characters, with three dots in place of the rest. -/
def truncate (limit : Nat) (text : String) : String :=
  if limit < text.length then String.ofList (text.toList.take limit) ++ "..." else text

/-- A type name with the label behind it. -/
def describe (name : String) : Option String -> String
  | some label => name ++ " " ++ truncate labelLimit label
  | none => name

/-- One line of a drawing. -/
structure Line where
  /-- For each ancestor below the root: whether a sibling follows it. -/
  groups : List Bool
  /-- For every item but the root: whether it is the last of its siblings. -/
  isLast : Option Bool
  /-- The field of a child; elements of a sequence have none. -/
  field : Option String
  description : String
  span : Span

namespace Line

/-- A bar where siblings follow further down, else blanks. -/
def group (continues : Bool) : String :=
  if continues then "│ " else "  "

/-- The connector of an item. -/
def connector : Option Bool -> String
  | none => ""
  | some true => "└─ "
  | some false => "├─ "

/-- The text of a line without its line feed. -/
def render (showSpans : Bool) (line : Line) : String :=
  let field := match line.field with
    | some field => field ++ ": "
    | none => ""
  let span := if showSpans && line.span.isLocated then s!" [{line.span.display}]" else ""
  String.join (line.groups.map group) ++ connector line.isLast ++ field ++ line.description ++ span

end Line

/-- The groups below an item. -/
def below (groups : List Bool) : Option Bool -> List Bool
  | none => groups
  | some isLast => groups ++ [!isLast]

mutual

/-- The lines of an item and of everything below it. -/
def lines (groups : List Bool) (isLast : Option Bool) (field : Option String) :
    Outline -> List Line
  | .node name label span children =>
      ⟨groups, isLast, field, describe name label, span⟩ ::
        childLines (below groups isLast) children
  | .sequence elements =>
      ⟨groups, isLast, field, s!"List ({elements.length})",
        (Outline.sequence elements).span⟩ ::
        elementLines (below groups isLast) elements

/-- The lines of the children of a node. -/
def childLines (groups : List Bool) : List (String × Outline) -> List Line
  | [] => []
  | (field, child) :: rest =>
      lines groups (some rest.isEmpty) (some field) child ++ childLines groups rest

/-- The lines of the elements of a sequence. -/
def elementLines (groups : List Bool) : List Outline -> List Line
  | [] => []
  | element :: rest =>
      lines groups (some rest.isEmpty) none element ++ elementLines groups rest

end

end Drawing

namespace Outline

/-- The lines of a drawing. -/
def drawingLines (outline : Outline) : List Drawing.Line :=
  Drawing.lines [] none none outline

/-- The drawing of an outline; every line ends with a line feed. -/
def draw (showSpans : Bool) (outline : Outline) : String :=
  String.join (outline.drawingLines.map (fun line => line.render showSpans ++ "\n"))

end Outline

end KiwiFront
