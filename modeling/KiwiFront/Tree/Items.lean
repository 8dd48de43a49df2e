import KiwiFront.Tree.Drawing
import KiwiFront.Tree.KeptTokens
import KiwiFront.Tree.RuleView

/-!
# The items of a drawing

The items of a drawing are the nodes and the sequences of a tree. Each of them has an address,
which says at every level how many siblings stand before the one that leads to the item. The root
has the empty address, and addresses in lexicographic order are those of a walk that comes by
parents before their children. All of a line but its text is decided by which addresses there are.
-/

namespace KiwiFront

/-- The fields that the schema of a node lists, absent ones left out. -/
def Node.children (registry : Registry) (node : Node) :
    Except NodeError (List (String × Child Node)) := do
  let schema ← (registry.schema node.name).mapError .schema
  Fields.children node.name schema node.fields

namespace Drawing

/-- What an item is. -/
inductive Part where
  | node (owner : Node)
  | sequence (elements : List Node)

/-- A node or a sequence with the field that it stands in. The root and the elements of a sequence
stand in none. -/
structure Item where
  field : Option String
  part : Part

namespace Part

/-- The type and the label of a node, and the length of a sequence. -/
def description : Part -> String
  | .node owner => describe owner.name owner.label
  | .sequence elements => s!"List ({elements.length})"

/-- A sequence runs from its first element to its last one. -/
def span : Part -> Span
  | .node owner => owner.span
  | .sequence elements => Child.sequenceSpan elements

end Part

namespace Item

/-- A node that stands in no field, as does the root of a tree. -/
def root (node : Node) : Item :=
  ⟨none, .node node⟩

/-- What a field shows, if it holds anything. -/
def ofChild? : String × Child Node -> Option Item
  | (field, .node child) => some ⟨some field, .node child⟩
  | (field, .sequence elements) => some ⟨some field, .sequence elements⟩
  | (_, .absent) => none

/-- The text of an item without its span. -/
def text (item : Item) : String :=
  (match item.field with
    | some field => field ++ ": "
    | none => "") ++ item.part.description

/-- The span of an item behind its text, if the item is located. -/
def spanSuffix (item : Item) : String :=
  if item.part.span.isLocated then s!" [{item.part.span.display}]" else ""

end Item

/-- The items right below: the children of a node in the order in which it lists them, and the
elements of a sequence. -/
def Part.below (registry : Registry) : Part -> Except NodeError (List Item)
  | .node owner => (owner.children registry).map (List.filterMap Item.ofChild?)
  | .sequence elements => .ok (elements.map Item.root)

/-- The way down to an item: how many siblings are to be passed at each level. -/
abbrev Address := List Nat

namespace Item

variable (registry : Registry)

/-- The item at an address. -/
def at? (item : Item) : Address -> Option Item
  | [] => some item
  | index :: rest =>
      match item.part.below registry with
      | .error _ => none
      | .ok items => items[index]?.bind fun next => at? next rest

end Item

/-- The address of the sibling right behind an item. The root has no siblings. -/
def Address.sibling? : Address -> Option Address
  | [] => none
  | [index] => some [index + 1]
  | index :: rest => (sibling? rest).map (index :: ·)

namespace Item

variable (registry : Registry) (root : Item)

/-- Whether the item at an address has a later sibling. -/
def hasLater (address : Address) : Bool :=
  address.sibling?.any fun later => (root.at? registry later).isSome

/-- What the line at an address starts with: a group for each ancestor but the root, from the
outermost one to the parent, and the connector. -/
def frame (address : Address) : String :=
  if address = [] then ""
  else
    String.join ((List.range (address.length - 1)).map fun depth =>
      if root.hasLater registry (address.take (depth + 1)) then "│ " else "  ") ++
    if root.hasLater registry address then "├─ " else "└─ "

/-- The line of an item at an address. -/
def line (showSpans : Bool) (address : Address) (item : Item) : String :=
  root.frame registry address ++ item.text ++ if showSpans then item.spanSuffix else ""

end Item

end Drawing

namespace TypeReference

/-- The segments of the name in a type. -/
def nameTokens : TypeReference -> List Token
  | .parenthesized _ inner _ _ => inner.nameTokens
  | .user type => type.segments

end TypeReference

def FunctionDeclaration.nameTokens (declaration : FunctionDeclaration) : List Token :=
  optionalTokens TypeReference.nameTokens declaration.returnType

def File.nameTokens (file : File) : List Token :=
  file.packageHeader.identifier.segments ++
    file.imports.flatMap (fun header => header.identifier.segments) ++
    file.declarations.flatMap FunctionDeclaration.nameTokens

/-- The segments of all names in what a rule reads, those that nodes are labelled by. -/
def KiwiRule.nameTokens : (rule : KiwiRule) -> rule.Value -> List Token
  | .start, file => File.nameTokens file
  | .packageHeader, header => header.identifier.segments
  | .identifier, name => Identifier.segments name
  | .importList, imports => List.flatMap (fun header => header.identifier.segments) imports
  | .importHeader, header => header.identifier.segments
  | .topLevelObjectList, functions => List.flatMap FunctionDeclaration.nameTokens functions
  | .topLevelObject, function => FunctionDeclaration.nameTokens function
  | .declaration, function => FunctionDeclaration.nameTokens function
  | .functionDeclaration, function => FunctionDeclaration.nameTokens function
  | .type, reference => TypeReference.nameTokens reference
  | .parenthesizedType, reference => TypeReference.nameTokens reference
  | .userType, reference => UserType.segments reference
  | .importSuffix, _ | .importAlias, _ | .modifiers, _ | .simpleIdentifier, _ | .semi, _
  | .modifier, _ | .simpleUserType, _ => []

end KiwiFront
