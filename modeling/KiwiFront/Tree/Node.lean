import KiwiFront.Position
import KiwiFront.Schema.Resolution

/-!
# Nodes

A node has a type name, an optional label, a span and named fields. A field holds
a node, a sequence of nodes, or nothing. Which fields count as children, and in
which order, is the business of the schema of the node's type.

No node computes its span by hand: `locate` takes the start of the first child
that has one and the stop of the last child that has one.
-/

namespace KiwiFront

/-- Which end of a span is meant. -/
inductive Boundary where
  | start
  | stop
deriving DecidableEq

/-- Why a node cannot be built or looked into. -/
inductive NodeError where
  /-- No child has a position at that end. -/
  | unlocatable (node : String) (boundary : Boundary)
  /-- The schema lists a field that the node does not have. -/
  | unknownField (node field : String)
  | schema (cause : SchemaError)
deriving DecidableEq

namespace NodeError

/-- The wording of an error. -/
def message : NodeError -> String
  | .unlocatable node .start => s!"node `{node}` has no child with a start position"
  | .unlocatable node .stop => s!"node `{node}` has no child with a end position"
  | .unknownField node field => s!"node `{node}` has no field `{field}`"
  | .schema cause => cause.message

end NodeError

/-- Things that cover a stretch of source text. -/
class Located (Item : Type) where
  spanOf : Item -> Span

/-- What a field holds. -/
inductive Child (Item : Type) where
  | node (item : Item)
  | sequence (items : List Item)
  | absent

namespace Child

variable {Item : Type}

/-- Whether a field holds nothing. -/
def isAbsent : Child Item -> Bool
  | .absent => true
  | _ => false

/-- An optional node. -/
def ofOption : Option Item -> Child Item
  | some item => .node item
  | none => .absent

variable [Located Item]

/-- The span from the first item to the last one; unlocated without items. -/
def sequenceSpan (items : List Item) : Span :=
  match items.head?, items.getLast? with
  | some first, some last => ⟨(Located.spanOf first).start, (Located.spanOf last).stop⟩
  | _, _ => .unlocated

/-- Where a child starts, if it is located there; a sequence starts with its first item. -/
def start? (child : Child Item) : Option Position :=
  match child with
  | .node item => some (Located.spanOf item).start |>.filter Position.isLocated
  | .sequence items => (items.head?.map (fun item => (Located.spanOf item).start)).filter
      Position.isLocated
  | .absent => none

/-- Where a child stops, if it is located there; a sequence stops with its last item. -/
def stop? (child : Child Item) : Option Position :=
  match child with
  | .node item => some (Located.spanOf item).stop |>.filter Position.isLocated
  | .sequence items => (items.getLast?.map (fun item => (Located.spanOf item).stop)).filter
      Position.isLocated
  | .absent => none

/-- The position of a child at one of its ends. -/
def boundary? (child : Child Item) : Boundary -> Option Position
  | .start => child.start?
  | .stop => child.stop?

end Child

/-- The named fields of a node. -/
abbrev Fields (Item : Type) := List (String × Child Item)

namespace Fields

variable {Item : Type}

/-- The child fields that a schema lists, in its order, absent ones left out. -/
def children (node : String) (schema : NodeSchema) (fields : Fields Item) :
    Except NodeError (List (String × Child Item)) := do
  let listed ← schema.fieldNames.mapM fun field =>
    match fields.lookup field with
    | some child => .ok (field, child)
    | none => .error (.unknownField node field)
  return listed.filter (fun (_, child) => !child.isAbsent)

variable [Located Item]

/-- The first position at one end that is met along some fields. -/
def findBoundary (node : String) (fields : Fields Item) (boundary : Boundary) :
    List String -> Except NodeError (Option Position)
  | [] => .ok none
  | field :: rest =>
      match fields.lookup field with
      | none => .error (.unknownField node field)
      | some child =>
          match child.boundary? boundary with
          | some position => .ok (some position)
          | none => findBoundary node fields boundary rest

/-- The position at one end of a node, derived from fields in the order given. -/
def deriveBoundary (node : String) (fields : Fields Item) (boundary : Boundary)
    (order : List String) : Except NodeError Position := do
  match ← findBoundary node fields boundary order with
  | some position => return position
  | none => throw (.unlocatable node boundary)

/-- The span of a node with the given fields. Ends given explicitly are kept; a
missing start is derived before a missing stop. -/
def locate (registry : Registry) (node : String) (fields : Fields Item)
    (start? stop? : Option Position) : Except NodeError Span :=
  match start?, stop? with
  | some start, some stop => .ok ⟨start, stop⟩
  | _, _ => do
      let schema ← (registry.schema node).mapError .schema
      let start ← match start? with
        | some start => pure start
        | none => deriveBoundary node fields .start schema.fieldNames
      let stop ← match stop? with
        | some stop => pure stop
        | none => deriveBoundary node fields .stop schema.fieldNames.reverse
      return ⟨start, stop⟩

end Fields

/-- A node of any type. -/
inductive Node where
  | mk (name : String) (label : Option String) (span : Span)
      (fields : List (String × Child Node))

namespace Node

/-- The name of the node's type. -/
def name : Node -> String
  | .mk name _ _ _ => name

/-- A short text that tells nodes of a type apart. -/
def label : Node -> Option String
  | .mk _ label _ _ => label

/-- The stretch of source that the node covers. -/
def span : Node -> Span
  | .mk _ _ span _ => span

/-- All fields, children or not. -/
def fields : Node -> Fields Node
  | .mk _ _ _ fields => fields

instance : Located Node := ⟨span⟩

/-- Looks up a field by name. -/
def child? (node : Node) (field : String) : Option (Child Node) :=
  node.fields.lookup field

/-- The type name of sequences that stand alone. -/
def listName : String := "List"

/-- A sequence as a node of its own. Its elements are not fields. -/
def ofList (elements : List Node) : Node :=
  .mk listName none (Child.sequenceSpan elements) []

end Node

end KiwiFront
