import KiwiFront.Tree.Node

/-!
# Outlines

The outline of a node holds what its children are, down to the leaves: the fields
that the schemas list, in their order, absent ones left out.
-/

namespace KiwiFront

/-- A node or a sequence with the children below it. -/
inductive Outline where
  | node (name : String) (label : Option String) (span : Span)
      (children : List (String × Outline))
  | sequence (elements : List Outline)

namespace Outline

/-- The span of a node; a sequence runs from its first element to its last one. -/
def span : Outline -> Span
  | .node _ _ span _ => span
  | .sequence elements =>
      match elements.head?, elements.getLast? with
      | some (.node _ _ first _), some (.node _ _ last _) => ⟨first.start, last.stop⟩
      | _, _ => .unlocated

/-- A child's outline, or the reason why it has none; nothing for an absent child. -/
abbrev Attempt := Except NodeError (Option Outline)

/-- Lists children in the order of a schema. All fields have to be there before
any child is looked into. -/
def assemble (node : String) (schema : NodeSchema) (attempts : List (String × Attempt)) :
    Except NodeError (List (String × Outline)) := do
  let listed ← schema.fieldNames.mapM fun field =>
    match attempts.lookup field with
    | some attempt => .ok (field, attempt)
    | none => .error (.unknownField node field)
  let present ← listed.mapM fun (field, attempt) => do
    return (← attempt).map (field, ·)
  return present.filterMap id

mutual

/-- The outline of a node under a registry. -/
def ofNode (registry : Registry) : Node -> Except NodeError Outline
  | .mk name label span fields => do
      let schema ← (registry.schema name).mapError .schema
      let children ← assemble name schema (ofFields registry fields)
      return .node name label span children

/-- The outlines of all fields of a node. -/
def ofFields (registry : Registry) : List (String × Child Node) -> List (String × Attempt)
  | [] => []
  | (field, child) :: rest => (field, ofChild registry child) :: ofFields registry rest

/-- The outline of what a field holds. -/
def ofChild (registry : Registry) : Child Node -> Attempt
  | .node item => (ofNode registry item).map some
  | .sequence items => (ofNodes registry items).map (fun elements => some (.sequence elements))
  | .absent => .ok none

/-- The outlines of the items of a sequence. -/
def ofNodes (registry : Registry) : List Node -> Except NodeError (List Outline)
  | [] => .ok []
  | item :: rest => do
      let first ← ofNode registry item
      return first :: (← ofNodes registry rest)

end

end Outline

end KiwiFront
