import KiwiFront.Tree.Outline

/-!
# Nested spans

The spans of an outline are nested if every node stops after its start, and its children
lie within it, one after the other. A child that is a sequence runs from its first element
to its last one, and its elements lie within it, one after the other. An empty sequence
has no place in the source and is passed over.
-/

namespace KiwiFront

/-- A span does not go beyond the ends of another one. -/
def Span.Within (inner outer : Span) : Prop :=
  outer.start ≤ inner.start ∧ inner.stop ≤ outer.stop

namespace Outline

/-- Whether a child has a place in the source. -/
def isPlaced : Outline -> Bool
  | .sequence [] => false
  | _ => true

/-- The children of a node that have a place in the source, in the order of its schema. -/
def placedChildren (children : List (String × Outline)) : List Outline :=
  (children.map Prod.snd).filter isPlaced

/-- One part stops before another one starts. -/
def Before (earlier later : Outline) : Prop :=
  earlier.span.stop ≤ later.span.start

/-- All spans in an outline are nested. -/
inductive Nested : Outline -> Prop where
  | node {name label span children} (forward : span.start ≤ span.stop)
      (inside : ∀ child ∈ placedChildren children, child.span.Within span)
      (inOrder : (placedChildren children).Pairwise Before)
      (below : ∀ child ∈ children, Nested child.2) : Nested (.node name label span children)
  | sequence {elements}
      (inside : ∀ element ∈ elements, element.span.Within (Outline.sequence elements).span)
      (inOrder : elements.Pairwise Before)
      (below : ∀ element ∈ elements, Nested element) : Nested (.sequence elements)

end Outline

end KiwiFront
