import KiwiFront.Proofs.Tree.Spans
import KiwiFront.Tree.Relocation

/-!
# Building moved elements

A span is copied from the children of an element, and of their positions no more is asked
than whether they are located. So a faithful move takes what is built from some parts to
what is built from the moved parts, and a failure to build stays the same failure.
-/

namespace KiwiFront

variable {place : Position -> Position}

/-- A faithful map leaves located what is located, and nothing else. -/
theorem Position.Faithful.isLocated (faithful : Faithful place) (position : Position) :
    (place position).isLocated = position.isLocated := by
  rw [Bool.eq_iff_iff, Position.isLocated, Position.isLocated, bne_iff_ne, bne_iff_ne]
  exact not_congr (faithful position)

/-- So positions are located before they are moved or behind it. -/
theorem Position.Faithful.filter (faithful : Faithful place) (found : Option Position) :
    (found.map place).filter Position.isLocated =
      (found.filter Position.isLocated).map place := by
  cases found with
  | none => rfl
  | some position =>
      rw [Option.map_some, Option.filter_some, Option.filter_some, faithful.isLocated]
      split <;> rfl

namespace Child

variable {Item : Type} [Located Item]

/-- A child that lies where another one is moved to. -/
def MovesTo (place : Position -> Position) (child moved : Child Item) : Prop :=
  ∀ boundary, moved.boundary? boundary = (child.boundary? boundary).map place

/-- A node moves with its span. -/
theorem node_movesTo (faithful : Position.Faithful place) {item moved : Item}
    (spans : Located.spanOf moved = (Located.spanOf item).relocate place) :
    (node item).MovesTo place (node moved) := by
  intro boundary
  cases boundary with
  | start =>
      rw [boundary?, boundary?, start?, start?, spans]
      exact faithful.filter (some (Located.spanOf item).start)
  | stop =>
      rw [boundary?, boundary?, stop?, stop?, spans]
      exact faithful.filter (some (Located.spanOf item).stop)

/-- What is absent lies anywhere. -/
theorem absent_movesTo : (absent : Child Item).MovesTo place absent :=
  fun boundary => by cases boundary <;> rfl

variable {Element : Type} {itemOf : Element -> Item} {move : Element -> Element}

/-- A part moves if it is there. -/
theorem ofOption_movesTo (faithful : Position.Faithful place)
    (spans : ∀ element,
      Located.spanOf (itemOf (move element)) = (Located.spanOf (itemOf element)).relocate place)
    (given : Option Element) :
    (ofOption (given.map itemOf)).MovesTo place (ofOption ((given.map move).map itemOf)) := by
  cases given with
  | none => exact absent_movesTo
  | some element => exact node_movesTo faithful (spans element)

/-- A sequence moves if all of its elements do. -/
theorem sequence_movesTo (faithful : Position.Faithful place)
    (spans : ∀ element,
      Located.spanOf (itemOf (move element)) = (Located.spanOf (itemOf element)).relocate place)
    (elements : List Element) :
    (sequence (elements.map itemOf)).MovesTo place
      (sequence ((elements.map move).map itemOf)) := by
  intro boundary
  cases boundary with
  | start =>
      simp only [boundary?, start?, List.head?_map, Option.map_map]
      rw [← faithful.filter, Option.map_map]
      congr 2
      funext element
      exact congrArg Span.start (spans element)
  | stop =>
      simp only [boundary?, stop?, List.getLast?_map, Option.map_map]
      rw [← faithful.filter, Option.map_map]
      congr 2
      funext element
      exact congrArg Span.stop (spans element)

end Child

namespace Fields

variable {Item : Type} [Located Item] {fields moved : Fields Item}

/-- Fields of the same names, with children that lie where the others are moved to. -/
def MovesTo (place : Position -> Position) (fields moved : Fields Item) : Prop :=
  List.Forall₂ (fun here there => there.1 = here.1 ∧ here.2.MovesTo place there.2) fields moved

/-- A field is missing at both places, or its child has moved. -/
theorem lookup_of_movesTo (moves : MovesTo place fields moved) (field : String) :
    (fields.lookup field = none ∧ moved.lookup field = none) ∨
      ∃ child other, fields.lookup field = some child ∧ moved.lookup field = some other ∧
        child.MovesTo place other := by
  induction moves with
  | nil => exact .inl ⟨rfl, rfl⟩
  | @cons here there fields moved entry _ inductionHypothesis =>
      obtain ⟨name, child⟩ := here
      obtain ⟨other, place⟩ := there
      obtain ⟨rfl, childMoves⟩ := entry
      by_cases hit : field = other
      · exact .inr ⟨child, place, by simp [hit], by simp [hit], childMoves⟩
      · rw [List.lookup_cons, List.lookup_cons, beq_eq_false_iff_ne.2 hit]
        exact inductionHypothesis

/-- The end of the first child that has one moves with it. -/
theorem findBoundary_of_movesTo (moves : MovesTo place fields moved) (node : String)
    (boundary : Boundary) (order : List String) :
    findBoundary node moved boundary order =
      (findBoundary node fields boundary order).map (Option.map place) := by
  induction order with
  | nil => rfl
  | cons field rest inductionHypothesis =>
      unfold findBoundary
      rcases lookup_of_movesTo moves field with ⟨missing, alsoMissing⟩ |
        ⟨child, other, found, alsoFound, childMoves⟩
      · rw [missing, alsoMissing]
        rfl
      · rw [found, alsoFound]
        simp only [childMoves boundary]
        cases child.boundary? boundary with
        | none => exact inductionHypothesis
        | some position => rfl

/-- So does the end that is derived from the children, unless there is none. -/
theorem deriveBoundary_of_movesTo (moves : MovesTo place fields moved) (node : String)
    (boundary : Boundary) (order : List String) :
    deriveBoundary node moved boundary order =
      (deriveBoundary node fields boundary order).map place := by
  unfold deriveBoundary
  rw [findBoundary_of_movesTo moves]
  rcases findBoundary node fields boundary order with cause | found
  · rfl
  · cases found <;> rfl

/-- A node that is located by its children moves with them. -/
theorem locate_of_movesTo (moves : MovesTo place fields moved) (registry : Registry)
    (node : String) :
    locate registry node moved none none =
      (locate registry node fields none none).map (Span.relocate place) := by
  unfold locate
  cases registry.schema node with
  | error cause => rfl
  | ok schema =>
      change ((deriveBoundary node moved .start schema.fieldNames).bind fun start =>
          (deriveBoundary node moved .stop schema.fieldNames.reverse).bind fun stop =>
            (.ok ⟨start, stop⟩ : Except NodeError Span)) =
        ((deriveBoundary node fields .start schema.fieldNames).bind fun start =>
          (deriveBoundary node fields .stop schema.fieldNames.reverse).bind fun stop =>
            (.ok ⟨start, stop⟩ : Except NodeError Span)).map (Span.relocate place)
      rw [deriveBoundary_of_movesTo moves, deriveBoundary_of_movesTo moves]
      cases deriveBoundary node fields .start schema.fieldNames with
      | error cause => rfl
      | ok start => cases deriveBoundary node fields .stop schema.fieldNames.reverse <;> rfl

end Fields

/-- So it is with the nodes of the language. -/
theorem locateKiwi_of_movesTo {fields moved : Fields Node} (moves : fields.MovesTo place moved)
    (node : String) :
    locateKiwi node moved none none =
      (locateKiwi node fields none none).map (Span.relocate place) :=
  Fields.locate_of_movesTo moves KiwiTypes.declared node

/-- A moved type covers the moved span. -/
theorem UserType.relocate_span (type : UserType) :
    (type.relocate place).span = type.span.relocate place := by
  cases type <;> rfl

/-- So does its node. -/
theorem UserType.relocate_toNode_span (type : UserType) :
    (type.relocate place).toNode.span = type.toNode.span.relocate place := by
  rw [toNode_span, toNode_span, relocate_span]

/-- The node of a type in parentheses, or without them, covers the moved span. -/
theorem TypeReference.relocate_toNode_span (type : TypeReference) :
    (type.relocate place).toNode.span = type.toNode.span.relocate place := by
  cases type with
  | parenthesized => rfl
  | user type => exact type.relocate_toNode_span

/-- So does that of a suffix. -/
theorem ImportSuffix.relocate_toNode_span (suffix : ImportSuffix) :
    (suffix.relocate place).toNode.span = suffix.toNode.span.relocate place := by
  cases suffix <;> rfl

section Building

variable (faithful : Position.Faithful place)
include faithful

/-- A token moves with its span. -/
theorem Child.leaf_movesTo (token : Token) :
    (Child.node token.toNode).MovesTo place (.node (token.relocate place).toNode) :=
  node_movesTo faithful rfl

/-- So do tokens in a row. -/
theorem Child.leaves_movesTo (tokens : List Token) :
    (leaves tokens).MovesTo place (leaves (tokens.map (Token.relocate place))) :=
  sequence_movesTo faithful (fun _ => rfl) tokens

/-- A name of moved segments is the moved name. -/
theorem Identifier.build_relocate (segments : List Token) :
    build (segments.map (Token.relocate place)) = (build segments).map (relocate place) := by
  have moves : Fields.MovesTo place (fieldsOf segments)
      (fieldsOf (segments.map (Token.relocate place))) :=
    .cons ⟨rfl, Child.leaves_movesTo faithful segments⟩ .nil
  simp only [build, locateKiwi_of_movesTo moves]
  cases locateKiwi "Identifier" (fieldsOf segments) none none <;> rfl

/-- A package header of moved parts is the moved one. -/
theorem PackageHeader.build_relocate (keyword : Token) (identifier : Identifier)
    (terminator : Token) :
    build (keyword.relocate place) (identifier.relocate place) (terminator.relocate place) =
      (build keyword identifier terminator).map (relocate place) := by
  have moves : Fields.MovesTo place (fieldsOf keyword identifier terminator)
      (fieldsOf (keyword.relocate place) (identifier.relocate place)
        (terminator.relocate place)) :=
    .cons ⟨rfl, Child.leaf_movesTo faithful keyword⟩
      (.cons ⟨rfl, Child.node_movesTo faithful rfl⟩
        (.cons ⟨rfl, Child.leaf_movesTo faithful terminator⟩ .nil))
  simp only [build, locateKiwi_of_movesTo moves]
  cases locateKiwi "PackageHeader" (fieldsOf keyword identifier terminator) none none <;> rfl

/-- An alias of moved parts is the moved one. -/
theorem ImportAlias.build_relocate (keyword identifier : Token) :
    build (keyword.relocate place) (identifier.relocate place) =
      (build keyword identifier).map (relocate place) := by
  have moves : Fields.MovesTo place (fieldsOf keyword identifier)
      (fieldsOf (keyword.relocate place) (identifier.relocate place)) :=
    .cons ⟨rfl, Child.leaf_movesTo faithful keyword⟩
      (.cons ⟨rfl, Child.leaf_movesTo faithful identifier⟩ .nil)
  simp only [build, locateKiwi_of_movesTo moves]
  cases locateKiwi "ImportAlias" (fieldsOf keyword identifier) none none <;> rfl

/-- A wildcard of moved parts is the moved one. -/
theorem ImportWildcard.build_relocate (dot star : Token) :
    build (dot.relocate place) (star.relocate place) =
      (build dot star).map (relocate place) := by
  have moves : Fields.MovesTo place (fieldsOf dot star)
      (fieldsOf (dot.relocate place) (star.relocate place)) :=
    .cons ⟨rfl, Child.leaf_movesTo faithful dot⟩
      (.cons ⟨rfl, Child.leaf_movesTo faithful star⟩ .nil)
  simp only [build, locateKiwi_of_movesTo moves]
  cases locateKiwi "ImportWildcard" (fieldsOf dot star) none none <;> rfl

/-- An import of moved parts is the moved one. -/
theorem ImportHeader.build_relocate (keyword : Token) (identifier : Identifier)
    (suffix : Option ImportSuffix) (terminator : Token) :
    build (keyword.relocate place) (identifier.relocate place)
        (suffix.map (ImportSuffix.relocate place)) (terminator.relocate place) =
      (build keyword identifier suffix terminator).map (relocate place) := by
  have moves : Fields.MovesTo place (fieldsOf keyword identifier suffix terminator)
      (fieldsOf (keyword.relocate place) (identifier.relocate place)
        (suffix.map (ImportSuffix.relocate place)) (terminator.relocate place)) :=
    .cons ⟨rfl, Child.leaf_movesTo faithful keyword⟩
      (.cons ⟨rfl, Child.node_movesTo faithful rfl⟩
        (.cons ⟨rfl, Child.ofOption_movesTo faithful ImportSuffix.relocate_toNode_span suffix⟩
          (.cons ⟨rfl, Child.leaf_movesTo faithful terminator⟩ .nil)))
  simp only [build, locateKiwi_of_movesTo moves]
  cases locateKiwi "ImportHeader" (fieldsOf keyword identifier suffix terminator) none none <;>
    rfl

/-- A type of moved parts is the moved one. -/
theorem UserType.build_relocate (qualifier : Option UserType) (identifier : Token) :
    build (qualifier.map (relocate place)) (identifier.relocate place) =
      (build qualifier identifier).map (relocate place) := by
  have moves : Fields.MovesTo place (fieldsOf (qualifier.map toNode) identifier)
      (fieldsOf ((qualifier.map (relocate place)).map toNode) (identifier.relocate place)) :=
    .cons ⟨rfl, Child.ofOption_movesTo faithful relocate_toNode_span qualifier⟩
      (.cons ⟨rfl, Child.leaf_movesTo faithful identifier⟩ .nil)
  simp only [build, locateKiwi_of_movesTo moves]
  cases locateKiwi "UserType" (fieldsOf (qualifier.map toNode) identifier) none none with
  | error cause => rfl
  | ok span => cases qualifier <;> rfl

/-- It is so in parentheses. -/
theorem TypeReference.buildParenthesized_relocate (opening : Token) (inner : TypeReference)
    (closing : Token) :
    buildParenthesized (opening.relocate place) (inner.relocate place)
        (closing.relocate place) =
      (buildParenthesized opening inner closing).map (relocate place) := by
  have moves : Fields.MovesTo place (fieldsOf opening inner.toNode closing)
      (fieldsOf (opening.relocate place) (inner.relocate place).toNode
        (closing.relocate place)) :=
    .cons ⟨rfl, Child.leaf_movesTo faithful opening⟩
      (.cons ⟨rfl, Child.node_movesTo faithful inner.relocate_toNode_span⟩
        (.cons ⟨rfl, Child.leaf_movesTo faithful closing⟩ .nil))
  simp only [buildParenthesized, locateKiwi_of_movesTo moves]
  cases locateKiwi "ParenthesizedType" (fieldsOf opening inner.toNode closing) none none <;> rfl

/-- A function of moved parts is the moved one. -/
theorem FunctionDeclaration.build_relocate (modifiers : List Token)
    (keyword identifier closing : Token) (returnType : Option TypeReference) :
    build (modifiers.map (Token.relocate place)) (keyword.relocate place)
        (identifier.relocate place) (closing.relocate place)
        (returnType.map (TypeReference.relocate place)) =
      (build modifiers keyword identifier closing returnType).map (relocate place) := by
  have moves : Fields.MovesTo place (fieldsOf modifiers keyword identifier closing returnType)
      (fieldsOf (modifiers.map (Token.relocate place)) (keyword.relocate place)
        (identifier.relocate place) (closing.relocate place)
        (returnType.map (TypeReference.relocate place))) :=
    .cons ⟨rfl, Child.leaves_movesTo faithful modifiers⟩
      (.cons ⟨rfl, Child.leaf_movesTo faithful keyword⟩
        (.cons ⟨rfl, Child.leaf_movesTo faithful identifier⟩
          (.cons ⟨rfl, Child.leaf_movesTo faithful closing⟩
            (.cons ⟨rfl, Child.ofOption_movesTo faithful TypeReference.relocate_toNode_span
              returnType⟩ .nil))))
  simp only [build, locateKiwi_of_movesTo moves]
  cases locateKiwi "FunctionDeclaration"
    (fieldsOf modifiers keyword identifier closing returnType) none none <;> rfl

/-- A file of moved parts is the moved one. -/
theorem File.build_relocate (packageHeader : PackageHeader) (imports : List ImportHeader)
    (declarations : List FunctionDeclaration) (endMarker : Token) :
    build (packageHeader.relocate place) (imports.map (ImportHeader.relocate place))
        (declarations.map (FunctionDeclaration.relocate place)) (endMarker.relocate place)
        none none =
      (build packageHeader imports declarations endMarker none none).map (relocate place) := by
  have moves : Fields.MovesTo place (fieldsOf packageHeader imports declarations endMarker)
      (fieldsOf (packageHeader.relocate place) (imports.map (ImportHeader.relocate place))
        (declarations.map (FunctionDeclaration.relocate place)) (endMarker.relocate place)) :=
    .cons ⟨rfl, Child.node_movesTo faithful rfl⟩
      (.cons ⟨rfl, Child.sequence_movesTo faithful (fun _ => rfl) imports⟩
        (.cons ⟨rfl, Child.sequence_movesTo faithful (fun _ => rfl) declarations⟩
          (.cons ⟨rfl, Child.leaf_movesTo faithful endMarker⟩ .nil)))
  simp only [build, locateKiwi_of_movesTo moves]
  cases locateKiwi "File" (fieldsOf packageHeader imports declarations endMarker) none none <;>
    rfl

end Building

end KiwiFront
