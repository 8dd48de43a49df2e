import KiwiFront.Tree.Building
import Mathlib

/-!
# The spans of new elements

Building an element from located parts succeeds. Its span begins with its first part that
is a child and ends with its last one: a header stops before its terminator, and a file
with its end marker.
-/

namespace KiwiFront

namespace KiwiTypes

/-- The registry of the language: the node base type and all declarations. -/
def declared : Registry where
  entries := (nodeBase, .node Registry.baseDeclaration) ::
    declarations.map fun declaration => (declaration.name, declaration.entry)
  isClosed := true

/-- All declarations of the language are accepted. -/
theorem registry_eq : registry = .ok declared := rfl

/-- The children of the elements of the language, by the name of their type. -/
def childNames : List (String × List String) := [
  ("File", ["package_header", "imports", "declarations", "end_marker"]),
  ("PackageHeader", ["keyword", "identifier"]),
  ("Identifier", ["attrs"]),
  ("ImportHeader", ["keyword", "identifier", "suffix"]),
  ("ImportAlias", ["keyword", "identifier"]),
  ("ImportWildcard", ["dot", "star"]),
  ("FunctionDeclaration", ["modifiers", "keyword", "identifier", "close_paren", "return_type"]),
  ("ParenthesizedType", ["open", "inner", "close"]),
  ("UserType", ["qualifier", "identifier"])]

/-- The schema of an element lists its children by name. -/
theorem schema_fieldNames {node : String} {names : List String}
    (listed : (node, names) ∈ childNames) :
    (declared.schema node).map NodeSchema.fieldNames = .ok names := by
  simp only [childNames, List.mem_cons, Prod.mk.injEq, List.not_mem_nil, or_false] at listed
  rcases listed with ⟨rfl, rfl⟩ | ⟨rfl, rfl⟩ | ⟨rfl, rfl⟩ | ⟨rfl, rfl⟩ | ⟨rfl, rfl⟩ | ⟨rfl, rfl⟩ |
    ⟨rfl, rfl⟩ | ⟨rfl, rfl⟩ | ⟨rfl, rfl⟩
  all_goals cbv

end KiwiTypes

/-- An end that is found is derived. -/
theorem Fields.deriveBoundary_of_find {Item : Type} [Located Item] {node : String}
    {fields : Fields Item} {boundary : Boundary} {order : List String} {position : Position}
    (found : findBoundary node fields boundary order = .ok (some position)) :
    deriveBoundary node fields boundary order = .ok position := by
  unfold deriveBoundary
  rw [found]
  rfl

/-- A span is derived along the children that the schema lists. -/
theorem locateKiwi_eq {node : String} {names : List String}
    (listed : (node, names) ∈ KiwiTypes.childNames) (fields : Fields Node) :
    locateKiwi node fields none none =
      (Fields.deriveBoundary node fields .start names).bind fun start =>
        (Fields.deriveBoundary node fields .stop names.reverse).bind fun stop =>
          .ok ⟨start, stop⟩ := by
  have named := KiwiTypes.schema_fieldNames listed
  unfold locateKiwi
  rw [KiwiTypes.registry_eq]
  change Fields.locate KiwiTypes.declared node fields none none = _
  unfold Fields.locate
  cases found : KiwiTypes.declared.schema node with
  | error cause =>
      rw [found] at named
      cases named
  | ok schema =>
      rw [found] at named
      obtain rfl : schema.fieldNames = names := Except.ok.inj named
      rfl

/-- The span of an element whose first and last located children are known. -/
theorem locateKiwi_of_ends {node : String} {names : List String} {fields : Fields Node}
    {start stop : Position} (listed : (node, names) ∈ KiwiTypes.childNames)
    (first : Fields.findBoundary node fields .start names = .ok (some start))
    (last : Fields.findBoundary node fields .stop names.reverse = .ok (some stop)) :
    locateKiwi node fields none none = .ok ⟨start, stop⟩ := by
  rw [locateKiwi_eq listed, Fields.deriveBoundary_of_find first,
    Fields.deriveBoundary_of_find last]
  rfl

/-- A span is located if both of its ends are. -/
theorem Span.isLocated_iff {span : Span} :
    span.isLocated = true ↔ span.start.isLocated = true ∧ span.stop.isLocated = true := by
  rw [Span.isLocated, Bool.and_eq_true]

namespace Child

variable {Item : Type} [Located Item]

/-- The end of a span that a boundary is. -/
def endOf (span : Span) : Boundary -> Position
  | .start => span.start
  | .stop => span.stop

/-- A located node ends where its span does. -/
theorem boundary?_node {item : Item} (located : (Located.spanOf item).isLocated = true)
    (boundary : Boundary) :
    (node item).boundary? boundary = some (endOf (Located.spanOf item) boundary) := by
  obtain ⟨start, stop⟩ := Span.isLocated_iff.1 located
  cases boundary with
  | start => simp only [boundary?, start?, Option.filter, start, endOf, if_true]
  | stop => simp only [boundary?, stop?, Option.filter, stop, endOf, if_true]

/-- What is absent has no end. -/
theorem boundary?_absent (boundary : Boundary) :
    (absent : Child Item).boundary? boundary = none := by
  cases boundary <;> rfl

/-- Neither has a sequence without elements. -/
theorem boundary?_sequence_nil (boundary : Boundary) :
    (sequence [] : Child Item).boundary? boundary = none := by
  cases boundary <;> rfl

/-- A sequence starts with its first element. -/
theorem start?_sequence {first : Item} {rest : List Item}
    (located : (Located.spanOf first).isLocated = true) :
    (sequence (first :: rest)).boundary? .start = some (Located.spanOf first).start := by
  have start := (Span.isLocated_iff.1 located).1
  simp only [boundary?, start?, List.head?_cons, Option.map_some, Option.filter, start, if_true]

/-- It stops with its last element. -/
theorem stop?_sequence {items : List Item} {last : Item} (isLast : items.getLast? = some last)
    (located : (Located.spanOf last).isLocated = true) :
    (sequence items).boundary? .stop = some (Located.spanOf last).stop := by
  have stop := (Span.isLocated_iff.1 located).2
  simp only [boundary?, stop?, isLast, Option.map_some, Option.filter, stop, if_true]

end Child

namespace Fields

variable {Item : Type} [Located Item] {node field : String} {fields : Fields Item}
  {boundary : Boundary} {rest : List String} {child : Child Item}

/-- The first child with an end tells it. -/
theorem findBoundary_here {position : Position} (found : fields.lookup field = some child)
    (located : child.boundary? boundary = some position) :
    findBoundary node fields boundary (field :: rest) = .ok (some position) := by
  simp only [findBoundary, found, located]

/-- A child without an end is passed over. -/
theorem findBoundary_later (found : fields.lookup field = some child)
    (missing : child.boundary? boundary = none) :
    findBoundary node fields boundary (field :: rest) =
      findBoundary node fields boundary rest := by
  simp only [findBoundary, found, missing]

end Fields

/-- The node of a type covers its span. -/
theorem UserType.toNode_span (type : UserType) : type.toNode.span = type.span := by
  cases type <;> rfl

/-- It does so in parentheses. -/
theorem TypeReference.toNode_span (type : TypeReference) : type.toNode.span = type.span := by
  cases type with
  | parenthesized => rfl
  | user type => exact type.toNode_span

/-- The stretch of source that a suffix covers. -/
def ImportSuffix.span : ImportSuffix -> Span
  | .alias suffix => suffix.span
  | .wildcard suffix => suffix.span

/-- The node of a suffix covers its span. -/
theorem ImportSuffix.toNode_span (suffix : ImportSuffix) : suffix.toNode.span = suffix.span := by
  cases suffix <;> rfl

/-- A name begins with its first segment and ends with its last one. -/
theorem Identifier.build_eq {first last : Token} {rest : List Token}
    (isLast : (first :: rest).getLast? = some last) (firstLocated : first.span.isLocated = true)
    (lastLocated : last.span.isLocated = true) :
    Identifier.build (first :: rest) = .ok ⟨first :: rest, ⟨first.start, last.stop⟩⟩ := by
  have isLastNode : (List.map Token.toNode (first :: rest)).getLast? = some last.toNode := by
    rw [List.getLast?_map, isLast]
    rfl
  have listed : ("Identifier", ["attrs"]) ∈ KiwiTypes.childNames := by decide
  have located : locateKiwi "Identifier" (fieldsOf (first :: rest)) none none =
      .ok ⟨first.start, last.stop⟩ := by
    apply locateKiwi_of_ends listed
    · exact Fields.findBoundary_here rfl (Child.start?_sequence firstLocated)
    · exact Fields.findBoundary_here rfl (Child.stop?_sequence isLastNode lastLocated)
  simp only [build, located]
  rfl

/-- The terminator of a package header is no child of it. -/
theorem PackageHeader.build_eq {keyword terminator : Token} {identifier : Identifier}
    (keywordLocated : keyword.span.isLocated = true)
    (identifierLocated : identifier.span.isLocated = true) :
    PackageHeader.build keyword identifier terminator =
      .ok ⟨keyword, identifier, terminator, ⟨keyword.start, identifier.span.stop⟩⟩ := by
  have listed : ("PackageHeader", ["keyword", "identifier"]) ∈ KiwiTypes.childNames := by decide
  have located : locateKiwi "PackageHeader" (fieldsOf keyword identifier terminator) none none =
      .ok ⟨keyword.start, identifier.span.stop⟩ := by
    apply locateKiwi_of_ends listed
    · exact Fields.findBoundary_here rfl (Child.boundary?_node keywordLocated .start)
    · exact Fields.findBoundary_here rfl (Child.boundary?_node identifierLocated .stop)
  simp only [build, located]
  rfl

/-- An alias covers its keyword and its name. -/
theorem ImportAlias.build_eq {keyword identifier : Token}
    (keywordLocated : keyword.span.isLocated = true)
    (identifierLocated : identifier.span.isLocated = true) :
    ImportAlias.build keyword identifier =
      .ok ⟨keyword, identifier, ⟨keyword.start, identifier.stop⟩⟩ := by
  have listed : ("ImportAlias", ["keyword", "identifier"]) ∈ KiwiTypes.childNames := by decide
  have located : locateKiwi "ImportAlias" (fieldsOf keyword identifier) none none =
      .ok ⟨keyword.start, identifier.stop⟩ := by
    apply locateKiwi_of_ends listed
    · exact Fields.findBoundary_here rfl (Child.boundary?_node keywordLocated .start)
    · exact Fields.findBoundary_here rfl (Child.boundary?_node identifierLocated .stop)
  simp only [build, located]
  rfl

/-- A wildcard covers its dot and its star. -/
theorem ImportWildcard.build_eq {dot star : Token} (dotLocated : dot.span.isLocated = true)
    (starLocated : star.span.isLocated = true) :
    ImportWildcard.build dot star = .ok ⟨dot, star, ⟨dot.start, star.stop⟩⟩ := by
  have listed : ("ImportWildcard", ["dot", "star"]) ∈ KiwiTypes.childNames := by decide
  have located : locateKiwi "ImportWildcard" (fieldsOf dot star) none none =
      .ok ⟨dot.start, star.stop⟩ := by
    apply locateKiwi_of_ends listed
    · exact Fields.findBoundary_here rfl (Child.boundary?_node dotLocated .start)
    · exact Fields.findBoundary_here rfl (Child.boundary?_node starLocated .stop)
  simp only [build, located]
  rfl

/-- An import ends with its suffix, and without one with its name. -/
theorem ImportHeader.build_eq {keyword terminator : Token} {identifier : Identifier}
    {suffix : Option ImportSuffix} (keywordLocated : keyword.span.isLocated = true)
    (identifierLocated : identifier.span.isLocated = true)
    (suffixLocated : ∀ given ∈ suffix, given.span.isLocated = true) :
    ImportHeader.build keyword identifier suffix terminator =
      .ok ⟨keyword, identifier, suffix, terminator,
        ⟨keyword.start, ((suffix.map ImportSuffix.span).getD identifier.span).stop⟩⟩ := by
  have listed : ("ImportHeader", ["keyword", "identifier", "suffix"]) ∈ KiwiTypes.childNames := by
    decide
  have located : locateKiwi "ImportHeader" (fieldsOf keyword identifier suffix terminator) none
      none = .ok ⟨keyword.start,
        ((suffix.map ImportSuffix.span).getD identifier.span).stop⟩ := by
    apply locateKiwi_of_ends listed
    · exact Fields.findBoundary_here rfl (Child.boundary?_node keywordLocated .start)
    · cases suffix with
      | none =>
          apply (Fields.findBoundary_later rfl (Child.boundary?_absent .stop)).trans
          exact Fields.findBoundary_here rfl (Child.boundary?_node identifierLocated .stop)
      | some given =>
          have givenLocated : given.toNode.span.isLocated = true := by
            rw [given.toNode_span]
            exact suffixLocated given rfl
          rw [Option.map_some, Option.getD_some, ← given.toNode_span]
          exact Fields.findBoundary_here rfl (Child.boundary?_node givenLocated .stop)
  simp only [build, located]
  rfl

/-- A simple type covers its name. -/
theorem UserType.build_simple {identifier : Token}
    (identifierLocated : identifier.span.isLocated = true) :
    UserType.build none identifier = .ok (.simple identifier identifier.span) := by
  have listed : ("UserType", ["qualifier", "identifier"]) ∈ KiwiTypes.childNames := by decide
  have located : locateKiwi "UserType" (fieldsOf none identifier) none none =
      .ok identifier.span := by
    apply locateKiwi_of_ends listed
    · apply (Fields.findBoundary_later rfl (Child.boundary?_absent .start)).trans
      exact Fields.findBoundary_here rfl (Child.boundary?_node identifierLocated .start)
    · exact Fields.findBoundary_here rfl (Child.boundary?_node identifierLocated .stop)
  simp only [build, Option.map_none, located]
  rfl

/-- A qualified type covers its qualifier and its name. -/
theorem UserType.build_qualified {qualifier : UserType} {identifier : Token}
    (qualifierLocated : qualifier.span.isLocated = true)
    (identifierLocated : identifier.span.isLocated = true) :
    UserType.build (some qualifier) identifier =
      .ok (.qualified qualifier identifier ⟨qualifier.span.start, identifier.stop⟩) := by
  have listed : ("UserType", ["qualifier", "identifier"]) ∈ KiwiTypes.childNames := by decide
  have located : locateKiwi "UserType" (fieldsOf (some qualifier.toNode) identifier) none none =
      .ok ⟨qualifier.span.start, identifier.stop⟩ := by
    rw [← qualifier.toNode_span] at qualifierLocated ⊢
    apply locateKiwi_of_ends listed
    · exact Fields.findBoundary_here rfl (Child.boundary?_node qualifierLocated .start)
    · exact Fields.findBoundary_here rfl (Child.boundary?_node identifierLocated .stop)
  simp only [build, Option.map_some, located]
  rfl

/-- A type in parentheses covers both of them. -/
theorem TypeReference.buildParenthesized_eq {opening closing : Token} {inner : TypeReference}
    (openingLocated : opening.span.isLocated = true)
    (closingLocated : closing.span.isLocated = true) :
    TypeReference.buildParenthesized opening inner closing =
      .ok (.parenthesized opening inner closing ⟨opening.start, closing.stop⟩) := by
  have listed : ("ParenthesizedType", ["open", "inner", "close"]) ∈ KiwiTypes.childNames := by
    decide
  have located : locateKiwi "ParenthesizedType" (fieldsOf opening inner.toNode closing) none
      none = .ok ⟨opening.start, closing.stop⟩ := by
    apply locateKiwi_of_ends listed
    · exact Fields.findBoundary_here rfl (Child.boundary?_node openingLocated .start)
    · exact Fields.findBoundary_here rfl (Child.boundary?_node closingLocated .stop)
  simp only [buildParenthesized, located]
  rfl

/-- A function begins with its first modifier, if it has any, and ends with its return
type or its closing parenthesis. -/
theorem FunctionDeclaration.build_eq {modifiers : List Token}
    {keyword identifier closing : Token} {returnType : Option TypeReference}
    (modifiersLocated : ∀ modifier ∈ modifiers, modifier.span.isLocated = true)
    (keywordLocated : keyword.span.isLocated = true)
    (closingLocated : closing.span.isLocated = true)
    (typeLocated : ∀ given ∈ returnType, given.span.isLocated = true) :
    FunctionDeclaration.build modifiers keyword identifier closing returnType =
      .ok ⟨modifiers, keyword, identifier, closing, returnType,
        ⟨(modifiers.head?.getD keyword).start,
          ((returnType.map TypeReference.span).getD closing.span).stop⟩⟩ := by
  have listed : ("FunctionDeclaration", ["modifiers", "keyword", "identifier", "close_paren",
      "return_type"]) ∈ KiwiTypes.childNames := by decide
  have located : locateKiwi "FunctionDeclaration"
      (fieldsOf modifiers keyword identifier closing returnType) none none =
        .ok ⟨(modifiers.head?.getD keyword).start,
          ((returnType.map TypeReference.span).getD closing.span).stop⟩ := by
    apply locateKiwi_of_ends listed
    · cases modifiers with
      | nil =>
          apply (Fields.findBoundary_later rfl (Child.boundary?_sequence_nil .start)).trans
          exact Fields.findBoundary_here rfl (Child.boundary?_node keywordLocated .start)
      | cons modifier rest =>
          have firstLocated := modifiersLocated modifier List.mem_cons_self
          exact Fields.findBoundary_here rfl (Child.start?_sequence firstLocated)
    · cases returnType with
      | none =>
          apply (Fields.findBoundary_later rfl (Child.boundary?_absent .stop)).trans
          exact Fields.findBoundary_here rfl (Child.boundary?_node closingLocated .stop)
      | some given =>
          have givenLocated : given.toNode.span.isLocated = true := by
            rw [given.toNode_span]
            exact typeLocated given rfl
          rw [Option.map_some, Option.getD_some, ← given.toNode_span]
          exact Fields.findBoundary_here rfl (Child.boundary?_node givenLocated .stop)
  simp only [build, located]
  rfl

/-- A file runs from its package header to its end marker. -/
theorem File.build_eq {header : PackageHeader} {imports : List ImportHeader}
    {declarations : List FunctionDeclaration} {endMarker : Token}
    (headerLocated : header.span.isLocated = true)
    (endLocated : endMarker.span.isLocated = true) :
    File.build header imports declarations endMarker none none =
      .ok ⟨header, imports, declarations, endMarker,
        ⟨header.span.start, endMarker.stop⟩⟩ := by
  have listed : ("File", ["package_header", "imports", "declarations", "end_marker"]) ∈
      KiwiTypes.childNames := by decide
  have located : locateKiwi "File" (fieldsOf header imports declarations endMarker) none none =
      .ok ⟨header.span.start, endMarker.stop⟩ := by
    apply locateKiwi_of_ends listed
    · exact Fields.findBoundary_here rfl (Child.boundary?_node headerLocated .start)
    · exact Fields.findBoundary_here rfl (Child.boundary?_node endLocated .stop)
  simp only [build, located]
  rfl

end KiwiFront
