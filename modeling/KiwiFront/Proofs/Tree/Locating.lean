import KiwiFront.Proofs.Tree.Spans

/-!
# Why elements cannot be built

Every child that the schema of an element lists is among its fields, so building an element
fails for one reason only: no child of it has a position at one of the ends. From parts that
are located an element is built, and it is located itself.
-/

namespace KiwiFront

/-- The one cause for which no element can be built: it has no place. -/
def NodeError.IsUnlocatable (cause : NodeError) : Prop :=
  ∃ node boundary, cause = .unlocatable node boundary

namespace Fields

/-- Whether fields hold a child of each of some names. -/
def HoldsAll {Item : Type} (fields : Fields Item) (names : List String) : Prop :=
  names.all (fun name => (fields.lookup name).isSome) = true

variable {Item : Type} {fields : Fields Item} {names : List String}

/-- The order of the names makes no difference. -/
theorem HoldsAll.reverse (holds : fields.HoldsAll names) : fields.HoldsAll names.reverse := by
  unfold HoldsAll
  rw [List.all_reverse]
  exact holds

variable [Located Item]

/-- Looking for an end among fields that are there does not fail. -/
theorem HoldsAll.findBoundary (holds : fields.HoldsAll names) (node : String)
    (boundary : Boundary) : ∃ found, fields.findBoundary node boundary names = .ok found := by
  induction names with
  | nil => exact ⟨none, rfl⟩
  | cons name rest inductionHypothesis =>
      obtain ⟨here, later⟩ := Bool.and_eq_true_iff.1 holds
      obtain ⟨child, found⟩ := Option.isSome_iff_exists.1 here
      cases located : child.boundary? boundary with
      | some position => exact ⟨some position, findBoundary_here found located⟩
      | none =>
          rw [findBoundary_later found located]
          exact inductionHypothesis later

/-- An end that is looked for among children that are there is only not found for want of a
place. -/
theorem HoldsAll.isUnlocatable (holds : fields.HoldsAll names) {node : String}
    {boundary : Boundary} {cause : NodeError}
    (failed : fields.deriveBoundary node boundary names = .error cause) :
    cause.IsUnlocatable := by
  obtain ⟨found, here⟩ := holds.findBoundary node boundary
  unfold deriveBoundary at failed
  rw [here] at failed
  cases found with
  | some position => cases failed
  | none =>
      cases failed
      exact ⟨node, boundary, rfl⟩

end Fields

/-- An element with all its children that cannot be built has no place. -/
theorem isUnlocatable_of_locateKiwi {Target : Type} {node : String} {names : List String}
    {fields : Fields Node} {complete : Span -> Except NodeError Target} {cause : NodeError}
    (listed : (node, names) ∈ KiwiTypes.childNames)
    (failed : locateKiwi node fields none none >>= complete = .error cause)
    (holds : fields.HoldsAll names) (completes : ∀ span, ∃ target, complete span = .ok target) :
    cause.IsUnlocatable := by
  rw [locateKiwi_eq listed] at failed
  cases first : fields.deriveBoundary node .start names with
  | error other =>
      rw [first] at failed
      cases failed
      exact holds.isUnlocatable first
  | ok start =>
      cases last : fields.deriveBoundary node .stop names.reverse with
      | error other =>
          rw [first, Except.bind, last] at failed
          cases failed
          exact holds.reverse.isUnlocatable last
      | ok stop =>
          rw [first, Except.bind, last] at failed
          obtain ⟨target, built⟩ := completes ⟨start, stop⟩
          cases built.symm.trans failed

section Causes

variable {cause : NodeError} {keyword identifier terminator closing : Token}

/-- A name cannot be built only if it has no place. -/
theorem Identifier.isUnlocatable {segments : List Token}
    (failed : build segments = .error cause) : cause.IsUnlocatable := by
  have listed : ("Identifier", ["attrs"]) ∈ KiwiTypes.childNames := by decide
  exact isUnlocatable_of_locateKiwi listed failed rfl fun _ => ⟨_, rfl⟩

/-- Nor can a package header. -/
theorem PackageHeader.isUnlocatable {name : Identifier}
    (failed : build keyword name terminator = .error cause) : cause.IsUnlocatable := by
  have listed : ("PackageHeader", ["keyword", "identifier"]) ∈ KiwiTypes.childNames := by decide
  exact isUnlocatable_of_locateKiwi listed failed rfl fun _ => ⟨_, rfl⟩

/-- Nor can an alias. -/
theorem ImportAlias.isUnlocatable (failed : build keyword identifier = .error cause) :
    cause.IsUnlocatable := by
  have listed : ("ImportAlias", ["keyword", "identifier"]) ∈ KiwiTypes.childNames := by decide
  exact isUnlocatable_of_locateKiwi listed failed rfl fun _ => ⟨_, rfl⟩

/-- Nor can a wildcard. -/
theorem ImportWildcard.isUnlocatable {dot star : Token}
    (failed : build dot star = .error cause) : cause.IsUnlocatable := by
  have listed : ("ImportWildcard", ["dot", "star"]) ∈ KiwiTypes.childNames := by decide
  exact isUnlocatable_of_locateKiwi listed failed rfl fun _ => ⟨_, rfl⟩

/-- Nor can an import. -/
theorem ImportHeader.isUnlocatable {name : Identifier} {suffix : Option ImportSuffix}
    (failed : build keyword name suffix terminator = .error cause) : cause.IsUnlocatable := by
  have listed : ("ImportHeader", ["keyword", "identifier", "suffix"]) ∈
      KiwiTypes.childNames := by decide
  exact isUnlocatable_of_locateKiwi listed failed rfl fun _ => ⟨_, rfl⟩

/-- Nor can a type. -/
theorem UserType.isUnlocatable {qualifier : Option UserType}
    (failed : build qualifier identifier = .error cause) : cause.IsUnlocatable := by
  have listed : ("UserType", ["qualifier", "identifier"]) ∈ KiwiTypes.childNames := by decide
  cases qualifier with
  | none => exact isUnlocatable_of_locateKiwi listed failed rfl fun _ => ⟨_, rfl⟩
  | some qualifier => exact isUnlocatable_of_locateKiwi listed failed rfl fun _ => ⟨_, rfl⟩

/-- Nor can a type in parentheses. -/
theorem TypeReference.isUnlocatable {opening : Token} {inner : TypeReference}
    (failed : buildParenthesized opening inner closing = .error cause) :
    cause.IsUnlocatable := by
  have listed : ("ParenthesizedType", ["open", "inner", "close"]) ∈ KiwiTypes.childNames := by
    decide
  exact isUnlocatable_of_locateKiwi listed failed rfl fun _ => ⟨_, rfl⟩

/-- Nor can a function. -/
theorem FunctionDeclaration.isUnlocatable {modifiers : List Token}
    {returnType : Option TypeReference}
    (failed : build modifiers keyword identifier closing returnType = .error cause) :
    cause.IsUnlocatable := by
  have listed : ("FunctionDeclaration", ["modifiers", "keyword", "identifier", "close_paren",
      "return_type"]) ∈ KiwiTypes.childNames := by decide
  exact isUnlocatable_of_locateKiwi listed failed rfl fun _ => ⟨_, rfl⟩

/-- Nor can a file. -/
theorem File.isUnlocatable {header : PackageHeader} {imports : List ImportHeader}
    {declarations : List FunctionDeclaration} {endMarker : Token}
    (failed : build header imports declarations endMarker none none = .error cause) :
    cause.IsUnlocatable := by
  have listed : ("File", ["package_header", "imports", "declarations", "end_marker"]) ∈
      KiwiTypes.childNames := by decide
  exact isUnlocatable_of_locateKiwi listed failed rfl fun _ => ⟨_, rfl⟩

end Causes

/-- A span between two located ones is located. -/
theorem Span.isLocated_of_ends {first last : Span} (firstLocated : first.isLocated = true)
    (lastLocated : last.isLocated = true) :
    (⟨first.start, last.stop⟩ : Span).isLocated = true :=
  isLocated_iff.2 ⟨(isLocated_iff.1 firstLocated).1, (isLocated_iff.1 lastLocated).2⟩

/-- What is given or stands in for it is located. -/
theorem Span.isLocated_getD {Element : Type} {spanOf : Element -> Span} {other : Span}
    (given : Option Element) (givenLocated : ∀ element ∈ given, (spanOf element).isLocated = true)
    (otherLocated : other.isLocated = true) :
    ((given.map spanOf).getD other).isLocated = true := by
  cases given with
  | none => exact otherLocated
  | some element => exact givenLocated element rfl

section Located

variable {keyword identifier terminator closing : Token}
  (keywordLocated : keyword.span.isLocated = true)
  (identifierLocated : identifier.span.isLocated = true)
  (closingLocated : closing.span.isLocated = true)

/-- A name of located segments is built and located. -/
theorem Identifier.exists_located {segments : List Token} (nonempty : segments ≠ [])
    (located : ∀ segment ∈ segments, segment.span.isLocated = true) :
    ∃ name, build segments = .ok name ∧ name.span.isLocated = true := by
  obtain ⟨first, rest, rfl⟩ := List.exists_cons_of_ne_nil nonempty
  have isLast := List.getLast?_eq_some_getLast nonempty
  have firstLocated := located first List.mem_cons_self
  have lastLocated := located _ (List.getLast_mem nonempty)
  exact ⟨_, build_eq isLast firstLocated lastLocated,
    Span.isLocated_of_ends firstLocated lastLocated⟩

include keywordLocated in
/-- A package header is located by its keyword and the end of its statement. -/
theorem PackageHeader.exists_located {name : Identifier}
    (nameLocated : name.span.isLocated = true) :
    ∃ header, build keyword name terminator = .ok header ∧ header.span.isLocated = true :=
  ⟨_, build_eq keywordLocated nameLocated, Span.isLocated_of_ends keywordLocated nameLocated⟩

include keywordLocated identifierLocated in
/-- An alias is located by its keyword and its name. -/
theorem ImportAlias.exists_located :
    ∃ suffix, build keyword identifier = .ok suffix ∧ suffix.span.isLocated = true :=
  ⟨_, build_eq keywordLocated identifierLocated,
    Span.isLocated_of_ends keywordLocated identifierLocated⟩

/-- A wildcard is located by its dot and its star. -/
theorem ImportWildcard.exists_located {dot star : Token} (dotLocated : dot.span.isLocated = true)
    (starLocated : star.span.isLocated = true) :
    ∃ suffix, build dot star = .ok suffix ∧ suffix.span.isLocated = true :=
  ⟨_, build_eq dotLocated starLocated, Span.isLocated_of_ends dotLocated starLocated⟩

include keywordLocated in
/-- An import is located by its keyword and the end of its statement. -/
theorem ImportHeader.exists_located {name : Identifier} {suffix : Option ImportSuffix}
    (nameLocated : name.span.isLocated = true)
    (suffixLocated : ∀ given ∈ suffix, given.span.isLocated = true) :
    ∃ header, build keyword name suffix terminator = .ok header ∧
      header.span.isLocated = true :=
  ⟨_, build_eq keywordLocated nameLocated suffixLocated, Span.isLocated_of_ends keywordLocated
    (Span.isLocated_getD suffix suffixLocated nameLocated)⟩

include identifierLocated in
/-- A type is located by its qualifier, if it has one, and its name. -/
theorem UserType.exists_located {qualifier : Option UserType}
    (qualifierLocated : ∀ given ∈ qualifier, given.span.isLocated = true) :
    ∃ type, build qualifier identifier = .ok type ∧ type.span.isLocated = true := by
  cases qualifier with
  | none => exact ⟨_, build_simple identifierLocated, identifierLocated⟩
  | some qualifier =>
      have located := qualifierLocated qualifier rfl
      exact ⟨_, build_qualified located identifierLocated,
        Span.isLocated_of_ends located identifierLocated⟩

include closingLocated in
/-- A type in parentheses is located by these. -/
theorem TypeReference.exists_located {opening : Token} {inner : TypeReference}
    (openingLocated : opening.span.isLocated = true) :
    ∃ type, buildParenthesized opening inner closing = .ok type ∧ type.span.isLocated = true :=
  ⟨_, buildParenthesized_eq openingLocated closingLocated,
    Span.isLocated_of_ends openingLocated closingLocated⟩

include keywordLocated closingLocated in
/-- A function is located by what it begins with and what it ends with. -/
theorem FunctionDeclaration.exists_located {modifiers : List Token}
    {returnType : Option TypeReference}
    (modifiersLocated : ∀ modifier ∈ modifiers, modifier.span.isLocated = true)
    (typeLocated : ∀ given ∈ returnType, given.span.isLocated = true) :
    ∃ declaration, build modifiers keyword identifier closing returnType = .ok declaration ∧
      declaration.span.isLocated = true := by
  have firstLocated : (modifiers.head?.getD keyword).span.isLocated = true := by
    cases modifiers with
    | nil => exact keywordLocated
    | cons modifier rest => exact modifiersLocated modifier List.mem_cons_self
  exact ⟨_, build_eq modifiersLocated keywordLocated closingLocated typeLocated,
    Span.isLocated_of_ends firstLocated
      (Span.isLocated_getD returnType typeLocated closingLocated)⟩

/-- A file is located by its header and its end marker. -/
theorem File.exists_located {header : PackageHeader} {imports : List ImportHeader}
    {declarations : List FunctionDeclaration} {endMarker : Token}
    (headerLocated : header.span.isLocated = true)
    (endLocated : endMarker.span.isLocated = true) :
    ∃ file, build header imports declarations endMarker none none = .ok file ∧
      file.span.isLocated = true :=
  ⟨_, build_eq headerLocated endLocated, Span.isLocated_of_ends headerLocated endLocated⟩

end Located

end KiwiFront
