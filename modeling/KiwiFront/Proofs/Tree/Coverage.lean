import KiwiFront.Proofs.Tree.Nesting

/-!
# What built elements cover

The span of a built element runs from the first of its own tokens to the last one, and its
outline covers these tokens. The tokens of a header are its own but for the terminator, which
its schema passes over.
-/

namespace KiwiFront

open Peg

namespace Identifier

variable {identifier : Identifier}

/-- The span of a dotted name runs from its first segment to its last. -/
theorem spanned (built : identifier.Built)
    (located : ∀ token ∈ identifier.segments, token.span.isLocated = true) :
    Spanned identifier.segments identifier.span := by
  obtain ⟨made, nonempty⟩ := built
  have isLast := List.getLast?_eq_some_getLast nonempty
  generalize List.getLast identifier.segments nonempty = last at isLast
  have lastLocated := located last (List.mem_of_getLast? isLast)
  cases segments : identifier.segments with
  | nil => exact absurd segments nonempty
  | cons first rest =>
      rw [segments] at made isLast located
      have same := eq_of_ok made (build_eq isLast (located first List.mem_cons_self) lastLocated)
      rw [same]
      exact ⟨rfl, congrArg (Option.map Token.stop) isLast⟩

/-- The children of a dotted name are its segments. -/
theorem toNode_covers (spanned : Spanned identifier.segments identifier.span) :
    identifier.toNode.Covers identifier.segments := by
  have listed : ("Identifier", ["attrs"]) ∈ KiwiTypes.childNames := by decide
  exact Node.covers_mk listed (.one ⟨_, rfl, leaves_cover _⟩) spanned

end Identifier

namespace PackageHeader

variable {header : PackageHeader}

/-- The span of a package header runs from its keyword to the end of its name. -/
theorem spanned (built : header.Built)
    (located : ∀ token ∈ header.ownTokens, token.span.isLocated = true) :
    Spanned header.ownTokens header.span := by
  obtain ⟨made, builtName⟩ := built
  obtain ⟨keywordLocated, nameLocated⟩ := List.forall_mem_cons.1 located
  have name := Identifier.spanned builtName nameLocated
  have same := eq_of_ok made (build_eq keywordLocated (name.located nameLocated))
  rw [same]
  exact (Spanned.token header.keyword).of_ends name (by simp [ownTokens])
    (List.suffix_cons _ _)

/-- A package header covers its keyword and its name. -/
theorem toNode_covers (built : header.Built)
    (located : ∀ token ∈ header.ownTokens, token.span.isLocated = true) :
    header.toNode.Covers header.ownTokens := by
  have listed : ("PackageHeader", ["keyword", "identifier"]) ∈ KiwiTypes.childNames := by decide
  have name := Identifier.spanned built.2 (List.forall_mem_cons.1 located).2
  have row : SpellsEach (fieldsOf header.keyword header.identifier header.terminator).Covers
      ["keyword", "identifier"] ([header.keyword] ++ header.identifier.segments) :=
    .more ⟨_, rfl, header.keyword.toNode_covers⟩ (.one ⟨_, rfl, Identifier.toNode_covers name⟩)
  exact Node.covers_mk listed row (spanned built located)

end PackageHeader

namespace ImportSuffix

variable {suffix : ImportSuffix}

/-- An import suffix spans its two tokens, whichever of the two forms it has. -/
theorem spanned (built : suffix.Built)
    (located : ∀ token ∈ suffix.keptTokens, token.span.isLocated = true) :
    Spanned suffix.keptTokens suffix.span := by
  rcases suffix with given | given
  · have made : ImportAlias.build given.keyword given.identifier = .ok given := built
    obtain ⟨keywordLocated, behind⟩ := List.forall_mem_cons.1 located
    have nameLocated := behind given.identifier List.mem_cons_self
    have same := eq_of_ok made (ImportAlias.build_eq keywordLocated nameLocated)
    rw [span, congrArg ImportAlias.span same]
    exact ⟨rfl, rfl⟩
  · have made : ImportWildcard.build given.dot given.star = .ok given := built
    obtain ⟨dotLocated, behind⟩ := List.forall_mem_cons.1 located
    have starLocated := behind given.star List.mem_cons_self
    have same := eq_of_ok made (ImportWildcard.build_eq dotLocated starLocated)
    rw [span, congrArg ImportWildcard.span same]
    exact ⟨rfl, rfl⟩

/-- An import suffix covers its two tokens. -/
theorem toNode_covers (built : suffix.Built)
    (located : ∀ token ∈ suffix.keptTokens, token.span.isLocated = true) :
    suffix.toNode.Covers suffix.keptTokens := by
  have whole := spanned built located
  rcases suffix with given | given
  · have listed : ("ImportAlias", ["keyword", "identifier"]) ∈ KiwiTypes.childNames := by decide
    have row : SpellsEach (ImportAlias.fieldsOf given.keyword given.identifier).Covers
        ["keyword", "identifier"] ([given.keyword] ++ [given.identifier]) :=
      .more ⟨_, rfl, given.keyword.toNode_covers⟩
        (.one ⟨_, rfl, given.identifier.toNode_covers⟩)
    exact Node.covers_mk listed row whole
  · have listed : ("ImportWildcard", ["dot", "star"]) ∈ KiwiTypes.childNames := by decide
    have row : SpellsEach (ImportWildcard.fieldsOf given.dot given.star).Covers
        ["dot", "star"] ([given.dot] ++ [given.star]) :=
      .more ⟨_, rfl, given.dot.toNode_covers⟩ (.one ⟨_, rfl, given.star.toNode_covers⟩)
    exact Node.covers_mk listed row whole

end ImportSuffix

namespace ImportHeader

variable {header : ImportHeader}

/-- The span of an import header runs from its keyword to the end of its name or of its suffix. -/
theorem spanned (built : header.Built)
    (located : ∀ token ∈ header.ownTokens, token.span.isLocated = true) :
    Spanned header.ownTokens header.span := by
  obtain ⟨made, builtName, builtSuffix⟩ := built
  obtain ⟨keywordLocated, behind⟩ := List.forall_mem_cons.1 located
  obtain ⟨nameLocated, suffixLocated⟩ := List.forall_mem_append.1 behind
  have keyword := Spanned.token header.keyword
  have name := Identifier.spanned builtName nameLocated
  cases given : header.suffix with
  | none =>
      rw [given] at made
      have missing : ∀ other ∈ (none : Option ImportSuffix), other.span.isLocated = true :=
        fun other member => absurd member (Option.not_mem_none other)
      have same := eq_of_ok made (build_eq keywordLocated (name.located nameLocated) missing)
      have own : header.ownTokens = header.keyword :: header.identifier.segments := by
        simp [ownTokens, given, optionalTokens]
      rw [own, congrArg span same]
      exact keyword.of_ends name (by simp) (List.suffix_cons _ _)
  | some suffix =>
      rw [given] at made suffixLocated
      have last := ImportSuffix.spanned (builtSuffix suffix given) suffixLocated
      have suffixSpan : ∀ other ∈ some suffix, other.span.isLocated = true := by
        rintro _ ⟨⟩
        exact last.located suffixLocated
      have same := eq_of_ok made (build_eq keywordLocated (name.located nameLocated) suffixSpan)
      have own : header.ownTokens =
          header.keyword :: (header.identifier.segments ++ suffix.keptTokens) := by
        simp [ownTokens, given, optionalTokens]
      rw [own, congrArg span same]
      exact keyword.of_ends last (by simp) ((List.suffix_append _ _).trans (List.suffix_cons _ _))

/-- An import header covers its keyword, its name and its suffix. -/
theorem toNode_covers (built : header.Built)
    (located : ∀ token ∈ header.ownTokens, token.span.isLocated = true) :
    header.toNode.Covers header.ownTokens := by
  have listed : ("ImportHeader", ["keyword", "identifier", "suffix"]) ∈ KiwiTypes.childNames := by
    decide
  obtain ⟨nameLocated, suffixLocated⟩ :=
    List.forall_mem_append.1 (List.forall_mem_cons.1 located).2
  have name := Identifier.spanned built.2.1 nameLocated
  have suffix : (Child.ofOption (header.suffix.map ImportSuffix.toNode)).Covers
      (optionalTokens ImportSuffix.keptTokens header.suffix) := by
    apply Child.ofOption_covers
    intro given isGiven
    refine ImportSuffix.toNode_covers (built.2.2 given isGiven) ?_
    rwa [Option.mem_def.1 isGiven] at suffixLocated
  have row : SpellsEach
      (fieldsOf header.keyword header.identifier header.suffix header.terminator).Covers
      ["keyword", "identifier", "suffix"] ([header.keyword] ++ (header.identifier.segments ++
        optionalTokens ImportSuffix.keptTokens header.suffix)) :=
    .more ⟨_, rfl, header.keyword.toNode_covers⟩
      (.more ⟨_, rfl, Identifier.toNode_covers name⟩ (.one ⟨_, rfl, suffix⟩))
  exact Node.covers_mk listed row (spanned built located)

end ImportHeader

namespace UserType

variable {type : UserType}

/-- The span of a qualified name runs from the innermost qualifier's first segment to the last one.
-/
theorem spanned (built : type.Built)
    (located : ∀ token ∈ type.segments, token.span.isLocated = true) :
    Spanned type.segments type.span := by
  induction type with
  | simple identifier typeSpan =>
      have made : build none identifier = .ok (.simple identifier typeSpan) := built
      have same := eq_of_ok made (build_simple (located identifier List.mem_cons_self))
      rw [same]
      exact .token identifier
  | qualified qualifier identifier typeSpan inductionHypothesis =>
      obtain ⟨made, builtQualifier⟩ := built
      obtain ⟨qualifierLocated, identifierLocated⟩ := List.forall_mem_append.1 located
      have first := inductionHypothesis builtQualifier qualifierLocated
      have lastLocated := identifierLocated identifier List.mem_cons_self
      have same :=
        eq_of_ok made (build_qualified (first.located qualifierLocated) lastLocated)
      rw [same]
      exact first.of_ends (.token identifier) (List.prefix_append _ _) (List.suffix_append _ _)

/-- A qualified name covers its segments, by induction on the qualifier. -/
theorem toNode_covers (built : type.Built)
    (located : ∀ token ∈ type.segments, token.span.isLocated = true) :
    type.toNode.Covers type.segments := by
  have listed : ("UserType", ["qualifier", "identifier"]) ∈ KiwiTypes.childNames := by decide
  have whole := spanned built located
  induction type with
  | simple identifier typeSpan =>
      have row : SpellsEach (fieldsOf none identifier).Covers ["qualifier", "identifier"]
          ([] ++ [identifier]) :=
        .more ⟨_, rfl, rfl⟩ (.one ⟨_, rfl, identifier.toNode_covers⟩)
      exact Node.covers_mk listed row whole
  | qualified qualifier identifier typeSpan inductionHypothesis =>
      have qualifierLocated := (List.forall_mem_append.1 located).1
      have first := inductionHypothesis built.2 qualifierLocated (spanned built.2 qualifierLocated)
      have row : SpellsEach (fieldsOf (some qualifier.toNode) identifier).Covers
          ["qualifier", "identifier"] (qualifier.segments ++ [identifier]) :=
        .more ⟨_, rfl, first⟩ (.one ⟨_, rfl, identifier.toNode_covers⟩)
      exact Node.covers_mk listed row whole

end UserType

namespace TypeReference

variable {type : TypeReference}

/-- The span of a type is the span of its name or reaches from parenthesis to parenthesis. -/
theorem spanned (built : type.Built)
    (located : ∀ token ∈ type.keptTokens, token.span.isLocated = true) :
    Spanned type.keptTokens type.span := by
  cases type with
  | parenthesized opening inner closing typeSpan =>
      obtain ⟨made, _⟩ := built
      have openingLocated := located opening (by simp [keptTokens])
      have closingLocated := located closing (by simp [keptTokens])
      have same := eq_of_ok made (buildParenthesized_eq openingLocated closingLocated)
      rw [same]
      exact (Spanned.token opening).of_ends (.token closing) (by simp [keptTokens])
        (List.suffix_append _ _)
  | user given => exact UserType.spanned built located

/-- A type covers its kept tokens, by induction on the parentheses around it. -/
theorem toNode_covers (built : type.Built)
    (located : ∀ token ∈ type.keptTokens, token.span.isLocated = true) :
    type.toNode.Covers type.keptTokens := by
  have whole := spanned built located
  induction type with
  | parenthesized opening inner closing typeSpan inductionHypothesis =>
      have listed : ("ParenthesizedType", ["open", "inner", "close"]) ∈ KiwiTypes.childNames := by
        decide
      have innerLocated : ∀ token ∈ inner.keptTokens, token.span.isLocated = true :=
        fun token member => located token (by simp [keptTokens, member])
      have within := inductionHypothesis built.2 innerLocated (spanned built.2 innerLocated)
      have row : SpellsEach (fieldsOf opening inner.toNode closing).Covers
          ["open", "inner", "close"] ([opening] ++ (inner.keptTokens ++ [closing])) :=
        .more ⟨_, rfl, opening.toNode_covers⟩
          (.more ⟨_, rfl, within⟩ (.one ⟨_, rfl, closing.toNode_covers⟩))
      exact Node.covers_mk listed row whole
  | user given => exact UserType.toNode_covers built located

end TypeReference

namespace FunctionDeclaration

variable {declaration : FunctionDeclaration}

/-- The kept tokens of a function, with each child as a list of its own. -/
theorem keptTokens_eq (declaration : FunctionDeclaration) :
    declaration.keptTokens = declaration.modifiers ++ ([declaration.keyword] ++
      ([declaration.identifier] ++ ([declaration.closing] ++
        optionalTokens TypeReference.keptTokens declaration.returnType))) := by
  simp [keptTokens]

/-- A function starts with its first modifier, or with its keyword. -/
theorem starts (declaration : FunctionDeclaration) :
    Spanned (declaration.modifiers ++ [declaration.keyword])
      ⟨(declaration.modifiers.head?.getD declaration.keyword).start, declaration.keyword.stop⟩ := by
  cases declaration.modifiers with
  | nil => exact .token declaration.keyword
  | cons modifier rest => exact ⟨rfl, by rw [List.getLast?_append]; rfl⟩

/-- A function stops with its return type, or with its closing parenthesis. -/
theorem stops (typeSpanned : ∀ type ∈ declaration.returnType, Spanned type.keptTokens type.span) :
    Spanned ([declaration.closing] ++
        optionalTokens TypeReference.keptTokens declaration.returnType)
      ⟨declaration.closing.start,
        ((declaration.returnType.map TypeReference.span).getD declaration.closing.span).stop⟩ := by
  cases given : declaration.returnType with
  | none => exact .token declaration.closing
  | some type =>
      exact (Spanned.token declaration.closing).of_ends (typeSpanned type given)
        (List.prefix_append _ _) (List.suffix_append _ _)

/-- The span of a function runs from its first modifier or keyword to its closing parenthesis or
type. -/
theorem spanned (built : declaration.Built)
    (located : ∀ token ∈ declaration.keptTokens, token.span.isLocated = true) :
    Spanned declaration.keptTokens declaration.span := by
  obtain ⟨made, builtType⟩ := built
  have modifiersLocated : ∀ modifier ∈ declaration.modifiers, modifier.span.isLocated = true :=
    fun modifier member => located modifier (by simp [keptTokens, member])
  have typeLocated : ∀ type ∈ declaration.returnType,
      ∀ token ∈ type.keptTokens, token.span.isLocated = true := by
    intro type given token member
    exact located token (by simp [keptTokens, Option.mem_def.1 given, optionalTokens, member])
  have typeSpanned : ∀ type ∈ declaration.returnType, Spanned type.keptTokens type.span :=
    fun type given => TypeReference.spanned (builtType type given) (typeLocated type given)
  have keywordLocated := located declaration.keyword (by simp [keptTokens])
  have closingLocated := located declaration.closing (by simp [keptTokens])
  have same := eq_of_ok made (build_eq modifiersLocated keywordLocated closingLocated
    fun type given => (typeSpanned type given).located (typeLocated type given))
  rw [congrArg span same, keptTokens_eq]
  have last := stops typeSpanned
  have whole := declaration.starts.of_ends last ⟨_, List.append_assoc _ _ _⟩
    ((List.suffix_append [declaration.identifier] _).trans
      ((List.suffix_append [declaration.keyword] _).trans (List.suffix_append _ _)))
  exact whole

/-- A function covers its modifiers, its keyword, its name, the parenthesis and its type. -/
theorem toNode_covers (built : declaration.Built)
    (located : ∀ token ∈ declaration.keptTokens, token.span.isLocated = true) :
    declaration.toNode.Covers declaration.keptTokens := by
  have listed : ("FunctionDeclaration", ["modifiers", "keyword", "identifier", "close_paren",
      "return_type"]) ∈ KiwiTypes.childNames := by decide
  have whole := spanned built located
  have returnType : (Child.ofOption (declaration.returnType.map TypeReference.toNode)).Covers
      (optionalTokens TypeReference.keptTokens declaration.returnType) := by
    apply Child.ofOption_covers
    intro type given
    refine TypeReference.toNode_covers (built.2 type given) ?_
    intro token member
    exact located token (by simp [keptTokens, Option.mem_def.1 given, optionalTokens, member])
  rw [keptTokens_eq] at whole ⊢
  have row : SpellsEach (fieldsOf declaration.modifiers declaration.keyword declaration.identifier
      declaration.closing declaration.returnType).Covers
      ["modifiers", "keyword", "identifier", "close_paren", "return_type"]
      (declaration.modifiers ++ ([declaration.keyword] ++ ([declaration.identifier] ++
        ([declaration.closing] ++
          optionalTokens TypeReference.keptTokens declaration.returnType)))) :=
    .more ⟨_, rfl, leaves_cover declaration.modifiers⟩
      (.more ⟨_, rfl, declaration.keyword.toNode_covers⟩
        (.more ⟨_, rfl, declaration.identifier.toNode_covers⟩
          (.more ⟨_, rfl, declaration.closing.toNode_covers⟩ (.one ⟨_, rfl, returnType⟩))))
  exact Node.covers_mk listed row whole

end FunctionDeclaration

namespace File

variable {file : File}

/-- The span of a file runs from the package header to the end marker. -/
theorem spanned (built : file.Built)
    (located : ∀ token ∈ file.ownTokens, token.span.isLocated = true) :
    Spanned file.ownTokens file.span := by
  obtain ⟨made, builtHeader, _⟩ := built
  have headerLocated := (List.forall_mem_append.1 located).1
  have header := PackageHeader.spanned builtHeader headerLocated
  have marker := Spanned.token file.endMarker
  have markerLocated := located file.endMarker (by simp [ownTokens])
  have same := eq_of_ok made (build_eq (header.located headerLocated) markerLocated)
  rw [congrArg span same]
  refine header.of_ends marker (List.prefix_append _ _) ?_
  exact (List.suffix_append _ _).trans ((List.suffix_append _ _).trans (List.suffix_append _ _))

/-- The outline of a file covers all of its own tokens. -/
theorem toNode_covers (built : file.Built)
    (located : ∀ token ∈ file.ownTokens, token.span.isLocated = true) :
    file.toNode.Covers file.ownTokens := by
  have listed : ("File", ["package_header", "imports", "declarations", "end_marker"]) ∈
      KiwiTypes.childNames := by decide
  have whole := spanned built located
  obtain ⟨_, builtHeader, builtImports, builtDeclarations⟩ := built
  obtain ⟨headerLocated, behind⟩ := List.forall_mem_append.1 located
  obtain ⟨importsLocated, behind⟩ := List.forall_mem_append.1 behind
  have declarationsLocated := (List.forall_mem_append.1 behind).1
  have imports : (Child.sequence (file.imports.map ImportHeader.toNode)).Covers
      (file.imports.flatMap ImportHeader.ownTokens) := by
    refine SpellsEach.of_map fun header member => ?_
    refine ImportHeader.toNode_covers (builtImports header member) fun token among => ?_
    exact importsLocated token (List.mem_flatMap.2 ⟨header, member, among⟩)
  have declarations : (Child.sequence (file.declarations.map FunctionDeclaration.toNode)).Covers
      (file.declarations.flatMap FunctionDeclaration.keptTokens) := by
    refine SpellsEach.of_map fun declaration member => ?_
    refine FunctionDeclaration.toNode_covers (builtDeclarations declaration member) ?_
    intro token among
    exact declarationsLocated token (List.mem_flatMap.2 ⟨declaration, member, among⟩)
  have row : SpellsEach (fieldsOf file.packageHeader file.imports file.declarations
      file.endMarker).Covers ["package_header", "imports", "declarations", "end_marker"]
      (file.packageHeader.ownTokens ++ (file.imports.flatMap ImportHeader.ownTokens ++
        (file.declarations.flatMap FunctionDeclaration.keptTokens ++ [file.endMarker]))) :=
    .more ⟨_, rfl, PackageHeader.toNode_covers builtHeader headerLocated⟩
      (.more ⟨_, rfl, imports⟩
        (.more ⟨_, rfl, declarations⟩ (.one ⟨_, rfl, file.endMarker.toNode_covers⟩)))
  exact Node.covers_mk listed row whole

end File

end KiwiFront
