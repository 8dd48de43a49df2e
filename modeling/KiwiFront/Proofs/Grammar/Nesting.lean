import KiwiFront.Output.Rendering
import KiwiFront.Proofs.Grammar.KeptTokens
import KiwiFront.Proofs.Tree.Coverage

/-!
# The spans of a parsed file

All elements of a parsed file are built, whichever rules have read them. The tokens that the
file keeps are tokens of the buffer in their order; so if the tokens come one after the
other, the spans that are derived from them nest.
-/

namespace KiwiFront

open Peg

variable {packrat : Bool} {tokens : List Token} {file : File}

namespace KiwiGrammar

/-- The elements that a rule reads are built. -/
def BuiltBy : (rule : KiwiRule) -> rule.Value -> Prop
  | .start, (file : File) => file.Built
  | .packageHeader, (header : PackageHeader) => header.Built
  | .identifier, (name : Identifier) => name.Built
  | .importList, (imports : List ImportHeader) => ∀ header ∈ imports, header.Built
  | .importHeader, (header : ImportHeader) => header.Built
  | .importSuffix, (suffix : ImportSuffix) => suffix.Built
  | .importAlias, suffix => ImportSuffix.Built (.alias suffix)
  | .topLevelObjectList, (declarations : List FunctionDeclaration) =>
      ∀ declaration ∈ declarations, declaration.Built
  | .topLevelObject, (declaration : FunctionDeclaration) => declaration.Built
  | .declaration, (declaration : FunctionDeclaration) => declaration.Built
  | .functionDeclaration, (declaration : FunctionDeclaration) => declaration.Built
  | .type, (type : TypeReference) => type.Built
  | .parenthesizedType, (type : TypeReference) => type.Built
  | .userType, (type : UserType) => type.Built
  | .modifiers, _ => True
  | .modifier, _ => True
  | .semi, _ => True
  | .simpleIdentifier, _ => True
  | .simpleUserType, _ => True

/-- Every rule reads built elements, if the rules that it calls do. -/
theorem builtBy_agrees :
    kiwiGrammar.Agrees keywords fun rule value _ => BuiltBy rule value := by
  intro rule value tokens spelled
  cases rule with
  | start =>
      obtain ⟨_, _, _, _, _, header, imports, declarations, _, _, made⟩ := spells_start spelled
      exact ⟨made, header, imports, declarations⟩
  | packageHeader =>
      obtain ⟨_, _, _, _, name, _, made⟩ := spells_packageHeader spelled
      exact ⟨made, name⟩
  | identifier =>
      obtain ⟨first, others, _, _, segments, _, _, _, made⟩ := spells_identifier spelled
      exact ⟨made, segments ▸ List.cons_ne_nil first others⟩
  | importList =>
      intro header member
      obtain ⟨_, _, built⟩ := SpellsEach.of_mem spelled member
      exact built
  | importHeader =>
      obtain ⟨_, _, _, _, _, name, suffix, _, made⟩ := spells_importHeader spelled
      refine ⟨made, name, ?_⟩
      rintro given isGiven
      rcases suffix with ⟨missing, _⟩ | ⟨other, present, built⟩
      · rw [missing] at isGiven
        cases isGiven
      · rw [present] at isGiven
        obtain rfl := Option.some.inj isGiven
        exact built
  | importSuffix =>
      rcases spells_importSuffix spelled with ⟨given, rfl, built⟩ | ⟨given, rfl, _, _, _, made⟩
      · exact built
      · exact made
  | importAlias =>
      obtain ⟨_, _, _, _, made⟩ := spells_importAlias spelled
      exact made
  | topLevelObjectList =>
      intro declaration member
      obtain ⟨_, _, built⟩ := SpellsEach.of_mem spelled member
      exact built
  | topLevelObject =>
      obtain ⟨_, _, _, _, built, _⟩ := spells_topLevelObject spelled
      exact built
  | declaration => exact spelled
  | functionDeclaration =>
      obtain ⟨_, _, _, _, _, _, _, _, _, _, returnType, made⟩ :=
        spells_functionDeclaration spelled
      refine ⟨made, ?_⟩
      rintro type isType
      rcases returnType with ⟨missing, _⟩ | ⟨other, _, _, present, _, _, built⟩
      · rw [missing] at isType
        cases isType
      · rw [present] at isType
        obtain rfl := Option.some.inj isType
        exact built
  | type =>
      rcases spells_type spelled with built | ⟨named, rfl, built⟩
      · exact built
      · exact built
  | parenthesizedType =>
      obtain ⟨_, _, _, _, _, rfl, _, _, built, _, made⟩ := spells_parenthesizedType spelled
      exact ⟨made, built⟩
  | userType =>
      rcases spells_userType spelled with ⟨_, _, _, _, _, _, rfl, _, built, _, _, made⟩ |
        ⟨_, _, rfl, _, made⟩
      · exact ⟨made, built⟩
      · exact made
  | modifiers | modifier | semi | simpleIdentifier | simpleUserType => trivial

end KiwiGrammar

theorem built_of_parseTokens (parsed : parseTokens packrat tokens = .ok file) : file.Built := by
  obtain ⟨_, _, _, spelled⟩ := spells_of_parseTokens parsed
  exact spelled _ KiwiGrammar.builtBy_agrees

/-- The end marker that closes tokens comes after them. -/
theorem InOrder.close (ordered : InOrder tokens) : InOrder (Buffer.close tokens) := by
  refine ⟨Buffer.forall_mem_close ordered.forward (Position.le_refl _), ?_⟩
  unfold Buffer.close
  split
  · exact ordered.apart
  · refine List.pairwise_append.2 ⟨ordered.apart, List.pairwise_singleton _ _, ?_⟩
    intro token member marker closing
    rw [List.mem_singleton.1 closing, Buffer.closingMarker]
    cases isLast : tokens.getLast? with
    | none =>
        rw [List.getLast?_eq_none_iff.1 isLast] at member
        cases member
    | some last => exact ordered.le_stop isLast member

/-- The spans of a file that is parsed nest if the tokens are located and come one after the
other: every node stops after its start, children lie within their parents and elements
within their sequences, one after the other. The terminators of headers, which are no children,
come after the headers. -/
theorem parseTokens_nested (packrat : Bool) (tokens : List Token) (file : File)
    (located : ∀ token ∈ tokens, token.span.isLocated = true)
    (forward : ∀ token ∈ tokens, token.start ≤ token.stop)
    (inOrder : tokens.IsChain fun token next => token.stop ≤ next.start)
    (parsed : parseTokens packrat tokens = .ok file) :
    (∃ outline, file.outline = .ok outline ∧ outline.Nested) ∧
      (file.packageHeader.span.stop ≤ file.packageHeader.terminator.start ∧
        file.packageHeader.terminator.start ≤ file.packageHeader.terminator.stop) ∧
      ∀ header ∈ file.imports, header.span.stop ≤ header.terminator.start ∧
        header.terminator.start ≤ header.terminator.stop := by
  have built := built_of_parseTokens parsed
  have kept := keptTokens_sublist parsed
  have ordered := (InOrder.of_isChain forward inOrder).close.sublist kept
  have keptLocated : ∀ token ∈ file.keptTokens, token.span.isLocated = true :=
    fun token member => Buffer.close_located located token (kept.subset member)
  -- Terminators of headers are kept, but stand outside of the spans.
  have own := file.ownTokens_sublist
  refine ⟨?_, ?_, ?_⟩
  · obtain ⟨outline, shown, _, covers⟩ := File.toNode_covers built fun token member =>
      keptLocated token (own.subset member)
    exact ⟨outline, shown, covers.nested (ordered.sublist own)⟩
  · have within : (file.packageHeader.ownTokens ++ [file.packageHeader.terminator]).Sublist
        file.keptTokens := file.sublist_of_packageHeader
    have spanned := PackageHeader.spanned built.2.1 fun token member =>
      keptLocated token (within.subset (List.mem_append_left _ member))
    exact spanned.stop_le_last (ordered.sublist within)
  · intro header member
    have within := File.sublist_of_import member
    rw [ImportHeader.keptTokens_eq] at within
    have spanned := ImportHeader.spanned (built.2.2.1 header member) fun token member =>
      keptLocated token (within.subset (List.mem_append_left _ member))
    exact spanned.stop_le_last (ordered.sublist within)

/-- The spans of a package header and a function with a return type nest. -/
theorem parseTokens_nested_function :
    (∀ token ∈ functionTokens, token.span.isLocated = true) ∧
      (∀ token ∈ functionTokens, token.start ≤ token.stop) ∧
      functionTokens.IsChain (fun token next => token.stop ≤ next.start) ∧
      ∃ file, parseTokens true functionTokens = .ok file ∧
        (∃ outline, file.outline = .ok outline ∧ outline.Nested) ∧
        (file.packageHeader.span.stop ≤ file.packageHeader.terminator.start ∧
          file.packageHeader.terminator.start ≤ file.packageHeader.terminator.stop) ∧
        ∀ header ∈ file.imports, header.span.stop ≤ header.terminator.start ∧
          header.terminator.start ≤ header.terminator.stop := by
  have located : ∀ token ∈ functionTokens, token.span.isLocated = true := by decide
  have forward : ∀ token ∈ functionTokens, token.start ≤ token.stop := by decide
  have inOrder : functionTokens.IsChain (fun token next => token.stop ≤ next.start) := by decide
  obtain ⟨file, parsed⟩ := functionTokens_parsed
  exact ⟨located, forward, inOrder, file, parsed,
    parseTokens_nested true functionTokens file located forward inOrder parsed⟩

end KiwiFront
