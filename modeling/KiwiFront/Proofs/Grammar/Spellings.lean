import KiwiFront.Peg.Spelling
import KiwiFront.Proofs.Grammar.Productions
import KiwiFront.Proofs.Tree.Built

/-!
# What the rules of the language spell

For every rule, the tokens that spell a value are told from its parts. The parts that other
rules read are left to a reading of these rules, so that whatever a reading says of all
values can be shown rule by rule.
-/

namespace KiwiFront.KiwiGrammar

open Peg

variable {reading : (rule : KiwiRule) -> rule.Value -> List Token -> Prop}
  {tokens : List Token}

/-- A file is its header, its imports, its declarations, one spare terminator at most, and the end
marker. -/
theorem spells_start {file : File} (spelled : (body .start).Spells keywords reading file tokens) :
    ∃ header imports declarations spare,
      tokens = header ++ imports ++ declarations ++ spare ++ [file.endMarker] ∧
      reading .packageHeader file.packageHeader header ∧
      reading .importList file.imports imports ∧
      reading .topLevelObjectList file.declarations declarations ∧
      (spare = [] ∨ ∃ terminator, reading .semi terminator spare) ∧
      file.endMarker.kind = .endMarker ∧
      File.build file.packageHeader file.imports file.declarations file.endMarker none none =
        .ok file := by
  obtain ⟨⟨_, _, _, _⟩, made, header, _, rfl, readHeader, imports, _, rfl, readImports,
    declarations, _, rfl, readDeclarations, ⟨_, marker⟩, rfl, spare, _, rfl, readSpare, isMarker,
    rfl⟩ := spelled.resolve_right id
  obtain ⟨rfl, rfl, rfl, rfl⟩ := File.parts_of_build made
  refine ⟨header, imports, declarations, spare, by simp, readHeader, readImports,
    readDeclarations, ?_, accepts_endMarker_iff.1 isMarker, made⟩
  rcases readSpare with ⟨terminator, _, read⟩ | ⟨_, rfl⟩
  · exact .inr ⟨terminator, read⟩
  · exact .inl rfl

/-- A package header is its keyword, a dotted name and a terminator. -/
theorem spells_packageHeader {header : PackageHeader}
    (spelled : (body .packageHeader).Spells keywords reading header tokens) :
    ∃ name terminator, tokens = header.keyword :: name ++ terminator ∧
      (Terminal.keyword "package").Matches header.keyword ∧
      reading .identifier header.identifier name ∧
      reading .semi header.terminator terminator ∧
      PackageHeader.build header.keyword header.identifier header.terminator = .ok header := by
  obtain ⟨⟨_, _, _⟩, made, _, _, rfl, ⟨isKeyword, rfl⟩, name, terminator, rfl, readName,
    readTerminator⟩ := spelled.resolve_right id
  obtain ⟨rfl, rfl, rfl⟩ := PackageHeader.parts_of_build made
  exact ⟨name, terminator, rfl, accepts_keyword_iff.1 isKeyword, readName, readTerminator, made⟩

/-- A dot and the segment behind it. -/
def DotSegment (reading : (rule : KiwiRule) -> rule.Value -> List Token -> Prop)
    (segment : Token) (tokens : List Token) : Prop :=
  ∃ dot behind, tokens = dot :: behind ∧ (Terminal.operator ".").Matches dot ∧
    reading .simpleIdentifier segment behind

/-- A dotted name is a first segment followed by segments that a dot introduces. -/
theorem spells_identifier {name : Identifier}
    (spelled : (body .identifier).Spells keywords reading name tokens) :
    ∃ first others here behind, name.segments = first :: others ∧ tokens = here ++ behind ∧
      reading .simpleIdentifier first here ∧ SpellsEach (DotSegment reading) others behind ∧
      Identifier.build name.segments = .ok name := by
  obtain ⟨⟨first, others⟩, made, here, behind, rfl, readFirst, readOthers⟩ :=
    spelled.resolve_right id
  have segments := Identifier.parts_of_build made
  refine ⟨first, others, here, behind, segments, rfl, readFirst, ?_, segments ▸ made⟩
  refine SpellsEach.mono ?_ readOthers
  rintro _ _ ⟨⟨dot, _⟩, rfl, _, _, rfl, ⟨isDot, rfl⟩, ⟨_, segment⟩, ⟨⟩, _, behind, rfl, rfl, read⟩
  exact ⟨dot, behind, rfl, accepts_literal_iff.1 isDot, read⟩

/-- A segment is a single name token. -/
theorem spells_simpleIdentifier {token : Token}
    (spelled : (body .simpleIdentifier).Spells keywords reading token tokens) :
    tokens = [token] ∧ Terminal.name.Matches token :=
  ⟨spelled.2, accepts_name_iff.1 spelled.1⟩

/-- An import header is its keyword, a dotted name, an optional suffix and a terminator. -/
theorem spells_importHeader {header : ImportHeader}
    (spelled : (body .importHeader).Spells keywords reading header tokens) :
    ∃ name suffix terminator, tokens = header.keyword :: name ++ suffix ++ terminator ∧
      (Terminal.keyword "import").Matches header.keyword ∧
      reading .identifier header.identifier name ∧
      (header.suffix = none ∧ suffix = [] ∨
        ∃ given, header.suffix = some given ∧ reading .importSuffix given suffix) ∧
      reading .semi header.terminator terminator ∧
      ImportHeader.build header.keyword header.identifier header.suffix header.terminator =
        .ok header := by
  obtain ⟨⟨_, _, _, _⟩, made, _, _, rfl, ⟨isKeyword, rfl⟩, name, _, rfl, readName, suffix,
    terminator, rfl, readSuffix, readTerminator⟩ := spelled.resolve_right id
  obtain ⟨rfl, rfl, rfl, rfl⟩ := ImportHeader.parts_of_build made
  refine ⟨name, suffix, terminator, by simp, accepts_keyword_iff.1 isKeyword, readName, ?_,
    readTerminator, made⟩
  rcases readSuffix with ⟨given, same, read⟩ | ⟨same, rfl⟩
  · exact .inr ⟨given, same.symm, read⟩
  · exact .inl ⟨same, rfl⟩

/-- An import suffix is an alias, or a dot with a star. -/
theorem spells_importSuffix {suffix : ImportSuffix}
    (spelled : (body .importSuffix).Spells keywords reading suffix tokens) :
    (∃ given, suffix = .alias given ∧ reading .importAlias given tokens) ∨
      ∃ given, suffix = .wildcard given ∧ tokens = [given.dot, given.star] ∧
        (Terminal.operator ".").Matches given.dot ∧ (Terminal.operator "*").Matches given.star ∧
        ImportWildcard.build given.dot given.star = .ok given := by
  rcases spelled with ⟨given, rfl, read⟩ | ⟨given, rfl, ⟨_, _⟩, made, _, _, rfl, ⟨isDot, rfl⟩,
    isStar, rfl⟩ | ⟨⟨⟩⟩
  · exact .inl ⟨given, rfl, read⟩
  · obtain ⟨rfl, rfl⟩ := ImportSuffix.parts_of_build_wildcard made
    exact .inr ⟨given, rfl, rfl, accepts_literal_iff.1 isDot, accepts_literal_iff.1 isStar, made⟩

/-- An alias is its keyword and a segment. -/
theorem spells_importAlias {suffix : ImportAlias}
    (spelled : (body .importAlias).Spells keywords reading suffix tokens) :
    ∃ name, tokens = suffix.keyword :: name ∧
      (Terminal.keyword "as").Matches suffix.keyword ∧
      reading .simpleIdentifier suffix.identifier name ∧
      ImportAlias.build suffix.keyword suffix.identifier = .ok suffix := by
  obtain ⟨⟨_, _⟩, made, _, name, rfl, ⟨isKeyword, rfl⟩, readName⟩ := spelled.resolve_right id
  obtain ⟨rfl, rfl⟩ := ImportSuffix.parts_of_build_alias made
  exact ⟨name, rfl, accepts_keyword_iff.1 isKeyword, readName, made⟩

/-- A terminator is a line break or a semicolon. -/
theorem spells_semi {token : Token}
    (spelled : (body .semi).Spells keywords reading token tokens) :
    tokens = [token] ∧
      (Terminal.newline.Matches token ∨ (Terminal.operator ";").Matches token) := by
  rcases spelled with ⟨isNewline, same⟩ | ⟨isSemicolon, same⟩ | ⟨⟨⟩⟩
  · exact ⟨same, .inl (accepts_newline_iff.1 isNewline)⟩
  · exact ⟨same, .inr (accepts_literal_iff.1 isSemicolon)⟩

/-- A top level object is a function and its terminator. -/
theorem spells_topLevelObject {declaration : FunctionDeclaration}
    (spelled : (body .topLevelObject).Spells keywords reading declaration tokens) :
    ∃ function statementEnd terminator, tokens = function ++ statementEnd ∧
      reading .declaration declaration function ∧ reading .semi terminator statementEnd := by
  obtain ⟨⟨_, terminator⟩, rfl, function, statementEnd, rfl, read, readEnd⟩ :=
    spelled.resolve_right id
  exact ⟨function, statementEnd, terminator, rfl, read, readEnd⟩

/-- A function is its modifiers, its keyword, its name, a pair of parentheses and an optional type.
-/
theorem spells_functionDeclaration {declaration : FunctionDeclaration}
    (spelled : (body .functionDeclaration).Spells keywords reading declaration tokens) :
    ∃ modifiers name opening returnType,
      tokens = modifiers ++ declaration.keyword :: name ++
        opening :: declaration.closing :: returnType ∧
      reading .modifiers declaration.modifiers modifiers ∧
      (Terminal.keyword "fun").Matches declaration.keyword ∧
      reading .simpleIdentifier declaration.identifier name ∧
      (Terminal.operator "(").Matches opening ∧
      (Terminal.operator ")").Matches declaration.closing ∧
      (declaration.returnType = none ∧ returnType = [] ∨
        ∃ given colon behind, declaration.returnType = some given ∧ returnType = colon :: behind ∧
          (Terminal.operator ":").Matches colon ∧ reading .type given behind) ∧
      FunctionDeclaration.build declaration.modifiers declaration.keyword declaration.identifier
        declaration.closing declaration.returnType = .ok declaration := by
  obtain ⟨⟨_, _, _, _, _⟩, made, modifiers, _, rfl, readModifiers, _, _, rfl, ⟨isKeyword, rfl⟩,
    name, _, rfl, readName, ⟨opening, _, _⟩, ⟨⟩, _, _, rfl, ⟨isOpening, rfl⟩, _, returnType, rfl,
    ⟨isClosing, rfl⟩, readType⟩ := spelled.resolve_right id
  obtain ⟨rfl, rfl, rfl, rfl, rfl⟩ := FunctionDeclaration.parts_of_build made
  refine ⟨modifiers, name, opening, returnType, by simp, readModifiers,
    accepts_keyword_iff.1 isKeyword, readName, accepts_literal_iff.1 isOpening,
    accepts_literal_iff.1 isClosing, ?_, made⟩
  rcases readType with ⟨given, same, ⟨colon, _⟩, rfl, _, behind, rfl, ⟨isColon, rfl⟩, read⟩ |
    ⟨same, rfl⟩
  · exact .inr ⟨_, colon, behind, same.symm, rfl, accepts_literal_iff.1 isColon, read⟩
  · exact .inl ⟨same, rfl⟩

/-- A modifier is a name token. -/
theorem spells_modifier {token : Token}
    (spelled : (body .modifier).Spells keywords reading token tokens) :
    tokens = [token] ∧ token.kind = .name := by
  rcases spelled with ⟨isWord, same⟩ | ⟨isWord, same⟩ | ⟨isWord, same⟩ | ⟨⟨⟩⟩ <;>
    exact ⟨same, (accepts_keyword_iff.1 isWord).1⟩

/-- A type is a parenthesized type or a qualified name. -/
theorem spells_type {type : TypeReference}
    (spelled : (body .type).Spells keywords reading type tokens) :
    reading .parenthesizedType type tokens ∨
      ∃ named, type = .user named ∧ reading .userType named tokens := by
  rcases spelled with read | ⟨named, same, read⟩ | ⟨⟨⟩⟩
  · exact .inl read
  · exact .inr ⟨named, same.symm, read⟩

/-- A parenthesized type is a type between its two parentheses. -/
theorem spells_parenthesizedType {type : TypeReference}
    (spelled : (body .parenthesizedType).Spells keywords reading type tokens) :
    ∃ opening inner closing span within, type = .parenthesized opening inner closing span ∧
      tokens = opening :: within ++ [closing] ∧
      (Terminal.operator "(").Matches opening ∧ reading .type inner within ∧
      (Terminal.operator ")").Matches closing ∧
      TypeReference.buildParenthesized opening inner closing = .ok type := by
  obtain ⟨⟨opening, inner, closing⟩, made, _, _, rfl, ⟨isOpening, rfl⟩, within, _, rfl, read,
    isClosing, rfl⟩ := spelled.resolve_right id
  obtain ⟨span, same⟩ := TypeReference.parts_of_build made
  exact ⟨opening, inner, closing, span, within, same, rfl, accepts_literal_iff.1 isOpening, read,
    accepts_literal_iff.1 isClosing, made⟩

/-- A qualified name is a shorter one with a dot and a segment behind it, or a segment alone. -/
theorem spells_userType {type : UserType}
    (spelled : (body .userType).Spells keywords reading type tokens) :
    (∃ qualifier identifier span front dot last, type = .qualified qualifier identifier span ∧
      tokens = front ++ dot :: last ∧ reading .userType qualifier front ∧
      (Terminal.operator ".").Matches dot ∧ reading .simpleUserType identifier last ∧
      UserType.build (some qualifier) identifier = .ok type) ∨
    ∃ identifier span, type = .simple identifier span ∧
      reading .simpleUserType identifier tokens ∧
      UserType.build none identifier = .ok type := by
  rcases spelled with ⟨⟨qualifier, _⟩, made, front, _, rfl, readFront, ⟨dot, identifier⟩, rfl, _,
    last, rfl, ⟨isDot, rfl⟩, readLast⟩ | ⟨identifier, made, read⟩ | ⟨⟨⟩⟩
  · obtain ⟨span, same⟩ := UserType.parts_of_build_some made
    exact .inl ⟨qualifier, identifier, span, front, dot, last, same, rfl, readFront,
      accepts_literal_iff.1 isDot, readLast, made⟩
  · obtain ⟨span, same⟩ := UserType.parts_of_build_none made
    exact .inr ⟨identifier, span, same, read, made⟩

end KiwiFront.KiwiGrammar
