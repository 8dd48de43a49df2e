import KiwiFront.Tree.Elements

/-!
# Moving elements to other places

Given where every position moves to, an element moves with all of its tokens and
spans. Nothing but its positions changes. A move is faithful if it neither loses a
place nor makes one up.
-/

namespace KiwiFront

/-- Content without a place, and no other, is moved to no place. -/
def Position.Faithful (place : Position -> Position) : Prop :=
  ∀ position, place position = .unlocated ↔ position = .unlocated

def Span.relocate (place : Position -> Position) (span : Span) : Span :=
  ⟨place span.start, place span.stop⟩

def Token.relocate (place : Position -> Position) (token : Token) : Token :=
  { token with start := place token.start, stop := place token.stop }

def Identifier.relocate (place : Position -> Position) (identifier : Identifier) : Identifier :=
  ⟨identifier.segments.map (Token.relocate place), identifier.span.relocate place⟩

def PackageHeader.relocate (place : Position -> Position) (header : PackageHeader) :
    PackageHeader :=
  ⟨header.keyword.relocate place, header.identifier.relocate place,
    header.terminator.relocate place, header.span.relocate place⟩

def ImportAlias.relocate (place : Position -> Position) (suffix : ImportAlias) : ImportAlias :=
  ⟨suffix.keyword.relocate place, suffix.identifier.relocate place, suffix.span.relocate place⟩

def ImportWildcard.relocate (place : Position -> Position) (suffix : ImportWildcard) :
    ImportWildcard :=
  ⟨suffix.dot.relocate place, suffix.star.relocate place, suffix.span.relocate place⟩

def ImportSuffix.relocate (place : Position -> Position) : ImportSuffix -> ImportSuffix
  | .alias ⟨keyword, identifier, span⟩ =>
      .alias ⟨keyword.relocate place, identifier.relocate place, span.relocate place⟩
  | .wildcard ⟨dot, star, span⟩ =>
      .wildcard ⟨dot.relocate place, star.relocate place, span.relocate place⟩

def ImportHeader.relocate (place : Position -> Position) (header : ImportHeader) : ImportHeader :=
  ⟨header.keyword.relocate place, header.identifier.relocate place,
    header.suffix.map (ImportSuffix.relocate place), header.terminator.relocate place,
    header.span.relocate place⟩

def UserType.relocate (place : Position -> Position) : UserType -> UserType
  | .simple identifier span => .simple (identifier.relocate place) (span.relocate place)
  | .qualified qualifier identifier span =>
      .qualified (qualifier.relocate place) (identifier.relocate place) (span.relocate place)

def TypeReference.relocate (place : Position -> Position) : TypeReference -> TypeReference
  | .parenthesized opening inner closing span =>
      .parenthesized (opening.relocate place) (inner.relocate place) (closing.relocate place)
        (span.relocate place)
  | .user type => .user (type.relocate place)

def FunctionDeclaration.relocate (place : Position -> Position)
    (declaration : FunctionDeclaration) : FunctionDeclaration :=
  ⟨declaration.modifiers.map (Token.relocate place), declaration.keyword.relocate place,
    declaration.identifier.relocate place, declaration.closing.relocate place,
    declaration.returnType.map (TypeReference.relocate place), declaration.span.relocate place⟩

def File.relocate (place : Position -> Position) (file : File) : File :=
  ⟨file.packageHeader.relocate place, file.imports.map (ImportHeader.relocate place),
    file.declarations.map (FunctionDeclaration.relocate place), file.endMarker.relocate place,
    file.span.relocate place⟩

end KiwiFront
