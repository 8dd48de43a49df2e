import KiwiFront.Token

/-!
# The syntax tree of a source file

A file has a package header, imports, function declarations and the mark at its
end. Tokens are the leaves. Every other element carries the span it was built
with.
-/

namespace KiwiFront

/-- Texts joined by dots. -/
def joinDotted (texts : List String) : String :=
  String.intercalate "." texts

/-- A dotted name. -/
structure Identifier where
  segments : List Token
  span : Span
deriving DecidableEq

/-- The segments of a name joined by dots. -/
def Identifier.dotted (identifier : Identifier) : String :=
  joinDotted (identifier.segments.map Token.text)

/-- The package that a file belongs to. -/
structure PackageHeader where
  keyword : Token
  identifier : Identifier
  terminator : Token
  span : Span
deriving DecidableEq

/-- A new name for an import. -/
structure ImportAlias where
  keyword : Token
  identifier : Token
  span : Span
deriving DecidableEq

/-- A dot and a star, for everything below a name. -/
structure ImportWildcard where
  dot : Token
  star : Token
  span : Span
deriving DecidableEq

/-- What may follow an imported name. -/
inductive ImportSuffix where
  | alias (suffix : ImportAlias)
  | wildcard (suffix : ImportWildcard)
deriving DecidableEq

/-- One import. -/
structure ImportHeader where
  keyword : Token
  identifier : Identifier
  suffix : Option ImportSuffix
  terminator : Token
  span : Span
deriving DecidableEq

/-- A type given by its name. Each segment is qualified by the ones before it, so
the last segment is the outermost. -/
inductive UserType where
  | simple (identifier : Token) (span : Span)
  | qualified (qualifier : UserType) (identifier : Token) (span : Span)
deriving DecidableEq

namespace UserType

/-- The stretch of source that a type covers, qualifiers included. -/
def span : UserType -> Span
  | .simple _ span => span
  | .qualified _ _ span => span

/-- The last segment of a type's name. -/
def identifier : UserType -> Token
  | .simple identifier _ => identifier
  | .qualified _ identifier _ => identifier

/-- The type before the last dot. -/
def qualifier? : UserType -> Option UserType
  | .simple _ _ => none
  | .qualified qualifier _ _ => some qualifier

/-- How many qualifiers stand before the last segment. -/
def depth : UserType -> Nat
  | .simple _ _ => 0
  | .qualified qualifier _ _ => qualifier.depth + 1

/-- All segments joined by dots. -/
def dotted : UserType -> String
  | .simple identifier _ => identifier.text
  | .qualified qualifier identifier _ => qualifier.dotted ++ "." ++ identifier.text

/-- The segments in source order. -/
def segments : UserType -> List Token
  | .simple identifier _ => [identifier]
  | .qualified qualifier identifier _ => qualifier.segments ++ [identifier]

end UserType

/-- A type as it is written: a name, or a type in parentheses. -/
inductive TypeReference where
  | parenthesized (opening : Token) (inner : TypeReference) (closing : Token) (span : Span)
  | user (type : UserType)
deriving DecidableEq

/-- The stretch of source that a type covers, parentheses included. -/
def TypeReference.span : TypeReference -> Span
  | .parenthesized _ _ _ span => span
  | .user type => type.span

/-- A function without parameters. Its opening parenthesis and the colon before
its return type are not kept. -/
structure FunctionDeclaration where
  modifiers : List Token
  keyword : Token
  identifier : Token
  closing : Token
  returnType : Option TypeReference
  span : Span
deriving DecidableEq

/-- A whole source file. -/
structure File where
  packageHeader : PackageHeader
  imports : List ImportHeader
  declarations : List FunctionDeclaration
  endMarker : Token
  span : Span
deriving DecidableEq

end KiwiFront
