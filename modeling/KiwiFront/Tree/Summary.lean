import KiwiFront.Data.Datum
import KiwiFront.Tree.Elements
import KiwiFront.Tree.View

/-!
# Summaries

A summary tells in short what a file declares: its package, its imports and its
functions, with names in dotted form. Places are lists of coordinates.
-/

namespace KiwiFront

/-- A row and a column. -/
def Position.coordinates (position : Position) : Datum :=
  .list [.integer position.row, .integer position.column]

/-- The rows and columns of both ends. -/
def Span.coordinates (span : Span) : Datum :=
  .list [.integer span.start.row, .integer span.start.column,
    .integer span.stop.row, .integer span.stop.column]

/-- The span of a sequence of nodes. -/
def sequenceCoordinates (nodes : List Node) : Datum :=
  (Node.ofList nodes).span.coordinates

/-- A named type: its dotted text, how many qualifiers it has, its own name, and its
qualifier with its place. -/
def UserType.summary (type : UserType) : Datum :=
  .object [
    ("user", .text type.dotted),
    ("depth", .integer type.depth),
    ("last", .text type.identifier.text),
    ("qualifier",
      match type.qualifier? with
      | some qualifier => .list [.text qualifier.dotted, qualifier.span.coordinates]
      | none => .null)]

/-- A type within its parentheses. -/
def TypeReference.summary : TypeReference -> Datum
  | .parenthesized _ inner _ _ => .object [("paren", inner.summary)]
  | .user type => type.summary

/-- The name that an import gets, or the place of its wildcard. -/
def ImportSuffix.summary : ImportSuffix -> Datum
  | .alias suffix => .object [("alias", .text suffix.identifier.text)]
  | .wildcard suffix => .object [("wildcard", suffix.span.coordinates)]

def ImportHeader.summary (header : ImportHeader) : Datum :=
  .list [.text header.keyword.text, .text header.identifier.dotted,
    (header.suffix.map ImportSuffix.summary).getD .null,
    .text header.terminator.kind.label]

def FunctionDeclaration.summary (declaration : FunctionDeclaration) : Datum :=
  .list [.list (declaration.modifiers.map (fun token => .text token.text)),
    .text declaration.identifier.text,
    (declaration.returnType.map TypeReference.summary).getD .null,
    declaration.span.coordinates]

def PackageHeader.summary (header : PackageHeader) : Datum :=
  .list [.text header.keyword.text, .text header.identifier.dotted,
    .text header.terminator.text]

/-- What a file declares. -/
def File.summary (file : File) : Datum :=
  .object [
    ("package", file.packageHeader.summary),
    ("imports", .list (file.imports.map ImportHeader.summary)),
    ("functions", .list (file.declarations.map FunctionDeclaration.summary)),
    ("imports_span", sequenceCoordinates (file.imports.map ImportHeader.toNode)),
    ("declarations_span",
      sequenceCoordinates (file.declarations.map FunctionDeclaration.toNode)),
    ("end", file.endMarker.start.coordinates)]

end KiwiFront
