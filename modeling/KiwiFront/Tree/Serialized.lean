import KiwiFront.Data.Datum
import KiwiFront.Tree.Elements

/-!
# Serialized elements

An element is an object whose first key names its type. All of its parts follow,
ignored ones included, and its span comes last. Variants of suffixes and types are
not tagged beyond the type of the element they hold.
-/

namespace KiwiFront

def Position.toDatum (position : Position) : Datum :=
  .object [("row", .integer position.row), ("column", .integer position.column)]

def Span.toDatum (span : Span) : Datum :=
  .object [("start", span.start.toDatum), ("end", span.stop.toDatum)]

namespace Token

/-- A token by itself. -/
def toDatum (token : Token) : Datum :=
  .object [("kind", .text token.kind.label), ("text", .text token.text),
    ("start", token.start.toDatum), ("end", token.stop.toDatum)]

/-- A token as a leaf of the tree. -/
def toLeafDatum (token : Token) : Datum :=
  .object [("type", .text "TokenWrapper"), ("token", token.toDatum)]

end Token

/-- An element of a type with its parts. -/
def elementDatum (type : String) (parts : List (String × Datum)) (span : Span) : Datum :=
  .object (("type", .text type) :: parts ++ [("span", span.toDatum)])

/-- Something that may be missing. -/
def optionalDatum {Item : Type} (toDatum : Item -> Datum) : Option Item -> Datum
  | some item => toDatum item
  | none => .null

/-- A sequence of things of one sort. -/
def listDatum {Item : Type} (toDatum : Item -> Datum) (items : List Item) : Datum :=
  .list (items.map toDatum)

def Identifier.toDatum (identifier : Identifier) : Datum :=
  elementDatum "Identifier" [("attrs", listDatum Token.toLeafDatum identifier.segments)]
    identifier.span

def PackageHeader.toDatum (header : PackageHeader) : Datum :=
  elementDatum "PackageHeader"
    [("keyword", header.keyword.toLeafDatum), ("identifier", header.identifier.toDatum),
      ("terminator", header.terminator.toLeafDatum)]
    header.span

def ImportAlias.toDatum (suffix : ImportAlias) : Datum :=
  elementDatum "ImportAlias"
    [("keyword", suffix.keyword.toLeafDatum), ("identifier", suffix.identifier.toLeafDatum)]
    suffix.span

def ImportWildcard.toDatum (suffix : ImportWildcard) : Datum :=
  elementDatum "ImportWildcard"
    [("dot", suffix.dot.toLeafDatum), ("star", suffix.star.toLeafDatum)] suffix.span

def ImportSuffix.toDatum : ImportSuffix -> Datum
  | .alias suffix => suffix.toDatum
  | .wildcard suffix => suffix.toDatum

def ImportHeader.toDatum (header : ImportHeader) : Datum :=
  elementDatum "ImportHeader"
    [("keyword", header.keyword.toLeafDatum), ("identifier", header.identifier.toDatum),
      ("suffix", optionalDatum ImportSuffix.toDatum header.suffix),
      ("terminator", header.terminator.toLeafDatum)]
    header.span

def UserType.toDatum : UserType -> Datum
  | .simple identifier span =>
      elementDatum "UserType"
        [("qualifier", .null), ("identifier", identifier.toLeafDatum)] span
  | .qualified qualifier identifier span =>
      elementDatum "UserType"
        [("qualifier", qualifier.toDatum), ("identifier", identifier.toLeafDatum)] span

def TypeReference.toDatum : TypeReference -> Datum
  | .parenthesized opening inner closing span =>
      elementDatum "ParenthesizedType"
        [("open", opening.toLeafDatum), ("inner", inner.toDatum),
          ("close", closing.toLeafDatum)]
        span
  | .user type => type.toDatum

def FunctionDeclaration.toDatum (declaration : FunctionDeclaration) : Datum :=
  elementDatum "FunctionDeclaration"
    [("modifiers", listDatum Token.toLeafDatum declaration.modifiers),
      ("keyword", declaration.keyword.toLeafDatum),
      ("identifier", declaration.identifier.toLeafDatum),
      ("close_paren", declaration.closing.toLeafDatum),
      ("return_type", optionalDatum TypeReference.toDatum declaration.returnType)]
    declaration.span

def File.toDatum (file : File) : Datum :=
  elementDatum "File"
    [("package_header", file.packageHeader.toDatum),
      ("imports", listDatum ImportHeader.toDatum file.imports),
      ("declarations", listDatum FunctionDeclaration.toDatum file.declarations),
      ("end_marker", file.endMarker.toLeafDatum)]
    file.span

end KiwiFront
