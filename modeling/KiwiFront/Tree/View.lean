import KiwiFront.Tree.Elements
import KiwiFront.Tree.Node

/-!
# Elements as nodes

Every element of the syntax tree is a node of the type that the language's
registry declares for it. The fields of an element are given apart from its span,
because the span of a new element is derived from them.
-/

namespace KiwiFront

/-- A token as a leaf, labelled by its kind and its quoted text. -/
def Token.toNode (token : Token) : Node :=
  .mk "TokenWrapper" (some (token.kind.label ++ " " ++ Text.quoted token.text)) token.span []

/-- Tokens as the leaves of a sequence. -/
def leaves (tokens : List Token) : Child Node :=
  .sequence (tokens.map Token.toNode)

namespace Identifier

def fieldsOf (segments : List Token) : Fields Node := [("attrs", leaves segments)]

/-- A name is labelled by its dotted text. -/
def toNode (identifier : Identifier) : Node :=
  .mk "Identifier" (some identifier.dotted) identifier.span (fieldsOf identifier.segments)

end Identifier

namespace PackageHeader

def fieldsOf (keyword : Token) (identifier : Identifier) (terminator : Token) : Fields Node :=
  [("keyword", .node keyword.toNode), ("identifier", .node identifier.toNode),
    ("terminator", .node terminator.toNode)]

def toNode (header : PackageHeader) : Node :=
  .mk "PackageHeader" none header.span
    (fieldsOf header.keyword header.identifier header.terminator)

end PackageHeader

namespace ImportAlias

def fieldsOf (keyword identifier : Token) : Fields Node :=
  [("keyword", .node keyword.toNode), ("identifier", .node identifier.toNode)]

def toNode (suffix : ImportAlias) : Node :=
  .mk "ImportAlias" none suffix.span (fieldsOf suffix.keyword suffix.identifier)

end ImportAlias

namespace ImportWildcard

def fieldsOf (dot star : Token) : Fields Node :=
  [("dot", .node dot.toNode), ("star", .node star.toNode)]

def toNode (suffix : ImportWildcard) : Node :=
  .mk "ImportWildcard" none suffix.span (fieldsOf suffix.dot suffix.star)

end ImportWildcard

/-- A suffix is the node of the variant it holds. -/
def ImportSuffix.toNode : ImportSuffix -> Node
  | .alias suffix => suffix.toNode
  | .wildcard suffix => suffix.toNode

namespace ImportHeader

def fieldsOf (keyword : Token) (identifier : Identifier) (suffix : Option ImportSuffix)
    (terminator : Token) : Fields Node :=
  [("keyword", .node keyword.toNode), ("identifier", .node identifier.toNode),
    ("suffix", .ofOption (suffix.map ImportSuffix.toNode)),
    ("terminator", .node terminator.toNode)]

def toNode (header : ImportHeader) : Node :=
  .mk "ImportHeader" none header.span
    (fieldsOf header.keyword header.identifier header.suffix header.terminator)

end ImportHeader

namespace UserType

/-- The fields of a named type, with the node of its qualifier. -/
def fieldsOf (qualifier : Option Node) (identifier : Token) : Fields Node :=
  [("qualifier", .ofOption qualifier), ("identifier", .node identifier.toNode)]

/-- A named type is labelled by its dotted text. -/
def toNode : UserType -> Node
  | .simple identifier span =>
      .mk "UserType" (some (UserType.simple identifier span).dotted) span
        (fieldsOf none identifier)
  | .qualified qualifier identifier span =>
      .mk "UserType" (some (UserType.qualified qualifier identifier span).dotted) span
        (fieldsOf (some qualifier.toNode) identifier)

end UserType

namespace TypeReference

/-- The fields of a type in parentheses, with the node of the inner type. -/
def fieldsOf (opening : Token) (inner : Node) (closing : Token) : Fields Node :=
  [("open", .node opening.toNode), ("inner", .node inner), ("close", .node closing.toNode)]

/-- A type reference is the node of the variant it holds. -/
def toNode : TypeReference -> Node
  | .parenthesized opening inner closing span =>
      .mk "ParenthesizedType" none span (fieldsOf opening inner.toNode closing)
  | .user type => type.toNode

end TypeReference

namespace FunctionDeclaration

def fieldsOf (modifiers : List Token) (keyword identifier closing : Token)
    (returnType : Option TypeReference) : Fields Node :=
  [("modifiers", leaves modifiers), ("keyword", .node keyword.toNode),
    ("identifier", .node identifier.toNode), ("close_paren", .node closing.toNode),
    ("return_type", .ofOption (returnType.map TypeReference.toNode))]

def toNode (declaration : FunctionDeclaration) : Node :=
  .mk "FunctionDeclaration" none declaration.span
    (fieldsOf declaration.modifiers declaration.keyword declaration.identifier
      declaration.closing declaration.returnType)

end FunctionDeclaration

namespace File

def fieldsOf (packageHeader : PackageHeader) (imports : List ImportHeader)
    (declarations : List FunctionDeclaration) (endMarker : Token) : Fields Node :=
  [("package_header", .node packageHeader.toNode),
    ("imports", .sequence (imports.map ImportHeader.toNode)),
    ("declarations", .sequence (declarations.map FunctionDeclaration.toNode)),
    ("end_marker", .node endMarker.toNode)]

def toNode (file : File) : Node :=
  .mk "File" none file.span
    (fieldsOf file.packageHeader file.imports file.declarations file.endMarker)

end File

end KiwiFront
