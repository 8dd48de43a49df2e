import KiwiFront.Schema.Resolution

/-!
# The node types of the language

The terminators of headers are kept on the nodes but ignored, so that a header
ends where its last part ends and not on the line break behind it.
-/

namespace KiwiFront.KiwiTypes

/-- The type of tokens as leaves. -/
def leaf : FieldType := .named "TokenWrapper"

/-- A field whose nodes are children. -/
def child (name : String) (type : FieldType) : FieldDeclaration := ⟨name, type, false⟩

/-- A field that is kept but is no child. -/
def ignored (name : String) (type : FieldType) : FieldDeclaration := ⟨name, type, true⟩

/-- A node type that directly extends the node base type. -/
def nodeType (name : String) (fields : List FieldDeclaration) : Declaration :=
  .node ⟨name, nodeBase, fields⟩

/-- Every node type of the language, then the aliases, then the types whose values
are no nodes. -/
def declarations : List Declaration := [
  nodeType "List" [],
  nodeType "TokenWrapper" [child "token" (.named "Token")],
  nodeType "File" [
    child "package_header" (.named "PackageHeader"),
    child "imports" (.sequenceOf (.named "ImportHeader")),
    child "declarations" (.sequenceOf (.named "Declaration")),
    child "end_marker" leaf],
  nodeType "PackageHeader" [
    child "keyword" leaf,
    child "identifier" (.named "Identifier"),
    ignored "terminator" leaf],
  nodeType "Identifier" [child "attrs" (.sequenceOf leaf)],
  nodeType "ImportHeader" [
    child "keyword" leaf,
    child "identifier" (.named "Identifier"),
    child "suffix" (.optional (.named "ImportSuffix")),
    ignored "terminator" leaf],
  nodeType "ImportAlias" [child "keyword" leaf, child "identifier" leaf],
  nodeType "ImportWildcard" [child "dot" leaf, child "star" leaf],
  nodeType "FunctionDeclaration" [
    child "modifiers" (.sequenceOf leaf),
    child "keyword" leaf,
    child "identifier" leaf,
    child "close_paren" leaf,
    child "return_type" (.optional (.named "Type"))],
  nodeType "ParenthesizedType" [
    child "open" leaf,
    child "inner" (.named "Type"),
    child "close" leaf],
  nodeType "UserType" [
    child "qualifier" (.optional (.named "UserType")),
    child "identifier" leaf],
  .alias "Declaration" (.named "FunctionDeclaration"),
  .alias "ImportSuffix" (.union [.named "ImportAlias", .named "ImportWildcard"]),
  .alias "Type" (.union [.named "ParenthesizedType", .named "UserType"]),
  .foreign "Token",
  .foreign "str"]

/-- The closed registry of the language. -/
def registry : Except SchemaError Registry :=
  Registry.ofDeclarations declarations

/-- The schema of a node type of the language. -/
def schema (name : String) : Except SchemaError NodeSchema := do
  (← registry).schema name

/-- Whether a name is a node type of the language. -/
def isNodeType (name : String) : Except SchemaError Bool := do
  (← registry).isNodeType name

end KiwiFront.KiwiTypes
