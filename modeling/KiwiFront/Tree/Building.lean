import KiwiFront.Tree.KiwiTypes
import KiwiFront.Tree.View

/-!
# Building elements

A new element gets its span from its children, by the schema of its type. An
element without a child that has a position cannot be built. Only a file may be
given its ends explicitly.
-/

namespace KiwiFront

/-- The span of a new node of the language. -/
def locateKiwi (node : String) (fields : Fields Node) (start? stop? : Option Position) :
    Except NodeError Span := do
  let registry ← KiwiTypes.registry.mapError .schema
  Fields.locate registry node fields start? stop?

def Identifier.build (segments : List Token) : Except NodeError Identifier := do
  let span ← locateKiwi "Identifier" (fieldsOf segments) none none
  return ⟨segments, span⟩

def PackageHeader.build (keyword : Token) (identifier : Identifier) (terminator : Token) :
    Except NodeError PackageHeader := do
  let span ← locateKiwi "PackageHeader" (fieldsOf keyword identifier terminator) none none
  return ⟨keyword, identifier, terminator, span⟩

def ImportAlias.build (keyword identifier : Token) : Except NodeError ImportAlias := do
  let span ← locateKiwi "ImportAlias" (fieldsOf keyword identifier) none none
  return ⟨keyword, identifier, span⟩

def ImportWildcard.build (dot star : Token) : Except NodeError ImportWildcard := do
  let span ← locateKiwi "ImportWildcard" (fieldsOf dot star) none none
  return ⟨dot, star, span⟩

def ImportHeader.build (keyword : Token) (identifier : Identifier)
    (suffix : Option ImportSuffix) (terminator : Token) : Except NodeError ImportHeader := do
  let fields := fieldsOf keyword identifier suffix terminator
  let span ← locateKiwi "ImportHeader" fields none none
  return ⟨keyword, identifier, suffix, terminator, span⟩

def UserType.build (qualifier : Option UserType) (identifier : Token) :
    Except NodeError UserType := do
  let fields := fieldsOf (qualifier.map UserType.toNode) identifier
  let span ← locateKiwi "UserType" fields none none
  match qualifier with
  | some qualifier => return .qualified qualifier identifier span
  | none => return .simple identifier span

def TypeReference.buildParenthesized (opening : Token) (inner : TypeReference)
    (closing : Token) : Except NodeError TypeReference := do
  let span ← locateKiwi "ParenthesizedType" (fieldsOf opening inner.toNode closing) none none
  return .parenthesized opening inner closing span

def FunctionDeclaration.build (modifiers : List Token) (keyword identifier closing : Token)
    (returnType : Option TypeReference) : Except NodeError FunctionDeclaration := do
  let fields := fieldsOf modifiers keyword identifier closing returnType
  let span ← locateKiwi "FunctionDeclaration" fields none none
  return ⟨modifiers, keyword, identifier, closing, returnType, span⟩

/-- A file; the ends that are not given are derived. -/
def File.build (packageHeader : PackageHeader) (imports : List ImportHeader)
    (declarations : List FunctionDeclaration) (endMarker : Token)
    (start? stop? : Option Position) : Except NodeError File := do
  let fields := fieldsOf packageHeader imports declarations endMarker
  let span ← locateKiwi "File" fields start? stop?
  return ⟨packageHeader, imports, declarations, endMarker, span⟩

end KiwiFront
