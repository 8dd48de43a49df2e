import KiwiFront.Grammar
import KiwiFront.Tree.Serialized

/-!
# What rules read

Whatever a rule of the language reads is a node, and can be serialized. Rules that
read several things of one sort read a sequence.
-/

namespace KiwiFront.KiwiRule

/-- What a rule reads, as a node. -/
def toNode : (rule : KiwiRule) -> rule.Value -> Node
  | .start, file => File.toNode file
  | .packageHeader, header => PackageHeader.toNode header
  | .identifier, name => Identifier.toNode name
  | .importList, imports => .ofList (List.map ImportHeader.toNode imports)
  | .importHeader, header => ImportHeader.toNode header
  | .importSuffix, suffix => ImportSuffix.toNode suffix
  | .importAlias, suffix => ImportAlias.toNode suffix
  | .topLevelObjectList, functions => .ofList (List.map FunctionDeclaration.toNode functions)
  | .topLevelObject, function => FunctionDeclaration.toNode function
  | .declaration, function => FunctionDeclaration.toNode function
  | .functionDeclaration, function => FunctionDeclaration.toNode function
  | .modifiers, tokens => .ofList (List.map Token.toNode tokens)
  | .type, reference => TypeReference.toNode reference
  | .parenthesizedType, reference => TypeReference.toNode reference
  | .userType, reference => UserType.toNode reference
  | .simpleIdentifier, token => Token.toNode token
  | .semi, token => Token.toNode token
  | .modifier, token => Token.toNode token
  | .simpleUserType, token => Token.toNode token

/-- What a rule reads, serialized. -/
def toDatum : (rule : KiwiRule) -> rule.Value -> Datum
  | .start, file => File.toDatum file
  | .packageHeader, header => PackageHeader.toDatum header
  | .identifier, name => Identifier.toDatum name
  | .importList, imports => listDatum ImportHeader.toDatum imports
  | .importHeader, header => ImportHeader.toDatum header
  | .importSuffix, suffix => ImportSuffix.toDatum suffix
  | .importAlias, suffix => ImportAlias.toDatum suffix
  | .topLevelObjectList, functions => listDatum FunctionDeclaration.toDatum functions
  | .topLevelObject, function => FunctionDeclaration.toDatum function
  | .declaration, function => FunctionDeclaration.toDatum function
  | .functionDeclaration, function => FunctionDeclaration.toDatum function
  | .modifiers, tokens => listDatum Token.toLeafDatum tokens
  | .type, reference => TypeReference.toDatum reference
  | .parenthesizedType, reference => TypeReference.toDatum reference
  | .userType, reference => UserType.toDatum reference
  | .simpleIdentifier, token => Token.toLeafDatum token
  | .semi, token => Token.toLeafDatum token
  | .modifier, token => Token.toLeafDatum token
  | .simpleUserType, token => Token.toLeafDatum token

end KiwiFront.KiwiRule
