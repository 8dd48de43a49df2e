import KiwiFront.Peg.Expression
import KiwiFront.Tree.Building

/-!
# The grammar of the language

`&&x` stands for a forced match: once a rule has come that far, everything but an
`x` ends the parse.

    start:               packageHeader importList topLevelObjectList semi? &&ENDMARKER
    packageHeader:       'package' &&identifier &&semi
    identifier:          simpleIdentifier ('.' !'*' &&simpleIdentifier)*
    simpleIdentifier:    NAME
    importList:          importHeader*
    importHeader:        'import' &&identifier importSuffix? &&semi
    importSuffix:        importAlias | '.' '*'
    importAlias:         'as' &&simpleIdentifier
    semi:                NEWLINE | ';'
    topLevelObjectList:  topLevelObject*
    topLevelObject:      declaration &&semi
    declaration:         functionDeclaration
    functionDeclaration: modifiers 'fun' &&simpleIdentifier &&'(' &&')' (':' &&type)?
    modifiers:           modifier*
    modifier:            'public' | 'private' | 'internal'
    type:                parenthesizedType | userType
    parenthesizedType:   '(' type &&')'
    userType:            userType '.' &&simpleUserType | simpleUserType
    simpleUserType:      simpleIdentifier

The rule for user types is left-recursive, so that a dotted type nests to the left.
-/

namespace KiwiFront

/-- The rules of the grammar. -/
inductive KiwiRule where
  | start
  | packageHeader
  | identifier
  | simpleIdentifier
  | importList
  | importHeader
  | importSuffix
  | importAlias
  | semi
  | topLevelObjectList
  | topLevelObject
  | declaration
  | functionDeclaration
  | modifiers
  | modifier
  | type
  | parenthesizedType
  | userType
  | simpleUserType
deriving DecidableEq

/-- The types of what rules read. A type in parentheses has a tag of its own. -/
inductive KiwiTag where
  | file
  | packageHeader
  | identifier
  | importHeaders
  | importHeader
  | importSuffix
  | importAlias
  | declarations
  | declaration
  | tokens
  | token
  | typeReference
  | parenthesizedType
  | userType
deriving DecidableEq

/-- The type that has a tag. -/
def KiwiTag.Content : KiwiTag -> Type
  | file => File
  | packageHeader => PackageHeader
  | identifier => Identifier
  | importHeaders => List ImportHeader
  | importHeader => ImportHeader
  | importSuffix => ImportSuffix
  | importAlias => ImportAlias
  | declarations => List FunctionDeclaration
  | declaration => FunctionDeclaration
  | tokens => List Token
  | token => Token
  | typeReference | parenthesizedType => TypeReference
  | userType => UserType

namespace KiwiRule

/-- Every rule once. -/
def all : List KiwiRule :=
  [start, packageHeader, identifier, simpleIdentifier, importList, importHeader, importSuffix,
    importAlias, semi, topLevelObjectList, topLevelObject, declaration, functionDeclaration,
    modifiers, modifier, type, parenthesizedType, userType, simpleUserType]

/-- The name of a rule. -/
def name : KiwiRule -> String
  | start => "start"
  | packageHeader => "packageHeader"
  | identifier => "identifier"
  | simpleIdentifier => "simpleIdentifier"
  | importList => "importList"
  | importHeader => "importHeader"
  | importSuffix => "importSuffix"
  | importAlias => "importAlias"
  | semi => "semi"
  | topLevelObjectList => "topLevelObjectList"
  | topLevelObject => "topLevelObject"
  | declaration => "declaration"
  | functionDeclaration => "functionDeclaration"
  | modifiers => "modifiers"
  | modifier => "modifier"
  | type => "type"
  | parenthesizedType => "parenthesizedType"
  | userType => "userType"
  | simpleUserType => "simpleUserType"

/-- The rule with a given name. -/
def ofName? (text : String) : Option KiwiRule :=
  all.find? (fun rule => rule.name == text)

/-- The tag of the type of what a rule reads. -/
def tag : KiwiRule -> KiwiTag
  | start => .file
  | packageHeader => .packageHeader
  | identifier => .identifier
  | importList => .importHeaders
  | importHeader => .importHeader
  | importSuffix => .importSuffix
  | importAlias => .importAlias
  | topLevelObjectList => .declarations
  | topLevelObject | declaration | functionDeclaration => .declaration
  | modifiers => .tokens
  | type => .typeReference
  | parenthesizedType => .parenthesizedType
  | userType => .userType
  | simpleIdentifier | semi | modifier | simpleUserType => .token

/-- The type of what a rule reads. -/
abbrev Value (rule : KiwiRule) : Type := rule.tag.Content

/-- Plain rules only stand for others; all but one of the rest are not
left-recursive. -/
def mode : KiwiRule -> Peg.Mode
  | declaration | modifier | simpleUserType => .plain
  | userType => .leftRecursive
  | _ => .memoized

end KiwiRule

namespace KiwiGrammar

open Peg

/-- Expressions over the rules of the language. -/
abbrev Phrase (Result : Type) := Expression KiwiRule KiwiRule.Value Result

/-- What another rule reads. -/
def sub (rule : KiwiRule) : Phrase rule.Value := .call rule

/-- A name with a given text. -/
def keyword (text : String) : Phrase Token := .token (.keyword text)

/-- A token with a given text. -/
def literal (text : String) : Phrase Token := .token (.literal text)

/-- A token with a given text that has to come. -/
def forcedLiteral (text expected : String) : Phrase Token := .force (literal text) expected

/-- A segment of a dotted name that has to come. -/
def forcedSegment : Phrase Token := .force (sub .simpleIdentifier) "simpleIdentifier"

/-- A dotted name that has to come. -/
def forcedIdentifier : Phrase Identifier := .force (sub .identifier) "identifier"

/-- The end of a statement, which has to come. -/
def forcedSemi : Phrase Token := .force (sub .semi) "newline or ';'"

def start : Phrase File :=
  .build "File"
    (fun (header, imports, declarations, marker) =>
      File.build header imports declarations marker none none)
    (.both (sub .packageHeader)
      (.both (sub .importList)
        (.both (sub .topLevelObjectList)
          (.after (.optional (sub .semi))
            (.force (.token (.kind .endMarker)) "end of input")))))

def packageHeader : Phrase PackageHeader :=
  .build "PackageHeader"
    (fun (keyword, identifier, terminator) => PackageHeader.build keyword identifier terminator)
    (.both (keyword "package") (.both forcedIdentifier forcedSemi))

/-- The dot before a star belongs to the suffix of an import. -/
def identifier : Phrase Identifier :=
  .build "Identifier" (fun (first, others) => Identifier.build (first :: others))
    (.both (sub .simpleIdentifier)
      (.many (.after (literal ".") (.after (.look false (literal "*")) forcedSegment))))

def importHeader : Phrase ImportHeader :=
  .build "ImportHeader"
    (fun (keyword, identifier, suffix, terminator) =>
      ImportHeader.build keyword identifier suffix terminator)
    (.both (keyword "import")
      (.both forcedIdentifier (.both (.optional (sub .importSuffix)) forcedSemi)))

def importAlias : Phrase ImportAlias :=
  .build "ImportAlias" (fun (keyword, identifier) => ImportAlias.build keyword identifier)
    (.both (keyword "as") forcedSegment)

def importWildcard : Phrase ImportWildcard :=
  .build "ImportWildcard" (fun (dot, star) => ImportWildcard.build dot star)
    (.both (literal ".") (literal "*"))

def functionDeclaration : Phrase FunctionDeclaration :=
  .build "FunctionDeclaration"
    (fun (modifiers, keyword, identifier, closing, returnType) =>
      FunctionDeclaration.build modifiers keyword identifier closing returnType)
    (.both (sub .modifiers)
      (.both (keyword "fun")
        (.both forcedSegment
          (.after (forcedLiteral "(" "'('")
            (.both (forcedLiteral ")" "')'")
              (.optional (.after (literal ":") (.force (sub .type) "type"))))))))

def parenthesizedType : Phrase TypeReference :=
  .build "ParenthesizedType"
    (fun (opening, inner, closing) => TypeReference.buildParenthesized opening inner closing)
    (.both (literal "(") (.both (sub .type) (forcedLiteral ")" "')'")))

/-- A user type with one more segment behind it. -/
def qualifiedType : Phrase UserType :=
  .build "UserType" (fun (qualifier, identifier) => UserType.build (some qualifier) identifier)
    (.both (sub .userType)
      (.after (literal ".") (.force (sub .simpleUserType) "simpleUserType")))

def simpleType : Phrase UserType :=
  .build "UserType" (fun identifier => UserType.build none identifier) (sub .simpleUserType)

/-- The expression of a rule. -/
def body : (rule : KiwiRule) -> Phrase rule.Value
  | .start => .alternatives [start]
  | .packageHeader => .alternatives [packageHeader]
  | .identifier => .alternatives [identifier]
  | .simpleIdentifier => .token .name
  | .importList => .many (sub .importHeader)
  | .importHeader => .alternatives [importHeader]
  | .importSuffix =>
      .alternatives [
        .map ImportSuffix.alias (sub .importAlias),
        .map ImportSuffix.wildcard importWildcard]
  | .importAlias => .alternatives [importAlias]
  | .semi => .alternatives [.token (.kind .newline), literal ";"]
  | .topLevelObjectList => .many (sub .topLevelObject)
  | .topLevelObject => .alternatives [.before (sub .declaration) forcedSemi]
  | .declaration => sub .functionDeclaration
  | .functionDeclaration => .alternatives [functionDeclaration]
  | .modifiers => .many (sub .modifier)
  | .modifier => .alternatives [keyword "public", keyword "private", keyword "internal"]
  | .type => .alternatives [sub .parenthesizedType, .map TypeReference.user (sub .userType)]
  | .parenthesizedType => .alternatives [parenthesizedType]
  | .userType => .alternatives [qualifiedType, simpleType]
  | .simpleUserType => sub .simpleIdentifier

/-- The names that the language reserves. -/
def keywords : List String :=
  ["as", "fun", "import", "package", "public", "private", "internal"]

end KiwiGrammar

/-- The grammar of the language. -/
def kiwiGrammar : Peg.Grammar where
  Rule := KiwiRule
  Tag := KiwiTag
  sameTag := inferInstance
  Content := KiwiTag.Content
  tag := KiwiRule.tag
  name := KiwiRule.name
  mode := KiwiRule.mode
  body := KiwiGrammar.body

end KiwiFront
