import KiwiFront.Proofs.Steps
import KiwiFront.Tree.Building

/-!
# Built elements

Building an element keeps the parts that it is given. An element is built if building it
anew from its parts gives it back, and all elements within it are built; its span is then
the one that the schema of its type derives from its children.
-/

namespace KiwiFront

namespace Identifier

/-- A dotted name that its segments build. -/
def Built (identifier : Identifier) : Prop :=
  build identifier.segments = .ok identifier ∧ identifier.segments ≠ []

/-- Building keeps the segments. -/
theorem parts_of_build {segments : List Token} {identifier : Identifier}
    (built : build segments = .ok identifier) : identifier.segments = segments := by
  obtain ⟨_, _, ⟨⟩⟩ := steps_of_bind_ok built
  rfl

end Identifier

namespace PackageHeader

/-- A package header that its parts build, with a name that is built itself. -/
def Built (header : PackageHeader) : Prop :=
  build header.keyword header.identifier header.terminator = .ok header ∧
    header.identifier.Built

/-- Building keeps the keyword, the name and the terminator. -/
theorem parts_of_build {keyword terminator : Token} {identifier : Identifier}
    {header : PackageHeader} (built : build keyword identifier terminator = .ok header) :
    header.keyword = keyword ∧ header.identifier = identifier ∧
      header.terminator = terminator := by
  obtain ⟨_, _, ⟨⟩⟩ := steps_of_bind_ok built
  exact ⟨rfl, rfl, rfl⟩

end PackageHeader

namespace ImportSuffix

/-- A suffix that its two tokens build. -/
def Built : ImportSuffix -> Prop
  | .alias suffix => ImportAlias.build suffix.keyword suffix.identifier = .ok suffix
  | .wildcard suffix => ImportWildcard.build suffix.dot suffix.star = .ok suffix

/-- Building an alias keeps its two tokens. -/
theorem parts_of_build_alias {keyword identifier : Token} {suffix : ImportAlias}
    (built : ImportAlias.build keyword identifier = .ok suffix) :
    suffix.keyword = keyword ∧ suffix.identifier = identifier := by
  obtain ⟨_, _, ⟨⟩⟩ := steps_of_bind_ok built
  exact ⟨rfl, rfl⟩

/-- Building a wildcard keeps its two tokens. -/
theorem parts_of_build_wildcard {dot star : Token} {suffix : ImportWildcard}
    (built : ImportWildcard.build dot star = .ok suffix) :
    suffix.dot = dot ∧ suffix.star = star := by
  obtain ⟨_, _, ⟨⟩⟩ := steps_of_bind_ok built
  exact ⟨rfl, rfl⟩

end ImportSuffix

namespace ImportHeader

/-- An import header that its parts build, with a name and a suffix that are built themselves. -/
def Built (header : ImportHeader) : Prop :=
  build header.keyword header.identifier header.suffix header.terminator = .ok header ∧
    header.identifier.Built ∧ ∀ suffix ∈ header.suffix, suffix.Built

/-- Building keeps the keyword, the name, the suffix and the terminator. -/
theorem parts_of_build {keyword terminator : Token} {identifier : Identifier}
    {suffix : Option ImportSuffix} {header : ImportHeader}
    (built : build keyword identifier suffix terminator = .ok header) :
    header.keyword = keyword ∧ header.identifier = identifier ∧ header.suffix = suffix ∧
      header.terminator = terminator := by
  obtain ⟨_, _, ⟨⟩⟩ := steps_of_bind_ok built
  exact ⟨rfl, rfl, rfl, rfl⟩

end ImportHeader

namespace UserType

/-- A type name that is built at each of its segments, from the innermost one on. -/
def Built : UserType -> Prop
  | simple identifier span => build none identifier = .ok (simple identifier span)
  | qualified qualifier identifier span =>
      build (some qualifier) identifier = .ok (qualified qualifier identifier span) ∧
        qualifier.Built

/-- Without a qualifier the one segment is kept. -/
theorem parts_of_build_none {identifier : Token} {type : UserType}
    (built : build none identifier = .ok type) : ∃ span, type = simple identifier span := by
  obtain ⟨span, _, ⟨⟩⟩ := steps_of_bind_ok built
  exact ⟨span, rfl⟩

/-- The qualifier is kept, and the segment behind it. -/
theorem parts_of_build_some {qualifier : UserType} {identifier : Token} {type : UserType}
    (built : build (some qualifier) identifier = .ok type) :
    ∃ span, type = qualified qualifier identifier span := by
  obtain ⟨span, _, ⟨⟩⟩ := steps_of_bind_ok built
  exact ⟨span, rfl⟩

end UserType

namespace TypeReference

/-- A type that is built from the parentheses inwards. -/
def Built : TypeReference -> Prop
  | parenthesized opening inner closing span =>
      buildParenthesized opening inner closing = .ok (parenthesized opening inner closing span) ∧
        inner.Built
  | user type => type.Built

/-- Building keeps both parentheses and the type between them. -/
theorem parts_of_build {opening closing : Token} {inner type : TypeReference}
    (built : buildParenthesized opening inner closing = .ok type) :
    ∃ span, type = parenthesized opening inner closing span := by
  obtain ⟨span, _, ⟨⟩⟩ := steps_of_bind_ok built
  exact ⟨span, rfl⟩

end TypeReference

namespace FunctionDeclaration

/-- A function that its parts build, with a type that is built itself. -/
def Built (declaration : FunctionDeclaration) : Prop :=
  build declaration.modifiers declaration.keyword declaration.identifier declaration.closing
      declaration.returnType = .ok declaration ∧
    ∀ type ∈ declaration.returnType, type.Built

/-- Building keeps every part of a function. -/
theorem parts_of_build {modifiers : List Token} {keyword identifier closing : Token}
    {returnType : Option TypeReference} {declaration : FunctionDeclaration}
    (built : build modifiers keyword identifier closing returnType = .ok declaration) :
    declaration.modifiers = modifiers ∧ declaration.keyword = keyword ∧
      declaration.identifier = identifier ∧ declaration.closing = closing ∧
      declaration.returnType = returnType := by
  obtain ⟨_, _, ⟨⟩⟩ := steps_of_bind_ok built
  exact ⟨rfl, rfl, rfl, rfl, rfl⟩

end FunctionDeclaration

namespace File

/-- A file that its elements build without being told where it starts or ends, and all of them
built. -/
def Built (file : File) : Prop :=
  build file.packageHeader file.imports file.declarations file.endMarker none none = .ok file ∧
    file.packageHeader.Built ∧ (∀ header ∈ file.imports, header.Built) ∧
    ∀ declaration ∈ file.declarations, declaration.Built

/-- Building keeps the elements, wherever the file is said to start or end. -/
theorem parts_of_build {header : PackageHeader} {imports : List ImportHeader}
    {declarations : List FunctionDeclaration} {endMarker : Token} {file : File}
    {start? stop? : Option Position}
    (built : build header imports declarations endMarker start? stop? = .ok file) :
    file.packageHeader = header ∧ file.imports = imports ∧ file.declarations = declarations ∧
      file.endMarker = endMarker := by
  obtain ⟨_, _, ⟨⟩⟩ := steps_of_bind_ok built
  exact ⟨rfl, rfl, rfl, rfl⟩

end File

end KiwiFront
