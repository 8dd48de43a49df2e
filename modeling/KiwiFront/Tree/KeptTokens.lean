import KiwiFront.Tree.Elements

/-!
# The tokens that elements keep

An element keeps the tokens at its leaves, ignored ones included. Here they are listed
in the order of the source. Its own tokens are those that are not ignored.
-/

namespace KiwiFront

/-- The tokens of something that may be missing. -/
def optionalTokens {Item : Type} (tokensOf : Item -> List Token) : Option Item -> List Token
  | some item => tokensOf item
  | none => []

def PackageHeader.keptTokens (header : PackageHeader) : List Token :=
  header.keyword :: header.identifier.segments ++ [header.terminator]

def ImportSuffix.keptTokens : ImportSuffix -> List Token
  | .alias suffix => [suffix.keyword, suffix.identifier]
  | .wildcard suffix => [suffix.dot, suffix.star]

def ImportHeader.keptTokens (header : ImportHeader) : List Token :=
  header.keyword :: header.identifier.segments ++
    optionalTokens ImportSuffix.keptTokens header.suffix ++ [header.terminator]

def TypeReference.keptTokens : TypeReference -> List Token
  | .parenthesized opening inner closing _ => opening :: inner.keptTokens ++ [closing]
  | .user type => type.segments

def FunctionDeclaration.keptTokens (declaration : FunctionDeclaration) : List Token :=
  declaration.modifiers ++ [declaration.keyword, declaration.identifier, declaration.closing] ++
    optionalTokens TypeReference.keptTokens declaration.returnType

def File.keptTokens (file : File) : List Token :=
  file.packageHeader.keptTokens ++ file.imports.flatMap ImportHeader.keptTokens ++
    file.declarations.flatMap FunctionDeclaration.keptTokens ++ [file.endMarker]

/-- The tokens of a package header without its terminator. -/
def PackageHeader.ownTokens (header : PackageHeader) : List Token :=
  header.keyword :: header.identifier.segments

/-- The tokens of an import without its terminator. -/
def ImportHeader.ownTokens (header : ImportHeader) : List Token :=
  header.keyword :: (header.identifier.segments ++
    optionalTokens ImportSuffix.keptTokens header.suffix)

/-- The tokens of a file without those that its headers ignore. -/
def File.ownTokens (file : File) : List Token :=
  file.packageHeader.ownTokens ++ (file.imports.flatMap ImportHeader.ownTokens ++
    (file.declarations.flatMap FunctionDeclaration.keptTokens ++ [file.endMarker]))

theorem PackageHeader.keptTokens_eq (header : PackageHeader) :
    header.keptTokens = header.ownTokens ++ [header.terminator] := rfl

theorem ImportHeader.keptTokens_eq (header : ImportHeader) :
    header.keptTokens = header.ownTokens ++ [header.terminator] := by
  simp [keptTokens, ownTokens]

theorem File.ownTokens_sublist (file : File) : file.ownTokens.Sublist file.keptTokens := by
  have header : file.packageHeader.ownTokens.Sublist file.packageHeader.keptTokens := by
    rw [PackageHeader.keptTokens_eq]
    exact List.sublist_append_left _ _
  have imports : (file.imports.flatMap ImportHeader.ownTokens).Sublist
      (file.imports.flatMap ImportHeader.keptTokens) := by
    induction file.imports with
    | nil => exact .slnil
    | cons first rest inductionHypothesis =>
        have own : first.ownTokens.Sublist first.keptTokens := by
          rw [ImportHeader.keptTokens_eq]
          exact List.sublist_append_left _ _
        exact own.append inductionHypothesis
  rw [ownTokens, keptTokens, List.append_assoc, List.append_assoc]
  exact header.append (imports.append (List.Sublist.refl _))

theorem File.sublist_of_import {file : File} {header : ImportHeader}
    (member : header ∈ file.imports) : header.keptTokens.Sublist file.keptTokens := by
  have among : header.keptTokens.Sublist (file.imports.flatMap ImportHeader.keptTokens) :=
    List.sublist_flatten_of_mem (List.mem_map_of_mem member)
  rw [keptTokens, List.append_assoc, List.append_assoc]
  exact among.trans ((List.sublist_append_left _ _).trans (List.sublist_append_right _ _))

theorem File.sublist_of_packageHeader (file : File) :
    file.packageHeader.keptTokens.Sublist file.keptTokens := by
  rw [keptTokens, List.append_assoc, List.append_assoc]
  exact List.sublist_append_left _ _

end KiwiFront
