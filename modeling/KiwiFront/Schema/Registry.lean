import KiwiFront.Schema.Declaration

/-!
# Registries

A registry collects declarations under distinct names until it is closed. The
node base type is declared from the start and extends itself.
-/

namespace KiwiFront

/-- The declared names with their meanings, in the order of declaration. -/
structure Registry where
  entries : List (String × TypeEntry)
  isClosed : Bool

namespace Registry

/-- The declaration of the type that every node type extends. -/
def baseDeclaration : NodeDeclaration := ⟨nodeBase, nodeBase, []⟩

/-- An open registry that knows only the node base type. -/
def empty : Registry := ⟨[(nodeBase, .node baseDeclaration)], false⟩

/-- What a name stands for. -/
def find? (registry : Registry) (name : String) : Option TypeEntry :=
  registry.entries.lookup name

/-- Adds a declaration to an open registry that does not know its name yet. -/
def declare (registry : Registry) (declaration : Declaration) : Except SchemaError Registry :=
  if registry.isClosed then .error (.closed declaration.name)
  else if (registry.find? declaration.name).isSome then
    .error (.duplicateType declaration.name)
  else .ok { registry with
    entries := registry.entries ++ [(declaration.name, declaration.entry)] }

/-- Ends the declarations. -/
def close (registry : Registry) : Registry :=
  { registry with isClosed := true }

/-- A closed registry of some declarations, made in order. -/
def ofDeclarations (declarations : List Declaration) : Except SchemaError Registry :=
  (declarations.foldlM declare empty).map close

/-- Follows base types from `current` for at most `steps` names. `origin` is the
type that is asked about. -/
def reachesBase (registry : Registry) (origin : String) :
    (steps : Nat) -> (current : String) -> Except SchemaError Bool
  | 0, _ => .error (.aliasCycle origin)
  | steps + 1, current =>
      if current = nodeBase then .ok true
      else
        match registry.find? current with
        | some (.node declaration) => registry.reachesBase origin steps declaration.base
        | some _ => .ok false
        | none => .error (.unknownType origin current)

/-- Whether a name is the node base type or extends it. A chain of more names than
there are entries has to repeat one. -/
def isNodeType (registry : Registry) (name : String) : Except SchemaError Bool :=
  registry.reachesBase name (registry.entries.length + 1) name

end Registry

end KiwiFront
