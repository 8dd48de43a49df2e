/-!
# Declarations of node types

A node type declares its fields with their types and the node type it extends.
Types are referred to by name and may be declared later. Besides node types a
name can stand for an alias of a field type, or for a foreign type whose values
are no nodes.
-/

namespace KiwiFront

/-- The declared type of a field. -/
inductive FieldType where
  | named (name : String)
  | optional (inner : FieldType)
  | sequenceOf (inner : FieldType)
  | union (members : List FieldType)

/-- A field of a node type. An ignored field is never a child, whatever its type. -/
structure FieldDeclaration where
  name : String
  type : FieldType
  ignored : Bool

/-- A node type with the type it extends and the fields it adds. -/
structure NodeDeclaration where
  name : String
  base : String
  fields : List FieldDeclaration

/-- The type that every node type extends in the end. -/
def nodeBase : String := "Node"

/-- What a declared name stands for. -/
inductive TypeEntry where
  | node (declaration : NodeDeclaration)
  | alias (type : FieldType)
  | foreign

/-- A declaration gives a name its meaning. -/
inductive Declaration where
  | node (declaration : NodeDeclaration)
  | alias (name : String) (type : FieldType)
  | foreign (name : String)

namespace Declaration

/-- The name that a declaration introduces. -/
def name : Declaration -> String
  | .node declaration => declaration.name
  | .alias name _ => name
  | .foreign name => name

/-- The meaning that a declaration gives to its name. -/
def entry : Declaration -> TypeEntry
  | .node declaration => .node declaration
  | .alias _ type => .alias type
  | .foreign _ => .foreign

end Declaration

/-- Why a type cannot be declared or resolved. -/
inductive SchemaError where
  | duplicateType (name : String)
  | unknownType (owner name : String)
  | notANode (name : String)
  | aliasCycle (name : String)
  /-- A declaration came after the registry was closed. -/
  | closed (name : String)
  /-- A schema was asked for before the registry was closed. -/
  | notClosed (name : String)
deriving DecidableEq

namespace SchemaError

/-- The wording of an error. -/
def message : SchemaError -> String
  | .duplicateType name => s!"type `{name}` is declared twice"
  | .unknownType owner name => s!"type `{name}` referenced by `{owner}` was never declared"
  | .notANode name => s!"`{name}` is not a node type"
  | .aliasCycle name => s!"alias `{name}` expands to itself"
  | .closed name => s!"registry is sealed, cannot declare `{name}`"
  | .notClosed name => s!"registry is not sealed yet, cannot resolve `{name}`"

end SchemaError

end KiwiFront
