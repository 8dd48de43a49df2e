import KiwiFront.Schema.Registry

/-!
# Schemas

The schema of a node type lists its children: those of its fields, inherited ones
first, whose types mention a node type. Aliases are expanded on the way, and an
alias that comes up again within its own expansion is an error. The outermost
constructor of a field's type tells how the field holds its nodes.
-/

namespace KiwiFront

/-- How a child field holds its nodes. -/
inductive FieldKind where
  | single
  | optional
  | sequence
deriving DecidableEq

/-- A field that holds nodes. -/
structure ChildField where
  name : String
  kind : FieldKind
deriving DecidableEq

/-- The child fields of a node type, in order. -/
structure NodeSchema where
  name : String
  fields : List ChildField
deriving DecidableEq

namespace NodeSchema

/-- The names of the child fields, in order. -/
def fieldNames (schema : NodeSchema) : List String :=
  schema.fields.map ChildField.name

/-- Whether a node type has no children. -/
def isTerminal (schema : NodeSchema) : Bool :=
  schema.fields.isEmpty

end NodeSchema

namespace ChildField

/-- Gives a field a kind: in its old place if it is listed already, else at the end. -/
def put (name : String) (kind : FieldKind) : List ChildField -> List ChildField
  | [] => [⟨name, kind⟩]
  | field :: rest =>
      if field.name = name then ⟨name, kind⟩ :: rest else field :: put name kind rest

/-- Takes a field off the list. -/
def remove (name : String) : List ChildField -> List ChildField
  | [] => []
  | field :: rest => if field.name = name then rest else field :: remove name rest

end ChildField

namespace Registry

/-- The names that stand for aliases. -/
def aliasNames (registry : Registry) : List String :=
  registry.entries.filterMap fun (name, entry) =>
    match entry with
    | .alias _ => some name
    | _ => none

mutual

/-- Whether a type, on behalf of `owner`, mentions a node type. The aliases in
`expandable` may still be expanded; any other one is being expanded already. -/
def mentionsNode (registry : Registry) (owner : String) (expandable : List String)
    (type : FieldType) : Except SchemaError Bool :=
  match type with
  | .named name =>
      match registry.find? name with
      | some (.node _) => registry.isNodeType name
      | some (.alias target) =>
          if name ∈ expandable then
            registry.mentionsNode owner (expandable.erase name) target
          else .error (.aliasCycle name)
      | some .foreign => .ok false
      | none => .error (.unknownType owner name)
  | .optional inner => registry.mentionsNode owner expandable inner
  | .sequenceOf inner => registry.mentionsNode owner expandable inner
  | .union members => registry.anyMentionsNode owner expandable members
termination_by (expandable.length, sizeOf type)
decreasing_by
  · rename_i member
    have shorter := List.length_erase_of_mem member
    have positive := List.length_pos_of_mem member
    apply Prod.Lex.left
    omega
  all_goals
    apply Prod.Lex.right
    simp only [FieldType.optional.sizeOf_spec, FieldType.sequenceOf.sizeOf_spec,
      FieldType.union.sizeOf_spec]
    omega

/-- Whether some member of a union mentions a node type. Every member is looked at. -/
def anyMentionsNode (registry : Registry) (owner : String) (expandable : List String)
    (members : List FieldType) : Except SchemaError Bool :=
  match members with
  | [] => .ok false
  | member :: rest =>
      match registry.mentionsNode owner expandable member with
      | .error cause => .error cause
      | .ok first =>
          match registry.anyMentionsNode owner expandable rest with
          | .error cause => .error cause
          | .ok others => .ok (first || others)
termination_by (expandable.length, sizeOf members)

end

/-- How a field of a type holds its nodes, aliases expanded. -/
def kindOf (registry : Registry) (owner : String) (expandable : List String)
    (type : FieldType) : Except SchemaError FieldKind :=
  match type with
  | .sequenceOf _ => .ok .sequence
  | .optional _ => .ok .optional
  | .union _ => .ok .single
  | .named name =>
      match registry.find? name with
      | some (.alias target) =>
          if name ∈ expandable then registry.kindOf owner (expandable.erase name) target
          else .error (.aliasCycle name)
      | some _ => .ok .single
      | none => .error (.unknownType owner name)
termination_by expandable.length
decreasing_by
  rename_i member
  have shorter := List.length_erase_of_mem member
  have positive := List.length_pos_of_mem member
  omega

/-- How a field of a type holds its nodes, if it holds any. -/
def classify (registry : Registry) (owner : String) (type : FieldType) :
    Except SchemaError (Option FieldKind) := do
  if ← registry.mentionsNode owner registry.aliasNames type then
    return some (← registry.kindOf owner registry.aliasNames type)
  return none

/-- A node type and the types it extends, the most distant one first. At most
`steps` base types are followed. `origin` is the type that is asked about. -/
def lineage (registry : Registry) (origin : String) :
    (steps : Nat) -> (current : NodeDeclaration) -> Except SchemaError (List NodeDeclaration)
  | steps, current =>
      if current.base = nodeBase ∨ current.name = nodeBase then .ok [current]
      else
        match steps with
        | 0 => .error (.aliasCycle origin)
        | steps + 1 =>
            match registry.find? current.base with
            | some (.node parent) =>
                (registry.lineage origin steps parent).map (· ++ [current])
            | some _ => .error (.notANode current.base)
            | none => .error (.unknownType current.name current.base)

/-- The field declarations of a node type, inherited ones first. -/
def inheritedFields (registry : Registry) (declaration : NodeDeclaration) :
    Except SchemaError (List FieldDeclaration) := do
  let types ← registry.lineage declaration.name registry.entries.length declaration
  return types.flatMap NodeDeclaration.fields

/-- Takes a field declaration into the list of child fields. A later declaration
of a name replaces the kind of an earlier one, or takes it off the list. -/
def addField (registry : Registry) (owner : String) (fields : List ChildField)
    (declared : FieldDeclaration) : Except SchemaError (List ChildField) := do
  let kind ← if declared.ignored then pure none else registry.classify owner declared.type
  match kind with
  | some kind => return ChildField.put declared.name kind fields
  | none => return ChildField.remove declared.name fields

/-- The schema of a declared node type. -/
def resolve (registry : Registry) (declaration : NodeDeclaration) :
    Except SchemaError NodeSchema := do
  let declared ← registry.inheritedFields declaration
  let fields ← declared.foldlM (registry.addField declaration.name) []
  return ⟨declaration.name, fields⟩

/-- The schema of a name in a closed registry. -/
def schema (registry : Registry) (name : String) : Except SchemaError NodeSchema :=
  if registry.isClosed then
    match registry.find? name with
    | some (.node declaration) => registry.resolve declaration
    | some _ => .error (.notANode name)
    | none => .error (.unknownType nodeBase name)
  else .error (.notClosed name)

end Registry

end KiwiFront
