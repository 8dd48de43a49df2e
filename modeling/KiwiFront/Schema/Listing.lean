import KiwiFront.Schema.Ancestry
import KiwiFront.Schema.Resolution

/-!
# What a schema has to list

The field declarations of a node type are those of the types that it extends, the most distant
one first, and its own behind them. The last declaration of a name decides whether the name is
listed and how it holds its nodes. Where it is listed is decided by an earlier one: the first
declaration since the name was last given to a field that is no child. These relations say so
without building a list.
-/

namespace KiwiFront

/-- The last one of some field declarations with a name. -/
def FieldDeclaration.last? (declared : List FieldDeclaration) (name : String) :
    Option FieldDeclaration :=
  declared.reverse.find? (fun field => field.name = name)

namespace Registry

/-- The field declarations of a node type and of those that it extends, in order. -/
inductive Declares (registry : Registry) : String -> List FieldDeclaration -> Prop where
  | base : Declares registry nodeBase []
  | node {name declaration inherited}
      (declared : registry.find? name = some (.node declaration))
      (distinct : name ≠ nodeBase)
      (above : Declares registry declaration.base inherited) :
      Declares registry name (inherited ++ declaration.fields)

/-- A type mentions a name that comes down from the node base type. -/
def LeadsToNode (registry : Registry) (type : FieldType) : Prop :=
  ∃ name, registry.Mentions type name ∧ registry.Extends name nodeBase

/-- A field that is not to be ignored and whose type leads to a node type. -/
structure IsChild (registry : Registry) (field : FieldDeclaration) : Prop where
  kept : field.ignored = false
  leads : registry.LeadsToNode field.type

/-- How a type holds nodes: its outermost constructor tells, once leading aliases are expanded. -/
inductive Holds (registry : Registry) : FieldType -> FieldKind -> Prop where
  | sequenceOf {inner} : Holds registry (.sequenceOf inner) .sequence
  | optional {inner} : Holds registry (.optional inner) .optional
  | union {members} : Holds registry (.union members) .single
  | plain {name} (noAlias : ∀ target, registry.find? name ≠ some (.alias target)) :
      Holds registry (.named name) .single
  | expanded {synonym target kind}
      (declared : registry.find? synonym = some (.alias target))
      (below : Holds registry target kind) : Holds registry (.named synonym) kind

/-- A name has its place where it was declared first since it was last given to a field that is
no child: it is so declared there, all its declarations from there on are children, and the last
one before, if there is any, is not. -/
def Enters (registry : Registry) (declared : List FieldDeclaration) (name : String)
    (place : Nat) : Prop :=
  ∃ before first after, declared = before ++ first :: after ∧ before.length = place ∧
    first.name = name ∧
    (∀ field ∈ first :: after, field.name = name -> registry.IsChild field) ∧
    ∀ field, FieldDeclaration.last? before name = some field -> ¬ registry.IsChild field

/-- The place of a name comes before that of another one. -/
def Precedes (registry : Registry) (declared : List FieldDeclaration)
    (first second : String) : Prop :=
  ∃ place later, registry.Enters declared first place ∧ registry.Enters declared second later ∧
    place < later

variable {registry : Registry}

/-- A type has only one list of field declarations. -/
theorem Declares.unique {name : String} {declared other : List FieldDeclaration}
    (first : registry.Declares name declared) (second : registry.Declares name other) :
    declared = other := by
  induction first generalizing other with
  | base =>
      cases second with
      | base => rfl
      | node _ distinct => exact absurd rfl distinct
  | node found distinct _ inductionHypothesis =>
      cases second with
      | base => exact absurd rfl distinct
      | node foundToo _ above =>
          cases found.symm.trans foundToo
          rw [inductionHypothesis above]

/-- A type holds nodes in only one way. -/
theorem Holds.unique {type : FieldType} {kind other : FieldKind}
    (first : registry.Holds type kind) (second : registry.Holds type other) : kind = other := by
  induction first with
  | sequenceOf | optional | union =>
      cases second
      rfl
  | plain noAlias =>
      cases second with
      | plain => rfl
      | expanded declared => exact absurd declared (noAlias _)
  | expanded declared _ inductionHypothesis =>
      cases second with
      | plain noAlias => exact absurd declared (noAlias _)
      | expanded declaredToo below =>
          cases declared.symm.trans declaredToo
          exact inductionHypothesis below

end Registry

end KiwiFront
