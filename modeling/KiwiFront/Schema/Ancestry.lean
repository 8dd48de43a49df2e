import KiwiFront.Schema.Registry

/-!
# What declarations lead to

A node type leads to its base type, and a field type to every name that its parts and
the aliases among them mention. These relations say so without following anything:
`Registry.Extends` holds of the names on the way from a type upwards, and
`Registry.Mentions` of the names that a field type comes down to. In terms of them a
registry may have two kinds of circles, among base types and among aliases, and a type can
be resolved if all that it mentions is declared and none of it leads into a circle.
-/

namespace KiwiFront.Registry

/-- `Extends name ancestor` holds when declared node types lead from a name upwards
to another one. Every name extends itself. -/
inductive Extends (registry : Registry) : String -> String -> Prop where
  | refl {name} : Extends registry name name
  | step {name ancestor declaration}
      (declared : registry.find? name = some (.node declaration))
      (distinct : name ≠ nodeBase)
      (above : Extends registry declaration.base ancestor) : Extends registry name ancestor

/-- `Mentions type name` holds when a name stands within a type, aliases expanded. -/
inductive Mentions (registry : Registry) : FieldType -> String -> Prop where
  | named {name} : Mentions registry (.named name) name
  | expanded {synonym target name}
      (declared : registry.find? synonym = some (.alias target))
      (below : Mentions registry target name) : Mentions registry (.named synonym) name
  | optional {inner name} (below : Mentions registry inner name) :
      Mentions registry (.optional inner) name
  | sequenceOf {inner name} (below : Mentions registry inner name) :
      Mentions registry (.sequenceOf inner) name
  | union {members member name} (among : member ∈ members)
      (below : Mentions registry member name) : Mentions registry (.union members) name

/-- A field that a node type or one of those that it extends declares. -/
def Inherits (registry : Registry) (name : String) (field : FieldDeclaration) : Prop :=
  ∃ ancestor declaration, registry.Extends name ancestor ∧
    registry.find? ancestor = some (.node declaration) ∧ field ∈ declaration.fields

/-- Base types lead from a name to a node type and from there back to it. -/
def Circles (registry : Registry) (name : String) : Prop :=
  ∃ ancestor declaration, registry.Extends name ancestor ∧ ancestor ≠ nodeBase ∧
    registry.find? ancestor = some (.node declaration) ∧
    registry.Extends declaration.base ancestor

/-- An alias is mentioned by what it stands for. -/
def Loops (registry : Registry) (synonym : String) : Prop :=
  ∃ target, registry.find? synonym = some (.alias target) ∧ registry.Mentions target synonym

/-- Base types lead from a name neither to an undeclared name nor into a circle. They need not
lead to the node base type. -/
structure Grounded (registry : Registry) (name : String) : Prop where
  declared : ∀ ancestor, registry.Extends name ancestor -> registry.find? ancestor ≠ none
  straight : ¬ registry.Circles name

/-- A name that may be mentioned: it is declared, no alias that loops, and if it is a node type
its base types are in order. -/
structure InOrder (registry : Registry) (name : String) : Prop where
  declared : registry.find? name ≠ none
  straight : ¬ registry.Loops name
  grounded : ∀ declaration, registry.find? name = some (.node declaration) ->
    registry.Grounded name

/-- Every name that a type mentions is in order. -/
def Resolvable (registry : Registry) (type : FieldType) : Prop :=
  ∀ name, registry.Mentions type name -> registry.InOrder name

variable {registry : Registry}

theorem Extends.trans {name middle ancestor : String} (first : registry.Extends name middle)
    (second : registry.Extends middle ancestor) : registry.Extends name ancestor := by
  induction first with
  | refl => exact second
  | step declared distinct _ inductionHypothesis =>
      exact .step declared distinct (inductionHypothesis second)

/-- What is mentioned by an alias that a type mentions is mentioned by the type. -/
theorem Mentions.trans {type target : FieldType} {synonym name : String}
    (first : registry.Mentions type synonym)
    (declared : registry.find? synonym = some (.alias target))
    (second : registry.Mentions target name) : registry.Mentions type name := by
  induction first with
  | named => exact .expanded declared second
  | expanded outer _ inductionHypothesis => exact .expanded outer (inductionHypothesis declared)
  | optional _ inductionHypothesis => exact .optional (inductionHypothesis declared)
  | sequenceOf _ inductionHypothesis => exact .sequenceOf (inductionHypothesis declared)
  | union among _ inductionHypothesis => exact .union among (inductionHypothesis declared)

end KiwiFront.Registry
