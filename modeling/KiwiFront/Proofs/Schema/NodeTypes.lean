import KiwiFront.Proofs.Schema.ChildFields

/-!
# Which names are node types

Base types lead from a name to one place where they end, or else in a circle. Where they end is the
node base type, a name that stands for something else, or a name without a declaration.
`Registry.Extends` and `Registry.Circles` say so without counting steps. The walk that counts them
answers what they say, and never runs out of steps on the way to an end.
-/

namespace KiwiFront

namespace Registry

variable {registry : Registry} {name last other : String} {declaration : NodeDeclaration}
  {outcome : Except SchemaError Bool}

/-- Base types lead from a name to another one and from there no further. -/
structure EndsAt (registry : Registry) (name last : String) : Prop where
  above : registry.Extends name last
  final : ∀ declaration, registry.find? last = some (.node declaration) -> last = nodeBase

namespace EndsAt

theorem nodeBase (above : registry.Extends name nodeBase) : registry.EndsAt name nodeBase :=
  ⟨above, fun _ _ => rfl⟩

theorem of_other (above : registry.Extends name last)
    (isOther : ∀ declaration, registry.find? last ≠ some (.node declaration)) :
    registry.EndsAt name last :=
  ⟨above, fun declaration isNode => absurd isNode (isOther declaration)⟩

/-- Base types end where those of the base type do. -/
theorem base (ends : registry.EndsAt name last)
    (declared : registry.find? name = some (.node declaration))
    (distinct : name ≠ KiwiFront.nodeBase) : registry.EndsAt declaration.base last := by
  refine ⟨(ends.above.of_node declared).resolve_left ?_, ends.final⟩
  rintro rfl
  exact distinct (ends.final declaration declared)

/-- Base types end in one place. -/
theorem unique (first : registry.EndsAt name last) (second : registry.EndsAt name other) :
    last = other := by
  obtain ⟨above, final⟩ := first
  induction above with
  | @refl name =>
      cases second.above with
      | refl => rfl
      | step declared distinct => exact absurd (final _ declared) distinct
  | step declared distinct _ inductionHypothesis =>
      exact inductionHypothesis (second.base declared distinct) final

/-- Base types that end somewhere go in no circle. -/
theorem straight (ends : registry.EndsAt name last) : ¬ registry.Circles name := by
  obtain ⟨above, final⟩ := ends
  induction above with
  | @refl name =>
      rintro ⟨ancestor, declaration, above, distinct, declared, _⟩
      cases above with
      | refl => exact distinct (final declaration declared)
      | step found notBase => exact notBase (final _ found)
  | step declared _ _ inductionHypothesis =>
      exact fun circles => inductionHypothesis final (circles.base declared)

end EndsAt

/-- What following base types from a name comes to. -/
inductive Followed (registry : Registry) (name : String) : Except SchemaError Bool -> Prop
  | nodeType (above : registry.Extends name nodeBase) : Followed registry name (.ok true)
  | otherType {last entry} (above : registry.Extends name last)
      (declared : registry.find? last = some entry)
      (isOther : ∀ declaration, entry ≠ .node declaration) : Followed registry name (.ok false)
  | undeclared {missing} (above : registry.Extends name missing)
      (isMissing : registry.find? missing = none) :
      Followed registry name (.error (.unknownType name missing))
  | circle (circles : registry.Circles name) : Followed registry name (.error (.aliasCycle name))

namespace Followed

/-- Unless base types go in a circle, what stands at their end decides. -/
theorem cases_end (wellFormed : registry.WellFormed) (followed : registry.Followed name outcome) :
    (outcome = .error (.aliasCycle name) ∧ registry.Circles name) ∨
    ∃ last, registry.EndsAt name last ∧
      outcome = match registry.find? last with
        | some (.node _) => .ok true
        | some _ => .ok false
        | none => .error (.unknownType name last) := by
  cases followed with
  | nodeType above => exact .inr ⟨nodeBase, .nodeBase above, by rw [wellFormed.base]⟩
  | @otherType last entry above declared isOther =>
      refine .inr ⟨last, .of_other above fun declaration isNode => ?_, ?_⟩
      · exact isOther declaration (Option.some.inj (declared.symm.trans isNode))
      · rw [declared]
        cases entry with
        | node declaration => exact absurd rfl (isOther declaration)
        | _ => rfl
  | @undeclared missing above isMissing =>
      refine .inr ⟨missing, .of_other above fun declaration isNode => ?_, by rw [isMissing]⟩
      cases isMissing.symm.trans isNode
  | circle circles => exact .inl ⟨rfl, circles⟩

/-- Following base types has one outcome. -/
theorem unique (wellFormed : registry.WellFormed) {another : Except SchemaError Bool}
    (first : registry.Followed name outcome) (second : registry.Followed name another) :
    outcome = another := by
  rcases first.cases_end wellFormed with ⟨rfl, circles⟩ | ⟨last, ends, rfl⟩
  · rcases second.cases_end wellFormed with ⟨rfl, _⟩ | ⟨_, ends, _⟩
    · rfl
    · exact absurd circles ends.straight
  · rcases second.cases_end wellFormed with ⟨_, circles⟩ | ⟨_, endsToo, rfl⟩
    · exact absurd circles ends.straight
    · rw [ends.unique endsToo]

end Followed

/-- A walk answers what it comes to, unless it runs out of steps. -/
theorem reachesBase_follows {origin current : String} (steps : Nat)
    (above : registry.Extends origin current) :
    registry.reachesBase origin steps current = .error (.aliasCycle origin) ∨
      registry.Followed origin (registry.reachesBase origin steps current) := by
  induction steps generalizing current with
  | zero => exact .inl rfl
  | succ steps inductionHypothesis =>
      rw [reachesBase]
      by_cases isBase : current = nodeBase
      · rw [if_pos isBase]
        exact .inr (.nodeType (isBase ▸ above))
      rw [if_neg isBase]
      cases found : registry.find? current with
      | none => exact .inr (.undeclared above found)
      | some entry =>
          cases entry with
          | node declaration => exact inductionHypothesis (above.trans (.step found isBase .refl))
          | _ => exact .inr (.otherType above found fun _ isNode => by cases isNode)

/-- More steps than there are declarations are enough for every walk. -/
theorem reachesBase_followed {steps : Nat} (enough : registry.entries.length < steps)
    (name : String) : registry.Followed name (registry.reachesBase name steps name) := by
  rcases reachesBase_follows steps .refl with spent | followed
  · by_cases circles : registry.Circles name
    · rw [spent]
      exact .circle circles
    -- A walk that goes in no circle does not run out of steps.
    · rcases reachesBase_of_straight .start circles (Nat.lt_add_right _ enough) with
        ⟨_, ended⟩ | ⟨_, _, _, fails⟩
      · cases spent.symm.trans ended
      · cases spent.symm.trans fails
  · exact followed

theorem isNodeType_followed (registry : Registry) (name : String) :
    registry.Followed name (registry.isNodeType name) :=
  reachesBase_followed (Nat.lt_succ_self _) name

/-- The outcome that is computed is the one that following base types has. -/
theorem isNodeType_eq_iff (wellFormed : registry.WellFormed) :
    registry.isNodeType name = outcome ↔ registry.Followed name outcome := by
  constructor
  · rintro rfl
    exact registry.isNodeType_followed name
  · exact (registry.isNodeType_followed name).unique wellFormed

/-- Only a node type has a schema. -/
theorem extends_of_schema (wellFormed : registry.WellFormed) {schema : NodeSchema}
    (resolved : registry.schema name = .ok schema) : registry.Extends name nodeBase := by
  obtain ⟨_, declaration, found, resolved⟩ := schema_eq_ok_iff.1 resolved
  exact ((resolve_decides wellFormed found).ok_iff.1 ⟨schema, resolved⟩).1

end Registry

namespace Catalog

/-- Whatever has been declared so far, closed or not, a name is told to be a node type just if base
types lead from it to the node base type, and no node type just if they lead to an alias or a
foreign type. It is an error just if they lead to a name that is not declared, which the error
tells, or in a circle. More steps than are allowed would change nothing. All names with schemas are
node types. -/
theorem isNodeType_exact (requests : List Request) (name : String) :
    let registry := (empty.after requests).registry
    let outcome := registry.isNodeType name
    (outcome = .ok true ↔ registry.Extends name nodeBase) ∧
    (outcome = .ok false ↔ ∃ last, registry.Extends name last ∧
      ((∃ target, registry.find? last = some (.alias target)) ∨
        registry.find? last = some .foreign)) ∧
    (∀ cause, outcome = .error cause ↔
      (∃ missing, cause = .unknownType name missing ∧ registry.Extends name missing ∧
        registry.find? missing = none) ∨
      (cause = .aliasCycle name ∧ registry.Circles name)) ∧
    (∀ steps, registry.entries.length < steps ->
      registry.reachesBase name steps name = outcome) ∧
    ∀ schema, ((empty.after requests).schema name).1 = .ok schema -> outcome = .ok true := by
  intro registry outcome
  have wellFormed : registry.WellFormed := wellFormed_after requests
  -- What is computed is read off the way that base types lead.
  have told : ∀ {answer}, outcome = answer ↔ registry.Followed name answer :=
    Registry.isNodeType_eq_iff wellFormed
  have isTrue : outcome = .ok true ↔ registry.Extends name nodeBase := by
    rw [told]
    constructor
    · rintro ⟨above⟩
      exact above
    · exact .nodeType
  refine ⟨isTrue, ?_, fun cause => ?_, fun steps enough => ?_, fun schema resolved => ?_⟩
  · rw [told]
    constructor
    · rintro (_ | @⟨last, entry, above, declared, isOther⟩)
      rcases entry with declaration | target | _
      · exact absurd rfl (isOther declaration)
      · exact ⟨last, above, .inl ⟨target, declared⟩⟩
      · exact ⟨last, above, .inr declared⟩
    · rintro ⟨last, above, ⟨target, declared⟩ | declared⟩
      · exact .otherType above declared nofun
      · exact .otherType above declared nofun
  · rw [told]
    constructor
    · intro followed
      cases followed with
      | undeclared above isMissing => exact .inl ⟨_, rfl, above, isMissing⟩
      | circle circles => exact .inr ⟨rfl, circles⟩
    · rintro (⟨missing, rfl, above, isMissing⟩ | ⟨rfl, circles⟩)
      · exact .undeclared above isMissing
      · exact .circle circles
  · exact (Registry.reachesBase_followed enough name).unique wellFormed
      (registry.isNodeType_followed name)
  · rw [((Sound.empty.after requests).schema name).1] at resolved
    exact isTrue.2 (Registry.extends_of_schema wellFormed resolved)

/-- Two types that extend each other go in a circle however many steps are made, and a lost base
type is told by its name, not by that of the type which refers to it. -/
theorem isNodeType_exact_of_ring :
    let requests : List Request := [.declare (.node ⟨"Left", "Right", []⟩),
      .declare (.node ⟨"Right", "Left", []⟩), .declare (.node ⟨"Leaf", nodeBase, []⟩),
      .declare (.node ⟨"Twig", "Branch", []⟩), .declare (.node ⟨"Stray", "Twig", []⟩), .close]
    let catalog := empty.after requests
    catalog.registry.Circles "Left" ∧
      catalog.registry.entries.length < 100 ∧
      catalog.registry.reachesBase "Left" 100 "Left" = .error (.aliasCycle "Left") ∧
      catalog.registry.isNodeType "Stray" = .error (.unknownType "Stray" "Branch") ∧
      catalog.registry.Extends "Stray" "Branch" ∧
      (catalog.schema "Leaf").1 = .ok ⟨"Leaf", []⟩ ∧
      catalog.registry.isNodeType "Leaf" = .ok true := by
  intro requests catalog
  have bounded : catalog.registry.entries.length < 100 := by cbv
  have goesRound : catalog.registry.isNodeType "Left" = .error (.aliasCycle "Left") := by cbv
  have isLost : catalog.registry.isNodeType "Stray" = .error (.unknownType "Stray" "Branch") := by
    cbv
  have resolved : (catalog.schema "Leaf").1 = .ok ⟨"Leaf", []⟩ := by cbv
  obtain ⟨-, -, failsLeft, moreSteps, -⟩ := isNodeType_exact requests "Left"
  obtain ⟨-, -, failsStray, -, -⟩ := isNodeType_exact requests "Stray"
  obtain ⟨-, -, -, -, hasSchema⟩ := isNodeType_exact requests "Leaf"
  have circles : catalog.registry.Circles "Left" := by
    rcases (failsLeft _).1 goesRound with ⟨_, ⟨⟩, _⟩ | ⟨_, circles⟩
    exact circles
  have above : catalog.registry.Extends "Stray" "Branch" := by
    rcases (failsStray _).1 isLost with ⟨_, ⟨⟩, above, _⟩ | ⟨⟨⟩, _⟩
    exact above
  exact ⟨circles, bounded, (moreSteps 100 bounded).trans goesRound, isLost, above, resolved,
    hasSchema _ resolved⟩

end Catalog

end KiwiFront
