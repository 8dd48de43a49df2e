import KiwiFront.Schema.Ancestry
import KiwiFront.Schema.Resolution
import Mathlib.Data.List.Perm.Subperm

/-!
# Following base types

Two walks follow the base types of a name, one to tell whether it is a node type and one to
collect the fields that it inherits. Both stop at the node base type, and both count their steps
to notice a circle. As many steps as there are declarations are enough: names that have been
passed are declared and lead on to where the walk stands, so that they are all different unless
base types go in a circle.
-/

namespace KiwiFront.Registry

variable {registry : Registry} {name ancestor origin culprit : String}
  {declaration : NodeDeclaration}

/-- The node base type is declared from the start, and node types under their own names. -/
structure WellFormed (registry : Registry) : Prop where
  base : registry.find? nodeBase = some (.node baseDeclaration)
  named : ∀ name declaration, registry.find? name = some (.node declaration) ->
    declaration.name = name

/-- An outcome is a value where a condition holds and an error where it does not, and it is a
circle that an error complains of as one. -/
inductive Decides (registry : Registry) (condition : Prop) {Result : Type} :
    Except SchemaError Result -> Prop
  | ok {value : Result} (holds : condition) : Decides registry condition (.ok value)
  | error {cause : SchemaError} (fails : ¬ condition)
      (circular : ∀ culprit, cause = .aliasCycle culprit ->
        registry.Loops culprit ∨ registry.Circles culprit) :
      Decides registry condition (.error cause)

namespace Decides

variable {condition other : Prop} {Result Next : Type} {outcome : Except SchemaError Result}

/-- A decided outcome is a success exactly under its condition. -/
theorem ok_iff (decides : registry.Decides condition outcome) :
    (∃ value, outcome = .ok value) ↔ condition := by
  cases decides with
  | ok holds => exact ⟨fun _ => holds, fun _ => ⟨_, rfl⟩⟩
  | error fails => exact ⟨nofun, fun holds => absurd holds fails⟩

/-- A cycle is reported only for a name that the declarations really lead around to itself. -/
theorem circular (decides : registry.Decides condition outcome)
    (failed : outcome = .error (.aliasCycle culprit)) :
    registry.Loops culprit ∨ registry.Circles culprit := by
  cases decides with
  | ok => cases failed
  | error _ circular => exact circular culprit (Except.error.inj failed)

/-- The condition may be replaced by an equivalent one. -/
theorem congr (decides : registry.Decides condition outcome) (same : condition ↔ other) :
    registry.Decides other outcome :=
  propext same ▸ decides

/-- A computation that goes on only with a value decides both conditions. -/
theorem bind (decides : registry.Decides condition outcome)
    {next : Result -> Except SchemaError Next}
    (later : ∀ value, outcome = .ok value -> registry.Decides other (next value)) :
    registry.Decides (condition ∧ other) (outcome >>= next) := by
  cases decides with
  | @ok value holds => exact (later value rfl).congr (and_iff_right holds).symm
  | error fails circular => exact .error (fun both => fails both.1) circular

end Decides

/-- What is found is among the entries. -/
theorem mem_of_find? {entry : TypeEntry} (found : registry.find? name = some entry) :
    (name, entry) ∈ registry.entries := by
  obtain ⟨before, after, split, _⟩ := List.lookup_eq_some_iff.1 found
  rw [split]
  exact List.mem_append_right _ (List.mem_cons_self ..)

namespace Extends

/-- Nothing is above the node base type. -/
theorem eq_of_base (above : registry.Extends nodeBase ancestor) : ancestor = nodeBase := by
  cases above with
  | refl => rfl
  | step _ distinct => exact absurd rfl distinct

/-- Above a node type are its base type and all that is above that. -/
theorem of_node (above : registry.Extends name ancestor)
    (found : registry.find? name = some (.node declaration)) :
    ancestor = name ∨ registry.Extends declaration.base ancestor := by
  cases above with
  | refl => exact .inl rfl
  | step declared _ above =>
      cases declared.symm.trans found
      exact .inr above

/-- Nothing is above what is no node type. -/
theorem eq_of_other (above : registry.Extends name ancestor)
    (other : ∀ declaration, registry.find? name ≠ some (.node declaration)) : ancestor = name := by
  cases above with
  | refl => rfl
  | step declared => exact absurd declared (other _)

end Extends

/-- A circle above the base type is a circle above the type. -/
theorem Circles.of_base (declared : registry.find? name = some (.node declaration))
    (distinct : name ≠ nodeBase) (circles : registry.Circles declaration.base) :
    registry.Circles name := by
  obtain ⟨ancestor, parent, reaches, notBase, found, back⟩ := circles
  exact ⟨ancestor, parent, .step declared distinct reaches, notBase, found, back⟩

/-- A circle above the type, even one through the type itself, is a circle above the base type. -/
theorem Circles.base (circles : registry.Circles name)
    (declared : registry.find? name = some (.node declaration)) :
    registry.Circles declaration.base := by
  obtain ⟨ancestor, parent, reaches, notBase, found, back⟩ := circles
  rcases reaches.of_node declared with rfl | reaches
  · cases declared.symm.trans found
    exact ⟨_, _, back, notBase, found, back⟩
  · exact ⟨ancestor, parent, reaches, notBase, found, back⟩

/-- Base types that lead to the node base type go straight there. -/
theorem Extends.straight (above : registry.Extends name nodeBase) : ¬ registry.Circles name := by
  generalize isBase : nodeBase = base at above
  induction above with
  | refl =>
      subst isBase
      rintro ⟨ancestor, _, reaches, notBase, _⟩
      exact notBase reaches.eq_of_base
  | step declared _ above inductionHypothesis =>
      exact fun circles => inductionHypothesis isBase (circles.base declared)

namespace Grounded

/-- The base type of all nodes is grounded in itself. -/
theorem nodeBase (wellFormed : registry.WellFormed) : registry.Grounded nodeBase := by
  refine ⟨fun ancestor above => ?_, Extends.straight .refl⟩
  rw [above.eq_of_base, wellFormed.base]
  exact nofun

/-- A name that is declared as something other than a node has no base to follow. -/
theorem of_other (declared : registry.find? name ≠ none)
    (other : ∀ declaration, registry.find? name ≠ some (.node declaration)) :
    registry.Grounded name := by
  refine ⟨fun ancestor above => above.eq_of_other other ▸ declared, ?_⟩
  rintro ⟨ancestor, declaration, above, _, isNode, _⟩
  exact other declaration (above.eq_of_other other ▸ isNode)

/-- A node type is grounded when its base type is. -/
theorem of_node (found : registry.find? name = some (.node declaration))
    (base : registry.Grounded declaration.base) : registry.Grounded name := by
  refine ⟨fun ancestor above => ?_, fun circles => base.straight (circles.base found)⟩
  rcases above.of_node found with rfl | above
  · rw [found]
    exact nofun
  · exact base.declared ancestor above

end Grounded

/-- Distinct node types that all lead to a name. -/
structure Trail (registry : Registry) (passed : List String) (current : String) : Prop where
  distinct : passed.Nodup
  leads : ∀ name ∈ passed, ∃ declaration, registry.find? name = some (.node declaration) ∧
    name ≠ nodeBase ∧ registry.Extends declaration.base current

namespace Trail

variable {passed : List String} {current : String}

/-- Before the first step no name has been passed. -/
theorem start : registry.Trail [] current :=
  ⟨List.nodup_nil, nofun⟩

/-- A walk that goes in no circle has not passed the name where it stands. -/
theorem step (trail : registry.Trail passed current) (straight : ¬ registry.Circles current)
    (found : registry.find? current = some (.node declaration)) (notBase : current ≠ nodeBase) :
    registry.Trail (current :: passed) declaration.base := by
  refine ⟨List.nodup_cons.2 ⟨fun member => ?_, trail.distinct⟩, List.forall_mem_cons.2 ⟨?_, ?_⟩⟩
  · obtain ⟨same, foundToo, _, back⟩ := trail.leads current member
    exact straight ⟨current, same, .refl, notBase, foundToo, back⟩
  · exact ⟨declaration, found, notBase, .refl⟩
  · intro name member
    obtain ⟨earlier, foundToo, distinct, leads⟩ := trail.leads name member
    exact ⟨earlier, foundToo, distinct, leads.trans (.step found notBase .refl)⟩

/-- There are not more names on it than declarations. -/
theorem length_le (trail : registry.Trail passed current) :
    passed.length ≤ registry.entries.length := by
  have declared : passed ⊆ registry.entries.map Prod.fst := fun name member => by
    obtain ⟨_, found, _⟩ := trail.leads name member
    exact List.mem_map.2 ⟨_, mem_of_find? found, rfl⟩
  simpa using (List.subperm_of_subset trail.distinct declared).length_le

end Trail

section Walks

variable {passed : List String} {current : String} {steps : Nat} {isNode : Bool}

/-- A walk that goes straight ends, and fails only where a name is missing. -/
theorem reachesBase_of_straight (trail : registry.Trail passed current)
    (straight : ¬ registry.Circles current)
    (enough : registry.entries.length < steps + passed.length) :
    (∃ isNode, registry.reachesBase origin steps current = .ok isNode) ∨
    ∃ missing, registry.Extends current missing ∧ registry.find? missing = none ∧
      registry.reachesBase origin steps current = .error (.unknownType origin missing) := by
  induction steps generalizing passed current with
  | zero =>
      have bounded := trail.length_le
      omega
  | succ steps inductionHypothesis =>
      rw [reachesBase]
      by_cases isBase : current = nodeBase
      · exact .inl ⟨true, if_pos isBase⟩
      rw [if_neg isBase]
      cases found : registry.find? current with
      | none => exact .inr ⟨current, .refl, found, rfl⟩
      | some entry =>
          cases entry with
          | node declaration =>
              have straightAbove := fun circles => straight (Circles.of_base found isBase circles)
              rcases inductionHypothesis (trail.step straight found isBase) straightAbove
                  (by rw [List.length_cons]; omega) with ends | ⟨missing, above, isMissing, fails⟩
              · exact .inl ends
              · exact .inr ⟨missing, .step found isBase above, isMissing, fails⟩
          | _ => exact .inl ⟨false, rfl⟩

/-- A walk that ends has met all names that there are above. -/
theorem grounded_of_reachesBase (wellFormed : registry.WellFormed)
    (ended : registry.reachesBase origin steps current = .ok isNode) :
    registry.Grounded current := by
  induction steps generalizing current with
  | zero => cases ended
  | succ steps inductionHypothesis =>
      rw [reachesBase] at ended
      split at ended
      · rename_i isBase
        exact isBase ▸ .nodeBase wellFormed
      · split at ended
        · rename_i declaration found
          exact .of_node found (inductionHypothesis ended)
        · rename_i entry other found
          refine .of_other (by rw [found]; exact nofun) fun declaration isNode => ?_
          exact other declaration (Option.some.inj (found.symm.trans isNode))
        · cases ended

/-- It is the name that was asked about that is said to go in a circle. -/
theorem eq_origin_of_reachesBase
    (failed : registry.reachesBase origin steps current = .error (.aliasCycle culprit)) :
    culprit = origin := by
  induction steps generalizing current with
  | zero =>
      cases failed
      rfl
  | succ steps inductionHypothesis =>
      rw [reachesBase] at failed
      split at failed
      · cases failed
      · split at failed
        · exact inductionHypothesis failed
        · cases failed
        · cases failed

/-- Whether a name is a node type can be told if its base types are in order. -/
theorem isNodeType_decides (wellFormed : registry.WellFormed) (name : String) :
    registry.Decides (registry.Grounded name) (registry.isNodeType name) := by
  cases outcome : registry.isNodeType name with
  | ok isNode => exact .ok (grounded_of_reachesBase wellFormed outcome)
  | error cause =>
      by_cases circles : registry.Circles name
      · refine .error (fun grounded => grounded.straight circles) fun culprit isCycle => .inr ?_
        rw [eq_origin_of_reachesBase (outcome.trans (congrArg Except.error isCycle))]
        exact circles
      · rcases reachesBase_of_straight .start circles (Nat.lt_succ_self _) with
          ⟨isNode, ended⟩ | ⟨missing, above, isMissing, fails⟩
        · cases outcome.symm.trans ended
        · cases outcome.symm.trans fails
          exact .error (fun grounded => grounded.declared missing above isMissing) nofun

end Walks

section Lineages

variable {passed : List String} {steps : Nat} {types : List NodeDeclaration}
  {field : FieldDeclaration}

/-- The base type of all nodes declares no fields and has nothing above it. -/
theorem not_inherits_nodeBase (wellFormed : registry.WellFormed) :
    ¬ registry.Inherits nodeBase field := by
  rintro ⟨ancestor, declaration, above, found, member⟩
  rw [above.eq_of_base, wellFormed.base] at found
  cases found
  cases member

/-- A node type inherits its own fields beside those that its base type inherits. -/
theorem inherits_iff (found : registry.find? name = some (.node declaration))
    (distinct : name ≠ nodeBase) :
    registry.Inherits name field ↔
      registry.Inherits declaration.base field ∨ field ∈ declaration.fields := by
  constructor
  · rintro ⟨ancestor, parent, above, isNode, member⟩
    rcases above.of_node found with rfl | above
    · cases found.symm.trans isNode
      exact .inr member
    · exact .inl ⟨ancestor, parent, above, isNode, member⟩
  · rintro (⟨ancestor, parent, above, isNode, member⟩ | member)
    · exact ⟨ancestor, parent, .step found distinct above, isNode, member⟩
    · exact ⟨name, declaration, .refl, found, member⟩

/-- The node types that have been collected above a name come up to the node base type, and
their fields are those that the name inherits. -/
def Collects (registry : Registry) (name : String) (types : List NodeDeclaration) : Prop :=
  registry.Extends name nodeBase ∧
    ∀ field, field ∈ types.flatMap NodeDeclaration.fields ↔ registry.Inherits name field

/-- A node type right below the base type of all nodes is all there is to collect. -/
theorem Collects.last (wellFormed : registry.WellFormed)
    (found : registry.find? name = some (.node declaration))
    (isLast : declaration.base = nodeBase ∨ declaration.name = nodeBase) :
    registry.Collects name [declaration] := by
  by_cases isBase : name = nodeBase
  · subst isBase
    cases wellFormed.base.symm.trans found
    exact ⟨.refl, fun field =>
      iff_of_false List.not_mem_nil (not_inherits_nodeBase wellFormed)⟩
  · have baseIsLast : declaration.base = nodeBase :=
      isLast.resolve_right fun named => isBase ((wellFormed.named name _ found).symm.trans named)
    refine ⟨.step found isBase (baseIsLast ▸ .refl), fun field => ?_⟩
    rw [inherits_iff found isBase, baseIsLast, List.flatMap_singleton]
    exact (or_iff_right (not_inherits_nodeBase wellFormed)).symm

/-- Every other node type is added behind those that its base type collects. -/
theorem Collects.concat (found : registry.find? name = some (.node declaration))
    (distinct : name ≠ nodeBase) (above : registry.Collects declaration.base types) :
    registry.Collects name (types ++ [declaration]) := by
  refine ⟨.step found distinct above.1, fun field => ?_⟩
  rw [List.flatMap_append, List.mem_append, above.2, List.flatMap_singleton,
    inherits_iff found distinct]

/-- What collecting a lineage comes to: it is complete, the steps are used up, or the base type is
no node type. -/
inductive Lineage (registry : Registry) (origin : String) :
    (steps : Nat) -> NodeDeclaration -> Except SchemaError (List NodeDeclaration) -> Prop
  | last {steps : Nat} {declaration : NodeDeclaration}
      (isLast : declaration.base = nodeBase ∨ declaration.name = nodeBase) :
      Lineage registry origin steps declaration (.ok [declaration])
  | spent {declaration : NodeDeclaration}
      (goesOn : ¬ (declaration.base = nodeBase ∨ declaration.name = nodeBase)) :
      Lineage registry origin 0 declaration (.error (.aliasCycle origin))
  | above {steps : Nat} {declaration parent : NodeDeclaration} {types : List NodeDeclaration}
      (goesOn : ¬ (declaration.base = nodeBase ∨ declaration.name = nodeBase))
      (isParent : registry.find? declaration.base = some (.node parent))
      (walked : Lineage registry origin steps parent (.ok types)) :
      Lineage registry origin (steps + 1) declaration (.ok (types ++ [declaration]))
  | failed {steps : Nat} {declaration parent : NodeDeclaration} {cause : SchemaError}
      (goesOn : ¬ (declaration.base = nodeBase ∨ declaration.name = nodeBase))
      (isParent : registry.find? declaration.base = some (.node parent))
      (walked : Lineage registry origin steps parent (.error cause)) :
      Lineage registry origin (steps + 1) declaration (.error cause)
  | stray {steps : Nat} {declaration : NodeDeclaration} {cause : SchemaError}
      (goesOn : ¬ (declaration.base = nodeBase ∨ declaration.name = nodeBase))
      (other : ∀ parent, registry.find? declaration.base ≠ some (.node parent))
      (noCycle : ∀ culprit, cause ≠ .aliasCycle culprit) :
      Lineage registry origin (steps + 1) declaration (.error cause)

/-- The lineage of a declaration is the one walk that its relation describes, by induction on the
steps. -/
theorem lineage_walks (registry : Registry) (origin : String) (steps : Nat)
    (declaration : NodeDeclaration) :
    registry.Lineage origin steps declaration (registry.lineage origin steps declaration) := by
  induction steps generalizing declaration with
  | zero =>
      rw [lineage]
      split
      · rename_i isLast
        exact .last isLast
      · rename_i goesOn
        exact .spent goesOn
  | succ steps inductionHypothesis =>
      rw [lineage]
      split
      · rename_i isLast
        exact .last isLast
      · rename_i goesOn
        cases found : registry.find? declaration.base with
        | none => exact .stray goesOn (by simp [found]) nofun
        | some entry =>
            cases entry with
            | node parent =>
                have walked := inductionHypothesis parent
                dsimp only
                generalize registry.lineage origin steps parent = outcome at walked ⊢
                cases outcome with
                | ok types => exact .above goesOn found walked
                | error cause => exact .failed goesOn found walked
            | _ => exact .stray goesOn (by simp [found]) nofun

namespace Lineage

variable {outcome : Except SchemaError (List NodeDeclaration)}

/-- A walk that goes on does not stand at the base of all nodes. -/
theorem ne_nodeBase (wellFormed : registry.WellFormed)
    (found : registry.find? name = some (.node declaration))
    (goesOn : ¬ (declaration.base = nodeBase ∨ declaration.name = nodeBase)) : name ≠ nodeBase :=
  fun isBase => goesOn (.inr ((wellFormed.named name declaration found).trans isBase))

/-- A walk that ends has collected the types from the outermost base down to the origin. -/
theorem collects (wellFormed : registry.WellFormed)
    (walked : registry.Lineage origin steps declaration outcome)
    (found : registry.find? name = some (.node declaration)) (ends : outcome = .ok types) :
    registry.Collects name types := by
  induction walked generalizing name types with
  | last isLast =>
      cases ends
      exact .last wellFormed found isLast
  | above goesOn isParent _ inductionHypothesis =>
      cases ends
      exact .concat found (ne_nodeBase wellFormed found goesOn) (inductionHypothesis isParent rfl)
  | spent | failed | stray => cases ends

/-- It is the name that was asked about that is said to go in a circle. -/
theorem eq_origin (walked : registry.Lineage origin steps declaration outcome)
    (failed : outcome = .error (.aliasCycle culprit)) : culprit = origin := by
  induction walked with
  | last | above => cases failed
  | spent =>
      cases failed
      rfl
  | failed _ _ _ inductionHypothesis => exact inductionHypothesis failed
  | stray _ _ noCycle => exact absurd (Except.error.inj failed) (noCycle culprit)

/-- A walk that goes straight fails only on the way to another place than the node base type, and
does not complain of a circle. -/
theorem fails_of_straight (wellFormed : registry.WellFormed)
    (walked : registry.Lineage origin steps declaration outcome)
    (found : registry.find? name = some (.node declaration))
    (trail : registry.Trail passed name) (straight : ¬ registry.Circles name)
    (enough : registry.entries.length ≤ steps + passed.length) {cause : SchemaError}
    (failed : outcome = .error cause) :
    ¬ registry.Extends name nodeBase ∧ ∀ culprit, cause ≠ .aliasCycle culprit := by
  induction walked generalizing name passed with
  | last | above => cases failed
  | spent goesOn =>
      have bounded := (trail.step straight found (ne_nodeBase wellFormed found goesOn)).length_le
      rw [List.length_cons] at bounded
      omega
  | failed goesOn isParent _ inductionHypothesis =>
      have distinct := ne_nodeBase wellFormed found goesOn
      have straightThere := fun circles => straight (Circles.of_base found distinct circles)
      obtain ⟨notAbove, noCycle⟩ := inductionHypothesis isParent
        (trail.step straight found distinct) straightThere (by rw [List.length_cons]; omega) failed
      exact ⟨fun above => notAbove ((above.of_node found).resolve_left distinct.symm), noCycle⟩
  | stray goesOn other noCycle =>
      cases failed
      refine ⟨fun above => goesOn (.inl ?_), noCycle⟩
      have distinct := ne_nodeBase wellFormed found goesOn
      exact (((above.of_node found).resolve_left distinct.symm).eq_of_other other).symm

end Lineage

/-- The fields that a type inherits can be told if base types lead from it to the node base
type. -/
theorem inheritedFields_decides (wellFormed : registry.WellFormed)
    (found : registry.find? name = some (.node declaration)) :
    registry.Decides (registry.Extends name nodeBase) (registry.inheritedFields declaration) := by
  have walked := registry.lineage_walks declaration.name registry.entries.length declaration
  rw [inheritedFields]
  generalize registry.lineage declaration.name registry.entries.length declaration = outcome
    at walked ⊢
  cases outcome with
  | ok types => exact .ok (walked.collects wellFormed found rfl).1
  | error cause =>
      by_cases circles : registry.Circles name
      · refine .error (fun above => above.straight circles) fun culprit isCycle => .inr ?_
        rw [walked.eq_origin (congrArg Except.error isCycle),
          wellFormed.named name declaration found]
        exact circles
      · obtain ⟨notAbove, noCycle⟩ := walked.fails_of_straight wellFormed found .start circles
          (Nat.le_add_right _ _) rfl
        exact .error notAbove fun culprit isCycle => absurd isCycle (noCycle culprit)

/-- The inherited fields that are listed are exactly those that some type above declares. -/
theorem mem_inheritedFields (wellFormed : registry.WellFormed)
    (found : registry.find? name = some (.node declaration)) {fields : List FieldDeclaration}
    (inherited : registry.inheritedFields declaration = .ok fields) :
    field ∈ fields ↔ registry.Inherits name field := by
  have walked := registry.lineage_walks declaration.name registry.entries.length declaration
  rw [inheritedFields] at inherited
  generalize registry.lineage declaration.name registry.entries.length declaration = outcome
    at walked inherited
  cases outcome with
  | error => cases inherited
  | ok types =>
      cases inherited
      exact (walked.collects wellFormed found rfl).2 field

end Lineages

end KiwiFront.Registry
