import KiwiFront.Proofs.Schema.BaseTypes
import KiwiFront.Proofs.Schema.Catalog

/-!
# Which schemas can be resolved

A schema can be resolved just if the base types of its node type lead to the node base type and
all that the fields on the way mention is in order. Expanding an alias takes it off the list of
those that may still be expanded, so that resolving ends on every registry; an alias that is not
on that list any more and comes up again is one that its own target mentions. An alias that comes
up again beside its expansion is still on the list.
-/

namespace KiwiFront

namespace Registry

variable {registry : Registry} {owner name synonym : String} {type target inner : FieldType}
  {expandable : List String} {members : List FieldType} {declaration : NodeDeclaration}

/-- A synonym mentions itself and whatever its target mentions. -/
theorem mentions_named_iff : registry.Mentions (.named synonym) name ↔ name = synonym ∨
    ∃ target, registry.find? synonym = some (.alias target) ∧ registry.Mentions target name := by
  constructor
  · intro mentions
    cases mentions with
    | named => exact .inl rfl
    | expanded declared below => exact .inr ⟨_, declared, below⟩
  · rintro (rfl | ⟨target, declared, below⟩)
    · exact .named
    · exact .expanded declared below

/-- An optional type mentions what its inner type does. -/
theorem mentions_optional_iff :
    registry.Mentions (.optional inner) name ↔ registry.Mentions inner name :=
  ⟨fun | .optional below => below, .optional⟩

/-- A sequence mentions what its inner type does. -/
theorem mentions_sequenceOf_iff :
    registry.Mentions (.sequenceOf inner) name ↔ registry.Mentions inner name :=
  ⟨fun | .sequenceOf below => below, .sequenceOf⟩

/-- A union mentions what any of its members does. -/
theorem mentions_union_iff : registry.Mentions (.union members) name ↔
    ∃ member ∈ members, registry.Mentions member name :=
  ⟨fun | .union among below => ⟨_, among, below⟩, fun ⟨_, among, below⟩ => .union among below⟩

/-- An optional type resolves exactly when its inner type does. -/
theorem resolvable_optional_iff :
    registry.Resolvable (.optional inner) ↔ registry.Resolvable inner := by
  simp only [Resolvable, mentions_optional_iff]

/-- A sequence resolves exactly when its inner type does. -/
theorem resolvable_sequenceOf_iff :
    registry.Resolvable (.sequenceOf inner) ↔ registry.Resolvable inner := by
  simp only [Resolvable, mentions_sequenceOf_iff]

/-- A union resolves exactly when all of its members do. -/
theorem resolvable_union_iff : registry.Resolvable (.union members) ↔
    ∀ member ∈ members, registry.Resolvable member := by
  simp only [Resolvable, mentions_union_iff]
  exact ⟨fun all member among name below => all name ⟨member, among, below⟩,
    fun all name ⟨member, among, below⟩ => all member among name below⟩

/-- An alias is in order as soon as its target is: if it looped, its target would mention it. -/
theorem resolvable_alias_iff (declared : registry.find? synonym = some (.alias target)) :
    registry.Resolvable (.named synonym) ↔ registry.Resolvable target := by
  refine ⟨fun all name below => all name (.expanded declared below), fun all name mentions => ?_⟩
  rcases mentions_named_iff.1 mentions with rfl | ⟨same, found, below⟩
  · refine ⟨?_, ?_, ?_⟩
    · rw [declared]
      exact nofun
    · rintro loops
      obtain ⟨same, found, below⟩ := loops
      cases declared.symm.trans found
      exact (all name below).straight ⟨target, declared, below⟩
    · intro declaration isNode
      cases declared.symm.trans isNode
  · cases declared.symm.trans found
    exact all name below

/-- A name that is no alias is all that is mentioned by its type. -/
theorem resolvable_other_iff (other : ∀ target, registry.find? name ≠ some (.alias target)) :
    registry.Resolvable (.named name) ↔ registry.find? name ≠ none ∧
      ∀ declaration, registry.find? name = some (.node declaration) -> registry.Grounded name := by
  constructor
  · intro all
    have inOrder := all name .named
    exact ⟨inOrder.declared, inOrder.grounded⟩
  · rintro ⟨declared, grounded⟩ mentioned mentions
    rcases mentions_named_iff.1 mentions with rfl | ⟨target, found, _⟩
    · exact ⟨declared, fun ⟨target, found, _⟩ => other target found, grounded⟩
    · exact absurd found (other target)

/-- The aliases that are being expanded on the way to a type: each of them mentions what the type
mentions. -/
def Expanding (registry : Registry) (expandable : List String) (type : FieldType) : Prop :=
  ∀ synonym target, registry.find? synonym = some (.alias target) -> synonym ∉ expandable ->
    ∀ name, registry.Mentions type name -> registry.Mentions target name

namespace Expanding

/-- At first no alias is being expanded. -/
theorem start (type : FieldType) : registry.Expanding registry.aliasNames type := by
  intro synonym target declared notListed
  have listed : synonym ∈ registry.aliasNames :=
    List.mem_filterMap.2 ⟨(synonym, .alias target), mem_of_find? declared, rfl⟩
  exact absurd listed notListed

/-- The same aliases are being expanded on the way to a part of a type. -/
theorem part (expanding : registry.Expanding expandable type)
    (mentions : ∀ name, registry.Mentions inner name -> registry.Mentions type name) :
    registry.Expanding expandable inner :=
  fun synonym target declared notListed name below =>
    expanding synonym target declared notListed name (mentions name below)

/-- Behind a synonym the target expands without using it again, unless the synonyms go in circles.
-/
theorem expand (expanding : registry.Expanding expandable (.named synonym))
    (declared : registry.find? synonym = some (.alias target)) :
    registry.Expanding (expandable.erase synonym) target := by
  intro other otherTarget otherDeclared notListed name below
  by_cases same : other = synonym
  · subst same
    cases declared.symm.trans otherDeclared
    exact below
  · have notListedBefore : other ∉ expandable := fun listed =>
      notListed ((List.mem_erase_of_ne same).2 listed)
    exact expanding other otherTarget otherDeclared notListedBefore name
      (.expanded declared below)

/-- An alias that comes up within its own expansion is mentioned by its target. -/
theorem loops (expanding : registry.Expanding expandable (.named synonym))
    (declared : registry.find? synonym = some (.alias target)) (notListed : synonym ∉ expandable) :
    registry.Loops synonym :=
  ⟨target, declared, expanding synonym target declared notListed synonym .named⟩

end Expanding

mutual

/-- Whether a type mentions a node type can be told if all that it mentions is in order. -/
theorem mentionsNode_decides (wellFormed : registry.WellFormed) (owner : String) :
    (expandable : List String) -> (type : FieldType) -> registry.Expanding expandable type ->
      registry.Decides (registry.Resolvable type) (registry.mentionsNode owner expandable type)
  | expandable, .named name, expanding => by
      rw [mentionsNode]
      split
      · rename_i declaration found
        refine (isNodeType_decides wellFormed name).congr ?_
        rw [resolvable_other_iff (by rw [found]; exact nofun), found]
        simp
      · rename_i target declared
        by_cases listed : name ∈ expandable
        · rw [if_pos listed, resolvable_alias_iff declared]
          exact mentionsNode_decides wellFormed owner _ target (expanding.expand declared)
        · rw [if_neg listed]
          have loops := expanding.loops declared listed
          refine .error (fun all => (all name .named).straight loops) ?_
          rintro culprit ⟨⟩
          exact .inl loops
      · rename_i found
        refine .ok ((resolvable_other_iff (by rw [found]; exact nofun)).2 ?_)
        rw [found]
        exact ⟨nofun, nofun⟩
      · rename_i missing
        exact .error (fun all => (all name .named).declared missing) nofun
  | expandable, .optional inner, expanding => by
      rw [mentionsNode, resolvable_optional_iff]
      exact mentionsNode_decides wellFormed owner expandable inner
        (expanding.part fun _ => .optional)
  | expandable, .sequenceOf inner, expanding => by
      rw [mentionsNode, resolvable_sequenceOf_iff]
      exact mentionsNode_decides wellFormed owner expandable inner
        (expanding.part fun _ => .sequenceOf)
  | expandable, .union members, expanding => by
      rw [mentionsNode, resolvable_union_iff]
      exact anyMentionsNode_decides wellFormed owner expandable members
        fun member among => expanding.part fun _ => .union among
termination_by expandable type => (expandable.length, sizeOf type)
decreasing_by
  · have shorter := List.length_erase_of_mem listed
    have positive := List.length_pos_of_mem listed
    apply Prod.Lex.left
    omega
  all_goals
    apply Prod.Lex.right
    simp only [FieldType.optional.sizeOf_spec, FieldType.sequenceOf.sizeOf_spec,
      FieldType.union.sizeOf_spec]
    omega

/-- The members of a union are decided one after the other. -/
theorem anyMentionsNode_decides (wellFormed : registry.WellFormed) (owner : String) :
    (expandable : List String) -> (members : List FieldType) ->
      (∀ member ∈ members, registry.Expanding expandable member) ->
        registry.Decides (∀ member ∈ members, registry.Resolvable member)
          (registry.anyMentionsNode owner expandable members)
  | expandable, [], _ => by
      rw [anyMentionsNode]
      exact .ok nofun
  | expandable, member :: rest, expanding => by
      obtain ⟨expandingMember, expandingRest⟩ := List.forall_mem_cons.1 expanding
      have first := mentionsNode_decides wellFormed owner expandable member expandingMember
      have others := anyMentionsNode_decides wellFormed owner expandable rest expandingRest
      rw [anyMentionsNode, List.forall_mem_cons]
      generalize registry.mentionsNode owner expandable member = outcome at first ⊢
      generalize registry.anyMentionsNode owner expandable rest = later at others ⊢
      cases first with
      | error fails circular => exact .error (fun both => fails both.1) circular
      | ok holds =>
          cases others with
          | error fails circular => exact .error (fun both => fails both.2) circular
          | ok othersHold => exact .ok ⟨holds, othersHold⟩
termination_by expandable members => (expandable.length, sizeOf members)

end

/-- The kind of a field can be told if all that its type mentions is in order. -/
theorem kindOf_eq_ok (owner : String) :
    (expandable : List String) -> (type : FieldType) -> registry.Expanding expandable type ->
      registry.Resolvable type -> ∃ kind, registry.kindOf owner expandable type = .ok kind
  | _, .optional _, _, _ | _, .sequenceOf _, _, _ | _, .union _, _, _ => by
      rw [kindOf]
      exact ⟨_, rfl⟩
  | expandable, .named name, expanding, resolvable => by
      rw [kindOf]
      split
      · rename_i target declared
        by_cases listed : name ∈ expandable
        · rw [if_pos listed]
          exact kindOf_eq_ok owner _ target (expanding.expand declared)
            ((resolvable_alias_iff declared).1 resolvable)
        · exact absurd (expanding.loops declared listed) (resolvable name .named).straight
      · exact ⟨_, rfl⟩
      · rename_i missing
        exact absurd missing (resolvable name .named).declared
termination_by expandable => expandable.length
decreasing_by
  have shorter := List.length_erase_of_mem listed
  have positive := List.length_pos_of_mem listed
  omega

/-- Classifying a field's type succeeds exactly when the type resolves. -/
theorem classify_decides (wellFormed : registry.WellFormed) (owner : String) (type : FieldType) :
    registry.Decides (registry.Resolvable type) (registry.classify owner type) := by
  have decides := mentionsNode_decides wellFormed owner _ type (Expanding.start type)
  rw [classify]
  cases outcome : registry.mentionsNode owner registry.aliasNames type with
  | error cause =>
      rw [outcome] at decides
      cases decides with
      | error fails circular => exact .error fails circular
  | ok mentions =>
      have resolvable := decides.ok_iff.1 ⟨mentions, outcome⟩
      obtain ⟨kind, kindIs⟩ := kindOf_eq_ok owner _ type (Expanding.start type) resolvable
      cases mentions
      · exact .ok resolvable
      · simp only [kindIs]
        exact .ok resolvable

/-- An ignored field is never looked at. -/
theorem addField_decides (wellFormed : registry.WellFormed) (owner : String)
    (fields : List ChildField) (field : FieldDeclaration) :
    registry.Decides (field.ignored = false -> registry.Resolvable field.type)
      (registry.addField owner fields field) := by
  rw [addField]
  cases ignored : field.ignored with
  | true =>
      refine .ok fun isKept => ?_
      cases isKept
  | false =>
      have same : (registry.Resolvable field.type ∧ True) ↔
          (false = false -> registry.Resolvable field.type) :=
        ⟨fun both _ => both.1, fun holds => ⟨holds rfl, trivial⟩⟩
      refine ((classify_decides wellFormed owner field.type).bind fun kind _ => ?_).congr same
      cases kind <;> exact .ok trivial

/-- Adding the declared fields succeeds exactly when the type of each kept one resolves. -/
theorem addFields_decides (wellFormed : registry.WellFormed) (owner : String)
    (fields : List ChildField) (declared : List FieldDeclaration) :
    registry.Decides (∀ field ∈ declared, field.ignored = false -> registry.Resolvable field.type)
      (declared.foldlM (registry.addField owner) fields) := by
  induction declared generalizing fields with
  | nil => exact .ok nofun
  | cons field rest inductionHypothesis =>
      rw [List.foldlM_cons, List.forall_mem_cons]
      exact (addField_decides wellFormed owner fields field).bind
        fun reached _ => inductionHypothesis reached

/-- The schema of a node type can be resolved if its base types lead to the node base type and the
fields that it inherits mention nothing that is out of order. -/
theorem resolve_decides (wellFormed : registry.WellFormed)
    (found : registry.find? name = some (.node declaration)) :
    registry.Decides
      (registry.Extends name nodeBase ∧ ∀ field, registry.Inherits name field ->
        field.ignored = false -> registry.Resolvable field.type)
      (registry.resolve declaration) := by
  refine (inheritedFields_decides wellFormed found).bind fun declared inherited => ?_
  have folded := addFields_decides wellFormed declaration.name [] declared
  simp only [mem_inheritedFields wellFormed found inherited] at folded
  exact (folded.bind fun _ _ => .ok trivial).congr (and_iff_left trivial)

/-- An alias is in no circle of base types. -/
theorem not_circles_of_alias (declared : registry.find? synonym = some (.alias target)) :
    ¬ registry.Circles synonym := by
  have grounded : registry.Grounded synonym := by
    apply Grounded.of_other <;> rw [declared] <;> exact nofun
  exact grounded.straight

end Registry

namespace Catalog

/-- Whatever is declared, node types are found under their own names. -/
theorem wellFormed_after (requests : List Request) :
    (empty.after requests).registry.WellFormed := by
  have entries := Sound.empty.after_entries requests
  constructor
  · rw [Registry.find?, entries]
    exact List.lookup_cons_self
  · intro name declaration found
    have listed := Registry.mem_of_find? found
    rw [entries] at listed
    rcases List.mem_append.1 listed with first | later
    · cases List.mem_singleton.1 first
      rfl
    · obtain ⟨made, _, same⟩ := List.mem_map.1 later
      cases made <;> cases same
      rfl

/-- The schema of a declared node type is resolved in a closed catalog just if its base types
lead to the node base type, and each name that is mentioned by a field there, unless it is to be
ignored, is declared, no alias that mentions itself, and has base types in order if it is a node
type. What an error complains of as a circle is one, and an alias is so only if it mentions
itself. -/
theorem schema_ok_iff (requests : List Request) {name : String} {declaration : NodeDeclaration}
    (closed : (empty.after requests).registry.isClosed = true)
    (declared : (empty.after requests).registry.find? name = some (.node declaration)) :
    let registry := (empty.after requests).registry
    let outcome := ((empty.after requests).schema name).1
    ((∃ schema, outcome = .ok schema) ↔
      registry.Extends name nodeBase ∧ ∀ field, registry.Inherits name field ->
        field.ignored = false -> registry.Resolvable field.type) ∧
    (∀ culprit, outcome = .error (.aliasCycle culprit) ->
      registry.Loops culprit ∨ registry.Circles culprit) ∧
    ∀ synonym target, registry.find? synonym = some (.alias target) ->
      outcome = .error (.aliasCycle synonym) -> registry.Mentions target synonym := by
  intro registry outcome
  have asked : outcome = registry.resolve declaration := by
    refine ((Sound.empty.after requests).schema name).1.trans ?_
    rw [Registry.schema, if_pos closed, declared]
  have decides := asked ▸ Registry.resolve_decides (wellFormed_after requests) declared
  refine ⟨decides.ok_iff, fun culprit => decides.circular, ?_⟩
  intro synonym target isAlias failed
  obtain ⟨same, found, loops⟩ :=
    (decides.circular failed).resolve_right (Registry.not_circles_of_alias isAlias)
  cases isAlias.symm.trans found
  exact loops

/-- An alias that comes up twice does no harm, and one that mentions itself none where it is
ignored. -/
theorem schema_ok_iff_of_shared :
    let tree : NodeDeclaration := ⟨"Tree", "Leaf",
      [⟨"parts", .named "Pair", false⟩, ⟨"parent", .named "Knot", true⟩]⟩
    let tangle : NodeDeclaration := ⟨"Tangle", nodeBase, [⟨"knot", .named "Knot", false⟩]⟩
    let requests : List Request := [.declare (.node tree), .declare (.node tangle),
      .declare (.node ⟨"Leaf", nodeBase, []⟩),
      .declare (.alias "Pair" (.union [.named "Part", .sequenceOf (.named "Part")])),
      .declare (.alias "Part" (.named "Leaf")),
      .declare (.alias "Knot" (.optional (.named "Knot"))), .close]
    let catalog := empty.after requests
    catalog.registry.isClosed = true ∧
      catalog.registry.find? "Tree" = some (.node tree) ∧
      catalog.registry.find? "Tangle" = some (.node tangle) ∧
      (∃ schema, (catalog.schema "Tree").1 = .ok schema) ∧
      catalog.registry.Extends "Tree" nodeBase ∧
      (catalog.schema "Tangle").1 = .error (.aliasCycle "Knot") ∧
      catalog.registry.Mentions (.optional (.named "Knot")) "Knot" := by
  intro tree tangle requests catalog
  have closed : catalog.registry.isClosed = true := by cbv
  have isTree : catalog.registry.find? "Tree" = some (.node tree) := by cbv
  have isTangle : catalog.registry.find? "Tangle" = some (.node tangle) := by cbv
  have isKnot : catalog.registry.find? "Knot" = some (.alias (.optional (.named "Knot"))) := by cbv
  have resolved : ∃ schema, (catalog.schema "Tree").1 = .ok schema :=
    ⟨⟨"Tree", [⟨"parts", .single⟩]⟩, by cbv⟩
  have failed : (catalog.schema "Tangle").1 = .error (.aliasCycle "Knot") := by cbv
  have above := ((schema_ok_iff requests closed isTree).1.1 resolved).1
  have loops := (schema_ok_iff requests closed isTangle).2.2 _ _ isKnot failed
  exact ⟨closed, isTree, isTangle, resolved, above, failed, loops⟩

end Catalog

end KiwiFront
