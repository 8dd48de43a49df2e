import KiwiFront.Proofs.Schema.Resolution
import KiwiFront.Proofs.Steps
import KiwiFront.Schema.Listing

/-!
# What classifying a field tells

`Registry.LeadsToNode` and `Registry.Holds` are authoritative: a field type leads to a node type
if it mentions one, and its outermost constructor tells how it holds its nodes. Whenever
following a type comes to an end, the answer is that. So the answer does not depend on the type
on whose behalf the field is looked at, which only the wording of an error mentions.
-/

namespace KiwiFront.Registry

variable {registry : Registry} {owner name synonym : String} {type target inner : FieldType}
  {expandable : List String} {members : List FieldType} {declaration : NodeDeclaration}
  {kind : FieldKind} {field : FieldDeclaration} {fields reached : List ChildField}

/-- Base types lead from a node type to the node base type if they do so from its base type. -/
theorem extends_nodeBase_iff (found : registry.find? name = some (.node declaration))
    (distinct : name ≠ nodeBase) :
    registry.Extends name nodeBase ↔ registry.Extends declaration.base nodeBase :=
  ⟨fun above => (above.of_node found).resolve_left distinct.symm, .step found distinct⟩

theorem not_extends_of_other (distinct : name ≠ nodeBase)
    (other : ∀ declaration, registry.find? name ≠ some (.node declaration)) :
    ¬ registry.Extends name nodeBase :=
  fun above => distinct (above.eq_of_other other).symm

/-- A walk that ends tells whether it has come to the node base type. -/
theorem extends_of_reachesBase {origin current : String} {steps : Nat} {isNode : Bool}
    (ended : registry.reachesBase origin steps current = .ok isNode) :
    isNode = true ↔ registry.Extends current nodeBase := by
  induction steps generalizing current with
  | zero => cases ended
  | succ steps inductionHypothesis =>
      rw [reachesBase] at ended
      split at ended
      · rename_i isBase
        cases ended
        exact iff_of_true rfl (isBase ▸ .refl)
      · rename_i notBase
        split at ended
        · rename_i declaration found
          exact (inductionHypothesis ended).trans (extends_nodeBase_iff found notBase).symm
        · rename_i entry other found
          cases ended
          refine iff_of_false Bool.false_ne_true (not_extends_of_other notBase ?_)
          intro declaration isNode
          exact other declaration (Option.some.inj (found.symm.trans isNode))
        · cases ended

theorem leadsToNode_optional_iff :
    registry.LeadsToNode (.optional inner) ↔ registry.LeadsToNode inner := by
  simp only [LeadsToNode, mentions_optional_iff]

theorem leadsToNode_sequenceOf_iff :
    registry.LeadsToNode (.sequenceOf inner) ↔ registry.LeadsToNode inner := by
  simp only [LeadsToNode, mentions_sequenceOf_iff]

theorem leadsToNode_union_iff : registry.LeadsToNode (.union members) ↔
    ∃ member ∈ members, registry.LeadsToNode member := by
  simp only [LeadsToNode, mentions_union_iff]
  exact ⟨fun ⟨name, ⟨member, among, below⟩, above⟩ => ⟨member, among, name, below, above⟩,
    fun ⟨member, among, name, below, above⟩ => ⟨name, ⟨member, among, below⟩, above⟩⟩

/-- An alias leads to a node type through its target alone, being none itself. -/
theorem leadsToNode_alias_iff (wellFormed : registry.WellFormed)
    (declared : registry.find? synonym = some (.alias target)) :
    registry.LeadsToNode (.named synonym) ↔ registry.LeadsToNode target := by
  have notBase : synonym ≠ nodeBase := by
    rintro rfl
    cases declared.symm.trans wellFormed.base
  have notNode : ¬ registry.Extends synonym nodeBase :=
    not_extends_of_other notBase (by rw [declared]; exact nofun)
  constructor
  · rintro ⟨name, mentions, above⟩
    rcases mentions_named_iff.1 mentions with rfl | ⟨same, found, below⟩
    · exact absurd above notNode
    · cases declared.symm.trans found
      exact ⟨name, below, above⟩
  · rintro ⟨name, below, above⟩
    exact ⟨name, .expanded declared below, above⟩

/-- A name that is no alias leads to no other name. -/
theorem leadsToNode_other_iff (other : ∀ target, registry.find? name ≠ some (.alias target)) :
    registry.LeadsToNode (.named name) ↔ registry.Extends name nodeBase := by
  constructor
  · rintro ⟨mentioned, mentions, above⟩
    rcases mentions_named_iff.1 mentions with rfl | ⟨target, found, _⟩
    · exact above
    · exact absurd found (other target)
  · exact fun above => ⟨name, .named, above⟩

mutual

/-- Following a type tells whether it leads to a node type. -/
theorem mentionsNode_tells (wellFormed : registry.WellFormed) (owner : String) :
    (expandable : List String) -> (type : FieldType) -> {leads : Bool} ->
      registry.mentionsNode owner expandable type = .ok leads ->
        (leads = true ↔ registry.LeadsToNode type)
  | expandable, .named name, leads, ended => by
      rw [mentionsNode] at ended
      split at ended
      · rename_i declaration found
        rw [leadsToNode_other_iff (by rw [found]; exact nofun)]
        exact extends_of_reachesBase ended
      · rename_i target declared
        rw [leadsToNode_alias_iff wellFormed declared]
        by_cases listed : name ∈ expandable
        · rw [if_pos listed] at ended
          exact mentionsNode_tells wellFormed owner _ target ended
        · rw [if_neg listed] at ended
          cases ended
      · rename_i found
        cases ended
        have notBase : name ≠ nodeBase := by
          rintro rfl
          cases found.symm.trans wellFormed.base
        rw [leadsToNode_other_iff (by rw [found]; exact nofun)]
        exact iff_of_false nofun (not_extends_of_other notBase (by rw [found]; exact nofun))
      · cases ended
  | expandable, .optional inner, leads, ended => by
      rw [mentionsNode] at ended
      rw [leadsToNode_optional_iff]
      exact mentionsNode_tells wellFormed owner expandable inner ended
  | expandable, .sequenceOf inner, leads, ended => by
      rw [mentionsNode] at ended
      rw [leadsToNode_sequenceOf_iff]
      exact mentionsNode_tells wellFormed owner expandable inner ended
  | expandable, .union members, leads, ended => by
      rw [mentionsNode] at ended
      rw [leadsToNode_union_iff]
      exact anyMentionsNode_tells wellFormed owner expandable members ended
termination_by expandable type => (expandable.length, sizeOf type)
decreasing_by
  · have shorter := List.length_erase_of_mem listed
    have positive := List.length_pos_of_mem listed
    apply Prod.Lex.left
    omega
  all_goals
    apply Prod.Lex.right
    simp only [FieldType.optional.sizeOf_spec, FieldType.sequenceOf.sizeOf_spec,
      FieldType.union.sizeOf_spec]
    omega

theorem anyMentionsNode_tells (wellFormed : registry.WellFormed) (owner : String) :
    (expandable : List String) -> (members : List FieldType) -> {leads : Bool} ->
      registry.anyMentionsNode owner expandable members = .ok leads ->
        (leads = true ↔ ∃ member ∈ members, registry.LeadsToNode member)
  | expandable, [], leads, ended => by
      rw [anyMentionsNode] at ended
      cases ended
      simp
  | expandable, member :: rest, leads, ended => by
      rw [anyMentionsNode] at ended
      cases here : registry.mentionsNode owner expandable member with
      | error cause => simp [here] at ended
      | ok first =>
          cases later : registry.anyMentionsNode owner expandable rest with
          | error cause => simp [here, later] at ended
          | ok others =>
              have memberTells := mentionsNode_tells wellFormed owner expandable member here
              have restTells := anyMentionsNode_tells wellFormed owner expandable rest later
              simp only [here, later] at ended
              cases ended
              rw [Bool.or_eq_true, memberTells, restTells, List.exists_mem_cons_iff]
termination_by expandable members => (expandable.length, sizeOf members)

end

/-- The kind that is told is that of the outermost constructor. -/
theorem kindOf_tells (owner : String) :
    (expandable : List String) -> (type : FieldType) ->
      registry.kindOf owner expandable type = .ok kind -> registry.Holds type kind
  | expandable, .optional inner, told => by
      rw [kindOf] at told
      cases told
      exact .optional
  | expandable, .sequenceOf inner, told => by
      rw [kindOf] at told
      cases told
      exact .sequenceOf
  | expandable, .union members, told => by
      rw [kindOf] at told
      cases told
      exact .union
  | expandable, .named name, told => by
      rw [kindOf] at told
      split at told
      · rename_i target declared
        by_cases listed : name ∈ expandable
        · rw [if_pos listed] at told
          exact .expanded declared (kindOf_tells owner _ target told)
        · rw [if_neg listed] at told
          cases told
      · rename_i entry other found
        cases told
        refine .plain fun target isAlias => ?_
        exact other target (Option.some.inj (found.symm.trans isAlias))
      · cases told
termination_by expandable => expandable.length
decreasing_by
  have shorter := List.length_erase_of_mem listed
  have positive := List.length_pos_of_mem listed
  omega

/-- What there is to tell of a type: how it holds nodes, if it leads to any. -/
inductive Classified (registry : Registry) (type : FieldType) : Option FieldKind -> Prop where
  | child {kind : FieldKind} (leads : registry.LeadsToNode type)
      (holds : registry.Holds type kind) :
      Classified registry type (some kind)
  | other (strays : ¬ registry.LeadsToNode type) : Classified registry type none

/-- A type is classified in one way. -/
theorem Classified.unique {found other : Option FieldKind}
    (first : registry.Classified type found) (second : registry.Classified type other) :
    found = other := by
  cases first with
  | child leads holds =>
      cases second with
      | child _ holdsToo => rw [holds.unique holdsToo]
      | other strays => exact absurd leads strays
  | other strays =>
      cases second with
      | child leads => exact absurd leads strays
      | other => rfl

/-- A classification that is told is the right one. -/
theorem classify_tells (wellFormed : registry.WellFormed) {found : Option FieldKind}
    (told : registry.classify owner type = .ok found) : registry.Classified type found := by
  rw [classify] at told
  obtain ⟨leads, ended, told⟩ := steps_of_bind_ok told
  have tells := mentionsNode_tells wellFormed owner _ type ended
  cases leads with
  | false =>
      cases told
      exact .other fun leads => absurd (tells.2 leads) nofun
  | true =>
      obtain ⟨kind, kindTold, told⟩ := steps_of_bind_ok told
      cases told
      exact .child (tells.1 rfl) (kindOf_tells owner _ type kindTold)

/-- What classifying a type tells does not depend on the owner of the field. -/
theorem classify_owner (wellFormed : registry.WellFormed) (other : String)
    {found : Option FieldKind} (told : registry.classify owner type = .ok found) :
    registry.classify other type = .ok found := by
  have resolvable := (classify_decides wellFormed owner type).ok_iff.1 ⟨found, told⟩
  obtain ⟨foundToo, toldToo⟩ := (classify_decides wellFormed other type).ok_iff.2 resolvable
  rw [toldToo, (classify_tells wellFormed told).unique (classify_tells wellFormed toldToo)]

/-- A field declaration gives its name a place with the kind of its type if it is a child, and
takes the name off the list if it is not. -/
theorem addField_cases (wellFormed : registry.WellFormed)
    (taken : registry.addField owner fields field = .ok reached) :
    (registry.IsChild field ∧ ∃ kind, registry.Holds field.type kind ∧
      reached = ChildField.put field.name kind fields) ∨
    (¬ registry.IsChild field ∧ reached = ChildField.remove field.name fields) := by
  rw [addField] at taken
  cases ignored : field.ignored with
  | true =>
      rw [ignored] at taken
      cases taken
      refine .inr ⟨fun isChild => ?_, rfl⟩
      cases ignored.symm.trans isChild.kept
  | false =>
      rw [ignored] at taken
      obtain ⟨found, told, taken⟩ := steps_of_bind_ok taken
      cases classify_tells wellFormed told with
      | child leads holds =>
          cases taken
          exact .inl ⟨⟨ignored, leads⟩, _, holds, rfl⟩
      | other strays =>
          cases taken
          exact .inr ⟨fun isChild => strays isChild.leads, rfl⟩

/-- What becomes of a list of fields does not depend on their owner. -/
theorem addField_owner (wellFormed : registry.WellFormed) (other : String)
    (taken : registry.addField owner fields field = .ok reached) :
    registry.addField other fields field = .ok reached := by
  rw [addField] at taken ⊢
  cases ignored : field.ignored with
  | true =>
      rw [ignored] at taken
      exact taken
  | false =>
      rw [ignored] at taken
      obtain ⟨found, told, taken⟩ := steps_of_bind_ok taken
      have toldToo := classify_owner wellFormed other told
      simp only [Bool.false_eq_true, if_false, toldToo]
      exact taken

end KiwiFront.Registry
