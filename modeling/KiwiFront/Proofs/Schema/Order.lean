import KiwiFront.Schema.Resolution
import Mathlib

/-!
# The order of declarations

Registries that declare the same names in different orders answer alike. Names are looked
up and not gone through; only the aliases that may still be expanded are listed, and what
matters about that list is what it contains.
-/

namespace KiwiFront

/-- What a key stands for does not depend on the order of entries with distinct keys. -/
theorem lookup_eq_of_perm {Entry : Type} {left right : List (String × Entry)}
    (same : left.Perm right) (distinct : (left.map Prod.fst).Nodup) (key : String) :
    left.lookup key = right.lookup key := by
  induction same with
  | nil => rfl
  | cons entry _ inductionHypothesis =>
      rw [List.lookup_cons, List.lookup_cons, inductionHypothesis (List.nodup_cons.1 distinct).2]
  | swap first second rest =>
      have different : second.1 ≠ first.1 := by
        intro equal
        exact (List.nodup_cons.1 distinct).1 (by simp [equal])
      rw [List.lookup_cons, List.lookup_cons, List.lookup_cons, List.lookup_cons]
      by_cases isFirst : key = first.1
      · have notSecond : key ≠ second.1 := fun equal => different (equal.symm.trans isFirst)
        simp [isFirst, beq_eq_false_iff_ne.2 different.symm]
      · simp [beq_eq_false_iff_ne.2 isFirst]
  | trans first _ firstHypothesis secondHypothesis =>
      have distinctThere := ((first.map Prod.fst).nodup_iff).1 distinct
      exact (firstHypothesis distinct).trans (secondHypothesis distinctThere)

namespace Registry

/-- The same entries in any order, no name among them twice; both open or both closed. -/
structure Agrees (left right : Registry) : Prop where
  entries : left.entries.Perm right.entries
  distinct : (left.entries.map Prod.fst).Nodup
  closed : left.isClosed = right.isClosed

/-- A declaration is taken by an open registry that does not know its name. -/
theorem declare_eq_ok_iff {registry extended : Registry} {declaration : Declaration} :
    registry.declare declaration = .ok extended ↔
      registry.isClosed = false ∧ registry.find? declaration.name = none ∧
        extended = { registry with
          entries := registry.entries ++ [(declaration.name, declaration.entry)] } := by
  unfold declare
  split
  · rename_i isClosed
    simp [isClosed]
  · rename_i notClosed
    split
    · rename_i known
      have found : registry.find? declaration.name ≠ none :=
        fun missing => by simp [missing] at known
      simp [found]
    · rename_i fresh
      have missing : registry.find? declaration.name = none :=
        Option.not_isSome_iff_eq_none.1 fresh
      simp [notClosed, missing, eq_comm]

/-- A registry that takes a declaration still has no name twice. -/
theorem distinct_of_declare {registry extended : Registry} {declaration : Declaration}
    (distinct : (registry.entries.map Prod.fst).Nodup)
    (taken : registry.declare declaration = .ok extended) :
    (extended.entries.map Prod.fst).Nodup := by
  obtain ⟨_, fresh, rfl⟩ := declare_eq_ok_iff.1 taken
  rw [List.map_append, List.nodup_append]
  refine ⟨distinct, List.nodup_singleton _, ?_⟩
  rintro name known _ isNew rfl
  obtain ⟨entry, listed, rfl⟩ := List.mem_map.1 known
  have missing := List.lookup_eq_none_iff.1 fresh entry listed
  rw [List.map_singleton, List.mem_singleton] at isNew
  simp [isNew] at missing

namespace Agrees

variable {left right : Registry}

/-- With distinct names a look-up does not depend on the order of the entries. -/
theorem find? (agrees : left.Agrees right) (name : String) :
    left.find? name = right.find? name :=
  lookup_eq_of_perm agrees.entries agrees.distinct name

/-- The aliases are the same in some other order. -/
theorem aliasNames (agrees : left.Agrees right) : left.aliasNames.Perm right.aliasNames :=
  agrees.entries.filterMap _

/-- Following base types only looks names up, by induction on the steps. -/
theorem reachesBase (agrees : left.Agrees right) (origin : String) (steps : Nat)
    (current : String) :
    left.reachesBase origin steps current = right.reachesBase origin steps current := by
  induction steps generalizing current with
  | zero => rfl
  | succ steps inductionHypothesis =>
      unfold Registry.reachesBase
      simp only [agrees.find?, inductionHypothesis]

/-- Whether a name is a node type does not depend on the order of declaration. -/
theorem isNodeType (agrees : left.Agrees right) (name : String) :
    left.isNodeType name = right.isNodeType name := by
  unfold Registry.isNodeType
  rw [agrees.entries.length_eq, agrees.reachesBase]

mutual

/-- Expanding aliases only asks whether an alias may still be expanded, not where it stands in the
list. -/
theorem mentionsNode (agrees : left.Agrees right) (owner : String)
    {expandable others : List String} (same : expandable.Perm others) (type : FieldType) :
    left.mentionsNode owner expandable type = right.mentionsNode owner others type := by
  cases type with
  | named name =>
      rw [Registry.mentionsNode, Registry.mentionsNode, agrees.find? name, agrees.isNodeType name]
      split
      · rfl
      · by_cases listed : name ∈ expandable
        · rw [if_pos listed, if_pos (same.mem_iff.1 listed)]
          exact mentionsNode agrees owner (same.erase name) _
        · rw [if_neg listed, if_neg fun there => listed (same.mem_iff.2 there)]
      · rfl
      · rfl
  | optional inner =>
      rw [Registry.mentionsNode, Registry.mentionsNode]
      exact mentionsNode agrees owner same inner
  | sequenceOf inner =>
      rw [Registry.mentionsNode, Registry.mentionsNode]
      exact mentionsNode agrees owner same inner
  | union members =>
      rw [Registry.mentionsNode, Registry.mentionsNode]
      exact anyMentionsNode agrees owner same members
termination_by (expandable.length, sizeOf type)
decreasing_by
  · have shorter := List.length_erase_of_mem listed
    have positive := List.length_pos_of_mem listed
    apply Prod.Lex.left
    omega
  all_goals
    apply Prod.Lex.right
    simp only [FieldType.optional.sizeOf_spec, FieldType.sequenceOf.sizeOf_spec,
      FieldType.union.sizeOf_spec]
    omega

/-- The same holds for the members of a union, one after the other. -/
theorem anyMentionsNode (agrees : left.Agrees right) (owner : String)
    {expandable others : List String} (same : expandable.Perm others)
    (members : List FieldType) :
    left.anyMentionsNode owner expandable members =
      right.anyMentionsNode owner others members := by
  cases members with
  | nil => rw [Registry.anyMentionsNode, Registry.anyMentionsNode]
  | cons member rest =>
      rw [Registry.anyMentionsNode, Registry.anyMentionsNode,
        mentionsNode agrees owner same member, anyMentionsNode agrees owner same rest]
termination_by (expandable.length, sizeOf members)

end

/-- The kind in which a field holds its nodes does not depend on the order either. -/
theorem kindOf (agrees : left.Agrees right) (owner : String) {expandable others : List String}
    (same : expandable.Perm others) (type : FieldType) :
    left.kindOf owner expandable type = right.kindOf owner others type := by
  cases type with
  | sequenceOf | optional | union => rw [Registry.kindOf, Registry.kindOf]
  | named name =>
      rw [Registry.kindOf, Registry.kindOf, agrees.find? name]
      split
      · by_cases listed : name ∈ expandable
        · rw [if_pos listed, if_pos (same.mem_iff.1 listed)]
          exact kindOf agrees owner (same.erase name) _
        · rw [if_neg listed, if_neg fun there => listed (same.mem_iff.2 there)]
      · rfl
      · rfl
termination_by expandable.length
decreasing_by
  have shorter := List.length_erase_of_mem listed
  have positive := List.length_pos_of_mem listed
  omega

/-- A field is classified alike in registries that agree. -/
theorem classify (agrees : left.Agrees right) (owner : String) (type : FieldType) :
    left.classify owner type = right.classify owner type := by
  unfold Registry.classify
  rw [agrees.mentionsNode owner agrees.aliasNames, agrees.kindOf owner agrees.aliasNames]

/-- The lineage of a node type is the same, by induction on the steps. -/
theorem lineage (agrees : left.Agrees right) (origin : String) (steps : Nat)
    (current : NodeDeclaration) :
    left.lineage origin steps current = right.lineage origin steps current := by
  induction steps generalizing current with
  | zero => rw [Registry.lineage, Registry.lineage]
  | succ steps inductionHypothesis =>
      rw [Registry.lineage, Registry.lineage]
      simp only [agrees.find?, inductionHypothesis]

/-- The schema of a declared node type is the same in both registries. -/
theorem resolve (agrees : left.Agrees right) (declaration : NodeDeclaration) :
    left.resolve declaration = right.resolve declaration := by
  have adds : left.addField declaration.name = right.addField declaration.name := by
    funext fields declared
    unfold Registry.addField
    rw [agrees.classify]
  unfold Registry.resolve Registry.inheritedFields
  rw [agrees.entries.length_eq, agrees.lineage, adds]

/-- Registries that agree have the same schemas and fail with the same errors. -/
theorem schema (agrees : left.Agrees right) (name : String) :
    left.schema name = right.schema name := by
  unfold Registry.schema
  rw [agrees.closed, agrees.find? name]
  simp only [agrees.resolve]

/-- A declaration is refused by both for the same cause, or taken by both. -/
theorem declare (agrees : left.Agrees right) (declaration : Declaration) :
    (∃ cause, left.declare declaration = .error cause ∧
      right.declare declaration = .error cause) ∨
    ∃ one other, left.declare declaration = .ok one ∧ right.declare declaration = .ok other ∧
      one.Agrees other := by
  cases taken : left.declare declaration with
  | error cause =>
      refine .inl ⟨cause, rfl, ?_⟩
      unfold Registry.declare at taken ⊢
      rw [agrees.closed, agrees.find? declaration.name] at taken
      split
      · rename_i isClosed
        rwa [if_pos isClosed] at taken
      · rename_i notClosed
        rw [if_neg notClosed] at taken
        split
        · rename_i known
          rwa [if_pos known] at taken
        · rename_i fresh
          rw [if_neg fresh] at taken
          cases taken
  | ok one =>
      obtain ⟨isOpen, fresh, rfl⟩ := declare_eq_ok_iff.1 taken
      have alsoTaken := declare_eq_ok_iff.2
        ⟨agrees.closed.symm.trans isOpen, (agrees.find? declaration.name).symm.trans fresh, rfl⟩
      exact .inr ⟨_, _, rfl, alsoTaken, agrees.entries.append_right _,
        distinct_of_declare agrees.distinct taken, agrees.closed⟩

end Agrees

end Registry

end KiwiFront
