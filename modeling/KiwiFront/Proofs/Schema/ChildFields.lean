import KiwiFront.Proofs.Schema.Classification

/-!
# The child fields of a node type

A schema is built from the field declarations one by one, each of which may add a name, change
its kind in its place, or take it off the list. What holds between two of these steps is
`Registry.Lists`: the list says of the declarations so far what it has to say of them. One step
keeps this, so that the whole schema is as the declarations of the node type have it.
-/

namespace KiwiFront

namespace FieldDeclaration

variable {declared : List FieldDeclaration} {field : FieldDeclaration} {name : String}

/-- The last declaration of a name is the one that comes last. -/
theorem last?_concat (declared : List FieldDeclaration) (field : FieldDeclaration)
    (name : String) :
    last? (declared ++ [field]) name =
      if field.name = name then some field else last? declared name := by
  rw [last?, List.reverse_concat, List.find?_cons]
  by_cases same : field.name = name
  · simp [same]
  · simp [same, last?]

/-- It is one of the declarations, and it is of that name. -/
theorem mem_of_last? (found : last? declared name = some field) :
    field ∈ declared ∧ field.name = name :=
  ⟨List.mem_reverse.1 (List.mem_of_find?_eq_some found), by simpa using List.find?_some found⟩

/-- Behind a declaration of a name, the last one is that or a later one. -/
theorem last?_append_cons (before after : List FieldDeclaration) (named : field.name = name) :
    ∃ last ∈ field :: after, last? (before ++ field :: after) name = some last := by
  obtain ⟨last, found⟩ : ∃ last, last? (field :: after) name = some last := by
    rw [← Option.isSome_iff_exists, last?, List.find?_isSome]
    exact ⟨field, by simp, by simpa using named⟩
  refine ⟨last, (mem_of_last? found).1, ?_⟩
  rw [last?, List.reverse_append, List.find?_append, show (field :: after).reverse.find? _ = _
    from found]
  rfl

end FieldDeclaration

namespace ChildField

variable {fields first second : List ChildField} {name : String} {kind : FieldKind}

/-- A name that is not listed is put at the end. -/
theorem put_eq_append (fresh : name ∉ fields.map ChildField.name) :
    put name kind fields = fields ++ [⟨name, kind⟩] := by
  induction fields with
  | nil => rfl
  | cons field rest inductionHypothesis =>
      rw [List.map_cons, List.mem_cons, not_or] at fresh
      rw [put, if_neg (Ne.symm fresh.1), inductionHypothesis fresh.2, List.cons_append]

/-- A name that is listed once keeps its place and gets a new kind. -/
theorem put_eq_map (distinct : (fields.map ChildField.name).Nodup)
    (listed : name ∈ fields.map ChildField.name) :
    put name kind fields =
      fields.map fun field => if field.name = name then ⟨name, kind⟩ else field := by
  induction fields with
  | nil => cases listed
  | cons field rest inductionHypothesis =>
      rw [List.map_cons, List.nodup_cons] at distinct
      rw [put, List.map_cons]
      by_cases same : field.name = name
      · have others : ∀ other ∈ rest, other.name ≠ name := fun other member isName =>
          distinct.1 (List.mem_map.2 ⟨other, member, isName.trans same.symm⟩)
        rw [if_pos same, if_pos same]
        congr 1
        exact (List.map_id rest).symm.trans
          (List.map_congr_left fun other member => (if_neg (others other member)).symm)
      · rw [if_neg same, if_neg same]
        have later := (List.mem_cons.1 listed).resolve_left (Ne.symm same)
        rw [inductionHypothesis distinct.2 later]

/-- Putting a listed name changes no name. -/
theorem map_name_put (kind : FieldKind) (distinct : (fields.map ChildField.name).Nodup)
    (listed : name ∈ fields.map ChildField.name) :
    (put name kind fields).map ChildField.name = fields.map ChildField.name := by
  rw [put_eq_map distinct listed, List.map_map]
  refine List.map_congr_left fun field _ => ?_
  by_cases same : field.name = name
  · simp [same]
  · simp [same]

/-- A name that is listed at most once is taken off the list altogether. -/
theorem remove_eq_filter (distinct : (fields.map ChildField.name).Nodup) :
    remove name fields = fields.filter (·.name ≠ name) := by
  induction fields with
  | nil => rfl
  | cons field rest inductionHypothesis =>
      rw [List.map_cons, List.nodup_cons] at distinct
      rw [remove]
      by_cases same : field.name = name
      · have others : ∀ other ∈ rest, decide (other.name ≠ name) = true := by
          intro other member
          refine decide_eq_true fun isName => distinct.1 ?_
          exact List.mem_map.2 ⟨other, member, isName.trans same.symm⟩
        rw [if_pos same, List.filter_cons_of_neg (by simpa using same),
          List.filter_eq_self.2 others]
      · rw [if_neg same, List.filter_cons_of_pos (by simpa using same),
          inductionHypothesis distinct.2]

/-- A field that is put in behind others leaves them. -/
theorem put_append (fresh : name ∉ first.map ChildField.name) :
    put name kind (first ++ second) = first ++ put name kind second := by
  induction first with
  | nil => rfl
  | cons field rest inductionHypothesis =>
      rw [List.map_cons, List.mem_cons, not_or] at fresh
      rw [List.cons_append, put, if_neg (Ne.symm fresh.1), inductionHypothesis fresh.2,
        List.cons_append]

/-- Taking out a field leaves those of other names. -/
theorem remove_append (fresh : name ∉ first.map ChildField.name) :
    remove name (first ++ second) = first ++ remove name second := by
  induction first with
  | nil => rfl
  | cons field rest inductionHypothesis =>
      rw [List.map_cons, List.mem_cons, not_or] at fresh
      rw [List.cons_append, remove, if_neg (Ne.symm fresh.1), inductionHypothesis fresh.2,
        List.cons_append]

end ChildField

namespace Registry

open FieldDeclaration

variable {registry : Registry} {declared : List FieldDeclaration} {field : FieldDeclaration}
  {name : String} {kind : FieldKind} {fields reached : List ChildField} {place : Nat}
  {declaration : NodeDeclaration} {owner : String}

namespace Enters

/-- A name enters at the place of a declaration. -/
theorem lt_length (enters : registry.Enters declared name place) : place < declared.length := by
  obtain ⟨before, first, after, rfl, rfl, _⟩ := enters
  simp

/-- A name has one place: between two of them there would be a last declaration that is a child
and is none. -/
theorem not_lt {other : Nat} (enters : registry.Enters declared name place)
    (entersToo : registry.Enters declared name other) : ¬ place < other := by
  intro earlier
  obtain ⟨before, first, after, split, rfl, named, children, _⟩ := enters
  obtain ⟨longer, second, rest, splitToo, rfl, _, _, lastIsNone⟩ := entersToo
  have reaches : before ++ [first] <+: longer := by
    have isFront : before ++ [first] <+: declared := ⟨after, by simp [split]⟩
    exact List.prefix_of_prefix_length_le isFront ⟨second :: rest, splitToo.symm⟩
      (by simpa using earlier)
  obtain ⟨between, rfl⟩ := reaches
  have sameRest : after = between ++ second :: rest := by
    simpa [splitToo] using split.symm
  obtain ⟨last, member, found⟩ := last?_append_cons before between named
  rw [List.append_assoc] at lastIsNone
  refine lastIsNone last found (children last ?_ (mem_of_last? found).2)
  rw [sameRest, ← List.cons_append]
  exact List.mem_append_left _ member

/-- It enters at one place only. -/
theorem unique {other : Nat} (enters : registry.Enters declared name place)
    (entersToo : registry.Enters declared name other) : place = other :=
  Nat.le_antisymm (Nat.not_lt.1 (entersToo.not_lt enters)) (Nat.not_lt.1 (enters.not_lt entersToo))

/-- A name keeps its place when a declaration follows that is a child or has another name. -/
theorem concat (enters : registry.Enters declared name place)
    (goesOn : field.name = name -> registry.IsChild field) :
    registry.Enters (declared ++ [field]) name place := by
  obtain ⟨before, first, after, rfl, isPlace, named, children, lastIsNone⟩ := enters
  refine ⟨before, first, after ++ [field], by simp, isPlace, named, ?_, lastIsNone⟩
  intro later member
  rw [← List.cons_append, List.mem_append, List.mem_singleton] at member
  rcases member with here | rfl
  · exact children later here
  · exact goesOn

/-- A name gets its place from a child whose name was not declared before, or was last declared
without one. -/
theorem last (isChild : registry.IsChild field)
    (fresh : ∀ earlier, last? declared field.name = some earlier -> ¬ registry.IsChild earlier) :
    registry.Enters (declared ++ [field]) field.name declared.length := by
  refine ⟨declared, field, [], rfl, rfl, rfl, fun later member _ => ?_, fresh⟩
  rw [List.mem_singleton.1 member]
  exact isChild

end Enters

namespace Precedes

variable {first second : String}

/-- No name precedes itself. -/
theorem ne (precedes : registry.Precedes declared first second) : first ≠ second := by
  rintro rfl
  obtain ⟨place, later, enters, entersLater, earlier⟩ := precedes
  exact enters.not_lt entersLater earlier

/-- Names keep their order if each of them stays a child. -/
theorem concat (precedes : registry.Precedes declared first second)
    (firstGoesOn : field.name = first -> registry.IsChild field)
    (secondGoesOn : field.name = second -> registry.IsChild field) :
    registry.Precedes (declared ++ [field]) first second := by
  obtain ⟨place, later, enters, entersLater, earlier⟩ := precedes
  exact ⟨place, later, enters.concat firstGoesOn, entersLater.concat secondGoesOn, earlier⟩

end Precedes

/-- A list of child fields says of some field declarations what it has to say. -/
structure Lists (registry : Registry) (declared : List FieldDeclaration)
    (fields : List ChildField) : Prop where
  listed : ∀ name, name ∈ fields.map ChildField.name ↔
    ∃ field, last? declared name = some field ∧ registry.IsChild field
  held : ∀ child ∈ fields, ∃ field, last? declared child.name = some field ∧
    registry.Holds field.type child.kind
  entered : ∀ name ∈ fields.map ChildField.name, ∃ place, registry.Enters declared name place
  ordered : (fields.map ChildField.name).Pairwise (registry.Precedes declared)

namespace Lists

/-- Nothing is listed of no declarations. -/
theorem start : registry.Lists [] [] := by
  refine ⟨fun name => iff_of_false List.not_mem_nil ?_, nofun, nofun, .nil⟩
  rintro ⟨field, found, _⟩
  cases found

/-- A name is listed once. -/
theorem distinct (lists : registry.Lists declared fields) :
    (fields.map ChildField.name).Nodup :=
  lists.ordered.imp Precedes.ne

/-- A declaration decides about its own name and leaves the others. -/
theorem exists_last_iff {name : String} :
    (∃ last, last? (declared ++ [field]) name = some last ∧ registry.IsChild last) ↔
      if field.name = name then registry.IsChild field
      else ∃ last, last? declared name = some last ∧ registry.IsChild last := by
  rw [last?_concat]
  split <;> simp

/-- A child is put in where it was, or at the end. -/
theorem put (lists : registry.Lists declared fields) (isChild : registry.IsChild field)
    (holds : registry.Holds field.type kind) :
    registry.Lists (declared ++ [field]) (ChildField.put field.name kind fields) := by
  have orderedStill : (fields.map ChildField.name).Pairwise
      (registry.Precedes (declared ++ [field])) :=
    lists.ordered.imp fun precedes => precedes.concat (fun _ => isChild) fun _ => isChild
  have enteredStill : ∀ name ∈ fields.map ChildField.name,
      ∃ place, registry.Enters (declared ++ [field]) name place := fun name member =>
    (lists.entered name member).imp fun _ enters => enters.concat fun _ => isChild
  have heldOther : ∀ child ∈ fields, child.name ≠ field.name ->
      ∃ last, last? (declared ++ [field]) child.name = some last ∧
        registry.Holds last.type child.kind := fun child member other => by
    rw [last?_concat, if_neg other.symm]
    exact lists.held child member
  have heldOwn : ∃ last, last? (declared ++ [field]) field.name = some last ∧
      registry.Holds last.type kind := by
    rw [last?_concat, if_pos rfl]
    exact ⟨field, rfl, holds⟩
  by_cases known : field.name ∈ fields.map ChildField.name
  · have sameNames := ChildField.map_name_put kind lists.distinct known
    refine ⟨fun name => ?_, ?_, sameNames ▸ enteredStill, sameNames ▸ orderedStill⟩
    · rw [sameNames, exists_last_iff]
      split
      · rename_i same
        exact iff_of_true (same ▸ known) isChild
      · exact lists.listed name
    · rw [ChildField.put_eq_map lists.distinct known]
      intro child member
      obtain ⟨old, isOld, rfl⟩ := List.mem_map.1 member
      split
      · exact heldOwn
      · rename_i other
        exact heldOther old isOld other
  · have noChild : ∀ earlier, last? declared field.name = some earlier ->
        ¬ registry.IsChild earlier := fun earlier found earlierIsChild =>
      known ((lists.listed field.name).2 ⟨earlier, found, earlierIsChild⟩)
    have entersLast := Enters.last isChild noChild
    rw [ChildField.put_eq_append known]
    refine ⟨fun name => ?_, ?_, ?_, ?_⟩
    · rw [List.map_append, List.mem_append, List.map_singleton, List.mem_singleton,
        exists_last_iff]
      split
      · rename_i same
        exact iff_of_true (.inr same.symm) isChild
      · rename_i other
        exact (or_iff_left (Ne.symm other)).trans (lists.listed name)
    · rw [List.forall_mem_append, List.forall_mem_singleton]
      refine ⟨fun child member => heldOther child member fun same => known ?_, heldOwn⟩
      exact List.mem_map.2 ⟨child, member, same⟩
    · rw [List.map_append, List.forall_mem_append, List.map_singleton, List.forall_mem_singleton]
      exact ⟨enteredStill, _, entersLast⟩
    · rw [List.map_append, List.map_singleton, List.pairwise_append]
      refine ⟨orderedStill, List.pairwise_singleton _ _, fun name member last isLast => ?_⟩
      -- The new name stands behind all declarations there were so far.
      rw [List.mem_singleton.1 isLast]
      obtain ⟨place, enters⟩ := lists.entered name member
      exact ⟨place, _, enters.concat fun _ => isChild, entersLast, enters.lt_length⟩

/-- What is no child any more is taken out. -/
theorem remove (lists : registry.Lists declared fields) (noChild : ¬ registry.IsChild field) :
    registry.Lists (declared ++ [field]) (ChildField.remove field.name fields) := by
  rw [ChildField.remove_eq_filter lists.distinct]
  have mem_names : ∀ name, name ∈ (fields.filter (·.name ≠ field.name)).map ChildField.name ↔
      field.name ≠ name ∧ name ∈ fields.map ChildField.name := by
    intro name
    simp only [List.mem_map, List.mem_filter, decide_eq_true_eq]
    constructor
    · rintro ⟨child, ⟨member, other⟩, rfl⟩
      exact ⟨other.symm, child, member, rfl⟩
    · rintro ⟨other, child, member, rfl⟩
      exact ⟨child, ⟨member, other.symm⟩, rfl⟩
  have goesOn : ∀ name ∈ (fields.filter (·.name ≠ field.name)).map ChildField.name,
      field.name = name -> registry.IsChild field := fun name member same =>
    absurd same ((mem_names name).1 member).1
  refine ⟨fun name => ?_, fun child member => ?_, fun name member => ?_, ?_⟩
  · rw [mem_names, exists_last_iff]
    split
    · rename_i same
      exact iff_of_false (fun both => both.1 same) noChild
    · rename_i other
      exact (and_iff_right other).trans (lists.listed name)
  · obtain ⟨isOld, other⟩ := List.mem_filter.1 member
    rw [last?_concat, if_neg (Ne.symm (of_decide_eq_true other))]
    exact lists.held child isOld
  · exact (lists.entered name ((mem_names name).1 member).2).imp fun _ enters =>
      enters.concat (goesOn name member)
  · have ordered := lists.ordered.sublist ((List.filter_sublist (p := (·.name ≠ field.name))).map _)
    exact ordered.imp_of_mem fun first second precedes =>
      precedes.concat (goesOn _ first) (goesOn _ second)

/-- So the fields list one more declaration. -/
theorem addField (wellFormed : registry.WellFormed) (lists : registry.Lists declared fields)
    (taken : registry.addField owner fields field = .ok reached) :
    registry.Lists (declared ++ [field]) reached := by
  rcases addField_cases wellFormed taken with ⟨isChild, kind, holds, rfl⟩ | ⟨noChild, rfl⟩
  · exact lists.put isChild holds
  · exact lists.remove noChild

/-- And so they list all of them. -/
theorem addFields (wellFormed : registry.WellFormed) {later : List FieldDeclaration}
    (lists : registry.Lists declared fields)
    (taken : later.foldlM (registry.addField owner) fields = .ok reached) :
    registry.Lists (declared ++ later) reached := by
  induction later generalizing declared fields with
  | nil =>
      cases taken
      rwa [List.append_nil]
  | cons field rest inductionHypothesis =>
      rw [List.foldlM_cons] at taken
      obtain ⟨stepped, step, taken⟩ := steps_of_bind_ok taken
      have afterwards := inductionHypothesis (lists.addField wellFormed step) taken
      rwa [List.append_assoc] at afterwards

end Lists

/-- Declarations of other names leave the fields that are listed first as they are. -/
theorem addFields_prefix (wellFormed : registry.WellFormed) {first : List ChildField}
    {later : List FieldDeclaration}
    (others : ∀ field ∈ later, field.name ∉ first.map ChildField.name) (isFirst : first <+: fields)
    (taken : later.foldlM (registry.addField owner) fields = .ok reached) :
    first <+: reached := by
  induction later generalizing fields with
  | nil =>
      cases taken
      exact isFirst
  | cons field rest inductionHypothesis =>
      rw [List.foldlM_cons] at taken
      obtain ⟨other, othersLater⟩ := List.forall_mem_cons.1 others
      obtain ⟨stepped, step, taken⟩ := steps_of_bind_ok taken
      refine inductionHypothesis othersLater ?_ taken
      obtain ⟨second, rfl⟩ := isFirst
      rcases addField_cases wellFormed step with ⟨_, kind, _, rfl⟩ | ⟨_, rfl⟩
      · exact ⟨_, (ChildField.put_append other).symm⟩
      · exact ⟨_, (ChildField.remove_append other).symm⟩

/-- It makes no difference whose declarations they are. -/
theorem addFields_owner (wellFormed : registry.WellFormed) (other : String)
    {later : List FieldDeclaration}
    (taken : later.foldlM (registry.addField owner) fields = .ok reached) :
    later.foldlM (registry.addField other) fields = .ok reached := by
  induction later generalizing fields with
  | nil => exact taken
  | cons field rest inductionHypothesis =>
      rw [List.foldlM_cons] at taken ⊢
      obtain ⟨stepped, step, taken⟩ := steps_of_bind_ok taken
      rw [addField_owner wellFormed other step]
      exact inductionHypothesis taken

/-- The types that are collected above a node type declare its fields in order. -/
theorem Lineage.declares (wellFormed : registry.WellFormed) {origin : String} {steps : Nat}
    {outcome : Except SchemaError (List NodeDeclaration)} {types : List NodeDeclaration}
    (walked : registry.Lineage origin steps declaration outcome)
    (found : registry.find? name = some (.node declaration)) (ends : outcome = .ok types) :
    registry.Declares name (types.flatMap NodeDeclaration.fields) := by
  induction walked generalizing name types with
  | last isLast =>
      cases ends
      rw [List.flatMap_singleton]
      by_cases isBase : name = nodeBase
      · subst isBase
        cases wellFormed.base.symm.trans found
        exact .base
      · have baseIsLast := isLast.resolve_right fun named =>
          isBase ((wellFormed.named name _ found).symm.trans named)
        have above : registry.Declares _ [] := baseIsLast ▸ Declares.base
        exact .node found isBase above
  | above goesOn isParent _ inductionHypothesis =>
      cases ends
      rw [List.flatMap_append, List.flatMap_singleton]
      exact .node found (ne_nodeBase wellFormed found goesOn) (inductionHypothesis isParent rfl)
  | spent | failed | stray => cases ends

/-- What a type inherits are its declarations along the lineage. -/
theorem inheritedFields_declares (wellFormed : registry.WellFormed)
    (found : registry.find? name = some (.node declaration))
    (inherited : registry.inheritedFields declaration = .ok declared) :
    registry.Declares name declared := by
  have walked := registry.lineage_walks declaration.name registry.entries.length declaration
  rw [inheritedFields] at inherited
  generalize registry.lineage declaration.name registry.entries.length declaration = outcome
    at walked inherited
  cases outcome with
  | error => cases inherited
  | ok types =>
      cases inherited
      exact walked.declares wellFormed found rfl

/-- What declares fields is a node type that comes down from the node base type, and its field
declarations can be collected. -/
theorem Declares.collected (wellFormed : registry.WellFormed)
    (declares : registry.Declares name declared) :
    ∃ declaration, registry.find? name = some (.node declaration) ∧
      registry.inheritedFields declaration = .ok declared := by
  have above : registry.Extends name nodeBase := by
    induction declares with
    | base => exact .refl
    | node found distinct _ inductionHypothesis => exact .step found distinct inductionHypothesis
  obtain ⟨declaration, found⟩ : ∃ declaration,
      registry.find? name = some (.node declaration) := by
    cases declares with
    | base => exact ⟨_, wellFormed.base⟩
    | node found => exact ⟨_, found⟩
  obtain ⟨collected, inherited⟩ := (inheritedFields_decides wellFormed found).ok_iff.2 above
  have same := (inheritedFields_declares wellFormed found inherited).unique declares
  exact ⟨declaration, found, same ▸ inherited⟩

/-- A schema is resolved just if the field declarations can be collected and taken one by one. -/
theorem resolve_eq_ok_iff {schema : NodeSchema} :
    registry.resolve declaration = .ok schema ↔ ∃ declared fields,
      registry.inheritedFields declaration = .ok declared ∧
      declared.foldlM (registry.addField declaration.name) [] = .ok fields ∧
      schema = ⟨declaration.name, fields⟩ := by
  rw [resolve]
  constructor
  · intro resolved
    obtain ⟨declared, collected, resolved⟩ := steps_of_bind_ok resolved
    obtain ⟨fields, taken, resolved⟩ := steps_of_bind_ok resolved
    cases resolved
    exact ⟨declared, fields, collected, taken, rfl⟩
  · rintro ⟨declared, fields, collected, taken, rfl⟩
    rw [collected]
    change declared.foldlM (registry.addField declaration.name) [] >>= _ = _
    rw [taken]
    rfl

/-- A schema can be asked for in a closed registry, of a node type. -/
theorem schema_eq_ok_iff {schema : NodeSchema} :
    registry.schema name = .ok schema ↔ registry.isClosed = true ∧ ∃ declaration,
      registry.find? name = some (.node declaration) ∧
        registry.resolve declaration = .ok schema := by
  rw [Registry.schema]
  cases registry.isClosed with
  | false => simp
  | true =>
      rw [if_pos rfl, and_iff_right rfl]
      cases registry.find? name with
      | none => simp
      | some entry =>
          cases entry with
          | node declaration =>
              constructor
              · exact fun resolved => ⟨declaration, rfl, resolved⟩
              · rintro ⟨_, ⟨⟩, resolved⟩
                exact resolved
          | _ => simp

/-- The schema of a node type lists what its field declarations have to list. -/
theorem schema_declares (wellFormed : registry.WellFormed) {schema : NodeSchema}
    (resolved : registry.schema name = .ok schema) :
    ∃ declared, registry.Declares name declared ∧ registry.Lists declared schema.fields := by
  obtain ⟨_, declaration, found, isResolved⟩ := schema_eq_ok_iff.1 resolved
  obtain ⟨declared, fields, collected, taken, rfl⟩ := resolve_eq_ok_iff.1 isResolved
  refine ⟨declared, inheritedFields_declares wellFormed found collected, ?_⟩
  have lists := Lists.start.addFields wellFormed taken
  rwa [List.nil_append] at lists

/-- A node type that declares no name again has the schema of its base type and lists its own
fields behind it. -/
theorem schema_base (wellFormed : registry.WellFormed) {schema : NodeSchema}
    {inherited : List FieldDeclaration} (resolved : registry.schema name = .ok schema)
    (found : registry.find? name = some (.node declaration))
    (above : registry.Declares declaration.base inherited)
    (others : ∀ own ∈ declaration.fields, ∀ field ∈ inherited, own.name ≠ field.name) :
    ∃ baseSchema, registry.schema declaration.base = .ok baseSchema ∧
      baseSchema.fields <+: schema.fields := by
  by_cases isBase : name = nodeBase
  · subst isBase
    cases wellFormed.base.symm.trans found
    exact ⟨schema, resolved, List.prefix_rfl⟩
  obtain ⟨closed, same, foundToo, isResolved⟩ := schema_eq_ok_iff.1 resolved
  cases found.symm.trans foundToo
  obtain ⟨declared, fields, collected, taken, rfl⟩ := resolve_eq_ok_iff.1 isResolved
  have declares := inheritedFields_declares wellFormed found collected
  rw [declares.unique (.node found isBase above), List.foldlM_append] at taken
  obtain ⟨baseFields, baseTaken, taken⟩ := steps_of_bind_ok taken
  obtain ⟨parent, parentFound, parentCollected⟩ := above.collected wellFormed
  have parentTaken := addFields_owner wellFormed parent.name baseTaken
  refine ⟨⟨parent.name, baseFields⟩, schema_eq_ok_iff.2 ⟨closed, parent, parentFound,
    resolve_eq_ok_iff.2 ⟨inherited, baseFields, parentCollected, parentTaken, rfl⟩⟩, ?_⟩
  refine addFields_prefix wellFormed (fun own member listed => ?_) List.prefix_rfl taken
  have lists := Lists.start.addFields wellFormed baseTaken
  rw [List.nil_append] at lists
  obtain ⟨field, isLast, _⟩ := (lists.listed own.name).1 listed
  obtain ⟨isInherited, sameName⟩ := mem_of_last? isLast
  exact others own member field isInherited sameName.symm

end Registry

namespace Catalog

open FieldDeclaration

/-- A schema lists each name at most once. It lists the names whose last declaration is a child,
with the kind of that declaration, in the order in which they were declared first since they were
last given to a field that is no child. So a node type that declares no inherited name again
begins with the schema of its base type. -/
theorem schema_lists (requests : List Request) {name : String} {schema : NodeSchema}
    (resolved : ((empty.after requests).schema name).1 = .ok schema) :
    let registry := (empty.after requests).registry
    ∃ declared, registry.Declares name declared ∧
      schema.fieldNames.Nodup ∧
      (∀ listed, listed ∈ schema.fieldNames ↔
        ∃ field, last? declared listed = some field ∧ registry.IsChild field) ∧
      (∀ child ∈ schema.fields, ∃ field, last? declared child.name = some field ∧
        registry.Holds field.type child.kind) ∧
      schema.fieldNames.Pairwise (registry.Precedes declared) ∧
      ∀ declaration inherited, registry.find? name = some (.node declaration) ->
        registry.Declares declaration.base inherited ->
        (∀ own ∈ declaration.fields, ∀ field ∈ inherited, own.name ≠ field.name) ->
        ∃ baseSchema, ((empty.after requests).schema declaration.base).1 = .ok baseSchema ∧
          baseSchema.fields <+: schema.fields := by
  intro registry
  have wellFormed : registry.WellFormed := wellFormed_after requests
  have asked : ∀ other, ((empty.after requests).schema other).1 = registry.schema other :=
    fun other => ((Sound.empty.after requests).schema other).1
  rw [asked] at resolved
  obtain ⟨declared, declares, lists⟩ := Registry.schema_declares wellFormed resolved
  refine ⟨declared, declares, lists.distinct, lists.listed, lists.held, lists.ordered, ?_⟩
  intro declaration inherited found above others
  rw [asked]
  exact Registry.schema_base wellFormed resolved found above others

/-- A name that is given to an ignored field on the way comes back behind the others, and one that
gets another type stays where it is. -/
theorem schema_lists_of_redeclared :
    let base : NodeDeclaration :=
      ⟨"Base", nodeBase, [⟨"a", .named "Leaf", false⟩, ⟨"b", .named "Row", false⟩]⟩
    let middle : NodeDeclaration :=
      ⟨"Middle", "Base", [⟨"a", .named "Leaf", true⟩, ⟨"c", .named "Leaf", false⟩]⟩
    let top : NodeDeclaration := ⟨"Top", "Middle",
      [⟨"a", .optional (.named "Row"), false⟩, ⟨"b", .union [.named "Leaf"], false⟩]⟩
    let bottom : NodeDeclaration := ⟨"Bottom", "Top", [⟨"d", .named "Row", false⟩]⟩
    let requests : List Request := [.declare (.node ⟨"Leaf", nodeBase, []⟩),
      .declare (.alias "Row" (.sequenceOf (.named "Leaf"))), .declare (.node base),
      .declare (.node middle), .declare (.node top), .declare (.node bottom), .close]
    let catalog := empty.after requests
    let schema : NodeSchema :=
      ⟨"Bottom", [⟨"b", .single⟩, ⟨"c", .single⟩, ⟨"a", .optional⟩, ⟨"d", .sequence⟩]⟩
    (catalog.schema "Bottom").1 = .ok schema ∧
      (∃ declared, catalog.registry.Declares "Bottom" declared ∧
        catalog.registry.Precedes declared "c" "a") ∧
      ∃ topSchema, (catalog.schema "Top").1 = .ok topSchema ∧
        topSchema.fields <+: schema.fields := by
  intro base middle top bottom requests catalog schema
  have resolved : (catalog.schema "Bottom").1 = .ok schema := by cbv
  have isBase : catalog.registry.find? "Base" = some (.node base) := by cbv
  have isMiddle : catalog.registry.find? "Middle" = some (.node middle) := by cbv
  have isTop : catalog.registry.find? "Top" = some (.node top) := by cbv
  have isBottom : catalog.registry.find? "Bottom" = some (.node bottom) := by cbv
  have above : catalog.registry.Declares "Top" _ := .node isTop (by decide)
    (.node isMiddle (by decide) (.node isBase (by decide) .base))
  obtain ⟨declared, declares, _, _, _, ordered, fromBase⟩ := schema_lists requests resolved
  refine ⟨resolved, ⟨declared, declares, ?_⟩, fromBase bottom _ isBottom above ?_⟩
  · exact (List.pairwise_cons.1 (List.pairwise_cons.1 ordered).2).1 "a" (by simp)
  · simp [bottom, base, middle, top]

end Catalog

end KiwiFront
