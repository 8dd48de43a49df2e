import KiwiFront.Proofs.Tree.Boundaries
import KiwiFront.Proofs.Tree.Nesting
import KiwiFront.Tree.Items

/-!
# Outlines show what nodes list

A node has an outline if it lists its children and all of them have outlines. These are what is
right below the outline of the node, under the same fields and in the same order, so that an
outline tells as much of a tree as the nodes do.
-/

namespace KiwiFront

open Fields (look)

namespace Outline

/-- What is right below an outline: children with their fields, or elements. -/
def rows : Outline -> List (Option String × Outline)
  | .node _ _ _ children => children.map fun entry => (some entry.1, entry.2)
  | .sequence elements => elements.map fun element => (none, element)

/-- The type and the label of a node, and the length of a sequence. -/
def description : Outline -> String
  | .node name label _ _ => Drawing.describe name label
  | .sequence elements => s!"List ({elements.length})"

/-- Rows are parts of their outline, so a recursion may go down to them. -/
theorem sizeOf_lt_of_mem_rows {outline : Outline} {entry : Option String × Outline}
    (member : entry ∈ outline.rows) : sizeOf entry.2 < sizeOf outline := by
  cases outline with
  | node name label span children =>
      obtain ⟨child, among, rfl⟩ := List.mem_map.1 member
      have smaller := List.sizeOf_lt_of_mem among
      obtain ⟨field, inner⟩ := child
      simp only [node.sizeOf_spec, Prod.mk.sizeOf_spec] at smaller ⊢
      omega
  | sequence elements =>
      obtain ⟨element, among, rfl⟩ := List.mem_map.1 member
      have smaller := List.sizeOf_lt_of_mem among
      simp only [sequence.sizeOf_spec] at smaller ⊢
      omega

/-- What holds of an outline as soon as it holds of all that is right below holds of every one. -/
theorem induction_rows {motive : Outline -> Prop}
    (step : ∀ outline, (∀ entry ∈ outline.rows, motive entry.2) -> motive outline)
    (outline : Outline) : motive outline :=
  step outline fun entry member =>
    have := sizeOf_lt_of_mem_rows member
    induction_rows step entry.2
termination_by outline

variable {registry : Registry} {node : String} {schema : NodeSchema} {fields : Fields Node}

/-- The outline of a child, under the same field. -/
def Shows (registry : Registry) (child : String × Child Node) (shown : String × Outline) : Prop :=
  child.1 = shown.1 ∧ ofChild registry child.2 = .ok (some shown.2)

/-- Only an absent child has nothing to show. -/
theorem ofChild_eq_none_iff {child : Child Node} :
    ofChild registry child = .ok none ↔ child.isAbsent = true := by
  cases child with
  | absent => exact ⟨fun _ => rfl, fun _ => rfl⟩
  | node item =>
      rw [ofChild]
      cases ofNode registry item <;> simp [Except.map, Child.isAbsent]
  | sequence items =>
      rw [ofChild]
      cases ofNodes registry items <;> simp [Except.map, Child.isAbsent]

/-- Looks into what the fields of a node hold, and leaves out what is absent. -/
def gather (attempts : List (String × Attempt)) : Except NodeError (List (String × Outline)) := do
  let present ← attempts.mapM (fun entry => do return (← entry.2).map (entry.1, ·))
  return present.filterMap id

/-- The first field is looked into first; what it shows stands in front. -/
theorem gather_cons (field : String) (attempt : Attempt) (rest : List (String × Attempt)) :
    gather ((field, attempt) :: rest) = attempt >>= fun shown =>
      gather rest >>= fun children => .ok ((shown.map (field, ·)).toList ++ children) := by
  unfold gather
  rw [List.mapM_cons]
  cases attempt with
  | error cause => rfl
  | ok shown =>
      generalize List.mapM (m := Except NodeError) _ rest = others
      cases others with
      | error cause => rfl
      | ok present => cases shown <;> rfl

/-- What is gathered from fields are the outlines of all that is not absent. -/
theorem gather_eq_ok_iff {held : List (String × Child Node)} {children : List (String × Outline)} :
    gather (held.map fun entry => (entry.1, ofChild registry entry.2)) = .ok children ↔
      List.Forall₂ (Shows registry) (held.filter fun entry => !entry.2.isAbsent) children := by
  induction held generalizing children with
  | nil =>
      rw [List.filter_nil, List.forall₂_nil_left_iff]
      exact ⟨fun gathered => (Except.ok.inj gathered).symm, fun none => none ▸ rfl⟩
  | cons entry rest inductionHypothesis =>
      obtain ⟨field, child⟩ := entry
      rw [List.map_cons, gather_cons]
      constructor
      · intro gathered
        obtain ⟨shown, attempt, gathered⟩ := steps_of_bind_ok gathered
        obtain ⟨others, behind, built⟩ := steps_of_bind_ok gathered
        cases built
        have tail := inductionHypothesis.1 behind
        cases shown with
        | none =>
            rw [List.filter_cons_of_neg (by simp [ofChild_eq_none_iff.1 attempt])]
            exact tail
        | some outline =>
            have present : child.isAbsent = false := by
              cases child with
              | absent => cases attempt
              | node | sequence => rfl
            rw [List.filter_cons_of_pos (by simp [present])]
            exact .cons ⟨rfl, attempt⟩ tail
      · intro each
        by_cases isAbsent : child.isAbsent = true
        · rw [List.filter_cons_of_neg (by simp [isAbsent])] at each
          refine bind_ok_of_steps (ofChild_eq_none_iff.2 isAbsent) ?_
          exact bind_ok_of_steps (inductionHypothesis.2 each) rfl
        · rw [List.filter_cons_of_pos (by simp [isAbsent]), List.forall₂_cons_left_iff] at each
          obtain ⟨⟨name, outline⟩, others, ⟨rfl, attempt⟩, behind, rfl⟩ := each
          refine bind_ok_of_steps attempt ?_
          exact bind_ok_of_steps (inductionHypothesis.2 behind) rfl

/-- Assembling looks the fields of the schema up in order and gathers what they show. -/
theorem assemble_eq (attempts : List (String × Attempt)) :
    assemble node schema attempts = schema.fieldNames.mapM (look node attempts) >>= gather := by
  unfold assemble
  congr
  funext field
  rw [look]
  cases attempts.lookup field <;> rfl

/-- Looking up the outlines of all fields finds those of what the fields hold. -/
theorem mapM_look_ofFields (names : List String) :
    names.mapM (look node (ofFields registry fields)) =
      (names.mapM (look node fields)).map
        (List.map fun entry => (entry.1, ofChild registry entry.2)) := by
  induction names with
  | nil => rfl
  | cons name rest inductionHypothesis =>
      rw [List.mapM_cons, List.mapM_cons, inductionHypothesis, look, look, lookup_ofFields]
      cases fields.lookup name with
      | none => rfl
      | some child =>
          generalize rest.mapM (look node fields) = others
          cases others <;> rfl

/-- The children of an outline are the outlines of the children that the node lists. -/
theorem assemble_eq_ok_iff {children : List (String × Outline)} :
    assemble node schema (ofFields registry fields) = .ok children ↔
      ∃ listed, fields.children node schema = .ok listed ∧
        List.Forall₂ (Shows registry) listed children := by
  -- Both begin with looking up all fields, and part only where the fields are looked into.
  rw [assemble_eq, Fields.children_eq, mapM_look_ofFields]
  cases schema.fieldNames.mapM (look node fields) with
  | error cause =>
      constructor
      · intro assembled
        cases assembled
      · rintro ⟨listed, listing, _⟩
        cases listing
  | ok held =>
      constructor
      · intro assembled
        exact ⟨_, rfl, gather_eq_ok_iff.1 assembled⟩
      · rintro ⟨listed, listing, each⟩
        cases listing
        exact gather_eq_ok_iff.2 each

/-- The outlines of some nodes are those of each of them in turn. -/
theorem ofNodes_eq (nodes : List Node) :
    ofNodes registry nodes = nodes.mapM (ofNode registry) := by
  induction nodes with
  | nil => rfl
  | cons first rest inductionHypothesis =>
      rw [ofNodes, inductionHypothesis, List.mapM_cons]

/-- A node has an outline exactly when its children have, field by field. -/
theorem ofNode_eq_ok_iff {name : String} {label : Option String} {span : Span} {outline : Outline} :
    ofNode registry (.mk name label span fields) = .ok outline ↔
      ∃ listed children, (Node.mk name label span fields).children registry = .ok listed ∧
        List.Forall₂ (Shows registry) listed children ∧
        outline = .node name label span children := by
  constructor
  · intro outlined
    obtain ⟨schema, resolved, assembling⟩ := steps_of_bind_ok outlined
    obtain ⟨children, assembled, built⟩ := steps_of_bind_ok assembling
    obtain ⟨listed, listing, each⟩ := assemble_eq_ok_iff.1 assembled
    exact ⟨listed, children, bind_ok_of_steps resolved listing, each, (Except.ok.inj built).symm⟩
  · rintro ⟨listed, children, listing, each, rfl⟩
    obtain ⟨schema, resolved, listing⟩ := steps_of_bind_ok listing
    exact bind_ok_of_steps resolved
      (bind_ok_of_steps (assemble_eq_ok_iff.2 ⟨listed, listing, each⟩) rfl)

/-- The outline of a node keeps the span of the node. -/
theorem of_ofNode {item : Node} {outline : Outline}
    (outlined : ofNode registry item = .ok outline) :
    outline.IsNode ∧ outline.span = item.span := by
  obtain ⟨name, label, span, fields⟩ := item
  obtain ⟨_, children, _, _, rfl⟩ := ofNode_eq_ok_iff.1 outlined
  exact ⟨trivial, rfl⟩

/-- A sequence of nodes covers the same stretch as that of their outlines. -/
theorem sequence_span_eq {nodes : List Node} {shown : List Outline}
    (each : List.Forall₂ (fun item outline => ofNode registry item = .ok outline) nodes shown) :
    (Outline.sequence shown).span = Child.sequenceSpan nodes := by
  have areNodes : ∀ outline ∈ shown, outline.IsNode := by
    induction each with
    | nil => exact fun _ member => absurd member List.not_mem_nil
    | cons here _ inductionHypothesis =>
        exact List.forall_mem_cons.2 ⟨(of_ofNode here).1, inductionHypothesis⟩
  have spans : shown.map span = nodes.map Node.span := by
    induction each with
    | nil => rfl
    | cons here _ inductionHypothesis =>
        rw [List.forall_mem_cons] at areNodes
        rw [List.map_cons, List.map_cons, (of_ofNode here).2, inductionHypothesis areNodes.2]
  cases each with
  | nil => rfl
  | @cons first firstShown rest restShown here _ =>
      have isLast := List.getLast?_eq_some_getLast (List.cons_ne_nil first rest)
      have lastShown := List.getLast?_eq_some_getLast (List.cons_ne_nil firstShown restShown)
      have lastSpan := congrArg List.getLast? spans
      rw [List.getLast?_map, List.getLast?_map, isLast, lastShown] at lastSpan
      rw [sequence_span rfl lastShown (areNodes _ List.mem_cons_self)
        (areNodes _ (List.mem_of_getLast? lastShown)), (of_ofNode here).2,
        Option.some.inj lastSpan, Child.sequenceSpan, isLast]
      rfl

end Outline

namespace Drawing

variable {registry : Registry} {outline : Outline}

/-- The outline of a part. -/
def Part.Outlined (registry : Registry) : Part -> Outline -> Prop
  | .node owner, outline => Outline.ofNode registry owner = .ok outline
  | .sequence elements, outline => ∃ shown, outline = .sequence shown ∧
      List.Forall₂ (fun element outline => Outline.ofNode registry element = .ok outline)
        elements shown

namespace Part

variable {part : Part}

/-- The outline of a part has its description. -/
theorem Outlined.description (outlined : part.Outlined registry outline) :
    outline.description = part.description := by
  cases part with
  | node owner =>
      obtain ⟨name, label, span, fields⟩ := owner
      obtain ⟨_, children, _, _, rfl⟩ := Outline.ofNode_eq_ok_iff.1 outlined
      rfl
  | sequence elements =>
      obtain ⟨shown, rfl, each⟩ := outlined
      rw [Outline.description, Part.description, each.length_eq]

/-- The outline of a part has its span. -/
theorem Outlined.span (outlined : part.Outlined registry outline) : outline.span = part.span := by
  cases part with
  | node owner => exact (Outline.of_ofNode outlined).2
  | sequence elements =>
      obtain ⟨shown, rfl, each⟩ := outlined
      exact Outline.sequence_span_eq each

/-- A field that shows an outline holds the part that is outlined. -/
theorem exists_outlined {field : String} {child : Child Node}
    (shown : Outline.ofChild registry child = .ok (some outline)) :
    ∃ part, Item.ofChild? (field, child) = some ⟨some field, part⟩ ∧
      part.Outlined registry outline := by
  cases child with
  | absent => cases shown
  | node item =>
      rw [Outline.ofChild] at shown
      obtain ⟨inner, outlined, same⟩ := exists_of_map_ok shown
      cases same
      exact ⟨.node item, rfl, outlined⟩
  | sequence items =>
      rw [Outline.ofChild, Outline.ofNodes_eq] at shown
      obtain ⟨inner, outlined, same⟩ := exists_of_map_ok shown
      cases same
      exact ⟨.sequence items, rfl, inner, rfl, mapM_eq_ok_iff.1 outlined⟩

/-- The outline of a part has the outlines of the items below the part below it. -/
theorem Outlined.below (outlined : part.Outlined registry outline) :
    ∃ items, part.below registry = .ok items ∧
      List.Forall₂ (fun item row => item.field = row.1 ∧ item.part.Outlined registry row.2) items
        outline.rows := by
  cases part with
  | node owner =>
      obtain ⟨name, label, span, fields⟩ := owner
      obtain ⟨listed, children, listing, each, rfl⟩ := Outline.ofNode_eq_ok_iff.1 outlined
      refine ⟨_, congrArg (Except.map _) listing, ?_⟩
      clear listing outlined
      induction each with
      | nil => exact .nil
      | @cons entry shown _ _ shows _ inductionHypothesis =>
          obtain ⟨field, child⟩ := entry
          obtain ⟨rfl, found⟩ := shows
          obtain ⟨part, isPart, outlined⟩ := exists_outlined found
          rw [List.filterMap_cons_some isPart]
          exact .cons ⟨rfl, outlined⟩ inductionHypothesis
  | sequence elements =>
      obtain ⟨shown, rfl, each⟩ := outlined
      refine ⟨_, rfl, ?_⟩
      rw [Outline.rows, List.forall₂_map_left_iff, List.forall₂_map_right_iff]
      exact each.imp fun element inner outlined => ⟨rfl, outlined⟩

end Part

end Drawing

end KiwiFront
