import KiwiFront.Peg.Spelling
import KiwiFront.Proofs.Tree.Built
import KiwiFront.Proofs.Tree.Spans
import KiwiFront.Tree.KeptTokens
import KiwiFront.Tree.Nesting

/-!
# Nested spans from tokens in order

An outline covers some tokens if its span runs from the first of them to the last one, and
each of its children has a stretch of them for itself, in the order of the schema. If the
tokens come one after the other, so do the children, and the spans nest. A node covers what
its fields cover, whatever its type is.
-/

namespace KiwiFront

open Peg

/-- Tokens come one after the other. -/
structure InOrder (tokens : List Token) : Prop where
  forward : ∀ token ∈ tokens, token.start ≤ token.stop
  apart : tokens.Pairwise fun earlier later => earlier.stop ≤ later.start

/-- A span runs from the first of some tokens to the last one. -/
structure Spanned (tokens : List Token) (span : Span) : Prop where
  starts : tokens.head?.map Token.start = some span.start
  stops : tokens.getLast?.map Token.stop = some span.stop

variable {tokens left right : List Token} {span leftSpan rightSpan : Span}

namespace InOrder

/-- Some of the tokens are in the same order. -/
theorem sublist (ordered : InOrder tokens) {part : List Token} (within : part.Sublist tokens) :
    InOrder part :=
  ⟨fun token member => ordered.forward token (within.subset member),
    ordered.apart.sublist within⟩

/-- No token starts in front of the first one. -/
theorem start_le {first token : Token} (ordered : InOrder tokens)
    (isFirst : tokens.head? = some first) (member : token ∈ tokens) :
    first.start ≤ token.start := by
  cases tokens with
  | nil => cases member
  | cons head rest =>
      obtain rfl : head = first := Option.some.inj isFirst
      rcases List.mem_cons.1 member with rfl | later
      · exact Position.le_refl token.start
      · have before := (List.pairwise_cons.1 ordered.apart).1 token later
        exact Position.le_trans (ordered.forward head List.mem_cons_self) before

/-- None stops behind the last one. -/
theorem le_stop {last token : Token} (ordered : InOrder tokens)
    (isLast : tokens.getLast? = some last) (member : token ∈ tokens) :
    token.stop ≤ last.stop := by
  obtain ⟨front, rfl⟩ := List.getLast?_eq_some_iff.1 isLast
  rcases List.mem_append.1 member with earlier | same
  · have before := (List.pairwise_append.1 ordered.apart).2.2 token earlier last (by simp)
    exact Position.le_trans before (ordered.forward last (by simp))
  · rw [List.mem_singleton.1 same]
    exact Position.le_refl last.stop

/-- Tokens that stop one before the next one starts come one after the other. -/
theorem of_isChain (forward : ∀ token ∈ tokens, token.start ≤ token.stop)
    (inOrder : tokens.IsChain fun token next => token.stop ≤ next.start) : InOrder tokens := by
  refine ⟨forward, ?_⟩
  induction tokens with
  | nil => exact .nil
  | cons first rest inductionHypothesis =>
      obtain ⟨firstForward, restForward⟩ := List.forall_mem_cons.1 forward
      have behind := inductionHypothesis restForward inOrder.tail
      refine List.pairwise_cons.2 ⟨?_, behind⟩
      intro later member
      cases rest with
      | nil => cases member
      | cons next others =>
          have before := (List.isChain_cons_cons.1 inOrder).1
          have same : InOrder (next :: others) := ⟨restForward, behind⟩
          exact Position.le_trans before (same.start_le rfl member)

end InOrder

namespace Spanned

/-- A token spans itself. -/
theorem token (token : Token) : Spanned [token] token.span :=
  ⟨rfl, rfl⟩

/-- Tokens start as their first tokens do, and stop as their last tokens do. -/
theorem of_ends (first : Spanned left leftSpan) (last : Spanned right rightSpan)
    (begins : left <+: tokens) (ends : right <:+ tokens) :
    Spanned tokens ⟨leftSpan.start, rightSpan.stop⟩ := by
  obtain ⟨behind, same⟩ := begins
  obtain ⟨front, same'⟩ := ends
  obtain ⟨head, isHead, start⟩ := Option.map_eq_some_iff.1 first.starts
  obtain ⟨final, isFinal, stop⟩ := Option.map_eq_some_iff.1 last.stops
  constructor
  · rw [← same, List.head?_append, isHead]
    exact congrArg some start
  · rw [← same', List.getLast?_append, isFinal]
    exact congrArg some stop

/-- Located tokens have a located span. -/
theorem located (spanned : Spanned tokens span)
    (located : ∀ token ∈ tokens, token.span.isLocated = true) : span.isLocated = true := by
  obtain ⟨first, isFirst, start⟩ := Option.map_eq_some_iff.1 spanned.starts
  obtain ⟨last, isLast, stop⟩ := Option.map_eq_some_iff.1 spanned.stops
  have startLocated := (Span.isLocated_iff.1 (located first (List.mem_of_head? isFirst))).1
  have stopLocated := (Span.isLocated_iff.1 (located last (List.mem_of_getLast? isLast))).2
  exact Span.isLocated_iff.2 ⟨start ▸ startLocated, stop ▸ stopLocated⟩

/-- The span of tokens in order does not go backwards. -/
theorem forward (spanned : Spanned tokens span) (ordered : InOrder tokens) :
    span.start ≤ span.stop := by
  obtain ⟨first, isFirst, start⟩ := Option.map_eq_some_iff.1 spanned.starts
  obtain ⟨last, isLast, stop⟩ := Option.map_eq_some_iff.1 spanned.stops
  have member := List.mem_of_head? isFirst
  rw [← start, ← stop]
  exact Position.le_trans (ordered.forward first member) (ordered.le_stop isLast member)

/-- Some of the tokens of a span lie within it. -/
theorem within (inner : Spanned left leftSpan) (outer : Spanned tokens span)
    (ordered : InOrder tokens) (part : left.Sublist tokens) : leftSpan.Within span := by
  obtain ⟨first, isFirst, start⟩ := Option.map_eq_some_iff.1 inner.starts
  obtain ⟨last, isLast, stop⟩ := Option.map_eq_some_iff.1 inner.stops
  obtain ⟨outerFirst, isOuterFirst, outerStart⟩ := Option.map_eq_some_iff.1 outer.starts
  obtain ⟨outerLast, isOuterLast, outerStop⟩ := Option.map_eq_some_iff.1 outer.stops
  constructor
  · rw [← start, ← outerStart]
    exact ordered.start_le isOuterFirst (part.subset (List.mem_of_head? isFirst))
  · rw [← stop, ← outerStop]
    exact ordered.le_stop isOuterLast (part.subset (List.mem_of_getLast? isLast))

/-- A span stops before the start of one that lies behind it. -/
theorem before (earlier : Spanned left leftSpan) (later : Spanned right rightSpan)
    (ordered : InOrder (left ++ right)) : leftSpan.stop ≤ rightSpan.start := by
  obtain ⟨last, isLast, stop⟩ := Option.map_eq_some_iff.1 earlier.stops
  obtain ⟨first, isFirst, start⟩ := Option.map_eq_some_iff.1 later.starts
  rw [← stop, ← start]
  exact (List.pairwise_append.1 ordered.apart).2.2 last (List.mem_of_getLast? isLast) first
    (List.mem_of_head? isFirst)

/-- A last token comes after the span of the tokens before it. -/
theorem stop_le_last {last : Token} (spanned : Spanned tokens span)
    (ordered : InOrder (tokens ++ [last])) :
    span.stop ≤ last.start ∧ last.start ≤ last.stop :=
  ⟨spanned.before (.token last) ordered, ordered.forward last (by simp)⟩

end Spanned

namespace Outline

/-- An outline covers tokens: it runs from the first to the last one, if it has a place, and
is nested if they are in order. -/
structure Covers (outline : Outline) (tokens : List Token) : Prop where
  spanned : outline.isPlaced = true -> Spanned tokens outline.span
  nested : InOrder tokens -> outline.Nested

def IsNode : Outline -> Prop
  | .node _ _ _ _ => True
  | .sequence _ => False

/-- The outline of a node has a place. -/
theorem isPlaced_of_isNode {outline : Outline} (isNode : outline.IsNode) :
    outline.isPlaced = true := by
  cases outline with
  | node => rfl
  | sequence => cases isNode

variable {outlines : List Outline}

/-- What is placed in a row spans some of its tokens. -/
theorem spanned_of_mem (row : SpellsEach Covers outlines tokens) {part : Outline}
    (member : part ∈ outlines.filter isPlaced) :
    ∃ piece, piece.Sublist tokens ∧ Spanned piece part.span := by
  obtain ⟨among, placed⟩ := List.mem_filter.1 member
  obtain ⟨piece, within, covers⟩ := row.of_mem among
  exact ⟨piece, within, covers.spanned placed⟩

/-- What stands in a row of tokens in order is nested. -/
theorem nested_of_mem (row : SpellsEach Covers outlines tokens) (ordered : InOrder tokens)
    {part : Outline} (member : part ∈ outlines) : part.Nested := by
  obtain ⟨piece, within, covers⟩ := row.of_mem member
  exact covers.nested (ordered.sublist within)

/-- Outlines over tokens in order are in order. -/
theorem inOrder_of_row (row : SpellsEach Covers outlines tokens) (ordered : InOrder tokens) :
    (outlines.filter isPlaced).Pairwise Before := by
  induction row with
  | none => exact .nil
  | @more outline outlines first rest head tail inductionHypothesis =>
      have behind := inductionHypothesis (ordered.sublist (List.sublist_append_right first rest))
      by_cases placed : outline.isPlaced = true
      · rw [List.filter_cons_of_pos placed]
        refine List.pairwise_cons.2 ⟨?_, behind⟩
        intro later member
        -- Whatever a later part covers stands behind all that this one covers.
        obtain ⟨piece, within, spanned⟩ := spanned_of_mem tail member
        have pair := ordered.sublist ((List.Sublist.refl first).append within)
        exact (head.spanned placed).before spanned pair
      · rw [List.filter_cons_of_neg placed]
        exact behind

/-- A node covers what its children cover, if its span says so. -/
theorem Covers.node {name : String} {label : Option String} {children : List (String × Outline)}
    (row : SpellsEach Covers (children.map Prod.snd) tokens) (spanned : Spanned tokens span) :
    (Outline.node name label span children).Covers tokens := by
  refine ⟨fun _ => spanned, ?_⟩
  intro ordered
  refine .node (spanned.forward ordered) ?_ (inOrder_of_row row ordered) ?_
  · intro child member
    obtain ⟨piece, within, inner⟩ := spanned_of_mem row member
    exact inner.within spanned ordered within
  · intro child member
    exact nested_of_mem row ordered (List.mem_map_of_mem member)

/-- A sequence reaches from its first node to its last one. -/
theorem sequence_span {first last : Outline} (isFirst : outlines.head? = some first)
    (isLast : outlines.getLast? = some last) (firstNode : first.IsNode) (lastNode : last.IsNode) :
    (Outline.sequence outlines).span = ⟨first.span.start, last.span.stop⟩ := by
  cases first with
  | sequence => cases firstNode
  | node =>
      cases last with
      | sequence => cases lastNode
      | node => simp only [span, isFirst, isLast]

/-- A sequence of nodes covers what they cover. -/
theorem Covers.sequence (row : SpellsEach Covers outlines tokens)
    (nodes : ∀ outline ∈ outlines, outline.IsNode) :
    (Outline.sequence outlines).Covers tokens := by
  have placed : outlines.filter isPlaced = outlines :=
    List.filter_eq_self.2 fun outline member => isPlaced_of_isNode (nodes outline member)
  have spanned : (Outline.sequence outlines).isPlaced = true ->
      Spanned tokens (Outline.sequence outlines).span := by
    intro isPlaced
    cases outlines with
    | nil => cases isPlaced
    | cons first rest =>
        obtain ⟨front, begins, covers⟩ := row.first
        have isLast := List.getLast?_eq_some_getLast (List.cons_ne_nil first rest)
        obtain ⟨back, ends, covers'⟩ := row.last isLast
        have firstNode := nodes first List.mem_cons_self
        have lastNode := nodes _ (List.mem_of_getLast? isLast)
        rw [sequence_span rfl isLast firstNode lastNode]
        exact (covers.spanned (isPlaced_of_isNode firstNode)).of_ends
          (covers'.spanned (isPlaced_of_isNode lastNode)) begins ends
  refine ⟨spanned, ?_⟩
  intro ordered
  have inOrder := inOrder_of_row row ordered
  rw [placed] at inOrder
  refine .sequence ?_ inOrder fun element member => nested_of_mem row ordered member
  intro element member
  have isPlaced : (Outline.sequence outlines).isPlaced = true := by
    cases outlines with
    | nil => cases member
    | cons => rfl
  obtain ⟨piece, within, inner⟩ := spanned_of_mem row (placed.symm ▸ member)
  exact inner.within (spanned isPlaced) ordered within

end Outline

/-- The outline of a node covers tokens. -/
def Node.Covers (node : Node) (tokens : List Token) : Prop :=
  ∃ outline, Outline.ofNode KiwiTypes.declared node = .ok outline ∧ outline.IsNode ∧
    outline.Covers tokens

/-- The outline of a child covers tokens, those of a sequence one after the other. -/
def Child.Covers : Child Node -> List Token -> Prop
  | .node item, tokens => item.Covers tokens
  | .sequence items, tokens => SpellsEach Node.Covers items tokens
  | .absent, tokens => tokens = []

/-- What a field holds covers tokens. -/
def Fields.Covers (fields : Fields Node) (field : String) (tokens : List Token) : Prop :=
  ∃ child, fields.lookup field = some child ∧ child.Covers tokens

namespace Outline

/-- Nodes in a row have outlines in a row. -/
theorem ofNodes_covers {items : List Node} (row : SpellsEach Node.Covers items tokens) :
    ∃ elements, ofNodes KiwiTypes.declared items = .ok elements ∧
      (∀ element ∈ elements, element.IsNode) ∧ SpellsEach Covers elements tokens := by
  induction row with
  | none => exact ⟨[], rfl, fun _ member => absurd member List.not_mem_nil, .none⟩
  | more head _ inductionHypothesis =>
      obtain ⟨first, shown, isNode, covers⟩ := head
      obtain ⟨rest, shownRest, nodes, row⟩ := inductionHypothesis
      refine ⟨first :: rest, ?_, List.forall_mem_cons.2 ⟨isNode, nodes⟩, .more covers row⟩
      rw [ofNodes, shown, shownRest]
      rfl

/-- The outline of a child covers what the child does, and there is none of an absent one. -/
theorem ofChild_covers {child : Child Node} (covers : child.Covers tokens) :
    ∃ shown, ofChild KiwiTypes.declared child = .ok shown ∧
      SpellsEach Covers shown.toList tokens := by
  cases child with
  | node item =>
      obtain ⟨outline, shown, _, covers⟩ := covers
      exact ⟨some outline, by rw [ofChild, shown]; rfl, .one covers⟩
  | sequence items =>
      obtain ⟨elements, shown, nodes, row⟩ := ofNodes_covers covers
      exact ⟨some (.sequence elements), by rw [ofChild, shown]; rfl, .one (.sequence row nodes)⟩
  | absent =>
      obtain rfl : tokens = [] := covers
      exact ⟨none, rfl, .none⟩

/-- The outline of a field is found where the field is. -/
theorem lookup_ofFields (registry : Registry) (fields : Fields Node) (field : String) :
    (ofFields registry fields).lookup field = (fields.lookup field).map (ofChild registry) := by
  induction fields with
  | nil => rfl
  | cons first rest inductionHypothesis =>
      obtain ⟨name, child⟩ := first
      rw [ofFields, List.lookup_cons, List.lookup_cons]
      cases field == name with
      | true => rfl
      | false => exact inductionHypothesis

/-- The children that a schema lists cover what its fields cover. -/
theorem assemble_covers {fields : Fields Node} {node : String} {schema : NodeSchema}
    (row : SpellsEach fields.Covers schema.fieldNames tokens) :
    ∃ children, assemble node schema (ofFields KiwiTypes.declared fields) = .ok children ∧
      SpellsEach Covers (children.map Prod.snd) tokens := by
  unfold assemble
  -- All fields are found before any is looked into, so both walks go along in the induction.
  generalize schema.fieldNames = names at row
  induction row with
  | none => exact ⟨[], rfl, .none⟩
  | @more field names first rest head _ inductionHypothesis =>
      obtain ⟨child, found, covers⟩ := head
      obtain ⟨shown, attempt, here⟩ := ofChild_covers covers
      obtain ⟨children, assembled, behind⟩ := inductionHypothesis
      obtain ⟨listed, named, assembled⟩ := steps_of_bind_ok assembled
      obtain ⟨present, forced, same⟩ := steps_of_bind_ok assembled
      refine ⟨(shown.map (field, ·)).toList ++ children, ?_, ?_⟩
      · rw [List.mapM_cons, named, lookup_ofFields, found, Option.map_some, attempt]
        change (List.mapM _ ((field, Except.ok shown) :: listed) >>= fun present =>
          Except.ok (List.filterMap id present)) = _
        rw [List.mapM_cons, forced]
        cases same
        cases shown <;> rfl
      · have together := here.append behind
        cases shown <;> exact together

end Outline

/-- A node covers what its fields cover, if its span says so. -/
theorem Node.covers_mk {name : String} {label : Option String} {fields : Fields Node}
    {names : List String} (listed : (name, names) ∈ KiwiTypes.childNames)
    (row : SpellsEach fields.Covers names tokens) (spanned : Spanned tokens span) :
    (Node.mk name label span fields).Covers tokens := by
  have named := KiwiTypes.schema_fieldNames listed
  cases found : KiwiTypes.declared.schema name with
  | error cause =>
      rw [found] at named
      cases named
  | ok schema =>
      rw [found] at named
      obtain rfl : schema.fieldNames = names := Except.ok.inj named
      obtain ⟨children, assembled, row⟩ := Outline.assemble_covers row
      refine ⟨.node name label span children, ?_, trivial, .node row spanned⟩
      rw [Outline.ofNode, found]
      change (Outline.assemble name schema (Outline.ofFields KiwiTypes.declared fields)
        >>= fun children => .ok (Outline.node name label span children)) = _
      rw [assembled]
      rfl

/-- A token has no fields in its schema. -/
theorem KiwiTypes.schema_leaf :
    (declared.schema "TokenWrapper").map NodeSchema.fieldNames = .ok [] := by
  cbv

/-- A leaf has no children. -/
theorem Token.toNode_covers (token : Token) : token.toNode.Covers [token] := by
  have named := KiwiTypes.schema_leaf
  cases found : KiwiTypes.declared.schema "TokenWrapper" with
  | error cause =>
      rw [found] at named
      cases named
  | ok schema =>
      rw [found] at named
      have none : schema.fieldNames = [] := Except.ok.inj named
      refine ⟨.node "TokenWrapper" token.toNode.label token.span [], ?_, trivial, ?_, ?_⟩
      · rw [Token.toNode, Outline.ofNode, found]
        change (Outline.assemble "TokenWrapper" schema [] >>= fun children =>
          .ok (Outline.node "TokenWrapper" token.toNode.label token.span children)) = _
        rw [Outline.assemble, none]
        rfl
      · exact fun _ => .token token
      · intro ordered
        have forward := ordered.forward token List.mem_cons_self
        exact .node forward (fun _ member => absurd member List.not_mem_nil) .nil
          (fun _ member => absurd member List.not_mem_nil)

/-- Tokens in a row cover themselves. -/
theorem leaves_cover (tokens : List Token) : (leaves tokens).Covers tokens := by
  have row : SpellsEach Node.Covers (tokens.map Token.toNode)
      (tokens.flatMap fun token => [token]) :=
    .of_map fun token _ => token.toNode_covers
  rwa [List.flatMap_singleton'] at row

/-- A part covers its tokens, if it is there. -/
theorem Child.ofOption_covers {Item : Type} {nodeOf : Item -> Node}
    {tokensOf : Item -> List Token} {part : Option Item}
    (each : ∀ item ∈ part, (nodeOf item).Covers (tokensOf item)) :
    (Child.ofOption (part.map nodeOf)).Covers (optionalTokens tokensOf part) := by
  cases part with
  | none => rfl
  | some item => exact each item rfl

end KiwiFront
