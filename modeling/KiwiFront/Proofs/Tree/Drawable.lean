import KiwiFront.Proofs.Text.OneLine
import KiwiFront.Proofs.Tree.Items

/-!
# All trees can be drawn

Each element has the fields that its schema lists, so it lists its children, and all of them have
outlines. What is written in the line of an item stands on one line if its label does. Labels are
quoted texts, but for those of names.
-/

namespace KiwiFront

open Drawing
open Text (OneLine)

/-- The nodes that a field holds. -/
def Child.items {Item : Type} : Child Item -> List Item
  | .node item => [item]
  | .sequence items => items
  | .absent => []

/-- A node that lists its children, as do all nodes below it, and with descriptions on one line. -/
inductive Node.Drawable (registry : Registry) : Node -> Prop where
  | mk {node listed} (listing : node.children registry = .ok listed)
      (plain : OneLine (describe node.name node.label)) (fields : ∀ entry ∈ listed, OneLine entry.1)
      (below : ∀ entry ∈ listed, ∀ item ∈ entry.2.items, Drawable registry item) :
      Drawable registry node

variable {registry : Registry} {node : Node}

namespace Node

/-- A listed child is present. -/
theorem isAbsent_of_mem_children {listed : List (String × Child Node)}
    (listing : node.children registry = .ok listed) {entry : String × Child Node}
    (member : entry ∈ listed) : entry.2.isAbsent = false := by
  obtain ⟨schema, _, listing⟩ := steps_of_bind_ok listing
  obtain ⟨held, _, _, rfl⟩ := Fields.children_eq_ok_iff.1 listing
  simpa using (List.mem_filter.1 member).2

/-- A present child has an outline if all of its nodes have one. -/
theorem exists_ofChild {child : Child Node} (present : child.isAbsent = false)
    (each : ∀ item ∈ child.items, ∃ outline, Outline.ofNode registry item = .ok outline) :
    ∃ outline, Outline.ofChild registry child = .ok (some outline) := by
  cases child with
  | absent => cases present
  | node item =>
      obtain ⟨outline, outlined⟩ := each item (List.mem_singleton.2 rfl)
      exact ⟨outline, by rw [Outline.ofChild, outlined]; rfl⟩
  | sequence items =>
      obtain ⟨shown, outlined⟩ := exists_forall₂ each
      have mapped : items.mapM (Outline.ofNode registry) = .ok shown := mapM_eq_ok_iff.2 outlined
      refine ⟨.sequence shown, ?_⟩
      rw [Outline.ofChild, Outline.ofNodes_eq, mapped]
      rfl

/-- A node has an outline if all nodes in it list their children. -/
theorem Drawable.exists_outline (drawable : node.Drawable registry) :
    ∃ outline, Outline.ofNode registry node = .ok outline := by
  induction drawable with
  | @mk node listed listing _ _ _ inductionHypothesis =>
      have each : ∀ entry ∈ listed, ∃ shown, Outline.Shows registry entry shown := by
        intro entry member
        obtain ⟨outline, shown⟩ := exists_ofChild (isAbsent_of_mem_children listing member)
          (inductionHypothesis entry member)
        exact ⟨(entry.1, outline), rfl, shown⟩
      obtain ⟨children, shown⟩ := exists_forall₂ each
      obtain ⟨name, label, span, fields⟩ := node
      exact ⟨_, Outline.ofNode_eq_ok_iff.2 ⟨listed, children, listing, shown, rfl⟩⟩

end Node

namespace Drawing

/-- An item of drawable nodes, with the name of its field on one line. -/
def Item.Drawable (registry : Registry) (item : Item) : Prop :=
  (∀ field ∈ item.field, OneLine field) ∧
    match item.part with
    | .node owner => owner.Drawable registry
    | .sequence elements => ∀ element ∈ elements, element.Drawable registry

namespace Item

variable {item : Item}

/-- A drawable node is drawable at the top. -/
theorem drawable_root (drawable : node.Drawable registry) : (root node).Drawable registry :=
  ⟨fun _ isField => (nomatch isField), drawable⟩

/-- All that is below a drawable item is drawable. -/
theorem Drawable.below (drawable : item.Drawable registry) {items : List Item}
    (belows : item.part.below registry = .ok items) : ∀ next ∈ items, next.Drawable registry := by
  obtain ⟨field, part⟩ := item
  cases part with
  | node owner =>
      obtain ⟨_, ⟨listing, _, fields, below⟩⟩ := drawable
      rw [Part.below, listing] at belows
      cases belows
      intro next member
      obtain ⟨⟨name, child⟩, among, isNext⟩ := List.mem_filterMap.1 member
      have named := fields _ among
      have nodes := below _ among
      cases child with
      | absent => cases isNext
      | node inner =>
          cases isNext
          exact ⟨fun _ isField => Option.some.inj isField ▸ named,
            nodes inner (List.mem_singleton.2 rfl)⟩
      | sequence elements =>
          cases isNext
          exact ⟨fun _ isField => Option.some.inj isField ▸ named, nodes⟩
  | sequence elements =>
      cases belows
      exact List.forall_mem_map.2 fun element member => drawable_root (drawable.2 element member)

/-- Whatever stands at an address in a drawable item is drawable. -/
theorem Drawable.at? {address : Address} {found : Item} (drawable : item.Drawable registry)
    (here : item.at? registry address = some found) : found.Drawable registry := by
  induction address generalizing item with
  | nil =>
      cases here
      exact drawable
  | cons index rest inductionHypothesis =>
      unfold Item.at? at here
      split at here
      · cases here
      · next items belows =>
        obtain ⟨next, isNext, here⟩ := Option.bind_eq_some_iff.1 here
        exact inductionHypothesis (drawable.below belows next (List.mem_of_getElem? isNext)) here

/-- The text of a drawable item is on one line. -/
theorem Drawable.oneLine_text (drawable : item.Drawable registry) : OneLine item.text := by
  obtain ⟨field, part⟩ := item
  obtain ⟨named, drawable⟩ := drawable
  have described : OneLine part.description := by
    cases part with
    | node owner =>
        obtain ⟨_, plain, _, _⟩ := drawable
        exact plain
    | sequence elements =>
        exact (OneLine.append (by decide) (Text.oneLine_natural _)).append (by decide)
  cases field with
  | none => exact OneLine.append (by decide : OneLine "") described
  | some field => exact ((named field rfl).append (by decide)).append described

/-- A frame is drawn by lines and blanks alone. -/
theorem oneLine_frame (root : Item) (address : Address) :
    OneLine (root.frame registry address) := by
  unfold frame
  split
  · decide
  · refine .append (Text.oneLine_join (List.forall_mem_map.2 fun depth _ => ?_)) ?_
    · split <;> decide
    · split <;> decide

/-- A span is written with digits, colons and dots. -/
theorem oneLine_spanSuffix (item : Item) : OneLine item.spanSuffix := by
  unfold spanSuffix
  split
  · exact (OneLine.append (by decide) (Span.oneLine_display _)).append (by decide)
  · decide

/-- The line of a drawable item is one line. -/
theorem Drawable.oneLine_line (drawable : item.Drawable registry) (root : Item) (showSpans : Bool)
    (address : Address) : OneLine (root.line registry showSpans address item) := by
  refine ((oneLine_frame root address).append drawable.oneLine_text).append ?_
  cases showSpans with
  | false => exact (by decide : OneLine "")
  | true => exact oneLine_spanSuffix item

end Item

end Drawing

namespace Node

/-- A node is drawable if it has all the fields of its schema, with drawable nodes in them. -/
theorem drawable_mk {name : String} {label : Option String} {span : Span} {fields : Fields Node}
    {names : List String} {children : List (Child Node)}
    (named : (registry.schema name).map NodeSchema.fieldNames = .ok names)
    (held : names.map (fun field => fields.lookup field) = children.map some)
    (plain : OneLine (describe name label)) (plainNames : ∀ field ∈ names, OneLine field)
    (below : ∀ child ∈ children, ∀ item ∈ child.items, item.Drawable registry) :
    (Node.mk name label span fields).Drawable registry := by
  cases found : registry.schema name with
  | error cause =>
      rw [found] at named
      cases named
  | ok schema =>
      rw [found] at named
      obtain rfl : schema.fieldNames = names := Except.ok.inj named
      have paired : List.Forall₂ (fun field child => fields.lookup field = some child)
          schema.fieldNames children := by
        rw [← List.forall₂_eq_eq_eq, List.forall₂_map_left_iff, List.forall₂_map_right_iff] at held
        exact held
      have entries : fields.children name schema = .ok ((schema.fieldNames.zip children).filter
          fun entry => !entry.2.isAbsent) :=
        Fields.children_eq_ok_iff.2 ⟨_, (List.map_fst_zip paired.length_eq.le).symm,
          fun _ member => List.forall₂_zip paired member, rfl⟩
      have resolved : (registry.schema name).mapError NodeError.schema = .ok schema := by
        rw [found]
        rfl
      have among {entry : String × Child Node}
          (member : entry ∈ (schema.fieldNames.zip children).filter (fun entry =>
            !entry.2.isAbsent)) : entry.1 ∈ schema.fieldNames ∧ entry.2 ∈ children :=
        List.of_mem_zip (List.mem_filter.1 member).1
      refine .mk (bind_ok_of_steps resolved entries) plain ?_ ?_
      · exact fun entry member => plainNames entry.1 (among member).1
      · intro entry member item isItem
        exact below entry.2 (among member).2 item isItem

/-- A node without children is drawable. -/
theorem drawable_mk_of_nil {name : String} {label : Option String} {span : Span}
    {fields : Fields Node} (named : (registry.schema name).map NodeSchema.fieldNames = .ok [])
    (plain : OneLine (describe name label)) : (Node.mk name label span fields).Drawable registry :=
  have held : ([] : List String).map (fun field => fields.lookup field) =
      ([] : List (Child Node)).map some := rfl
  drawable_mk named held plain (fun _ member => absurd member List.not_mem_nil)
    (fun _ member => absurd member List.not_mem_nil)

end Node

namespace KiwiTypes

/-- A list has no fields in its schema. -/
theorem schema_list : (declared.schema Node.listName).map NodeSchema.fieldNames = .ok [] := by
  cbv

/-- The fields of the language have names on one line. -/
theorem childNames_oneLine :
    ∀ entry ∈ childNames, OneLine entry.1 ∧ ∀ field ∈ entry.2, OneLine field := by
  decide

end KiwiTypes

/-- Whether a node of the language is drawable. -/
def Node.IsDrawn (node : Node) : Prop :=
  node.Drawable KiwiTypes.declared

namespace Child

/-- Whether all nodes in a field are drawable. -/
def IsDrawn (child : Child Node) : Prop :=
  ∀ item ∈ child.items, item.IsDrawn

/-- A field with a node is drawn if the node is. -/
@[simp] theorem isDrawn_node : (Child.node node).IsDrawn ↔ node.IsDrawn :=
  List.forall_mem_singleton

/-- There is nothing to draw of what is absent. -/
@[simp] theorem isDrawn_absent : (Child.absent : Child Node).IsDrawn :=
  fun _ member => absurd member List.not_mem_nil

/-- A sequence of drawable nodes. -/
theorem isDrawn_map {Item : Type} {nodeOf : Item -> Node} {items : List Item}
    (each : ∀ item ∈ items, (nodeOf item).IsDrawn) :
    (Child.sequence (items.map nodeOf)).IsDrawn :=
  List.forall_mem_map.2 each

/-- A part is drawn if it is there. -/
theorem isDrawn_ofOption {Item : Type} {nodeOf : Item -> Node} {part : Option Item}
    (each : ∀ item ∈ part, (nodeOf item).IsDrawn) :
    (Child.ofOption (part.map nodeOf)).IsDrawn := by
  cases part with
  | none => exact isDrawn_absent
  | some item => exact isDrawn_node.2 (each item rfl)

end Child

/-- An element is drawable if its children are, and its label is on one line. -/
theorem Node.isDrawn_mk {name : String} {label : Option String} {span : Span}
    {fields : Fields Node} {names : List String}
    (listed : (name, names) ∈ KiwiTypes.childNames) (children : List (Child Node))
    (held : names.map (fun field => fields.lookup field) = children.map some)
    (plain : ∀ text ∈ label, OneLine text) (below : ∀ child ∈ children, child.IsDrawn) :
    (Node.mk name label span fields).IsDrawn :=
  have oneLine := KiwiTypes.childNames_oneLine _ listed
  drawable_mk (KiwiTypes.schema_fieldNames listed) held (oneLine_describe oneLine.1 plain)
    oneLine.2 below

/-- A list of nodes is drawn without looking at them. -/
theorem Node.isDrawn_list (elements : List Node) : (Node.ofList elements).IsDrawn :=
  drawable_mk_of_nil KiwiTypes.schema_list (by decide)

/-- A token is drawn. -/
@[simp] theorem Token.isDrawn (token : Token) : token.toNode.IsDrawn :=
  Node.drawable_mk_of_nil KiwiTypes.schema_leaf
    (oneLine_describe (by decide) fun _ isLabel => Option.some.inj isLabel ▸ token.oneLine_label)

/-- So are tokens in a row. -/
theorem isDrawn_leaves (tokens : List Token) : (leaves tokens).IsDrawn :=
  Child.isDrawn_map fun token _ => token.isDrawn

/-- A name is drawn if its segments are on one line. -/
theorem Identifier.isDrawn {identifier : Identifier}
    (plain : ∀ token ∈ identifier.segments, OneLine token.text) : identifier.toNode.IsDrawn := by
  have listed : ("Identifier", ["attrs"]) ∈ KiwiTypes.childNames := by decide
  refine Node.isDrawn_mk listed [leaves identifier.segments] rfl ?_ ?_
  · exact fun _ isLabel => Option.some.inj isLabel ▸ identifier.oneLine_dotted plain
  · exact List.forall_mem_singleton.2 (isDrawn_leaves identifier.segments)

/-- A package header is drawn if its name is. -/
theorem PackageHeader.isDrawn {header : PackageHeader}
    (plain : ∀ token ∈ header.identifier.segments, OneLine token.text) :
    header.toNode.IsDrawn := by
  have listed : ("PackageHeader", ["keyword", "identifier"]) ∈ KiwiTypes.childNames := by decide
  refine Node.isDrawn_mk listed [.node header.keyword.toNode, .node header.identifier.toNode] rfl
    (fun _ isLabel => nomatch isLabel) ?_
  simp [Identifier.isDrawn plain]

/-- A suffix is described by its type alone. -/
theorem ImportSuffix.isDrawn (suffix : ImportSuffix) : suffix.toNode.IsDrawn := by
  rcases suffix with (suffix | suffix)
  · have listed : ("ImportAlias", ["keyword", "identifier"]) ∈ KiwiTypes.childNames := by decide
    refine Node.isDrawn_mk listed [.node suffix.keyword.toNode, .node suffix.identifier.toNode] rfl
      (fun _ isLabel => nomatch isLabel) ?_
    simp
  · have listed : ("ImportWildcard", ["dot", "star"]) ∈ KiwiTypes.childNames := by decide
    refine Node.isDrawn_mk listed [.node suffix.dot.toNode, .node suffix.star.toNode] rfl
      (fun _ isLabel => nomatch isLabel) ?_
    simp

/-- An import is drawn if its name is. -/
theorem ImportHeader.isDrawn {header : ImportHeader}
    (plain : ∀ token ∈ header.identifier.segments, OneLine token.text) :
    header.toNode.IsDrawn := by
  have listed : ("ImportHeader", ["keyword", "identifier", "suffix"]) ∈ KiwiTypes.childNames := by
    decide
  have suffix := Child.isDrawn_ofOption fun suffix (_ : suffix ∈ header.suffix) => suffix.isDrawn
  refine Node.isDrawn_mk listed [.node header.keyword.toNode, .node header.identifier.toNode,
    .ofOption (header.suffix.map ImportSuffix.toNode)] rfl (fun _ isLabel => nomatch isLabel) ?_
  simp [Identifier.isDrawn plain, suffix]

/-- A type is drawn if its segments are on one line. -/
theorem UserType.isDrawn {type : UserType} (plain : ∀ token ∈ type.segments, OneLine token.text) :
    type.toNode.IsDrawn := by
  have listed : ("UserType", ["qualifier", "identifier"]) ∈ KiwiTypes.childNames := by decide
  induction type with
  | simple identifier span =>
      refine Node.isDrawn_mk listed [.absent, .node identifier.toNode] rfl
        (fun _ isLabel => Option.some.inj isLabel ▸ UserType.oneLine_dotted plain) ?_
      simp
  | qualified qualifier identifier span inductionHypothesis =>
      refine Node.isDrawn_mk listed [.node qualifier.toNode, .node identifier.toNode] rfl
        (fun _ isLabel => Option.some.inj isLabel ▸ UserType.oneLine_dotted plain) ?_
      simp [inductionHypothesis (List.forall_mem_append.1 plain).1]

/-- So is a type in parentheses. -/
theorem TypeReference.isDrawn {type : TypeReference}
    (plain : ∀ token ∈ type.nameTokens, OneLine token.text) : type.toNode.IsDrawn := by
  induction type with
  | user type => exact UserType.isDrawn plain
  | parenthesized opening inner closing span inductionHypothesis =>
      have listed : ("ParenthesizedType", ["open", "inner", "close"]) ∈ KiwiTypes.childNames := by
        decide
      refine Node.isDrawn_mk listed [.node opening.toNode, .node inner.toNode,
        .node closing.toNode] rfl (fun _ isLabel => nomatch isLabel) ?_
      simp [inductionHypothesis plain]

/-- A function is drawn if its name and its type are. -/
theorem FunctionDeclaration.isDrawn {declaration : FunctionDeclaration}
    (plain : ∀ token ∈ declaration.nameTokens, OneLine token.text) :
    declaration.toNode.IsDrawn := by
  have listed : ("FunctionDeclaration", ["modifiers", "keyword", "identifier", "close_paren",
      "return_type"]) ∈ KiwiTypes.childNames := by decide
  have returned : (Child.ofOption (declaration.returnType.map TypeReference.toNode)).IsDrawn := by
    refine Child.isDrawn_ofOption fun type isReturned => TypeReference.isDrawn ?_
    rw [nameTokens, Option.mem_def.1 isReturned] at plain
    exact plain
  refine Node.isDrawn_mk listed [leaves declaration.modifiers, .node declaration.keyword.toNode,
    .node declaration.identifier.toNode, .node declaration.closing.toNode,
    .ofOption (declaration.returnType.map TypeReference.toNode)] rfl
    (fun _ isLabel => nomatch isLabel) ?_
  simp [isDrawn_leaves, returned]

/-- A file is drawn if all names in it are on one line. -/
theorem File.isDrawn {file : File} (plain : ∀ token ∈ file.nameTokens, OneLine token.text) :
    file.toNode.IsDrawn := by
  have listed : ("File", ["package_header", "imports", "declarations", "end_marker"]) ∈
      KiwiTypes.childNames := by decide
  obtain ⟨front, functionNames⟩ := List.forall_mem_append.1 plain
  obtain ⟨packageName, importNames⟩ := List.forall_mem_append.1 front
  have imports : (Child.sequence (file.imports.map ImportHeader.toNode)).IsDrawn :=
    Child.isDrawn_map fun header member => ImportHeader.isDrawn fun token within =>
      importNames token (List.mem_flatMap.2 ⟨header, member, within⟩)
  have declarations :
      (Child.sequence (file.declarations.map FunctionDeclaration.toNode)).IsDrawn :=
    Child.isDrawn_map fun declaration member => FunctionDeclaration.isDrawn fun token within =>
      functionNames token (List.mem_flatMap.2 ⟨declaration, member, within⟩)
  refine Node.isDrawn_mk listed [.node file.packageHeader.toNode,
    .sequence (file.imports.map ImportHeader.toNode),
    .sequence (file.declarations.map FunctionDeclaration.toNode), .node file.endMarker.toNode] rfl
    (fun _ isLabel => nomatch isLabel) ?_
  simp [PackageHeader.isDrawn packageName, imports, declarations]

namespace KiwiRule

/-- Whatever a rule reads is drawable, if the names in it are on one line. -/
theorem isDrawn (rule : KiwiRule) {value : rule.Value}
    (plain : ∀ token ∈ rule.nameTokens value, OneLine token.text) :
    (rule.toNode value).IsDrawn := by
  cases rule with
  | start => exact File.isDrawn plain
  | packageHeader => exact PackageHeader.isDrawn plain
  | identifier => exact Identifier.isDrawn plain
  | importHeader => exact ImportHeader.isDrawn plain
  | importSuffix => exact ImportSuffix.isDrawn value
  | importAlias => exact ImportSuffix.isDrawn (.alias value)
  | topLevelObject | declaration | functionDeclaration => exact FunctionDeclaration.isDrawn plain
  | type | parenthesizedType => exact TypeReference.isDrawn plain
  | userType => exact UserType.isDrawn plain
  | importList | topLevelObjectList | modifiers => exact Node.isDrawn_list _
  | simpleIdentifier | semi | modifier | simpleUserType => exact Token.isDrawn value

/-- Whatever a rule reads is drawn, if the names in it are on one line: each node and each
sequence in it has one line, in the order of their addresses. What a line starts with is told by
the address and by which items have later siblings. With spans, the lines of located items end
with them, and all else is the same. -/
theorem draw_lines (rule : KiwiRule) (value : rule.Value)
    (plain : ∀ token ∈ rule.nameTokens value, OneLine token.text) :
    let root := Item.root (rule.toNode value)
    ∃ (registry : Registry) (outline : Outline) (entries : List (Address × Item)),
      KiwiTypes.registry = .ok registry ∧
      Outline.ofNode registry (rule.toNode value) = .ok outline ∧
      (entries.Pairwise fun earlier later => earlier.1 < later.1) ∧
      (∀ address item, (address, item) ∈ entries ↔ root.at? registry address = some item) ∧
      (∀ showSpans, outline.draw showSpans = String.join
        (entries.map fun entry => root.line registry showSpans entry.1 entry.2 ++ "\n")) ∧
      (∀ showSpans, ∀ entry ∈ entries,
        OneLine (root.line registry showSpans entry.1 entry.2)) ∧
      ∀ address item, root.line registry true address item =
        root.line registry false address item ++ item.spanSuffix := by
  intro root
  have drawn := rule.isDrawn plain
  obtain ⟨outline, outlined⟩ := drawn.exists_outline
  obtain ⟨entries, ordered, all, lines⟩ := Item.exists_listed outline root outlined
  refine ⟨KiwiTypes.declared, outline, entries, rfl, outlined, ordered, all, ?_, ?_, ?_⟩
  · intro showSpans
    have drawing : outline.drawingLines =
        entries.map (root.lineAt KiwiTypes.declared [] none) := lines [] none
    rw [Outline.draw, drawing, List.map_map]
    refine congrArg String.join (List.map_congr_left fun entry _ => ?_)
    exact congrArg (· ++ "\n") (Item.render_lineAt root showSpans entry.1 entry.2)
  · intro showSpans entry member
    have drawable := (Item.drawable_root drawn).at? ((all entry.1 entry.2).1 member)
    exact drawable.oneLine_line root showSpans entry.1
  · intro address item
    simp only [Item.line, if_true, Bool.false_eq_true, if_false, String.append_empty]

/-- The qualifier in the type `a.b` has a later sibling, but its name has none. -/
theorem draw_lines_qualified :
    let segment : Token := ⟨.name, "a", ⟨1, 1⟩, ⟨1, 2⟩⟩
    let name : UserType := .qualified (.simple segment segment.span)
      ⟨.name, "b", ⟨1, 3⟩, ⟨1, 4⟩⟩ ⟨⟨1, 1⟩, ⟨1, 4⟩⟩
    let root := Item.root name.toNode
    let item : Item := ⟨some "identifier", .node segment.toNode⟩
    ∃ (registry : Registry) (outline : Outline) (entries : List (Address × Item)),
      Outline.ofNode registry name.toNode = .ok outline ∧
      (∀ showSpans, outline.draw showSpans = String.join
        (entries.map fun entry => root.line registry showSpans entry.1 entry.2 ++ "\n")) ∧
      ([0, 0], item) ∈ entries ∧
      root.line registry true [0, 0] item =
        "│ └─ identifier: TokenWrapper NAME \"a\" [1:1..1:2]" := by
  intro segment name root item
  have plain : ∀ token ∈ KiwiRule.userType.nameTokens name, OneLine token.text := by decide
  have found : root.at? KiwiTypes.declared [0, 0] = some item := by
    dsimp only [root, name, item, segment]
    cbv
  have isFollowed : root.hasLater KiwiTypes.declared [0] = true := by
    dsimp only [root, name, segment]
    cbv
  have isLast : root.hasLater KiwiTypes.declared [0, 0] = false := by
    dsimp only [root, name, segment]
    cbv
  have line : root.line KiwiTypes.declared true [0, 0] item =
      "│ └─ identifier: TokenWrapper NAME \"a\" [1:1..1:2]" := by
    rw [Item.line, Item.frame, if_neg (List.cons_ne_nil 0 [0]), isLast]
    change String.join [if root.hasLater KiwiTypes.declared [0] then _ else _] ++ _ ++ _ ++ _ = _
    rw [isFollowed]
    decide
  obtain ⟨registry, outline, entries, resolved, outlined, _, all, drawn, _⟩ :=
    draw_lines .userType name plain
  cases KiwiTypes.registry_eq.symm.trans resolved
  exact ⟨KiwiTypes.declared, outline, entries, outlined, drawn, (all [0, 0] item).2 found, line⟩

end KiwiRule

end KiwiFront
