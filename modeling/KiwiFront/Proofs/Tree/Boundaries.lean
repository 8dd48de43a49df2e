import KiwiFront.Proofs.Steps
import KiwiFront.Proofs.Tree.Spans
import KiwiFront.Tree.Boundaries

/-!
# Spans come from the outermost located children

The search for a boundary of a node is decided by the first field on its way that is unknown or
holds a located child, so there is one result for it and locating a node finds this one. The
children that a node lists say the same: what they leave out has no boundaries.
-/

namespace KiwiFront

variable {Item : Type} [Located Item]

namespace Child

/-- A node provides the end of its span, provided that end is located. -/
theorem boundary?_node_eq_some_iff {item : Item} {boundary : Boundary} {position : Position} :
    (node item).boundary? boundary = some position ↔
      position.isLocated = true ∧ endOf (Located.spanOf item) boundary = position := by
  cases boundary with
  | start => simp only [boundary?, start?, endOf, Option.filter_eq_some_iff, Option.some.injEq,
      and_comm]
  | stop => simp only [boundary?, stop?, endOf, Option.filter_eq_some_iff, Option.some.injEq,
      and_comm]

/-- A child has a boundary exactly where it is located. -/
theorem boundary?_eq_some_iff {child : Child Item} {boundary : Boundary} {position : Position} :
    child.boundary? boundary = some position ↔ child.EndsAt boundary position := by
  constructor
  · intro found
    cases child with
    | absent =>
        rw [boundary?_absent] at found
        cases found
    | node item =>
        obtain ⟨located, rfl⟩ := boundary?_node_eq_some_iff.1 found
        cases boundary with
        | start => exact .nodeStart located
        | stop => exact .nodeStop located
    | sequence items =>
        cases boundary with
        | start =>
            obtain ⟨isFirst, located⟩ := Option.filter_eq_some_iff.1 found
            obtain ⟨first, head, rfl⟩ := Option.map_eq_some_iff.1 isFirst
            obtain ⟨rest, rfl⟩ := List.head?_eq_some_iff.1 head
            exact .firstItem located
        | stop =>
            obtain ⟨isLast, located⟩ := Option.filter_eq_some_iff.1 found
            obtain ⟨last, final, rfl⟩ := Option.map_eq_some_iff.1 isLast
            obtain ⟨front, rfl⟩ := List.getLast?_eq_some_iff.1 final
            exact .lastItem located
  · intro ends
    cases ends with
    | nodeStart located => exact boundary?_node_eq_some_iff.2 ⟨located, rfl⟩
    | nodeStop located => exact boundary?_node_eq_some_iff.2 ⟨located, rfl⟩
    | firstItem located => exact Option.filter_eq_some_iff.2 ⟨rfl, located⟩
    | lastItem located =>
        refine Option.filter_eq_some_iff.2 ⟨?_, located⟩
        rw [List.getLast?_concat, Option.map_some]

/-- A child has no boundary exactly when no position serves as one. -/
theorem boundary?_eq_none_iff {child : Child Item} {boundary : Boundary} :
    child.boundary? boundary = none ↔ ∀ position, ¬ child.EndsAt boundary position := by
  simp only [Option.eq_none_iff_forall_ne_some, ne_eq, boundary?_eq_some_iff]

end Child

namespace Fields

variable {node : String} {schema : NodeSchema} {fields : Fields Item} {boundary : Boundary}
  {order : List String} {result other : Except NodeError Position}

/-- A search goes on behind a field whose child is not located. -/
theorem Searched.later {field : String} (passes : fields.Passes boundary field)
    (searched : Searched node fields boundary order result) :
    Searched node fields boundary (field :: order) result := by
  cases searched with
  | found split unlocated known located =>
      exact .found (congrArg (field :: ·) split) (List.forall_mem_cons.2 ⟨passes, unlocated⟩) known
        located
  | unknown split unlocated missing =>
      exact .unknown (congrArg (field :: ·) split) (List.forall_mem_cons.2 ⟨passes, unlocated⟩)
        missing
  | nowhere unlocated => exact .nowhere (List.forall_mem_cons.2 ⟨passes, unlocated⟩)

/-- What a search comes to is what it comes to behind the first field, if that one is passed,
and is decided by it if not. -/
theorem Searched.cons_cases {field : String}
    (searched : Searched node fields boundary (field :: order) result) :
    (fields.Passes boundary field ∧ Searched node fields boundary order result) ∨
      (∃ child position, fields.lookup field = some child ∧ child.EndsAt boundary position ∧
        result = .ok position) ∨
      (fields.lookup field = none ∧ result = .error (.unknownField node field)) := by
  cases searched with
  | @found passed _ _ child position split unlocated known located =>
      cases passed with
      | nil =>
          obtain ⟨rfl, rfl⟩ := List.cons.inj split
          exact .inr (.inl ⟨child, position, known, located, rfl⟩)
      | cons first rest =>
          obtain ⟨rfl, behind⟩ := List.cons.inj split
          obtain ⟨passes, unlocated⟩ := List.forall_mem_cons.1 unlocated
          exact .inl ⟨passes, .found behind unlocated known located⟩
  | @unknown passed _ _ split unlocated missing =>
      cases passed with
      | nil =>
          obtain ⟨rfl, rfl⟩ := List.cons.inj split
          exact .inr (.inr ⟨missing, rfl⟩)
      | cons first rest =>
          obtain ⟨rfl, behind⟩ := List.cons.inj split
          obtain ⟨passes, unlocated⟩ := List.forall_mem_cons.1 unlocated
          exact .inl ⟨passes, .unknown behind unlocated missing⟩
  | nowhere unlocated =>
      obtain ⟨passes, unlocated⟩ := List.forall_mem_cons.1 unlocated
      exact .inl ⟨passes, .nowhere unlocated⟩

/-- A search that has run out of fields finds nothing to locate the node by. -/
theorem Searched.nil_eq (searched : Searched node fields boundary [] result) :
    result = .error (.unlocatable node boundary) := by
  cases searched with
  | found split => exact absurd split (by simp)
  | unknown split => exact absurd split (by simp)
  | nowhere => rfl

/-- A search that meets a located child at once finds its boundary. -/
theorem Searched.here {field : String} {child : Child Item} {position : Position}
    (known : fields.lookup field = some child) (located : child.EndsAt boundary position) :
    Searched node fields boundary (field :: order) (.ok position) := by
  have split : field :: order = [] ++ field :: order := rfl
  exact .found split (fun _ member => absurd member List.not_mem_nil) known located

/-- A search stops at a field that the node does not hold. -/
theorem Searched.missing {field : String} (missing : fields.lookup field = none) :
    Searched node fields boundary (field :: order) (.error (.unknownField node field)) := by
  have split : field :: order = [] ++ field :: order := rfl
  exact .unknown split (fun _ member => absurd member List.not_mem_nil) missing

/-- A field without a located child is passed over. -/
theorem deriveBoundary_passed {field : String} (passes : fields.Passes boundary field) :
    deriveBoundary node fields boundary (field :: order) =
      deriveBoundary node fields boundary order := by
  obtain ⟨child, known, unlocated⟩ := passes
  unfold deriveBoundary
  rw [findBoundary_later known (Child.boundary?_eq_none_iff.2 unlocated)]

/-- A field that is missing ends the derivation with an error. -/
theorem deriveBoundary_missing {field : String} (missing : fields.lookup field = none) :
    deriveBoundary node fields boundary (field :: order) = .error (.unknownField node field) := by
  simp only [deriveBoundary, findBoundary, missing]
  rfl

/-- Deriving a boundary finds what the search for it comes to, and nothing else. -/
theorem deriveBoundary_eq_iff :
    deriveBoundary node fields boundary order = result ↔
      Searched node fields boundary order result := by
  constructor
  · rintro rfl
    induction order with
    | nil => exact .nowhere fun _ member => absurd member List.not_mem_nil
    | cons field rest inductionHypothesis =>
        cases known : fields.lookup field with
        | none =>
            rw [deriveBoundary_missing known]
            exact .missing known
        | some child =>
            cases located : child.boundary? boundary with
            | some position =>
                rw [deriveBoundary_of_find (findBoundary_here known located)]
                exact .here known (Child.boundary?_eq_some_iff.1 located)
            | none =>
                have passes : fields.Passes boundary field :=
                  ⟨child, known, Child.boundary?_eq_none_iff.1 located⟩
                rw [deriveBoundary_passed passes]
                exact inductionHypothesis.later passes
  · intro searched
    induction order with
    | nil =>
        rw [searched.nil_eq]
        rfl
    | cons field rest inductionHypothesis =>
        rcases searched.cons_cases with ⟨passes, searched⟩ | ⟨child, position, known, ends, rfl⟩ |
          ⟨missing, rfl⟩
        · rw [deriveBoundary_passed passes, inductionHypothesis searched]
        · exact deriveBoundary_of_find
            (findBoundary_here known (Child.boundary?_eq_some_iff.2 ends))
        · exact deriveBoundary_missing missing

/-- One end of a node, kept if it is given and derived if not. -/
def settle (node : String) (schema : NodeSchema) (fields : Fields Item) (boundary : Boundary) :
    Option Position -> Except NodeError Position
  | some position => .ok position
  | none => deriveBoundary node fields boundary (searchOrder schema boundary)

/-- The settled position is the one that its relation describes. -/
theorem settle_eq_iff {given? : Option Position} :
    settle node schema fields boundary given? = result ↔
      Settled node schema fields boundary given? result := by
  cases given? with
  | some position =>
      constructor
      · rintro rfl
        exact .given
      · rintro ⟨⟩
        rfl
  | none =>
      constructor
      · exact fun derived => .derived (deriveBoundary_eq_iff.1 derived)
      · rintro ⟨⟩
        exact deriveBoundary_eq_iff.2 ‹_›

section Located

variable {registry : Registry} {start? stop? : Option Position}

/-- A node is located by settling its start and then its stop. -/
theorem locate_eq (resolved : registry.schema node = .ok schema) :
    locate registry node fields start? stop? =
      (settle node schema fields .start start?).bind fun start =>
        (settle node schema fields .stop stop?).bind fun stop => .ok ⟨start, stop⟩ := by
  unfold locate
  rw [resolved]
  cases start? <;> cases stop? <;> rfl

/-- A span is located exactly when both ends are settled. -/
theorem locate_eq_ok_iff (resolved : registry.schema node = .ok schema) {span : Span} :
    locate registry node fields start? stop? = .ok span ↔
      Settled node schema fields .start start? (.ok span.start) ∧
        Settled node schema fields .stop stop? (.ok span.stop) := by
  rw [locate_eq resolved, ← settle_eq_iff, ← settle_eq_iff]
  obtain ⟨first, last⟩ := span
  cases settle node schema fields .start start? with
  | error cause => simp [Except.bind]
  | ok start => cases settle node schema fields .stop stop? <;> simp [Except.bind]

/-- An error is the start's, or the stop's when the start is settled. -/
theorem locate_eq_error_iff (resolved : registry.schema node = .ok schema) {cause : NodeError} :
    locate registry node fields start? stop? = .error cause ↔
      Settled node schema fields .start start? (.error cause) ∨
        (∃ start, Settled node schema fields .start start? (.ok start)) ∧
          Settled node schema fields .stop stop? (.error cause) := by
  simp only [locate_eq resolved, ← settle_eq_iff]
  cases settle node schema fields .start start? with
  | error other => simp [Except.bind]
  | ok start => cases settle node schema fields .stop stop? <;> simp [Except.bind]

end Located

section Listed

variable {listed : List (String × Child Item)}

/-- Along children that a node has, the search finds what the first of them has. -/
theorem findBoundary_of_known (node : String) (boundary : Boundary)
    (known : ∀ entry ∈ listed, fields.lookup entry.1 = some entry.2) :
    findBoundary node fields boundary (listed.map Prod.fst) =
      .ok (listed.findSome? fun entry => entry.2.boundary? boundary) := by
  induction listed with
  | nil => rfl
  | cons entry rest inductionHypothesis =>
      obtain ⟨here, behind⟩ := List.forall_mem_cons.1 known
      rw [List.map_cons, List.findSome?_cons]
      cases located : entry.2.boundary? boundary with
      | some position => exact findBoundary_here here located
      | none => rw [findBoundary_later here located, inductionHypothesis behind]

/-- Looks up a field that has to be there. -/
def look {Value : Type} (node : String) (values : List (String × Value)) (field : String) :
    Except NodeError (String × Value) :=
  match values.lookup field with
  | some value => .ok (field, value)
  | none => .error (.unknownField node field)

/-- A field is looked up exactly when the node holds a value under its name. -/
theorem look_eq_ok_iff {Value : Type} {values : List (String × Value)} (field : String)
    (entry : String × Value) :
    look node values field = .ok entry ↔
      field = entry.1 ∧ values.lookup entry.1 = some entry.2 := by
  obtain ⟨name, value⟩ := entry
  unfold look
  cases known : values.lookup field with
  | none =>
      refine ⟨fun found => ?_, fun ⟨same, held⟩ => ?_⟩
      · cases found
      · cases known.symm.trans (same ▸ held)
  | some held =>
      refine ⟨fun found => ?_, fun ⟨same, alsoHeld⟩ => ?_⟩
      · cases found
        exact ⟨rfl, known⟩
      · cases same
        cases known.symm.trans alsoHeld
        rfl

omit [Located Item] in
/-- The children are the values of the schema's fields, looked up in order, without the absent ones.
-/
theorem children_eq (node : String) (schema : NodeSchema) (fields : Fields Item) :
    children node schema fields = schema.fieldNames.mapM (look node fields) >>= fun held =>
      .ok (held.filter fun entry => !entry.2.isAbsent) := by
  unfold children
  congr
  funext field
  rw [look]
  cases fields.lookup field <;> rfl

omit [Located Item] in
/-- A node lists its children if it has all the fields of the schema: what they hold, in this
order, but for what is absent. -/
theorem children_eq_ok_iff :
    children node schema fields = .ok listed ↔
      ∃ held : List (String × Child Item), schema.fieldNames = held.map Prod.fst ∧
        (∀ entry ∈ held, fields.lookup entry.1 = some entry.2) ∧
        held.filter (fun entry => !entry.2.isAbsent) = listed := by
  rw [children_eq]
  constructor
  · intro succeeded
    obtain ⟨held, looking, kept⟩ := steps_of_bind_ok succeeded
    obtain ⟨named, known⟩ := (mapM_eq_ok_iff_of_lookup look_eq_ok_iff).1 looking
    exact ⟨held, named, known, Except.ok.inj kept⟩
  · rintro ⟨held, named, known, rfl⟩
    exact bind_ok_of_steps ((mapM_eq_ok_iff_of_lookup look_eq_ok_iff).2 ⟨named, known⟩) rfl

/-- What is absent has no boundary. -/
theorem findSome?_present (boundary : Boundary) (held : List (String × Child Item)) :
    (held.filter fun entry => !entry.2.isAbsent).findSome?
        (fun entry => entry.2.boundary? boundary) =
      held.findSome? fun entry => entry.2.boundary? boundary := by
  induction held with
  | nil => rfl
  | cons entry rest inductionHypothesis =>
      obtain ⟨field, child⟩ := entry
      cases child with
      | absent =>
          rw [List.filter_cons_of_neg (by simp [Child.isAbsent]), inductionHypothesis,
            List.findSome?_cons, Child.boundary?_absent]
      | node item =>
          rw [List.filter_cons_of_pos rfl, List.findSome?_cons, List.findSome?_cons,
            inductionHypothesis]
      | sequence items =>
          rw [List.filter_cons_of_pos rfl, List.findSome?_cons, List.findSome?_cons,
            inductionHypothesis]

/-- The children that a node lists, in the order in which a search meets them. -/
def searchedChildren (listed : List (String × Child Item)) : Boundary -> List (String × Child Item)
  | .start => listed
  | .stop => listed.reverse

/-- Of the children that a node lists, the search finds what the first of them on its way has. -/
theorem findBoundary_of_children (listing : children node schema fields = .ok listed)
    (boundary : Boundary) :
    findBoundary node fields boundary (searchOrder schema boundary) =
      .ok ((searchedChildren listed boundary).findSome? fun entry =>
        entry.2.boundary? boundary) := by
  obtain ⟨held, named, known, rfl⟩ := children_eq_ok_iff.1 listing
  cases boundary with
  | start =>
      rw [searchOrder, searchedChildren, named, findBoundary_of_known node .start known,
        findSome?_present]
  | stop =>
      have reversed : ∀ entry ∈ held.reverse, fields.lookup entry.1 = some entry.2 :=
        fun entry member => known entry (List.mem_reverse.1 member)
      rw [searchOrder, searchedChildren, named, ← List.map_reverse,
        findBoundary_of_known node .stop reversed, ← List.filter_reverse, findSome?_present]

/-- Locating over the fields agrees with locating over the listed children. -/
theorem locate_of_children {registry : Registry} {start? stop? : Option Position}
    (resolved : registry.schema node = .ok schema)
    (listing : children node schema fields = .ok listed) :
    locate registry node fields start? stop? = locateListed node listed start? stop? := by
  have settles (boundary : Boundary) (given? : Option Position) :
      settle node schema fields boundary given? =
        match given?.or ((searchedChildren listed boundary).findSome? fun entry =>
          entry.2.boundary? boundary) with
        | some position => .ok position
        | none => .error (.unlocatable node boundary) := by
    cases given? with
    | some position => rfl
    | none =>
        rw [settle, deriveBoundary, findBoundary_of_children listing, Option.none_or]
        cases List.findSome? _ (searchedChildren listed boundary) <;> rfl
  rw [locate_eq resolved, settles, settles, locateListed]
  simp only [searchedChildren, Child.boundary?]
  cases start?.or (listed.findSome? fun entry => entry.2.start?) with
  | none => rfl
  | some start =>
      cases stop?.or (listed.reverse.findSome? fun entry => entry.2.stop?) <;> rfl

end Listed

/-- Locating a node of a type that has a schema keeps the ends that are given. A missing start is
that of the first child in the order of the schema that is located there, and a missing stop that
of the last one. The start is settled first; where an end cannot be, a field that the node does
not have is complained of if it is met before a located child, and the missing place if none is.
With both ends given, a node is always located. Where the node lists its children, they alone
decide its span in the same way. -/
theorem locate_settles {registry : Registry} (fields : Fields Item) (start? stop? : Option Position)
    (resolved : registry.schema node = .ok schema) :
    (∀ span, locate registry node fields start? stop? = .ok span ↔
      Settled node schema fields .start start? (.ok span.start) ∧
        Settled node schema fields .stop stop? (.ok span.stop)) ∧
    (∀ cause, locate registry node fields start? stop? = .error cause ↔
      Settled node schema fields .start start? (.error cause) ∨
        (∃ start, Settled node schema fields .start start? (.ok start)) ∧
          Settled node schema fields .stop stop? (.error cause)) ∧
    (∀ start stop, locate registry node fields (some start) (some stop) = .ok ⟨start, stop⟩) ∧
    ∀ listed, children node schema fields = .ok listed ->
      locate registry node fields start? stop? = locateListed node listed start? stop? :=
  ⟨fun _ => locate_eq_ok_iff resolved, fun _ => locate_eq_error_iff resolved, fun _ _ => rfl,
    fun _ listing => locate_of_children resolved listing⟩

/-- A function with an unlocated modifier in front, a closing parenthesis without a stop and a
field too few: its start is that of its keyword, and its stop is missed. -/
theorem locate_settles_function :
    let modifier : Node := .mk "TokenWrapper" none .unlocated []
    let keyword : Node := .mk "TokenWrapper" none ⟨⟨2, 1⟩, ⟨2, 4⟩⟩ []
    let closing : Node := .mk "TokenWrapper" none ⟨⟨2, 6⟩, .unlocated⟩ []
    let fields : Fields Node := [("modifiers", .sequence [modifier, keyword]),
      ("keyword", .node keyword), ("close_paren", .node closing), ("return_type", .absent)]
    let schema : NodeSchema := ⟨"FunctionDeclaration", [⟨"modifiers", .sequence⟩,
      ⟨"keyword", .single⟩, ⟨"identifier", .single⟩, ⟨"close_paren", .single⟩,
      ⟨"return_type", .optional⟩]⟩
    KiwiTypes.declared.schema "FunctionDeclaration" = .ok schema ∧
      Settled "FunctionDeclaration" schema fields .start none (.ok ⟨2, 1⟩) ∧
      locate KiwiTypes.declared "FunctionDeclaration" fields none (some ⟨7, 7⟩) =
        .ok ⟨⟨2, 1⟩, ⟨7, 7⟩⟩ ∧
      Settled "FunctionDeclaration" schema fields .stop none
        (.error (.unknownField "FunctionDeclaration" "identifier")) ∧
      locate KiwiTypes.declared "FunctionDeclaration" fields none none =
        .error (.unknownField "FunctionDeclaration" "identifier") := by
  intro modifier keyword closing fields schema
  have resolved : KiwiTypes.declared.schema "FunctionDeclaration" = .ok schema := by cbv
  have passesModifiers : fields.Passes .start "modifiers" :=
    ⟨_, rfl, Child.boundary?_eq_none_iff.1 rfl⟩
  have start : Settled "FunctionDeclaration" schema fields .start none (.ok ⟨2, 1⟩) :=
    .derived (.later passesModifiers (.here rfl (.nodeStart rfl)))
  have stop : Settled "FunctionDeclaration" schema fields .stop none
      (.error (.unknownField "FunctionDeclaration" "identifier")) :=
    .derived (.later ⟨_, rfl, Child.boundary?_eq_none_iff.1 rfl⟩
      (.later ⟨_, rfl, Child.boundary?_eq_none_iff.1 rfl⟩ (.missing rfl)))
  refine ⟨resolved, start, ?_, stop, ?_⟩
  · exact ((locate_settles fields none (some ⟨7, 7⟩) resolved).1 _).2 ⟨start, .given⟩
  · exact ((locate_settles fields none none resolved).2.1 _).2 (.inr ⟨⟨_, start⟩, stop⟩)

end Fields

end KiwiFront
