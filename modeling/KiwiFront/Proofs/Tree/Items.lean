import KiwiFront.Proofs.Tree.Outlines

/-!
# The lines of a drawing

A drawing comes by all items of a tree in the order of their addresses. What a line starts with is
handed down from level to level: an item adds one group for the lines below it, and this group is
a bar if the item has a later sibling.
-/

namespace KiwiFront

namespace Drawing

/-- The lines of siblings, children and elements alike. -/
def rowLines (groups : List Bool) : List (Option String × Outline) -> List Line
  | [] => []
  | (field, outline) :: rest =>
      lines groups (some rest.isEmpty) field outline ++ rowLines groups rest

theorem childLines_eq (groups : List Bool) (children : List (String × Outline)) :
    childLines groups children =
      rowLines groups (children.map fun entry => (some entry.1, entry.2)) := by
  induction children with
  | nil => rfl
  | cons first rest inductionHypothesis =>
      rw [childLines, inductionHypothesis, List.map_cons, rowLines, List.isEmpty_map]

theorem elementLines_eq (groups : List Bool) (elements : List Outline) :
    elementLines groups elements =
      rowLines groups (elements.map fun element => (none, element)) := by
  induction elements with
  | nil => rfl
  | cons first rest inductionHypothesis =>
      rw [elementLines, inductionHypothesis, List.map_cons, rowLines, List.isEmpty_map]

/-- An item is drawn before all that is below it. -/
theorem lines_eq (groups : List Bool) (isLast : Option Bool) (field : Option String)
    (outline : Outline) :
    lines groups isLast field outline =
      ⟨groups, isLast, field, outline.description, outline.span⟩ ::
        rowLines (below groups isLast) outline.rows := by
  cases outline with
  | node name label span children =>
      rw [lines, childLines_eq]
      rfl
  | sequence elements =>
      rw [lines, elementLines_eq]
      rfl

variable {registry : Registry} {outline : Outline}

theorem Address.sibling?_cons (index next : Nat) (rest : Address) :
    Address.sibling? (index :: next :: rest) =
      (Address.sibling? (next :: rest)).map (index :: ·) := rfl

namespace Item

variable {parent item : Item} {front others : List Item}

/-- The address of what is below an item starts with the number of earlier siblings. -/
theorem at?_cons (belows : parent.part.below registry = .ok (front ++ item :: others))
    (rest : Address) :
    parent.at? registry (front.length :: rest) = item.at? registry rest := by
  simp only [at?, belows, List.getElem?_append_right (Nat.le_refl _), Nat.sub_self,
    List.getElem?_cons_zero, Option.bind_some]

theorem hasLater_here (belows : parent.part.below registry = .ok (front ++ item :: others)) :
    parent.hasLater registry [front.length] = !others.isEmpty := by
  cases others <;> simp [hasLater, Address.sibling?, at?, belows]

theorem hasLater_cons (belows : parent.part.below registry = .ok (front ++ item :: others))
    {address : Address} (isBelow : address ≠ []) :
    parent.hasLater registry (front.length :: address) = item.hasLater registry address := by
  obtain ⟨next, rest, rfl⟩ := List.exists_cons_of_ne_nil isBelow
  simp only [hasLater, Address.sibling?_cons, Option.any_map, at?_cons belows]

/-- The groups of a line at or below an item, given those of the item. -/
def groupsAt (registry : Registry) (item : Item) (groups : List Bool) (isLast : Option Bool) :
    Address -> List Bool
  | [] => groups
  | address@(_ :: _) => below groups isLast ++
      (List.range (address.length - 1)).map fun depth =>
        item.hasLater registry (address.take (depth + 1))

/-- Whether a line at or below an item is that of the last sibling. -/
def lastAt (registry : Registry) (item : Item) (isLast : Option Bool) : Address -> Option Bool
  | [] => isLast
  | address@(_ :: _) => some (!item.hasLater registry address)

/-- The line of what stands at an address at or below an item. -/
def lineAt (registry : Registry) (item : Item) (groups : List Bool) (isLast : Option Bool)
    (entry : Address × Item) : Line :=
  ⟨item.groupsAt registry groups isLast entry.1, item.lastAt registry isLast entry.1,
    entry.2.field, entry.2.part.description, entry.2.part.span⟩

/-- Lines are the same from an item as from its parent. -/
theorem lineAt_cons (belows : parent.part.below registry = .ok (front ++ item :: others))
    (groups : List Bool) (isLast : Option Bool) (address : Address) (found : Item) :
    parent.lineAt registry groups isLast (front.length :: address, found) =
      item.lineAt registry (below groups isLast) (some others.isEmpty) (address, found) := by
  have here := hasLater_here belows
  cases address with
  | nil => simp [lineAt, groupsAt, lastAt, here]
  | cons next rest =>
      have groupsSame : parent.groupsAt registry groups isLast (front.length :: next :: rest) =
          item.groupsAt registry (below groups isLast) (some others.isEmpty) (next :: rest) := by
        simp only [groupsAt, List.length_cons, Nat.add_sub_cancel, List.range_succ_eq_map,
          List.map_cons, List.map_map, below, List.append_assoc, List.singleton_append,
          List.take_succ_cons, List.take_zero, here, Function.comp_def,
          hasLater_cons belows (List.cons_ne_nil next _)]
      simp only [lineAt, groupsSame, lastAt, hasLater_cons belows (List.cons_ne_nil next rest)]

/-- The items at and below an item with their addresses, in order, and the lines of them. -/
structure Listed (registry : Registry) (item : Item) (outline : Outline)
    (entries : List (Address × Item)) : Prop where
  ordered : entries.Pairwise fun earlier later => earlier.1 < later.1
  all : ∀ address found, (address, found) ∈ entries ↔ item.at? registry address = some found
  drawn : ∀ groups isLast,
    lines groups isLast item.field outline = entries.map (item.lineAt registry groups isLast)

/-- The same for the items below an item from one of them on. -/
structure ListedFrom (registry : Registry) (parent : Item) (first : Nat)
    (rows : List (Option String × Outline)) (entries : List (Address × Item)) : Prop where
  ordered : entries.Pairwise fun earlier later => earlier.1 < later.1
  all : ∀ address found, (address, found) ∈ entries ↔
    (∃ index rest, address = index :: rest ∧ first ≤ index) ∧
      parent.at? registry address = some found
  drawn : ∀ groups isLast,
    rowLines (below groups isLast) rows = entries.map (parent.lineAt registry groups isLast)

theorem ListedFrom.nil (belows : parent.part.below registry = .ok front) :
    ListedFrom registry parent front.length [] [] := by
  refine ⟨.nil, fun address found => ?_, fun _ _ => rfl⟩
  refine ⟨fun member => absurd member List.not_mem_nil, ?_⟩
  rintro ⟨⟨index, rest, rfl, behind⟩, here⟩
  simp only [at?, belows, List.getElem?_eq_none behind, Option.bind_none] at here
  cases here

/-- The entries of an item and those of its later siblings. -/
theorem ListedFrom.cons {row : Option String × Outline} {rows : List (Option String × Outline)}
    {entries later : List (Address × Item)}
    (belows : parent.part.below registry = .ok (front ++ item :: others))
    (field : item.field = row.1) (counted : others.length = rows.length)
    (here : item.Listed registry row.2 entries)
    (behind : ListedFrom registry parent (front.length + 1) rows later) :
    ListedFrom registry parent front.length (row :: rows)
      (entries.map (fun entry => (front.length :: entry.1, entry.2)) ++ later) := by
  constructor
  · refine List.pairwise_append.2 ⟨?_, behind.ordered, ?_⟩
    · rw [List.pairwise_map]
      exact here.ordered.imp fun before => List.Lex.cons before
    · intro earlier member next behindMember
      obtain ⟨⟨index, rest, isBelow, after⟩, _⟩ := (behind.all next.1 next.2).1 behindMember
      obtain ⟨entry, _, rfl⟩ := List.mem_map.1 member
      rw [isBelow]
      exact List.Lex.rel after
  · intro address found
    rw [List.mem_append, behind.all, List.mem_map]
    constructor
    · rintro (⟨⟨rest, other⟩, member, same⟩ | ⟨⟨index, rest, rfl, after⟩, here⟩)
      · cases same
        exact ⟨⟨_, _, rfl, Nat.le_refl _⟩, (at?_cons belows _).trans ((here.all _ _).1 member)⟩
      · exact ⟨⟨_, _, rfl, Nat.le_of_succ_le after⟩, here⟩
    · rintro ⟨⟨index, rest, rfl, after⟩, isHere⟩
      rcases Nat.eq_or_lt_of_le after with rfl | after
      · rw [at?_cons belows] at isHere
        exact .inl ⟨(rest, found), (here.all _ _).2 isHere, rfl⟩
      · exact .inr ⟨⟨_, _, rfl, after⟩, isHere⟩
  · intro groups isLast
    have isEmpty : rows.isEmpty = others.isEmpty := by
      rw [Bool.eq_iff_iff, List.isEmpty_iff_length_eq_zero, List.isEmpty_iff_length_eq_zero,
        counted]
    rw [rowLines, behind.drawn, ← field, here.drawn, List.map_append, List.map_map, isEmpty]
    congr 2
    funext entry
    exact (lineAt_cons belows groups isLast entry.1 entry.2).symm

/-- What is below an item is listed, if everything there is. -/
theorem exists_listedFrom {rows : List (Option String × Outline)}
    (each : List.Forall₂ (fun item row => item.field = row.1 ∧
      ∃ entries, item.Listed registry row.2 entries) others rows)
    (belows : parent.part.below registry = .ok (front ++ others)) :
    ∃ entries, ListedFrom registry parent front.length rows entries := by
  -- What has been passed goes along, because addresses count it.
  induction each generalizing front with
  | nil => exact ⟨[], .nil (by rw [belows, List.append_nil])⟩
  | @cons item row others rows here behind inductionHypothesis =>
      obtain ⟨field, entries, listed⟩ := here
      have moved : parent.part.below registry = .ok (front ++ [item] ++ others) := by
        rw [belows, List.append_assoc, List.singleton_append]
      obtain ⟨later, listedLater⟩ := inductionHypothesis moved
      rw [List.length_append, List.length_singleton] at listedLater
      exact ⟨_, .cons belows field behind.length_eq listed listedLater⟩

/-- An item is listed before all that is below it. -/
theorem ListedFrom.listed {entries : List (Address × Item)}
    (outlined : item.part.Outlined registry outline)
    (listed : ListedFrom registry item 0 outline.rows entries) :
    item.Listed registry outline (([], item) :: entries) := by
  constructor
  · refine List.pairwise_cons.2 ⟨fun later member => ?_, listed.ordered⟩
    obtain ⟨⟨index, rest, isBelow, _⟩, _⟩ := (listed.all later.1 later.2).1 member
    rw [isBelow]
    exact List.Lex.nil
  · intro address found
    rw [List.mem_cons, listed.all]
    constructor
    · rintro (same | ⟨_, here⟩)
      · cases same
        rfl
      · exact here
    · intro here
      cases address with
      | nil =>
          cases here
          exact .inl rfl
      | cons index rest => exact .inr ⟨⟨index, rest, rfl, Nat.zero_le _⟩, here⟩
  · intro groups isLast
    rw [lines_eq, listed.drawn, List.map_cons, outlined.description, outlined.span]
    rfl

/-- The lines of an outline are those of the items at and below what it shows. -/
theorem exists_listed (outline : Outline) : ∀ item : Item,
    item.part.Outlined registry outline -> ∃ entries, item.Listed registry outline entries := by
  induction outline using Outline.induction_rows with
  | step outline inductionHypothesis =>
      intro item outlined
      obtain ⟨items, belows, each⟩ := outlined.below
      have listed : List.Forall₂ (fun item row => item.field = row.1 ∧
          ∃ entries, item.Listed registry row.2 entries) items outline.rows := by
        obtain ⟨sameLength, paired⟩ := List.forall₂_iff_zip.1 each
        -- The hypothesis is about the rows, each of which has its item beside it.
        refine List.forall₂_iff_zip.2 ⟨sameLength, fun {item row} member => ?_⟩
        obtain ⟨field, outlined⟩ := paired member
        exact ⟨field, inductionHypothesis row (List.of_mem_zip member).2 item outlined⟩
      have whole : item.part.below registry = .ok ([] ++ items) := belows
      obtain ⟨entries, below⟩ := exists_listedFrom listed whole
      exact ⟨_, below.listed outlined⟩

/-- What a line starts with, told from its address alone. -/
theorem frame_eq (root : Item) (address : Address) :
    String.join ((root.groupsAt registry [] none address).map Line.group) ++
        Line.connector (root.lastAt registry none address) =
      root.frame registry address := by
  cases address with
  | nil => rfl
  | cons index rest =>
      have connector : Line.connector (some (!root.hasLater registry (index :: rest))) =
          if root.hasLater registry (index :: rest) then "├─ " else "└─ " := by
        cases root.hasLater registry (index :: rest) <;> rfl
      rw [groupsAt, lastAt, frame, if_neg (List.cons_ne_nil index rest), connector, below,
        List.nil_append, List.map_map]
      rfl

/-- Drawing the line of an address makes its frame, its text and its span. -/
theorem render_lineAt (root : Item) (showSpans : Bool) (address : Address) (found : Item) :
    (root.lineAt registry [] none (address, found)).render showSpans =
      root.line registry showSpans address found := by
  have suffix : (if showSpans && found.part.span.isLocated then
      s!" [{found.part.span.display}]" else "") = if showSpans then found.spanSuffix else "" := by
    cases showSpans <;> rfl
  have grouped (frame field description span : String) :
      frame ++ field ++ description ++ span = frame ++ (field ++ description) ++ span :=
    congrArg (· ++ span) String.append_assoc
  rw [line, text, ← frame_eq, ← suffix]
  exact grouped _ _ _ _

end Item

end Drawing

end KiwiFront
