import KiwiFront.Tree.Node

/-!
# Which child gives a boundary

A node is located at one of its ends by the first of its children, going from that end, that is
located there itself. A sequence is located where its first or last item is, and nowhere else.
A field that the node does not have ends the search, and a search that comes by no located child
finds no boundary.
-/

namespace KiwiFront

variable {Item : Type} [Located Item]

/-- Where a child is located at one of its ends. -/
inductive Child.EndsAt : Child Item -> Boundary -> Position -> Prop where
  | nodeStart {item} (located : (Located.spanOf item).start.isLocated = true) :
      EndsAt (.node item) .start (Located.spanOf item).start
  | nodeStop {item} (located : (Located.spanOf item).stop.isLocated = true) :
      EndsAt (.node item) .stop (Located.spanOf item).stop
  | firstItem {first items} (located : (Located.spanOf first).start.isLocated = true) :
      EndsAt (.sequence (first :: items)) .start (Located.spanOf first).start
  | lastItem {items last} (located : (Located.spanOf last).stop.isLocated = true) :
      EndsAt (.sequence (items ++ [last])) .stop (Located.spanOf last).stop

namespace Fields

/-- The fields that a search for a boundary goes by, in the order in which it meets them. -/
def searchOrder (schema : NodeSchema) : Boundary -> List String
  | .start => schema.fieldNames
  | .stop => schema.fieldNames.reverse

/-- A field that the node has, with a child that is not located at that end. -/
def Passes (fields : Fields Item) (boundary : Boundary) (field : String) : Prop :=
  ∃ child, fields.lookup field = some child ∧ ∀ position, ¬ child.EndsAt boundary position

/-- What a search for a boundary comes to, going by the fields of a node in some order. -/
inductive Searched (node : String) (fields : Fields Item) (boundary : Boundary)
    (order : List String) : Except NodeError Position -> Prop where
  /-- The first child on the way that is located gives the boundary. -/
  | found {passed field later child position} (split : order = passed ++ field :: later)
      (unlocated : ∀ name ∈ passed, fields.Passes boundary name)
      (known : fields.lookup field = some child) (located : child.EndsAt boundary position) :
      Searched node fields boundary order (.ok position)
  /-- A field that the node does not have is met before any located child. -/
  | unknown {passed field later} (split : order = passed ++ field :: later)
      (unlocated : ∀ name ∈ passed, fields.Passes boundary name)
      (missing : fields.lookup field = none) :
      Searched node fields boundary order (.error (.unknownField node field))
  /-- The node has all the fields, but no child is located. -/
  | nowhere (unlocated : ∀ name ∈ order, fields.Passes boundary name) :
      Searched node fields boundary order (.error (.unlocatable node boundary))

/-- What becomes of one end of a node: it is kept if it is given, and searched for if not. -/
inductive Settled (node : String) (schema : NodeSchema) (fields : Fields Item)
    (boundary : Boundary) : Option Position -> Except NodeError Position -> Prop where
  | given {position} : Settled node schema fields boundary (some position) (.ok position)
  | derived {result} (searched : Searched node fields boundary (searchOrder schema boundary)
      result) : Settled node schema fields boundary none result

/-- The span of a node whose children are listed. Ends given explicitly are kept; a missing
start is that of the first child that has one, and a missing stop that of the last one. -/
def locateListed (node : String) (listed : List (String × Child Item))
    (start? stop? : Option Position) : Except NodeError Span :=
  match start?.or (listed.findSome? fun entry => entry.2.start?),
    stop?.or (listed.reverse.findSome? fun entry => entry.2.stop?) with
  | none, _ => .error (.unlocatable node .start)
  | some _, none => .error (.unlocatable node .stop)
  | some start, some stop => .ok ⟨start, stop⟩

end Fields

end KiwiFront
