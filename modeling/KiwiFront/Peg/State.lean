import KiwiFront.Peg.Expression
import KiwiFront.Peg.Memo
import KiwiFront.Peg.ParseError

/-!
# The state of a parser

What a parser reads never changes: a buffer of tokens, the reserved names and
whether plain rules are remembered. What changes is kept in a state: the cursor,
the furthest cursor of any match, the remembered outcomes, and the events so far.
The profile of a parser is a summary of its events.
-/

namespace KiwiFront.Peg

/-- A token sequence that is not empty. -/
structure Buffer where
  tokens : Array Token
  nonempty : 0 < tokens.size

namespace Buffer

/-- The end marker for tokens that lack one: it stands where the last token stops. -/
def closingMarker (tokens : List Token) : Token :=
  let here := match tokens.getLast? with
    | some last => last.stop
    | none => Position.first
  ⟨.endMarker, "", here, here⟩

/-- Whether tokens end with an end marker. -/
def isClosed (tokens : List Token) : Bool :=
  (tokens.getLast?.map Token.kind) == some .endMarker

/-- Tokens with an end marker behind them, unless they end with one already. -/
def close (tokens : List Token) : List Token :=
  if isClosed tokens then tokens else tokens ++ [closingMarker tokens]

theorem close_ne_nil (tokens : List Token) : close tokens ≠ [] := by
  unfold close
  split
  · rename_i closed
    intro isNil
    simp [isNil, isClosed] at closed
  · simp

/-- The buffer of some tokens. -/
def ofTokens (tokens : List Token) : Buffer where
  tokens := (close tokens).toArray
  nonempty := by simpa [List.length_pos_iff] using close_ne_nil tokens

/-- The token at a mark, and the last one at every later mark. -/
def clamped (buffer : Buffer) (mark : Nat) : Token :=
  have inRange : min mark (buffer.tokens.size - 1) < buffer.tokens.size := by
    have := buffer.nonempty
    omega
  buffer.tokens[min mark (buffer.tokens.size - 1)]

end Buffer

/-- What a parser reads, and how. -/
structure Setup where
  buffer : Buffer
  /-- Names that are reserved. -/
  keywords : List String
  /-- Whether the outcomes of plain rules are remembered. -/
  packrat : Bool

/-- Something that happens while a parser runs. -/
inductive Event where
  /-- The cursor was put back. -/
  | backtracked
  /-- A remembered outcome was used. -/
  | memoHit (rule : String) (mark : Nat)
  /-- No outcome was remembered. -/
  | memoMissed (rule : String) (mark : Nat) (growing : Bool)
  /-- The expression of a rule was evaluated. -/
  | entered (rule : String) (mark : Nat)
  /-- A left-recursive rule reached further than before. -/
  | grew (rule : String) (start stop : Nat)
  /-- A forced match failed. -/
  | forceFailed (position : Position) (expected : String)
  /-- A parse ended short of the end marker. -/
  | parseFailed (position : Position)
  /-- The schema of a node type was asked for. -/
  | schemaAsked (type : String)
deriving DecidableEq

/-- How often things happened. -/
structure Profile where
  memoHits : Nat
  memoMisses : Nat
  backtracks : Nat
  growths : Nat
  /-- How often each rule was evaluated, for the rules that were. -/
  invocations : List (String × Nat)

namespace Profile

/-- Nothing happened yet. -/
def empty : Profile := ⟨0, 0, 0, 0, []⟩

/-- Adds one to the count of a rule. -/
def countRule (rule : String) : List (String × Nat) -> List (String × Nat)
  | [] => [(rule, 1)]
  | (other, count) :: rest =>
      if rule = other then (other, count + 1) :: rest else (other, count) :: countRule rule rest

/-- Takes one more event into account. -/
def record (profile : Profile) : Event -> Profile
  | .backtracked => { profile with backtracks := profile.backtracks + 1 }
  | .memoHit _ _ => { profile with memoHits := profile.memoHits + 1 }
  | .memoMissed _ _ _ => { profile with memoMisses := profile.memoMisses + 1 }
  | .entered rule _ => { profile with invocations := countRule rule profile.invocations }
  | .grew _ _ _ => { profile with growths := profile.growths + 1 }
  | .forceFailed _ _ | .parseFailed _ | .schemaAsked _ => profile

/-- The summary of some events. -/
def ofEvents (events : List Event) : Profile :=
  events.foldl record empty

/-- How often a rule was evaluated. -/
def invocationsOf (profile : Profile) (rule : String) : Nat :=
  (profile.invocations.lookup rule).getD 0

end Profile

/-- What changes while a parser runs. -/
structure State (grammar : Grammar) where
  /-- The index of the next token; it may lie past the end of the buffer. -/
  cursor : Nat
  /-- The furthest cursor that a match has reached. -/
  furthest : Nat
  memo : MemoStore grammar.Stored
  /-- The events so far, the latest one first. -/
  events : List Event

namespace State

variable {grammar : Grammar}

/-- The state of a new parser. -/
def initial : State grammar := ⟨0, 0, .empty, []⟩

/-- Notes an event. -/
def log (state : State grammar) (event : Event) : State grammar :=
  { state with events := event :: state.events }

/-- Puts the cursor somewhere without further ado. -/
def moveTo (state : State grammar) (mark : Nat) : State grammar :=
  { state with cursor := mark }

/-- Puts the cursor at a mark. Going back is noted, going forth is not. -/
def reset (state : State grammar) (mark : Nat) : State grammar :=
  if mark < state.cursor then (state.moveTo mark).log .backtracked else state.moveTo mark

/-- Remembers an outcome of a rule. -/
def remember (state : State grammar) (rule : String) (mark : Nat)
    (outcome : Cached grammar.Stored) : State grammar :=
  { state with memo := state.memo.insert rule mark outcome }

/-- Steps over one token. -/
def consume (state : State grammar) : State grammar :=
  { state with cursor := state.cursor + 1, furthest := max state.furthest (state.cursor + 1) }

/-- The summary of what happened so far. -/
def profile (state : State grammar) : Profile :=
  .ofEvents state.events.reverse

end State

end KiwiFront.Peg
