import KiwiFront.Peg.Evaluation

/-!
# Parsers

A parser is a setup together with the state that earlier evaluations left behind.
Every operation gives a parser back, so that what was remembered once can be used
later.
-/

namespace KiwiFront.Peg

/-- A parser session. -/
structure Parser (grammar : Grammar) where
  setup : Setup
  /-- How deep calls may nest. -/
  bound : Nat
  state : State grammar

namespace Parser

variable {grammar : Grammar} {Result : Type}

/-- A new parser over some tokens. -/
def ofTokens (grammar : Grammar) (tokens : List Token) (keywords : List String)
    (packrat : Bool) (bound : Nat) : Parser grammar :=
  ⟨⟨.ofTokens tokens, keywords, packrat⟩, bound, .initial⟩

/-- The index of the next token. -/
def mark (parser : Parser grammar) : Nat := parser.state.cursor

/-- The tokens, closed by an end marker. -/
def tokens (parser : Parser grammar) : List Token := parser.setup.buffer.tokens.toList

/-- The next token; the last one if the cursor is past it. -/
def peek (parser : Parser grammar) : Token := parser.setup.buffer.clamped parser.mark

/-- Whether the cursor has come to the last token. -/
def atEnd (parser : Parser grammar) : Bool :=
  decide (parser.setup.buffer.tokens.size - 1 ≤ parser.mark)

/-- Whether a name is reserved. -/
def isKeyword (parser : Parser grammar) (text : String) : Bool :=
  parser.setup.keywords.contains text

/-- How many outcomes are remembered. -/
def memoSize (parser : Parser grammar) : Nat := parser.state.memo.size

/-- The summary of what happened so far. -/
def profile (parser : Parser grammar) : Profile := parser.state.profile

/-- Runs something on the state of a parser. -/
def perform (parser : Parser grammar) (run : Run grammar Result) :
    Outcome Result × Parser grammar :=
  let ended := run parser.state
  (ended.1, { parser with state := ended.2 })

/-- Puts the cursor at a mark. -/
def reset (parser : Parser grammar) (mark : Nat) : Parser grammar :=
  { parser with state := parser.state.reset mark }

/-- How the parser evaluates an expression. -/
def running (parser : Parser grammar)
    (expression : Expression grammar.Rule grammar.Value Result) : Run grammar Result :=
  grammar.evaluate parser.setup parser.bound expression

/-- Evaluates an expression at the cursor. -/
def evaluate (parser : Parser grammar)
    (expression : Expression grammar.Rule grammar.Value Result) :
    Outcome Result × Parser grammar :=
  parser.perform (parser.running expression)

/-- Evaluates an expression that has to use up the tokens. -/
def parseWith (parser : Parser grammar)
    (expression : Expression grammar.Rule grammar.Value Result) :
    Outcome Result × Parser grammar :=
  parser.perform ((parser.running expression).toEnd parser.setup)

/-- Whether an expression succeeds, or fails if `positive` is false. -/
def lookahead (parser : Parser grammar) (positive : Bool)
    (expression : Expression grammar.Rule grammar.Value Result) :
    Outcome Bool × Parser grammar :=
  parser.perform (.lookahead positive (parser.running expression))

/-- Turns a missing result into an error. -/
def require (parser : Parser grammar) (result : Option Result) (expected : String) :
    Outcome Result × Parser grammar :=
  parser.perform fun state =>
    match result with
    | some value => (.success value, state)
    | none => Run.refuse parser.setup expected state

end Parser

end KiwiFront.Peg
