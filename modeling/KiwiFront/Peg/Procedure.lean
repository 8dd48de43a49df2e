import KiwiFront.Peg.Parser

/-!
# Rule procedures

A rule need not be an expression. Whatever is put together from what a parser offers can be one:
it may look at the tokens, the cursor and the counts, put the cursor anywhere, consume tokens by
a test of its own, evaluate other rules and remember their outcomes, and go on in any way with
whatever these come to, errors included. A session calls any number of such procedures on one
parser, each where the one before has left it.
-/

namespace KiwiFront.Peg

variable {grammar : Grammar} {Result : Type}

namespace Run

/-- Consumes the token under the cursor if it passes a test. -/
def consumeIf (setup : Setup) (passes : Token -> Bool) : Run grammar Token := fun state =>
  match setup.buffer.tokens[state.cursor]? with
  | none => (.failure, state)
  | some token => if passes token then (.success token, state.consume) else (.failure, state)

/-- Goes on with whatever a run has come to. -/
def resume {Next : Type} (run : Run grammar Result) (next : Outcome Result -> Run grammar Next) :
    Run grammar Next := fun state =>
  next (run state).1 (run state).2

/-- What can be put together from the calls of a parser. -/
inductive Procedural (setup : Setup) : {Result : Type} -> Run grammar Result -> Prop where
  /-- Ends in place. -/
  | settle {Result : Type} (outcome : Outcome Result) :
      Procedural setup fun state => (outcome, state)
  /-- Looks at the state. -/
  | inspect {Result : Type} (look : State grammar -> Result) :
      Procedural setup fun state => (.success (look state), state)
  /-- Notes that something has happened. -/
  | note (event : Event) : Procedural setup fun state => (.success (), state.log event)
  | reset (mark : Nat) : Procedural setup fun state => (.success (), state.reset mark)
  | consumeIf (passes : Token -> Bool) : Procedural setup (consumeIf setup passes)
  | lookahead {Result : Type} (positive : Bool) {ahead : Run grammar Result}
      (procedural : Procedural setup ahead) : Procedural setup (lookahead positive ahead)
  | force {Result : Type} (expected : String) {inner : Run grammar Result}
      (procedural : Procedural setup inner) : Procedural setup (force setup expected inner)
  | toEnd {Result : Type} {inner : Run grammar Result} (procedural : Procedural setup inner) :
      Procedural setup (inner.toEnd setup)
  | resume {Result Next : Type} {first : Run grammar Result}
      {next : Outcome Result -> Run grammar Next} (procedural : Procedural setup first)
      (later : ∀ outcome, Procedural setup (next outcome)) : Procedural setup (first.resume next)
  | memoized (rule : grammar.Rule) {body : Run grammar (grammar.Value rule)}
      (procedural : Procedural setup body) : Procedural setup (memoized setup rule body)
  | leftRecursive (rule : grammar.Rule) {body : Run grammar (grammar.Value rule)}
      (procedural : Procedural setup body) : Procedural setup (leftRecursive setup rule body)

end Run

/-- A procedure that is called on a parser. -/
structure Call (grammar : Grammar) (setup : Setup) where
  {Result : Type}
  run : Run grammar Result
  procedural : run.Procedural setup

/-- The state after some calls. -/
def State.afterCalls {setup : Setup} (state : State grammar) (calls : List (Call grammar setup)) :
    State grammar :=
  calls.foldl (fun reached call => (call.run reached).2) state

end KiwiFront.Peg
