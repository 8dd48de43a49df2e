import KiwiFront.Peg.State

/-!
# Evaluating expressions

Evaluation is a function from states to outcomes and states. Since rules may call
each other, and a grammar may do so without consuming tokens, evaluation takes a
bound on the depth of calls and on the length of repetitions. Running into that
bound is an outcome of its own.

A memoized rule is evaluated once at a mark; later its outcome is replayed. A
left-recursive rule starts from a remembered failure and is evaluated again as
long as it reaches further, each time on top of what it remembered before.
Fatal errors are not remembered. Outcomes are remembered under the name of their
rule: whichever rule of that name is evaluated replays them, if its values are of
the type of what is remembered.
-/

namespace KiwiFront.Peg

/-- How an evaluation ends. -/
inductive Outcome (Result : Type) where
  | success (value : Result)
  /-- Something else may be tried. -/
  | failure
  /-- The parse ends. -/
  | fatal (error : ParseError)
  /-- The bound was too small. -/
  | unfinished

/-- A computation on the state of a parser. -/
abbrev Run (grammar : Grammar) (Result : Type) :=
  State grammar -> Outcome Result × State grammar

variable {grammar : Grammar} {Result : Type}

namespace Run

/-- Goes on with the value of a success. Every other outcome stands. -/
def andThen {Next : Type} (run : Run grammar Result) (next : Result -> Run grammar Next) :
    Run grammar Next := fun state =>
  match run state with
  | (.success value, reached) => next value reached
  | (.failure, reached) => (.failure, reached)
  | (.fatal error, reached) => (.fatal error, reached)
  | (.unfinished, reached) => (.unfinished, reached)

/-- Consumes the token under the cursor if it is as asked for. -/
def expect (setup : Setup) (matcher : Matcher) : Run grammar Token := fun state =>
  match setup.buffer.tokens[state.cursor]? with
  | none => (.failure, state)
  | some token =>
      if matcher.accepts setup.keywords token then (.success token, state.consume)
      else (.failure, state)

/-- Moves the cursor by a distance. -/
def skip (distance : Int) : Run grammar Unit := fun state =>
  (.success (), state.reset (state.cursor + distance).toNat)

/-- Runs `second` from the same place where `first` fails. -/
def orElse (first second : Run grammar Result) : Run grammar Result := fun state =>
  match first state with
  | (.failure, reached) => second (reached.reset state.cursor)
  | other => other

/-- Repeats a run as long as it succeeds further along, at most `bound` times. The
last attempt is undone. -/
def repeated (item : Run grammar Result) : (bound : Nat) -> Run grammar (List Result)
  | 0, state => (.unfinished, state)
  | bound + 1, state =>
      match item state with
      | (.success value, reached) =>
          if state.cursor < reached.cursor then
            andThen (repeated item bound) (fun rest final => (.success (value :: rest), final))
              reached
          else (.success [], reached.reset state.cursor)
      | (.failure, reached) => (.success [], reached.reset state.cursor)
      | (.fatal error, reached) => (.fatal error, reached)
      | (.unfinished, reached) => (.unfinished, reached)

/-- Whether a run succeeds, or fails if `positive` is false. The cursor stays. -/
def lookahead (positive : Bool) (ahead : Run grammar Result) : Run grammar Bool := fun state =>
  match ahead state with
  | (.success _, reached) => (.success (true == positive), reached.moveTo state.cursor)
  | (.failure, reached) => (.success (false == positive), reached.moveTo state.cursor)
  | (.fatal error, reached) => (.fatal error, reached)
  | (.unfinished, reached) => (.unfinished, reached)

/-- Succeeds on true and fails on false. -/
def guard (test : Bool) : Run grammar Unit := fun state =>
  (if test then .success () else .failure, state)

/-- Ends the parse with an error at the token under the cursor. -/
def refuse (setup : Setup) (expected : String) : Run grammar Result := fun state =>
  let position := (setup.buffer.clamped state.cursor).start
  (.fatal (.forced expected position state.cursor), state.log (.forceFailed position expected))

/-- Turns a failure into an error. -/
def force (setup : Setup) (expected : String) (inner : Run grammar Result) :
    Run grammar Result := fun state =>
  match inner state with
  | (.failure, reached) => refuse setup expected reached
  | other => other

/-- Builds a node of a type from a value. -/
def build {Target : Type} (type : String) (make : Result -> Except NodeError Target)
    (value : Result) : Run grammar Target := fun state =>
  match make value with
  | .ok node => (.success node, state.log (.schemaAsked type))
  | .error cause => (.fatal (.node cause), state.log (.schemaAsked type))

/-- The outcome that is remembered under the name of a rule and under the cursor, as if
the rule were evaluated. A value of another type is an error. -/
def replay? (rule : grammar.Rule) (state : State grammar) :
    Option (Outcome (grammar.Value rule) × State grammar) :=
  let name := grammar.name rule
  match state.memo.find? name state.cursor with
  | none => none
  | some .failure => some (.failure, state.log (.memoHit name state.cursor))
  | some (.success stored stop) =>
      match grammar.downcast? rule stored with
      | some value => some (.success value, (state.log (.memoHit name state.cursor)).moveTo stop)
      | none => some (.fatal (.internal (.otherType name)), state)

/-- Evaluates a rule whose outcomes are remembered if the parser does so. -/
def memoized (setup : Setup) (rule : grammar.Rule) (body : Run grammar (grammar.Value rule)) :
    Run grammar (grammar.Value rule) := fun state =>
  let name := grammar.name rule
  let start := state.cursor
  if setup.packrat then
    match replay? rule state with
    | some replayed => replayed
    | none =>
        match body ((state.log (.memoMissed name start false)).log (.entered name start)) with
        | (.success value, reached) =>
            (.success value,
              reached.remember name start (.success ⟨grammar.tag rule, value⟩ reached.cursor))
        | (.failure, reached) =>
            (.failure, (reached.moveTo start).remember name start .failure)
        | other => other
  else body (state.log (.entered name start))

/-- The result of growing: the last accepted value at its end, or a failure. -/
def grown (start : Nat) (accepted : Option (Result × Nat)) (state : State grammar) :
    Outcome Result × State grammar :=
  match accepted with
  | some (value, stop) => (.success value, state.moveTo stop)
  | none => (.failure, state.moveTo start)

/-- Evaluates a left-recursive rule from `start` for as long as it reaches further,
at most `bound` times. -/
def grow (rule : grammar.Rule) (body : Run grammar (grammar.Value rule)) (start : Nat) :
    (bound : Nat) -> (accepted : Option (grammar.Value rule × Nat)) ->
      Run grammar (grammar.Value rule)
  | 0, _, state => (.fatal (.internal (.keptGrowing (grammar.name rule))), state)
  | bound + 1, accepted, state =>
      let name := grammar.name rule
      let reachedBefore := (accepted.map Prod.snd).getD start
      match body ((state.moveTo start).log (.entered name start)) with
      | (.success value, reached) =>
          let stop := reached.cursor
          if reachedBefore < stop then
            grow rule body start bound (some (value, stop))
              ((reached.log (.grew name start stop)).remember name start
                (.success ⟨grammar.tag rule, value⟩ stop))
          else grown start accepted reached
      | (.failure, reached) => grown start accepted reached
      | other => other

/-- How often a left-recursive rule may be evaluated from a mark: once for every token
that is left, and twice more. There is no answer behind the buffer. -/
def roundLimit? (size start : Nat) : Option Nat :=
  if start ≤ size then some (size - start + 2) else none

/-- Evaluates a left-recursive rule. -/
def leftRecursive (setup : Setup) (rule : grammar.Rule)
    (body : Run grammar (grammar.Value rule)) : Run grammar (grammar.Value rule) := fun state =>
  let name := grammar.name rule
  let start := state.cursor
  match replay? rule state with
  | some replayed => replayed
  | none =>
      let seeded := (state.log (.memoMissed name start true)).remember name start .failure
      match roundLimit? setup.buffer.tokens.size start with
      | some bound => grow rule body start bound none seeded
      | none => (.fatal (.internal (.beganBeyond name)), seeded)

/-- Evaluates a rule as its mode tells. -/
def inMode (setup : Setup) (rule : grammar.Rule) (body : Run grammar (grammar.Value rule)) :
    Run grammar (grammar.Value rule) :=
  match grammar.mode rule with
  | .plain => body
  | .memoized => memoized setup rule body
  | .leftRecursive => leftRecursive setup rule body

end Run

namespace Expression

/-- Evaluates an expression, given how rules are evaluated. Repetitions are cut off
after `bound` steps. -/
def run (setup : Setup) (callRule : (rule : grammar.Rule) -> Run grammar (grammar.Value rule))
    (bound : Nat) {Result : Type} :
    Expression grammar.Rule grammar.Value Result -> Run grammar Result
  | .token matcher => Run.expect setup matcher
  | .succeed value => fun state => (.success value, state)
  | .fail => fun state => (.failure, state)
  | .skip distance => Run.skip distance
  | .both first second =>
      (run setup callRule bound first).andThen fun left =>
        (run setup callRule bound second).andThen fun right state =>
          (.success (left, right), state)
  | .choice first second =>
      Run.orElse (run setup callRule bound first) (run setup callRule bound second)
  | .many item => Run.repeated (run setup callRule bound item) bound
  | .look positive ahead =>
      (Run.lookahead positive (run setup callRule bound ahead)).andThen Run.guard
  | .force inner expected => Run.force setup expected (run setup callRule bound inner)
  | .map change inner =>
      (run setup callRule bound inner).andThen fun value state => (.success (change value), state)
  | .build type make inner =>
      (run setup callRule bound inner).andThen (Run.build type make)
  | .call rule => callRule rule

end Expression

namespace Grammar

/-- Evaluates a rule. Calls nest at most `bound` deep. -/
def runRule (grammar : Grammar) (setup : Setup) :
    (bound : Nat) -> (rule : grammar.Rule) -> Run grammar (grammar.Value rule)
  | 0, _ => fun state => (.unfinished, state)
  | bound + 1, rule =>
      Run.inMode setup rule
        ((grammar.body rule).run setup (grammar.runRule setup bound) bound)

/-- Evaluates an expression over the rules of a grammar. -/
def evaluate (grammar : Grammar) (setup : Setup) (bound : Nat)
    (expression : Expression grammar.Rule grammar.Value Result) : Run grammar Result :=
  expression.run setup (grammar.runRule setup bound) bound

end Grammar

/-- A run has to succeed and to leave the cursor at the end marker. Anything else is
an error at the furthest token that was reached. -/
def Run.toEnd (setup : Setup) (run : Run grammar Result) : Run grammar Result := fun state =>
  let reject (reached : State grammar) : Outcome Result × State grammar :=
    let position := (setup.buffer.clamped reached.furthest).start
    (.fatal (.invalidSyntax position), reached.log (.parseFailed position))
  match run state with
  | (.success value, reached) =>
      if setup.buffer.tokens.size - 1 ≤ reached.cursor then (.success value, reached)
      else reject reached
  | (.failure, reached) => reject reached
  | other => other

end KiwiFront.Peg
