import KiwiFront.Peg.Derivation
import KiwiFront.Proofs.Peg.Invariance

/-!
# What an expression reads

Where the tokens ahead are known, an expression reads a part of them or refuses them. Both
are said of parsers whose growing rules have not been tried ahead yet, and for all bounds
from some bound on. From what its parts read follows what an expression reads, so that a
whole parse is put together as its derivation is.
-/

namespace KiwiFront.Peg

variable {grammar : Grammar} {Result : Type} {setup : Setup}

namespace Run

variable {run other : Run grammar Result} {state reached : State grammar}

/-- A value is handed on. -/
theorem andThen_of_success {Next : Type} {next : Result -> Run grammar Next} {value : Result}
    (ran : run state = (.success value, reached)) :
    run.andThen next state = next value reached := by
  simp only [andThen, ran]

/-- A failure stands. -/
theorem andThen_of_failure {Next : Type} {next : Result -> Run grammar Next}
    (ran : run state = (.failure, reached)) :
    run.andThen next state = (.failure, reached) := by
  simp only [andThen, ran]

/-- So does an error. -/
theorem andThen_of_fatal {Next : Type} {next : Result -> Run grammar Next} {error : ParseError}
    (ran : run state = (.fatal error, reached)) :
    run.andThen next state = (.fatal error, reached) := by
  simp only [andThen, ran]

/-- A success is not tried again. -/
theorem orElse_of_success {value : Result} (ran : run state = (.success value, reached)) :
    run.orElse other state = (.success value, reached) := by
  simp only [orElse, ran]

/-- Where the first run fails, the second one begins at the same mark. -/
theorem orElse_of_failure (ran : run state = (.failure, reached)) :
    run.orElse other state = other (reached.reset state.cursor) := by
  simp only [orElse, ran]

/-- An error leaves nothing to try. -/
theorem orElse_of_fatal {error : ParseError} (ran : run state = (.fatal error, reached)) :
    run.orElse other state = (.fatal error, reached) := by
  simp only [orElse, ran]

/-- What succeeds need not be forced. -/
theorem force_of_success {expected : String} {value : Result}
    (ran : run state = (.success value, reached)) :
    Run.force setup expected run state = (.success value, reached) := by
  simp only [force, ran]

/-- A failure is refused where it is forced. -/
theorem force_of_failure {expected : String} (ran : run state = (.failure, reached)) :
    Run.force setup expected run state = refuse setup expected reached := by
  simp only [force, ran]

/-- A value that makes a node builds it. -/
theorem build_of_ok {Target : Type} {type : String} {make : Result -> Except NodeError Target}
    {value : Result} {node : Target} (made : make value = .ok node) :
    (build type make value : Run grammar Target) state =
      (.success node, state.log (.schemaAsked type)) := by
  simp only [build, made]

/-- A token that is accepted is consumed. -/
theorem expect_of_accepted {matcher : Matcher} {token : Token}
    (here : setup.buffer.tokens[state.cursor]? = some token)
    (accepted : matcher.accepts setup.keywords token = true) :
    expect setup matcher state = (.success token, state.consume) := by
  simp only [expect, here, accepted, if_true]

/-- Without an accepted token ahead, nothing is consumed. -/
theorem expect_of_refused {matcher : Matcher}
    (refused : ∀ token ∈ setup.buffer.tokens[state.cursor]?,
      matcher.accepts setup.keywords token = false) :
    expect setup matcher state = (.failure, state) := by
  unfold expect
  cases here : setup.buffer.tokens[state.cursor]? with
  | none => rfl
  | some token => simp only [refused token here, Bool.false_eq_true, if_false]

/-- A left-recursive rule of which nothing is remembered grows from a remembered failure. -/
theorem leftRecursive_of_missing {rule : grammar.Rule} {body : Run grammar (grammar.Value rule)}
    (missing : state.memo.find? (grammar.name rule) state.cursor = none)
    (within : state.cursor ≤ setup.buffer.tokens.size) :
    leftRecursive setup rule body state =
      grow rule body state.cursor (setup.buffer.tokens.size - state.cursor + 2) none
        (state.seed rule) := by
  simp only [leftRecursive, replay?_of_missing missing, roundLimit?_of_le within]

end Run

namespace Expression

variable {callRule : (rule : grammar.Rule) -> Run grammar (grammar.Value rule)} {bound : Nat}
  {expression other : Expression grammar.Rule grammar.Value Result}
  {state between reached : State grammar} {value : Result}

theorem run_token (matcher : Matcher) :
    (token matcher : Expression grammar.Rule grammar.Value Token).run setup callRule bound =
      Run.expect setup matcher := rfl

theorem run_both {Second : Type} (second : Expression grammar.Rule grammar.Value Second) :
    (both expression second).run setup callRule bound =
      (expression.run setup callRule bound).andThen fun left =>
        (second.run setup callRule bound).andThen fun right state =>
          (.success (left, right), state) := rfl

theorem run_many :
    (many expression).run setup callRule bound =
      (expression.run setup callRule bound).repeated bound := rfl

theorem run_look (positive : Bool) :
    (look positive expression).run setup callRule bound =
      (Run.lookahead positive (expression.run setup callRule bound)).andThen Run.guard := rfl

theorem run_map {Target : Type} (change : Result -> Target) :
    (map change expression).run setup callRule bound =
      (expression.run setup callRule bound).andThen fun value state =>
        (.success (change value), state) := rfl

theorem run_build {Target : Type} (type : String) (make : Result -> Except NodeError Target) :
    (build type make expression).run setup callRule bound =
      (expression.run setup callRule bound).andThen (Run.build type make) := rfl

theorem run_call (rule : grammar.Rule) :
    (call rule : Expression grammar.Rule grammar.Value (grammar.Value rule)).run setup callRule
      bound = callRule rule := rfl

/-- Two expressions that succeed one behind the other read a pair. -/
theorem run_both_of_success {Second : Type} {second : Expression grammar.Rule grammar.Value Second}
    {other : Second} (ran : expression.run setup callRule bound state = (.success value, between))
    (ranSecond : second.run setup callRule bound between = (.success other, reached)) :
    (both expression second).run setup callRule bound state =
      (.success (value, other), reached) := by
  rw [run_both, Run.andThen_of_success ran, Run.andThen_of_success ranSecond]

/-- The value of a success is changed. -/
theorem run_map_of_success {Target : Type} {change : Result -> Target}
    (ran : expression.run setup callRule bound state = (.success value, reached)) :
    (map change expression).run setup callRule bound state =
      (.success (change value), reached) := by
  rw [run_map, Run.andThen_of_success ran]

/-- Only the second one of two values is kept. -/
theorem run_after_of_success {Kept : Type} {kept : Expression grammar.Rule grammar.Value Kept}
    {last : Kept} (ran : expression.run setup callRule bound state = (.success value, between))
    (ranKept : kept.run setup callRule bound between = (.success last, reached)) :
    (after expression kept).run setup callRule bound state = (.success last, reached) :=
  run_map_of_success (run_both_of_success ran ranKept)

/-- A success builds a node if its value makes one. -/
theorem run_build_of_success {Target : Type} {type : String}
    {make : Result -> Except NodeError Target} {node : Target}
    (ran : expression.run setup callRule bound state = (.success value, reached))
    (made : make value = .ok node) :
    (build type make expression).run setup callRule bound state =
      (.success node, reached.log (.schemaAsked type)) := by
  rw [run_build, Run.andThen_of_success ran, Run.build_of_ok made]

end Expression

/-- The token at a mark is the first one of those from there on. -/
theorem Buffer.token?_of_drop {buffer : Buffer} {mark : Nat} {ahead : List Token}
    (tokens : buffer.tokens.toList.drop mark = ahead) : buffer.tokens[mark]? = ahead.head? := by
  rw [← Array.getElem?_toList, ← List.head?_drop, tokens]

/-- The cursor is before some tokens, the last ones of the buffer, and no outcome of a
growing rule is remembered there. -/
structure State.Before (setup : Setup) (ahead : List Token) (state : State grammar) : Prop where
  tokens : setup.buffer.tokens.toList.drop state.cursor = ahead
  within : state.cursor ≤ setup.buffer.tokens.size
  fresh : ∀ rule, grammar.mode rule = .leftRecursive -> ∀ mark, state.cursor ≤ mark ->
    state.memo.find? (grammar.name rule) mark = none

namespace State.Before

variable {state : State grammar} {token : Token} {ahead : List Token}

/-- What is ahead depends on the cursor and on what is remembered, and on nothing else. -/
theorem congr (before : state.Before setup ahead) {other : State grammar}
    (sameCursor : other.cursor = state.cursor) (sameMemo : other.memo = state.memo) :
    other.Before setup ahead := by
  refine ⟨?_, ?_, ?_⟩
  · rw [sameCursor]
    exact before.tokens
  · rw [sameCursor]
    exact before.within
  · intro rule growing mark behind
    rw [sameMemo]
    rw [sameCursor] at behind
    exact before.fresh rule growing mark behind

/-- The tokens ahead reach up to the end of the buffer. -/
theorem cursor_add (before : state.Before setup ahead) :
    state.cursor + ahead.length = setup.buffer.tokens.size := by
  have within := before.within
  rw [← before.tokens, List.length_drop, Array.length_toList]
  omega

/-- The token under the cursor is the first one ahead. -/
theorem token? (before : state.Before setup ahead) :
    setup.buffer.tokens[state.cursor]? = ahead.head? :=
  Buffer.token?_of_drop before.tokens

/-- So it is the one that others follow. -/
theorem token_here (before : state.Before setup (token :: ahead)) :
    setup.buffer.tokens[state.cursor]? = some token :=
  before.token?

/-- Tokens further ahead are those behind the first ones. -/
theorem drop_append {consumed rest : List Token} (before : state.Before setup (consumed ++ rest)) :
    setup.buffer.tokens.toList.drop (state.cursor + consumed.length) = rest := by
  rw [← List.drop_drop, before.tokens, List.drop_left]

/-- Behind a consumed token, the others are ahead. -/
theorem consume (before : state.Before setup (token :: ahead)) :
    state.consume.Before setup ahead := by
  have total := before.cursor_add
  rw [List.length_cons] at total
  refine ⟨?_, ?_, ?_⟩
  · rw [State.consume_cursor, ← List.drop_drop, before.tokens]
    rfl
  · rw [State.consume_cursor]
    omega
  · intro rule growing mark behind
    rw [State.consume_cursor] at behind
    exact before.fresh rule growing mark (by omega)

end State.Before

/-- Before some tokens, the first of which it consumes, an expression succeeds with a value
of some kind. -/
def Grammar.Reads (grammar : Grammar) (setup : Setup)
    (expression : Expression grammar.Rule grammar.Value Result) (consumed rest : List Token)
    (good : Result -> Prop) : Prop :=
  ∃ low, ∀ bound, low ≤ bound -> ∀ state, state.Before setup (consumed ++ rest) ->
    ∃ value reached,
      expression.run setup (grammar.runRule setup bound) bound state = (.success value, reached) ∧
        good value ∧ reached.Before setup rest

/-- Before some tokens an expression fails, and remembers nothing. -/
def Grammar.Refuses (grammar : Grammar) (setup : Setup)
    (expression : Expression grammar.Rule grammar.Value Result) (ahead : List Token) : Prop :=
  ∃ low, ∀ bound, low ≤ bound -> ∀ state, state.Before setup ahead ->
    ∃ reached,
      expression.run setup (grammar.runRule setup bound) bound state = (.failure, reached) ∧
        reached.memo = state.memo

/-- Before some tokens an expression succeeds in place, and remembers nothing. -/
def Grammar.Passes (grammar : Grammar) (setup : Setup)
    (expression : Expression grammar.Rule grammar.Value Result) (ahead : List Token)
    (good : Result -> Prop) : Prop :=
  ∃ low, ∀ bound, low ≤ bound -> ∀ state, state.Before setup ahead ->
    ∃ value reached,
      expression.run setup (grammar.runRule setup bound) bound state = (.success value, reached) ∧
        good value ∧ reached.cursor = state.cursor ∧ reached.memo = state.memo

/-- A lookahead that passes reads nothing. -/
theorem Grammar.Passes.reads {ahead : List Token} {good : Result -> Prop}
    {expression : Expression grammar.Rule grammar.Value Result}
    (passes : grammar.Passes setup expression ahead good) :
    grammar.Reads setup expression [] ahead good := by
  obtain ⟨low, passes⟩ := passes
  refine ⟨low, fun bound enough state before => ?_⟩
  obtain ⟨value, reached, ran, isGood, sameCursor, sameMemo⟩ := passes bound enough state before
  exact ⟨value, reached, ran, isGood, before.congr sameCursor sameMemo⟩

/-- The expression of a rule that is not remembered is evaluated with one event more at most. -/
theorem Run.inMode_of_off (off : setup.packrat = false) {rule : grammar.Rule}
    (steady : grammar.mode rule ≠ .leftRecursive) (body : Run grammar (grammar.Value rule))
    (state : State grammar) :
    ∃ events, Run.inMode setup rule body state = body { state with events := events } := by
  cases mode : grammar.mode rule with
  | plain =>
      refine ⟨state.events, ?_⟩
      simp only [Run.inMode, mode]
  | memoized =>
      refine ⟨.entered (grammar.name rule) state.cursor :: state.events, ?_⟩
      simp only [Run.inMode, mode, Run.memoized, off, Bool.false_eq_true, if_false, State.log]
  | leftRecursive => exact absurd mode steady

/-- A rule that is not remembered is evaluated as its expression is. -/
theorem Grammar.run_call (off : setup.packrat = false) {rule : grammar.Rule}
    (steady : grammar.mode rule ≠ .leftRecursive) (bound : Nat) (state : State grammar) :
    ∃ entered : State grammar, entered.cursor = state.cursor ∧ entered.memo = state.memo ∧
      grammar.runRule setup (bound + 1) rule state =
        (grammar.body rule).run setup (grammar.runRule setup bound) bound entered := by
  obtain ⟨events, ran⟩ := Run.inMode_of_off off steady
    ((grammar.body rule).run setup (grammar.runRule setup bound) bound) state
  exact ⟨{ state with events := events }, rfl, rfl, ran⟩

namespace Grammar.Reads

variable {consumed rest : List Token} {good : Result -> Prop}
  {expression : Expression grammar.Rule grammar.Value Result}

/-- A value that is good is as good as anything that follows from it. -/
theorem mono (reads : grammar.Reads setup expression consumed rest good) {better : Result -> Prop}
    (included : ∀ value, good value -> better value) :
    grammar.Reads setup expression consumed rest better := by
  obtain ⟨low, reads⟩ := reads
  refine ⟨low, fun bound enough state before => ?_⟩
  obtain ⟨value, reached, ran, isGood, after⟩ := reads bound enough state before
  exact ⟨value, reached, ran, included value isGood, after⟩

/-- A token that is accepted is read. -/
theorem token {matcher : Matcher} {token : Token}
    (accepted : matcher.accepts setup.keywords token = true) :
    grammar.Reads setup (.token matcher) [token] rest (· = token) := by
  refine ⟨0, fun bound _ state before => ⟨token, state.consume, ?_, rfl, before.consume⟩⟩
  exact Run.expect_of_accepted before.token_here accepted

/-- Nothing is read in place. -/
theorem succeed (value : Result) :
    grammar.Reads setup (.succeed value) [] rest (· = value) :=
  ⟨0, fun _ _ state before => ⟨value, state, rfl, rfl, before⟩⟩

/-- What two expressions read stands one behind the other. -/
theorem both {Second : Type} {second : Expression grammar.Rule grammar.Value Second}
    {left right : List Token} {alsoGood : Second -> Prop}
    (readsFirst : grammar.Reads setup expression left (right ++ rest) good)
    (readsSecond : grammar.Reads setup second right rest alsoGood) :
    grammar.Reads setup (.both expression second) (left ++ right) rest fun values =>
      good values.1 ∧ alsoGood values.2 := by
  obtain ⟨low, readsFirst⟩ := readsFirst
  obtain ⟨lowToo, readsSecond⟩ := readsSecond
  refine ⟨max low lowToo, fun bound enough state before => ?_⟩
  rw [List.append_assoc] at before
  obtain ⟨value, between, ran, isGood, after⟩ := readsFirst bound (by omega) state before
  obtain ⟨other, reached, ranToo, isGoodToo, afterBoth⟩ :=
    readsSecond bound (by omega) between after
  exact ⟨(value, other), reached, Expression.run_both_of_success ran ranToo, ⟨isGood, isGoodToo⟩,
    afterBoth⟩

/-- A changed value is good if it follows from the one that is read. -/
theorem map {Target : Type} {change : Result -> Target} {better : Target -> Prop}
    (reads : grammar.Reads setup expression consumed rest good)
    (included : ∀ value, good value -> better (change value)) :
    grammar.Reads setup (.map change expression) consumed rest better := by
  obtain ⟨low, reads⟩ := reads
  refine ⟨low, fun bound enough state before => ?_⟩
  obtain ⟨value, reached, ran, isGood, after⟩ := reads bound enough state before
  exact ⟨change value, reached, Expression.run_map_of_success ran, included value isGood, after⟩

/-- A node is built if its parts allow for it. -/
theorem build {Target : Type} {type : String} {make : Result -> Except NodeError Target}
    {better : Target -> Prop} (reads : grammar.Reads setup expression consumed rest good)
    (builds : ∀ value, good value -> ∃ node, make value = .ok node ∧ better node) :
    grammar.Reads setup (.build type make expression) consumed rest better := by
  obtain ⟨low, reads⟩ := reads
  refine ⟨low, fun bound enough state before => ?_⟩
  obtain ⟨value, reached, ran, isGood, after⟩ := reads bound enough state before
  obtain ⟨node, built, isBetter⟩ := builds value isGood
  exact ⟨node, reached.log (.schemaAsked type), Expression.run_build_of_success ran built, isBetter,
    after.congr rfl rfl⟩

/-- What is read need not be forced. -/
theorem force {expected : String} (reads : grammar.Reads setup expression consumed rest good) :
    grammar.Reads setup (.force expression expected) consumed rest good := by
  obtain ⟨low, reads⟩ := reads
  refine ⟨low, fun bound enough state before => ?_⟩
  obtain ⟨value, reached, ran, isGood, after⟩ := reads bound enough state before
  exact ⟨value, reached, Run.force_of_success ran, isGood, after⟩

/-- A choice reads what its first alternative reads. -/
theorem choiceFirst {other : Expression grammar.Rule grammar.Value Result}
    (reads : grammar.Reads setup expression consumed rest good) :
    grammar.Reads setup (.choice expression other) consumed rest good := by
  obtain ⟨low, reads⟩ := reads
  refine ⟨low, fun bound enough state before => ?_⟩
  obtain ⟨value, reached, ran, isGood, after⟩ := reads bound enough state before
  exact ⟨value, reached, Run.orElse_of_success ran, isGood, after⟩

/-- It reads what the second one reads where the first one refuses. -/
theorem choiceSecond {other : Expression grammar.Rule grammar.Value Result}
    (refuses : grammar.Refuses setup other (consumed ++ rest))
    (reads : grammar.Reads setup expression consumed rest good) :
    grammar.Reads setup (.choice other expression) consumed rest good := by
  obtain ⟨low, refuses⟩ := refuses
  obtain ⟨lowToo, reads⟩ := reads
  refine ⟨max low lowToo, fun bound enough state before => ?_⟩
  obtain ⟨failed, ran, sameMemo⟩ := refuses bound (by omega) state before
  have beforeAgain : (failed.reset state.cursor).Before setup (consumed ++ rest) :=
    before.congr (State.reset_cursor _ _) ((State.reset_memo _ _).trans sameMemo)
  obtain ⟨value, reached, ranToo, isGood, after⟩ := reads bound (by omega) _ beforeAgain
  exact ⟨value, reached, (Run.orElse_of_failure ran).trans ranToo, isGood, after⟩

/-- A rule that is not remembered reads what its expression reads. -/
theorem call (off : setup.packrat = false) {rule : grammar.Rule}
    (steady : grammar.mode rule ≠ .leftRecursive) {good : grammar.Value rule -> Prop}
    (reads : grammar.Reads setup (grammar.body rule) consumed rest good) :
    grammar.Reads setup (.call rule) consumed rest good := by
  obtain ⟨low, reads⟩ := reads
  refine ⟨low + 1, fun bound enough state before => ?_⟩
  obtain ⟨bound, rfl⟩ : ∃ less, bound = less + 1 := ⟨bound - 1, by omega⟩
  obtain ⟨entered, sameCursor, sameMemo, entering⟩ := run_call off steady bound state
  rw [Expression.run_call, entering]
  exact reads bound (by omega) entered (before.congr sameCursor sameMemo)

/-- What is skipped is read as well, but is not part of the value. -/
theorem after {Skipped : Type} {skipped : Expression grammar.Rule grammar.Value Skipped}
    {left right : List Token} {fine : Skipped -> Prop}
    (readsSkipped : grammar.Reads setup skipped left (right ++ rest) fine)
    (reads : grammar.Reads setup expression right rest good) :
    grammar.Reads setup (.after skipped expression) (left ++ right) rest good :=
  (readsSkipped.both reads).map fun _ both => both.2

/-- The same holds of what is skipped behind the value. -/
theorem before {Skipped : Type} {skipped : Expression grammar.Rule grammar.Value Skipped}
    {left right : List Token} {fine : Skipped -> Prop}
    (reads : grammar.Reads setup expression left (right ++ rest) good)
    (readsSkipped : grammar.Reads setup skipped right rest fine) :
    grammar.Reads setup (.before expression skipped) (left ++ right) rest good :=
  (reads.both readsSkipped).map fun _ both => both.1

/-- An option reads what is there. -/
theorem optionalSome (reads : grammar.Reads setup expression consumed rest good) :
    grammar.Reads setup (.optional expression) consumed rest fun value =>
      ∀ given ∈ value, good given := by
  refine choiceFirst (reads.map fun value isGood given same => ?_)
  cases same
  exact isGood

/-- It reads nothing where it is refused. -/
theorem optionalNone (refuses : grammar.Refuses setup expression rest) :
    grammar.Reads setup (.optional expression) [] rest fun value => value = none := by
  refine choiceSecond ?_ (succeed none)
  obtain ⟨low, refuses⟩ := refuses
  refine ⟨low, fun bound enough state before => ?_⟩
  obtain ⟨reached, ran, back⟩ := refuses bound enough state before
  exact ⟨reached, Run.andThen_of_failure ran, back⟩

end Grammar.Reads

namespace Grammar.Refuses

variable {ahead : List Token} {expression : Expression grammar.Rule grammar.Value Result}

/-- Failing refuses everything. -/
theorem fail : grammar.Refuses setup (.fail : Expression grammar.Rule grammar.Value Result) ahead :=
  ⟨0, fun _ _ state _ => ⟨state, rfl, rfl⟩⟩

/-- A token is refused unless the next one is as asked for. -/
theorem token {matcher : Matcher}
    (refused : ∀ token ∈ ahead.head?, matcher.accepts setup.keywords token = false) :
    grammar.Refuses setup (.token matcher) ahead := by
  refine ⟨0, fun bound _ state before => ⟨state, Run.expect_of_refused ?_, rfl⟩⟩
  rw [before.token?]
  exact refused

/-- What refuses has no value to change. -/
theorem map {Target : Type} {change : Result -> Target}
    (refuses : grammar.Refuses setup expression ahead) :
    grammar.Refuses setup (.map change expression) ahead := by
  obtain ⟨low, refuses⟩ := refuses
  refine ⟨low, fun bound enough state before => ?_⟩
  obtain ⟨reached, ran, sameMemo⟩ := refuses bound enough state before
  exact ⟨reached, Run.andThen_of_failure ran, sameMemo⟩

/-- Nor one to build a node from. -/
theorem build {Target : Type} {type : String} {make : Result -> Except NodeError Target}
    (refuses : grammar.Refuses setup expression ahead) :
    grammar.Refuses setup (.build type make expression) ahead := by
  obtain ⟨low, refuses⟩ := refuses
  refine ⟨low, fun bound enough state before => ?_⟩
  obtain ⟨reached, ran, sameMemo⟩ := refuses bound enough state before
  exact ⟨reached, Run.andThen_of_failure ran, sameMemo⟩

/-- A sequence refuses what its first part refuses. -/
theorem bothFirst {Second : Type} {second : Expression grammar.Rule grammar.Value Second}
    (refuses : grammar.Refuses setup expression ahead) :
    grammar.Refuses setup (.both expression second) ahead := by
  obtain ⟨low, refuses⟩ := refuses
  refine ⟨low, fun bound enough state before => ?_⟩
  obtain ⟨reached, ran, sameMemo⟩ := refuses bound enough state before
  exact ⟨reached, Run.andThen_of_failure ran, sameMemo⟩

/-- What comes second is refused in place. -/
theorem bothInPlace {First : Type} {first : Expression grammar.Rule grammar.Value First}
    {good : First -> Prop} (passes : grammar.Passes setup first ahead good)
    (refuses : grammar.Refuses setup expression ahead) :
    grammar.Refuses setup (.both first expression) ahead := by
  obtain ⟨low, passes⟩ := passes
  obtain ⟨lowToo, refuses⟩ := refuses
  refine ⟨max low lowToo, fun bound enough state before => ?_⟩
  obtain ⟨value, between, ran, _, sameCursor, sameMemo⟩ := passes bound (by omega) state before
  obtain ⟨reached, ranToo, sameMemoToo⟩ :=
    refuses bound (by omega) between (before.congr sameCursor sameMemo)
  refine ⟨reached, ?_, sameMemoToo.trans sameMemo⟩
  exact (Run.andThen_of_success ran).trans (Run.andThen_of_failure ranToo)

/-- What comes second is refused behind one token. -/
theorem bothBehind {matcher : Matcher} {token : Token}
    (accepted : matcher.accepts setup.keywords token = true)
    (refuses : grammar.Refuses setup expression ahead) :
    grammar.Refuses setup (.both (.token matcher) expression) (token :: ahead) := by
  obtain ⟨low, refuses⟩ := refuses
  refine ⟨low, fun bound enough state before => ?_⟩
  obtain ⟨reached, ran, sameMemo⟩ := refuses bound enough _ before.consume
  have read := Run.expect_of_accepted before.token_here accepted
  refine ⟨reached, ?_, sameMemo⟩
  exact (Run.andThen_of_success read).trans (Run.andThen_of_failure ran)

/-- A choice refuses what both alternatives refuse. -/
theorem choice {other : Expression grammar.Rule grammar.Value Result}
    (refuses : grammar.Refuses setup expression ahead)
    (refusesOther : grammar.Refuses setup other ahead) :
    grammar.Refuses setup (.choice expression other) ahead := by
  obtain ⟨low, refuses⟩ := refuses
  obtain ⟨lowToo, refusesOther⟩ := refusesOther
  refine ⟨max low lowToo, fun bound enough state before => ?_⟩
  obtain ⟨failed, ran, sameMemo⟩ := refuses bound (by omega) state before
  have sameReset : (failed.reset state.cursor).memo = state.memo :=
    (State.reset_memo _ _).trans sameMemo
  have beforeAgain : (failed.reset state.cursor).Before setup ahead :=
    before.congr (State.reset_cursor _ _) sameReset
  obtain ⟨reached, ranToo, sameMemoToo⟩ := refusesOther bound (by omega) _ beforeAgain
  exact ⟨reached, (Run.orElse_of_failure ran).trans ranToo, sameMemoToo.trans sameReset⟩

/-- A rule refuses what its expression refuses. -/
theorem call (off : setup.packrat = false) {rule : grammar.Rule}
    (steady : grammar.mode rule ≠ .leftRecursive)
    (refuses : grammar.Refuses setup (grammar.body rule) ahead) :
    grammar.Refuses setup (.call rule) ahead := by
  obtain ⟨low, refuses⟩ := refuses
  refine ⟨low + 1, fun bound enough state before => ?_⟩
  obtain ⟨bound, rfl⟩ : ∃ less, bound = less + 1 := ⟨bound - 1, by omega⟩
  obtain ⟨entered, sameCursor, sameMemo, entering⟩ := run_call off steady bound state
  rw [Expression.run_call, entering, ← sameMemo]
  exact refuses bound (by omega) entered (before.congr sameCursor sameMemo)

/-- A negative lookahead is refused before a token that is as asked for. -/
theorem lookToken {matcher : Matcher} {token : Token}
    (accepted : matcher.accepts setup.keywords token = true) :
    grammar.Refuses setup (.look false (.token matcher)) (token :: ahead) := by
  refine ⟨0, fun bound _ state before => ⟨state.consume.moveTo state.cursor, ?_, rfl⟩⟩
  simp only [Expression.run_look, Expression.run_token, Run.andThen, Run.lookahead, Run.expect,
    before.token_here, accepted, if_true, Run.guard]
  rfl

/-- One of several tokens is refused where each of them is. -/
theorem anyToken {matchers : List Matcher}
    (refused : ∀ matcher ∈ matchers, ∀ token ∈ ahead.head?,
      matcher.accepts setup.keywords token = false) :
    grammar.Refuses setup (.alternatives (matchers.map .token)) ahead := by
  induction matchers with
  | nil => exact .fail
  | cons matcher others inductionHypothesis =>
      refine choice (token (refused matcher List.mem_cons_self)) (inductionHypothesis ?_)
      exact fun other member => refused other (List.mem_cons_of_mem _ member)

end Grammar.Refuses

/-- One of several tokens is read by the first choice that accepts it. -/
theorem Grammar.Reads.anyToken {matchers : List Matcher} {token : Token} {rest : List Token}
    (accepted : ∃ matcher ∈ matchers, matcher.accepts setup.keywords token = true) :
    grammar.Reads setup (.alternatives (matchers.map .token)) [token] rest (· = token) := by
  induction matchers with
  | nil =>
      obtain ⟨matcher, member, _⟩ := accepted
      cases member
  | cons matcher others inductionHypothesis =>
      by_cases here : matcher.accepts setup.keywords token = true
      · exact .choiceFirst (.token here)
      · have later : ∃ matcher ∈ others, matcher.accepts setup.keywords token = true := by
          obtain ⟨other, member, accepted⟩ := accepted
          rcases List.mem_cons.1 member with rfl | inOthers
          · exact absurd accepted here
          · exact ⟨other, inOthers, accepted⟩
        refine .choiceSecond (.token ?_) (inductionHypothesis later)
        rintro next ⟨⟩
        exact Bool.eq_false_iff.2 here

namespace Grammar.Passes

variable {ahead : List Token}

/-- A negative lookahead passes unless the next token is as asked for. -/
theorem lookToken {matcher : Matcher}
    (refused : ∀ token ∈ ahead.head?, matcher.accepts setup.keywords token = false) :
    grammar.Passes setup (.look false (.token matcher)) ahead fun _ => True := by
  have refusesToken : grammar.Refuses setup (.token matcher) ahead := .token refused
  obtain ⟨low, refuses⟩ := refusesToken
  refine ⟨low, fun bound enough state before => ?_⟩
  obtain ⟨reached, ran, sameMemo⟩ := refuses bound enough state before
  refine ⟨(), reached.moveTo state.cursor, ?_, trivial, rfl, sameMemo⟩
  simp only [Expression.run_token] at ran
  simp only [Expression.run_look, Expression.run_token, Run.andThen, Run.lookahead, ran, Run.guard]
  rfl

/-- A repetition passes where its item is refused. -/
theorem many {Item : Type} {item : Expression grammar.Rule grammar.Value Item}
    (refuses : grammar.Refuses setup item ahead) :
    grammar.Passes setup (.many item) ahead (· = []) := by
  obtain ⟨low, refuses⟩ := refuses
  refine ⟨low + 1, fun bound enough state before => ?_⟩
  obtain ⟨less, rfl⟩ : ∃ less, bound = less + 1 := ⟨bound - 1, by omega⟩
  obtain ⟨reached, ran, sameMemo⟩ := refuses (less + 1) (by omega) state before
  refine ⟨[], reached.reset state.cursor, ?_, rfl, State.reset_cursor _ _,
    (State.reset_memo _ _).trans sameMemo⟩
  simp only [Expression.run_many, Run.repeated, ran]

/-- A rule passes where its expression does. -/
theorem call (off : setup.packrat = false) {rule : grammar.Rule}
    (steady : grammar.mode rule ≠ .leftRecursive) {good : grammar.Value rule -> Prop}
    (passes : grammar.Passes setup (grammar.body rule) ahead good) :
    grammar.Passes setup (.call rule) ahead good := by
  obtain ⟨low, passes⟩ := passes
  refine ⟨low + 1, fun bound enough state before => ?_⟩
  obtain ⟨bound, rfl⟩ : ∃ less, bound = less + 1 := ⟨bound - 1, by omega⟩
  obtain ⟨entered, sameCursor, sameMemo, entering⟩ := run_call off steady bound state
  rw [Expression.run_call, entering, ← sameMemo, ← sameCursor]
  exact passes bound (by omega) entered (before.congr sameCursor sameMemo)

end Grammar.Passes

/-- Before some tokens an item can be read again and again, and is refused at last. -/
inductive Grammar.ReadsEach (grammar : Grammar) (setup : Setup) {Item : Type}
    (item : Expression grammar.Rule grammar.Value Item) (good : Item -> Prop) :
    (consumed rest : List Token) -> Prop where
  | none {rest} (refuses : grammar.Refuses setup item rest) :
      ReadsEach grammar setup item good [] rest
  | more {piece consumed rest} (nonempty : piece ≠ [])
      (reads : grammar.Reads setup item piece (consumed ++ rest) good)
      (later : ReadsEach grammar setup item good consumed rest) :
      ReadsEach grammar setup item good (piece ++ consumed) rest

/-- Parts that are read wherever they stand are read one after the other. -/
theorem Grammar.ReadsEach.of_repeats {Item : Type}
    {item : Expression grammar.Rule grammar.Value Item} {good : Item -> Prop}
    {part : List Token -> Prop} {tokens rest : List Token} (repeats : Repeats part tokens)
    (reads : ∀ piece behind, part piece ->
      piece ≠ [] ∧ grammar.Reads setup item piece behind good)
    (refuses : grammar.Refuses setup item rest) :
    grammar.ReadsEach setup item good tokens rest := by
  induction repeats with
  | none => exact .none refuses
  | more head _ inductionHypothesis =>
      obtain ⟨nonempty, readsHead⟩ := reads _ _ head
      exact .more nonempty readsHead inductionHypothesis

namespace Grammar.Reads

variable {Item : Type} {item : Expression grammar.Rule grammar.Value Item} {good : Item -> Prop}
  {consumed rest : List Token}

/-- The items are read within one bound, and as many rounds as there are items. -/
theorem repeated (each : grammar.ReadsEach setup item good consumed rest) :
    ∃ low rounds, ∀ bound count, low ≤ bound -> rounds ≤ count ->
      ∀ state, state.Before setup (consumed ++ rest) -> ∃ values reached,
        Run.repeated (item.run setup (grammar.runRule setup bound) bound) count state =
          (.success values, reached) ∧
        (∀ value ∈ values, good value) ∧ reached.Before setup rest := by
  induction each with
  | none refuses =>
      obtain ⟨low, refuses⟩ := refuses
      refine ⟨low, 1, fun bound count enough rounds state before => ?_⟩
      obtain ⟨less, rfl⟩ : ∃ less, count = less + 1 := ⟨count - 1, by omega⟩
      obtain ⟨reached, ran, sameMemo⟩ := refuses bound enough state before
      refine ⟨[], reached.reset state.cursor, ?_, nofun, ?_⟩
      · simp only [Run.repeated, ran]
      · exact before.congr (State.reset_cursor _ _) ((State.reset_memo _ _).trans sameMemo)
  | @more piece consumed rest nonempty reads _ inductionHypothesis =>
      obtain ⟨low, reads⟩ := reads
      obtain ⟨lowToo, rounds, later⟩ := inductionHypothesis
      refine ⟨max low lowToo, rounds + 1, fun bound count enough further state before => ?_⟩
      obtain ⟨less, rfl⟩ : ∃ less, count = less + 1 := ⟨count - 1, by omega⟩
      rw [List.append_assoc] at before
      obtain ⟨value, between, ran, isGood, after⟩ := reads bound (by omega) state before
      obtain ⟨values, reached, ranLater, areGood, afterAll⟩ :=
        later bound less (by omega) (by omega) between after
      -- The repetition goes on only because an item is not empty.
      have moved : state.cursor < between.cursor := by
        have here := before.cursor_add
        have there := after.cursor_add
        have positive := List.length_pos_iff.2 nonempty
        rw [List.length_append] at here
        omega
      refine ⟨value :: values, reached, ?_, ?_, afterAll⟩
      · simp only [Run.repeated, ran, if_pos moved, Run.andThen, ranLater]
      · intro other member
        rcases List.mem_cons.1 member with rfl | inRest
        · exact isGood
        · exact areGood other inRest

/-- A repetition reads all items, up to where the next one is refused. -/
theorem many (each : grammar.ReadsEach setup item good consumed rest) :
    grammar.Reads setup (.many item) consumed rest fun values => ∀ value ∈ values, good value := by
  obtain ⟨low, rounds, reads⟩ := repeated each
  refine ⟨max low rounds, fun bound enough state before => ?_⟩
  exact reads bound bound (by omega) (by omega) state before

end Grammar.Reads

/-- Behind some of the tokens ahead, an expression misses something that is forced, which ends
the parse. -/
def Grammar.Misses (grammar : Grammar) (setup : Setup)
    (expression : Expression grammar.Rule grammar.Value Result) (consumed rest : List Token)
    (expected : String) : Prop :=
  ∃ low, ∀ bound, low ≤ bound -> ∀ state, state.Before setup (consumed ++ rest) ->
    let mark := state.cursor + consumed.length
    ∃ reached, expression.run setup (grammar.runRule setup bound) bound state =
      (.fatal (.forced expected (setup.buffer.clamped mark).start mark), reached)

namespace Grammar.Misses

variable {consumed rest : List Token} {expected : String}
  {expression : Expression grammar.Rule grammar.Value Result}

/-- What misses a name has no value to build a node from. -/
theorem build {Target : Type} {type : String} {make : Result -> Except NodeError Target}
    (misses : grammar.Misses setup expression consumed rest expected) :
    grammar.Misses setup (.build type make expression) consumed rest expected := by
  obtain ⟨low, misses⟩ := misses
  refine ⟨low, fun bound enough state before => ?_⟩
  obtain ⟨reached, ran⟩ := misses bound enough state before
  exact ⟨reached, Run.andThen_of_fatal ran⟩

/-- A choice does not try anything else behind an error. -/
theorem choiceFirst {other : Expression grammar.Rule grammar.Value Result}
    (misses : grammar.Misses setup expression consumed rest expected) :
    grammar.Misses setup (.choice expression other) consumed rest expected := by
  obtain ⟨low, misses⟩ := misses
  refine ⟨low, fun bound enough state before => ?_⟩
  obtain ⟨reached, ran⟩ := misses bound enough state before
  exact ⟨reached, Run.orElse_of_fatal ran⟩

/-- What comes second misses something behind what is read first. -/
theorem bothSecond {First : Type} {first : Expression grammar.Rule grammar.Value First}
    {good : First -> Prop} {front : List Token}
    (reads : grammar.Reads setup first front (consumed ++ rest) good)
    (misses : grammar.Misses setup expression consumed rest expected) :
    grammar.Misses setup (.both first expression) (front ++ consumed) rest expected := by
  obtain ⟨low, reads⟩ := reads
  obtain ⟨lowToo, misses⟩ := misses
  refine ⟨max low lowToo, fun bound enough state before => ?_⟩
  rw [List.append_assoc] at before
  obtain ⟨value, between, ran, _, after⟩ := reads bound (by omega) state before
  obtain ⟨reached, ranSecond⟩ := misses bound (by omega) between after
  have here := before.cursor_add
  have there := after.cursor_add
  have sameMark : between.cursor + consumed.length =
      state.cursor + (front ++ consumed).length := by
    simp only [List.length_append] at here there ⊢
    omega
  rw [sameMark] at ranSecond
  exact ⟨reached, (Run.andThen_of_success ran).trans (Run.andThen_of_fatal ranSecond)⟩

/-- What is skipped does not save what misses a name behind it. -/
theorem afterSecond {First : Type} {first : Expression grammar.Rule grammar.Value First}
    {good : First -> Prop} {front : List Token}
    (reads : grammar.Reads setup first front (consumed ++ rest) good)
    (misses : grammar.Misses setup expression consumed rest expected) :
    grammar.Misses setup (.after first expression) (front ++ consumed) rest expected := by
  obtain ⟨low, misses⟩ := bothSecond reads misses
  refine ⟨low, fun bound enough state before => ?_⟩
  obtain ⟨reached, ran⟩ := misses bound enough state before
  exact ⟨reached, Run.andThen_of_fatal ran⟩

/-- A rule that is not remembered misses what its expression does. -/
theorem call (off : setup.packrat = false) {rule : grammar.Rule}
    (steady : grammar.mode rule ≠ .leftRecursive)
    (misses : grammar.Misses setup (grammar.body rule) consumed rest expected) :
    grammar.Misses setup (.call rule) consumed rest expected := by
  obtain ⟨low, misses⟩ := misses
  refine ⟨low + 1, fun bound enough state before => ?_⟩
  obtain ⟨bound, rfl⟩ : ∃ less, bound = less + 1 := ⟨bound - 1, by omega⟩
  obtain ⟨entered, sameCursor, sameMemo, entering⟩ := run_call off steady bound state
  rw [Expression.run_call, entering, ← sameCursor]
  exact misses bound (by omega) entered (before.congr sameCursor sameMemo)

/-- A forced rule is missed where its expression fails in place. -/
theorem forceCall (off : setup.packrat = false) {rule : grammar.Rule}
    (steady : grammar.mode rule ≠ .leftRecursive)
    (refused : ∀ state : State grammar, state.Before setup rest -> ∀ bound,
      (grammar.body rule).run setup (grammar.runRule setup bound) bound state = (.failure, state)) :
    grammar.Misses setup (.force (.call rule) expected) [] rest expected := by
  refine ⟨1, fun bound enough state before => ?_⟩
  obtain ⟨bound, rfl⟩ : ∃ less, bound = less + 1 := ⟨bound - 1, by omega⟩
  obtain ⟨entered, sameCursor, sameMemo, entering⟩ := run_call off steady bound state
  have failed := entering.trans (refused entered (before.congr sameCursor sameMemo) bound)
  refine ⟨entered.log (.forceFailed (setup.buffer.clamped entered.cursor).start expected), ?_⟩
  rw [List.length_nil, Nat.add_zero, ← sameCursor]
  exact Run.force_of_failure failed

section Many

variable {Item : Type} {item : Expression grammar.Rule grammar.Value Item}
  {good : Item -> Prop} {part : List Token -> Prop} {front : List Token}

/-- The items in front are read within one bound, and as many rounds as there are items. -/
theorem repeated (repeats : Repeats part front)
    (reads : ∀ piece behind, part piece ->
      piece ≠ [] ∧ grammar.Reads setup item piece behind good)
    (misses : grammar.Misses setup item consumed rest expected) :
    ∃ low rounds, ∀ bound count, low ≤ bound -> rounds ≤ count ->
      ∀ state : State grammar, state.Before setup (front ++ consumed ++ rest) ->
        let mark := state.cursor + (front ++ consumed).length
        ∃ reached, Run.repeated (item.run setup (grammar.runRule setup bound) bound) count state =
          (.fatal (.forced expected (setup.buffer.clamped mark).start mark), reached) := by
  induction repeats with
  | none =>
      obtain ⟨low, misses⟩ := misses
      refine ⟨low, 1, fun bound count enough further state before => ?_⟩
      obtain ⟨less, rfl⟩ : ∃ less, count = less + 1 := ⟨count - 1, by omega⟩
      obtain ⟨reached, ran⟩ := misses bound enough state before
      exact ⟨reached, by simp only [Run.repeated, ran, List.nil_append]⟩
  | @more piece others head _ inductionHypothesis =>
      obtain ⟨nonempty, low, readsHead⟩ := reads _ (others ++ consumed ++ rest) head
      obtain ⟨lowToo, rounds, later⟩ := inductionHypothesis
      refine ⟨max low lowToo, rounds + 1, fun bound count enough further state before => ?_⟩
      obtain ⟨less, rfl⟩ : ∃ less, count = less + 1 := ⟨count - 1, by omega⟩
      rw [List.append_assoc piece, List.append_assoc piece] at before
      obtain ⟨value, between, ran, _, after⟩ := readsHead bound (by omega) state before
      obtain ⟨reached, ranLater⟩ := later bound less (by omega) (by omega) between after
      have here := before.cursor_add
      have there := after.cursor_add
      have positive := List.length_pos_iff.2 nonempty
      simp only [List.length_append] at here there
      have moved : state.cursor < between.cursor := by omega
      have sameMark : between.cursor + (others ++ consumed).length =
          state.cursor + (piece ++ others ++ consumed).length := by
        simp only [List.length_append]
        omega
      rw [sameMark] at ranLater
      exact ⟨reached, by simp only [Run.repeated, ran, if_pos moved, Run.andThen, ranLater]⟩

/-- A repetition misses what the item behind those that are read does. -/
theorem many (repeats : Repeats part front)
    (reads : ∀ piece behind, part piece ->
      piece ≠ [] ∧ grammar.Reads setup item piece behind good)
    (misses : grammar.Misses setup item consumed rest expected) :
    grammar.Misses setup (.many item) (front ++ consumed) rest expected := by
  obtain ⟨low, rounds, misses⟩ := repeated repeats reads misses
  exact ⟨max low rounds, fun bound enough => misses bound bound (by omega) (by omega)⟩

end Many

end Grammar.Misses

end KiwiFront.Peg
