import KiwiFront.Proofs.Peg.Invariance

/-!
# Progress

A grammar without jumps moves the cursor by matching tokens only. Then the cursor stays
within the buffer, no success ends before it began, and a rule that has to match a token
ends further along. Rules that do not grow put the cursor back where they fail, if their
expressions are written so that they do.

All of that rests on what is remembered, since a replayed outcome moves the cursor to
wherever it was told to stop. `State.Bounded` is the invariant that both share.
-/

namespace KiwiFront.Peg

variable {grammar : Grammar} {Result : Type}

namespace Expression

variable {Rule : Type} {Value : Rule -> Type}

/-- Whether an expression moves the cursor by matching tokens only. -/
def Jumpless {Result : Type} : Expression Rule Value Result -> Prop
  | .token _ | .succeed _ | .fail | .call _ => True
  | .skip _ => False
  | .both first second => Jumpless first ∧ Jumpless second
  | .choice first second => Jumpless first ∧ Jumpless second
  | .many item => Jumpless item
  | .look _ ahead => Jumpless ahead
  | .force inner _ => Jumpless inner
  | .map _ inner => Jumpless inner
  | .build _ _ inner => Jumpless inner

/-- Whether an expression cannot succeed without a token, given the rules that cannot. -/
def Consumes (consuming : Rule -> Prop) {Result : Type} : Expression Rule Value Result -> Prop
  | .token _ | .fail => True
  | .succeed _ | .skip _ | .many _ | .look _ _ => False
  | .both first second => Consumes consuming first ∨ Consumes consuming second
  | .choice first second => Consumes consuming first ∧ Consumes consuming second
  | .force inner _ => Consumes consuming inner
  | .map _ inner => Consumes consuming inner
  | .build _ _ inner => Consumes consuming inner
  | .call rule => consuming rule

/-- Whether an expression leaves the cursor in place where it fails, given that rules do. -/
def Restoring {Result : Type} : Expression Rule Value Result -> Prop
  | .token _ | .succeed _ | .fail | .skip _ | .many _ | .look _ _ | .force _ _ | .call _ => True
  | .both _ _ => False
  | .choice _ second => Restoring second
  | .map _ inner => Restoring inner
  | .build _ _ inner => Restoring inner

end Expression

/-- The cursor is within a buffer of some size, and so is everything that is remembered.
Nothing stops before its mark, and what `consuming` rules have read is not empty. -/
structure State.Bounded (size : Nat) (consuming : grammar.Rule -> Prop) (state : State grammar) :
    Prop where
  cursor : state.cursor ≤ size
  remembered : ∀ rule mark stored stop,
    state.memo.find? (grammar.name rule) mark = some (.success stored stop) ->
      mark ≤ stop ∧ stop ≤ size ∧ (consuming rule -> mark < stop)

namespace State.Bounded

variable {size : Nat} {consuming : grammar.Rule -> Prop} {state : State grammar}

/-- The cursor may be anywhere within the buffer. -/
theorem moveTo (bounded : state.Bounded size consuming) {mark : Nat} (within : mark ≤ size) :
    (state.moveTo mark).Bounded size consuming :=
  ⟨within, bounded.remembered⟩

/-- Noting an event moves nothing. -/
theorem log (bounded : state.Bounded size consuming) (event : Event) :
    (state.log event).Bounded size consuming :=
  ⟨bounded.cursor, bounded.remembered⟩

/-- A reset may lead anywhere within the buffer. -/
theorem reset (bounded : state.Bounded size consuming) {mark : Nat} (within : mark ≤ size) :
    (state.reset mark).Bounded size consuming := by
  unfold State.reset
  split
  · exact (bounded.moveTo within).log _
  · exact bounded.moveTo within

/-- Names tell rules apart, so that an outcome of one rule says nothing on another. -/
theorem remember (injective : ∀ rule other, grammar.name rule = grammar.name other -> rule = other)
    (bounded : state.Bounded size consuming) (rule : grammar.Rule) (start : Nat)
    {outcome : Cached grammar.Stored}
    (sound : ∀ stored stop, outcome = .success stored stop ->
      start ≤ stop ∧ stop ≤ size ∧ (consuming rule -> start < stop)) :
    (state.remember (grammar.name rule) start outcome).Bounded size consuming := by
  refine ⟨bounded.cursor, ?_⟩
  intro other mark stored stop found
  rw [State.remember_memo, MemoStore.find?_insert] at found
  split at found
  · rename_i same
    obtain rfl := injective other rule same.1
    rw [same.2]
    cases found
    exact sound stored stop rfl
  · exact bounded.remembered other mark stored stop found

end State.Bounded

/-- From within the buffer a run stays within it, and succeeds no earlier than it began;
if it `consumes`, further along. -/
def Run.Advances (size : Nat) (consuming : grammar.Rule -> Prop) (consumes : Prop)
    (run : Run grammar Result) : Prop :=
  ∀ state, state.Bounded size consuming -> (run state).2.Bounded size consuming ∧
    ∀ value, (run state).1 = .success value ->
      state.cursor ≤ (run state).2.cursor ∧ (consumes -> state.cursor < (run state).2.cursor)

namespace Run.Advances

variable {size : Nat} {consuming : grammar.Rule -> Prop} {consumes alsoConsumes : Prop}
  {run : Run grammar Result}

/-- What consumes something always does so in particular where it is asked to. -/
theorem weaken (advances : run.Advances size consuming consumes)
    (implied : alsoConsumes -> consumes) : run.Advances size consuming alsoConsumes := by
  intro state bounded
  obtain ⟨within, forward⟩ := advances state bounded
  refine ⟨within, fun value succeeded => ?_⟩
  obtain ⟨le, lt⟩ := forward value succeeded
  exact ⟨le, fun also => lt (implied also)⟩

/-- What happens in place. -/
theorem inPlace (value : Result) :
    Run.Advances size consuming False fun state : State grammar => (.success value, state) :=
  fun _ bounded => ⟨bounded, fun _ _ => ⟨Nat.le_refl _, False.elim⟩⟩

/-- A sequence consumes a token if one of its parts does. -/
theorem andThen {Next : Type} {next : Result -> Run grammar Next}
    (first : run.Advances size consuming consumes)
    (second : ∀ value, (next value).Advances size consuming alsoConsumes) :
    (run.andThen next).Advances size consuming (consumes ∨ alsoConsumes) := by
  intro state bounded
  obtain ⟨within, forward⟩ := first state bounded
  unfold Run.andThen
  generalize run state = ended at within forward ⊢
  obtain ⟨outcome, reached⟩ := ended
  cases outcome with
  | success value =>
      obtain ⟨le, lt⟩ := forward value rfl
      obtain ⟨withinLater, forwardLater⟩ := second value reached within
      refine ⟨withinLater, fun last succeeded => ?_⟩
      obtain ⟨leLater, ltLater⟩ := forwardLater last succeeded
      refine ⟨Nat.le_trans le leLater, fun either => ?_⟩
      rcases either with here | later
      · exact Nat.lt_of_lt_of_le (lt here) leLater
      · exact Nat.lt_of_le_of_lt le (ltLater later)
  | failure | fatal | unfinished => exact ⟨within, nofun⟩

/-- An expected token is consumed. -/
theorem expect {setup : Setup} (sized : size = setup.buffer.tokens.size) (matcher : Matcher) :
    (Run.expect setup matcher : Run grammar Token).Advances size consuming True := by
  intro state bounded
  unfold Run.expect
  split
  · exact ⟨bounded, fun _ => nofun⟩
  · rename_i token here
    split
    · have inRange : state.cursor < size := by
        rw [sized]
        exact (Array.getElem?_eq_some_iff.1 here).1
      refine ⟨⟨inRange, bounded.remembered⟩, fun _ _ => ⟨?_, fun _ => ?_⟩⟩
      · exact Nat.le_succ _
      · exact Nat.lt_succ_self _
    · exact ⟨bounded, fun _ => nofun⟩

/-- A choice consumes a token if both alternatives do. -/
theorem orElse {other : Run grammar Result} (first : run.Advances size consuming consumes)
    (second : other.Advances size consuming alsoConsumes) :
    (run.orElse other).Advances size consuming (consumes ∧ alsoConsumes) := by
  intro state bounded
  obtain ⟨within, forward⟩ := first state bounded
  unfold Run.orElse
  generalize run state = ended at within forward ⊢
  obtain ⟨outcome, reached⟩ := ended
  cases outcome with
  | success value =>
      obtain ⟨le, lt⟩ := forward value rfl
      exact ⟨within, fun _ _ => ⟨le, fun both => lt both.1⟩⟩
  | failure =>
      have later := second _ (within.reset bounded.cursor)
      simp only [State.reset_cursor] at later
      exact ⟨later.1, fun last succeeded => ⟨(later.2 last succeeded).1,
        fun both => (later.2 last succeeded).2 both.2⟩⟩
  | fatal | unfinished => exact ⟨within, nofun⟩

/-- A repetition need not consume anything. -/
theorem repeated (item : run.Advances size consuming consumes) (bound : Nat) :
    (Run.repeated run bound).Advances size consuming False := by
  induction bound with
  | zero => exact fun _ bounded => ⟨bounded, by rintro _ ⟨⟩⟩
  | succ bound inductionHypothesis =>
      intro state bounded
      obtain ⟨within, forward⟩ := item state bounded
      unfold Run.repeated
      generalize run state = ended at within forward ⊢
      obtain ⟨outcome, reached⟩ := ended
      have undone : (reached.reset state.cursor).Bounded size consuming ∧
          ∀ value : List Result, Outcome.success ([] : List Result) = .success value ->
            state.cursor ≤ (reached.reset state.cursor).cursor ∧
              (False -> state.cursor < (reached.reset state.cursor).cursor) := by
        refine ⟨within.reset bounded.cursor, fun _ _ => ⟨?_, False.elim⟩⟩
        exact Nat.le_of_eq (State.reset_cursor _ _).symm
      cases outcome with
      | success value =>
          simp only
          split
          · have rest := inductionHypothesis.andThen
              (fun values => inPlace (value :: values)) reached within
            refine ⟨rest.1, fun last succeeded => ⟨?_, False.elim⟩⟩
            exact Nat.le_trans (forward value rfl).1 (rest.2 last succeeded).1
          · exact undone
      | failure => exact undone
      | fatal | unfinished => exact ⟨within, by rintro _ ⟨⟩⟩

/-- A lookahead consumes nothing. -/
theorem lookahead (positive : Bool) (ahead : run.Advances size consuming consumes) :
    (Run.lookahead positive run).Advances size consuming False := by
  intro state bounded
  obtain ⟨within, _⟩ := ahead state bounded
  unfold Run.lookahead
  generalize run state = ended at within ⊢
  obtain ⟨outcome, reached⟩ := ended
  cases outcome with
  | success | failure =>
      exact ⟨within.moveTo bounded.cursor, fun _ _ => ⟨Nat.le_refl _, False.elim⟩⟩
  | fatal | unfinished => exact ⟨within, nofun⟩

/-- A test consumes nothing. -/
theorem guard (test : Bool) :
    (Run.guard test : Run grammar Unit).Advances size consuming False := by
  intro state bounded
  unfold Run.guard
  split
  · exact ⟨bounded, fun _ _ => ⟨Nat.le_refl _, False.elim⟩⟩
  · exact ⟨bounded, nofun⟩

/-- What is forced consumes as much as if it were not. -/
theorem force (setup : Setup) (expected : String)
    (inner : run.Advances size consuming consumes) :
    (Run.force setup expected run).Advances size consuming consumes := by
  intro state bounded
  obtain ⟨within, forward⟩ := inner state bounded
  unfold Run.force
  generalize run state = ended at within forward ⊢
  obtain ⟨outcome, reached⟩ := ended
  cases outcome with
  | success value => exact ⟨within, forward⟩
  | failure => exact ⟨within.log _, nofun⟩
  | fatal | unfinished => exact ⟨within, nofun⟩

/-- Building a node consumes nothing. -/
theorem build {Target : Type} (type : String) (make : Result -> Except NodeError Target)
    (value : Result) :
    (Run.build type make value : Run grammar Target).Advances size consuming False := by
  intro state bounded
  unfold Run.build
  split
  · exact ⟨bounded.log _, fun _ _ => ⟨Nat.le_refl _, False.elim⟩⟩
  · exact ⟨bounded.log _, nofun⟩

end Run.Advances

/-- A jumpless expression advances when its calls do. -/
theorem Expression.run_advances {setup : Setup} {size : Nat}
    (sized : size = setup.buffer.tokens.size) {consuming : grammar.Rule -> Prop}
    {callRule : (rule : grammar.Rule) -> Run grammar (grammar.Value rule)}
    (calls : ∀ rule, (callRule rule).Advances size consuming (consuming rule)) (bound : Nat)
    (expression : Expression grammar.Rule grammar.Value Result) (jumpless : expression.Jumpless) :
    (expression.run setup callRule bound).Advances size consuming
      (expression.Consumes consuming) := by
  induction expression with
  | token matcher => exact .expect sized matcher
  | succeed value => exact .inPlace value
  | fail => exact fun _ bounded => ⟨bounded, nofun⟩
  | skip distance => exact jumpless.elim
  | both _ _ first second =>
      refine ((first jumpless.1).andThen fun left =>
        (second jumpless.2).andThen fun right => .inPlace (left, right)).weaken fun either => ?_
      rcases either with here | later
      · exact .inl here
      · exact .inr (.inl later)
  | choice _ _ first second => exact (first jumpless.1).orElse (second jumpless.2)
  | many _ item => exact (item jumpless).repeated bound
  | look positive _ ahead =>
      exact (((ahead jumpless).lookahead positive).andThen .guard).weaken False.elim
  | force _ expected inner => exact (inner jumpless).force setup expected
  | map change _ inner =>
      exact ((inner jumpless).andThen fun value => .inPlace (change value)).weaken .inl
  | build type make _ inner => exact ((inner jumpless).andThen (.build type make)).weaken .inl
  | call rule => exact calls rule

/-- A grammar without jumps, and its rules that cannot succeed without a token. -/
structure Grammar.Forward (grammar : Grammar) (consuming : grammar.Rule -> Prop) : Prop where
  injective : ∀ rule other, grammar.name rule = grammar.name other -> rule = other
  jumpless : ∀ rule, (grammar.body rule).Jumpless
  consumes : ∀ rule, consuming rule -> (grammar.body rule).Consumes consuming

namespace Run.Advances

variable {size : Nat} {consuming : grammar.Rule -> Prop} {rule : grammar.Rule}
  {body : Run grammar (grammar.Value rule)}

/-- Replaying goes where evaluating could have gone. -/
theorem replay? {state : State grammar} (bounded : state.Bounded size consuming)
    {replayed : Outcome (grammar.Value rule) × State grammar}
    (hit : Run.replay? rule state = some replayed) :
    replayed.2.Bounded size consuming ∧ ∀ value, replayed.1 = .success value ->
      state.cursor ≤ replayed.2.cursor ∧ (consuming rule -> state.cursor < replayed.2.cursor) := by
  cases replays_of_hit hit with
  | failure => exact ⟨bounded.log _, nofun⟩
  | success found =>
      obtain ⟨le, within, lt⟩ := bounded.remembered rule _ _ _ found
      exact ⟨(bounded.log _).moveTo within, fun _ _ => ⟨le, lt⟩⟩
  | other => exact ⟨bounded, nofun⟩

variable (injective : ∀ rule other, grammar.name rule = grammar.name other -> rule = other)
include injective

/-- A replayed outcome ends where it has ended before, so it consumes as much. -/
theorem memoized (setup : Setup) (inner : body.Advances size consuming (consuming rule)) :
    (Run.memoized setup rule body).Advances size consuming (consuming rule) := by
  intro state bounded
  unfold Run.memoized
  split
  · split
    · rename_i replayed hit
      exact replay? bounded hit
    · obtain ⟨within, forward⟩ := inner _ ((bounded.log
        (.memoMissed (grammar.name rule) state.cursor false)).log
          (.entered (grammar.name rule) state.cursor))
      simp only
      generalize body _ = ended at within forward ⊢
      obtain ⟨outcome, reached⟩ := ended
      cases outcome with
      | success value =>
          have forward := forward value rfl
          refine ⟨within.remember injective rule _ ?_, fun _ _ => forward⟩
          intro stored stop same
          cases same
          exact ⟨forward.1, within.cursor, forward.2⟩
      | failure => exact ⟨(within.moveTo bounded.cursor).remember injective rule _ nofun, nofun⟩
      | fatal | unfinished => exact ⟨within, nofun⟩
  · exact inner _ (bounded.log _)

/-- While a rule grows, what it has accepted last begins at its start. -/
theorem grow {start : Nat} (startWithin : start ≤ size)
    (inner : body.Advances size consuming (consuming rule)) (bound : Nat)
    (accepted : Option (grammar.Value rule × Nat))
    (sound : ∀ value stop, accepted = some (value, stop) ->
      start ≤ stop ∧ stop ≤ size ∧ (consuming rule -> start < stop))
    {state : State grammar} (bounded : state.Bounded size consuming) :
    (Run.grow rule body start bound accepted state).2.Bounded size consuming ∧
      ∀ value, (Run.grow rule body start bound accepted state).1 = .success value ->
        start ≤ (Run.grow rule body start bound accepted state).2.cursor ∧
          (consuming rule -> start < (Run.grow rule body start bound accepted state).2.cursor) := by
  have round : ∀ state : State grammar, state.Bounded size consuming -> _ := fun state bounded =>
    inner (state.enter rule start) ((bounded.moveTo startWithin).log _)
  refine grow_induction
    (motive := fun _ accepted state ended =>
      (∀ value stop, accepted = some (value, stop) ->
        start ≤ stop ∧ stop ≤ size ∧ (consuming rule -> start < stop)) ->
      state.Bounded size consuming -> ended.2.Bounded size consuming ∧
        ∀ value, ended.1 = .success value ->
          start ≤ ended.2.cursor ∧ (consuming rule -> start < ended.2.cursor))
    ?_ ?_ ?_ ?_ ?_ bound accepted state sound bounded
  · exact fun _ _ _ bounded => ⟨bounded, nofun⟩
  · intro _ _ state value _ succeeded _ later _ bounded
    obtain ⟨within, forward⟩ := round state bounded
    obtain ⟨le, lt⟩ := forward value succeeded
    refine later ?_ ((within.log _).remember injective rule start ?_)
    · rintro _ _ ⟨⟩
      exact ⟨le, within.cursor, lt⟩
    · rintro _ _ ⟨⟩
      exact ⟨le, within.cursor, lt⟩
  · exact fun _ state _ _ bounded => ⟨(round state bounded).1.moveTo startWithin, nofun⟩
  · intro _ value stop state _ sound bounded
    obtain ⟨le, stopWithin, lt⟩ := sound value stop rfl
    exact ⟨(round state bounded).1.moveTo stopWithin, fun _ _ => ⟨le, lt⟩⟩
  · exact fun _ _ state breaks _ bounded =>
      ⟨(round state bounded).1, fun value succeeded => absurd succeeded (breaks.ne_success value)⟩

/-- The accepted rounds of a left-recursive rule end further and further on. -/
theorem leftRecursive (setup : Setup) (inner : body.Advances size consuming (consuming rule)) :
    (Run.leftRecursive setup rule body).Advances size consuming (consuming rule) := by
  intro state bounded
  have seeded : (state.seed rule).Bounded size consuming :=
    (bounded.log _).remember injective rule _ (fun _ _ seed => by cases seed)
  exact leftRecursive_cases (fun _ hit => replay? bounded hit) (fun _ _ => ⟨seeded, nofun⟩)
    (fun _ _ => grow injective bounded.cursor inner _ none nofun seeded)

/-- A rule in any mode advances as its expression does. -/
theorem inMode (setup : Setup) (inner : body.Advances size consuming (consuming rule)) :
    (Run.inMode setup rule body).Advances size consuming (consuming rule) := by
  unfold Run.inMode
  split
  · exact inner
  · exact memoized injective setup inner
  · exact leftRecursive injective setup inner

end Run.Advances

/-- Every rule of a grammar without jumps advances. -/
theorem Grammar.Forward.runRule_advances {consuming : grammar.Rule -> Prop}
    (forward : grammar.Forward consuming) (setup : Setup) (bound : Nat) (rule : grammar.Rule) :
    (grammar.runRule setup bound rule).Advances setup.buffer.tokens.size consuming
      (consuming rule) := by
  induction bound generalizing rule with
  | zero => exact fun _ bounded => ⟨bounded, nofun⟩
  | succ bound inductionHypothesis =>
      have inner := Expression.run_advances rfl inductionHypothesis bound _ (forward.jumpless rule)
      exact .inMode forward.injective setup (inner.weaken (forward.consumes rule))

/-- A replayed failure leaves the cursor in place. -/
theorem Run.replay?_cursor_of_failure {rule : grammar.Rule} {state : State grammar}
    {replayed : Outcome (grammar.Value rule) × State grammar}
    (hit : Run.replay? rule state = some replayed) (failed : replayed.1 = .failure) :
    replayed.2.cursor = state.cursor := by
  cases replays_of_hit hit with
  | failure | other => rfl
  | success => cases failed

/-- A run that fails leaves the cursor in place. -/
def Run.Restores (run : Run grammar Result) : Prop :=
  ∀ state, (run state).1 = .failure -> (run state).2.cursor = state.cursor

namespace Run.Restores

/-- A sequence fails in place if only its first part may fail. -/
theorem andThen {Next : Type} {run : Run grammar Result} {next : Result -> Run grammar Next}
    (first : run.Restores) (never : ∀ value state, (next value state).1 ≠ .failure) :
    (run.andThen next).Restores := by
  intro state
  have restored := first state
  unfold Run.andThen
  generalize run state = ended at restored ⊢
  obtain ⟨outcome, reached⟩ := ended
  cases outcome with
  | success value => exact fun failed => absurd failed (never value reached)
  | failure => exact fun _ => restored rfl
  | fatal | unfinished => exact nofun

/-- A choice fails where its second alternative does. -/
theorem orElse (run : Run grammar Result) {other : Run grammar Result} (second : other.Restores) :
    (run.orElse other).Restores := by
  intro state
  unfold Run.orElse
  generalize run state = ended
  obtain ⟨outcome, reached⟩ := ended
  cases outcome with
  | failure => exact fun failed => (second _ failed).trans (State.reset_cursor _ _)
  | success | fatal | unfinished => exact nofun

/-- A token that is not accepted is not consumed. -/
theorem expect (setup : Setup) (matcher : Matcher) :
    (Run.expect setup matcher : Run grammar Token).Restores := by
  intro state
  unfold Run.expect
  split
  · exact fun _ => rfl
  · split
    · exact nofun
    · exact fun _ => rfl

/-- A repetition does not fail. -/
theorem repeated (item : Run grammar Result) (bound : Nat) :
    (Run.repeated item bound).Restores := by
  have never : ∀ state, (Run.repeated item bound state).1 ≠ .failure := by
    induction bound with
    | zero => rintro _ ⟨⟩
    | succ bound inductionHypothesis =>
        intro state
        unfold Run.repeated
        generalize item state = ended
        obtain ⟨outcome, reached⟩ := ended
        cases outcome with
        | success value =>
            simp only
            split
            · have rest := inductionHypothesis reached
              unfold Run.andThen
              generalize Run.repeated item bound reached = last at rest ⊢
              obtain ⟨outcome, final⟩ := last
              cases outcome with
              | failure => exact absurd rfl rest
              | success | fatal | unfinished => rintro ⟨⟩
            · rintro ⟨⟩
        | failure | fatal | unfinished => rintro ⟨⟩
  exact fun state failed => absurd failed (never state)

/-- A lookahead fails where it has begun. -/
theorem look (positive : Bool) (ahead : Run grammar Result) :
    ((Run.lookahead positive ahead).andThen Run.guard).Restores := by
  intro state
  unfold Run.andThen Run.lookahead Run.guard
  generalize ahead state = ended
  obtain ⟨outcome, reached⟩ := ended
  cases outcome with
  | success | failure => exact fun _ => rfl
  | fatal | unfinished => exact nofun

/-- What is forced does not fail. -/
theorem force (setup : Setup) (expected : String) (inner : Run grammar Result) :
    (Run.force setup expected inner).Restores := by
  intro state
  unfold Run.force
  generalize inner state = ended
  obtain ⟨outcome, reached⟩ := ended
  cases outcome with
  | success | failure | fatal | unfinished => exact nofun

end Run.Restores

/-- A restoring expression leaves the cursor in place where it fails, if its calls do. -/
theorem Expression.run_restores (setup : Setup)
    {callRule : (rule : grammar.Rule) -> Run grammar (grammar.Value rule)}
    (calls : ∀ rule, (callRule rule).Restores) (bound : Nat)
    (expression : Expression grammar.Rule grammar.Value Result) (restoring : expression.Restoring) :
    (expression.run setup callRule bound).Restores := by
  induction expression with
  | token matcher => exact .expect setup matcher
  | succeed | skip => exact fun _ => nofun
  | fail => exact fun _ _ => rfl
  | both => exact restoring.elim
  | choice first second _ inductionHypothesis => exact .orElse _ (inductionHypothesis restoring)
  | many item => exact .repeated _ bound
  | look positive ahead => exact .look positive _
  | force inner expected => exact .force setup expected _
  | map change _ inner => exact (inner restoring).andThen fun _ _ => nofun
  | build type make _ inner =>
      refine (inner restoring).andThen fun value state => ?_
      unfold Run.build
      split <;> exact nofun
  | call rule => exact calls rule

namespace Run.Restores

variable {rule : grammar.Rule} {body : Run grammar (grammar.Value rule)}

/-- A memoized rule fails in place, when it is replayed as well. -/
theorem memoized (setup : Setup) (inner : body.Restores) :
    (Run.memoized setup rule body).Restores := by
  intro state
  unfold Run.memoized
  split
  · split
    · rename_i replayed hit
      exact fun failed => replay?_cursor_of_failure hit failed
    · simp only
      generalize body _ = ended
      obtain ⟨outcome, reached⟩ := ended
      cases outcome with
      | failure => exact fun _ => rfl
      | success | fatal | unfinished => exact nofun
  · exact inner _

/-- A rule that has not grown at all fails at its start. -/
theorem grow (body : Run grammar (grammar.Value rule)) (start bound : Nat)
    (accepted : Option (grammar.Value rule × Nat)) (state : State grammar)
    (failed : (Run.grow rule body start bound accepted state).1 = .failure) :
    (Run.grow rule body start bound accepted state).2.cursor = start := by
  refine grow_induction
    (motive := fun _ _ _ ended => ended.1 = .failure -> ended.2.cursor = start)
    ?_ ?_ ?_ ?_ ?_ bound accepted state failed
  · exact fun _ _ => nofun
  · exact fun _ _ _ _ _ _ _ later => later
  · exact fun _ _ _ _ => rfl
  · exact fun _ _ _ _ _ => nofun
  · exact fun _ _ _ breaks failed => absurd failed breaks.ne_failure

/-- So does a left-recursive rule, whatever its expression does. -/
theorem leftRecursive (setup : Setup) (body : Run grammar (grammar.Value rule)) :
    (Run.leftRecursive setup rule body).Restores :=
  fun state => leftRecursive_cases (fun _ hit failed => replay?_cursor_of_failure hit failed)
    (fun _ _ => nofun) (fun _ _ => grow body state.cursor _ none _)

end Run.Restores

/-- Left-recursive rules restore the cursor themselves; all others do if their expressions do. -/
theorem Grammar.runRule_restores
    (restoring : ∀ rule, grammar.mode rule ≠ .leftRecursive -> (grammar.body rule).Restoring)
    (setup : Setup) (bound : Nat) (rule : grammar.Rule) :
    (grammar.runRule setup bound rule).Restores := by
  induction bound generalizing rule with
  | zero => exact fun _ => nofun
  | succ bound inductionHypothesis =>
      have inner := fun growing =>
        Expression.run_restores setup inductionHypothesis bound _ (restoring rule growing)
      unfold Grammar.runRule Run.inMode
      cases mode : grammar.mode rule with
      | plain => exact inner (by rw [mode]; nofun)
      | memoized => exact .memoized setup (inner (by rw [mode]; nofun))
      | leftRecursive => exact .leftRecursive setup _

end KiwiFront.Peg
