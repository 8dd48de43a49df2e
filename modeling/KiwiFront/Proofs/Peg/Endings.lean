import KiwiFront.Proofs.Peg.Sessions

/-!
# Where evaluations end

An evaluation from within the buffer leaves the cursor no earlier than it found it, however it
ends: what has failed is undone back to its own start at most, and an error leaves the cursor
where it came up. With progress, restoring and termination, that tells of every evaluation in
a session where the cursor may be afterwards.
-/

namespace KiwiFront.Peg

variable {grammar : Grammar} {Result : Type}

/-- From within a buffer a run does not end before the mark where it began. -/
def Run.GoesForth (size : Nat) (consuming : grammar.Rule -> Prop) (run : Run grammar Result) :
    Prop :=
  ∀ state, state.Bounded size consuming -> state.cursor ≤ (run state).2.cursor

namespace Run.GoesForth

variable {size : Nat} {consuming : grammar.Rule -> Prop} {consumes : Prop}
  {run : Run grammar Result}

/-- What leaves the cursor alone. -/
theorem inPlace (outcome : State grammar -> Outcome Result) :
    Run.GoesForth size consuming fun state => (outcome state, state) :=
  fun _ _ => Nat.le_refl _

/-- Sequencing goes forth: the second step starts no earlier than the first one did. -/
theorem andThen {Next : Type} {next : Result -> Run grammar Next}
    (first : run.GoesForth size consuming) (advances : run.Advances size consuming consumes)
    (second : ∀ value, (next value).GoesForth size consuming) :
    (run.andThen next).GoesForth size consuming := by
  intro state bounded
  have forth := first state bounded
  have within := (advances state bounded).1
  unfold Run.andThen
  generalize run state = ended at forth within ⊢
  obtain ⟨outcome, reached⟩ := ended
  cases outcome with
  | success value => exact Nat.le_trans forth (second value reached within)
  | failure | fatal | unfinished => exact forth

/-- Matching a token reads forward by one, or stays. -/
theorem expect (setup : Setup) (matcher : Matcher) :
    (Run.expect setup matcher : Run grammar Token).GoesForth size consuming := by
  intro state _
  unfold Run.expect
  split
  · exact Nat.le_refl _
  · split
    · exact Nat.le_succ _
    · exact Nat.le_refl _

/-- The second alternative starts where the first one failed, which is no earlier. -/
theorem orElse {other : Run grammar Result} (first : run.GoesForth size consuming)
    (advances : run.Advances size consuming consumes) (second : other.GoesForth size consuming) :
    (run.orElse other).GoesForth size consuming := by
  intro state bounded
  have forth := first state bounded
  have within := (advances state bounded).1
  unfold Run.orElse
  generalize run state = ended at forth within ⊢
  obtain ⟨outcome, reached⟩ := ended
  cases outcome with
  | failure =>
      have again := second _ (within.reset bounded.cursor)
      rwa [State.reset_cursor] at again
  | success | fatal | unfinished => exact forth

/-- Repetition goes forth, by induction on the bound. -/
theorem repeated (item : run.GoesForth size consuming)
    (advances : run.Advances size consuming consumes) (bound : Nat) :
    (Run.repeated run bound).GoesForth size consuming := by
  induction bound with
  | zero => exact inPlace _
  | succ bound inductionHypothesis =>
      intro state bounded
      have forth := item state bounded
      have within := (advances state bounded).1
      have undone : ∀ reached : State grammar,
          state.cursor ≤ (reached.reset state.cursor).cursor :=
        fun reached => Nat.le_of_eq (State.reset_cursor reached _).symm
      unfold Run.repeated
      generalize run state = ended at forth within ⊢
      obtain ⟨outcome, reached⟩ := ended
      cases outcome with
      | success value =>
          simp only
          split
          · have rest := inductionHypothesis.andThen (advances.repeated bound)
              fun values => inPlace fun _ => .success (value :: values)
            exact Nat.le_trans forth (rest reached within)
          · exact undone reached
      | failure => exact undone reached
      | fatal | unfinished => exact forth

/-- A lookahead returns to the place where it started. -/
theorem lookahead (positive : Bool) (ahead : run.GoesForth size consuming) :
    (Run.lookahead positive run).GoesForth size consuming := by
  intro state bounded
  have forth := ahead state bounded
  unfold Run.lookahead
  generalize run state = ended at forth ⊢
  obtain ⟨outcome, reached⟩ := ended
  cases outcome with
  | success | failure => exact Nat.le_refl _
  | fatal | unfinished => exact forth

/-- Forcing moves nothing of its own. -/
theorem force (setup : Setup) (expected : String) (inner : run.GoesForth size consuming) :
    (Run.force setup expected run).GoesForth size consuming := by
  intro state bounded
  have forth := inner state bounded
  unfold Run.force
  generalize run state = ended at forth ⊢
  obtain ⟨outcome, reached⟩ := ended
  cases outcome with
  | success | failure | fatal | unfinished => exact forth

/-- Building moves nothing. -/
theorem build {Target : Type} (type : String) (make : Result -> Except NodeError Target)
    (value : Result) :
    (Run.build type make value : Run grammar Target).GoesForth size consuming := by
  intro state _
  unfold Run.build
  split <;> exact Nat.le_refl _

end Run.GoesForth

/-- A jumpless expression goes forth when its calls do. -/
theorem Expression.run_goesForth {setup : Setup} {size : Nat}
    (sized : size = setup.buffer.tokens.size) {consuming : grammar.Rule -> Prop}
    {callRule : (rule : grammar.Rule) -> Run grammar (grammar.Value rule)}
    (advances : ∀ rule, (callRule rule).Advances size consuming (consuming rule))
    (calls : ∀ rule, (callRule rule).GoesForth size consuming) (bound : Nat)
    (expression : Expression grammar.Rule grammar.Value Result) (jumpless : expression.Jumpless) :
    (expression.run setup callRule bound).GoesForth size consuming := by
  have advancing := fun {Result : Type}
      (expression : Expression grammar.Rule grammar.Value Result) =>
    Expression.run_advances sized advances bound expression
  induction expression with
  | token matcher => exact .expect setup matcher
  | succeed | fail => exact .inPlace _
  | skip distance => exact jumpless.elim
  | both first second firstHypothesis secondHypothesis =>
      refine (firstHypothesis jumpless.1).andThen (advancing first jumpless.1) fun left => ?_
      exact (secondHypothesis jumpless.2).andThen (advancing second jumpless.2) fun _ => .inPlace _
  | choice first _ firstHypothesis secondHypothesis =>
      exact (firstHypothesis jumpless.1).orElse (advancing first jumpless.1)
        (secondHypothesis jumpless.2)
  | many item inductionHypothesis =>
      exact (inductionHypothesis jumpless).repeated (advancing item jumpless) bound
  | look positive ahead inductionHypothesis =>
      exact ((inductionHypothesis jumpless).lookahead positive).andThen
        ((advancing ahead jumpless).lookahead positive) fun _ => .inPlace _
  | force _ expected inductionHypothesis =>
      exact (inductionHypothesis jumpless).force setup expected
  | map _ inner inductionHypothesis =>
      exact (inductionHypothesis jumpless).andThen (advancing inner jumpless) fun _ => .inPlace _
  | build type make inner inductionHypothesis =>
      exact (inductionHypothesis jumpless).andThen (advancing inner jumpless) (.build type make)
  | call rule => exact calls rule

namespace Run.GoesForth

variable {size : Nat} {consuming : grammar.Rule -> Prop} {rule : grammar.Rule}
  {body : Run grammar (grammar.Value rule)}

/-- Nothing is remembered that stops before its mark. -/
theorem replay? {state : State grammar} (bounded : state.Bounded size consuming)
    {replayed : Outcome (grammar.Value rule) × State grammar}
    (hit : Run.replay? rule state = some replayed) : state.cursor ≤ replayed.2.cursor := by
  cases replays_of_hit hit with
  | failure | other => exact Nat.le_refl _
  | success found => exact (bounded.remembered rule _ _ _ found).1

/-- A memoized rule ends where its stored entry does, and entries go forth. -/
theorem memoized (setup : Setup) (inner : body.GoesForth size consuming) :
    (Run.memoized setup rule body).GoesForth size consuming := by
  intro state bounded
  unfold Run.memoized
  split
  · split
    · rename_i replayed hit
      exact replay? bounded hit
    · have forth := inner _ ((bounded.log
        (.memoMissed (grammar.name rule) state.cursor false)).log
          (.entered (grammar.name rule) state.cursor))
      simp only
      generalize body _ = ended at forth ⊢
      obtain ⟨outcome, reached⟩ := ended
      cases outcome with
      | failure => exact Nat.le_refl _
      | success | fatal | unfinished => exact forth
  · exact inner _ (bounded.log _)

variable (injective : ∀ rule other, grammar.name rule = grammar.name other -> rule = other)
include injective

/-- Every round of a growing rule begins at its start, where none of them comes back behind. -/
theorem grow {start : Nat} (startWithin : start ≤ size) (inner : body.GoesForth size consuming)
    (advances : body.Advances size consuming (consuming rule)) (bound : Nat)
    (accepted : Option (grammar.Value rule × Nat))
    (after : ∀ value stop, accepted = some (value, stop) -> start ≤ stop)
    {state : State grammar} (bounded : state.Bounded size consuming)
    (forth : start ≤ state.cursor) :
    start ≤ (Run.grow rule body start bound accepted state).2.cursor := by
  have begins : ∀ {state : State grammar}, state.Bounded size consuming ->
      (state.enter rule start).Bounded size consuming :=
    fun bounded => (bounded.moveTo startWithin).log _
  refine grow_induction
    (motive := fun _ accepted state ended =>
      (∀ value stop, accepted = some (value, stop) -> start ≤ stop) ->
      state.Bounded size consuming -> start ≤ state.cursor -> start ≤ ended.2.cursor)
    ?_ ?_ ?_ ?_ ?_ bound accepted state after bounded forth
  · exact fun _ _ _ _ forth => forth
  · intro _ _ state value _ succeeded _ later _ bounded _
    have forthLater : start ≤ (body (state.enter rule start)).2.cursor := inner _ (begins bounded)
    obtain ⟨within, further⟩ := advances _ (begins bounded)
    refine later ?_ ((within.log _).remember injective rule _ ?_) forthLater
    · rintro _ _ ⟨⟩
      exact forthLater
    · rintro _ _ ⟨⟩
      exact ⟨forthLater, within.cursor, (further value succeeded).2⟩
  · exact fun _ _ _ _ _ _ => Nat.le_refl _
  · exact fun _ value stop _ _ after _ _ => after value stop rfl
  · exact fun _ _ _ _ _ bounded _ => inner _ (begins bounded)

/-- Seed growing ends at the last accepted round, which lies beyond every earlier one. -/
theorem leftRecursive (setup : Setup) (inner : body.GoesForth size consuming)
    (advances : body.Advances size consuming (consuming rule)) :
    (Run.leftRecursive setup rule body).GoesForth size consuming := by
  intro state bounded
  have seeded : (state.seed rule).Bounded size consuming :=
    (bounded.log _).remember injective rule _ (fun _ _ seed => by cases seed)
  exact leftRecursive_cases (motive := fun ended => state.cursor ≤ ended.2.cursor)
    (fun _ hit => replay? bounded hit) (fun _ _ => Nat.le_refl _)
    (fun _ _ => grow injective bounded.cursor inner advances _ none nofun seeded (Nat.le_refl _))

/-- Whichever way a rule is declared, a body that goes forth makes a rule that does. -/
theorem inMode (setup : Setup) (inner : body.GoesForth size consuming)
    (advances : body.Advances size consuming (consuming rule)) :
    (Run.inMode setup rule body).GoesForth size consuming := by
  unfold Run.inMode
  split
  · exact inner
  · exact memoized setup inner
  · exact leftRecursive injective setup inner advances

end Run.GoesForth

/-- No rule of a grammar without jumps comes back behind its start. -/
theorem Grammar.Forward.runRule_goesForth {consuming : grammar.Rule -> Prop}
    (forward : grammar.Forward consuming) (setup : Setup) (bound : Nat) (rule : grammar.Rule) :
    (grammar.runRule setup bound rule).GoesForth setup.buffer.tokens.size consuming := by
  induction bound generalizing rule with
  | zero => exact .inPlace _
  | succ bound inductionHypothesis =>
      have advances := forward.runRule_advances setup bound
      have inner := Expression.run_goesForth rfl advances inductionHypothesis bound _
        (forward.jumpless rule)
      have advancing := Expression.run_advances rfl advances bound _ (forward.jumpless rule)
      exact .inMode forward.injective setup inner (advancing.weaken (forward.consumes rule))

/-- The cursor may be at a mark after an evaluation from `start` with an outcome, in a buffer
of some size: a failure is undone, and all else leads on; a success behind a token, if the
evaluation `consumes`. Every evaluation ends. -/
inductive Outcome.LeavesAt (size start : Nat) (consumes : Prop) : Nat -> Outcome Result -> Prop
  | success {stop : Nat} (value : Result) (forth : start ≤ stop) (within : stop ≤ size)
      (further : consumes -> start < stop) :
      LeavesAt size start consumes stop (.success value)
  | failure : LeavesAt size start consumes start .failure
  | fatal {stop : Nat} (error : ParseError) (forth : start ≤ stop) (within : stop ≤ size) :
      LeavesAt size start consumes stop (.fatal error)

namespace Outcome.LeavesAt

variable {size start stop : Nat} {consumes less : Prop} {outcome : Outcome Result}

/-- The less an evaluation has to consume, the easier it is. -/
theorem weaken (leaves : outcome.LeavesAt size start consumes stop) (fewer : less -> consumes) :
    outcome.LeavesAt size start less stop := by
  cases leaves with
  | success value forth within further =>
      exact .success value forth within fun behind => further (fewer behind)
  | failure => exact .failure
  | fatal error forth within => exact .fatal error forth within

/-- An evaluation that leaves the cursor at a mark has ended. -/
theorem ends (leaves : outcome.LeavesAt size start consumes stop) : outcome ≠ .unfinished := by
  cases leaves <;> nofun

end Outcome.LeavesAt

namespace Parser

/-- Evaluating a rule with a parser leaves the cursor where it may be. -/
def LeavesCursor (parser : Parser grammar) (rule : grammar.Rule) (consumes : Prop) : Prop :=
  let ended := parser.evaluate (.call rule)
  ended.1.LeavesAt parser.setup.buffer.tokens.size parser.mark consumes ended.2.mark

variable {consuming : grammar.Rule -> Prop} {slope : Nat} {rank : grammar.Rule -> Nat}
  {parser : Parser grammar}

@[simp] theorem afterSteps_setup (parser : Parser grammar) (steps : List (Step grammar)) :
    (parser.afterSteps steps).setup = parser.setup := by
  induction steps generalizing parser with
  | nil => rfl
  | cons step _ inductionHypothesis => exact (inductionHypothesis _).trans (parser.take_setup step)

/-- A session that puts the cursor only into the buffer never leaves it. -/
theorem afterSteps_bounded (parser : Parser grammar) (forward : grammar.Forward consuming)
    (bounded : parser.state.Bounded parser.setup.buffer.tokens.size consuming)
    {steps : List (Step grammar)}
    (within : ∀ step ∈ steps, step.Within parser.setup.buffer.tokens.size) :
    (parser.afterSteps steps).state.Bounded parser.setup.buffer.tokens.size consuming := by
  induction steps generalizing parser with
  | nil => exact bounded
  | cons step rest inductionHypothesis =>
      have later := take_bounded forward bounded (within step List.mem_cons_self)
      rw [← parser.take_setup step] at later within ⊢
      exact inductionHypothesis _ later fun other inRest =>
        within other (List.mem_cons_of_mem _ inRest)

/-- Every rule ends, and leaves the cursor where it may. -/
theorem leavesCursor (ranked : grammar.Ranked consuming slope rank)
    (restoring : ∀ rule, grammar.mode rule ≠ .leftRecursive -> (grammar.body rule).Restoring)
    (enough : ∀ rule, slope * parser.setup.buffer.tokens.size + rank rule < parser.bound)
    (bounded : parser.state.Bounded parser.setup.buffer.tokens.size consuming)
    (rule : grammar.Rule) : parser.LeavesCursor rule (consuming rule) := by
  have ends := runRule_ends ranked enough bounded rule parser.state rfl
  have forth := ranked.runRule_goesForth parser.setup parser.bound rule parser.state bounded
  have restored := grammar.runRule_restores restoring parser.setup parser.bound rule parser.state
  obtain ⟨within, further⟩ :=
    ranked.runRule_advances parser.setup parser.bound rule parser.state bounded
  change (grammar.runRule parser.setup parser.bound rule parser.state).1.LeavesAt _
    parser.state.cursor _ (grammar.runRule parser.setup parser.bound rule parser.state).2.cursor
  generalize grammar.runRule parser.setup parser.bound rule parser.state = ended
    at ends forth restored within further ⊢
  obtain ⟨outcome, reached⟩ := ended
  cases outcome with
  | success value => exact .success value forth within.cursor (further value rfl).2
  | failure =>
      rw [show reached.cursor = parser.state.cursor from restored rfl]
      exact .failure
  | fatal error => exact .fatal error forth within.cursor
  | unfinished => exact absurd rfl ends

end Parser

end KiwiFront.Peg
