import KiwiFront.Proofs.Peg.Progress

/-!
# Evaluations end

Rules are ranked, so that a rule calls only lower ones before it has read a token, and
not much higher ones behind it. The tokens that are left, weighted, and the rank of a rule
then bound how deep calls nest below it. A left-recursive rule may call itself in place,
since it finds an outcome of its own remembered there.
-/

namespace KiwiFront.Peg

variable {grammar : Grammar} {Result : Type}

/-- Whether an expression calls only `near` rules in place, and only `far` ones once it
has read a token. -/
def Expression.Guarded {Rule : Type} {Value : Rule -> Type} (consuming near far : Rule -> Prop)
    {Result : Type} : Expression Rule Value Result -> Prop
  | .token _ | .succeed _ | .fail | .skip _ => True
  | .both first second =>
      Guarded consuming near far first ∧ Guarded consuming far far second ∧
        (first.Consumes consuming ∨ Guarded consuming near far second)
  | .choice first second => Guarded consuming near far first ∧ Guarded consuming near far second
  | .many item => Guarded consuming near far item ∧ Guarded consuming far far item
  | .look _ ahead => Guarded consuming near far ahead
  | .force inner _ => Guarded consuming near far inner
  | .map _ inner => Guarded consuming near far inner
  | .build _ _ inner => Guarded consuming near far inner
  | .call rule => near rule

/-- A run ends from some states. -/
def Run.EndsFrom (holds : State grammar -> Prop) (run : Run grammar Result) : Prop :=
  ∀ state, holds state -> (run state).1 ≠ .unfinished

namespace Run.EndsFrom

variable {holds later : State grammar -> Prop} {run : Run grammar Result}

theorem andThen {Next : Type} {next : Result -> Run grammar Next} (first : run.EndsFrom holds)
    (second : ∀ state value, holds state -> (run state).1 = .success value ->
      (next value (run state).2).1 ≠ .unfinished) : (run.andThen next).EndsFrom holds := by
  intro state held
  have ends := first state held
  have ahead := second state
  unfold Run.andThen
  generalize run state = ended at ends ahead ⊢
  obtain ⟨outcome, reached⟩ := ended
  cases outcome with
  | success value => exact ahead value held rfl
  | unfinished => exact absurd rfl ends
  | failure | fatal => exact nofun

theorem andThen_always {Next : Type} {next : Result -> Run grammar Next}
    (first : run.EndsFrom holds) (second : ∀ value state, (next value state).1 ≠ .unfinished) :
    (run.andThen next).EndsFrom holds :=
  first.andThen fun state value _ _ => second value (run state).2

theorem orElse {other : Run grammar Result} (first : run.EndsFrom holds)
    (second : other.EndsFrom holds)
    (kept : ∀ state, holds state -> holds ((run state).2.reset state.cursor)) :
    (run.orElse other).EndsFrom holds := by
  intro state held
  have ends := first state held
  have back := kept state held
  unfold Run.orElse
  generalize run state = ended at ends back ⊢
  obtain ⟨outcome, reached⟩ := ended
  cases outcome with
  | failure => exact second _ back
  | unfinished => exact absurd rfl ends
  | success | fatal => exact nofun

theorem lookahead (positive : Bool) (ahead : run.EndsFrom holds) :
    (Run.lookahead positive run).EndsFrom holds := by
  intro state held
  have ends := ahead state held
  unfold Run.lookahead
  generalize run state = ended at ends ⊢
  obtain ⟨outcome, reached⟩ := ended
  cases outcome with
  | unfinished => exact absurd rfl ends
  | success | failure | fatal => exact nofun

theorem force (setup : Setup) (expected : String) (inner : run.EndsFrom holds) :
    (Run.force setup expected run).EndsFrom holds := by
  intro state held
  have ends := inner state held
  unfold Run.force
  generalize run state = ended at ends ⊢
  obtain ⟨outcome, reached⟩ := ended
  cases outcome with
  | unfinished => exact absurd rfl ends
  | success | failure | fatal => exact nofun

/-- Repetitions read a token each time, so that no more of them are needed than there are
tokens left. -/
theorem repeated {size : Nat} (item : run.EndsFrom holds)
    (within : ∀ state, holds state -> state.cursor ≤ size)
    (kept : ∀ state value, holds state -> (run state).1 = .success value -> holds (run state).2)
    (bound : Nat) :
    (Run.repeated run bound).EndsFrom fun state => holds state ∧ size - state.cursor < bound := by
  induction bound with
  | zero =>
      rintro state ⟨_, enough⟩
      exact absurd enough (Nat.not_lt_zero _)
  | succ bound inductionHypothesis =>
      rintro state ⟨held, enough⟩
      have ends := item state held
      have later := kept state
      unfold Run.repeated
      generalize run state = ended at ends later ⊢
      obtain ⟨outcome, reached⟩ := ended
      cases outcome with
      | success value =>
          have laterHeld := later value held rfl
          have laterWithin := within reached laterHeld
          simp only
          split
          · rename_i further
            refine inductionHypothesis.andThen_always ?_ reached ⟨laterHeld, by omega⟩
            rintro _ _ ⟨⟩
          · rintro ⟨⟩
      | unfinished => exact absurd rfl ends
      | failure | fatal => rintro ⟨⟩

end Run.EndsFrom

/-- Replaying always ends. -/
theorem Run.replay?_ends {rule : grammar.Rule} {state : State grammar}
    {replayed : Outcome (grammar.Value rule) × State grammar}
    (hit : Run.replay? rule state = some replayed) : replayed.1 ≠ .unfinished := by
  cases replays_of_hit hit with
  | failure | success | other => exact nofun

/-- The state is within the buffer and remembers all that a store remembers. -/
structure State.Ready (size : Nat) (consuming : grammar.Rule -> Prop)
    (base : MemoStore grammar.Stored) (state : State grammar) :
    Prop where
  bounded : state.Bounded size consuming
  extended : state.memo.Extends base

section Expressions

variable {setup : Setup} {size : Nat} {consuming : grammar.Rule -> Prop}
  {callRule : (rule : grammar.Rule) -> Run grammar (grammar.Value rule)}
  {base : MemoStore grammar.Stored}

/-- An expression leaves a state as ready as it was. -/
theorem Expression.run_ready (sized : size = setup.buffer.tokens.size)
    (advances : ∀ rule, (callRule rule).Advances size consuming (consuming rule))
    (keeps : ∀ rule, (callRule rule).Keeps (State.Beyond base 0)) (bound : Nat)
    (expression : Expression grammar.Rule grammar.Value Result) (jumpless : expression.Jumpless)
    {state : State grammar} (ready : state.Ready size consuming base) :
    (expression.run setup callRule bound state).2.Ready size consuming base ∧
      ∀ value, (expression.run setup callRule bound state).1 = .success value ->
        state.cursor ≤ (expression.run setup callRule bound state).2.cursor ∧
          (expression.Consumes consuming ->
            state.cursor < (expression.run setup callRule bound state).2.cursor) := by
  obtain ⟨bounded, forward⟩ :=
    Expression.run_advances sized advances bound expression jumpless state ready.bounded
  have kept := Expression.run_keeps State.Beyond.lasting setup keeps bound expression state
    ⟨ready.extended, Nat.zero_le _⟩
  exact ⟨⟨bounded, kept.1⟩, forward⟩

/-- An expression ends when its calls do, the near ones in place and the far ones behind. -/
theorem Expression.run_ends (sized : size = setup.buffer.tokens.size)
    (advances : ∀ rule, (callRule rule).Advances size consuming (consuming rule))
    (keeps : ∀ rule, (callRule rule).Keeps (State.Beyond base 0)) {bound start : Nat}
    (enough : size - start < bound) {near far : grammar.Rule -> Prop}
    (nearEnds : ∀ rule, near rule -> (callRule rule).EndsFrom fun state =>
      state.Ready size consuming base ∧ state.cursor = start)
    (farEnds : ∀ rule, far rule -> ∀ mark, start < mark ->
      (callRule rule).EndsFrom fun state =>
        state.Ready size consuming base ∧ state.cursor = mark)
    (expression : Expression grammar.Rule grammar.Value Result) (jumpless : expression.Jumpless)
    (guarded : expression.Guarded consuming near far) :
    (expression.run setup callRule bound).EndsFrom fun state =>
      state.Ready size consuming base ∧ state.cursor = start := by
  induction expression generalizing near start with
  | token matcher =>
      intro state _
      unfold Expression.run Run.expect
      split
      · exact nofun
      · split <;> exact nofun
  | succeed | fail | skip => exact fun _ _ => nofun
  | both first second firstHypothesis secondHypothesis =>
      obtain ⟨guardedFirst, guardedBehind, guardedInPlace⟩ := guarded
      have firstEnds := firstHypothesis enough nearEnds farEnds jumpless.1 guardedFirst
      refine firstEnds.andThen fun state left held succeeded => ?_
      obtain ⟨ready, forward⟩ := run_ready sized advances keeps bound first jumpless.1 held.1
      obtain ⟨le, lt⟩ := forward left succeeded
      rw [held.2] at le lt
      have secondEnds : (second.run setup callRule bound).EndsFrom fun state' =>
          state'.Ready size consuming base ∧
            state'.cursor = (first.run setup callRule bound state).2.cursor := by
        -- The second part begins in place, where it may call near rules only, or further on, where
        -- the far ones are near.
        rcases Nat.eq_or_lt_of_le le with inPlace | further
        · have guardedSecond := guardedInPlace.resolve_left fun consumes =>
            Nat.lt_irrefl start (inPlace ▸ lt consumes)
          rw [← inPlace]
          exact secondHypothesis enough nearEnds farEnds jumpless.2 guardedSecond
        · refine secondHypothesis (by omega) (fun rule isFar => farEnds rule isFar _ further)
            (fun rule isFar mark beyond => farEnds rule isFar mark (by omega)) jumpless.2
            guardedBehind
      refine secondEnds.andThen_always ?_ _ ⟨ready, rfl⟩
      exact fun _ _ => nofun
  | choice first second firstHypothesis secondHypothesis =>
      refine (firstHypothesis enough nearEnds farEnds jumpless.1 guarded.1).orElse
        (secondHypothesis enough nearEnds farEnds jumpless.2 guarded.2) fun state held => ?_
      obtain ⟨ready, _⟩ := run_ready sized advances keeps bound first jumpless.1 held.1
      refine ⟨⟨ready.bounded.reset held.1.bounded.cursor, ?_⟩, ?_⟩
      · rw [State.reset_memo]
        exact ready.extended
      · rw [State.reset_cursor]
        exact held.2
  | many item inductionHypothesis =>
      have itemEnds : (item.run setup callRule bound).EndsFrom fun state =>
          state.Ready size consuming base ∧ start ≤ state.cursor := by
        rintro state ⟨ready, le⟩
        -- Items behind the first one begin further on.
        rcases Nat.eq_or_lt_of_le le with inPlace | further
        · exact inductionHypothesis enough nearEnds farEnds jumpless guarded.1 state
            ⟨ready, inPlace.symm⟩
        · exact inductionHypothesis (by omega) (fun rule isFar => farEnds rule isFar _ further)
            (fun rule isFar mark beyond => farEnds rule isFar mark (by omega)) jumpless guarded.2
            state ⟨ready, rfl⟩
      have repeats := itemEnds.repeated (fun _ held => held.1.bounded.cursor)
        (fun state value held succeeded => by
          obtain ⟨ready, forward⟩ := run_ready sized advances keeps bound item jumpless held.1
          exact ⟨ready, Nat.le_trans held.2 (forward value succeeded).1⟩) bound
      rintro state ⟨ready, here⟩
      exact repeats state ⟨⟨ready, by omega⟩, by omega⟩
  | look positive _ inductionHypothesis =>
      refine ((inductionHypothesis enough nearEnds farEnds jumpless guarded).lookahead
        positive).andThen_always fun test state => ?_
      unfold Run.guard
      split <;> exact nofun
  | force _ expected inductionHypothesis =>
      exact (inductionHypothesis enough nearEnds farEnds jumpless guarded).force setup expected
  | map change _ inductionHypothesis =>
      exact (inductionHypothesis enough nearEnds farEnds jumpless guarded).andThen_always
        fun _ _ => nofun
  | build type make _ inductionHypothesis =>
      refine (inductionHypothesis enough nearEnds farEnds jumpless guarded).andThen_always
        fun value state => ?_
      unfold Run.build
      split <;> exact nofun
  | call rule => exact nearEnds rule guarded

end Expressions

/-- Rules with ranks that bound how deep their calls nest: `slope` calls for every token
that is left, and as many more as the rank tells. -/
structure Grammar.Ranked (grammar : Grammar) (consuming : grammar.Rule -> Prop) (slope : Nat)
    (rank : grammar.Rule -> Nat) : Prop extends grammar.Forward consuming where
  positive : ∀ rule, 0 < rank rule
  sloped : 0 < slope
  guarded : ∀ rule, (grammar.body rule).Guarded consuming
    (fun other => rank other < rank rule ∨ (other = rule ∧ grammar.mode rule = .leftRecursive))
    (fun other => rank other < rank rule + slope)

namespace Run.EndsFrom

variable {rule : grammar.Rule} {body : Run grammar (grammar.Value rule)}
  {holds : State grammar -> Prop}

/-- A memoized rule replays or evaluates its body, so it ends when the body does. -/
theorem memoized (setup : Setup)
    (logs : ∀ {state} event, holds state -> holds (state.log event))
    (inner : body.EndsFrom holds) : (Run.memoized setup rule body).EndsFrom holds := by
  intro state held
  unfold Run.memoized
  split
  · split
    · rename_i replayed hit
      exact replay?_ends hit
    · have ends := inner _ (logs (.entered (grammar.name rule) state.cursor)
        (logs (.memoMissed (grammar.name rule) state.cursor false) held))
      simp only
      generalize body _ = ended at ends ⊢
      obtain ⟨outcome, reached⟩ := ended
      cases outcome with
      | unfinished => exact absurd rfl ends
      | success | failure | fatal => exact nofun
  · exact inner _ (logs _ held)

variable {size start : Nat} {consuming : grammar.Rule -> Prop}

/-- A rule that grows finds an outcome of its own at its start each time. -/
theorem grow
    (injective : ∀ rule other, grammar.name rule = grammar.name other -> rule = other)
    (advances : body.Advances size consuming (consuming rule))
    (inner : body.EndsFrom fun state => state.Bounded size consuming ∧ state.cursor = start ∧
      state.memo.find? (grammar.name rule) start ≠ none)
    (within : start ≤ size) (bound : Nat) (accepted : Option (grammar.Value rule × Nat)) :
    (Run.grow rule body start bound accepted).EndsFrom fun state =>
      state.Bounded size consuming ∧ state.memo.find? (grammar.name rule) start ≠ none := by
  refine grow_induction
    (motive := fun _ _ state ended => state.Bounded size consuming ∧
      state.memo.find? (grammar.name rule) start ≠ none -> ended.1 ≠ .unfinished)
    ?_ ?_ ?_ ?_ ?_ bound accepted
  · exact fun _ _ _ => nofun
  · rintro _ _ state value _ succeeded _ later ⟨bounded, _⟩
    obtain ⟨boundedLater, forward⟩ := advances (state.enter rule start)
      ((bounded.moveTo within).log _)
    obtain ⟨le, lt⟩ := forward value succeeded
    refine later ⟨(boundedLater.log _).remember injective rule start ?_, ?_⟩
    · rintro _ _ ⟨⟩
      exact ⟨le, boundedLater.cursor, lt⟩
    · rw [State.remember_memo, MemoStore.find?_insert_self]
      exact nofun
  · exact fun _ _ _ _ => nofun
  · exact fun _ _ _ _ _ _ => nofun
  · rintro _ _ state _ ⟨bounded, seeded⟩
    exact inner _ ⟨(bounded.moveTo within).log _, rfl, seeded⟩

/-- Growth ends when every round does, as each accepted round leads further and the buffer ends. -/
theorem leftRecursive (setup : Setup)
    (injective : ∀ rule other, grammar.name rule = grammar.name other -> rule = other)
    (advances : body.Advances size consuming (consuming rule))
    (inner : body.EndsFrom fun state => state.Bounded size consuming ∧ state.cursor = start ∧
      state.memo.find? (grammar.name rule) start ≠ none) :
    (Run.leftRecursive setup rule body).EndsFrom fun state =>
      state.Bounded size consuming ∧ state.cursor = start := by
  rintro state ⟨bounded, rfl⟩
  refine leftRecursive_cases (fun _ hit => replay?_ends hit) (fun _ _ => nofun) (fun _ _ =>
    grow injective advances inner bounded.cursor _ none _ ⟨?_, ?_⟩)
  · exact (bounded.log _).remember injective rule state.cursor (fun _ _ seed => by cases seed)
  · rw [State.remember_memo, MemoStore.find?_insert_self]
    exact nofun

end Run.EndsFrom

namespace Grammar.Ranked

variable {consuming : grammar.Rule -> Prop} {slope : Nat} {rank : grammar.Rule -> Nat}

/-- A left-recursive rule ends where an outcome of it is remembered. -/
theorem runRule_ends_of_found {setup : Setup} {bound : Nat} (positive : 0 < bound)
    {rule : grammar.Rule} (growing : grammar.mode rule = .leftRecursive) {state : State grammar}
    (found : state.memo.find? (grammar.name rule) state.cursor ≠ none) :
    (grammar.runRule setup bound rule state).1 ≠ .unfinished := by
  cases bound with
  | zero => exact absurd positive (Nat.lt_irrefl 0)
  | succ bound =>
      simp only [Grammar.runRule, Run.inMode, growing, Run.leftRecursive]
      split
      · rename_i replayed hit
        exact Run.replay?_ends hit
      · rename_i miss
        exact absurd (Run.replay?_eq_none_iff.1 miss) found

/-- A rule ends within a bound that the tokens behind the cursor and its rank determine. -/
theorem runRule_ends (ranked : grammar.Ranked consuming slope rank) (setup : Setup)
    {bound mark : Nat} {rule : grammar.Rule}
    (enough : slope * (setup.buffer.tokens.size - mark) + rank rule < bound) :
    (grammar.runRule setup bound rule).EndsFrom fun state =>
      state.Bounded setup.buffer.tokens.size consuming ∧ state.cursor = mark := by
  induction bound generalizing mark rule with
  | zero => exact absurd enough (Nat.not_lt_zero _)
  | succ bound inductionHypothesis =>
      have repeatable : setup.buffer.tokens.size - mark < bound := by
        have weighted := Nat.mul_le_mul_right (setup.buffer.tokens.size - mark) ranked.sloped
        have positive := ranked.positive rule
        omega
      have advances := ranked.toForward.runRule_advances setup bound
      -- The expression ends wherever a left-recursive rule finds itself remembered.
      have inner : ∀ state : State grammar, state.Bounded setup.buffer.tokens.size consuming ->
          state.cursor = mark ->
          (grammar.mode rule = .leftRecursive ->
            state.memo.find? (grammar.name rule) mark ≠ none) ->
          ((grammar.body rule).run setup (grammar.runRule setup bound) bound state).1 ≠
            .unfinished := by
        intro state bounded here seeded
        refine Expression.run_ends rfl advances (grammar.runRule_beyond setup state.memo 0 bound)
          repeatable ?_ ?_ _ (ranked.jumpless rule) (ranked.guarded rule) state
          ⟨⟨bounded, .refl _⟩, here⟩
        · rintro other (lower | ⟨rfl, growing⟩) later ⟨ready, laterHere⟩
          · exact inductionHypothesis (by omega) later ⟨ready.bounded, laterHere⟩
          · refine runRule_ends_of_found (by omega) growing ?_
            rw [laterHere]
            cases found : state.memo.find? (grammar.name other) mark with
            | none => exact absurd found (seeded growing)
            | some entry =>
                rw [ready.extended _ _ _ found]
                rintro ⟨⟩
        · rintro other lower later further state ⟨ready, laterHere⟩
          have within := ready.bounded.cursor
          refine inductionHypothesis ?_ state ⟨ready.bounded, laterHere⟩
          have weighted : slope * (setup.buffer.tokens.size - later) + slope ≤
              slope * (setup.buffer.tokens.size - mark) := by
            rw [← Nat.mul_succ]
            exact Nat.mul_le_mul_left slope (by omega)
          omega
      have bodyAdvances := (Expression.run_advances rfl advances bound _
        (ranked.jumpless rule)).weaken (ranked.consumes rule)
      unfold Grammar.runRule Run.inMode
      cases mode : grammar.mode rule with
      | plain =>
          rintro state ⟨bounded, here⟩
          exact inner state bounded here (by rw [mode]; rintro ⟨⟩)
      | memoized =>
          refine Run.EndsFrom.memoized setup ?_ ?_
          · rintro state event ⟨bounded, here⟩
            exact ⟨bounded.log event, here⟩
          · rintro state ⟨bounded, here⟩
            exact inner state bounded here (by rw [mode]; rintro ⟨⟩)
      | leftRecursive =>
          refine Run.EndsFrom.leftRecursive setup ranked.injective bodyAdvances ?_
          rintro state ⟨bounded, here, seeded⟩
          exact inner state bounded here fun _ => seeded

end Grammar.Ranked

end KiwiFront.Peg
