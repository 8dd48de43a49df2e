import KiwiFront.Peg.Evaluation

/-!
# The rounds of a growing rule

A left-recursive rule grows in rounds. Each of them begins at the same mark, in the state that
the one before has left. A round that leads further is accepted and remembered, and another one
follows it. A round that does not lead further is the last one: the rule ends as the last
accepted round has, and fails where there is none. An error breaks growing off. These are all
the cases of an induction along the rounds, and a proof about growing says for each of them
what it does to an invariant of its own.
-/

namespace KiwiFront.Peg

variable {grammar : Grammar} {Result : Type}

/-- A run has ended without an error, and where it has succeeded it leads no further than a
mark. -/
def Outcome.NoFurther (mark : Nat) : Outcome Result × State grammar -> Prop
  | (.success _, reached) => reached.cursor ≤ mark
  | (.failure, _) => True
  | (.fatal _, _) | (.unfinished, _) => False

/-- An outcome that is neither a success nor a failure. -/
def Outcome.BreaksOff : Outcome Result -> Prop
  | .success _ | .failure => False
  | .fatal _ | .unfinished => True

theorem Outcome.BreaksOff.ne_success {outcome : Outcome Result} (breaks : outcome.BreaksOff)
    (value : Result) : outcome ≠ .success value := by
  rintro rfl
  exact breaks

theorem Outcome.BreaksOff.ne_failure {outcome : Outcome Result} (breaks : outcome.BreaksOff) :
    outcome ≠ .failure := by
  rintro rfl
  exact breaks

theorem Outcome.NoFurther.cursor_le {mark : Nat} {ended : Outcome Result × State grammar}
    {value : Result} (noFurther : NoFurther mark ended) (succeeded : ended.1 = .success value) :
    ended.2.cursor ≤ mark := by
  obtain ⟨outcome, reached⟩ := ended
  cases succeeded
  exact noFurther

theorem Outcome.NoFurther.not_breaksOff {mark : Nat} {ended : Outcome Result × State grammar}
    (noFurther : NoFurther mark ended) : ¬ ended.1.BreaksOff := by
  obtain ⟨outcome, reached⟩ := ended
  cases outcome with
  | success | failure => exact id
  | fatal | unfinished => exact noFurther.elim

namespace State

variable (state : State grammar) (rule : grammar.Rule)

/-- The state in which growing a rule begins: the rule is remembered to fail. -/
abbrev seed : State grammar :=
  (state.log (.memoMissed (grammar.name rule) state.cursor true)).remember (grammar.name rule)
    state.cursor .failure

/-- The state in which a round of a rule begins. -/
abbrev enter (start : Nat) : State grammar :=
  (state.moveTo start).log (.entered (grammar.name rule) start)

/-- The state behind a round that has led here and is accepted. -/
abbrev accept (start : Nat) (value : grammar.Value rule) : State grammar :=
  (state.log (.grew (grammar.name rule) start state.cursor)).remember (grammar.name rule) start
    (.success ⟨grammar.tag rule, value⟩ state.cursor)

end State

namespace Run

variable {rule : grammar.Rule} {body : Run grammar (grammar.Value rule)}

section Rounds

variable {start : Nat}

/-- Induction along the rounds of a growing rule. -/
theorem grow_induction
    {motive : Nat -> Option (grammar.Value rule × Nat) -> State grammar ->
      Outcome (grammar.Value rule) × State grammar -> Prop}
    (outOfRounds : ∀ accepted state,
      motive 0 accepted state (.fatal (.internal (.keptGrowing (grammar.name rule))), state))
    (further : ∀ bound accepted state value ended,
      (body (state.enter rule start)).1 = .success value ->
      (accepted.map Prod.snd).getD start < (body (state.enter rule start)).2.cursor ->
      motive bound (some (value, (body (state.enter rule start)).2.cursor))
        ((body (state.enter rule start)).2.accept rule start value) ended ->
      motive (bound + 1) accepted state ended)
    (failed : ∀ bound state, Outcome.NoFurther start (body (state.enter rule start)) ->
      motive (bound + 1) none state (.failure, (body (state.enter rule start)).2.moveTo start))
    (settled : ∀ bound value stop state,
      Outcome.NoFurther stop (body (state.enter rule start)) ->
      motive (bound + 1) (some (value, stop)) state
        (.success value, (body (state.enter rule start)).2.moveTo stop))
    (broken : ∀ bound accepted state, (body (state.enter rule start)).1.BreaksOff ->
      motive (bound + 1) accepted state (body (state.enter rule start)))
    (bound : Nat) (accepted : Option (grammar.Value rule × Nat)) (state : State grammar) :
    motive bound accepted state (grow rule body start bound accepted state) := by
  induction bound generalizing accepted state with
  | zero => exact outOfRounds accepted state
  | succ bound inductionHypothesis =>
      have further := further bound accepted state
      have broken := broken bound accepted state
      have last : Outcome.NoFurther ((accepted.map Prod.snd).getD start)
            (body (state.enter rule start)) ->
          motive (bound + 1) accepted state
            (grown start accepted (body (state.enter rule start)).2) := by
        cases accepted with
        | none => exact failed bound state
        | some round => exact settled bound round.1 round.2 state
      unfold grow
      simp only
      generalize body (state.enter rule start) = ended at further broken last ⊢
      obtain ⟨outcome, reached⟩ := ended
      cases outcome with
      | success value =>
          simp only
          split
          · rename_i beyond
            exact further value _ rfl beyond (inductionHypothesis _ _)
          · rename_i notBeyond
            exact last (Nat.le_of_not_lt notBeyond)
      | failure => exact last trivial
      | fatal | unfinished => exact broken trivial

variable {bound : Nat} {accepted : Option (grammar.Value rule × Nat)}
  {state reached : State grammar}
  {value : grammar.Value rule}

/-- A round that leads further is accepted, and growing goes on behind it. -/
theorem grow_of_further (ran : body (state.enter rule start) = (.success value, reached))
    (further : (accepted.map Prod.snd).getD start < reached.cursor) :
    grow rule body start (bound + 1) accepted state =
      grow rule body start bound (some (value, reached.cursor))
        (reached.accept rule start value) := by
  simp only [grow, ran, further, if_true]

/-- A round that leads no further is the last one. -/
theorem grow_of_stuck (ran : body (state.enter rule start) = (.success value, reached))
    (stuck : reached.cursor ≤ (accepted.map Prod.snd).getD start) :
    grow rule body start (bound + 1) accepted state = grown start accepted reached := by
  simp only [grow, ran, if_neg (Nat.not_lt_of_le stuck)]

/-- So is a round that fails. -/
theorem grow_of_failure (ran : body (state.enter rule start) = (.failure, reached)) :
    grow rule body start (bound + 1) accepted state = grown start accepted reached := by
  simp only [grow, ran]

/-- An error ends growing. -/
theorem grow_of_fatal {error : ParseError}
    (ran : body (state.enter rule start) = (.fatal error, reached)) :
    grow rule body start (bound + 1) accepted state = (.fatal error, reached) := by
  simp only [grow, ran]

/-- Without an error, a round that leads no further is the last one. -/
theorem grow_of_noFurther {ended : Outcome (grammar.Value rule) × State grammar}
    (ran : body (state.enter rule start) = ended)
    (noFurther : Outcome.NoFurther ((accepted.map Prod.snd).getD start) ended) :
    grow rule body start (bound + 1) accepted state = grown start accepted ended.2 := by
  obtain ⟨outcome, reached⟩ := ended
  cases outcome with
  | success value => exact grow_of_stuck ran noFurther
  | failure => exact grow_of_failure ran
  | fatal | unfinished => exact noFurther.elim

/-- Whatever breaks a round off breaks growing off. -/
theorem grow_of_breaksOff {ended : Outcome (grammar.Value rule) × State grammar}
    (ran : body (state.enter rule start) = ended) (breaks : ended.1.BreaksOff) :
    grow rule body start (bound + 1) accepted state = ended := by
  obtain ⟨outcome, reached⟩ := ended
  cases outcome with
  | success | failure => exact breaks.elim
  | fatal | unfinished => simp only [grow, ran]

end Rounds

theorem roundLimit?_of_le {size start : Nat} (within : start ≤ size) :
    roundLimit? size start = some (size - start + 2) := if_pos within

theorem roundLimit?_of_lt {size start : Nat} (beyond : size < start) :
    roundLimit? size start = none := if_neg (Nat.not_le_of_lt beyond)

/-- A left-recursive rule is replayed, or it grows, unless it begins behind the buffer. -/
theorem leftRecursive_cases {setup : Setup} {state : State grammar}
    {motive : Outcome (grammar.Value rule) × State grammar -> Prop}
    (replayed : ∀ replayed, replay? rule state = some replayed -> motive replayed)
    (beyond : replay? rule state = none -> setup.buffer.tokens.size < state.cursor ->
      motive (.fatal (.internal (.beganBeyond (grammar.name rule))), state.seed rule))
    (grows : replay? rule state = none -> state.cursor ≤ setup.buffer.tokens.size ->
      motive (grow rule body state.cursor (setup.buffer.tokens.size - state.cursor + 2) none
        (state.seed rule))) :
    motive (leftRecursive setup rule body state) := by
  unfold leftRecursive
  cases hit : replay? rule state with
  | some ended => exact replayed ended hit
  | none =>
      rcases Nat.lt_or_ge setup.buffer.tokens.size state.cursor with after | within
      · simp only [roundLimit?_of_lt after]
        exact beyond hit after
      · simp only [roundLimit?_of_le within]
        exact grows hit within

end Run

end KiwiFront.Peg
