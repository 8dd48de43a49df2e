import KiwiFront.Proofs.Peg.Invariance

/-!
# Two runs in step

Much of what is to be said of the parser compares two evaluations of one expression:
with a small bound and a large one, with and without remembering, for the first time
and once more. A `Lockstep` says how the states of the two correspond, and when the
comparison is over. Two runs that follow each other from corresponding states end alike
in corresponding states, unless the comparison is over before. Expressions follow each
other as soon as their calls do.
-/

namespace KiwiFront.Peg

variable {grammar : Grammar} {Result : Type}

/-- How two runs are compared. -/
structure Lockstep (grammar : Grammar) where
  /-- When a state of the first run corresponds to one of the second. -/
  Relates : State grammar -> State grammar -> Prop
  /-- When the first run has left for good what is compared. -/
  Lost : State grammar -> Prop
  /-- The errors of the first run that are not compared. -/
  Spared : ParseError -> State grammar -> Prop
  /-- When an error of the first run corresponds to one of the second. -/
  Errors : ParseError -> State grammar -> ParseError -> State grammar -> Prop
  cursor : ∀ {first second}, Relates first second -> second.cursor = first.cursor
  moveTo : ∀ {first second} mark, Relates first second ->
    Relates (first.moveTo mark) (second.moveTo mark)
  log : ∀ {first second} event, Relates first second ->
    Relates (first.log event) (second.log event)
  consume : ∀ {first second}, Relates first second -> Relates first.consume second.consume
  errors : ∀ {first second} error, Relates first second -> Errors error first error second
  lasting : Lasting Lost

namespace Lockstep

/-- Two runs have ended alike, or the comparison is over. -/
inductive InStep (step : Lockstep grammar) {Result : Type} :
    Outcome Result × State grammar -> Outcome Result × State grammar -> Prop where
  | unfinished {first ended} : InStep step (.unfinished, first) ended
  | lost {left right} (lost : step.Lost left.2) : InStep step left right
  | spared {error first ended} (spared : step.Spared error first) :
      InStep step (.fatal error, first) ended
  | success {value first second} (related : step.Relates first second) :
      InStep step (.success value, first) (.success value, second)
  | failure {first second} (related : step.Relates first second) :
      InStep step (.failure, first) (.failure, second)
  | fatal {error first other second} (alike : step.Errors error first other second) :
      InStep step (.fatal error, first) (.fatal other, second)

/-- From corresponding states the second run goes the way of the first. -/
def Follows (step : Lockstep grammar) (first second : Run grammar Result) : Prop :=
  ∀ start other, step.Relates start other -> step.InStep (first start) (second other)

variable {step : Lockstep grammar}

/-- Corresponding states stay so when both are reset to one mark. -/
theorem reset {first second : State grammar} (related : step.Relates first second) (mark : Nat) :
    step.Relates (first.reset mark) (second.reset mark) := by
  unfold State.reset
  rw [step.cursor related]
  split
  · exact step.log _ (step.moveTo mark related)
  · exact step.moveTo mark related

namespace Follows

variable {first second : Run grammar Result}

/-- A value that is at hand is delivered in corresponding states. -/
theorem succeed (value : Result) :
    step.Follows (fun state => (.success value, state)) (fun state => (.success value, state)) :=
  fun _ _ related => .success related

/-- Sequencing follows step by step; once the first run is lost, what comes next keeps it lost. -/
theorem andThen {Next : Type} {next other : Result -> Run grammar Next}
    (before : step.Follows first second) (after : ∀ value, step.Follows (next value) (other value))
    (keeps : ∀ value, (next value).Keeps step.Lost) :
    step.Follows (first.andThen next) (second.andThen other) := by
  intro start twin related
  have between := before start twin related
  unfold Run.andThen
  generalize first start = left at between ⊢
  generalize second twin = right at between ⊢
  cases between with
  | unfinished => exact .unfinished
  | lost lost =>
      obtain ⟨outcome, reached⟩ := left
      cases outcome with
      | success value => exact .lost (keeps value reached lost)
      | failure | fatal | unfinished => exact .lost lost
  | spared spared => exact .spared spared
  | success related => exact after _ _ _ related
  | failure related => exact .failure related
  | fatal alike => exact .fatal alike

/-- Matching depends on the buffer and the keywords alone. -/
theorem expect {setup other : Setup} (sameBuffer : other.buffer = setup.buffer)
    (sameKeywords : other.keywords = setup.keywords) (matcher : Matcher) :
    step.Follows (Run.expect setup matcher) (Run.expect other matcher) := by
  intro start twin related
  unfold Run.expect
  rw [sameBuffer, sameKeywords, step.cursor related]
  split
  · exact .failure related
  · split
    · exact .success (step.consume related)
    · exact .failure related

/-- Ordered choice: both runs come to the second alternative, or neither does. -/
theorem orElse {third fourth : Run grammar Result} (before : step.Follows first second)
    (after : step.Follows third fourth) (keeps : third.Keeps step.Lost) :
    step.Follows (first.orElse third) (second.orElse fourth) := by
  intro start twin related
  have between := before start twin related
  unfold Run.orElse
  rw [step.cursor related]
  generalize first start = left at between ⊢
  generalize second twin = right at between ⊢
  cases between with
  | unfinished => exact .unfinished
  | lost lost =>
      obtain ⟨outcome, reached⟩ := left
      cases outcome with
      | failure => exact .lost (keeps _ (step.lasting.reset start.cursor lost))
      | success | fatal | unfinished => exact .lost lost
  | spared spared => exact .spared spared
  | success related => exact .success related
  | failure related => exact after _ _ (reset related start.cursor)
  | fatal alike => exact .fatal alike

/-- Repetition, by induction on the smaller bound, as a run that is unfinished is followed by any
other. -/
theorem repeated (item : step.Follows first second) (keeps : first.Keeps step.Lost)
    {low high : Nat} (enough : low ≤ high) :
    step.Follows (Run.repeated first low) (Run.repeated second high) := by
  induction low generalizing high with
  | zero => exact fun _ _ _ => .unfinished
  | succ low inductionHypothesis =>
      obtain ⟨high, rfl⟩ : ∃ rest, high = rest + 1 := ⟨high - 1, by omega⟩
      have rest := inductionHypothesis (Nat.le_of_succ_le_succ enough)
      intro start twin related
      have between := item start twin related
      unfold Run.repeated
      rw [step.cursor related]
      generalize first start = left at between ⊢
      generalize second twin = right at between ⊢
      cases between with
      | unfinished => exact .unfinished
      | lost lost =>
          obtain ⟨outcome, reached⟩ := left
          cases outcome with
          | success value =>
              simp only
              split
              · exact .lost (Run.Keeps.andThen (.repeated step.lasting keeps low)
                  (fun _ _ later => later) reached lost)
              · exact .lost (step.lasting.reset start.cursor lost)
          | failure => exact .lost (step.lasting.reset start.cursor lost)
          | fatal | unfinished => exact .lost lost
      | spared spared => exact .spared spared
      | @success value reached other related =>
          simp only [step.cursor related]
          split
          · exact rest.andThen (fun values => succeed (value :: values)) (fun _ _ later => later)
              reached other related
          · exact .success (reset related start.cursor)
      | failure related => exact .success (reset related start.cursor)
      | fatal alike => exact .fatal alike

/-- A lookahead turns corresponding outcomes into corresponding ones and goes back in both runs. -/
theorem lookahead (positive : Bool) (ahead : step.Follows first second) :
    step.Follows (Run.lookahead positive first) (Run.lookahead positive second) := by
  intro start twin related
  have between := ahead start twin related
  unfold Run.lookahead
  rw [step.cursor related]
  generalize first start = left at between ⊢
  generalize second twin = right at between ⊢
  cases between with
  | unfinished => exact .unfinished
  | lost lost =>
      obtain ⟨outcome, reached⟩ := left
      cases outcome with
      | success | failure => exact .lost (step.lasting.moveTo start.cursor lost)
      | fatal | unfinished => exact .lost lost
  | spared spared => exact .spared spared
  | success related => exact .success (step.moveTo start.cursor related)
  | failure related => exact .success (step.moveTo start.cursor related)
  | fatal alike => exact .fatal alike

/-- Forcing reports the token at the cursor, which is the same one in both runs. -/
theorem force {setup other : Setup} (sameBuffer : other.buffer = setup.buffer) (expected : String)
    (inner : step.Follows first second) :
    step.Follows (Run.force setup expected first) (Run.force other expected second) := by
  intro start twin related
  have between := inner start twin related
  unfold Run.force
  generalize first start = left at between ⊢
  generalize second twin = right at between ⊢
  cases between with
  | unfinished => exact .unfinished
  | lost lost =>
      obtain ⟨outcome, reached⟩ := left
      cases outcome with
      | failure => exact .lost (step.lasting.log _ lost)
      | success | fatal | unfinished => exact .lost lost
  | spared spared => exact .spared spared
  | success related => exact .success related
  | failure related =>
      simp only [Run.refuse, sameBuffer, step.cursor related]
      exact .fatal (step.errors _ (step.log _ related))
  | fatal alike => exact .fatal alike

/-- Building depends on the value alone. -/
theorem build {Target : Type} (type : String) (make : Result -> Except NodeError Target)
    (value : Result) :
    step.Follows (Run.build type make value : Run grammar Target) (Run.build type make value) := by
  intro start twin related
  unfold Run.build
  split
  · exact .success (step.log _ related)
  · exact .fatal (step.errors _ (step.log _ related))

/-- The end of the tokens is asked for alike, given that the furthest cursors agree. -/
theorem toEnd {setup other : Setup} (sameBuffer : other.buffer = setup.buffer)
    (furthest : ∀ {left right : State grammar}, step.Relates left right ->
      right.furthest = left.furthest)
    (inner : step.Follows first second) :
    step.Follows (first.toEnd setup) (second.toEnd other) := by
  intro start twin related
  have between := inner start twin related
  unfold Run.toEnd
  rw [sameBuffer]
  generalize first start = left at between ⊢
  generalize second twin = right at between ⊢
  cases between with
  | unfinished => exact .unfinished
  | lost lost =>
      obtain ⟨outcome, reached⟩ := left
      cases outcome with
      | success =>
          simp only
          split
          · exact .lost lost
          · exact .lost (step.lasting.log _ lost)
      | failure => exact .lost (step.lasting.log _ lost)
      | fatal | unfinished => exact .lost lost
  | spared spared => exact .spared spared
  | success related =>
      simp only [step.cursor related, furthest related]
      split
      · exact .success related
      · exact .fatal (step.errors _ (step.log _ related))
  | failure related =>
      simp only [furthest related]
      exact .fatal (step.errors _ (step.log _ related))
  | fatal alike => exact .fatal alike

section Rules

variable {rule : grammar.Rule} {body other : Run grammar (grammar.Value rule)}

/-- Where the same outcome is remembered, it is replayed alike. -/
theorem replay {left right : State grammar} (related : step.Relates left right)
    (same : right.memo.find? (grammar.name rule) right.cursor =
      left.memo.find? (grammar.name rule) left.cursor) :
    (Run.replay? rule left = none ∧ Run.replay? rule right = none) ∨
      ∃ first second, Run.replay? rule left = some first ∧ Run.replay? rule right = some second ∧
        step.InStep first second := by
  cases found : left.memo.find? (grammar.name rule) left.cursor with
  | none => exact .inl ⟨Run.replay?_of_missing found, Run.replay?_of_missing (same.trans found)⟩
  | some outcome =>
      refine .inr ?_
      have hit := same.trans found
      cases outcome with
      | failure =>
          refine ⟨_, _, Run.replay?_of_failure found, Run.replay?_of_failure hit, ?_⟩
          rw [step.cursor related]
          exact .failure (step.log _ related)
      | success stored stop =>
          obtain ⟨tag, value⟩ := stored
          by_cases own : tag = grammar.tag rule
          · subst own
            refine ⟨_, _, Run.replay?_of_success found, Run.replay?_of_success hit, ?_⟩
            rw [step.cursor related]
            exact .success (step.moveTo stop (step.log _ related))
          · exact ⟨_, _, Run.replay?_of_other found own, Run.replay?_of_other hit own,
              .fatal (step.errors _ related)⟩

/-- Rules grow alike where both remember what they grow to. -/
theorem grow {start : Nat}
    (remember : ∀ {left right} outcome, step.Relates left right ->
      step.Relates (left.remember (grammar.name rule) start outcome)
        (right.remember (grammar.name rule) start outcome))
    (rememberLost : ∀ {left : State grammar} outcome, step.Lost left ->
      step.Lost (left.remember (grammar.name rule) start outcome))
    (inner : step.Follows body other) (keeps : body.Keeps step.Lost) (bound : Nat)
    (accepted : Option (grammar.Value rule × Nat)) :
    step.Follows (Run.grow rule body start bound accepted)
      (Run.grow rule other start bound accepted) := by
  have grown : ∀ accepted : Option (grammar.Value rule × Nat),
      step.Follows (Run.grown start accepted) (Run.grown start accepted) := by
    intro accepted left right related
    unfold Run.grown
    split
    · exact .success (step.moveTo _ related)
    · exact .failure (step.moveTo _ related)
  have grownLost : ∀ (accepted : Option (grammar.Value rule × Nat)) {left}, step.Lost left ->
      step.Lost (Run.grown start accepted left).2 := by
    intro accepted left lost
    unfold Run.grown
    split <;> exact step.lasting.moveTo _ lost
  induction bound generalizing accepted with
  | zero => exact fun _ _ related => .fatal (step.errors _ related)
  | succ bound inductionHypothesis =>
      intro left right related
      have between := inner _ _ (step.log (.entered (grammar.name rule) start)
        (step.moveTo start related))
      unfold Run.grow
      simp only
      generalize body _ = first at between ⊢
      generalize other _ = second at between ⊢
      cases between with
      | unfinished => exact .unfinished
      | lost lost =>
          obtain ⟨outcome, reached⟩ := first
          refine .lost ?_
          cases outcome with
          | success value =>
              simp only
              split
              · exact Run.grow_keeps step.lasting keeps rememberLost bound _ _
                  (rememberLost _ (step.lasting.log _ lost))
              · exact grownLost accepted lost
          | failure => exact grownLost accepted lost
          | fatal | unfinished => exact lost
      | spared spared => exact .spared spared
      | success related =>
          simp only [step.cursor related]
          split
          · exact inductionHypothesis _ _ _ (remember _ (step.log _ related))
          · exact grown accepted _ _ related
      | failure related => exact grown accepted _ _ related
      | fatal alike => exact .fatal alike

section Remembering

variable
  (found : ∀ {left right}, step.Relates left right ->
    right.memo.find? (grammar.name rule) right.cursor =
      left.memo.find? (grammar.name rule) left.cursor)
  (remember : ∀ {start twin}, step.Relates start twin ->
    start.memo.find? (grammar.name rule) start.cursor = none ->
    ∀ {left right} outcome, step.Relates left right ->
      step.Relates (left.remember (grammar.name rule) start.cursor outcome)
        (right.remember (grammar.name rule) start.cursor outcome))
  (rememberLost : ∀ {left : State grammar} mark outcome, step.Lost left ->
    step.Lost (left.remember (grammar.name rule) mark outcome))
include found remember rememberLost

/-- Memoized rules follow each other when they find the same outcomes remembered, and
remember the same. -/
theorem memoized {setup twin : Setup} (samePackrat : twin.packrat = setup.packrat)
    (inner : step.Follows body other) :
    step.Follows (Run.memoized setup rule body) (Run.memoized twin rule other) := by
  intro left right related
  unfold Run.memoized
  rw [samePackrat, step.cursor related]
  split
  · rcases replay related (found related) with ⟨miss, missToo⟩ | ⟨first, second, hit, hitToo, same⟩
    · rw [miss, missToo]
      have remember := fun {left right : State grammar} outcome =>
        @remember _ _ related (Run.replay?_eq_none_iff.1 miss) left right outcome
      have between := inner _ _ (step.log (.entered (grammar.name rule) left.cursor)
        (step.log (.memoMissed (grammar.name rule) left.cursor false) related))
      simp only
      generalize body _ = first at between ⊢
      generalize other _ = second at between ⊢
      cases between with
      | unfinished => exact .unfinished
      | lost lost =>
          obtain ⟨outcome, reached⟩ := first
          refine .lost ?_
          cases outcome with
          | success value => exact rememberLost _ _ lost
          | failure => exact rememberLost _ _ (step.lasting.moveTo _ lost)
          | fatal | unfinished => exact lost
      | spared spared => exact .spared spared
      | success related =>
          simp only [step.cursor related]
          exact .success (remember _ related)
      | failure related => exact .failure (remember _ (step.moveTo _ related))
      | fatal alike => exact .fatal alike
    · rw [hit, hitToo]
      exact same
  · exact inner _ _ (step.log _ related)

/-- So do left-recursive rules. -/
theorem leftRecursive {setup twin : Setup} (sameBuffer : twin.buffer = setup.buffer)
    (inner : step.Follows body other) (keeps : body.Keeps step.Lost) :
    step.Follows (Run.leftRecursive setup rule body) (Run.leftRecursive twin rule other) := by
  intro left right related
  unfold Run.leftRecursive
  rw [sameBuffer, step.cursor related]
  rcases replay related (found related) with ⟨miss, missToo⟩ | ⟨first, second, hit, hitToo, same⟩
  · rw [miss, missToo]
    have remember := fun {left right : State grammar} outcome =>
      @remember _ _ related (Run.replay?_eq_none_iff.1 miss) left right outcome
    have seeded := remember .failure
      (step.log (.memoMissed (grammar.name rule) left.cursor true) related)
    simp only
    split
    · exact grow remember (rememberLost _) inner keeps _ none _ _ seeded
    · exact .fatal (step.errors _ seeded)
  · rw [hit, hitToo]
    exact same

/-- Rules that find and remember the same follow each other in every mode. -/
theorem inMode {setup twin : Setup} (sameBuffer : twin.buffer = setup.buffer)
    (samePackrat : twin.packrat = setup.packrat) (inner : step.Follows body other)
    (keeps : body.Keeps step.Lost) :
    step.Follows (Run.inMode setup rule body) (Run.inMode twin rule other) := by
  unfold Run.inMode
  split
  · exact inner
  · exact memoized found remember rememberLost samePackrat inner
  · exact leftRecursive found remember rememberLost sameBuffer inner keeps

end Remembering

end Rules

end Follows

end Lockstep

/-- Whether an expression calls no rules but some. -/
def Expression.Calls {Rule : Type} {Value : Rule -> Type} (allowed : Rule -> Prop)
    {Result : Type} : Expression Rule Value Result -> Prop
  | .token _ | .succeed _ | .fail | .skip _ => True
  | .both first second => Calls allowed first ∧ Calls allowed second
  | .choice first second => Calls allowed first ∧ Calls allowed second
  | .many item => Calls allowed item
  | .look _ ahead => Calls allowed ahead
  | .force inner _ => Calls allowed inner
  | .map _ inner => Calls allowed inner
  | .build _ _ inner => Calls allowed inner
  | .call rule => allowed rule

/-- An expression calls only allowed rules where every rule is allowed. -/
theorem Expression.calls_of_forall {Rule : Type} {Value : Rule -> Type} {allowed : Rule -> Prop}
    (all : ∀ rule, allowed rule) {Result : Type} (expression : Expression Rule Value Result) :
    expression.Calls allowed := by
  induction expression with
  | token | succeed | fail | skip => trivial
  | both _ _ first second | choice _ _ first second => exact ⟨first, second⟩
  | many _ inner | look _ _ inner | force _ _ inner | map _ _ inner | build _ _ _ inner =>
      exact inner
  | call rule => exact all rule

/-- More rules may be allowed than are called. -/
theorem Expression.Calls.mono {Rule : Type} {Value : Rule -> Type} {allowed wider : Rule -> Prop}
    {Result : Type} {expression : Expression Rule Value Result} (calls : expression.Calls allowed)
    (included : ∀ rule, allowed rule -> wider rule) : expression.Calls wider := by
  induction expression with
  | token | succeed | fail | skip => trivial
  | both _ _ first second | choice _ _ first second => exact ⟨first calls.1, second calls.2⟩
  | many _ inner | look _ _ inner | force _ _ inner | map _ _ inner | build _ _ _ inner =>
      exact inner calls
  | call rule => exact included rule calls

/-- Expressions follow each other when their calls do. The second one may repeat things
more often. -/
theorem Expression.run_follows (step : Lockstep grammar) (setup other : Setup)
    (sameBuffer : other.buffer = setup.buffer) (sameKeywords : other.keywords = setup.keywords)
    {callFirst callSecond : (rule : grammar.Rule) -> Run grammar (grammar.Value rule)}
    {allowed : grammar.Rule -> Prop}
    (follows : ∀ rule, allowed rule -> step.Follows (callFirst rule) (callSecond rule))
    (keeps : ∀ rule, (callFirst rule).Keeps step.Lost) {low high : Nat} (enough : low ≤ high)
    (expression : Expression grammar.Rule grammar.Value Result) (calls : expression.Calls allowed) :
    step.Follows (expression.run setup callFirst low) (expression.run other callSecond high) := by
  have kept := fun {Result : Type} (expression : Expression grammar.Rule grammar.Value Result) =>
    Expression.run_keeps step.lasting setup keeps low expression
  induction expression with
  | token matcher => exact .expect sameBuffer sameKeywords matcher
  | succeed value => exact .succeed value
  | fail => exact fun _ _ related => .failure related
  | skip distance =>
      intro start twin related
      simp only [Expression.run, Run.skip, step.cursor related]
      exact .success (Lockstep.reset related _)
  | both _ after first second =>
      exact (first calls.1).andThen
        (fun left => (second calls.2).andThen (fun right => .succeed (left, right))
          fun _ _ lost => lost)
        fun _ => (kept after).andThen fun _ _ lost => lost
  | choice _ after first second => exact (first calls.1).orElse (second calls.2) (kept after)
  | many item inner => exact (inner calls).repeated (kept item) enough
  | look positive _ ahead =>
      refine (Lockstep.Follows.lookahead positive (ahead calls)).andThen ?_ fun _ _ lost => lost
      intro test start twin related
      unfold Run.guard
      split
      · exact .success related
      · exact .failure related
  | force _ expected inner => exact .force sameBuffer expected (inner calls)
  | map change _ inner =>
      exact (inner calls).andThen (fun value => .succeed (change value)) fun _ _ lost => lost
  | build type make _ inner =>
      exact (inner calls).andThen (.build type make) (.build step.lasting type make)
  | call rule => exact follows rule calls

end KiwiFront.Peg
