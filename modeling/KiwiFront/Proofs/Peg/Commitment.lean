import KiwiFront.Proofs.Peg.Reading

/-!
# Commitment

Repetitions and forced matches do not fail. An expression that asks for one token and then
for nothing that can fail is committed by that token: it fails where another one stands,
without having got any further, and nowhere else.
-/

namespace KiwiFront.Peg

namespace Expression

variable {Rule : Type} {Value : Rule -> Type}

/-- Whether an expression never fails, as its shape tells. -/
def Unfailing (unfailing : Rule -> Prop) {Result : Type} : Expression Rule Value Result -> Prop
  | .succeed _ | .skip _ | .many _ | .force _ _ => True
  | .token _ | .fail | .look _ _ => False
  | .both first second => Unfailing unfailing first ∧ Unfailing unfailing second
  | .choice _ second => Unfailing unfailing second
  | .map _ inner => Unfailing unfailing inner
  | .build _ _ inner => Unfailing unfailing inner
  | .call rule => unfailing rule

/-- Whether an expression fails in place wherever it is evaluated, as its shape tells. -/
def Failing {Result : Type} : Expression Rule Value Result -> Prop
  | .fail => True
  | _ => False

/-- Whether an expression begins with a token and does not fail behind it. -/
def CommitsBy (matcher : Matcher) (unfailing committed : Rule -> Prop) {Result : Type} :
    Expression Rule Value Result -> Prop
  | .token other => other = matcher
  | .both first second =>
      CommitsBy matcher unfailing committed first ∧ second.Unfailing unfailing
  | .choice first second => CommitsBy matcher unfailing committed first ∧ second.Failing
  | .map _ inner => CommitsBy matcher unfailing committed inner
  | .build _ _ inner => CommitsBy matcher unfailing committed inner
  | .call rule => committed rule
  | .succeed _ | .fail | .skip _ | .many _ | .look _ _ | .force _ _ => False

end Expression

variable {grammar : Grammar} {Result : Type}

/-- The token ahead is there and accepted. -/
def State.Faces (setup : Setup) (matcher : Matcher) (state : State grammar) : Prop :=
  ∃ token ∈ setup.buffer.tokens[state.cursor]?, matcher.accepts setup.keywords token = true

namespace Run

/-- Whether a run does not fail from a state. -/
def GoesOn (run : Run grammar Result) (state : State grammar) : Prop :=
  (run state).1 ≠ .failure

/-- Whether a run fails from a state without having got any further, if it ends there. -/
def Refuses (run : Run grammar Result) (state : State grammar) : Prop :=
  (run state).1 = .unfinished ∨
    ((run state).1 = .failure ∧ (run state).2.furthest = state.furthest)

/-- A run goes on where the token that is asked for stands, and refuses all others. -/
structure CommitsBy (setup : Setup) (matcher : Matcher) (run : Run grammar Result) : Prop where
  goesOn : ∀ state, state.Faces setup matcher -> run.GoesOn state
  refuses : ∀ state, ¬ state.Faces setup matcher -> run.Refuses state

variable {Next : Type} {setup : Setup} {matcher : Matcher} {run : Run grammar Result}
  {next : Result -> Run grammar Next} {state : State grammar}

namespace GoesOn

/-- A step that always succeeds goes on. -/
theorem succeed (value : Result) (state : State grammar) :
    Run.GoesOn (fun state => (.success value, state)) state := by
  unfold GoesOn
  rintro ⟨⟩

/-- Sequencing goes on when neither step fails softly. -/
theorem andThen (first : run.GoesOn state)
    (second : ∀ value reached, (next value).GoesOn reached) :
    (run.andThen next).GoesOn state := by
  unfold GoesOn Run.andThen at *
  generalize run state = ended at first ⊢
  obtain ⟨outcome, reached⟩ := ended
  cases outcome with
  | success value => exact second value reached
  | failure => exact absurd rfl first
  | fatal | unfinished => rintro ⟨⟩

/-- A choice goes on when its last alternative does, wherever the first one leaves off. -/
theorem orElse {other : Run grammar Result} (second : ∀ reached, other.GoesOn reached) :
    (run.orElse other).GoesOn state := by
  unfold GoesOn Run.orElse at *
  generalize run state = ended
  obtain ⟨outcome, reached⟩ := ended
  cases outcome with
  | failure => exact second _
  | success | fatal | unfinished => rintro ⟨⟩

/-- A choice goes on when its first alternative does. -/
theorem orElse_first {other : Run grammar Result} (first : run.GoesOn state) :
    (run.orElse other).GoesOn state := by
  unfold GoesOn Run.orElse at *
  generalize run state = ended at first ⊢
  obtain ⟨outcome, reached⟩ := ended
  cases outcome with
  | failure => exact absurd rfl first
  | success | fatal | unfinished => rintro ⟨⟩

/-- Repetition may deliver the empty list, so it never fails softly. -/
theorem repeated (item : Run grammar Result) (bound : Nat) (state : State grammar) :
    (Run.repeated item bound).GoesOn state := by
  induction bound generalizing state with
  | zero =>
      unfold GoesOn
      rintro ⟨⟩
  | succ bound inductionHypothesis =>
      have later (value : Result) (reached : State grammar) :
          ((Run.repeated item bound).andThen fun rest final =>
            (.success (value :: rest), final)).GoesOn reached :=
        (inductionHypothesis reached).andThen fun rest => succeed (value :: rest)
      unfold GoesOn Run.repeated
      generalize item state = ended
      obtain ⟨outcome, reached⟩ := ended
      cases outcome with
      | success value =>
          simp only
          split
          · exact later value reached
          · rintro ⟨⟩
      | failure | fatal | unfinished => rintro ⟨⟩

/-- A forced step answers with an error where its body fails. -/
theorem force (expected : String) (inner : Run grammar Result) (state : State grammar) :
    (Run.force setup expected inner).GoesOn state := by
  unfold GoesOn Run.force
  generalize inner state = ended
  obtain ⟨outcome, reached⟩ := ended
  cases outcome with
  | failure | success | fatal | unfinished => rintro ⟨⟩

/-- A constructor succeeds or ends in an error. -/
theorem build {Target : Type} (type : String) (make : Result -> Except NodeError Target)
    (value : Result) (state : State grammar) :
    (Run.build type make value : Run grammar Target).GoesOn state := by
  unfold GoesOn Run.build
  split <;> rintro ⟨⟩

end GoesOn

namespace Refuses

/-- A sequence refuses the token when its first step does. -/
theorem andThen (first : run.Refuses state) : (run.andThen next).Refuses state := by
  unfold Refuses Run.andThen at *
  generalize run state = ended at first ⊢
  obtain ⟨outcome, reached⟩ := ended
  rcases first with ⟨rfl⟩ | ⟨rfl, same⟩
  · exact .inl rfl
  · exact .inr ⟨rfl, same⟩

/-- A choice refuses the token when both alternatives do. -/
theorem orElse {other : Run grammar Result} (first : run.Refuses state)
    (second : ∀ reached, other.Refuses reached) : (run.orElse other).Refuses state := by
  rcases ran : run state with ⟨outcome, reached⟩
  unfold Refuses at *
  rw [ran] at first
  rcases first with ⟨rfl⟩ | ⟨rfl, same⟩
  · simp only [Run.orElse, ran, true_or]
  · have later := second (reached.reset state.cursor)
    rw [State.reset_furthest, same] at later
    rw [orElse_of_failure ran]
    exact later

end Refuses

/-- A single matcher commits by itself. -/
theorem CommitsBy.expect (setup : Setup) (matcher : Matcher) :
    (Run.expect setup matcher : Run grammar Token).CommitsBy setup matcher where
  goesOn := by
    rintro state ⟨token, here, accepted⟩
    unfold GoesOn Run.expect
    rw [Option.mem_def.1 here]
    simp only [accepted, if_true]
    rintro ⟨⟩
  refuses := by
    intro state notFaced
    unfold Refuses Run.expect
    split
    · exact .inr ⟨rfl, rfl⟩
    · rename_i token here
      split
      · rename_i accepted
        exact absurd ⟨token, here, accepted⟩ notFaced
      · exact .inr ⟨rfl, rfl⟩

end Run

variable {setup : Setup} {matcher : Matcher}
  {callRule : (rule : grammar.Rule) -> Run grammar (grammar.Value rule)}
  {unfailing committed : grammar.Rule -> Prop}

/-- An unfailing expression never fails softly when the unfailing rules it calls do not. -/
theorem Expression.run_goesOn
    (calls : ∀ rule, unfailing rule -> ∀ state, (callRule rule).GoesOn state) (bound : Nat)
    (expression : Expression grammar.Rule grammar.Value Result)
    (isUnfailing : expression.Unfailing unfailing) (state : State grammar) :
    (expression.run setup callRule bound).GoesOn state := by
  induction expression generalizing state with
  | token | fail | look => exact isUnfailing.elim
  | succeed value => exact .succeed value state
  | skip distance =>
      unfold Run.GoesOn
      rintro ⟨⟩
  | both _ _ firstHypothesis secondHypothesis =>
      exact (firstHypothesis isUnfailing.1 state).andThen fun left reached =>
        (secondHypothesis isUnfailing.2 reached).andThen fun right => .succeed (left, right)
  | choice _ _ _ secondHypothesis => exact .orElse (secondHypothesis isUnfailing)
  | many => exact .repeated _ _ state
  | force => exact .force _ _ state
  | map change _ inductionHypothesis =>
      exact (inductionHypothesis isUnfailing state).andThen fun value => .succeed (change value)
  | build type make _ inductionHypothesis =>
      exact (inductionHypothesis isUnfailing state).andThen fun value => .build type make value
  | call rule => exact calls rule isUnfailing state

/-- An expression that can only fail refuses every token. -/
theorem Expression.Failing.refuses (expression : Expression grammar.Rule grammar.Value Result)
    (failing : expression.Failing) (bound : Nat) (state : State grammar) :
    (expression.run setup callRule bound).Refuses state := by
  cases expression with
  | fail => exact .inr ⟨rfl, rfl⟩
  | _ => exact failing.elim

/-- The shape of an expression is enough: behind the token that commits it every part goes on. -/
theorem Expression.run_commitsBy
    (calls : ∀ rule, unfailing rule -> ∀ state, (callRule rule).GoesOn state)
    (commits : ∀ rule, committed rule -> (callRule rule).CommitsBy setup matcher) (bound : Nat)
    (expression : Expression grammar.Rule grammar.Value Result)
    (shape : expression.CommitsBy matcher unfailing committed) :
    (expression.run setup callRule bound).CommitsBy setup matcher := by
  induction expression with
  | token other =>
      obtain rfl : other = matcher := shape
      exact .expect setup other
  | succeed | fail | skip | many | look | force => exact shape.elim
  | both _ second firstHypothesis _ =>
      have first := firstHypothesis shape.1
      refine ⟨fun state faced => ?_, fun state notFaced => (first.refuses state notFaced).andThen⟩
      exact (first.goesOn state faced).andThen fun left reached =>
        (second.run_goesOn calls bound shape.2 reached).andThen fun right => .succeed (left, right)
  | choice _ second firstHypothesis _ =>
      have first := firstHypothesis shape.1
      refine ⟨fun state faced => (first.goesOn state faced).orElse_first, ?_⟩
      exact fun state notFaced =>
        (first.refuses state notFaced).orElse (shape.2.refuses second bound)
  | map change _ inductionHypothesis =>
      have inner := inductionHypothesis shape
      refine ⟨fun state faced => ?_, fun state notFaced => (inner.refuses state notFaced).andThen⟩
      exact (inner.goesOn state faced).andThen fun value => .succeed (change value)
  | build type make _ inductionHypothesis =>
      have inner := inductionHypothesis shape
      refine ⟨fun state faced => ?_, fun state notFaced => (inner.refuses state notFaced).andThen⟩
      exact (inner.goesOn state faced).andThen fun value => .build type make value
  | call rule => exact commits rule shape

namespace Grammar

/-- A grammar some of whose rules never fail, and others are committed by a token. None of
them grows. -/
structure Committed (grammar : Grammar) (matcher : Matcher)
    (unfailing committed : grammar.Rule -> Prop) : Prop where
  steady : ∀ rule, unfailing rule ∨ committed rule -> grammar.mode rule ≠ .leftRecursive
  goesOn : ∀ rule, unfailing rule -> (grammar.body rule).Unfailing unfailing
  commits : ∀ rule, committed rule -> (grammar.body rule).CommitsBy matcher unfailing committed

namespace Committed

variable {rule : grammar.Rule} (shape : grammar.Committed matcher unfailing committed)
  (off : setup.packrat = false) (bound : Nat)
include shape off

/-- An unfailing rule never fails softly, by induction on the evaluation bound. -/
theorem runRule_goesOn (isUnfailing : unfailing rule) (state : State grammar) :
    (grammar.runRule setup bound rule).GoesOn state := by
  induction bound generalizing rule state with
  | zero =>
      unfold Run.GoesOn
      rintro ⟨⟩
  | succ bound inductionHypothesis =>
      obtain ⟨events, ran⟩ := Run.inMode_of_off off (shape.steady rule (.inl isUnfailing))
        ((grammar.body rule).run setup (grammar.runRule setup bound) bound) state
      unfold Run.GoesOn Grammar.runRule
      rw [ran]
      exact (grammar.body rule).run_goesOn (fun _ => inductionHypothesis) bound
        (shape.goesOn rule isUnfailing) { state with events := events }

/-- A committed rule behaves as its body's shape tells, by induction on the evaluation bound. -/
theorem runRule_commitsBy (isCommitted : committed rule) :
    (grammar.runRule setup bound rule).CommitsBy setup matcher := by
  induction bound generalizing rule with
  | zero =>
      refine ⟨fun state _ => ?_, fun _ _ => .inl rfl⟩
      unfold Run.GoesOn
      rintro ⟨⟩
  | succ bound inductionHypothesis =>
      have entered := Run.inMode_of_off off (shape.steady rule (.inr isCommitted))
        ((grammar.body rule).run setup (grammar.runRule setup bound) bound)
      have inner := (grammar.body rule).run_commitsBy
        (fun _ isUnfailing => shape.runRule_goesOn off bound isUnfailing)
        (fun _ => inductionHypothesis) bound (shape.commits rule isCommitted)
      constructor
      · intro state faced
        obtain ⟨events, ran⟩ := entered state
        unfold Run.GoesOn Grammar.runRule
        rw [ran]
        exact inner.goesOn _ faced
      · intro state notFaced
        obtain ⟨events, ran⟩ := entered state
        unfold Run.Refuses Grammar.runRule
        rw [ran]
        exact inner.refuses { state with events := events } notFaced

end Committed

end Grammar

end KiwiFront.Peg
