import KiwiFront.Proofs.Peg.Packrat
import KiwiFront.Proofs.Peg.Remembering
import KiwiFront.Proofs.Peg.Termination

/-!
# Sessions of well-behaved grammars

In a session that puts the cursor only into the buffer, every step ends if the rules are
ranked and calls may nest deep enough. If the rules are layered as well, the answers and
marks of all steps are the same whether or not plain outcomes are remembered, beyond steps
that end with an error, too.
-/

namespace KiwiFront.Peg

variable {grammar : Grammar} {Result : Type}

/-- A step that puts the cursor nowhere but into a buffer of some size. -/
def Step.Within (size : Nat) : Step grammar -> Prop
  | .reset mark => mark ≤ size
  | .evaluate _ | .parseWith _ => True

/-- An answer other than that an evaluation did not end. -/
def Answer.Ends : Answer grammar -> Prop
  | .moved => True
  | .ended _ outcome => outcome ≠ .unfinished

theorem Answer.ended_inj {rule : grammar.Rule} {first second : Outcome (grammar.Value rule)}
    (same : Answer.ended rule first = .ended rule second) : first = second := by
  cases same
  rfl

theorem Run.Advances.toEnd {size : Nat} {consuming : grammar.Rule -> Prop} {consumes : Prop}
    {run : Run grammar Result} (setup : Setup) (advances : run.Advances size consuming consumes) :
    (run.toEnd setup).Advances size consuming consumes := by
  intro state bounded
  obtain ⟨within, forward⟩ := advances state bounded
  unfold Run.toEnd
  generalize run state = ended at within forward ⊢
  obtain ⟨outcome, reached⟩ := ended
  cases outcome with
  | success value =>
      simp only
      split
      · exact ⟨within, forward⟩
      · exact ⟨within.log _, nofun⟩
  | failure => exact ⟨within.log _, nofun⟩
  | fatal | unfinished => exact ⟨within, nofun⟩

theorem Run.EndsFrom.toEnd {holds : State grammar -> Prop} {run : Run grammar Result}
    (setup : Setup) (ends : run.EndsFrom holds) : (run.toEnd setup).EndsFrom holds := by
  intro state held
  have ended := ends state held
  unfold Run.toEnd
  generalize run state = last at ended ⊢
  obtain ⟨outcome, reached⟩ := last
  cases outcome with
  | success value =>
      simp only
      split <;> exact nofun
  | unfinished => exact absurd rfl ended
  | failure | fatal => exact nofun

/-- A success at the end marker is the result. -/
theorem Run.toEnd_of_success (setup : Setup) {run : Run grammar Result}
    {state reached : State grammar} {value : Result}
    (ran : run state = (.success value, reached))
    (toLast : setup.buffer.tokens.size - 1 ≤ reached.cursor) :
    run.toEnd setup state = (.success value, reached) := by
  simp only [Run.toEnd, ran, toLast, if_true]

/-- A run that has to use up the tokens succeeds with what it reads only when it does. -/
theorem Run.success_of_toEnd {setup : Setup} {run : Run grammar Result} {state : State grammar}
    {value : Result} (succeeded : (run.toEnd setup state).1 = .success value) :
    (run state).1 = .success value ∧
      setup.buffer.tokens.size - 1 ≤ (run state).2.cursor := by
  unfold Run.toEnd at succeeded
  generalize run state = last at succeeded ⊢
  obtain ⟨outcome, reached⟩ := last
  cases outcome with
  | success read =>
      simp only at succeeded
      split at succeeded
      · exact ⟨succeeded, ‹_›⟩
      · cases succeeded
  | failure | fatal | unfinished => cases succeeded

/-- A run that ends uses up the tokens, or is turned into an error. -/
theorem Run.toEnd_success_or_fatal (setup : Setup) {run : Run grammar Result}
    {state : State grammar} (ends : (run state).1 ≠ .unfinished) :
    (∃ value, (run state).1 = .success value ∧
        setup.buffer.tokens.size - 1 ≤ (run state).2.cursor) ∨
      ∃ error, (run.toEnd setup state).1 = .fatal error := by
  unfold Run.toEnd
  generalize run state = last at ends ⊢
  obtain ⟨outcome, reached⟩ := last
  cases outcome with
  | success value =>
      by_cases toLast : setup.buffer.tokens.size - 1 ≤ reached.cursor
      · exact .inl ⟨value, rfl, toLast⟩
      · refine .inr ⟨.invalidSyntax (setup.buffer.clamped reached.furthest).start, ?_⟩
        simp only [if_neg toLast]
  | failure => exact .inr ⟨_, rfl⟩
  | fatal error => exact .inr ⟨error, rfl⟩
  | unfinished => exact absurd rfl ends

namespace Parser

variable {consuming : grammar.Rule -> Prop} {slope : Nat} {rank : grammar.Rule -> Nat}
  {parser : Parser grammar}

theorem parseWith_call (parser : Parser grammar) (rule : grammar.Rule) :
    (parser.parseWith (.call rule)).1 =
      ((grammar.runRule parser.setup parser.bound rule).toEnd parser.setup parser.state).1 := rfl

/-- No step leaves the buffer, whatever its answer. -/
theorem take_bounded (forward : grammar.Forward consuming)
    (bounded : parser.state.Bounded parser.setup.buffer.tokens.size consuming)
    {step : Step grammar} (within : step.Within parser.setup.buffer.tokens.size) :
    (parser.take step).2.state.Bounded parser.setup.buffer.tokens.size consuming := by
  cases step with
  | reset mark => exact bounded.reset within
  | evaluate rule => exact (forward.runRule_advances parser.setup parser.bound rule _ bounded).1
  | parseWith rule =>
      exact ((forward.runRule_advances parser.setup parser.bound rule).toEnd parser.setup _
        bounded).1

/-- Every rule ends, whatever was remembered before. -/
theorem runRule_ends (ranked : grammar.Ranked consuming slope rank)
    (enough : ∀ rule, slope * parser.setup.buffer.tokens.size + rank rule < parser.bound)
    (bounded : parser.state.Bounded parser.setup.buffer.tokens.size consuming)
    (rule : grammar.Rule) :
    (grammar.runRule parser.setup parser.bound rule).EndsFrom (· = parser.state) := by
  have behind := Nat.mul_le_mul_left slope
    (Nat.sub_le parser.setup.buffer.tokens.size parser.state.cursor)
  have deepEnough := enough rule
  have ends := ranked.runRule_ends parser.setup (show slope * (parser.setup.buffer.tokens.size -
    parser.state.cursor) + rank rule < parser.bound by omega)
  rintro state rfl
  exact ends parser.state ⟨bounded, rfl⟩

/-- Every step ends. -/
theorem take_ends (ranked : grammar.Ranked consuming slope rank)
    (enough : ∀ rule, slope * parser.setup.buffer.tokens.size + rank rule < parser.bound)
    (bounded : parser.state.Bounded parser.setup.buffer.tokens.size consuming)
    (step : Step grammar) : (parser.take step).1.Ends := by
  have ruleEnds := runRule_ends ranked enough bounded
  cases step with
  | reset mark => trivial
  | evaluate rule => exact ruleEnds rule parser.state rfl
  | parseWith rule => exact (ruleEnds rule).toEnd parser.setup parser.state rfl

/-- Every step of a session ends. -/
theorem reports_end (ranked : grammar.Ranked consuming slope rank)
    (enough : ∀ rule, slope * parser.setup.buffer.tokens.size + rank rule < parser.bound)
    (bounded : parser.state.Bounded parser.setup.buffer.tokens.size consuming)
    {steps : List (Step grammar)}
    (within : ∀ step ∈ steps, step.Within parser.setup.buffer.tokens.size) :
    ∀ report ∈ parser.reports steps, report.answer.Ends := by
  induction steps generalizing parser with
  | nil => exact fun _ member => nomatch member
  | cons step rest inductionHypothesis =>
      have here := within step List.mem_cons_self
      have boundedLater := take_bounded ranked.toForward bounded here
      intro report member
      rcases List.mem_cons.1 member with first | later
      · rw [first]
        exact take_ends ranked enough bounded step
      · rw [← parser.take_setup step] at enough boundedLater within
        rw [← parser.take_bound step] at enough
        exact inductionHypothesis enough boundedLater
          (fun other inRest => within other (List.mem_cons_of_mem _ inRest)) report later

end Parser

/-- A parser that forgets plain outcomes and one that remembers them, in paired states. -/
structure Parser.Twin (flat : grammar.Rule -> Prop) (off on : Parser grammar) : Prop where
  setup : off.setup.Forgets on.setup
  bound : on.bound = off.bound
  state : Paired off.setup flat off.state.memo off.state on.state

namespace Parser.Twin

variable {flat : grammar.Rule -> Prop} {off on : Parser grammar}

/-- What two runs in step tell about a step that ends. -/
theorem of_inStep {Answered : Type} (wrap : Outcome Result -> Answered)
    {left right : Outcome Result × State grammar}
    (between : (Lockstep.packrat off.setup flat fun memo => memo).InStep left right)
    (ends : left.1 ≠ .unfinished) :
    wrap right.1 = wrap left.1 ∧ Paired off.setup flat left.2.memo left.2 right.2 := by
  cases between with
  | unfinished => exact absurd rfl ends
  | lost lost => exact lost.elim
  | spared spared => exact spared.elim
  | success related | failure related => exact ⟨rfl, related⟩
  | fatal alike => exact ⟨by rw [alike.1], alike.2⟩

/-- Twins give the same answer to a step that ends, and stay twins. -/
theorem take (layered : grammar.Layered flat) (twin : Twin flat off on) (step : Step grammar)
    (ends : (off.take step).1.Ends) :
    (on.take step).1 = (off.take step).1 ∧ Twin flat (off.take step).2 (on.take step).2 := by
  have follows := fun rule => layered.runRule_follows twin.setup off.bound rule
  obtain ⟨differ, sameBound, paired⟩ := twin
  obtain ⟨onSetup, onBound, onState⟩ := on
  simp only at differ sameBound paired follows
  subst sameBound
  have related : (Lockstep.packrat off.setup flat fun memo => memo).Relates off.state onState :=
    paired
  cases step with
  | reset mark => exact ⟨rfl, differ, rfl, Lockstep.reset related mark⟩
  | evaluate rule =>
      have between := follows rule off.state onState related
      obtain ⟨same, later⟩ := of_inStep (Answer.ended rule) between ends
      exact ⟨same, differ, rfl, later⟩
  | parseWith rule =>
      have between := (follows rule).toEnd differ.buffer Paired.furthest
        off.state onState related
      obtain ⟨same, later⟩ := of_inStep (Answer.ended rule) between ends
      exact ⟨same, differ, rfl, later⟩

/-- Twins come to the same where a rule has to use up the tokens. -/
theorem parseWith (layered : grammar.Layered flat) (twin : Twin flat off on)
    {rule : grammar.Rule}
    (ends : (grammar.runRule off.setup off.bound rule).EndsFrom (· = off.state)) :
    (on.parseWith (.call rule)).1 = (off.parseWith (.call rule)).1 := by
  have endsToo : (off.take (.parseWith rule)).1.Ends := ends.toEnd off.setup off.state rfl
  exact Answer.ended_inj (twin.take layered (.parseWith rule) endsToo).1

/-- Twins tell the same about a session whose steps end. -/
theorem reports (layered : grammar.Layered flat) (twin : Twin flat off on)
    {steps : List (Step grammar)} (ends : ∀ report ∈ off.reports steps, report.answer.Ends) :
    on.reports steps = off.reports steps := by
  induction steps generalizing off on with
  | nil => rfl
  | cons step rest inductionHypothesis =>
      obtain ⟨same, later⟩ := twin.take layered step (ends _ List.mem_cons_self)
      have sameMark : (on.take step).2.mark = (off.take step).2.mark := later.state.cursor
      have sameRest := inductionHypothesis later
        fun report member => ends report (List.mem_cons_of_mem _ member)
      simp only [Parser.reports, same, sameMark, sameRest]

/-- New parsers are twins. -/
theorem ofTokens (tokens : List Token) (keywords : List String) (bound : Nat) :
    Twin flat (.ofTokens grammar tokens keywords false bound)
      (.ofTokens grammar tokens keywords true bound) := by
  refine ⟨⟨rfl, rfl, rfl, rfl⟩, rfl, ⟨rfl, rfl, .refl _, fun _ _ _ => rfl, ?_⟩⟩
  intro rule _ mark entry found
  rw [show (Parser.ofTokens grammar tokens keywords true bound).state.memo = .empty from rfl,
    MemoStore.find?_empty] at found
  cases found

end Parser.Twin

end KiwiFront.Peg
