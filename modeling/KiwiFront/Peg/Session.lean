import KiwiFront.Peg.Parser

/-!
# Sessions

A session takes a parser through steps. Each of them puts the cursor somewhere or
evaluates a rule, and the next one starts from what it leaves behind. What a step can
be told by is its answer and the cursor after it.
-/

namespace KiwiFront.Peg

/-- One step of a session. -/
inductive Step (grammar : Grammar) where
  /-- Puts the cursor at a mark. -/
  | reset (mark : Nat)
  /-- Evaluates a rule at the cursor. -/
  | evaluate (rule : grammar.Rule)
  /-- Evaluates a rule that has to use up the tokens. -/
  | parseWith (rule : grammar.Rule)

/-- What a step comes to. -/
inductive Answer (grammar : Grammar) where
  | moved
  | ended (rule : grammar.Rule) (outcome : Outcome (grammar.Value rule))

/-- An answer and the cursor after it. -/
structure StepReport (grammar : Grammar) where
  answer : Answer grammar
  mark : Nat

namespace Parser

variable {grammar : Grammar}

/-- Takes one step. -/
def take (parser : Parser grammar) : Step grammar -> Answer grammar × Parser grammar
  | .reset mark => (.moved, parser.reset mark)
  | .evaluate rule =>
      let (outcome, reached) := parser.evaluate (.call rule)
      (.ended rule outcome, reached)
  | .parseWith rule =>
      let (outcome, reached) := parser.parseWith (.call rule)
      (.ended rule outcome, reached)

/-- The parser after some steps. -/
def afterSteps (parser : Parser grammar) (steps : List (Step grammar)) : Parser grammar :=
  steps.foldl (fun reached step => (reached.take step).2) parser

/-- What is told about some steps. -/
def reports (parser : Parser grammar) : List (Step grammar) -> List (StepReport grammar)
  | [] => []
  | step :: rest =>
      let (answer, reached) := parser.take step
      ⟨answer, reached.mark⟩ :: reached.reports rest

@[simp] theorem afterSteps_nil (parser : Parser grammar) : parser.afterSteps [] = parser := rfl

@[simp] theorem afterSteps_append (parser : Parser grammar) (first second : List (Step grammar)) :
    parser.afterSteps (first ++ second) = (parser.afterSteps first).afterSteps second := by
  simp [afterSteps]

theorem reports_append (parser : Parser grammar) (first second : List (Step grammar)) :
    parser.reports (first ++ second) =
      parser.reports first ++ (parser.afterSteps first).reports second := by
  induction first generalizing parser with
  | nil => rfl
  | cons step rest inductionHypothesis =>
      simp [reports, afterSteps, inductionHypothesis]

end Parser

end KiwiFront.Peg
