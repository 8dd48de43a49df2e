import KiwiFront.Parse
import KiwiFront.Proofs.Peg.Invariance

/-!
# Remembered outcomes

Asking for a rule at a mark where an outcome of its type is remembered gives that outcome
without evaluating anything. A value of another type is an error.
-/

namespace KiwiFront.Peg

variable {grammar : Grammar}

namespace Cached

variable {Value : Type}

/-- How an evaluation with this outcome ends. -/
def toOutcome : Cached Value -> Outcome Value
  | .failure => .failure
  | .success value _ => .success value

/-- Where the cursor is after an evaluation from a mark with this outcome. -/
def stopFrom (mark : Nat) : Cached Value -> Nat
  | .failure => mark
  | .success _ stop => stop

/-- An outcome of a rule as stores keep it. -/
def tagged (rule : grammar.Rule) :
    Cached (grammar.Value rule) -> Cached grammar.Stored
  | .failure => .failure
  | .success value stop => .success ⟨grammar.tag rule, value⟩ stop

end Cached

/-- What is remembered with the tag of a rule is replayed for it. -/
theorem Run.replay?_of_tagged {rule : grammar.Rule} {state : State grammar}
    {outcome : Cached (grammar.Value rule)}
    (found : state.memo.find? (grammar.name rule) state.cursor = some (outcome.tagged rule)) :
    replay? rule state = some (outcome.toOutcome,
      (state.log (.memoHit (grammar.name rule) state.cursor)).moveTo
        (outcome.stopFrom state.cursor)) := by
  cases outcome with
  | failure => exact replay?_of_failure found
  | success value stop => exact replay?_of_success found

/-- Whether the outcomes of rules in a mode are remembered. -/
def Setup.Remembers (setup : Setup) (mode : Mode) : Prop :=
  mode = .leftRecursive ∨ (mode = .memoized ∧ setup.packrat = true)

/-- A rule that remembers takes up an entry with its tag, without a look at its body. -/
theorem Run.inMode_of_tagged {setup : Setup} {rule : grammar.Rule}
    {body : Run grammar (grammar.Value rule)} {state : State grammar}
    {outcome : Cached (grammar.Value rule)} (remembers : setup.Remembers (grammar.mode rule))
    (found : state.memo.find? (grammar.name rule) state.cursor = some (outcome.tagged rule)) :
    Run.inMode setup rule body state = (outcome.toOutcome,
      (state.log (.memoHit (grammar.name rule) state.cursor)).moveTo
        (outcome.stopFrom state.cursor)) := by
  have hit := replay?_of_tagged found
  rcases remembers with growing | ⟨memoized, packrat⟩
  · simp [Run.inMode, growing, Run.leftRecursive, hit]
  · simp [Run.inMode, memoized, Run.memoized, packrat, hit]

/-- A success with another tag is an entry of the wrong type. -/
theorem Run.inMode_of_other {setup : Setup} {rule : grammar.Rule} {tag : grammar.Tag}
    {body : Run grammar (grammar.Value rule)} {state : State grammar}
    {value : grammar.Content tag} {stop : Nat} (remembers : setup.Remembers (grammar.mode rule))
    (found : state.memo.find? (grammar.name rule) state.cursor =
      some (.success ⟨tag, value⟩ stop)) (different : tag ≠ grammar.tag rule) :
    Run.inMode setup rule body state =
      (.fatal (.internal (.otherType (grammar.name rule))), state) := by
  have hit := replay?_of_other found different
  rcases remembers with growing | ⟨memoized, packrat⟩
  · simp [Run.inMode, growing, Run.leftRecursive, hit]
  · simp [Run.inMode, memoized, Run.memoized, packrat, hit]

/-- What is remembered under the name of a rule is an outcome that the rule may have, or a
value of another type. -/
theorem Cached.tagged_or_other (rule : grammar.Rule)
    (entry : Cached grammar.Stored) :
    (∃ outcome : Cached (grammar.Value rule), entry = outcome.tagged rule) ∨
      ∃ tag value stop, tag ≠ grammar.tag rule ∧ entry = .success ⟨tag, value⟩ stop := by
  cases entry with
  | failure => exact .inl ⟨.failure, rfl⟩
  | success stored stop =>
      obtain ⟨tag, value⟩ := stored
      by_cases own : tag = grammar.tag rule
      · subst own
        exact .inl ⟨.success value stop, rfl⟩
      · exact .inr ⟨tag, value, stop, own, rfl⟩

namespace Parser

variable (parser : Parser grammar)

@[simp] theorem take_setup (step : Step grammar) : (parser.take step).2.setup = parser.setup := by
  cases step <;> rfl

@[simp] theorem take_bound (step : Step grammar) : (parser.take step).2.bound = parser.bound := by
  cases step <;> rfl

@[simp] theorem afterSteps_bound (steps : List (Step grammar)) :
    (parser.afterSteps steps).bound = parser.bound := by
  induction steps generalizing parser with
  | nil => rfl
  | cons step _ inductionHypothesis => exact (inductionHypothesis _).trans (parser.take_bound step)

end Parser

end KiwiFront.Peg
