import KiwiFront.Peg.Procedure
import KiwiFront.Proofs.Peg.Remembering

/-!
# What every procedure keeps

No procedure, whatever it is put together from, breaks what neither moving about nor remembering
a new outcome can break. So none forgets or replaces what was remembered before it was called,
and asking for a remembered outcome gives it, without evaluating anything, whichever rule of the
name and the type asks, and in either way. Expressions are procedures, and so are the rules of a
grammar and the steps of a session.
-/

namespace KiwiFront.Peg

variable {grammar : Grammar} {Result : Type} {setup : Setup}

namespace Run

/-- Goes on with the value of a success and behind a failure. Any other outcome stands. -/
def goOn {Next : Type} (next : Result -> Run grammar Next) (otherwise : Run grammar Next) :
    Outcome Result -> Run grammar Next
  | .success value => next value
  | .failure => otherwise
  | .fatal error => fun state => (.fatal error, state)
  | .unfinished => fun state => (.unfinished, state)

variable {run other : Run grammar Result}

theorem andThen_eq_resume {Next : Type} (next : Result -> Run grammar Next) :
    run.andThen next = run.resume (goOn next fun state => (.failure, state)) := by
  funext state
  unfold andThen resume
  generalize run state = ended
  obtain ⟨outcome, reached⟩ := ended
  cases outcome <;> rfl

theorem orElse_eq_resume :
    run.orElse other = fun state =>
      run.resume (goOn (fun value reached => (.success value, reached))
        fun reached => other (reached.reset state.cursor)) state := by
  funext state
  unfold orElse resume
  generalize run state = ended
  obtain ⟨outcome, reached⟩ := ended
  cases outcome <;> rfl

/-- What a repetition does behind an item that leads from a mark to another one. -/
def repeatedFrom (item : Run grammar Result) (bound mark : Nat) (value : Result) (here : Nat) :
    Run grammar (List Result) :=
  if mark < here then
    (item.repeated bound).andThen fun rest final => (.success (value :: rest), final)
  else fun state => (.success [], state.reset mark)

theorem repeated_eq_resume (bound : Nat) :
    run.repeated (bound + 1) = fun state =>
      run.resume (goOn
        (fun value reached => run.repeatedFrom bound state.cursor value reached.cursor reached)
        fun reached => (.success [], reached.reset state.cursor)) state := by
  funext state
  rw [repeated]
  unfold resume
  generalize run state = ended
  obtain ⟨outcome, reached⟩ := ended
  cases outcome with
  | success value =>
      simp only [goOn, repeatedFrom]
      split <;> rfl
  | failure | fatal | unfinished => rfl

namespace Procedural

/-- What lasts, and can be recorded, is kept by every procedure. -/
theorem keeps {holds : State grammar -> Prop} (lasting : Lasting holds)
    (recordable : ∀ rule, State.Recordable holds rule) {run : Run grammar Result}
    (procedural : run.Procedural setup) : run.Keeps holds := by
  induction procedural with
  | settle | inspect => exact fun _ held => held
  | note event => exact fun _ held => lasting.log event held
  | reset mark => exact fun _ held => lasting.reset mark held
  | consumeIf passes =>
      intro state held
      unfold Run.consumeIf
      split
      · exact held
      · split
        · exact lasting.consume held
        · exact held
  | lookahead positive _ ahead => exact .lookahead lasting positive ahead
  | force expected _ inner => exact .force lasting setup expected inner
  | toEnd _ inner => exact .toEnd lasting setup inner
  | resume _ _ first later => exact fun state held => later _ _ (first state held)
  | memoized rule _ inner => exact memoized_keeps lasting (recordable rule) setup inner
  | leftRecursive rule _ inner => exact leftRecursive_keeps lasting (recordable rule) setup inner

/-- A procedure keeps what is remembered. -/
theorem beyond (procedural : run.Procedural setup) (base : MemoStore grammar.Stored) (low : Nat) :
    run.Keeps (State.Beyond base low) :=
  procedural.keeps State.Beyond.lasting State.Beyond.recordable

/-- A run that goes on is a procedure if it goes on as one. -/
theorem goOn {Next : Type} {next : Result -> Run grammar Next} {otherwise : Run grammar Next}
    (first : run.Procedural setup) (later : ∀ value, (next value).Procedural setup)
    (otherwiseToo : otherwise.Procedural setup) :
    (run.resume (Run.goOn next otherwise)).Procedural setup := by
  refine first.resume fun outcome => ?_
  cases outcome with
  | success value => exact later value
  | failure => exact otherwiseToo
  | fatal error => exact .settle (.fatal error)
  | unfinished => exact .settle .unfinished

/-- Sequencing is a procedure when both of its steps are. -/
theorem andThen {Next : Type} {next : Result -> Run grammar Next}
    (first : run.Procedural setup) (later : ∀ value, (next value).Procedural setup) :
    (run.andThen next).Procedural setup := by
  rw [andThen_eq_resume]
  exact first.goOn later (.settle .failure)

/-- Whatever is done with the mark at which it begins. -/
theorem fromMark {start : Nat -> Run grammar Result}
    (each : ∀ mark, (start mark).Procedural setup) :
    Procedural setup fun state => start state.cursor state :=
  Procedural.andThen (.inspect State.cursor) each

/-- Something that is done from another mark. -/
theorem fromReset (mark : Nat) (procedural : run.Procedural setup) :
    Procedural setup fun state => run (state.reset mark) :=
  Procedural.andThen (.reset mark) fun _ => procedural

/-- Ordered choice is a procedure: it goes back to the mark where it began. -/
theorem orElse (first : run.Procedural setup) (second : other.Procedural setup) :
    (run.orElse other).Procedural setup := by
  rw [orElse_eq_resume]
  exact fromMark fun mark =>
    first.goOn (fun value => .settle (.success value)) (second.fromReset mark)

/-- Repetition is a procedure, by induction on the bound. -/
theorem repeated (item : run.Procedural setup) (bound : Nat) :
    (run.repeated bound).Procedural setup := by
  induction bound with
  | zero => exact .settle .unfinished
  | succ bound inductionHypothesis =>
      have stops (mark : Nat) : Procedural setup
          fun state : State grammar => (.success ([] : List Result), state.reset mark) :=
        fromReset mark (.settle (.success []))
      have goesOn (mark : Nat) (value : Result) (here : Nat) :
          (run.repeatedFrom bound mark value here).Procedural setup := by
        unfold repeatedFrom
        split
        · exact inductionHypothesis.andThen fun rest => .settle (.success (value :: rest))
        · exact stops mark
      rw [repeated_eq_resume]
      exact fromMark fun mark =>
        item.goOn (fun value => fromMark (goesOn mark value)) (stops mark)

end Procedural

end Run

/-- An expression is a procedure if its calls are. -/
theorem Expression.run_procedural
    {callRule : (rule : grammar.Rule) -> Run grammar (grammar.Value rule)}
    (calls : ∀ rule, (callRule rule).Procedural setup) (bound : Nat)
    (expression : Expression grammar.Rule grammar.Value Result) :
    (expression.run setup callRule bound).Procedural setup := by
  induction expression with
  | token matcher => exact .consumeIf fun token => matcher.accepts setup.keywords token
  | succeed value => exact .settle (.success value)
  | fail => exact .settle .failure
  | skip distance =>
      exact Run.Procedural.fromMark fun mark => .reset (mark + distance).toNat
  | both _ _ first second =>
      exact first.andThen fun left => second.andThen fun right => .settle (.success (left, right))
  | choice _ _ first second => exact first.orElse second
  | many _ item => exact item.repeated bound
  | look positive _ ahead =>
      exact Run.Procedural.andThen (.lookahead positive ahead) fun test => .settle _
  | force _ expected inner => exact .force expected inner
  | map change _ inner => exact inner.andThen fun value => .settle (.success (change value))
  | build type make _ inner =>
      refine inner.andThen fun value => ?_
      unfold Run.build
      cases make value with
      | ok node => exact Run.Procedural.andThen (.note _) fun _ => .settle (.success node)
      | error cause =>
          exact Run.Procedural.andThen (.note _) fun _ => .settle (.fatal (.node cause))
  | call rule => exact calls rule

/-- Every rule of a grammar is a procedure. -/
theorem Grammar.runRule_procedural (setup : Setup) (bound : Nat) (rule : grammar.Rule) :
    (grammar.runRule setup bound rule).Procedural setup := by
  induction bound generalizing rule with
  | zero => exact .settle .unfinished
  | succ bound inductionHypothesis =>
      have body := Expression.run_procedural inductionHypothesis bound (grammar.body rule)
      unfold Grammar.runRule Run.inMode
      split
      · exact body
      · exact .memoized rule body
      · exact .leftRecursive rule body

/-- So is every expression over its rules. -/
theorem Grammar.evaluate_procedural (setup : Setup) (bound : Nat)
    (expression : Expression grammar.Rule grammar.Value Result) :
    (grammar.evaluate setup bound expression).Procedural setup :=
  Expression.run_procedural (grammar.runRule_procedural setup bound) bound expression

namespace State

@[simp] theorem afterCalls_append (state : State grammar)
    (first second : List (Call grammar setup)) :
    state.afterCalls (first ++ second) = (state.afterCalls first).afterCalls second := by
  simp [afterCalls]

/-- Calls forget and change no remembered outcome. -/
theorem afterCalls_extends (state : State grammar) (calls : List (Call grammar setup)) :
    (state.afterCalls calls).memo.Extends state.memo := by
  induction calls generalizing state with
  | nil => exact .refl _
  | cons call _ inductionHypothesis =>
      have kept := call.procedural.beyond state.memo 0 state ⟨.refl _, Nat.zero_le _⟩
      exact (inductionHypothesis _).trans kept.1

/-- An outcome that is remembered after some calls is still remembered, unchanged, after all
later calls. Each rule of its name that it could be an outcome of then comes to just that
outcome from its mark, whatever the expression of the rule is, and leaves the cursor where the
outcome ends; nothing happens but that the outcome is used. -/
theorem remembered_for_good (calls later : List (Call grammar setup)) (name : String) (mark : Nat)
    (entry : Cached grammar.Stored)
    (remembered : (State.initial.afterCalls calls).memo.find? name mark = some entry) :
    let state : State grammar := State.initial.afterCalls (calls ++ later)
    state.memo.find? name mark = some entry ∧
      ∀ (rule : grammar.Rule) (outcome : Cached (grammar.Value rule))
        (body : Run grammar (grammar.Value rule)),
        grammar.name rule = name -> entry = outcome.tagged rule ->
        let replayed : Outcome (grammar.Value rule) × State grammar := (outcome.toOutcome,
          { (state.reset mark) with
            cursor := outcome.stopFrom mark
            events := .memoHit name mark :: (state.reset mark).events })
        Run.leftRecursive setup rule body (state.reset mark) = replayed ∧
          (setup.packrat = true -> Run.memoized setup rule body (state.reset mark) = replayed) := by
  intro state
  have kept : state.memo.find? name mark = some entry := by
    rw [show state = _ from afterCalls_append .initial calls later]
    exact afterCalls_extends _ later name mark entry remembered
  refine ⟨kept, ?_⟩
  rintro rule outcome body rfl rfl replayed
  have found : (state.reset mark).memo.find? (grammar.name rule) (state.reset mark).cursor =
      some (outcome.tagged rule) := by
    simpa using kept
  have hit := Run.replay?_of_tagged found
  rw [reset_cursor] at hit
  constructor
  · simp only [Run.leftRecursive, hit]
    rfl
  · intro packrat
    simp only [Run.memoized, packrat, hit, if_true]
    rfl

end State

/-- Two rules that share a name and read values of one type. Only one of them grows. -/
def SharedName.rules : Grammar where
  Rule := Bool
  Tag := Unit
  sameTag := inferInstance
  Content := fun _ => Token
  tag := fun _ => ()
  name := fun _ => "item"
  mode := fun growing => if growing then .leftRecursive else .memoized
  body := fun growing => if growing then .fail else .token .name

/-- What the one has remembered the other one replays, also behind an error. -/
theorem State.remembered_for_good_shared :
    let setup : Setup := { buffer := .ofTokens [.nameAt 0 0 "a"], keywords := [], packrat := true }
    let calls : List (Call SharedName.rules setup) :=
      [⟨_, SharedName.rules.evaluate_procedural setup 2 (.call false)⟩]
    let later : List (Call SharedName.rules setup) :=
      [⟨_, SharedName.rules.evaluate_procedural setup 2 (.force (.token .name) "another item")⟩]
    let entry : Cached SharedName.rules.Stored := .success ⟨(), Token.nameAt 0 0 "a"⟩ 1
    (State.initial.afterCalls calls).memo.find? "item" 0 = some entry ∧
      let state : State SharedName.rules := State.initial.afterCalls (calls ++ later)
      state.memo.find? "item" 0 = some entry ∧
      (Run.leftRecursive setup true (fun state => (.failure, state)) (state.reset 0)).1 =
        .success (Token.nameAt 0 0 "a") := by
  intro setup calls later entry
  have remembered : (State.initial.afterCalls calls).memo.find? "item" 0 = some entry := rfl
  have kept := State.remembered_for_good calls later "item" 0 entry remembered
  have replayed := kept.2 true (.success (Token.nameAt 0 0 "a") 1)
    (fun state => (.failure, state)) rfl rfl
  exact ⟨remembered, kept.1, congrArg Prod.fst replayed.1⟩

/-- The call that a step of a session is. -/
def Step.toCall (setup : Setup) (bound : Nat) : Step grammar -> Call grammar setup
  | .reset mark => ⟨_, .reset mark⟩
  | .evaluate rule => ⟨_, grammar.evaluate_procedural setup bound (.call rule)⟩
  | .parseWith rule => ⟨_, (grammar.evaluate_procedural setup bound (.call rule)).toEnd⟩

/-- So what holds after all calls holds after all sessions. -/
theorem Parser.afterSteps_state (parser : Parser grammar) (steps : List (Step grammar)) :
    (parser.afterSteps steps).state =
      parser.state.afterCalls (steps.map (Step.toCall parser.setup parser.bound)) := by
  induction steps generalizing parser with
  | nil => rfl
  | cons step _ inductionHypothesis =>
      have here : (parser.take step).2.state =
          ((step.toCall parser.setup parser.bound).run parser.state).2 := by
        cases step <;> rfl
      have later := inductionHypothesis (parser.take step).2
      rw [take_setup, take_bound, here] at later
      exact later

end KiwiFront.Peg
