import KiwiFront.Proofs.Peg.Lockstep
import KiwiFront.Proofs.Peg.Remembering

/-!
# Evaluating once more

A rule that has ended without an error does so again at the same mark, in any state
that remembers what was remembered at its end. It gives the same outcome, and nothing
but the cursor and the events changes. What a rule can reach bounds what has to be
remembered for that: a rule that reaches no remembered one depends on the tokens alone.
-/

namespace KiwiFront.Peg

variable {grammar : Grammar}

/-- A store agrees with another one on all that rules of a scope have remembered. -/
def Setup.Covers (setup : Setup) (scope : grammar.Rule -> Prop)
    (store base : MemoStore grammar.Stored) : Prop :=
  ∀ rule, scope rule -> setup.Remembers (grammar.mode rule) -> ∀ mark outcome,
    base.find? (grammar.name rule) mark = some outcome ->
      store.find? (grammar.name rule) mark = some outcome

theorem Setup.covers_of_extends {setup : Setup} {scope : grammar.Rule -> Prop}
    {store base : MemoStore grammar.Stored}
    (extended : store.Extends base) : setup.Covers scope store base :=
  fun rule _ _ mark outcome found => extended (grammar.name rule) mark outcome found

theorem Setup.Covers.trans {setup : Setup} {scope : grammar.Rule -> Prop}
    {upper middle lower : MemoStore grammar.Stored}
    (first : setup.Covers scope upper middle) (second : setup.Covers scope middle lower) :
    setup.Covers scope upper lower :=
  fun rule inScope remembers mark outcome found =>
    first rule inScope remembers mark outcome (second rule inScope remembers mark outcome found)

/-- What the memo store holds for a rule at a mark after an evaluation that began there. -/
structure Recorded (rule : grammar.Rule) (start : Nat)
    (ended : Outcome (grammar.Value rule) × State grammar) (outcome : Cached (grammar.Value rule)) :
    Prop where
  found : ended.2.memo.find? (grammar.name rule) start = some (outcome.tagged rule)
  success : ∀ value, ended.1 = .success value -> outcome = .success value ended.2.cursor
  failure : ended.1 = .failure -> outcome = .failure ∧ ended.2.cursor = start

namespace Run

/-- What was accepted last, as an outcome. -/
def acceptedOutcome {Value : Type} : Option (Value × Nat) -> Cached Value
  | none => .failure
  | some (value, stop) => .success value stop

/-- While a rule grows, what it has accepted last is what is remembered. -/
theorem grow_recorded {rule : grammar.Rule} {body : Run grammar (grammar.Value rule)}
    (inner : ∀ base low, body.Keeps (State.Beyond base low)) {start : Nat} (bound : Nat)
    (accepted : Option (grammar.Value rule × Nat)) (state : State grammar)
    (found : state.memo.find? (grammar.name rule) start =
      some ((acceptedOutcome accepted).tagged rule)) :
    ∃ outcome, Recorded rule start (grow rule body start bound accepted state) outcome := by
  have kept : ∀ {state : State grammar} {entry}, state.memo.find? (grammar.name rule) start =
      some entry -> (body (state.enter rule start)).2.memo.find? (grammar.name rule) start =
        some entry :=
    fun {state} _ found => (inner state.memo 0 (state.enter rule start)
      ⟨.refl _, Nat.zero_le _⟩).1 _ _ _ found
  refine grow_induction
    (motive := fun _ accepted state ended =>
      state.memo.find? (grammar.name rule) start =
        some ((acceptedOutcome accepted).tagged rule) ->
          ∃ outcome, Recorded rule start ended outcome)
    ?_ ?_ ?_ ?_ ?_ bound accepted state found
  · exact fun _ _ found => ⟨_, found, nofun, nofun⟩
  · exact fun _ _ _ _ _ _ _ later _ => later (by simp [acceptedOutcome, Cached.tagged])
  · exact fun _ _ _ found => ⟨.failure, kept found, nofun, fun _ => ⟨rfl, rfl⟩⟩
  · refine fun _ value stop _ _ found => ⟨.success value stop, kept found, ?_, nofun⟩
    rintro _ ⟨⟩
    rfl
  · exact fun _ _ _ breaks found => ⟨_, kept found,
      fun value succeeded => absurd succeeded (breaks.ne_success value),
      fun failed => absurd failed breaks.ne_failure⟩

/-- A left-recursive rule that is not replayed leaves an outcome of its own behind,
even where an error ends it. -/
theorem leftRecursive_recorded {setup : Setup} {rule : grammar.Rule}
    {body : Run grammar (grammar.Value rule)}
    (inner : ∀ base low, body.Keeps (State.Beyond base low)) {state : State grammar}
    (missing : state.memo.find? (grammar.name rule) state.cursor = none) :
    ∃ outcome, Recorded rule state.cursor (leftRecursive setup rule body state) outcome := by
  have seeded : (state.seed rule).memo.find? (grammar.name rule) state.cursor = some .failure := by
    simp
  refine leftRecursive_cases (motive := fun ended => ∃ outcome, Recorded rule state.cursor ended
    outcome) (fun _ hit => ?_) (fun _ _ => ⟨.failure, seeded, nofun, nofun⟩)
    (fun _ _ => grow_recorded inner _ none _ seeded)
  rw [replay?_of_missing missing] at hit
  cases hit

theorem memoized_recorded {setup : Setup} {rule : grammar.Rule}
    {body : Run grammar (grammar.Value rule)} (packrat : setup.packrat = true)
    {state : State grammar}
    (missing : state.memo.find? (grammar.name rule) state.cursor = none)
    (settled : ∀ error, (memoized setup rule body state).1 ≠ .fatal error)
    (ends : (memoized setup rule body state).1 ≠ .unfinished) :
    ∃ outcome, Recorded rule state.cursor (memoized setup rule body state) outcome := by
  revert settled ends
  simp only [memoized, if_pos packrat, replay?_of_missing missing]
  generalize body _ = ended
  obtain ⟨outcome, reached⟩ := ended
  cases outcome with
  | success value =>
      refine fun _ _ => ⟨.success value reached.cursor, by simp [Cached.tagged], ?_, ?_⟩
      · rintro _ ⟨⟩
        rfl
      · rintro ⟨⟩
  | failure =>
      refine fun _ _ => ⟨.failure, by simp [Cached.tagged], ?_, fun _ => ⟨rfl, rfl⟩⟩
      rintro _ ⟨⟩
  | fatal error => exact fun settled => absurd rfl (settled error)
  | unfinished => exact fun _ ends => absurd rfl ends

/-- A rule that ends without an error is remembered just as it has ended. -/
theorem inMode_recorded {setup : Setup} {rule : grammar.Rule}
    {body : Run grammar (grammar.Value rule)} (remembers : setup.Remembers (grammar.mode rule))
    (inner : ∀ base low, body.Keeps (State.Beyond base low)) (state : State grammar)
    (settled : ∀ error, (inMode setup rule body state).1 ≠ .fatal error)
    (ends : (inMode setup rule body state).1 ≠ .unfinished) :
    ∃ outcome, Recorded rule state.cursor (inMode setup rule body state) outcome := by
  cases found : state.memo.find? (grammar.name rule) state.cursor with
  | none =>
      rcases remembers with growing | ⟨memoized, packrat⟩
      · simp only [inMode, growing] at settled ends ⊢
        exact leftRecursive_recorded inner found
      · simp only [inMode, memoized] at settled ends ⊢
        exact memoized_recorded packrat found settled ends
  | some entry =>
      rcases entry.tagged_or_other rule with ⟨outcome, rfl⟩ | ⟨tag, value, stop, different, rfl⟩
      · rw [inMode_of_tagged remembers found]
        refine ⟨outcome, found, ?_, ?_⟩
        · intro value same
          cases outcome <;> cases same
          rfl
        · intro same
          cases outcome <;> cases same
          exact ⟨rfl, rfl⟩
      · exact absurd (by rw [inMode_of_other remembers found different]) (settled _)

end Run

/-- The comparison of an evaluation with one that comes later, in states that remember
what is in a store and have come as far as a mark. -/
def Lockstep.again (setup : Setup) (scope : grammar.Rule -> Prop)
    (store : MemoStore grammar.Stored) (furthest : Nat)
    (spared : ParseError -> State grammar -> Prop) : Lockstep grammar where
  Relates first later := later.cursor = first.cursor ∧ later.memo = store ∧
    later.furthest = max furthest first.furthest
  Lost first := ¬ (setup.Covers scope store first.memo ∧ first.furthest ≤ furthest)
  Spared := spared
  Errors _ _ _ _ := True
  cursor related := related.1
  moveTo _ related := ⟨rfl, related.2⟩
  log _ related := related
  consume := by
    rintro first later ⟨cursor, memo, far⟩
    refine ⟨congrArg (· + 1) cursor, memo, ?_⟩
    simp only [State.consume_furthest, far, cursor]
    omega
  errors _ _ := trivial
  lasting := by
    refine ⟨fun _ lost => lost, fun _ lost => lost, fun lost kept => lost ⟨kept.1, ?_⟩⟩
    have far := kept.2
    simp only [State.consume_furthest] at far
    omega

namespace Lockstep

variable {setup : Setup} {scope : grammar.Rule -> Prop}
  {store : MemoStore grammar.Stored} {furthest : Nat}
  {spared : ParseError -> State grammar -> Prop}

theorem again_keeps (bound : Nat) (rule : grammar.Rule) :
    (grammar.runRule setup bound rule).Keeps (again setup scope store furthest spared).Lost := by
  intro state lost kept
  have grown := grammar.runRule_extends setup bound rule state
  exact lost ⟨kept.1.trans (Setup.covers_of_extends grown.1), Nat.le_trans grown.2 kept.2⟩

/-- A remembered rule that ends without an error is replayed later. -/
theorem again_settled {bound later : Nat} {rule : grammar.Rule} (inScope : scope rule)
    (remembers : setup.Remembers (grammar.mode rule)) {start twin : State grammar}
    (related : (again setup scope store furthest spared).Relates start twin)
    (settled : ∀ error, (grammar.runRule setup (bound + 1) rule start).1 ≠ .fatal error) :
    (again setup scope store furthest spared).InStep (grammar.runRule setup (bound + 1) rule start)
      (grammar.runRule setup (later + 1) rule twin) := by
  have grown := (grammar.runRule_extends setup (bound + 1) rule start).2
  have recorded : (grammar.runRule setup (bound + 1) rule start).1 ≠ .unfinished ->
      ∃ outcome,
        Recorded rule start.cursor (grammar.runRule setup (bound + 1) rule start) outcome :=
    Run.inMode_recorded remembers (fun base low => Expression.run_keeps State.Beyond.lasting setup
      (grammar.runRule_beyond setup base low bound) bound (grammar.body rule)) start settled
  generalize grammar.runRule setup (bound + 1) rule start = ended at grown recorded settled ⊢
  obtain ⟨reachedOutcome, reached⟩ := ended
  by_cases kept : setup.Covers scope store reached.memo ∧ reached.furthest ≤ furthest
  · obtain ⟨covers, near⟩ := kept
    -- What the first evaluation has left in its memo store is what the second one finds.
    have replayed : ∀ outcome : Cached (grammar.Value rule),
        reached.memo.find? (grammar.name rule) start.cursor = some (outcome.tagged rule) ->
        grammar.runRule setup (later + 1) rule twin = (outcome.toOutcome,
          (twin.log (.memoHit (grammar.name rule) twin.cursor)).moveTo
            (outcome.stopFrom twin.cursor)) := by
      intro outcome found
      refine Run.inMode_of_tagged remembers ?_
      rw [related.2.1, related.1]
      exact covers rule inScope remembers _ _ found
    have far : twin.furthest = max furthest reached.furthest := by
      have before := related.2.2
      simp only at grown
      omega
    cases reachedOutcome with
    | success value =>
        obtain ⟨outcome, recorded⟩ := recorded nofun
        obtain rfl := recorded.success value rfl
        rw [replayed _ recorded.found]
        exact .success ⟨rfl, related.2.1, far⟩
    | failure =>
        obtain ⟨outcome, recorded⟩ := recorded nofun
        obtain ⟨rfl, cursor⟩ := recorded.failure rfl
        rw [replayed _ recorded.found]
        exact .failure ⟨related.1.trans cursor.symm, related.2.1, far⟩
    | fatal error => exact absurd rfl (settled error)
    | unfinished => exact .unfinished
  · exact .lost kept

/-- A rule that is not remembered is evaluated as its expression is. -/
theorem again_unremembered {bound later : Nat} {rule : grammar.Rule}
    (unremembered : ¬ setup.Remembers (grammar.mode rule))
    (body : (again setup scope store furthest spared).Follows
      ((grammar.body rule).run setup (grammar.runRule setup bound) bound)
      ((grammar.body rule).run setup (grammar.runRule setup later) later)) :
    (again setup scope store furthest spared).Follows (grammar.runRule setup (bound + 1) rule)
      (grammar.runRule setup (later + 1) rule) := by
  intro start twin related
  unfold Grammar.runRule Run.inMode
  cases mode : grammar.mode rule with
  | plain => exact body start twin related
  | memoized =>
      have off : ¬ setup.packrat = true := fun packrat => unremembered (.inr ⟨mode, packrat⟩)
      simp only [Run.memoized, if_neg off]
      rw [related.1]
      exact body _ _ ((again setup scope store furthest spared).log _ related)
  | leftRecursive => exact absurd (.inl mode) unremembered

/-- A run that goes the same way again has the same outcome again, and changes nothing but
the cursor. -/
theorem run_again {Result : Type} {run : Run grammar Result} {start reached later : State grammar}
    {outcome : Outcome Result}
    (follows : (again setup scope later.memo later.furthest fun _ _ => True).Follows run run)
    (before : run start = (outcome, reached)) (grown : start.furthest ≤ reached.furthest)
    (settled : ∀ error, outcome ≠ .fatal error) (ends : outcome ≠ .unfinished)
    (sameCursor : later.cursor = start.cursor)
    (covers : setup.Covers scope later.memo reached.memo)
    (far : reached.furthest ≤ later.furthest) :
    ∃ events, run later = (outcome, { later with cursor := reached.cursor, events := events }) := by
  have related : (again setup scope later.memo later.furthest fun _ _ => True).Relates start
      later := ⟨sameCursor, rfl, show later.furthest = max later.furthest start.furthest by omega⟩
  have between := follows start later related
  rw [before] at between
  generalize run later = ended at between ⊢
  have sameState : ∀ second : State grammar,
      (again setup scope later.memo later.furthest fun _ _ => True).Relates reached second ->
      second = { later with cursor := reached.cursor, events := second.events } := by
    rintro ⟨cursor, furthest, memo, events⟩ ⟨sameCursor, sameMemo, sameFurthest⟩
    have sameFurthest : furthest = later.furthest := by
      simp only at sameFurthest
      omega
    subst sameFurthest
    simp only at sameCursor sameMemo
    rw [sameCursor, sameMemo]
  cases between with
  | unfinished => exact absurd rfl ends
  | lost lost => exact (lost ⟨covers, far⟩).elim
  | spared | fatal => exact absurd rfl (settled _)
  | success related => exact ⟨_, congrArg (_, ·) (sameState _ related)⟩
  | failure related => exact ⟨_, congrArg (_, ·) (sameState _ related)⟩

end Lockstep

namespace Grammar

variable {setup : Setup} {scope : grammar.Rule -> Prop}
  {store : MemoStore grammar.Stored} {furthest : Nat}

/-- Errors apart, every rule goes the same way again. -/
theorem runRule_follows_again
    (closed : ∀ rule, scope rule -> (grammar.body rule).Calls scope) (bound : Nat)
    (rule : grammar.Rule) (inScope : scope rule) :
    (Lockstep.again setup scope store furthest fun _ _ => True).Follows
      (grammar.runRule setup bound rule) (grammar.runRule setup bound rule) := by
  induction bound generalizing rule with
  | zero => exact fun _ _ _ => .unfinished
  | succ bound inductionHypothesis =>
      intro start twin related
      by_cases remembers : setup.Remembers (grammar.mode rule)
      · by_cases failed : ∃ error, (grammar.runRule setup (bound + 1) rule start).1 = .fatal error
        · obtain ⟨error, fatal⟩ := failed
          generalize grammar.runRule setup (bound + 1) rule start = ended at fatal ⊢
          obtain ⟨outcome, reached⟩ := ended
          cases fatal
          exact .spared trivial
        · exact Lockstep.again_settled inScope remembers related fun error fatal =>
            failed ⟨error, fatal⟩
      · have body := Expression.run_follows
          (Lockstep.again setup scope store furthest fun _ _ => True) setup setup rfl rfl
          inductionHypothesis (Lockstep.again_keeps bound) (Nat.le_refl bound) _
          (closed rule inScope)
        exact Lockstep.again_unremembered remembers body start twin related

/-- A rule that has ended without an error ends so again, at the same mark in every state
that remembers what was remembered then, and nothing but the cursor changes. -/
theorem runRule_again (closed : ∀ rule, scope rule -> (grammar.body rule).Calls scope)
    {bound : Nat} {rule : grammar.Rule} (inScope : scope rule) {start reached : State grammar}
    {outcome : Outcome (grammar.Value rule)}
    (before : grammar.runRule setup bound rule start = (outcome, reached))
    (settled : ∀ error, outcome ≠ .fatal error) (ends : outcome ≠ .unfinished)
    {later : State grammar} (sameCursor : later.cursor = start.cursor)
    (covers : setup.Covers scope later.memo reached.memo)
    (far : reached.furthest ≤ later.furthest) :
    ∃ events, grammar.runRule setup bound rule later =
      (outcome, { later with cursor := reached.cursor, events := events }) := by
  have grown := (grammar.runRule_extends setup bound rule start).2
  rw [before] at grown
  exact Lockstep.run_again (runRule_follows_again closed bound rule inScope) before grown settled
    ends sameCursor covers far

/-- So does an expression, in every state that remembers all that was remembered then. -/
theorem evaluate_again {Result : Type} {bound : Nat}
    {expression : Expression grammar.Rule grammar.Value Result} {start reached : State grammar}
    {outcome : Outcome Result}
    (before : grammar.evaluate setup bound expression start = (outcome, reached))
    (settled : ∀ error, outcome ≠ .fatal error) (ends : outcome ≠ .unfinished)
    {later : State grammar} (sameCursor : later.cursor = start.cursor)
    (extended : later.memo.Extends reached.memo) (far : reached.furthest ≤ later.furthest) :
    ∃ events, grammar.evaluate setup bound expression later =
      (outcome, { later with cursor := reached.cursor, events := events }) := by
  have grown : start.furthest ≤ (grammar.evaluate setup bound expression start).2.furthest :=
    (Expression.run_keeps State.Beyond.lasting setup
      (grammar.runRule_beyond setup start.memo start.furthest bound) bound expression start
      ⟨.refl _, Nat.le_refl _⟩).2
  rw [before] at grown
  have anyRule : ∀ rule : grammar.Rule, True := fun _ => trivial
  have follows := Expression.run_follows
    (Lockstep.again setup (fun _ => True) later.memo later.furthest fun _ _ => True) setup setup
    rfl rfl (runRule_follows_again (fun _ _ => Expression.calls_of_forall anyRule _) bound)
    (Lockstep.again_keeps bound) (Nat.le_refl bound) expression
    (Expression.calls_of_forall anyRule _)
  exact Lockstep.run_again follows before grown settled ends sameCursor
    (Setup.covers_of_extends extended) far

end Grammar

end KiwiFront.Peg
