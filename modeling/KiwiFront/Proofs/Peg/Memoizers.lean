import KiwiFront.Parse
import KiwiFront.Proofs.Peg.Reading
import KiwiFront.Proofs.Peg.Repetition

/-!
# Growing and remembering

A rule that does not evaluate itself may be grown as well as remembered: the first round ends
as the only one of the other does, and a second round ends there again, which is no further.
The two part where the rule succeeds without leading further. That outcome is remembered, but
growing takes no round that does not lead further than the last one, and so comes to a failure.
-/

namespace KiwiFront.Peg

variable {grammar : Grammar} {Result : Type}

/-- The rule that an event tells of. -/
def Event.rule? : Event -> Option String
  | .memoHit rule _ | .memoMissed rule _ _ | .entered rule _ | .grew rule _ _ => some rule
  | .backtracked | .forceFailed _ _ | .parseFailed _ | .schemaAsked _ => none

/-- A rule has been evaluated or replayed. -/
def State.Asked (name : String) (state : State grammar) : Prop :=
  ∃ event ∈ state.events, event.rule? = some name

instance (name : String) (state : State grammar) : Decidable (state.Asked name) :=
  inferInstanceAs (Decidable (∃ event ∈ state.events, event.rule? = some name))

namespace State.Asked

variable {name : String} {state : State grammar}

/-- What has been asked for stays asked for. -/
theorem log (asked : state.Asked name) (event : Event) : (state.log event).Asked name := by
  obtain ⟨earlier, member, about⟩ := asked
  exact ⟨earlier, List.mem_cons_of_mem _ member, about⟩

/-- An event that tells of a rule is a request for it. -/
theorem of_log {event : Event} (about : event.rule? = some name) :
    (state.log event).Asked name :=
  ⟨event, List.mem_cons_self, about⟩

/-- Nothing takes a request back. -/
theorem lasting : Lasting fun state : State grammar => state.Asked name where
  moveTo _ asked := asked
  log event asked := asked.log event
  consume asked := asked

/-- Remembering an outcome does not touch the log. -/
theorem recordable (rule : grammar.Rule) : State.Recordable (State.Asked name) rule :=
  fun _ _ _ _ asked => asked

end State.Asked

/-- Two parsers that differ in nothing but what they remember of one rule, of which the first
one remembers nothing. -/
structure Aside (name : String) (first second : State grammar) : Prop where
  cursor : second.cursor = first.cursor
  furthest : second.furthest = first.furthest
  others : ∀ other mark, other ≠ name -> second.memo.find? other mark = first.memo.find? other mark
  fresh : ∀ mark, first.memo.find? name mark = none

namespace Aside

variable {name : String} {first second : State grammar}

/-- A parser that remembers nothing of the rule, compared with itself. -/
theorem self {state : State grammar} (fresh : ∀ mark, state.memo.find? name mark = none) :
    Aside name state state :=
  ⟨rfl, rfl, fun _ _ _ => rfl, fresh⟩

/-- Both move to one mark. -/
theorem moveTo (aside : Aside name first second) (mark : Nat) :
    Aside name (first.moveTo mark) (second.moveTo mark) :=
  ⟨rfl, aside.furthest, aside.others, aside.fresh⟩

/-- The events of the two need not agree. -/
theorem log (aside : Aside name first second) (event : Event) :
    Aside name first (second.log event) :=
  ⟨aside.cursor, aside.furthest, aside.others, aside.fresh⟩

/-- Both log an event. -/
theorem logBoth (aside : Aside name first second) (event : Event) :
    Aside name (first.log event) (second.log event) :=
  ⟨aside.cursor, aside.furthest, aside.others, aside.fresh⟩

/-- Both consume a token. -/
theorem consume (aside : Aside name first second) : Aside name first.consume second.consume := by
  refine ⟨congrArg (· + 1) aside.cursor, ?_, aside.others, aside.fresh⟩
  rw [State.consume_furthest, State.consume_furthest, aside.furthest, aside.cursor]

/-- Both remember an outcome of another rule. -/
theorem rememberBoth (aside : Aside name first second) {other : String} (apart : other ≠ name)
    (mark : Nat) (outcome : Cached grammar.Stored) :
    Aside name (first.remember other mark outcome) (second.remember other mark outcome) := by
  refine ⟨aside.cursor, aside.furthest, fun rule place elsewhere => ?_, fun place => ?_⟩
  · simp only [State.remember_memo, MemoStore.find?_insert, aside.others rule place elsewhere]
  · rw [State.remember_memo, MemoStore.find?_insert, if_neg fun same => apart same.1.symm]
    exact aside.fresh place

/-- Only the second one remembers an outcome of the rule itself. -/
theorem remember (aside : Aside name first second) (mark : Nat)
    (outcome : Cached grammar.Stored) :
    Aside name first (second.remember name mark outcome) := by
  refine ⟨aside.cursor, aside.furthest, fun rule place elsewhere => ?_, aside.fresh⟩
  rw [State.remember_memo, MemoStore.find?_insert, if_neg fun same => elsewhere same.1]
  exact aside.others rule place elsewhere

/-- The second one remembers all that the first one does. -/
theorem extended (aside : Aside name first second) : second.memo.Extends first.memo := by
  intro rule mark outcome found
  by_cases same : rule = name
  · rw [same, aside.fresh] at found
    cases found
  · rw [aside.others rule mark same, found]

end Aside

/-- The comparison of parsers that differ in what they remember of one rule. It is over as soon
as that rule is asked for. -/
def Lockstep.aside (grammar : Grammar) (name : String) : Lockstep grammar where
  Relates := Aside name
  Lost := State.Asked name
  Spared _ _ := False
  Errors error first other second := other = error ∧ Aside name first second
  cursor related := related.cursor
  moveTo mark related := related.moveTo mark
  log event related := related.logBoth event
  consume related := related.consume
  errors _ related := ⟨rfl, related⟩
  lasting := State.Asked.lasting

/-- A rule that is remembered cannot be evaluated without a trace where nothing is remembered
of it yet. -/
theorem Run.inMode_asked {setup : Setup} {rule : grammar.Rule}
    {body : Run grammar (grammar.Value rule)} (notPlain : grammar.mode rule ≠ .plain)
    (keeps : body.Keeps (State.Asked (grammar.name rule))) {state : State grammar}
    (fresh : state.memo.find? (grammar.name rule) state.cursor = none) :
    (Run.inMode setup rule body state).2.Asked (grammar.name rule) := by
  have miss := Run.replay?_of_missing fresh
  have entered : ∀ before : State grammar,
      (body (before.log (.entered (grammar.name rule) state.cursor))).2.Asked
        (grammar.name rule) :=
    fun _ => keeps _ (.of_log rfl)
  cases mode : grammar.mode rule with
  | plain => exact absurd mode notPlain
  | memoized =>
      simp only [Run.inMode, mode, Run.memoized, miss]
      split
      · have asked := entered (state.log (.memoMissed (grammar.name rule) state.cursor false))
        generalize body _ = ended at asked ⊢
        obtain ⟨outcome, reached⟩ := ended
        cases outcome with
        | success | failure | fatal | unfinished => exact asked
      · exact entered state
  | leftRecursive =>
      have about : (Event.memoMissed (grammar.name rule) state.cursor true).rule? =
        some (grammar.name rule) := rfl
      have seeded : (state.seed rule).Asked (grammar.name rule) := State.Asked.of_log about
      simp only [Run.inMode, mode]
      refine Run.leftRecursive_cases
        (motive := fun ended => ended.2.Asked (grammar.name rule)) (fun _ hit => ?_)
        (fun _ _ => seeded)
        (fun _ _ => Run.grow_keeps State.Asked.lasting keeps (fun _ asked => asked) _ none _ seeded)
      cases miss.symm.trans hit

namespace Grammar

variable {setup : Setup} {name : String}

/-- What is remembered of a rule makes no difference to the others until it is asked for. -/
theorem runRule_follows_aside (bound : Nat) (rule : grammar.Rule) :
    (Lockstep.aside grammar name).Follows (grammar.runRule setup bound rule)
      (grammar.runRule setup bound rule) := by
  induction bound generalizing rule with
  | zero => exact fun _ _ _ => .unfinished
  | succ bound inductionHypothesis =>
      have keeps : ∀ rule, (grammar.runRule setup bound rule).Keeps (State.Asked name) :=
        grammar.runRule_keeps State.Asked.lasting State.Asked.recordable setup bound
      have bodyKeeps := Expression.run_keeps State.Asked.lasting setup keeps bound
        (grammar.body rule)
      have body := Expression.run_follows (Lockstep.aside grammar name) setup setup rfl rfl
        (fun rule _ => inductionHypothesis rule) keeps (Nat.le_refl bound) (grammar.body rule)
        (Expression.calls_of_forall (fun _ => trivial) _)
      by_cases itself : grammar.name rule = name
      · -- Only a rule that remembers leaves a trace; a plain one never looks at what is remembered.
        subst itself
        by_cases plain : grammar.mode rule = .plain
        · unfold Grammar.runRule Run.inMode
          rw [plain]
          exact body
        · intro first second related
          exact .lost (Run.inMode_asked plain bodyKeeps (related.fresh _))
      · refine .inMode ?_ ?_ (fun _ _ asked => asked) rfl rfl body bodyKeeps
        · intro first second related
          rw [related.cursor]
          exact related.others _ _ itself
        · intro _ _ _ _ first second outcome related
          exact related.rememberBoth itself _ outcome

/-- An expression that does not ask for a rule ends alike, whatever is remembered of that
rule. -/
theorem evaluate_aside {bound : Nat} {expression : Expression grammar.Rule grammar.Value Result}
    {start reached : State grammar} {outcome : Outcome Result}
    (ran : grammar.evaluate setup bound expression start = (outcome, reached))
    (ends : outcome ≠ .unfinished) (avoids : ¬ reached.Asked name) {other : State grammar}
    (aside : Aside name start other) :
    ∃ later, grammar.evaluate setup bound expression other = (outcome, later) ∧
      Aside name reached later := by
  have keeps : ∀ rule, (grammar.runRule setup bound rule).Keeps (State.Asked name) :=
    grammar.runRule_keeps State.Asked.lasting State.Asked.recordable setup bound
  have follows := Expression.run_follows (Lockstep.aside grammar name) setup setup rfl rfl
    (fun rule _ => grammar.runRule_follows_aside bound rule) keeps (Nat.le_refl bound) expression
    (Expression.calls_of_forall (fun _ => trivial) _)
  have between := follows start other aside
  change Lockstep.InStep _ (grammar.evaluate setup bound expression start)
    (grammar.evaluate setup bound expression other) at between
  rw [ran] at between
  generalize grammar.evaluate setup bound expression other = ended at between ⊢
  cases between with
  | unfinished => exact absurd rfl ends
  | lost asked => exact absurd asked avoids
  | spared spared => exact spared.elim
  | success related | failure related => exact ⟨_, rfl, related⟩
  | fatal alike => exact ⟨_, by rw [alike.1], alike.2⟩

end Grammar

/-- The state remembers an outcome of a rule at a mark. -/
def State.Records (rule : grammar.Rule) (mark : Nat) (outcome : Cached (grammar.Value rule))
    (state : State grammar) : Prop :=
  state.memo.find? (grammar.name rule) mark = some (outcome.tagged rule)

/-- How growing a rule from a mark ends, compared with evaluating it once, in a parser that
remembers what it has evaluated once or does not. -/
inductive GrowsLike (rule : grammar.Rule) (start : Nat) (packrat : Bool) :
    Outcome (grammar.Value rule) × State grammar ->
    Outcome (grammar.Value rule) × State grammar -> Prop where
  | further {value : grammar.Value rule} {once grown : State grammar}
      (beyond : start < once.cursor) (same : grown.cursor = once.cursor)
      (records : grown.Records rule start (.success value once.cursor))
      (recordsOnce : packrat = true -> once.Records rule start (.success value once.cursor)) :
      GrowsLike rule start packrat (.success value, once) (.success value, grown)
  | failure {once grown : State grammar} (back : grown.cursor = start)
      (records : grown.Records rule start .failure)
      (recordsOnce : packrat = true -> once.cursor = start ∧ once.Records rule start .failure) :
      GrowsLike rule start packrat (.failure, once) (.failure, grown)
  | fatal {error : ParseError} {once grown : State grammar} (same : grown.cursor = once.cursor) :
      GrowsLike rule start packrat (.fatal error, once) (.fatal error, grown)
  /-- What does not lead further is a failure for growing. -/
  | stuck {value : grammar.Value rule} {once grown : State grammar}
      (behind : once.cursor ≤ start) (back : grown.cursor = start)
      (records : grown.Records rule start .failure)
      (recordsOnce : packrat = true -> once.Records rule start (.success value once.cursor)) :
      GrowsLike rule start packrat (.success value, once) (.failure, grown)

/-- What evaluating a rule once from a mark leaves, if its expression has reached a state with
an outcome. -/
def State.Once (rule : grammar.Rule) (start : Nat) (packrat : Bool) (reached : State grammar)
    (outcome : Outcome (grammar.Value rule)) (once : State grammar) : Prop :=
  match outcome with
  | .success value => once.cursor = reached.cursor ∧
      (packrat = true -> once.Records rule start (.success value once.cursor))
  | .failure => packrat = true -> once.cursor = start ∧ once.Records rule start .failure
  | .fatal _ | .unfinished => once.cursor = reached.cursor

namespace Run

variable {setup : Setup} {bound : Nat} {rule : grammar.Rule}
  {expression : Expression grammar.Rule grammar.Value (grammar.Value rule)}
  {state reached : State grammar} {outcome : Outcome (grammar.Value rule)}

/-- The state in which the first round of a growing rule begins. -/
def seeded (rule : grammar.Rule) (state : State grammar) : State grammar :=
  (((state.log (.memoMissed (grammar.name rule) state.cursor true)).remember (grammar.name rule)
    state.cursor .failure).moveTo state.cursor).log (.entered (grammar.name rule) state.cursor)

variable (fresh : ∀ mark, state.memo.find? (grammar.name rule) mark = none)
  (ran : grammar.evaluate setup bound expression state = (outcome, reached))
  (ends : outcome ≠ .unfinished) (avoids : ¬ reached.Asked (grammar.name rule))
include fresh ran ends avoids

/-- Evaluated once, a rule ends as its expression does. -/
theorem memoized_once :
    ∃ once, memoized setup rule (grammar.evaluate setup bound expression) state =
        (outcome, once) ∧ State.Once rule state.cursor setup.packrat reached outcome once := by
  unfold memoized
  cases packrat : setup.packrat with
  | true =>
      obtain ⟨later, ranLater, aside⟩ := Grammar.evaluate_aside ran ends avoids
        (((Aside.self fresh).log (.memoMissed (grammar.name rule) state.cursor false)).log
          (.entered (grammar.name rule) state.cursor))
      simp only [replay?_of_missing (fresh _), ranLater, if_true]
      cases outcome with
      | success value =>
          refine ⟨_, rfl, aside.cursor, fun _ => ?_⟩
          simp [State.Records, Cached.tagged]
      | failure =>
          refine ⟨_, rfl, fun _ => ⟨rfl, ?_⟩⟩
          simp [State.Records, Cached.tagged]
      | fatal | unfinished => exact ⟨_, rfl, aside.cursor⟩
  | false =>
      obtain ⟨later, ranLater, aside⟩ := Grammar.evaluate_aside ran ends avoids
        ((Aside.self fresh).log (.entered (grammar.name rule) state.cursor))
      simp only [Bool.false_eq_true, if_false]
      refine ⟨later, ranLater, ?_⟩
      cases outcome with
      | success => exact ⟨aside.cursor, fun on => absurd on Bool.false_ne_true⟩
      | failure => exact fun on => absurd on Bool.false_ne_true
      | fatal | unfinished => exact aside.cursor

/-- The first round of growing a rule ends as its expression does. -/
theorem seeded_ran :
    ∃ later, grammar.evaluate setup bound expression (seeded rule state) = (outcome, later) ∧
      Aside (grammar.name rule) reached later ∧ later.Records rule state.cursor .failure := by
  have before : Aside (grammar.name rule) state (seeded rule state) :=
    ((((Aside.self fresh).log _).remember _ _).moveTo state.cursor).log _
  obtain ⟨later, ranLater, aside⟩ := Grammar.evaluate_aside ran ends avoids before
  refine ⟨later, ranLater, aside, ?_⟩
  have kept := (Expression.run_keeps State.Beyond.lasting setup
    (grammar.runRule_beyond setup (seeded rule state).memo 0 bound) bound expression
    (seeded rule state) ⟨.refl _, Nat.zero_le _⟩).1
  change (grammar.evaluate setup bound expression (seeded rule state)).2.memo.Extends _ at kept
  rw [ranLater] at kept
  exact kept _ _ _ (by simp [seeded, Cached.tagged])

/-- A rule that fails, or leads no further, is grown to a failure. -/
theorem leftRecursive_of_stuck (within : state.cursor ≤ setup.buffer.tokens.size)
    (stuck : ∀ value, outcome = .success value -> reached.cursor ≤ state.cursor)
    (settled : ∀ error, outcome ≠ .fatal error) :
    ∃ grown, leftRecursive setup rule (grammar.evaluate setup bound expression) state =
        (.failure, grown) ∧ grown.cursor = state.cursor ∧
      grown.Records rule state.cursor .failure := by
  obtain ⟨later, ranLater, aside, records⟩ := seeded_ran fresh ran ends avoids
  rw [leftRecursive_of_missing (fresh _) within]
  refine ⟨later.moveTo state.cursor, ?_, rfl, records⟩
  cases outcome with
  | success value =>
      refine grow_of_stuck ranLater ?_
      rw [aside.cursor]
      exact stuck value rfl
  | failure => exact grow_of_failure ranLater
  | fatal error => exact absurd rfl (settled error)
  | unfinished => exact absurd rfl ends

end Run

namespace Run

variable {setup : Setup} {bound : Nat} {rule : grammar.Rule}
  {expression : Expression grammar.Rule grammar.Value (grammar.Value rule)}
  {state reached : State grammar}
  (fresh : ∀ mark, state.memo.find? (grammar.name rule) mark = none)
  (avoids : ¬ reached.Asked (grammar.name rule))
include fresh avoids

/-- A rule that leads further is grown in one round. The second round, on top of what the first
one has come to, leads no further than that. -/
theorem leftRecursive_of_further (within : state.cursor ≤ setup.buffer.tokens.size)
    {value : grammar.Value rule}
    (ran : grammar.evaluate setup bound expression state = (.success value, reached))
    (further : state.cursor < reached.cursor) :
    ∃ grown, leftRecursive setup rule (grammar.evaluate setup bound expression) state =
        (.success value, grown) ∧ grown.cursor = reached.cursor ∧
      grown.Records rule state.cursor (.success value reached.cursor) := by
  obtain ⟨later, ranLater, aside, -⟩ := seeded_ran fresh ran nofun avoids
  rw [leftRecursive_of_missing (fresh _) within,
    grow_of_further ranLater (by rwa [aside.cursor]), aside.cursor]
  let again := (later.accept rule state.cursor value).enter rule state.cursor
  have grew : Aside (grammar.name rule) reached (later.accept rule state.cursor value) :=
    (aside.log _).remember _ _
  obtain ⟨events, ranAgain⟩ : ∃ events, grammar.evaluate setup bound expression again =
      (.success value, { again with cursor := reached.cursor, events := events }) :=
    Grammar.evaluate_again ran nofun nofun rfl grew.extended (Nat.le_of_eq grew.furthest.symm)
  -- Rounds count only where they lead strictly further, so the second one is the last.
  rw [grow_of_stuck ranAgain (Nat.le_refl _)]
  refine ⟨_, rfl, rfl, ?_⟩
  simp [State.Records, Cached.tagged, again, aside.cursor]

/-- An error of the body passes through growth, with the cursor where the body left it. -/
theorem leftRecursive_of_fatal (within : state.cursor ≤ setup.buffer.tokens.size)
    {error : ParseError}
    (ran : grammar.evaluate setup bound expression state = (.fatal error, reached)) :
    ∃ grown, leftRecursive setup rule (grammar.evaluate setup bound expression) state =
      (.fatal error, grown) ∧ grown.cursor = reached.cursor := by
  obtain ⟨later, ranLater, aside, -⟩ := seeded_ran fresh ran nofun avoids
  rw [leftRecursive_of_missing (fresh _) within, grow_of_fatal ranLater]
  exact ⟨later, rfl, aside.cursor⟩

end Run

namespace Parser

/-- A rule that does not ask for itself is grown as it is evaluated once, unless it succeeds
without leading further. -/
theorem leftRecursive_growsLike (tokens : List Token) (keywords : List String) (packrat : Bool)
    (bound : Nat) {start : Nat} (within : start ≤ (Buffer.close tokens).length)
    (rule : grammar.Rule)
    (expression : Expression grammar.Rule grammar.Value (grammar.Value rule)) :
    let parser := (Parser.ofTokens grammar tokens keywords packrat bound).reset start
    let body := parser.running expression
    (body parser.state).1 ≠ .unfinished ->
      ¬ (body parser.state).2.Asked (grammar.name rule) ->
        GrowsLike rule start packrat (Run.memoized parser.setup rule body parser.state)
          (Run.leftRecursive parser.setup rule body parser.state) := by
  intro parser body ends avoids
  have here : parser.state.cursor = start := State.reset_cursor _ start
  have inBuffer : parser.state.cursor ≤ parser.setup.buffer.tokens.size := here ▸ within
  have fresh : ∀ mark, parser.state.memo.find? (grammar.name rule) mark = none := by
    intro mark
    rw [show parser.state.memo = .empty from State.reset_memo _ start, MemoStore.find?_empty]
  generalize ran : body parser.state = ended at ends avoids
  obtain ⟨outcome, reached⟩ := ended
  obtain ⟨once, ranOnce, left⟩ := Run.memoized_once fresh ran ends avoids
  rw [show Run.memoized parser.setup rule body parser.state = (outcome, once) from ranOnce]
  rw [here] at left
  cases outcome with
  | success value =>
      obtain ⟨sameOnce, recordsOnce⟩ := left
      -- A success in place counts once evaluated, but not as growth.
      by_cases further : start < reached.cursor
      · obtain ⟨grown, ranGrown, same, records⟩ :=
          Run.leftRecursive_of_further fresh avoids inBuffer ran (here.symm ▸ further)
        rw [show Run.leftRecursive parser.setup rule body parser.state = (_, grown) from ranGrown]
        rw [here, ← sameOnce] at records
        exact .further (sameOnce ▸ further) (same.trans sameOnce.symm) records recordsOnce
      · have behind : reached.cursor ≤ start := Nat.le_of_not_lt further
        obtain ⟨grown, ranGrown, back, records⟩ := Run.leftRecursive_of_stuck fresh ran ends avoids
          inBuffer (fun _ _ => here.symm ▸ behind) nofun
        rw [show Run.leftRecursive parser.setup rule body parser.state = (_, grown) from ranGrown]
        exact .stuck (sameOnce ▸ behind) (back.trans here) (here ▸ records) recordsOnce
  | failure =>
      obtain ⟨grown, ranGrown, back, records⟩ := Run.leftRecursive_of_stuck fresh ran ends avoids
        inBuffer nofun nofun
      rw [show Run.leftRecursive parser.setup rule body parser.state = (_, grown) from ranGrown]
      exact .failure (back.trans here) (here ▸ records) left
  | fatal error =>
      obtain ⟨grown, ranGrown, same⟩ := Run.leftRecursive_of_fatal fresh avoids inBuffer ran
      rw [show Run.leftRecursive parser.setup rule body parser.state = (_, grown) from ranGrown]
      exact .fatal (same.trans left.symm)
  | unfinished => exact absurd rfl ends

/-- Modifiers that are there are grown as they are evaluated once. -/
theorem modifiers_growsLike :
    let tokens := [Token.nameAt 0 0 "public"]
    let rule : kiwiGrammar.Rule := KiwiRule.modifiers
    let parser := (ofTokens kiwiGrammar tokens KiwiGrammar.keywords true 34).reset 0
    let body := parser.running (kiwiGrammar.body rule)
    let grown := Run.leftRecursive parser.setup rule body parser.state
    0 ≤ (Buffer.close tokens).length ∧ (body parser.state).1 ≠ .unfinished ∧
      ¬ (body parser.state).2.Asked "modifiers" ∧
      GrowsLike rule 0 true (Run.memoized parser.setup rule body parser.state) grown ∧
      grown.1 = .success tokens := by
  intro tokens rule parser body grown
  have within : 0 ≤ (Buffer.close tokens).length := Nat.zero_le _
  have ran : (body parser.state).1 = .success tokens := rfl
  have ends : (body parser.state).1 ≠ .unfinished := by
    rw [ran]
    exact nofun
  have avoids : ¬ (body parser.state).2.Asked "modifiers" := by decide +kernel
  have like := leftRecursive_growsLike tokens _ true 34 within rule _ ends avoids
  exact ⟨within, ends, avoids, like, rfl⟩

/-- Modifiers may be missing. Evaluated once, there are none then; growing them fails. -/
theorem modifiers_stuck :
    let tokens := [Token.nameAt 0 0 "a"]
    let rule : kiwiGrammar.Rule := KiwiRule.modifiers
    let parser := (ofTokens kiwiGrammar tokens KiwiGrammar.keywords true 34).reset 0
    let body := parser.running (kiwiGrammar.body rule)
    let once := Run.memoized parser.setup rule body parser.state
    let grown := Run.leftRecursive parser.setup rule body parser.state
    0 ≤ (Buffer.close tokens).length ∧ ¬ (body parser.state).2.Asked "modifiers" ∧
      once.1 = .success ([] : List Token) ∧ grown.1 = .failure ∧
      once.2.memo.find? "modifiers" 0 = some (.success ⟨.tokens, ([] : List Token)⟩ 0) ∧
      grown.2.memo.find? "modifiers" 0 = some .failure := by
  intro tokens rule parser body once grown
  exact ⟨Nat.zero_le _, by decide +kernel, rfl, rfl, rfl, rfl⟩

end Parser

end KiwiFront.Peg
