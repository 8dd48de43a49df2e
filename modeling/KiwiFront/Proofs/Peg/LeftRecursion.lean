import KiwiFront.Peg.Parser
import KiwiFront.Proofs.Peg.Lockstep
import KiwiFront.Proofs.Peg.Reading
import KiwiFront.Proofs.Peg.Remembering
import KiwiFront.Proofs.Peg.Termination

/-!
# What left recursion computes

A rule that reads itself and a tail, or else a base, reads a base and then tails for as long as
they lead further; its value is that of the base, joined with one tail after the other. The
parser gets there by evaluating the whole expression once for each tail, so that it has to be
seen that each round takes up where the last one has ended. What makes that work is that an
expression without calls depends on nothing but where it begins.
-/

namespace KiwiFront.Peg

variable {grammar : Grammar} {Result : Type}

/-- States correspond when their cursors are at the same place, whatever they remember. The
second one keeps what is in a store. -/
def Lockstep.apart (store : MemoStore grammar.Stored) :
    Lockstep grammar where
  Relates first second := second.cursor = first.cursor ∧ second.memo = store
  Lost _ := False
  Spared _ _ := False
  Errors error first other second :=
    other = error ∧ second.cursor = first.cursor ∧ second.memo = store
  cursor related := related.1
  moveTo _ related := ⟨rfl, related.2⟩
  log _ related := related
  consume related := ⟨congrArg (· + 1) related.1, related.2⟩
  errors _ related := ⟨rfl, related⟩
  lasting := .never

/-- From a state a run ends with an outcome at a mark, and remembers nothing. -/
def Run.TurnsOut (run : Run grammar Result) (state : State grammar)
    (ending : Outcome Result × Nat) : Prop :=
  ∃ reached, run state = (ending.1, reached) ∧ reached.cursor = ending.2 ∧
    reached.memo = state.memo

/-- How a run ends is settled by the mark within the buffer where it begins. It does end, and
no success is behind its mark or beyond the buffer. -/
structure Run.Settled (size : Nat) (ending : Nat -> Outcome Result × Nat)
    (run : Run grammar Result) : Prop where
  turnsOut : ∀ state, state.cursor ≤ size -> run.TurnsOut state (ending state.cursor)
  ends : ∀ mark, mark ≤ size -> (ending mark).1 ≠ .unfinished
  forward : ∀ mark, mark ≤ size -> ∀ value, (ending mark).1 = .success value ->
    mark ≤ (ending mark).2 ∧ (ending mark).2 ≤ size

namespace Expression

/-- An expression without calls has none in particular. -/
theorem Calls.guarded {Rule : Type} {Value : Rule -> Type} {allowed : Rule -> Prop}
    (consuming : Rule -> Prop) {expression : Expression Rule Value Result}
    (calls : expression.Calls allowed) : expression.Guarded consuming allowed allowed := by
  induction expression with
  | token | succeed | fail | skip => trivial
  | both _ _ first second => exact ⟨first calls.1, second calls.2, .inr (second calls.2)⟩
  | choice _ _ first second => exact ⟨first calls.1, second calls.2⟩
  | many _ inner => exact ⟨inner calls, inner calls⟩
  | look _ _ inner | force _ _ inner | map _ _ inner | build _ _ _ inner => exact inner calls
  | call => exact calls

/-- How an expression without calls ends at a mark. -/
def ending (setup : Setup) (expression : Expression grammar.Rule grammar.Value Result)
    (mark : Nat) : Outcome Result × Nat :=
  let ended := expression.run setup (grammar.runRule setup 0) (setup.buffer.tokens.size + 1)
    (State.initial.moveTo mark)
  (ended.1, ended.2.cursor)

variable {setup : Setup} {expression : Expression grammar.Rule grammar.Value Result}

/-- A new parser finds all expressions without calls to end, the further on the less is left. -/
theorem ending_forward (calls : expression.Calls fun _ => False) (jumpless : expression.Jumpless)
    {mark : Nat} (within : mark ≤ setup.buffer.tokens.size) :
    (expression.ending setup mark).1 ≠ .unfinished ∧
      ∀ value, (expression.ending setup mark).1 = .success value ->
        mark ≤ (expression.ending setup mark).2 ∧
          (expression.ending setup mark).2 ≤ setup.buffer.tokens.size := by
  have advances : ∀ rule, (grammar.runRule setup 0 rule).Advances setup.buffer.tokens.size
      (fun _ => False) False := fun _ _ bounded => ⟨bounded, nofun⟩
  have keeps : ∀ rule, (grammar.runRule setup 0 rule).Keeps (State.Beyond .empty 0) :=
    fun _ _ held => held
  have ready : ((State.initial : State grammar).moveTo mark).Ready setup.buffer.tokens.size
      (fun _ => False) .empty := by
    refine ⟨⟨within, fun rule place stored stop found => ?_⟩, .refl _⟩
    cases (MemoStore.find?_empty (grammar.name rule) place).symm.trans found
  obtain ⟨readyLater, forward⟩ :=
    Expression.run_ready rfl advances keeps (setup.buffer.tokens.size + 1) expression jumpless ready
  refine ⟨?_, fun value succeeded => ⟨(forward value succeeded).1, readyLater.bounded.cursor⟩⟩
  exact Expression.run_ends rfl advances keeps (by omega) (fun _ => False.elim)
    (fun _ => False.elim) expression jumpless (calls.guarded _) _ ⟨ready, rfl⟩

/-- Wherever and how ever an expression without calls is evaluated, it ends as in a new parser. -/
theorem run_settled (calls : expression.Calls fun _ => False) (jumpless : expression.Jumpless)
    (callRule : (rule : grammar.Rule) -> Run grammar (grammar.Value rule)) {bound : Nat}
    (enough : setup.buffer.tokens.size < bound) :
    (expression.run setup callRule bound).Settled setup.buffer.tokens.size
      (expression.ending setup) := by
  refine ⟨fun state within => ?_, fun _ within => (ending_forward calls jumpless within).1,
    fun _ within => (ending_forward calls jumpless within).2⟩
  have ends : (expression.ending setup state.cursor).1 ≠ .unfinished :=
    (ending_forward calls jumpless within).1
  have follows : (Lockstep.apart state.memo).Follows
      (expression.run setup (grammar.runRule setup 0) (setup.buffer.tokens.size + 1))
      (expression.run setup callRule bound) :=
    Expression.run_follows _ setup setup rfl rfl (fun _ => False.elim) (fun _ _ lost => lost)
      enough expression calls
  have between := follows (State.initial.moveTo state.cursor) state ⟨rfl, rfl⟩
  unfold Run.TurnsOut
  unfold ending at ends ⊢
  generalize expression.run setup (grammar.runRule setup 0) _ _ = left at ends between ⊢
  generalize expression.run setup callRule bound state = right at between ⊢
  cases between with
  | unfinished => exact absurd rfl ends
  | lost lost => exact lost.elim
  | spared spared => exact spared.elim
  | success related => exact ⟨_, rfl, related⟩
  | failure related => exact ⟨_, rfl, related⟩
  | fatal alike => exact ⟨_, by rw [alike.1], alike.2⟩

end Expression

/-- A left-recursive rule that reads itself and a tail, or else a base. -/
structure Grammar.Chain (grammar : Grammar) (rule : grammar.Rule) {Tail : Type}
    (base : Expression grammar.Rule grammar.Value (grammar.Value rule))
    (tail : Expression grammar.Rule grammar.Value Tail)
    (join : grammar.Value rule -> Tail -> grammar.Value rule) : Prop where
  growing : grammar.mode rule = .leftRecursive
  body : grammar.body rule =
    .alternatives [.map (fun (left, right) => join left right) (.both (.call rule) tail), base]
  baseCalls : base.Calls fun _ => False
  baseJumpless : base.Jumpless
  tailCalls : tail.Calls fun _ => False
  tailJumpless : tail.Jumpless

/-- What a growing rule comes to, compared with a loop that begins with a value: the same
error, or the same end, with that value and all that the loop reads nested to the left. -/
inductive Nests {Value Tail : Type} (join : Value -> Tail -> Value) (first : Value) :
    Outcome Value × Nat -> Outcome (List Tail) × Nat -> Prop where
  | success (rest : List Tail) (stop : Nat) :
      Nests join first (.success (rest.foldl join first), stop) (.success rest, stop)
  | fatal (error : ParseError) (stop loopStop : Nat) :
      Nests join first (.fatal error, stop) (.fatal error, loopStop)

/-- Growth from a base never fails softly, as the base itself is a result. -/
theorem Nests.ne_failure {Value Tail : Type} {join : Value -> Tail -> Value} {first : Value}
    {grown : Outcome Value × Nat} {looped : Outcome (List Tail) × Nat}
    (nests : Nests join first grown looped) : grown.1 ≠ .failure := by
  cases nests <;> nofun

/-- One more thing that the loop reads first is joined first. -/
theorem Nests.cons {Value Tail : Type} {join : Value -> Tail -> Value} {first : Value} {item : Tail}
    {grown : Outcome Value × Nat} {loop : Run grammar (List Tail)} {state : State grammar}
    (nests : Nests join (join first item) grown ((loop state).1, (loop state).2.cursor)) :
    let looped := loop.andThen (fun rest final => (.success (item :: rest), final)) state
    Nests join first grown (looped.1, looped.2.cursor) := by
  unfold Run.andThen
  generalize loop state = ended at nests ⊢
  obtain ⟨outcome, reached⟩ := ended
  cases nests with
  | success rest => exact .success (item :: rest) _
  | fatal error => exact .fatal error _ _

namespace Grammar.Chain

variable {rule : grammar.Rule} {Tail : Type}
  {base : Expression grammar.Rule grammar.Value (grammar.Value rule)}
  {tail : Expression grammar.Rule grammar.Value Tail}
  {join : grammar.Value rule -> Tail -> grammar.Value rule}
  {setup : Setup} {bound : Nat} {state : State grammar}

/-- How the rule may begin: with itself. -/
def longer (rule : grammar.Rule) (tail : Expression grammar.Rule grammar.Value Tail)
    (join : grammar.Value rule -> Tail -> grammar.Value rule) :
    Expression grammar.Rule grammar.Value (grammar.Value rule) :=
  .map (fun (left, right) => join left right) (.both (.call rule) tail)

/-- How the rule goes on where it does not begin with itself. -/
def shorter (base : Expression grammar.Rule grammar.Value (grammar.Value rule)) :
    Expression grammar.Rule grammar.Value (grammar.Value rule) :=
  .alternatives [base]

/-- One evaluation of the expression of the rule. -/
def round (rule : grammar.Rule) (setup : Setup) (bound : Nat) :
    Run grammar (grammar.Value rule) :=
  (grammar.body rule).run setup (grammar.runRule setup (bound + 1)) (bound + 1)

/-- Tried on its own, a base fails in place. -/
theorem shorter_ending (mark : Nat) :
    (shorter base).ending setup mark =
      match base.ending setup mark with
      | (.failure, _) => (.failure, mark)
      | other => other := by
  unfold Expression.ending shorter
  simp only [Expression.alternatives, Expression.run, Run.orElse]
  generalize base.run setup _ _ _ = ended
  obtain ⟨outcome, reached⟩ := ended
  cases outcome with
  | failure => simp
  | success | fatal | unfinished => rfl

variable (chain : grammar.Chain rule base tail join)
include chain

/-- A round tries the longer form first and then the base alone. -/
theorem round_eq :
    round rule setup bound =
      ((longer rule tail join).run setup (grammar.runRule setup (bound + 1)) (bound + 1)).orElse
        ((shorter base).run setup (grammar.runRule setup (bound + 1)) (bound + 1)) := by
  unfold round
  rw [chain.body]
  rfl

/-- What is remembered of the rule stands for it. -/
theorem call_of_tagged (setup : Setup) (bound : Nat) (outcome : Cached (grammar.Value rule))
    (found : state.memo.find? (grammar.name rule) state.cursor = some (outcome.tagged rule)) :
    grammar.runRule setup (bound + 1) rule state = (outcome.toOutcome,
      (state.log (.memoHit (grammar.name rule) state.cursor)).moveTo
        (outcome.stopFrom state.cursor)) :=
  Run.inMode_of_tagged (.inl chain.growing) found

/-- The base alone ends in the same way with any sufficient bound, whatever is remembered. -/
theorem shorter_settled (enough : setup.buffer.tokens.size ≤ bound) :
    ((shorter base).run setup (grammar.runRule setup (bound + 1)) (bound + 1)).Settled
      setup.buffer.tokens.size ((shorter base).ending setup) := by
  refine Expression.run_settled ?_ ?_ _ (Nat.lt_succ_of_le enough)
  · exact And.intro chain.baseCalls trivial
  · exact And.intro chain.baseJumpless trivial

/-- The tail ends in the same way with any sufficient bound, whatever is remembered. -/
theorem tail_settled (enough : setup.buffer.tokens.size ≤ bound) :
    (tail.run setup (grammar.runRule setup (bound + 1)) (bound + 1)).Settled
      setup.buffer.tokens.size (tail.ending setup) :=
  Expression.run_settled chain.tailCalls chain.tailJumpless _ (Nat.lt_succ_of_le enough)

/-- Where the rule cannot begin with itself, it goes on without. -/
theorem round_shorter (enough : setup.buffer.tokens.size ≤ bound)
    (within : state.cursor ≤ setup.buffer.tokens.size) {between : State grammar}
    (missed : (longer rule tail join).run setup (grammar.runRule setup (bound + 1)) (bound + 1)
      state = (.failure, between)) (sameMemo : between.memo = state.memo) :
    (round rule setup bound).TurnsOut state ((shorter base).ending setup state.cursor) := by
  have back := (chain.shorter_settled enough).turnsOut (between.reset state.cursor)
    (by rwa [State.reset_cursor])
  rw [State.reset_cursor] at back
  obtain ⟨reached, ran, stop, memo⟩ := back
  refine ⟨reached, ?_, stop, memo.trans (by rw [State.reset_memo, sameMemo])⟩
  rw [chain.round_eq, Run.orElse_of_failure missed, ran]

/-- The first round: the rule is remembered to fail. -/
theorem round_seeded (enough : setup.buffer.tokens.size ≤ bound)
    (within : state.cursor ≤ setup.buffer.tokens.size)
    (found : state.memo.find? (grammar.name rule) state.cursor = some .failure) :
    (round rule setup bound).TurnsOut state ((shorter base).ending setup state.cursor) := by
  have called := chain.call_of_tagged setup bound .failure found
  exact chain.round_shorter enough within
    (Run.andThen_of_failure (Run.andThen_of_failure called)) rfl

section Grown

variable {value : grammar.Value rule} {stop : Nat}

/-- A later round takes up where the last one has ended. -/
theorem tail_turnsOut (enough : setup.buffer.tokens.size ≤ bound)
    (within : stop ≤ setup.buffer.tokens.size) :
    (tail.run setup (grammar.runRule setup (bound + 1)) (bound + 1)).TurnsOut
      ((state.log (.memoHit (grammar.name rule) state.cursor)).moveTo stop)
      (tail.ending setup stop) :=
  (chain.tail_settled enough).turnsOut _ within

/-- A tail behind the remembered value makes a longer value. -/
theorem round_of_success (enough : setup.buffer.tokens.size ≤ bound)
    (within : stop ≤ setup.buffer.tokens.size)
    (found : state.memo.find? (grammar.name rule) state.cursor =
      some (.success ⟨grammar.tag rule, value⟩ stop)) {right : Tail} {next : Nat}
    (tailed : tail.ending setup stop = (.success right, next)) :
    (round rule setup bound).TurnsOut state (.success (join value right), next) := by
  have called := chain.call_of_tagged setup bound (.success value stop) found
  obtain ⟨reached, ran, there, memo⟩ := chain.tail_turnsOut enough within
  rw [tailed] at ran there
  refine ⟨reached, ?_, there, memo⟩
  rw [chain.round_eq]
  have both : (Expression.both (.call rule) tail).run setup (grammar.runRule setup (bound + 1))
      (bound + 1) state = (.success (value, right), reached) :=
    (Run.andThen_of_success called).trans (Run.andThen_of_success ran)
  exact Run.orElse_of_success (Expression.run_map_of_success both)

/-- Without a tail behind the remembered value the round goes on with the base alone. -/
theorem round_of_failure (enough : setup.buffer.tokens.size ≤ bound)
    (within : state.cursor ≤ setup.buffer.tokens.size)
    (stopWithin : stop ≤ setup.buffer.tokens.size)
    (found : state.memo.find? (grammar.name rule) state.cursor =
      some (.success ⟨grammar.tag rule, value⟩ stop)) {next : Nat}
    (tailed : tail.ending setup stop = (.failure, next)) :
    (round rule setup bound).TurnsOut state ((shorter base).ending setup state.cursor) := by
  have called := chain.call_of_tagged setup bound (.success value stop) found
  obtain ⟨reached, ran, _, memo⟩ := chain.tail_turnsOut enough stopWithin
  rw [tailed] at ran
  refine chain.round_shorter enough within (Run.andThen_of_failure ?_) memo
  exact (Run.andThen_of_success called).trans (Run.andThen_of_failure ran)

/-- An error in the tail is the error of the round. -/
theorem round_of_fatal (enough : setup.buffer.tokens.size ≤ bound)
    (within : stop ≤ setup.buffer.tokens.size)
    (found : state.memo.find? (grammar.name rule) state.cursor =
      some (.success ⟨grammar.tag rule, value⟩ stop)) {error : ParseError} {next : Nat}
    (tailed : tail.ending setup stop = (.fatal error, next)) :
    (round rule setup bound).TurnsOut state (.fatal error, next) := by
  have called := chain.call_of_tagged setup bound (.success value stop) found
  obtain ⟨reached, ran, there, memo⟩ := chain.tail_turnsOut enough within
  rw [tailed] at ran there
  refine ⟨reached, ?_, there, memo⟩
  rw [chain.round_eq]
  refine Run.orElse_of_fatal (Run.andThen_of_fatal ?_)
  exact (Run.andThen_of_success called).trans (Run.andThen_of_fatal ran)

end Grown

/-- A rule that has grown to a value grows on as a loop goes on that reads tails: each round
but the last one reads one tail more. -/
theorem grow_nests (enough : setup.buffer.tokens.size ≤ bound) {start firstStop : Nat}
    (within : start ≤ setup.buffer.tokens.size) {first : grammar.Value rule}
    (began : (shorter base).ending setup start = (.success first, firstStop))
    {loop : Run grammar Tail} (loops : loop.Settled setup.buffer.tokens.size (tail.ending setup))
    {value : grammar.Value rule} {stop : Nat} (stopWithin : stop ≤ setup.buffer.tokens.size)
    (behind : firstStop ≤ stop) {growBound loopBound : Nat}
    (enoughToGrow : setup.buffer.tokens.size - stop < growBound)
    (enoughToLoop : setup.buffer.tokens.size - stop < loopBound)
    (found : state.memo.find? (grammar.name rule) start =
      some (.success ⟨grammar.tag rule, value⟩ stop))
    {other : State grammar} (here : other.cursor = stop) :
    let grown := Run.grow rule (round rule setup bound) start growBound (some (value, stop)) state
    let looped := Run.repeated loop loopBound other
    Nests join value (grown.1, grown.2.cursor) (looped.1, looped.2.cursor) := by
  induction loopBound generalizing value stop growBound state other with
  | zero => exact absurd enoughToLoop (Nat.not_lt_zero _)
  | succ loopBound inductionHypothesis =>
      obtain ⟨growBound, rfl⟩ : ∃ rest, growBound = rest + 1 := ⟨growBound - 1, by omega⟩
      subst here
      obtain ⟨reached, ran, there, -⟩ := loops.turnsOut other stopWithin
      have ends := loops.ends other.cursor stopWithin
      have forward := loops.forward other.cursor stopWithin
      generalize ended : tail.ending setup other.cursor = ending at ran there ends forward
      obtain ⟨outcome, next⟩ := ending
      simp only at ran there
      -- The round finds the rule remembered at its start.
      let entered := (state.moveTo start).log (.entered (grammar.name rule) start)
      cases outcome with
      | success right =>
          obtain ⟨le, nextWithin⟩ : other.cursor ≤ next ∧ next ≤ setup.buffer.tokens.size :=
            forward right rfl
          have longer : (round rule setup bound).TurnsOut entered _ :=
            chain.round_of_success enough stopWithin found ended
          obtain ⟨later, ranLater, thereLater, memo⟩ := longer
          simp only at thereLater
          simp only [Run.repeated, ran, there]
          by_cases further : other.cursor < next
          · rw [if_pos further, Run.grow_of_further ranLater (by rwa [thereLater]), thereLater]
            have remembered :
                (later.accept rule start (join value right)).memo.find? (grammar.name rule) start =
                  some (.success ⟨grammar.tag rule, join value right⟩ next) := by
              simp [thereLater]
            exact (inductionHypothesis nextWithin (by omega) (by omega) (by omega) remembered
              there).cons
          · rw [if_neg further, Run.grow_of_stuck ranLater (by simpa [thereLater] using further)]
            simpa [Run.grown] using Nests.success [] other.cursor
      | failure =>
          have shorter : (round rule setup bound).TurnsOut entered _ :=
            chain.round_of_failure enough within stopWithin found ended
          rw [show entered.cursor = start from rfl, began] at shorter
          obtain ⟨later, ranLater, thereLater, -⟩ := shorter
          simp only [Run.repeated, ran]
          rw [Run.grow_of_stuck ranLater (by simpa [thereLater] using behind)]
          simpa [Run.grown] using Nests.success [] other.cursor
      | fatal error =>
          have broken : (round rule setup bound).TurnsOut entered _ :=
            chain.round_of_fatal enough stopWithin found ended
          obtain ⟨later, ranLater, -⟩ := broken
          simp only [Run.repeated, ran]
          rw [Run.grow_of_fatal ranLater]
          exact .fatal error _ _
      | unfinished => exact absurd rfl ends

/-- A rule that begins with a base grows as a loop behind that base goes on. -/
theorem grow_begun (enough : setup.buffer.tokens.size ≤ bound) {start stop : Nat}
    (within : start ≤ setup.buffer.tokens.size) {first : grammar.Value rule}
    (began : (shorter base).ending setup start = (.success first, stop)) (beyond : start < stop)
    (stopWithin : stop ≤ setup.buffer.tokens.size) {loop : Run grammar Tail}
    (loops : loop.Settled setup.buffer.tokens.size (tail.ending setup)) {growBound loopBound : Nat}
    (enoughToGrow : setup.buffer.tokens.size - stop < growBound)
    (enoughToLoop : setup.buffer.tokens.size - stop < loopBound)
    (seed : state.memo.find? (grammar.name rule) start = some .failure)
    {other : State grammar} (here : other.cursor = stop) :
    let grown := Run.grow rule (round rule setup bound) start (growBound + 1) none state
    let looped := Run.repeated loop loopBound other
    Nests join first (grown.1, grown.2.cursor) (looped.1, looped.2.cursor) := by
  let entered := (state.moveTo start).log (.entered (grammar.name rule) start)
  have begins : (round rule setup bound).TurnsOut entered _ := chain.round_seeded enough within seed
  rw [show entered.cursor = start from rfl, began] at begins
  obtain ⟨reached, ran, there, -⟩ := begins
  simp only at there
  have further : ((none : Option (grammar.Value rule × Nat)).map Prod.snd).getD start <
      reached.cursor := by rwa [there]
  rw [Run.grow_of_further ran further, there]
  have remembered : (reached.accept rule start first).memo.find? (grammar.name rule) start =
      some (.success ⟨grammar.tag rule, first⟩ stop) := by simp [there]
  exact chain.grow_nests enough within began loops stopWithin (Nat.le_refl _) enoughToGrow
    enoughToLoop remembered here

end Grammar.Chain

/-- How a growing rule ends, compared with a loop: both fail, and the rule leaves the cursor in
place; or both end with the same error; or both succeed up to the same mark, and the value of the
rule is what the loop has read, nested to the left. -/
inductive LeftNested {Value Tail : Type} (join : Value -> Tail -> Value) (start : Nat) :
    Outcome Value × Nat -> Outcome (Value × List Tail) × Nat -> Prop where
  | failure (loopStop : Nat) : LeftNested join start (.failure, start) (.failure, loopStop)
  | fatal (error : ParseError) (stop loopStop : Nat) :
      LeftNested join start (.fatal error, stop) (.fatal error, loopStop)
  | success (first : Value) (rest : List Tail) (stop : Nat) :
      LeftNested join start (.success (rest.foldl join first), stop)
        (.success (first, rest), stop)

/-- A loop that begins with a value has read that value first. -/
theorem Nests.begun {Value Tail : Type} {join : Value -> Tail -> Value} {first : Value}
    {start : Nat} {grown : Outcome Value × Nat} {loop : Run grammar (List Tail)}
    {state : State grammar}
    (nests : Nests join first grown ((loop state).1, (loop state).2.cursor)) :
    let looped := loop.andThen (fun rest final => (.success (first, rest), final)) state
    LeftNested join start grown (looped.1, looped.2.cursor) := by
  unfold Run.andThen
  generalize loop state = ended at nests ⊢
  obtain ⟨outcome, reached⟩ := ended
  cases nests with
  | success rest => exact .success first rest _
  | fatal error => exact .fatal error _ _

namespace Grammar.Chain

variable {rule : grammar.Rule} {Tail : Type}
  {base : Expression grammar.Rule grammar.Value (grammar.Value rule)}
  {tail : Expression grammar.Rule grammar.Value Tail}
  {join : grammar.Value rule -> Tail -> grammar.Value rule}

/-- Where the rule is not remembered, it comes to what a base and then a loop come to. -/
theorem runRule_leftNested (chain : grammar.Chain rule base tail join) {setup : Setup}
    {bound loopBound : Nat} (enough : setup.buffer.tokens.size ≤ bound)
    (enoughToLoop : setup.buffer.tokens.size < loopBound)
    (callRule : (rule : grammar.Rule) -> Run grammar (grammar.Value rule)) {state : State grammar}
    (within : state.cursor ≤ setup.buffer.tokens.size)
    (missing : state.memo.find? (grammar.name rule) state.cursor = none)
    (further : ∀ value, (base.ending setup state.cursor).1 = .success value ->
      state.cursor < (base.ending setup state.cursor).2) :
    let grown := grammar.runRule setup (bound + 2) rule state
    let looped := (Expression.both base (.many tail)).run setup callRule loopBound state
    LeftNested join state.cursor (grown.1, grown.2.cursor) (looped.1, looped.2.cursor) ∧
      (grown.1 = .failure ↔ (base.ending setup state.cursor).1 = .failure) := by
  have grows : grammar.runRule setup (bound + 2) rule state =
      Run.leftRecursive setup rule (round rule setup bound) state := by
    unfold Grammar.runRule Run.inMode
    rw [chain.growing]
    rfl
  rw [grows, Run.leftRecursive_of_missing missing within]
  let seeded := (state.log (.memoMissed (grammar.name rule) state.cursor true)).remember
    (grammar.name rule) state.cursor .failure
  let entered := (seeded.moveTo state.cursor).log (.entered (grammar.name rule) state.cursor)
  have seed : seeded.memo.find? (grammar.name rule) state.cursor = some .failure := by
    simp [seeded]
  have begins : (round rule setup bound).TurnsOut entered _ :=
    chain.round_seeded enough within seed
  have bases : (base.run setup callRule loopBound).Settled _ _ :=
    Expression.run_settled chain.baseCalls chain.baseJumpless callRule enoughToLoop
  obtain ⟨reached, ran, there, -⟩ := bases.turnsOut state within
  have ends := bases.ends state.cursor within
  have forward := bases.forward state.cursor within
  have first : (shorter base).ending setup state.cursor = _ := shorter_ending state.cursor
  rw [show entered.cursor = state.cursor from rfl, first] at begins
  rw [Expression.run_both]
  -- The base settles how the first round of the rule ends as well as how the loop begins.
  generalize base.ending setup state.cursor = ending
    at ran there ends forward first begins further ⊢
  obtain ⟨outcome, stop⟩ := ending
  simp only at ran there first
  obtain ⟨later, ranLater, -⟩ := begins
  cases outcome with
  | success value =>
      have beyond : state.cursor < stop := further value rfl
      have stopWithin : stop ≤ setup.buffer.tokens.size := (forward value rfl).2
      have enoughToGrow : setup.buffer.tokens.size - stop <
          setup.buffer.tokens.size - state.cursor + 1 := by omega
      have loops : (tail.run setup callRule loopBound).Settled _ _ :=
        Expression.run_settled chain.tailCalls chain.tailJumpless callRule enoughToLoop
      have nests := chain.grow_begun enough within first beyond stopWithin loops enoughToGrow
        (Nat.lt_of_le_of_lt (Nat.sub_le _ _) enoughToLoop) seed there
      rw [Run.andThen_of_success ran]
      refine ⟨nests.begun, fun failed => absurd failed nests.ne_failure, ?_⟩
      rintro ⟨⟩
  | failure =>
      rw [Run.grow_of_failure ranLater, Run.andThen_of_failure ran]
      exact ⟨.failure _, Iff.rfl⟩
  | fatal error =>
      rw [Run.grow_of_fatal ranLater, Run.andThen_of_fatal ran]
      refine ⟨.fatal error _ _, ?_, ?_⟩ <;> rintro ⟨⟩
  | unfinished => exact absurd rfl ends

/-- Growing a rule that reads itself and a tail, or else a base, comes to what a loop comes to:
a base, then tails for as long as they lead further. It fails just where the base does. -/
theorem grows_leftNested (chain : grammar.Chain rule base tail join) (tokens : List Token)
    (keywords : List String) (packrat : Bool) {bound start : Nat}
    (enough : (Buffer.close tokens).length + 1 < bound)
    (within : start ≤ (Buffer.close tokens).length) :
    let parser := (Parser.ofTokens grammar tokens keywords packrat bound).reset start
    let alone := parser.evaluate base
    (∀ value, alone.1 = .success value -> start < alone.2.mark) ->
      let grown := parser.evaluate (.call rule)
      let looped := parser.evaluate (.both base (.many tail))
      LeftNested join start (grown.1, grown.2.mark) (looped.1, looped.2.mark) ∧
        (grown.1 = .failure ↔ alone.1 = .failure) := by
  intro parser alone further
  have size : parser.setup.buffer.tokens.size = (Buffer.close tokens).length := rfl
  have here : parser.state.cursor = start := State.reset_cursor _ start
  obtain ⟨bound, rfl⟩ : ∃ rest, bound = rest + 2 := ⟨bound - 2, by omega⟩
  have missing : parser.state.memo.find? (grammar.name rule) parser.state.cursor = none := by
    rw [show parser.state.memo = .empty from State.reset_memo _ start, MemoStore.find?_empty]
  have enoughCalls : parser.setup.buffer.tokens.size ≤ bound := by omega
  have enoughRounds : parser.setup.buffer.tokens.size < bound + 2 := by omega
  have inBuffer : parser.state.cursor ≤ parser.setup.buffer.tokens.size := here ▸ within
  have bases : (parser.running base).Settled parser.setup.buffer.tokens.size _ :=
    Expression.run_settled chain.baseCalls chain.baseJumpless _ enoughRounds
  obtain ⟨reached, ran, there, -⟩ := bases.turnsOut parser.state inBuffer
  have outcome : alone.1 = (base.ending parser.setup parser.state.cursor).1 := congrArg Prod.fst ran
  have mark : alone.2.mark = (base.ending parser.setup parser.state.cursor).2 :=
    (congrArg (State.cursor ∘ Prod.snd) ran).trans there
  rw [outcome, mark, ← here] at further
  have nested := chain.runRule_leftNested enoughCalls enoughRounds
    (grammar.runRule parser.setup (bound + 2)) inBuffer missing further
  rw [← outcome, here] at nested
  exact nested

end Grammar.Chain

/-- A name with further names behind dots, as it nests. -/
inductive DottedName where
  | name (text : String)
  | member (owner : DottedName) (text : String)

namespace DottedName

/-- A rule for dotted names can begin with a name alone. -/
def first {Value : Unit -> Type} : Expression Unit Value DottedName :=
  .map (fun token => .name token.text) (.token .name)

/-- It goes on with a dot and a name. -/
def more {Value : Unit -> Type} : Expression Unit Value Token :=
  .after (.token (.literal ".")) (.token .name)

/-- Puts a name behind those before it. -/
def join (owner : DottedName) (token : Token) : DottedName :=
  .member owner token.text

/-- The grammar of dotted names. -/
def rules : Grammar where
  Rule := Unit
  Tag := Unit
  sameTag := inferInstance
  Content _ := DottedName
  tag := id
  name _ := "dotted"
  mode _ := .leftRecursive
  body _ := .alternatives
    [.map (fun (owner, token) => join owner token) (.both (.call ()) more), first]

/-- Dotted names are a chain of segments. -/
theorem chain : rules.Chain () first more join where
  growing := rfl
  body := rfl
  baseCalls := trivial
  baseJumpless := trivial
  tailCalls := And.intro trivial trivial
  tailJumpless := And.intro trivial trivial

/-- A dot without a name behind it is left over. -/
theorem grows_leftNested_leftover :
    let tokens : List Token := [.nameAt 0 0 "a", .placed .dot "." 0 1, .nameAt 0 2 "b",
      .placed .dot "." 0 3]
    let parser := (Parser.ofTokens rules tokens [] true 7).reset 0
    let alone := parser.evaluate first
    let grown := parser.evaluate (.call ())
    let looped := parser.evaluate (.both first (.many more))
    (Buffer.close tokens).length + 1 < 7 ∧ 0 ≤ (Buffer.close tokens).length ∧
      (∀ value, alone.1 = .success value -> 0 < alone.2.mark) ∧
      LeftNested join 0 (grown.1, grown.2.mark) (looped.1, looped.2.mark) ∧
      (grown.1 = .failure ↔ alone.1 = .failure) ∧
      grown.1 = .success (.member (.name "a") "b") ∧ grown.2.mark = 3 := by
  intro tokens parser alone grown looped
  have enough : (Buffer.close tokens).length + 1 < 7 := by decide
  have further : ∀ value, alone.1 = .success value -> 0 < alone.2.mark :=
    fun _ _ => Nat.zero_lt_one
  have nested := chain.grows_leftNested tokens [] true enough (Nat.zero_le _) further
  exact ⟨enough, Nat.zero_le _, further, nested.1, nested.2, rfl, rfl⟩

end DottedName

end KiwiFront.Peg
