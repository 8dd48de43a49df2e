import KiwiFront.Peg.Session
import KiwiFront.Proofs.Peg.Rounds

/-!
# What evaluation leaves in place

Evaluation moves the cursor, matches tokens, notes events and remembers outcomes. A
property of states that the first three cannot break is kept by every expression whose
calls keep it. The main case is growth: no evaluation replaces an outcome that was
remembered before it began, and the furthest cursor never comes back.

Inside an evaluation outcomes are replaced all the time, since a left-recursive rule
grows by replacing its own. That does no harm, because such a rule had no outcome at
its mark when it began.
-/

namespace KiwiFront.Peg

namespace MemoStore

variable {Value : Type}

/-- Every outcome of `base` is in the store, too. -/
def Extends (store base : MemoStore Value) : Prop :=
  ∀ rule mark outcome, base.find? rule mark = some outcome -> store.find? rule mark = some outcome

/-- A store extends itself. -/
theorem Extends.refl (store : MemoStore Value) : store.Extends store :=
  fun _ _ _ found => found

/-- An extension may be extended further. -/
theorem Extends.trans {upper middle lower : MemoStore Value} (first : upper.Extends middle)
    (second : middle.Extends lower) : upper.Extends lower :=
  fun rule mark outcome found => first rule mark outcome (second rule mark outcome found)

/-- What a store extends knows nothing that the store does not know. -/
theorem Extends.find?_eq_none {store base : MemoStore Value} (extended : store.Extends base)
    {rule : String} {mark : Nat} (missing : store.find? rule mark = none) :
    base.find? rule mark = none := by
  cases found : base.find? rule mark with
  | none => rfl
  | some outcome =>
      rw [extended rule mark outcome found] at missing
      cases missing

/-- Inserting where nothing was remembered breaks no extension. -/
theorem Extends.insert {store base : MemoStore Value} (extended : store.Extends base)
    {rule : String} {mark : Nat} (outcome : Cached Value) (missing : base.find? rule mark = none) :
    (store.insert rule mark outcome).Extends base := by
  intro other place kept found
  rw [find?_insert]
  split
  · rename_i same
    rw [same.1, same.2, missing] at found
    cases found
  · exact extended other place kept found

/-- What is put in is found. -/
@[simp] theorem find?_insert_self (store : MemoStore Value) (rule : String) (mark : Nat)
    (outcome : Cached Value) : (store.insert rule mark outcome).find? rule mark = some outcome := by
  simp [find?_insert]

end MemoStore

variable {grammar : Grammar} {Result : Type}

namespace State

variable (state : State grammar)

@[simp] theorem moveTo_cursor (mark : Nat) : (state.moveTo mark).cursor = mark := rfl
@[simp] theorem moveTo_memo (mark : Nat) : (state.moveTo mark).memo = state.memo := rfl
@[simp] theorem moveTo_furthest (mark : Nat) : (state.moveTo mark).furthest = state.furthest := rfl
@[simp] theorem log_cursor (event : Event) : (state.log event).cursor = state.cursor := rfl
@[simp] theorem log_memo (event : Event) : (state.log event).memo = state.memo := rfl
@[simp] theorem log_furthest (event : Event) : (state.log event).furthest = state.furthest := rfl
@[simp] theorem consume_cursor : state.consume.cursor = state.cursor + 1 := rfl
@[simp] theorem consume_memo : state.consume.memo = state.memo := rfl
@[simp] theorem consume_furthest :
    state.consume.furthest = max state.furthest (state.cursor + 1) := rfl

@[simp] theorem remember_cursor (rule : String) (mark : Nat)
    (outcome : Cached grammar.Stored) :
    (state.remember rule mark outcome).cursor = state.cursor := rfl
@[simp] theorem remember_furthest (rule : String) (mark : Nat)
    (outcome : Cached grammar.Stored) :
    (state.remember rule mark outcome).furthest = state.furthest := rfl
@[simp] theorem remember_memo (rule : String) (mark : Nat)
    (outcome : Cached grammar.Stored) :
    (state.remember rule mark outcome).memo = state.memo.insert rule mark outcome := rfl

@[simp] theorem reset_cursor (mark : Nat) : (state.reset mark).cursor = mark := by
  unfold reset
  split <;> rfl
@[simp] theorem reset_memo (mark : Nat) : (state.reset mark).memo = state.memo := by
  unfold reset
  split <;> rfl
@[simp] theorem reset_furthest (mark : Nat) : (state.reset mark).furthest = state.furthest := by
  unfold reset
  split <;> rfl

end State

/-- Properties of states that neither moving the cursor, nor noting an event, nor
matching a token can break. -/
structure Lasting (holds : State grammar -> Prop) : Prop where
  moveTo : ∀ {state} mark, holds state -> holds (state.moveTo mark)
  log : ∀ {state} event, holds state -> holds (state.log event)
  consume : ∀ {state}, holds state -> holds state.consume

/-- What never holds lasts. -/
theorem Lasting.never : Lasting fun _ : State grammar => False :=
  ⟨fun _ held => held, fun _ held => held, fun held => held⟩

/-- What lasts outlives a reset: moving about and noting a backtrack. -/
theorem Lasting.reset {holds : State grammar -> Prop} (lasting : Lasting holds)
    {state : State grammar} (mark : Nat) (held : holds state) : holds (state.reset mark) := by
  unfold State.reset
  split
  · exact lasting.log _ (lasting.moveTo mark held)
  · exact lasting.moveTo mark held

/-- A run keeps a property if the property holds after it whenever it held before. -/
def Run.Keeps (holds : State grammar -> Prop) (run : Run grammar Result) : Prop :=
  ∀ state, holds state -> holds (run state).2

namespace Run.Keeps

variable {holds : State grammar -> Prop} {run : Run grammar Result}

/-- A sequence keeps what both runs keep. -/
theorem andThen {Next : Type} {next : Result -> Run grammar Next} (first : run.Keeps holds)
    (second : ∀ value, (next value).Keeps holds) : (run.andThen next).Keeps holds := by
  intro state held
  have between := first state held
  unfold Run.andThen
  generalize run state = ended at between ⊢
  obtain ⟨outcome, reached⟩ := ended
  cases outcome with
  | success value => exact second value reached between
  | failure | fatal | unfinished => exact between

/-- A token is consumed or it is not. -/
theorem expect (lasting : Lasting holds) (setup : Setup) (matcher : Matcher) :
    (Run.expect setup matcher).Keeps holds := by
  intro state held
  unfold Run.expect
  split
  · exact held
  · split
    · exact lasting.consume held
    · exact held

/-- The second alternative begins where the first one has begun. -/
theorem orElse (lasting : Lasting holds) {other : Run grammar Result} (first : run.Keeps holds)
    (second : other.Keeps holds) : (run.orElse other).Keeps holds := by
  intro state held
  have between := first state held
  unfold Run.orElse
  generalize run state = ended at between ⊢
  obtain ⟨outcome, reached⟩ := ended
  cases outcome with
  | failure => exact second _ (lasting.reset state.cursor between)
  | success | fatal | unfinished => exact between

/-- A repetition keeps what its item keeps, and the last attempt is undone. -/
theorem repeated (lasting : Lasting holds) (item : run.Keeps holds) (bound : Nat) :
    (Run.repeated run bound).Keeps holds := by
  induction bound with
  | zero => exact fun _ held => held
  | succ bound inductionHypothesis =>
      intro state held
      have between := item state held
      unfold Run.repeated
      generalize run state = ended at between ⊢
      obtain ⟨outcome, reached⟩ := ended
      cases outcome with
      | success value =>
          simp only
          split
          · exact andThen inductionHypothesis (fun _ _ later => later) reached between
          · exact lasting.reset state.cursor between
      | failure => exact lasting.reset state.cursor between
      | fatal | unfinished => exact between

/-- A lookahead keeps what it looks at. -/
theorem lookahead (lasting : Lasting holds) (positive : Bool) (ahead : run.Keeps holds) :
    (Run.lookahead positive run).Keeps holds := by
  intro state held
  have between := ahead state held
  unfold Run.lookahead
  generalize run state = ended at between ⊢
  obtain ⟨outcome, reached⟩ := ended
  cases outcome with
  | success | failure => exact lasting.moveTo state.cursor between
  | fatal | unfinished => exact between

/-- A refusal only notes that it happens. -/
theorem force (lasting : Lasting holds) (setup : Setup) (expected : String)
    (inner : run.Keeps holds) : (Run.force setup expected run).Keeps holds := by
  intro state held
  have between := inner state held
  unfold Run.force
  generalize run state = ended at between ⊢
  obtain ⟨outcome, reached⟩ := ended
  cases outcome with
  | failure => exact lasting.log _ between
  | success | fatal | unfinished => exact between

/-- So does the building of a node. -/
theorem build (lasting : Lasting holds) {Target : Type} (type : String)
    (make : Result -> Except NodeError Target) (value : Result) :
    (Run.build type make value : Run grammar Target).Keeps holds := by
  intro state held
  unfold Run.build
  split <;> exact lasting.log _ held

/-- So does the rejection of a run that does not reach the end. -/
theorem toEnd (lasting : Lasting holds) (setup : Setup) (inner : run.Keeps holds) :
    (run.toEnd setup).Keeps holds := by
  intro state held
  have between := inner state held
  unfold Run.toEnd
  generalize run state = ended at between ⊢
  obtain ⟨outcome, reached⟩ := ended
  cases outcome with
  | success value =>
      simp only
      split
      · exact between
      · exact lasting.log _ between
  | failure => exact lasting.log _ between
  | fatal | unfinished => exact between

end Run.Keeps

/-- An expression keeps what all calls keep. -/
theorem Expression.run_keeps {holds : State grammar -> Prop} (lasting : Lasting holds)
    (setup : Setup) {callRule : (rule : grammar.Rule) -> Run grammar (grammar.Value rule)}
    (calls : ∀ rule, (callRule rule).Keeps holds) (bound : Nat)
    (expression : Expression grammar.Rule grammar.Value Result) :
    (expression.run setup callRule bound).Keeps holds := by
  induction expression with
  | token matcher => exact .expect lasting setup matcher
  | succeed | fail => exact fun _ held => held
  | skip distance => exact fun state held => lasting.reset _ held
  | both _ _ first second =>
      exact first.andThen fun _ => second.andThen fun _ _ held => held
  | choice _ _ first second => exact .orElse lasting first second
  | many _ item => exact .repeated lasting item bound
  | look positive _ ahead =>
      exact (Run.Keeps.lookahead lasting positive ahead).andThen fun _ _ held => held
  | force _ expected inner => exact .force lasting setup expected inner
  | map _ _ inner => exact inner.andThen fun _ _ held => held
  | build type make _ inner => exact inner.andThen (.build lasting type make)
  | call rule => exact calls rule

/-- Remembering a new outcome of a rule does not break a property: a new one where none was
remembered while the property held. -/
def State.Recordable (holds : State grammar -> Prop) (rule : grammar.Rule) : Prop :=
  ∀ {start}, holds start -> start.memo.find? (grammar.name rule) start.cursor = none ->
    ∀ {later : State grammar} outcome, holds later ->
      holds (later.remember (grammar.name rule) start.cursor outcome)

/-- The state remembers all that a store remembers, and has come as far as a mark. -/
def State.Beyond (base : MemoStore grammar.Stored) (mark : Nat)
    (state : State grammar) : Prop :=
  state.memo.Extends base ∧ mark ≤ state.furthest

namespace State.Beyond

variable {base : MemoStore grammar.Stored} {mark : Nat}
  {state : State grammar}

/-- What was remembered before lasts. -/
theorem lasting : Lasting (State.Beyond base mark) where
  moveTo _ held := held
  log _ held := held
  consume held := ⟨held.1, Nat.le_trans held.2 (Nat.le_max_left _ _)⟩

/-- An outcome may be remembered where nothing was remembered before. -/
theorem recordable (rule : grammar.Rule) : State.Recordable (State.Beyond base mark) rule := by
  intro start held missing later outcome kept
  exact ⟨kept.1.insert outcome (held.1.find?_eq_none missing), kept.2⟩

end State.Beyond

namespace Run

section Replay

variable {rule : grammar.Rule} {state : State grammar}

/-- Where nothing is remembered, nothing is replayed. -/
theorem replay?_of_missing
    (missing : state.memo.find? (grammar.name rule) state.cursor = none) :
    replay? rule state = none := by
  simp [replay?, missing]

/-- A remembered failure is replayed. -/
theorem replay?_of_failure
    (found : state.memo.find? (grammar.name rule) state.cursor = some .failure) :
    replay? rule state =
      some (.failure, state.log (.memoHit (grammar.name rule) state.cursor)) := by
  simp [replay?, found]

/-- A remembered success is replayed if its value is of the type that is asked for. -/
theorem replay?_of_success {value : grammar.Value rule} {stop : Nat}
    (found : state.memo.find? (grammar.name rule) state.cursor =
      some (.success ⟨grammar.tag rule, value⟩ stop)) :
    replay? rule state = some (.success value,
      (state.log (.memoHit (grammar.name rule) state.cursor)).moveTo stop) := by
  simp [replay?, found]

/-- A value of another type ends the parse. -/
theorem replay?_of_other {tag : grammar.Tag} {value : grammar.Content tag} {stop : Nat}
    (found : state.memo.find? (grammar.name rule) state.cursor =
      some (.success ⟨tag, value⟩ stop)) (different : tag ≠ grammar.tag rule) :
    replay? rule state =
      some (.fatal (.internal (.otherType (grammar.name rule))), state) := by
  simp [replay?, found, grammar.downcast?_of_ne value different]

/-- What replaying a rule comes to, by what is remembered of it under the cursor. -/
inductive Replays (rule : grammar.Rule) (state : State grammar) :
    Option (Outcome (grammar.Value rule) × State grammar) -> Prop where
  | missing (missing : state.memo.find? (grammar.name rule) state.cursor = none) :
      Replays rule state none
  | failure (found : state.memo.find? (grammar.name rule) state.cursor = some .failure) :
      Replays rule state
        (some (.failure, state.log (.memoHit (grammar.name rule) state.cursor)))
  | success {value : grammar.Value rule} {stop : Nat}
      (found : state.memo.find? (grammar.name rule) state.cursor =
        some (.success ⟨grammar.tag rule, value⟩ stop)) :
      Replays rule state (some (.success value,
        (state.log (.memoHit (grammar.name rule) state.cursor)).moveTo stop))
  /-- A value of another type is remembered under the name of the rule. -/
  | other {tag : grammar.Tag} {value : grammar.Content tag} {stop : Nat}
      (found : state.memo.find? (grammar.name rule) state.cursor =
        some (.success ⟨tag, value⟩ stop)) (different : tag ≠ grammar.tag rule) :
      Replays rule state (some (.fatal (.internal (.otherType (grammar.name rule))), state))

/-- These are all the ways in which a rule is replayed. -/
theorem replays (rule : grammar.Rule) (state : State grammar) :
    Replays rule state (replay? rule state) := by
  cases found : state.memo.find? (grammar.name rule) state.cursor with
  | none =>
      rw [replay?_of_missing found]
      exact .missing found
  | some outcome =>
      cases outcome with
      | failure =>
          rw [replay?_of_failure found]
          exact .failure found
      | success stored stop =>
          obtain ⟨tag, value⟩ := stored
          by_cases same : tag = grammar.tag rule
          · subst same
            rw [replay?_of_success found]
            exact .success found
          · rw [replay?_of_other found same]
            exact .other found same

/-- So one of them applies to what is replayed. -/
theorem replays_of_hit {replayed : Option (Outcome (grammar.Value rule) × State grammar)}
    (hit : replay? rule state = replayed) : Replays rule state replayed :=
  hit ▸ replays rule state

/-- Only a rule without a remembered outcome is not replayed. -/
theorem replay?_eq_none_iff :
    replay? rule state = none ↔ state.memo.find? (grammar.name rule) state.cursor = none := by
  refine ⟨fun miss => ?_, replay?_of_missing⟩
  cases replays_of_hit miss with
  | missing missing => exact missing

/-- Replaying leaves all but the cursor and the events as it was. -/
theorem replay?_keeps {holds : State grammar -> Prop} (lasting : Lasting holds)
    (held : holds state) {replayed : Outcome (grammar.Value rule) × State grammar}
    (hit : replay? rule state = some replayed) : holds replayed.2 := by
  cases replays_of_hit hit with
  | failure => exact lasting.log _ held
  | success => exact lasting.moveTo _ (lasting.log _ held)
  | other => exact held

end Replay

section Rules

variable {holds : State grammar -> Prop} {rule : grammar.Rule}
  {body : Run grammar (grammar.Value rule)}

/-- Memoizing a rule keeps what its expression keeps, if an outcome may be remembered. -/
theorem memoized_keeps (lasting : Lasting holds) (recordable : State.Recordable holds rule)
    (setup : Setup) (inner : body.Keeps holds) : (memoized setup rule body).Keeps holds := by
  intro state held
  unfold memoized
  split
  · split
    · rename_i replayed hit
      exact replay?_keeps lasting held hit
    · rename_i miss
      have remember := fun {later : State grammar} outcome =>
        @recordable state held (replay?_eq_none_iff.1 miss) later outcome
      have between := inner _ (lasting.log (.entered (grammar.name rule) state.cursor)
        (lasting.log (.memoMissed (grammar.name rule) state.cursor false) held))
      simp only
      split
      · rename_i value reached ended
        rw [ended] at between
        exact remember _ between
      · rename_i reached ended
        rw [ended] at between
        exact remember _ (lasting.moveTo state.cursor between)
      · exact between
  · exact inner _ (lasting.log _ held)

/-- Growing a rule keeps what its expression keeps, whatever the round that is remembered. -/
theorem grow_keeps (lasting : Lasting holds) (inner : body.Keeps holds) {start : Nat}
    (remember : ∀ {later : State grammar} outcome, holds later ->
      holds (later.remember (grammar.name rule) start outcome)) (bound : Nat)
    (accepted : Option (grammar.Value rule × Nat)) :
    (grow rule body start bound accepted).Keeps holds := by
  have entered : ∀ {state}, holds state -> holds (body (state.enter rule start)).2 :=
    fun held => inner _ (lasting.log _ (lasting.moveTo start held))
  refine grow_induction (motive := fun _ _ state ended => holds state -> holds ended.2)
    ?_ ?_ ?_ ?_ ?_ bound accepted
  · exact fun _ _ held => held
  · exact fun _ _ _ _ _ _ _ later held => later (remember _ (lasting.log _ (entered held)))
  · exact fun _ _ _ held => lasting.moveTo _ (entered held)
  · exact fun _ _ _ _ _ held => lasting.moveTo _ (entered held)
  · exact fun _ _ _ _ held => entered held

/-- So does a left-recursive rule, whose first outcome is a failure. -/
theorem leftRecursive_keeps (lasting : Lasting holds) (recordable : State.Recordable holds rule)
    (setup : Setup) (inner : body.Keeps holds) : (leftRecursive setup rule body).Keeps holds := by
  intro state held
  have remember := fun (miss : replay? rule state = none) {later : State grammar} outcome =>
    @recordable state held (replay?_eq_none_iff.1 miss) later outcome
  have seeded : replay? rule state = none -> holds (state.seed rule) :=
    fun miss => remember miss .failure (lasting.log _ held)
  exact leftRecursive_cases (fun _ hit => replay?_keeps lasting held hit)
    (fun miss _ => seeded miss)
    (fun miss _ => grow_keeps lasting inner (remember miss) _ none _ (seeded miss))

/-- So does a rule in any mode. -/
theorem inMode_keeps (lasting : Lasting holds) (recordable : State.Recordable holds rule)
    (setup : Setup) (inner : body.Keeps holds) : (inMode setup rule body).Keeps holds := by
  unfold inMode
  split
  · exact inner
  · exact memoized_keeps lasting recordable setup inner
  · exact leftRecursive_keeps lasting recordable setup inner

end Rules

end Run

namespace Grammar

/-- Rules keep what neither moving about nor remembering outcomes can break. -/
theorem runRule_keeps {holds : State grammar -> Prop} (lasting : Lasting holds)
    (recordable : ∀ rule, State.Recordable holds rule) (setup : Setup) (bound : Nat)
    (rule : grammar.Rule) : (grammar.runRule setup bound rule).Keeps holds := by
  induction bound generalizing rule with
  | zero => exact fun _ held => held
  | succ bound inductionHypothesis =>
      exact Run.inMode_keeps lasting (recordable rule) setup
        (Expression.run_keeps lasting setup inductionHypothesis bound _)

/-- No rule gives up an outcome that was remembered before. -/
theorem runRule_beyond (setup : Setup)
    (base : MemoStore grammar.Stored) (low bound : Nat)
    (rule : grammar.Rule) :
    (grammar.runRule setup bound rule).Keeps (State.Beyond base low) :=
  grammar.runRule_keeps State.Beyond.lasting State.Beyond.recordable setup bound rule

/-- The state after a rule extends the one before it. -/
theorem runRule_extends (setup : Setup) (bound : Nat) (rule : grammar.Rule)
    (state : State grammar) :
    (grammar.runRule setup bound rule state).2.Beyond state.memo state.furthest :=
  grammar.runRule_beyond setup state.memo state.furthest bound rule state ⟨.refl _, Nat.le_refl _⟩

end Grammar

end KiwiFront.Peg
