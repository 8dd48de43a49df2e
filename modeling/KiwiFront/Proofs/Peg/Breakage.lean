import KiwiFront.Peg.Breakage
import KiwiFront.Proofs.Peg.Soundness

/-!
# How a parse breaks off

A grammar without jumps, whose forced matches leave the cursor in place where they fail,
ends with no other errors than its breakages: between the mark where a rule begins and the
one where it ends fatally lie tokens behind which it breaks off. In particular the parser
never gives up for a reason of its own. What is replayed was remembered by the same rule, as
names tell rules apart, and a growing rule stops before the bound, as it reaches further in
the buffer each time. All marks that are met on the way lie within the buffer.
-/

namespace KiwiFront.Peg

variable {grammar : Grammar} {Result : Type}

/-- All marks of an event lie within a buffer of some size. -/
def Event.Within (size : Nat) : Event -> Prop
  | .memoHit _ mark | .memoMissed _ mark _ | .entered _ mark => mark ≤ size
  | .grew _ start stop => start ≤ size ∧ stop ≤ size
  | .backtracked | .forceFailed _ _ | .parseFailed _ | .schemaAsked _ => True

/-- The cursor, what is remembered and what has happened lie within the buffer, and what is
remembered of a rule is kept under its name and spelled by what the rule has read. -/
structure State.Steady (setup : Setup) (state : State grammar) : Prop where
  cursor : state.cursor ≤ setup.buffer.tokens.size
  owned : ∀ name mark tag value stop,
    state.memo.find? name mark = some (.success ⟨tag, value⟩ stop) ->
      (∃ owner, name = grammar.name owner ∧ tag = grammar.tag owner) ∧
        stop ≤ setup.buffer.tokens.size
  justified : state.Justified setup
  events : ∀ event ∈ state.events, event.Within setup.buffer.tokens.size

namespace State.Steady

variable {setup : Setup} {state : State grammar}

/-- Nothing has happened yet in a new state. -/
theorem initial (setup : Setup) : (State.initial : State grammar).Steady setup where
  cursor := Nat.zero_le _
  owned := fun name mark _ _ _ found => by
    cases (MemoStore.find?_empty name mark).symm.trans found
  justified := fun rule mark _ _ found => by
    cases (MemoStore.find?_empty (grammar.name rule) mark).symm.trans found
  events := fun _ member => (List.not_mem_nil member).elim

/-- Moving within the buffer keeps a state steady. -/
theorem moveTo (steady : state.Steady setup) {mark : Nat}
    (within : mark ≤ setup.buffer.tokens.size) : (state.moveTo mark).Steady setup :=
  ⟨within, steady.owned, steady.justified, steady.events⟩

/-- Logging an event that names a mark within the buffer keeps a state steady. -/
theorem log (steady : state.Steady setup) (event : Event)
    (within : event.Within setup.buffer.tokens.size) : (state.log event).Steady setup :=
  ⟨steady.cursor, steady.owned, steady.justified, List.forall_mem_cons.2 ⟨within, steady.events⟩⟩

/-- A reset within the buffer keeps a state steady. -/
theorem reset (steady : state.Steady setup) {mark : Nat}
    (within : mark ≤ setup.buffer.tokens.size) : (state.reset mark).Steady setup := by
  unfold State.reset
  split
  · exact (steady.moveTo within).log _ trivial
  · exact steady.moveTo within

/-- Reading a token before the end of the buffer keeps a state steady. -/
theorem consume (steady : state.Steady setup)
    (inRange : state.cursor < setup.buffer.tokens.size) : state.consume.Steady setup :=
  ⟨inRange, steady.owned, steady.justified, steady.events⟩

/-- A stored failure spells nothing, so a state stays steady. -/
theorem rememberFailure (steady : state.Steady setup) (name : String) (mark : Nat) :
    (state.remember name mark .failure).Steady setup := by
  refine ⟨steady.cursor, ?_, steady.justified.rememberFailure name mark, steady.events⟩
  intro other place tag value stop found
  rw [State.remember_memo, MemoStore.find?_insert] at found
  split at found
  · cases found
  · exact steady.owned other place tag value stop found

/-- A stored success has to spell its tokens; rule names tell the rules apart, so no other entry
changes. -/
theorem rememberSuccess
    (injective : ∀ rule other, grammar.name rule = grammar.name other -> rule = other)
    (steady : state.Steady setup) {rule : grammar.Rule}
    {value : grammar.Value rule} {mark stop : Nat} (forward : mark ≤ stop)
    (within : stop ≤ setup.buffer.tokens.size)
    (spelled : grammar.Spells setup.keywords rule value (setup.buffer.slice mark stop)) :
    (state.remember (grammar.name rule) mark
      (.success ⟨grammar.tag rule, value⟩ stop)).Steady setup := by
  refine ⟨steady.cursor, ?_, steady.justified.rememberSuccess injective forward spelled,
    steady.events⟩
  intro other place tag read last found
  rw [State.remember_memo, MemoStore.find?_insert] at found
  split at found
  · rename_i same
    cases found
    exact ⟨⟨rule, same.1, rfl⟩, within⟩
  · exact steady.owned other place tag read last found

end State.Steady

/-- An error that comes of a breakage behind the tokens from a mark on. -/
def Setup.BreaksFrom (setup : Setup) (broken : Fault -> List Token -> Prop) (start : Nat)
    (error : ParseError) : Prop :=
  ∃ fault stop, error = fault.errorAt setup stop ∧ start ≤ stop ∧
    stop ≤ setup.buffer.tokens.size ∧ broken fault (setup.buffer.slice start stop)

/-- An error that breaks by one relation breaks by every wider one. -/
theorem Setup.BreaksFrom.mono {setup : Setup} {broken wider : Fault -> List Token -> Prop}
    {start : Nat} {error : ParseError} (breaks : setup.BreaksFrom broken start error)
    (included : ∀ fault tokens, broken fault tokens -> wider fault tokens) :
    setup.BreaksFrom wider start error := by
  obtain ⟨fault, stop, same, after, within, here⟩ := breaks
  exact ⟨fault, stop, same, after, within, included fault _ here⟩

/-- From a steady state a run comes to another one, and its errors are breakages. -/
def Run.BreaksBy (setup : Setup) (broken : Fault -> List Token -> Prop)
    (run : Run grammar Result) : Prop :=
  ∀ state, state.Steady setup -> (run state).2.Steady setup ∧
    ∀ error, (run state).1 = .fatal error -> setup.BreaksFrom broken state.cursor error

namespace Run.BreaksBy

variable {setup : Setup} {broken alsoBroken : Fault -> List Token -> Prop}
  {spelled : Result -> List Token -> Prop} {run : Run grammar Result}

/-- A run that breaks by one relation breaks by every wider one. -/
theorem mono (breaks : run.BreaksBy setup broken)
    (included : ∀ fault tokens, broken fault tokens -> alsoBroken fault tokens) :
    run.BreaksBy setup alsoBroken := by
  intro state steady
  obtain ⟨kept, fatal⟩ := breaks state steady
  exact ⟨kept, fun error failed => (fatal error failed).mono included⟩

/-- The second run breaks off behind what the first one has read. -/
theorem andThen {Next : Type} {next : Result -> Run grammar Next}
    {brokenNext : Result -> Fault -> List Token -> Prop} (first : run.BreaksBy setup broken)
    (sound : run.Sound setup spelled)
    (second : ∀ value, (next value).BreaksBy setup (brokenNext value)) :
    (run.andThen next).BreaksBy setup fun fault tokens => broken fault tokens ∨
      ∃ value left right, tokens = left ++ right ∧ spelled value left ∧
        brokenNext value fault right := by
  intro state steady
  obtain ⟨kept, fatal⟩ := first state steady
  have read := (sound state steady.justified).2
  unfold Run.andThen
  generalize run state = ended at kept fatal read ⊢
  obtain ⟨outcome, reached⟩ := ended
  cases outcome with
  | success value =>
      obtain ⟨forward, here⟩ := read value rfl
      obtain ⟨keptLater, fatalLater⟩ := second value reached kept
      refine ⟨keptLater, fun error failed => ?_⟩
      obtain ⟨fault, stop, same, after, within, later⟩ := fatalLater error failed
      exact ⟨fault, stop, same, Nat.le_trans forward after, within, .inr ⟨value, _, _,
        (Buffer.slice_append forward after).symm, here, later⟩⟩
  | fatal error =>
      refine ⟨kept, ?_⟩
      rintro _ ⟨⟩
      exact (fatal error rfl).mono fun _ _ => .inl
  | failure | unfinished => exact ⟨kept, nofun⟩

/-- What follows in place breaks nothing off. -/
theorem andThen_inPlace {Next : Type} (first : run.BreaksBy setup broken)
    (change : Result -> Next) :
    (run.andThen fun value state => (.success (change value), state)).BreaksBy setup broken := by
  intro state steady
  obtain ⟨kept, fatal⟩ := first state steady
  unfold Run.andThen
  generalize run state = ended at kept fatal ⊢
  obtain ⟨outcome, reached⟩ := ended
  cases outcome with
  | fatal error =>
      refine ⟨kept, ?_⟩
      rintro _ ⟨⟩
      exact fatal error rfl
  | success | failure | unfinished => exact ⟨kept, nofun⟩

/-- Matching a token never ends in an error. -/
theorem expect (matcher : Matcher) :
    (Run.expect setup matcher : Run grammar Token).BreaksBy setup fun _ _ => False := by
  intro state steady
  unfold Run.expect
  split
  · exact ⟨steady, nofun⟩
  · rename_i token here
    split
    · exact ⟨steady.consume (Array.getElem?_eq_some_iff.1 here).1, nofun⟩
    · exact ⟨steady, nofun⟩

/-- Ordered choice breaks by either alternative; the first one's error is never taken back. -/
theorem orElse {other : Run grammar Result} (first : run.BreaksBy setup broken)
    (second : other.BreaksBy setup alsoBroken) :
    (run.orElse other).BreaksBy setup fun fault tokens =>
      broken fault tokens ∨ alsoBroken fault tokens := by
  intro state steady
  obtain ⟨kept, fatal⟩ := first state steady
  unfold Run.orElse
  generalize run state = ended at kept fatal ⊢
  obtain ⟨outcome, reached⟩ := ended
  cases outcome with
  | failure =>
      have later := second _ (kept.reset steady.cursor)
      rw [State.reset_cursor] at later
      exact ⟨later.1, fun error failed => (later.2 error failed).mono fun _ _ => .inr⟩
  | fatal error =>
      refine ⟨kept, ?_⟩
      rintro _ ⟨⟩
      exact (fatal error rfl).mono fun _ _ => .inl
  | success | unfinished => exact ⟨kept, nofun⟩

/-- Repetition breaks in one round behind the items that were read before it. -/
theorem repeated (item : run.BreaksBy setup broken) (sound : run.Sound setup spelled)
    (bound : Nat) :
    (Run.repeated run bound).BreaksBy setup fun fault tokens =>
      ∃ values left right, tokens = left ++ right ∧ SpellsEach spelled values left ∧
        broken fault right := by
  induction bound with
  | zero => exact fun _ steady => ⟨steady, by rintro _ ⟨⟩⟩
  | succ bound inductionHypothesis =>
      intro state steady
      obtain ⟨kept, fatal⟩ := item state steady
      have read := (sound state steady.justified).2
      unfold Run.repeated
      generalize run state = ended at kept fatal read ⊢
      obtain ⟨outcome, reached⟩ := ended
      cases outcome with
      | success value =>
          obtain ⟨forward, here⟩ := read value rfl
          simp only
          split
          · have rest := (inductionHypothesis.andThen_inPlace fun values => value :: values)
              reached kept
            refine ⟨rest.1, fun error failed => ?_⟩
            obtain ⟨fault, stop, same, after, within, values, left, right, split, before, later⟩ :=
              rest.2 error failed
            refine ⟨fault, stop, same, Nat.le_trans forward after, within, value :: values, _,
              right, ?_, .more here before, later⟩
            rw [← Buffer.slice_append forward after, split, List.append_assoc]
          · exact ⟨kept.reset steady.cursor, by rintro _ ⟨⟩⟩
      | fatal error =>
          refine ⟨kept, ?_⟩
          rintro _ ⟨⟩
          exact (fatal error rfl).mono fun _ tokens here => ⟨[], [], tokens, rfl, .none, here⟩
      | failure => exact ⟨kept.reset steady.cursor, by rintro _ ⟨⟩⟩
      | unfinished => exact ⟨kept, by rintro _ ⟨⟩⟩

/-- A lookahead passes its body's error on. -/
theorem look (positive : Bool) (ahead : run.BreaksBy setup broken) :
    ((Run.lookahead positive run).andThen Run.guard).BreaksBy setup broken := by
  intro state steady
  obtain ⟨kept, fatal⟩ := ahead state steady
  unfold Run.andThen Run.lookahead Run.guard
  generalize run state = ended at kept fatal ⊢
  obtain ⟨outcome, reached⟩ := ended
  cases outcome with
  | fatal error =>
      refine ⟨kept, ?_⟩
      rintro _ ⟨⟩
      exact fatal error rfl
  | success | failure =>
      refine ⟨kept.moveTo steady.cursor, fun error failed => ?_⟩
      simp only at failed
      split at failed <;> cases failed
  | unfinished => exact ⟨kept, nofun⟩

/-- A forced match that fails in place is missed behind nothing. -/
theorem force (expected : String) (inner : run.BreaksBy setup broken) (restores : run.Restores) :
    (Run.force setup expected run).BreaksBy setup fun fault tokens =>
      broken fault tokens ∨ (fault = .missing expected ∧ tokens = []) := by
  intro state steady
  obtain ⟨kept, fatal⟩ := inner state steady
  have restored := restores state
  unfold Run.force
  generalize run state = ended at kept fatal restored ⊢
  obtain ⟨outcome, reached⟩ := ended
  cases outcome with
  | failure =>
      refine ⟨kept.log _ trivial, ?_⟩
      rintro _ ⟨⟩
      have here : reached.cursor = state.cursor := restored rfl
      refine ⟨.missing expected, reached.cursor, rfl, Nat.le_of_eq here.symm, kept.cursor,
        .inr ⟨rfl, ?_⟩⟩
      rw [here, Buffer.slice_self]
  | fatal error =>
      refine ⟨kept, ?_⟩
      rintro _ ⟨⟩
      exact (fatal error rfl).mono fun _ _ => .inl
  | success | unfinished => exact ⟨kept, nofun⟩

/-- Building breaks where the constructor refuses its parts. -/
theorem build {Target : Type} (type : String) (make : Result -> Except NodeError Target)
    (value : Result) :
    (Run.build type make value : Run grammar Target).BreaksBy setup fun fault tokens =>
      ∃ cause, make value = .error cause ∧ fault = .unbuildable cause ∧ tokens = [] := by
  intro state steady
  unfold Run.build
  cases made : make value with
  | ok node => exact ⟨steady.log _ trivial, nofun⟩
  | error cause =>
      refine ⟨steady.log _ trivial, ?_⟩
      rintro _ ⟨⟩
      exact ⟨.unbuildable cause, state.cursor, rfl, Nat.le_refl _, steady.cursor, cause, rfl, rfl,
        Buffer.slice_self⟩

end Run.BreaksBy

/-- A run that has to use up the tokens breaks off where it did, or ends at the furthest token
that was reached. -/
theorem Run.BreaksBy.toEnd {setup : Setup} {broken : Fault -> List Token -> Prop}
    {run : Run grammar Result} (inner : run.BreaksBy setup broken) {state : State grammar}
    (steady : state.Steady setup) :
    (run.toEnd setup state).2.Steady setup ∧
      ∀ error, (run.toEnd setup state).1 = .fatal error ->
        setup.BreaksFrom broken state.cursor error ∨
          ∃ mark, error = .invalidSyntax (setup.buffer.clamped mark).start := by
  obtain ⟨kept, fatal⟩ := inner state steady
  unfold Run.toEnd
  generalize run state = ended at kept fatal ⊢
  obtain ⟨outcome, reached⟩ := ended
  cases outcome with
  | success value =>
      simp only
      split
      · exact ⟨kept, fun _ => nofun⟩
      · refine ⟨kept.log _ trivial, ?_⟩
        rintro _ ⟨⟩
        exact .inr ⟨_, rfl⟩
  | failure =>
      refine ⟨kept.log _ trivial, ?_⟩
      rintro _ ⟨⟩
      exact .inr ⟨_, rfl⟩
  | fatal error =>
      refine ⟨kept, ?_⟩
      rintro _ ⟨⟩
      exact .inl (fatal error rfl)
  | unfinished => exact ⟨kept, fun _ => nofun⟩

/-- Whether what an expression forces leaves the cursor in place where it fails. -/
def Expression.ForcesInPlace {Rule : Type} {Value : Rule -> Type} {Result : Type} :
    Expression Rule Value Result -> Prop
  | .token _ | .succeed _ | .fail | .skip _ | .call _ => True
  | .both first second => ForcesInPlace first ∧ ForcesInPlace second
  | .choice first second => ForcesInPlace first ∧ ForcesInPlace second
  | .many item => ForcesInPlace item
  | .look _ ahead => ForcesInPlace ahead
  | .force inner _ => inner.Restoring ∧ ForcesInPlace inner
  | .map _ inner => ForcesInPlace inner
  | .build _ _ inner => ForcesInPlace inner

/-- An expression breaks off as it may, if its calls do. -/
theorem Expression.run_breaksBy {setup : Setup}
    {callRule : (rule : grammar.Rule) -> Run grammar (grammar.Value rule)}
    {spells : (rule : grammar.Rule) -> grammar.Value rule -> List Token -> Prop}
    {ofRule : grammar.Rule -> Fault -> List Token -> Prop}
    (sound : ∀ rule, (callRule rule).Sound setup (spells rule))
    (restores : ∀ rule, (callRule rule).Restores)
    (calls : ∀ rule, (callRule rule).BreaksBy setup (ofRule rule)) (bound : Nat)
    (expression : Expression grammar.Rule grammar.Value Result) (jumpless : expression.Jumpless)
    (inPlace : expression.ForcesInPlace) :
    (expression.run setup callRule bound).BreaksBy setup
      (expression.Breaks setup.keywords spells ofRule) := by
  induction expression with
  | token matcher => exact .expect matcher
  | succeed | fail => exact fun _ steady => ⟨steady, nofun⟩
  | skip distance => exact jumpless.elim
  | both first second firstHypothesis secondHypothesis =>
      exact (firstHypothesis jumpless.1 inPlace.1).andThen
        (first.run_sound sound bound jumpless.1) fun left =>
          (secondHypothesis jumpless.2 inPlace.2).andThen_inPlace fun right => (left, right)
  | choice _ _ firstHypothesis secondHypothesis =>
      exact (firstHypothesis jumpless.1 inPlace.1).orElse (secondHypothesis jumpless.2 inPlace.2)
  | many item inductionHypothesis =>
      exact (inductionHypothesis jumpless inPlace).repeated (item.run_sound sound bound jumpless)
        bound
  | look positive _ inductionHypothesis =>
      exact (inductionHypothesis jumpless inPlace).look positive
  | force inner expected inductionHypothesis =>
      exact (inductionHypothesis jumpless inPlace.2).force expected
        (inner.run_restores setup restores bound inPlace.1)
  | map change _ inductionHypothesis =>
      exact (inductionHypothesis jumpless inPlace).andThen_inPlace change
  | build type make inner inductionHypothesis =>
      refine ((inductionHypothesis jumpless inPlace).andThen
        (inner.run_sound sound bound jumpless) (.build type make)).mono ?_
      rintro fault tokens (here | ⟨source, left, _, rfl, spelled, cause, failed, rfl, rfl⟩)
      · exact .inl here
      · rw [List.append_nil]
        exact .inr ⟨source, cause, failed, rfl, spelled⟩
  | call rule => exact calls rule

namespace Run.BreaksBy

variable {setup : Setup} {rule : grammar.Rule} {body : Run grammar (grammar.Value rule)}

/-- Replaying breaks nothing off: what is kept under the name of a rule is its own. -/
theorem replay? (injective : ∀ rule other, grammar.name rule = grammar.name other -> rule = other)
    {state : State grammar} (steady : state.Steady setup)
    {replayed : Outcome (grammar.Value rule) × State grammar}
    (hit : Run.replay? rule state = some replayed) :
    replayed.2.Steady setup ∧ ∀ error, replayed.1 ≠ .fatal error := by
  have here : (Event.memoHit (grammar.name rule) state.cursor).Within
      setup.buffer.tokens.size := steady.cursor
  cases replays_of_hit hit with
  | failure => exact ⟨steady.log _ here, fun _ => nofun⟩
  | success found =>
      exact ⟨(steady.log _ here).moveTo (steady.owned _ _ _ _ _ found).2, fun _ => nofun⟩
  | other found different =>
      obtain ⟨owner, named, typed⟩ := (steady.owned _ _ _ _ _ found).1
      rw [injective _ _ named] at different
      exact absurd typed different

variable (sound : body.Sound setup (grammar.Spells setup.keywords rule))
  (inner : body.BreaksBy setup (grammar.Breaks setup.keywords rule))
  (injective : ∀ rule other, grammar.name rule = grammar.name other -> rule = other)
include sound inner injective

/-- As long as the bound leaves room for the tokens that the rule has not reached yet, a
growing rule does not run into it. -/
theorem grow {start : Nat} (startWithin : start ≤ setup.buffer.tokens.size) (bound : Nat)
    (accepted : Option (grammar.Value rule × Nat))
    (acceptedWithin : ∀ value stop, accepted = some (value, stop) ->
      stop ≤ setup.buffer.tokens.size)
    (enough : setup.buffer.tokens.size - (accepted.map Prod.snd).getD start < bound)
    {state : State grammar} (steady : state.Steady setup) :
    (Run.grow rule body start bound accepted state).2.Steady setup ∧
      ∀ error, (Run.grow rule body start bound accepted state).1 = .fatal error ->
        setup.BreaksFrom (grammar.Breaks setup.keywords rule) start error := by
  have begins : ∀ {state : State grammar}, state.Steady setup ->
      (state.enter rule start).Steady setup :=
    fun steady => (steady.moveTo startWithin).log _ startWithin
  refine grow_induction
    (motive := fun bound accepted state ended =>
      (∀ value stop, accepted = some (value, stop) -> stop ≤ setup.buffer.tokens.size) ->
      setup.buffer.tokens.size - (accepted.map Prod.snd).getD start < bound ->
      state.Steady setup -> ended.2.Steady setup ∧ ∀ error, ended.1 = .fatal error ->
        setup.BreaksFrom (grammar.Breaks setup.keywords rule) start error)
    ?_ ?_ ?_ ?_ ?_ bound accepted state acceptedWithin enough steady
  · exact fun _ _ _ enough => absurd enough (Nat.not_lt_zero _)
  · intro _ accepted state value _ succeeded further later _ enough steady
    have kept := (inner _ (begins steady)).1
    obtain ⟨forward, spelled⟩ := (sound _ (begins steady).justified).2 value succeeded
    have within : (body (state.enter rule start)).2.cursor ≤ setup.buffer.tokens.size := kept.cursor
    refine later ?_ ?_ ((kept.log (.grew _ _ _) ⟨startWithin, within⟩).rememberSuccess injective
      forward within spelled)
    · rintro _ _ ⟨⟩
      exact within
    · simp only [Option.map_some, Option.getD_some]
      omega
  · exact fun _ _ _ _ _ steady =>
      ⟨(inner _ (begins steady)).1.moveTo startWithin, fun _ => nofun⟩
  · exact fun _ value stop _ _ acceptedWithin _ steady =>
      ⟨(inner _ (begins steady)).1.moveTo (acceptedWithin value stop rfl), fun _ => nofun⟩
  · exact fun _ _ _ _ _ _ steady => inner _ (begins steady)

/-- A memoized rule breaks as its body does, since replays are never errors. -/
theorem memoized :
    (Run.memoized setup rule body).BreaksBy setup (grammar.Breaks setup.keywords rule) := by
  intro state steady
  unfold Run.memoized
  split
  · split
    · rename_i replayed hit
      obtain ⟨kept, never⟩ := replay? injective steady hit
      exact ⟨kept, fun error failed => absurd failed (never error)⟩
    · have begun : ((state.log (.memoMissed (grammar.name rule) state.cursor false)).log
          (.entered (grammar.name rule) state.cursor)).Steady setup :=
        (steady.log (.memoMissed (grammar.name rule) state.cursor false) steady.cursor).log
          (.entered (grammar.name rule) state.cursor) steady.cursor
      obtain ⟨kept, fatal⟩ := inner _ begun
      have read := (sound _ begun.justified).2
      simp only
      generalize body _ = ended at kept fatal read ⊢
      obtain ⟨outcome, reached⟩ := ended
      cases outcome with
      | success value =>
          obtain ⟨forward, spelled⟩ := read value rfl
          exact ⟨kept.rememberSuccess injective forward kept.cursor spelled, fun _ => nofun⟩
      | failure => exact ⟨(kept.moveTo steady.cursor).rememberFailure _ _, fun _ => nofun⟩
      | fatal | unfinished => exact ⟨kept, fatal⟩
  · exact inner _ (steady.log (.entered (grammar.name rule) state.cursor) steady.cursor)

/-- Seed growing breaks as some round of its body does. -/
theorem leftRecursive :
    (Run.leftRecursive setup rule body).BreaksBy setup
      (grammar.Breaks setup.keywords rule) := by
  intro state steady
  have within : state.cursor ≤ setup.buffer.tokens.size := steady.cursor
  have missed : (state.log (.memoMissed (grammar.name rule) state.cursor true)).Steady setup :=
    steady.log _ within
  refine leftRecursive_cases
    (motive := fun ended => ended.2.Steady setup ∧ ∀ error, ended.1 = .fatal error ->
      setup.BreaksFrom (grammar.Breaks setup.keywords rule) state.cursor error)
    (fun _ hit => ?_) (fun _ beyond => ?_) (fun _ _ => ?_)
  · obtain ⟨kept, never⟩ := replay? injective steady hit
    exact ⟨kept, fun error failed => absurd failed (never error)⟩
  · exact absurd within (Nat.not_le_of_lt beyond)
  · refine grow sound inner injective within _ none nofun ?_ (missed.rememberFailure _ _)
    simp only [Option.map_none, Option.getD_none]
    omega

end Run.BreaksBy

/-- Every rule breaks off as it may: a grammar without jumps whose names tell its rules
apart, and whose rules and forced matches leave the cursor in place where they fail. -/
theorem Grammar.runRule_breaksBy
    (injective : ∀ rule other, grammar.name rule = grammar.name other -> rule = other)
    (jumpless : ∀ rule, (grammar.body rule).Jumpless)
    (restoring : ∀ rule, grammar.mode rule ≠ .leftRecursive -> (grammar.body rule).Restoring)
    (inPlace : ∀ rule, (grammar.body rule).ForcesInPlace) (setup : Setup) (bound : Nat)
    (rule : grammar.Rule) :
    (grammar.runRule setup bound rule).BreaksBy setup (grammar.Breaks setup.keywords rule) := by
  induction bound generalizing rule with
  | zero => exact fun _ steady => ⟨steady, fun _ => nofun⟩
  | succ bound inductionHypothesis =>
      have sound := Grammar.runRule_sound injective jumpless setup bound
      have restores := Grammar.runRule_restores restoring setup bound
      have bodySound := (Expression.run_sound sound bound _ (jumpless rule)).mono
        fun _ _ => Grammar.spells_iff.2
      have inner := (Expression.run_breaksBy sound restores inductionHypothesis bound _
        (jumpless rule) (inPlace rule)).mono fun _ _ => Grammar.breaks_of_body
      unfold Grammar.runRule Run.inMode
      split
      · exact inner
      · exact .memoized bodySound inner injective
      · exact .leftRecursive bodySound inner injective

end KiwiFront.Peg
