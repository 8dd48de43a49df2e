import KiwiFront.Peg.Spelling
import KiwiFront.Proofs.Peg.Progress

/-!
# What is read is spelled

A grammar without jumps reads nothing but what it spells: between the mark where a rule
begins and the one where it succeeds lie tokens that spell the value it succeeds with.
Whatever is remembered has to be of that kind for it, and stays so.
-/

namespace KiwiFront.Peg

variable {grammar : Grammar} {Result : Type}

/-- The tokens from one mark up to another. -/
def Buffer.slice (buffer : Buffer) (first last : Nat) : List Token :=
  (buffer.tokens.toList.drop first).take (last - first)

namespace Buffer

variable {buffer : Buffer} {first middle last : Nat}

/-- The empty range holds no token. -/
theorem slice_self : buffer.slice first first = [] := by
  rw [slice, Nat.sub_self, List.take_zero]

/-- Two adjacent ranges of the buffer make one. -/
theorem slice_append (before : first ≤ middle) (after : middle ≤ last) :
    buffer.slice first middle ++ buffer.slice middle last = buffer.slice first last := by
  unfold slice
  have split : last - first = (middle - first) + (last - middle) := by omega
  have moved : buffer.tokens.toList.drop middle =
      (buffer.tokens.toList.drop first).drop (middle - first) := by
    rw [List.drop_drop, show first + (middle - first) = middle by omega]
  rw [split, moved, List.take_add]

/-- A range of length one holds the token at its mark. -/
theorem slice_succ {token : Token} (here : buffer.tokens[first]? = some token) :
    buffer.slice first (first + 1) = [token] := by
  have ahead : buffer.tokens.toList[first]? = some token := by
    rw [Array.getElem?_toList]
    exact here
  rw [slice, Nat.add_sub_cancel_left, List.take_one, List.head?_drop, ahead]
  rfl

end Buffer

/-- Every value that a rule would replay is spelled by the tokens that it stands for. -/
def State.Justified (setup : Setup) (state : State grammar) : Prop :=
  ∀ rule mark value stop,
    state.memo.find? (grammar.name rule) mark = some (.success ⟨grammar.tag rule, value⟩ stop) ->
      mark ≤ stop ∧ grammar.Spells setup.keywords rule value (setup.buffer.slice mark stop)

namespace State.Justified

variable {setup : Setup} {state : State grammar}

/-- A stored failure has no tokens to spell. -/
theorem rememberFailure (justified : state.Justified setup) (name : String) (mark : Nat) :
    (state.remember name mark .failure).Justified setup := by
  intro other place value stop found
  rw [State.remember_memo, MemoStore.find?_insert] at found
  split at found
  · cases found
  · exact justified other place value stop found

/-- Names tell rules apart, so that no other rule replays what a rule remembers. -/
theorem rememberSuccess
    (injective : ∀ rule other, grammar.name rule = grammar.name other -> rule = other)
    (justified : state.Justified setup) {mark stop : Nat} {rule : grammar.Rule}
    {value : grammar.Value rule} (forward : mark ≤ stop)
    (spelled : grammar.Spells setup.keywords rule value (setup.buffer.slice mark stop)) :
    (state.remember (grammar.name rule) mark
      (.success ⟨grammar.tag rule, value⟩ stop)).Justified setup := by
  intro other place kept last found
  rw [State.remember_memo, MemoStore.find?_insert] at found
  split at found
  · rename_i same
    obtain rfl := injective other rule same.1
    cases found
    rw [same.2]
    exact ⟨forward, spelled⟩
  · exact justified other place kept last found

end State.Justified

/-- A run reads values by tokens that spell them, wherever what is remembered is justified,
and remembers nothing else. -/
def Run.Sound (setup : Setup) (spelled : Result -> List Token -> Prop)
    (run : Run grammar Result) : Prop :=
  ∀ state, state.Justified setup -> (run state).2.Justified setup ∧
    ∀ value, (run state).1 = .success value -> state.cursor ≤ (run state).2.cursor ∧
      spelled value (setup.buffer.slice state.cursor (run state).2.cursor)

namespace Run.Sound

variable {setup : Setup} {spelled alsoSpelled : Result -> List Token -> Prop}
  {run : Run grammar Result}

/-- A run that spells by one relation spells by every wider one. -/
theorem mono (sound : run.Sound setup spelled)
    (included : ∀ value tokens, spelled value tokens -> alsoSpelled value tokens) :
    run.Sound setup alsoSpelled := by
  intro state justified
  obtain ⟨kept, read⟩ := sound state justified
  refine ⟨kept, fun value succeeded => ?_⟩
  obtain ⟨forward, here⟩ := read value succeeded
  exact ⟨forward, included value _ here⟩

/-- A step that moves nothing spells the empty sequence. -/
theorem inPlace (value : Result) :
    Run.Sound setup (fun read tokens => value = read ∧ tokens = [])
      fun state : State grammar => (.success value, state) := by
  intro state justified
  refine ⟨justified, ?_⟩
  rintro _ ⟨⟩
  exact ⟨Nat.le_refl _, rfl, Buffer.slice_self⟩

/-- Sequencing spells the tokens of the first step followed by those of the second. -/
theorem andThen {Next : Type} {next : Result -> Run grammar Next}
    {spelledNext : Result -> Next -> List Token -> Prop}
    (first : run.Sound setup spelled)
    (second : ∀ value, (next value).Sound setup (spelledNext value)) :
    (run.andThen next).Sound setup fun last tokens =>
      ∃ value left right, tokens = left ++ right ∧ spelled value left ∧
        spelledNext value last right := by
  intro state justified
  obtain ⟨kept, read⟩ := first state justified
  unfold Run.andThen
  generalize run state = ended at kept read ⊢
  obtain ⟨outcome, reached⟩ := ended
  cases outcome with
  | success value =>
      obtain ⟨forward, here⟩ := read value rfl
      obtain ⟨keptLater, readLater⟩ := second value reached kept
      refine ⟨keptLater, fun last succeeded => ?_⟩
      obtain ⟨forwardLater, later⟩ := readLater last succeeded
      exact ⟨Nat.le_trans forward forwardLater, value, _, _,
        (Buffer.slice_append forward forwardLater).symm, here, later⟩
  | failure | fatal | unfinished => exact ⟨kept, nofun⟩

/-- What follows in place reads nothing more. -/
theorem andThen_inPlace {Next : Type} {next : Result -> Run grammar Next}
    {becomes : Result -> Next -> Prop} (first : run.Sound setup spelled)
    (second : ∀ value, (next value).Sound setup fun last tokens =>
      becomes value last ∧ tokens = []) :
    (run.andThen next).Sound setup fun last tokens =>
      ∃ value, becomes value last ∧ spelled value tokens := by
  refine (first.andThen second).mono ?_
  rintro last _ ⟨value, left, right, rfl, here, became, rfl⟩
  rw [List.append_nil]
  exact ⟨value, became, here⟩

/-- A matched token spells itself. -/
theorem expect (matcher : Matcher) :
    (Run.expect setup matcher : Run grammar Token).Sound setup fun token tokens =>
      matcher.accepts setup.keywords token = true ∧ tokens = [token] := by
  intro state justified
  unfold Run.expect
  split
  · exact ⟨justified, fun _ => nofun⟩
  · rename_i token here
    split
    · rename_i accepted
      refine ⟨justified, ?_⟩
      rintro _ ⟨⟩
      exact ⟨Nat.le_succ _, accepted, Buffer.slice_succ here⟩
    · exact ⟨justified, fun _ => nofun⟩

/-- Ordered choice spells by either of its alternatives. -/
theorem orElse {other : Run grammar Result} (first : run.Sound setup spelled)
    (second : other.Sound setup alsoSpelled) :
    (run.orElse other).Sound setup fun value tokens =>
      spelled value tokens ∨ alsoSpelled value tokens := by
  intro state justified
  obtain ⟨kept, read⟩ := first state justified
  unfold Run.orElse
  generalize run state = ended at kept read ⊢
  obtain ⟨outcome, reached⟩ := ended
  cases outcome with
  | success value =>
      refine ⟨kept, fun last succeeded => ?_⟩
      obtain ⟨forward, here⟩ := read last succeeded
      exact ⟨forward, .inl here⟩
  | failure =>
      have keptHere : (reached.reset state.cursor).Justified setup := by
        unfold State.Justified
        rw [State.reset_memo]
        exact kept
      have later := second _ keptHere
      rw [State.reset_cursor] at later
      exact ⟨later.1, fun last succeeded =>
        ⟨(later.2 last succeeded).1, .inr (later.2 last succeeded).2⟩⟩
  | fatal | unfinished => exact ⟨kept, nofun⟩

/-- Repetition spells its items one after the other, by induction on the bound. -/
theorem repeated (item : run.Sound setup spelled) (bound : Nat) :
    (Run.repeated run bound).Sound setup (SpellsEach spelled) := by
  induction bound with
  | zero => exact fun _ justified => ⟨justified, by rintro _ ⟨⟩⟩
  | succ bound inductionHypothesis =>
      intro state justified
      obtain ⟨kept, read⟩ := item state justified
      unfold Run.repeated
      generalize run state = ended at kept read ⊢
      obtain ⟨outcome, reached⟩ := ended
      -- The last attempt is undone, whether it failed or led nowhere.
      have undone : (reached.reset state.cursor).Justified setup ∧
          ∀ values : List Result, Outcome.success ([] : List Result) = .success values ->
            state.cursor ≤ (reached.reset state.cursor).cursor ∧
              SpellsEach spelled values
                (setup.buffer.slice state.cursor (reached.reset state.cursor).cursor) := by
        rw [State.reset_cursor, Buffer.slice_self]
        unfold State.Justified
        rw [State.reset_memo]
        refine ⟨kept, ?_⟩
        rintro _ ⟨⟩
        exact ⟨Nat.le_refl _, .none⟩
      cases outcome with
      | success value =>
          obtain ⟨forward, here⟩ := read value rfl
          simp only
          split
          · have rest := inductionHypothesis.andThen_inPlace
              (fun values => inPlace (value :: values)) reached kept
            refine ⟨rest.1, fun last succeeded => ?_⟩
            obtain ⟨forwardLater, values, rfl, later⟩ := rest.2 last succeeded
            refine ⟨Nat.le_trans forward forwardLater, ?_⟩
            rw [← Buffer.slice_append forward forwardLater]
            exact .more here later
          · exact undone
      | failure => exact undone
      | fatal | unfinished => exact ⟨kept, by rintro _ ⟨⟩⟩

/-- A lookahead guard consumes nothing, so it spells the empty sequence. -/
theorem look (positive : Bool) (ahead : run.Sound setup spelled) :
    ((Run.lookahead positive run).andThen Run.guard).Sound setup fun _ tokens => tokens = [] := by
  intro state justified
  obtain ⟨kept, _⟩ := ahead state justified
  unfold Run.andThen Run.lookahead Run.guard
  generalize run state = ended at kept ⊢
  obtain ⟨outcome, reached⟩ := ended
  cases outcome with
  | success | failure => exact ⟨kept, fun _ _ => ⟨Nat.le_refl _, Buffer.slice_self⟩⟩
  | fatal | unfinished => exact ⟨kept, nofun⟩

/-- Forcing turns a failure into an error and leaves every success as it is. -/
theorem force (expected : String) (inner : run.Sound setup spelled) :
    (Run.force setup expected run).Sound setup spelled := by
  intro state justified
  obtain ⟨kept, read⟩ := inner state justified
  unfold Run.force
  generalize run state = ended at kept read ⊢
  obtain ⟨outcome, reached⟩ := ended
  cases outcome with
  | success value => exact ⟨kept, read⟩
  | failure => exact ⟨kept, nofun⟩
  | fatal | unfinished => exact ⟨kept, nofun⟩

/-- Building consumes nothing and delivers what the constructor made. -/
theorem build {Target : Type} (type : String) (make : Result -> Except NodeError Target)
    (value : Result) :
    (Run.build type make value : Run grammar Target).Sound setup fun node tokens =>
      make value = .ok node ∧ tokens = [] := by
  intro state justified
  unfold Run.build
  cases made : make value with
  | ok node =>
      refine ⟨justified, ?_⟩
      rintro _ ⟨⟩
      exact ⟨Nat.le_refl _, rfl, Buffer.slice_self⟩
  | error cause => exact ⟨justified, nofun⟩

end Run.Sound

/-- An expression without jumps reads what it spells, if its calls do. -/
theorem Expression.run_sound {setup : Setup}
    {callRule : (rule : grammar.Rule) -> Run grammar (grammar.Value rule)}
    {ofRule : (rule : grammar.Rule) -> grammar.Value rule -> List Token -> Prop}
    (calls : ∀ rule, (callRule rule).Sound setup (ofRule rule)) (bound : Nat)
    (expression : Expression grammar.Rule grammar.Value Result) (jumpless : expression.Jumpless) :
    (expression.run setup callRule bound).Sound setup
      (expression.Spells setup.keywords ofRule) := by
  induction expression with
  | token matcher => exact .expect matcher
  | succeed value =>
      refine (Run.Sound.inPlace value).mono ?_
      rintro _ _ ⟨rfl, rfl⟩
      exact ⟨rfl, rfl⟩
  | fail => exact fun _ justified => ⟨justified, nofun⟩
  | skip distance => exact jumpless.elim
  | both _ _ first second =>
      refine ((first jumpless.1).andThen fun left =>
        (second jumpless.2).andThen_inPlace fun right => .inPlace (left, right)).mono ?_
      rintro _ _ ⟨left, before, after, rfl, here, right, rfl, there⟩
      exact ⟨before, after, rfl, here, there⟩
  | choice _ _ first second => exact (first jumpless.1).orElse (second jumpless.2)
  | many _ item => exact (item jumpless).repeated bound
  | look positive _ ahead => exact (ahead jumpless).look positive
  | force _ expected inner => exact (inner jumpless).force expected
  | map change _ inner =>
      exact (inner jumpless).andThen_inPlace fun value => .inPlace (change value)
  | build type make _ inner => exact (inner jumpless).andThen_inPlace (.build type make)
  | call rule => exact calls rule

namespace Run.Sound

variable {setup : Setup} {rule : grammar.Rule} {body : Run grammar (grammar.Value rule)}

/-- A replayed value spells the tokens between the mark and the stored end, since the memo is
justified. -/
theorem replay? {state : State grammar} (justified : state.Justified setup)
    {replayed : Outcome (grammar.Value rule) × State grammar}
    (hit : Run.replay? rule state = some replayed) :
    replayed.2.Justified setup ∧ ∀ value, replayed.1 = .success value ->
      state.cursor ≤ replayed.2.cursor ∧ grammar.Spells setup.keywords rule value
        (setup.buffer.slice state.cursor replayed.2.cursor) := by
  cases replays_of_hit hit with
  | failure | other => exact ⟨justified, fun _ => nofun⟩
  | success found =>
      refine ⟨justified, ?_⟩
      rintro _ ⟨⟩
      exact justified _ _ _ _ found

variable (injective : ∀ rule other, grammar.name rule = grammar.name other -> rule = other)
include injective

/-- A memoized rule spells by the grammar's own relation whether it replays or evaluates. -/
theorem memoized (inner : body.Sound setup (grammar.Spells setup.keywords rule)) :
    (Run.memoized setup rule body).Sound setup (grammar.Spells setup.keywords rule) := by
  intro state justified
  unfold Run.memoized
  split
  · split
    · rename_i replayed hit
      exact replay? justified hit
    · obtain ⟨kept, read⟩ := inner ((state.log (.memoMissed (grammar.name rule) state.cursor
        false)).log (.entered (grammar.name rule) state.cursor)) justified
      simp only
      generalize body _ = ended at kept read ⊢
      obtain ⟨outcome, reached⟩ := ended
      cases outcome with
      | success value =>
          obtain ⟨forward, spelled⟩ := read value rfl
          refine ⟨kept.rememberSuccess injective forward spelled, ?_⟩
          rintro _ ⟨⟩
          exact ⟨forward, spelled⟩
      | failure =>
          have keptHere : (reached.moveTo state.cursor).Justified setup := kept
          exact ⟨keptHere.rememberFailure _ _, fun _ => nofun⟩
      | fatal | unfinished => exact ⟨kept, fun _ => nofun⟩
  · exact inner (state.log _) justified

/-- What a growing rule has accepted last is spelled by the tokens up to its end. -/
theorem grow (inner : body.Sound setup (grammar.Spells setup.keywords rule)) {start : Nat}
    (bound : Nat) (accepted : Option (grammar.Value rule × Nat))
    (sound : ∀ value stop, accepted = some (value, stop) -> start ≤ stop ∧
      grammar.Spells setup.keywords rule value (setup.buffer.slice start stop))
    {state : State grammar} (justified : state.Justified setup) :
    (Run.grow rule body start bound accepted state).2.Justified setup ∧
      ∀ value, (Run.grow rule body start bound accepted state).1 = .success value ->
        start ≤ (Run.grow rule body start bound accepted state).2.cursor ∧
          grammar.Spells setup.keywords rule value (setup.buffer.slice start
            (Run.grow rule body start bound accepted state).2.cursor) := by
  refine grow_induction
    (motive := fun _ accepted state ended =>
      (∀ value stop, accepted = some (value, stop) -> start ≤ stop ∧
        grammar.Spells setup.keywords rule value (setup.buffer.slice start stop)) ->
      state.Justified setup -> ended.2.Justified setup ∧
        ∀ value, ended.1 = .success value -> start ≤ ended.2.cursor ∧
          grammar.Spells setup.keywords rule value (setup.buffer.slice start ended.2.cursor))
    ?_ ?_ ?_ ?_ ?_ bound accepted state sound justified
  · exact fun _ _ _ justified => ⟨justified, fun _ => nofun⟩
  · intro _ _ state value _ succeeded _ later _ justified
    obtain ⟨kept, read⟩ := inner (state.enter rule start) justified
    obtain ⟨forward, spelled⟩ := read value succeeded
    have keptHere : ((body (state.enter rule start)).2.log (.grew (grammar.name rule) start
        (body (state.enter rule start)).2.cursor)).Justified setup := kept
    refine later ?_ (keptHere.rememberSuccess injective forward spelled)
    rintro _ _ ⟨⟩
    exact ⟨forward, spelled⟩
  · exact fun _ state _ _ justified =>
      ⟨(inner (state.enter rule start) justified).1, fun _ => nofun⟩
  · intro _ value stop state _ sound justified
    refine ⟨(inner (state.enter rule start) justified).1, ?_⟩
    rintro _ ⟨⟩
    exact sound value stop rfl
  · exact fun _ _ state breaks _ justified => ⟨(inner (state.enter rule start) justified).1,
      fun value succeeded => absurd succeeded (breaks.ne_success value)⟩

/-- Seed growing: every accepted seed spells its tokens, so the next round may replay it as such. -/
theorem leftRecursive (inner : body.Sound setup (grammar.Spells setup.keywords rule)) :
    (Run.leftRecursive setup rule body).Sound setup (grammar.Spells setup.keywords rule) := by
  intro state justified
  have justifiedHere : (state.log (.memoMissed (grammar.name rule) state.cursor
      true)).Justified setup := justified
  have seeded : (state.seed rule).Justified setup := justifiedHere.rememberFailure _ _
  exact leftRecursive_cases (fun _ hit => replay? justified hit)
    (fun _ _ => ⟨seeded, fun _ => nofun⟩) (fun _ _ => grow injective inner _ none nofun seeded)

end Run.Sound

/-- Every rule of a grammar without jumps reads values by the tokens that spell them. -/
theorem Grammar.runRule_sound
    (injective : ∀ rule other, grammar.name rule = grammar.name other -> rule = other)
    (jumpless : ∀ rule, (grammar.body rule).Jumpless) (setup : Setup)
    (bound : Nat) (rule : grammar.Rule) :
    (grammar.runRule setup bound rule).Sound setup (grammar.Spells setup.keywords rule) := by
  induction bound generalizing rule with
  | zero => exact fun _ justified => ⟨justified, fun _ => nofun⟩
  | succ bound inductionHypothesis =>
      have inner := (Expression.run_sound inductionHypothesis bound _ (jumpless rule)).mono
        fun _ _ => Grammar.spells_iff.2
      unfold Grammar.runRule Run.inMode
      split
      · exact inner
      · exact .memoized injective inner
      · exact .leftRecursive injective inner

end KiwiFront.Peg
