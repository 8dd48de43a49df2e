import KiwiFront.Proofs.Peg.Progress

/-!
# What lies behind a wall

A token that no expression accepts is a wall: no evaluation gets beyond it, and none can tell
what lies there. Where two buffers agree up to a wall in each of them, every evaluation is the
same in both. Nothing but the size of the buffers could tell them apart, which bounds how often
a rule grows; but no rule grows more often than there are tokens before the wall.
-/

namespace KiwiFront.Peg

variable {grammar : Grammar} {Result : Type}

/-- Whether all tokens that an expression asks for are asked for in some of the ways. -/
def Expression.Asks {Rule : Type} {Value : Rule -> Type} (asked : Matcher -> Prop)
    {Result : Type} : Expression Rule Value Result -> Prop
  | .token matcher => asked matcher
  | .succeed _ | .fail | .skip _ | .call _ => True
  | .both first second => Asks asked first ∧ Asks asked second
  | .choice first second => Asks asked first ∧ Asks asked second
  | .many item => Asks asked item
  | .look _ ahead => Asks asked ahead
  | .force inner _ => Asks asked inner
  | .map _ inner => Asks asked inner
  | .build _ _ inner => Asks asked inner

/-- The token at a mark within the buffer. -/
theorem Buffer.token?_clamped (buffer : Buffer) {mark : Nat} (inRange : mark < buffer.tokens.size) :
    buffer.tokens[mark]? = some (buffer.clamped mark) := by
  have here : min mark (buffer.tokens.size - 1) = mark :=
    Nat.min_eq_left (Nat.le_sub_one_of_lt inRange)
  simp only [Buffer.clamped, here]
  exact Array.getElem?_eq_getElem inRange

/-- A buffer whose tokens are known is read off them. -/
theorem Buffer.clamped_of_tokens {buffer : Buffer} {tokens : List Token}
    (known : buffer.tokens.toList = tokens) {mark : Nat} (inRange : mark < buffer.tokens.size) :
    some (buffer.clamped mark) = tokens[mark]? := by
  rw [← buffer.token?_clamped inRange, ← known, Array.getElem?_toList]

/-- A token with more tokens behind it is not the last one of its buffer. -/
theorem Buffer.lt_size_of_tokens {buffer : Buffer} {front rest : List Token} {token : Token}
    (known : buffer.tokens.toList = front ++ token :: rest) (more : rest ≠ []) :
    front.length + 1 < buffer.tokens.size := by
  have positive := List.length_pos_iff.2 more
  rw [← Array.length_toList, known, List.length_append, List.length_cons]
  omega

/-- Two setups differ only from a mark on, where each of them has a token that is not asked for
and that is not the last one. -/
structure Setup.Walled (asked : Matcher -> Prop) (wall : Nat) (first second : Setup) : Prop where
  keywords : second.keywords = first.keywords
  packrat : second.packrat = first.packrat
  before : ∀ mark, mark < wall -> second.buffer.clamped mark = first.buffer.clamped mark
  start : (second.buffer.clamped wall).start = (first.buffer.clamped wall).start
  refused : ∀ matcher, asked matcher ->
    matcher.accepts first.keywords (first.buffer.clamped wall) = false
  refusedToo : ∀ matcher, asked matcher ->
    matcher.accepts first.keywords (second.buffer.clamped wall) = false
  inside : wall + 1 < first.buffer.tokens.size
  insideToo : wall + 1 < second.buffer.tokens.size

namespace Setup.Walled

variable {asked : Matcher -> Prop} {wall : Nat} {first second : Setup}

/-- Errors are found at the same positions before the wall and at it. -/
theorem start_le (walled : Setup.Walled asked wall first second) {mark : Nat}
    (within : mark ≤ wall) :
    (second.buffer.clamped mark).start = (first.buffer.clamped mark).start := by
  rcases Nat.eq_or_lt_of_le within with atWall | beforeWall
  · rw [atWall]
    exact walled.start
  · rw [walled.before mark beforeWall]

/-- Buffers that begin alike are walled off from the first tokens on in which they differ. -/
theorem of_append {front firstRest secondRest : List Token} {firstWall secondWall : Token}
    (keywords : second.keywords = first.keywords) (packrat : second.packrat = first.packrat)
    (tokens : first.buffer.tokens.toList = front ++ firstWall :: firstRest)
    (tokensToo : second.buffer.tokens.toList = front ++ secondWall :: secondRest)
    (more : firstRest ≠ []) (moreToo : secondRest ≠ [])
    (start : secondWall.start = firstWall.start)
    (refused : ∀ matcher, asked matcher -> matcher.accepts first.keywords firstWall = false)
    (refusedToo : ∀ matcher, asked matcher -> matcher.accepts first.keywords secondWall = false) :
    Setup.Walled asked front.length first second := by
  have inside := Buffer.lt_size_of_tokens tokens more
  have insideToo := Buffer.lt_size_of_tokens tokensToo moreToo
  have atWall : first.buffer.clamped front.length = firstWall :=
    Option.some.inj ((Buffer.clamped_of_tokens tokens (by omega)).trans (by simp))
  have atWallToo : second.buffer.clamped front.length = secondWall :=
    Option.some.inj ((Buffer.clamped_of_tokens tokensToo (by omega)).trans (by simp))
  refine ⟨keywords, packrat, fun mark beforeWall => ?_, ?_, ?_, ?_, inside, insideToo⟩
  · refine Option.some.inj ((Buffer.clamped_of_tokens tokensToo (by omega)).trans ?_)
    rw [Buffer.clamped_of_tokens tokens (by omega), List.getElem?_append_left beforeWall,
      List.getElem?_append_left beforeWall]
  · rw [atWall, atWallToo, start]
  · rwa [atWall]
  · rwa [atWallToo]

end Setup.Walled

/-- Nothing of a state is beyond a mark. -/
structure State.Behind (wall : Nat) (state : State grammar) : Prop where
  cursor : state.cursor ≤ wall
  furthest : state.furthest ≤ wall
  remembered : ∀ name mark stored stop,
    state.memo.find? name mark = some (.success stored stop) -> stop ≤ wall

namespace State.Behind

variable {wall : Nat} {state : State grammar}

/-- Moving up to the wall keeps a state behind it. -/
theorem moveTo (behind : state.Behind wall) {mark : Nat} (within : mark ≤ wall) :
    (state.moveTo mark).Behind wall :=
  ⟨within, behind.furthest, behind.remembered⟩

/-- The log says nothing about where a state has been. -/
theorem log (behind : state.Behind wall) (event : Event) : (state.log event).Behind wall :=
  ⟨behind.cursor, behind.furthest, behind.remembered⟩

/-- A reset up to the wall keeps a state behind it. -/
theorem reset (behind : state.Behind wall) {mark : Nat} (within : mark ≤ wall) :
    (state.reset mark).Behind wall := by
  unfold State.reset
  split
  · exact (behind.moveTo within).log _
  · exact behind.moveTo within

/-- A token read before the wall leaves the cursor at the wall at most. -/
theorem consume (behind : state.Behind wall) (further : state.cursor < wall) :
    state.consume.Behind wall :=
  ⟨further, Nat.max_le.2 ⟨behind.furthest, further⟩, behind.remembered⟩

/-- An entry whose success ends behind the wall may be stored by a state that stays behind it. -/
theorem remember (behind : state.Behind wall) {name : String} {mark : Nat}
    {outcome : Cached grammar.Stored}
    (within : ∀ stored stop, outcome = .success stored stop -> stop ≤ wall) :
    (state.remember name mark outcome).Behind wall := by
  refine ⟨behind.cursor, behind.furthest, fun other place stored stop found => ?_⟩
  rw [State.remember_memo, MemoStore.find?_insert] at found
  split at found
  · cases found
    exact within stored stop rfl
  · exact behind.remembered other place stored stop found

end State.Behind

/-- From before a wall two runs are the same, and stay there. -/
def Run.Alike (wall : Nat) (run other : Run grammar Result) : Prop :=
  ∀ state, state.Behind wall -> other state = run state ∧ (run state).2.Behind wall

namespace Run.Alike

variable {wall : Nat} {run other : Run grammar Result} {asked : Matcher -> Prop}
  {first second : Setup}

/-- A step that moves nothing answers the same in both runs, whatever lies beyond the wall. -/
theorem inPlace (outcome : State grammar -> Outcome Result) :
    Run.Alike wall (fun state => (outcome state, state)) fun state => (outcome state, state) :=
  fun _ behind => ⟨rfl, behind⟩

/-- Sequencing: the second step meets the same state in both runs, or neither run reaches it. -/
theorem andThen {Next : Type} {next later : Result -> Run grammar Next}
    (before : run.Alike wall other) (after : ∀ value, (next value).Alike wall (later value)) :
    (run.andThen next).Alike wall (other.andThen later) := by
  intro state behind
  obtain ⟨same, reachedBehind⟩ := before state behind
  unfold Run.andThen
  rw [same]
  generalize run state = ended at reachedBehind ⊢
  obtain ⟨outcome, reached⟩ := ended
  cases outcome with
  | success value => exact after value reached reachedBehind
  | failure | fatal | unfinished => exact ⟨rfl, reachedBehind⟩

/-- Tokens before the wall are the same, and the wall is refused. -/
theorem expect (walled : Setup.Walled asked wall first second) {matcher : Matcher}
    (asks : asked matcher) :
    Run.Alike wall (Run.expect first matcher : Run grammar Token) (Run.expect second matcher) := by
  intro state behind
  have here := first.buffer.token?_clamped
    (Nat.lt_of_le_of_lt behind.cursor (Nat.lt_of_succ_lt walled.inside))
  have hereToo := second.buffer.token?_clamped
    (Nat.lt_of_le_of_lt behind.cursor (Nat.lt_of_succ_lt walled.insideToo))
  unfold Run.expect
  simp only [here, hereToo, walled.keywords]
  rcases Nat.eq_or_lt_of_le behind.cursor with atWall | beforeWall
  · -- The tokens at the wall may differ, but both are refused.
    rw [atWall, walled.refused matcher asks, walled.refusedToo matcher asks]
    exact ⟨rfl, behind⟩
  · rw [walled.before _ beforeWall]
    split
    · exact ⟨rfl, behind.consume beforeWall⟩
    · exact ⟨rfl, behind⟩

/-- Ordered choice: the second alternative starts in the same state whenever the first one fails
alike. -/
theorem orElse {third fourth : Run grammar Result} (before : run.Alike wall other)
    (after : third.Alike wall fourth) : (run.orElse third).Alike wall (other.orElse fourth) := by
  intro state behind
  obtain ⟨same, reachedBehind⟩ := before state behind
  unfold Run.orElse
  rw [same]
  generalize run state = ended at reachedBehind ⊢
  obtain ⟨outcome, reached⟩ := ended
  cases outcome with
  | failure => exact after _ (reachedBehind.reset behind.cursor)
  | success | fatal | unfinished => exact ⟨rfl, reachedBehind⟩

/-- Repetition, by induction on the bound, as each round starts where the last one ended alike. -/
theorem repeated (item : run.Alike wall other) (bound : Nat) :
    (Run.repeated run bound).Alike wall (Run.repeated other bound) := by
  induction bound with
  | zero => exact inPlace _
  | succ bound inductionHypothesis =>
      intro state behind
      obtain ⟨same, reachedBehind⟩ := item state behind
      unfold Run.repeated
      rw [same]
      generalize run state = ended at reachedBehind ⊢
      obtain ⟨outcome, reached⟩ := ended
      cases outcome with
      | success value =>
          simp only
          split
          · exact inductionHypothesis.andThen
              (fun values => inPlace fun _ => .success (value :: values))
              reached reachedBehind
          · exact ⟨rfl, reachedBehind.reset behind.cursor⟩
      | failure => exact ⟨rfl, reachedBehind.reset behind.cursor⟩
      | fatal | unfinished => exact ⟨rfl, reachedBehind⟩

/-- A lookahead hides its answer but not how far it looked, so it is alike when its body is. -/
theorem lookahead (positive : Bool) (ahead : run.Alike wall other) :
    (Run.lookahead positive run).Alike wall (Run.lookahead positive other) := by
  intro state behind
  obtain ⟨same, reachedBehind⟩ := ahead state behind
  unfold Run.lookahead
  rw [same]
  generalize run state = ended at reachedBehind ⊢
  obtain ⟨outcome, reached⟩ := ended
  cases outcome with
  | success | failure => exact ⟨rfl, reachedBehind.moveTo behind.cursor⟩
  | fatal | unfinished => exact ⟨rfl, reachedBehind⟩

/-- A forced failure reads the token at the cursor, which both buffers share behind the wall. -/
theorem force (walled : Setup.Walled asked wall first second) (expected : String)
    (inner : run.Alike wall other) :
    (Run.force first expected run).Alike wall (Run.force second expected other) := by
  intro state behind
  obtain ⟨same, reachedBehind⟩ := inner state behind
  unfold Run.force
  rw [same]
  generalize run state = ended at reachedBehind ⊢
  obtain ⟨outcome, reached⟩ := ended
  cases outcome with
  | failure =>
      simp only [Run.refuse, walled.start_le reachedBehind.cursor]
      exact ⟨trivial, reachedBehind.log _⟩
  | success | fatal | unfinished => exact ⟨rfl, reachedBehind⟩

/-- Building a node reads no token at all. -/
theorem build {Target : Type} (type : String) (make : Result -> Except NodeError Target)
    (value : Result) :
    Run.Alike wall (Run.build type make value : Run grammar Target)
      (Run.build type make value) := by
  intro state behind
  unfold Run.build
  split <;> exact ⟨rfl, behind.log _⟩

/-- Neither run comes to the end of its buffer, so that both are rejected where they have not
failed. -/
theorem toEnd (walled : Setup.Walled asked wall first second) (inner : run.Alike wall other) :
    (run.toEnd first).Alike wall (other.toEnd second) := by
  intro state behind
  obtain ⟨same, reachedBehind⟩ := inner state behind
  unfold Run.toEnd
  rw [same]
  generalize run state = ended at reachedBehind ⊢
  obtain ⟨outcome, reached⟩ := ended
  have notEnd : ¬ first.buffer.tokens.size - 1 ≤ reached.cursor := by
    have := reachedBehind.cursor
    have := walled.inside
    simp only at *
    omega
  have notEndToo : ¬ second.buffer.tokens.size - 1 ≤ reached.cursor := by
    have := reachedBehind.cursor
    have := walled.insideToo
    simp only at *
    omega
  cases outcome with
  | success value =>
      simp only [if_neg notEnd, if_neg notEndToo, walled.start_le reachedBehind.furthest]
      exact ⟨trivial, reachedBehind.log _⟩
  | failure =>
      simp only [walled.start_le reachedBehind.furthest]
      exact ⟨trivial, reachedBehind.log _⟩
  | fatal | unfinished => exact ⟨rfl, reachedBehind⟩

section Rules

variable {rule : grammar.Rule} {body twin : Run grammar (grammar.Value rule)}

/-- What is replayed stops before the wall. -/
theorem replay? {state : State grammar} (behind : state.Behind wall)
    {replayed : Outcome (grammar.Value rule) × State grammar}
    (hit : Run.replay? rule state = some replayed) : replayed.2.Behind wall := by
  cases replays_of_hit hit with
  | failure => exact behind.log _
  | success found => exact (behind.log _).moveTo (behind.remembered _ _ _ _ found)
  | other => exact behind

/-- The memo entries of two alike states are the same, so a replay and a first evaluation both stay
alike. -/
theorem memoized (walled : Setup.Walled asked wall first second) (inner : body.Alike wall twin) :
    (Run.memoized first rule body).Alike wall (Run.memoized second rule twin) := by
  intro state behind
  unfold Run.memoized
  rw [walled.packrat]
  split
  · split
    · rename_i replayed hit
      exact ⟨rfl, replay? behind hit⟩
    · obtain ⟨same, reachedBehind⟩ := inner _ ((behind.log
        (.memoMissed (grammar.name rule) state.cursor false)).log
          (.entered (grammar.name rule) state.cursor))
      simp only
      rw [same]
      generalize body _ = ended at reachedBehind ⊢
      obtain ⟨outcome, reached⟩ := ended
      cases outcome with
      | success value =>
          refine ⟨rfl, reachedBehind.remember ?_⟩
          rintro _ _ ⟨⟩
          exact reachedBehind.cursor
      | failure => exact ⟨rfl, (reachedBehind.moveTo behind.cursor).remember nofun⟩
      | fatal | unfinished => exact ⟨rfl, reachedBehind⟩
  · exact inner _ (behind.log _)

/-- A rule that grows leads further each time, so that more rounds than tokens before the wall
make no difference. -/
theorem grow {start : Nat} (within : start ≤ wall) (inner : body.Alike wall twin)
    {accepted : Option (grammar.Value rule × Nat)}
    (acceptedBehind : ∀ value stop, accepted = some (value, stop) -> stop ≤ wall)
    {bound otherBound : Nat} (enough : wall - (accepted.map Prod.snd).getD start < bound)
    (enoughToo : wall - (accepted.map Prod.snd).getD start < otherBound) :
    (Run.grow rule body start bound accepted).Alike wall
      (Run.grow rule twin start otherBound accepted) := by
  have alike : ∀ {state : State grammar}, state.Behind wall ->
      twin (state.enter rule start) = body (state.enter rule start) ∧
        (body (state.enter rule start)).2.Behind wall :=
    fun behind => inner _ ((behind.moveTo within).log _)
  intro state behind
  refine grow_induction
    (motive := fun bound accepted state ended => ∀ otherBound,
      (∀ value stop, accepted = some (value, stop) -> stop ≤ wall) ->
      wall - (accepted.map Prod.snd).getD start < bound ->
      wall - (accepted.map Prod.snd).getD start < otherBound -> state.Behind wall ->
      Run.grow rule twin start otherBound accepted state = ended ∧ ended.2.Behind wall)
    ?_ ?_ ?_ ?_ ?_ bound accepted state otherBound acceptedBehind enough enoughToo behind
  · exact fun _ _ _ _ enough => absurd enough (Nat.not_lt_zero _)
  · intro bound accepted state value ended succeeded further later otherBound _ enough enoughToo
      behind
    -- The other limit leaves this round as well: it is not below what is left of the way.
    obtain ⟨otherBound, rfl⟩ : ∃ rest, otherBound = rest + 1 := ⟨otherBound - 1, by omega⟩
    obtain ⟨same, reachedBehind⟩ := alike behind
    have reachedWithin : (body (state.enter rule start)).2.cursor ≤ wall := reachedBehind.cursor
    rw [grow_of_further (same.trans (Prod.ext succeeded rfl)) further]
    refine later otherBound ?_ ?_ ?_ ((reachedBehind.log _).remember ?_)
    · rintro _ _ ⟨⟩
      exact reachedWithin
    · simp only [Option.map_some, Option.getD_some]
      omega
    · simp only [Option.map_some, Option.getD_some]
      omega
    · rintro _ _ ⟨⟩
      exact reachedWithin
  · intro bound state noFurther otherBound _ _ enoughToo behind
    obtain ⟨otherBound, rfl⟩ : ∃ rest, otherBound = rest + 1 := ⟨otherBound - 1, by omega⟩
    obtain ⟨same, reachedBehind⟩ := alike behind
    exact ⟨grow_of_noFurther same noFurther, reachedBehind.moveTo within⟩
  · intro bound value stop state noFurther otherBound acceptedBehind _ enoughToo behind
    obtain ⟨otherBound, rfl⟩ : ∃ rest, otherBound = rest + 1 := ⟨otherBound - 1, by omega⟩
    obtain ⟨same, reachedBehind⟩ := alike behind
    exact ⟨grow_of_noFurther same noFurther, reachedBehind.moveTo (acceptedBehind value stop rfl)⟩
  · intro bound accepted state breaks otherBound _ _ enoughToo behind
    obtain ⟨otherBound, rfl⟩ : ∃ rest, otherBound = rest + 1 := ⟨otherBound - 1, by omega⟩
    obtain ⟨same, reachedBehind⟩ := alike behind
    exact ⟨grow_of_breaksOff same breaks, reachedBehind⟩

/-- Seed growing runs an alike body from alike seeds, one round after the other. -/
theorem leftRecursive (walled : Setup.Walled asked wall first second)
    (inner : body.Alike wall twin) :
    (Run.leftRecursive first rule body).Alike wall (Run.leftRecursive second rule twin) := by
  intro state behind
  have within : state.cursor ≤ wall := behind.cursor
  have inside := walled.inside
  have insideToo := walled.insideToo
  have inFirst : state.cursor ≤ first.buffer.tokens.size := by omega
  have inSecond : state.cursor ≤ second.buffer.tokens.size := by omega
  unfold Run.leftRecursive
  simp only [roundLimit?_of_le inFirst, roundLimit?_of_le inSecond]
  split
  · rename_i replayed hit
    exact ⟨rfl, replay? behind hit⟩
  · have unaccepted : ∀ value stop,
        (none : Option (grammar.Value rule × Nat)) = some (value, stop) -> stop ≤ wall := nofun
    refine grow within inner unaccepted ?_ ?_ _
      ((behind.log _).remember fun _ _ seed => by cases seed)
    · simp only [Option.map_none, Option.getD_none]
      omega
    · simp only [Option.map_none, Option.getD_none]
      omega

/-- Whichever way a rule is declared, an alike body makes an alike rule. -/
theorem inMode (walled : Setup.Walled asked wall first second) (inner : body.Alike wall twin) :
    (Run.inMode first rule body).Alike wall (Run.inMode second rule twin) := by
  unfold Run.inMode
  split
  · exact inner
  · exact memoized walled inner
  · exact leftRecursive walled inner

end Rules

end Run.Alike

/-- Expressions are the same before a wall when their calls are. -/
theorem Expression.run_alike {asked : Matcher -> Prop} {wall : Nat} {first second : Setup}
    (walled : Setup.Walled asked wall first second)
    {callFirst callSecond : (rule : grammar.Rule) -> Run grammar (grammar.Value rule)}
    (calls : ∀ rule, (callFirst rule).Alike wall (callSecond rule)) (bound : Nat)
    (expression : Expression grammar.Rule grammar.Value Result) (jumpless : expression.Jumpless)
    (asks : expression.Asks asked) :
    (expression.run first callFirst bound).Alike wall (expression.run second callSecond bound) := by
  induction expression with
  | token matcher => exact .expect walled asks
  | succeed | fail => exact .inPlace _
  | skip distance => exact jumpless.elim
  | both _ _ firstHypothesis secondHypothesis =>
      refine (firstHypothesis jumpless.1 asks.1).andThen fun left => ?_
      exact (secondHypothesis jumpless.2 asks.2).andThen fun right =>
        .inPlace fun _ => .success (left, right)
  | choice _ _ firstHypothesis secondHypothesis =>
      exact (firstHypothesis jumpless.1 asks.1).orElse (secondHypothesis jumpless.2 asks.2)
  | many _ inductionHypothesis => exact (inductionHypothesis jumpless asks).repeated bound
  | look positive _ inductionHypothesis =>
      exact ((inductionHypothesis jumpless asks).lookahead positive).andThen fun test =>
        .inPlace fun _ => if test then .success () else .failure
  | force _ expected inductionHypothesis =>
      exact (inductionHypothesis jumpless asks).force walled expected
  | map change _ inductionHypothesis =>
      exact (inductionHypothesis jumpless asks).andThen fun value =>
        .inPlace fun _ => .success (change value)
  | build type make _ inductionHypothesis =>
      exact (inductionHypothesis jumpless asks).andThen (.build type make)
  | call rule => exact calls rule

/-- So are the rules of a grammar that asks for nothing at the wall. -/
theorem Grammar.runRule_alike {asked : Matcher -> Prop} {wall : Nat} {first second : Setup}
    (walled : Setup.Walled asked wall first second)
    (jumpless : ∀ rule, (grammar.body rule).Jumpless)
    (asks : ∀ rule, (grammar.body rule).Asks asked) (bound : Nat) (rule : grammar.Rule) :
    (grammar.runRule first bound rule).Alike wall (grammar.runRule second bound rule) := by
  induction bound generalizing rule with
  | zero => exact .inPlace _
  | succ bound inductionHypothesis =>
      exact .inMode walled (Expression.run_alike walled inductionHypothesis bound _ (jumpless rule)
        (asks rule))

end KiwiFront.Peg
