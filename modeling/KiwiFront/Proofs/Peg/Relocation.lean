import KiwiFront.Peg.Relocation
import KiwiFront.Proofs.Peg.Remembering

/-!
# Evaluation does not look at places

Two evaluations of an expression, one over a buffer and one over the same buffer elsewhere,
go the same way: their cursors agree, what they remember differs by the move of its values,
and so do their outcomes. Positions enter an evaluation with the tokens and as the places
of errors, and leave it in the same way.
-/

namespace KiwiFront.Peg

variable {grammar : Grammar} {Result : Type} {place : Position -> Position}

/-- How values of all types move. -/
abbrev Grammar.Move (grammar : Grammar) :=
  (tag : grammar.Tag) -> grammar.Content tag -> grammar.Content tag

/-- How the values of a rule move. -/
abbrev Grammar.Move.of (move : grammar.Move) (rule : grammar.Rule) :
    grammar.Value rule -> grammar.Value rule :=
  move (grammar.tag rule)

/-- The same remembered outcome, with its value moved. -/
def Cached.relocate (move : grammar.Move) :
    Cached grammar.Stored -> Cached grammar.Stored
  | .failure => .failure
  | .success ⟨tag, value⟩ stop => .success ⟨tag, move tag value⟩ stop

/-- The second state is as far as the first one, and remembers the same outcomes with their
values moved. -/
structure State.MovesTo (move : grammar.Move) (first second : State grammar) : Prop where
  cursor : second.cursor = first.cursor
  furthest : second.furthest = first.furthest
  memo : ∀ rule mark,
    second.memo.find? rule mark = (first.memo.find? rule mark).map (Cached.relocate move)

namespace State.MovesTo

variable {move : grammar.Move} {first second : State grammar}

/-- What the log records is left out of the correspondence, so any two events may be logged. -/
theorem log (moves : first.MovesTo move second) (event other : Event) :
    (first.log event).MovesTo move (second.log other) :=
  ⟨moves.cursor, moves.furthest, moves.memo⟩

/-- Marks are token indices, which a relocation does not touch. -/
theorem moveTo (moves : first.MovesTo move second) (mark : Nat) :
    (first.moveTo mark).MovesTo move (second.moveTo mark) :=
  ⟨rfl, moves.furthest, moves.memo⟩

/-- A reset to the same mark keeps two states in correspondence. -/
theorem reset (moves : first.MovesTo move second) (mark : Nat) :
    (first.reset mark).MovesTo move (second.reset mark) := by
  unfold State.reset
  rw [moves.cursor]
  split
  · exact (moves.moveTo mark).log _ _
  · exact moves.moveTo mark

/-- Reading one token advances both states alike. -/
theorem consume (moves : first.MovesTo move second) :
    first.consume.MovesTo move second.consume :=
  ⟨congrArg (· + 1) moves.cursor, by simp only [State.consume, moves.cursor, moves.furthest],
    moves.memo⟩

/-- An entry and its relocated copy keep the two memo tables in correspondence. -/
theorem remember (moves : first.MovesTo move second) (rule : String) (mark : Nat)
    (outcome : Cached grammar.Stored) :
    (first.remember rule mark outcome).MovesTo move
      (second.remember rule mark (outcome.relocate move)) := by
  refine ⟨moves.cursor, moves.furthest, fun other here => ?_⟩
  rw [State.remember_memo, State.remember_memo, MemoStore.find?_insert, MemoStore.find?_insert]
  split
  · rfl
  · exact moves.memo other here

end State.MovesTo

/-- Two runs have ended alike, the second one with everything moved. -/
inductive EndsMoved (place : Position -> Position) (move : grammar.Move) {Result : Type}
    (ofResult : Result -> Result) :
    Outcome Result × State grammar -> Outcome Result × State grammar -> Prop where
  | success {value first second} (related : first.MovesTo move second) :
      EndsMoved place move ofResult (.success value, first) (.success (ofResult value), second)
  | failure {first second} (related : first.MovesTo move second) :
      EndsMoved place move ofResult (.failure, first) (.failure, second)
  | fatal {error first second} (related : first.MovesTo move second) :
      EndsMoved place move ofResult (.fatal error, first) (.fatal (error.relocate place), second)
  | unfinished {first second} (related : first.MovesTo move second) :
      EndsMoved place move ofResult (.unfinished, first) (.unfinished, second)

/-- From states that correspond, the second run ends as the first one does, elsewhere. -/
def Run.MovesTo (place : Position -> Position) (move : grammar.Move) (ofResult : Result -> Result)
    (first second : Run grammar Result) : Prop :=
  ∀ start other, start.MovesTo move other ->
    EndsMoved place move ofResult (first start) (second other)

/-- The token at a mark moves with the buffer. -/
theorem Buffer.clamped_relocate (buffer : Buffer) (mark : Nat) :
    (buffer.relocate place).clamped mark = (buffer.clamped mark).relocate place := by
  simp only [Buffer.clamped, Buffer.relocate, Array.getElem_map, Array.size_map]

namespace Run.MovesTo

variable {move : grammar.Move} {ofResult : Result -> Result} {first second : Run grammar Result}

/-- A fixed value and its relocated copy are delivered in corresponding states. -/
theorem inPlace (value : Result) :
    Run.MovesTo place move ofResult (fun state => (.success value, state))
      (fun state => (.success (ofResult value), state)) :=
  fun _ _ related => .success related

/-- Sequencing commutes with relocation when the second step does so for every delivered value. -/
theorem andThen {Next : Type} {ofNext : Next -> Next} {next other : Result -> Run grammar Next}
    (before : first.MovesTo place move ofResult second)
    (after : ∀ value, (next value).MovesTo place move ofNext (other (ofResult value))) :
    (first.andThen next).MovesTo place move ofNext (second.andThen other) := by
  intro start twin related
  have between := before start twin related
  unfold Run.andThen
  generalize first start = left at between ⊢
  generalize second twin = right at between ⊢
  cases between with
  | success related => exact after _ _ _ related
  | failure related => exact .failure related
  | fatal related => exact .fatal related
  | unfinished related => exact .unfinished related

/-- Matchers look at kinds and texts only, so both runs accept or refuse the same token. -/
theorem expect (setup : Setup) (matcher : Matcher) :
    Run.MovesTo place move (Token.relocate place) (Run.expect setup matcher : Run grammar Token)
      (Run.expect (setup.relocate place) matcher) := by
  intro start twin related
  have here : (setup.relocate place).buffer.tokens[twin.cursor]? =
      setup.buffer.tokens[start.cursor]?.map (Token.relocate place) := by
    rw [related.cursor]
    exact Array.getElem?_map
  unfold Run.expect
  rw [here]
  cases setup.buffer.tokens[start.cursor]? with
  | none => exact .failure related
  | some token =>
      have accepts : matcher.accepts (setup.relocate place).keywords (token.relocate place) =
          matcher.accepts setup.keywords token := by cases matcher <;> rfl
      simp only [Option.map_some, accepts]
      split
      · exact .success related.consume
      · exact .failure related

/-- A relative jump depends on the cursor and the number of tokens, which relocation keeps. -/
theorem skip {ofUnit : Unit -> Unit} (distance : Int) :
    Run.MovesTo place move ofUnit (Run.skip distance : Run grammar Unit) (Run.skip distance) := by
  intro start twin related
  unfold Run.skip
  rw [related.cursor]
  exact .success (related.reset _)

/-- Ordered choice takes the same alternative in both runs. -/
theorem orElse {third fourth : Run grammar Result}
    (before : first.MovesTo place move ofResult second)
    (after : third.MovesTo place move ofResult fourth) :
    (first.orElse third).MovesTo place move ofResult (second.orElse fourth) := by
  intro start twin related
  have between := before start twin related
  unfold Run.orElse
  rw [related.cursor]
  generalize first start = left at between ⊢
  generalize second twin = right at between ⊢
  cases between with
  | failure related => exact after _ _ (related.reset start.cursor)
  | success related => exact .success related
  | fatal related => exact .fatal related
  | unfinished related => exact .unfinished related

/-- Repetition, by induction on the bound, delivers the list of relocated items. -/
theorem repeated (item : first.MovesTo place move ofResult second) (bound : Nat) :
    (Run.repeated first bound).MovesTo place move (List.map ofResult)
      (Run.repeated second bound) := by
  induction bound with
  | zero => exact fun _ _ related => .unfinished related
  | succ bound inductionHypothesis =>
      intro start twin related
      have between := item start twin related
      unfold Run.repeated
      rw [related.cursor]
      generalize first start = left at between ⊢
      generalize second twin = right at between ⊢
      cases between with
      | @success value reached other related =>
          simp only [related.cursor]
          split
          · refine inductionHypothesis.andThen (fun values => ?_) reached other related
            exact inPlace (value :: values)
          · exact .success (related.reset start.cursor)
      | failure related => exact .success (related.reset start.cursor)
      | fatal related => exact .fatal related
      | unfinished related => exact .unfinished related

/-- A lookahead guard passes in both runs or in neither. -/
theorem look {ofUnit : Unit -> Unit} (positive : Bool)
    (ahead : first.MovesTo place move ofResult second) :
    ((Run.lookahead positive first).andThen Run.guard).MovesTo place move ofUnit
      ((Run.lookahead positive second).andThen Run.guard) := by
  intro start twin related
  have between := ahead start twin related
  unfold Run.andThen Run.lookahead Run.guard
  rw [related.cursor]
  generalize first start = left at between ⊢
  generalize second twin = right at between ⊢
  cases between with
  | success related =>
      cases positive with
      | true => exact .success (related.moveTo start.cursor)
      | false => exact .failure (related.moveTo start.cursor)
  | failure related =>
      cases positive with
      | true => exact .failure (related.moveTo start.cursor)
      | false => exact .success (related.moveTo start.cursor)
  | fatal related => exact .fatal related
  | unfinished related => exact .unfinished related

/-- A forced failure reports the relocated position of the same token. -/
theorem force (setup : Setup) (expected : String)
    (inner : first.MovesTo place move ofResult second) :
    (Run.force setup expected first).MovesTo place move ofResult
      (Run.force (setup.relocate place) expected second) := by
  intro start twin related
  have between := inner start twin related
  unfold Run.force
  generalize first start = left at between ⊢
  generalize second twin = right at between ⊢
  cases between with
  | @failure reached other related =>
      simp only [Run.refuse, related.cursor, Setup.relocate, Buffer.clamped_relocate]
      exact .fatal (related.log _ _)
  | success related => exact .success related
  | fatal related => exact .fatal related
  | unfinished related => exact .unfinished related

/-- A constructor that commutes with relocation builds the relocated node, or fails with the same
cause. -/
theorem build {Target : Type} {ofTarget : Target -> Target} (type : String)
    {make : Result -> Except NodeError Target}
    (moves : ∀ value, make (ofResult value) = (make value).map ofTarget) (value : Result) :
    Run.MovesTo place move ofTarget (Run.build type make value : Run grammar Target)
      (Run.build type make (ofResult value)) := by
  intro start twin related
  unfold Run.build
  rw [moves value]
  cases make value with
  | ok node => exact .success (related.log _ _)
  | error cause => exact .fatal (related.log _ _)

/-- The end of the tokens is at the same mark. -/
theorem toEnd (setup : Setup) (inner : first.MovesTo place move ofResult second) :
    (first.toEnd setup).MovesTo place move ofResult (second.toEnd (setup.relocate place)) := by
  intro start twin related
  have between := inner start twin related
  have size : (setup.relocate place).buffer.tokens.size = setup.buffer.tokens.size :=
    Array.size_map
  have furthest : ∀ mark, ((setup.relocate place).buffer.clamped mark).start =
      place (setup.buffer.clamped mark).start :=
    fun mark => congrArg Token.start (setup.buffer.clamped_relocate mark)
  unfold Run.toEnd
  rw [size]
  generalize first start = left at between ⊢
  generalize second twin = right at between ⊢
  cases between with
  | success related =>
      simp only [related.cursor, related.furthest, furthest]
      split
      · exact .success related
      · exact .fatal (related.log _ _)
  | failure related =>
      simp only [related.furthest, furthest]
      exact .fatal (related.log _ _)
  | fatal related => exact .fatal related
  | unfinished related => exact .unfinished related

end Run.MovesTo

/-- If the rules go the same way elsewhere, so does an expression. -/
theorem Expression.run_movesTo {move : grammar.Move} (setup : Setup)
    {callRule callMoved : (rule : grammar.Rule) -> Run grammar (grammar.Value rule)}
    (calls : ∀ rule, (callRule rule).MovesTo place move (move.of rule) (callMoved rule))
    (bound : Nat)
    (expression : Expression grammar.Rule grammar.Value Result) {ofResult : Result -> Result}
    (moves : expression.MovesBy place move.of ofResult) :
    (expression.run setup callRule bound).MovesTo place move ofResult
      (expression.run (setup.relocate place) callMoved bound) := by
  induction expression with
  | token matcher =>
      obtain rfl : ofResult = Token.relocate place := moves
      exact .expect setup matcher
  | succeed value =>
      intro start twin related
      have kept : ofResult value = value := moves
      have ends : EndsMoved place move ofResult (.success value, start)
          (.success (ofResult value), twin) := .success related
      rwa [kept] at ends
  | fail => exact fun _ _ related => .failure related
  | skip distance => exact .skip distance
  | both _ _ firstHypothesis secondHypothesis =>
      obtain ⟨ofFirst, ofSecond, rfl, first, second⟩ := moves
      exact (firstHypothesis first).andThen fun left =>
        (secondHypothesis second).andThen fun right => .inPlace (left, right)
  | choice _ _ firstHypothesis secondHypothesis =>
      exact (firstHypothesis moves.1).orElse (secondHypothesis moves.2)
  | many _ inductionHypothesis =>
      obtain ⟨ofItem, rfl, item⟩ := moves
      exact (inductionHypothesis item).repeated bound
  | look positive _ inductionHypothesis =>
      obtain ⟨ofAhead, ahead⟩ := moves
      exact (inductionHypothesis ahead).look positive
  | force _ expected inductionHypothesis => exact (inductionHypothesis moves).force setup expected
  | map change _ inductionHypothesis =>
      obtain ⟨ofInner, changes, inner⟩ := moves
      refine (inductionHypothesis inner).andThen fun value => ?_
      rw [changes]
      exact .inPlace (change value)
  | build type make _ inductionHypothesis =>
      obtain ⟨ofInner, makes, inner⟩ := moves
      exact (inductionHypothesis inner).andThen (.build type makes)
  | call rule =>
      obtain rfl : ofResult = move.of rule := moves
      exact calls rule

namespace Run.MovesTo

variable {move : grammar.Move} {rule : grammar.Rule} {body other : Run grammar (grammar.Value rule)}

/-- What is remembered in both states is replayed alike. -/
theorem replay (place : Position -> Position) (rule : grammar.Rule) {start twin : State grammar}
    (related : start.MovesTo move twin) :
    (Run.replay? rule start = none ∧ Run.replay? rule twin = none) ∨
      ∃ left right, Run.replay? rule start = some left ∧ Run.replay? rule twin = some right ∧
        EndsMoved place move (move.of rule) left right := by
  have same := related.memo (grammar.name rule) twin.cursor
  cases found : start.memo.find? (grammar.name rule) start.cursor with
  | none =>
      rw [related.cursor, found, ← related.cursor] at same
      exact .inl ⟨Run.replay?_of_missing found, Run.replay?_of_missing same⟩
  | some outcome =>
      rw [related.cursor, found, ← related.cursor] at same
      refine .inr ?_
      cases outcome with
      | failure =>
          exact ⟨_, _, Run.replay?_of_failure found, Run.replay?_of_failure same,
            .failure (related.log _ _)⟩
      | success stored stop =>
          obtain ⟨tag, value⟩ := stored
          by_cases own : tag = grammar.tag rule
          · subst own
            exact ⟨_, _, Run.replay?_of_success found, Run.replay?_of_success same,
              .success ((related.log _ _).moveTo stop)⟩
          · exact ⟨_, _, Run.replay?_of_other found own, Run.replay?_of_other same own,
              .fatal related⟩

/-- A memoized rule replays the relocated value where the first run replays the value. -/
theorem memoized (setup : Setup) (inner : body.MovesTo place move (move.of rule) other) :
    (Run.memoized setup rule body).MovesTo place move (move.of rule)
      (Run.memoized (setup.relocate place) rule other) := by
  intro start twin related
  unfold Run.memoized
  simp only [Setup.relocate, related.cursor]
  split
  · rcases replay place rule related with ⟨miss, alsoMiss⟩ |
      ⟨left, right, hit, alsoHit, ends⟩
    · rw [miss, alsoMiss]
      have between := inner _ _ ((related.log
        (.memoMissed (grammar.name rule) start.cursor false)
        (.memoMissed (grammar.name rule) start.cursor false)).log
          (.entered (grammar.name rule) start.cursor) (.entered (grammar.name rule) start.cursor))
      simp only
      generalize body _ = left at between ⊢
      generalize other _ = right at between ⊢
      cases between with
      | success related =>
          simp only [related.cursor]
          exact .success (related.remember _ _ _)
      | failure related => exact .failure ((related.moveTo _).remember _ _ .failure)
      | fatal related => exact .fatal related
      | unfinished related => exact .unfinished related
    · rw [hit, alsoHit]
      exact ends
  · exact inner _ _ (related.log _ _)

/-- A rule grows by the same steps elsewhere. -/
theorem grow (inner : body.MovesTo place move (move.of rule) other) (start bound : Nat)
    (accepted : Option (grammar.Value rule × Nat)) :
    (Run.grow rule body start bound accepted).MovesTo place move (move.of rule)
      (Run.grow rule other start bound (accepted.map (Prod.map (move.of rule) id))) := by
  induction bound generalizing accepted with
  | zero => exact fun _ _ related => .fatal related
  | succ bound inductionHypothesis =>
      intro left right related
      have grown : ∀ {left right : State grammar}, left.MovesTo move right ->
          EndsMoved place move (move.of rule) (Run.grown start accepted left)
            (Run.grown start (accepted.map (Prod.map (move.of rule) id)) right) := by
        intro left right related
        cases accepted with
        | none => exact .failure (related.moveTo start)
        | some last => exact .success (related.moveTo last.2)
      have reach : (accepted.map (Prod.map (move.of rule) id)).map Prod.snd =
          accepted.map Prod.snd := by cases accepted <;> rfl
      have between := inner _ _ ((related.moveTo start).log
        (.entered (grammar.name rule) start) (.entered (grammar.name rule) start))
      unfold Run.grow
      simp only [reach]
      generalize body _ = first at between ⊢
      generalize other _ = second at between ⊢
      cases between with
      | success related =>
          simp only [related.cursor]
          split
          · exact inductionHypothesis _ _ _ ((related.log _ _).remember _ _ _)
          · exact grown related
      | failure related => exact grown related
      | fatal related => exact .fatal related
      | unfinished related => exact .unfinished related

/-- Seed growing accepts the same rounds in both runs, as growth is a matter of marks only. -/
theorem leftRecursive (setup : Setup) (inner : body.MovesTo place move (move.of rule) other) :
    (Run.leftRecursive setup rule body).MovesTo place move (move.of rule)
      (Run.leftRecursive (setup.relocate place) rule other) := by
  intro start twin related
  have size : (setup.relocate place).buffer.tokens.size = setup.buffer.tokens.size :=
    Array.size_map
  unfold Run.leftRecursive
  simp only [size, related.cursor]
  rcases replay place rule related with ⟨miss, alsoMiss⟩ |
    ⟨left, right, hit, alsoHit, ends⟩
  · rw [miss, alsoMiss]
    have seeded := (related.log (.memoMissed (grammar.name rule) start.cursor true)
      (.memoMissed (grammar.name rule) start.cursor true)).remember (grammar.name rule) start.cursor
        .failure
    simp only
    split
    · exact grow inner _ _ none _ _ seeded
    · exact .fatal seeded
  · rw [hit, alsoHit]
    exact ends

end Run.MovesTo

/-- Every rule goes the same way elsewhere, if each expression moves its values as its rule
says. -/
theorem Grammar.runRule_movesTo {move : grammar.Move}
    (moves : ∀ rule, (grammar.body rule).MovesBy place move.of (move.of rule)) (setup : Setup)
    (bound : Nat) (rule : grammar.Rule) :
    (grammar.runRule setup bound rule).MovesTo place move (move.of rule)
      (grammar.runRule (setup.relocate place) bound rule) := by
  induction bound generalizing rule with
  | zero => exact fun _ _ related => .unfinished related
  | succ bound inductionHypothesis =>
      have inner := Expression.run_movesTo setup inductionHypothesis bound _ (moves rule)
      unfold Grammar.runRule Run.inMode
      split
      · exact inner
      · exact inner.memoized setup
      · exact inner.leftRecursive setup

end KiwiFront.Peg
