import KiwiFront.Proofs.Grammar.Acceptance
import KiwiFront.Proofs.Grammar.Spellings
import KiwiFront.Proofs.Peg.Walls

/-!
# Dotted names and dotted types

A dotted name is read in a loop that looks out for a star behind a dot, and a dotted type by
growing, which knows nothing of stars. From any mark the two take the same names, as many as
stand there with dots between them, and what they make of them has the same text and the same
span. Where a dot is left over both of them break off behind it, unless a star stands there:
then the name ends before the dot, as an import with a wildcard needs it.
-/

namespace KiwiFront

open Peg

/-- Another text is joined by a dot. -/
theorem joinDotted_concat {texts : List String} (nonempty : texts ≠ []) (text : String) :
    joinDotted (texts ++ [text]) = joinDotted texts ++ "." ++ text := by
  rw [joinDotted, String.intercalate_append_of_ne_nil nonempty (List.cons_ne_nil text []),
    String.intercalate_singleton]
  rfl

/-- The span from the first one to the last one of some tokens. -/
def IsSpanOf (segments : List Token) (span : Span) : Prop :=
  ∃ first last, segments.head? = some first ∧ segments.getLast? = some last ∧
    span = ⟨first.start, last.stop⟩

/-- Segments have one span. -/
theorem IsSpanOf.unique {segments : List Token} {span other : Span}
    (isSpan : IsSpanOf segments span) (isOther : IsSpanOf segments other) : span = other := by
  obtain ⟨first, last, isFirst, isLast, rfl⟩ := isSpan
  obtain ⟨otherFirst, otherLast, isOtherFirst, isOtherLast, rfl⟩ := isOther
  cases isFirst.symm.trans isOtherFirst
  cases isLast.symm.trans isOtherLast
  rfl

namespace UserType

/-- A type has a segment. -/
theorem segments_ne_nil (type : UserType) : type.segments ≠ [] := by
  cases type with
  | simple => exact List.cons_ne_nil _ _
  | qualified => exact List.append_ne_nil_of_right_ne_nil _ (List.cons_ne_nil _ _)

/-- The dotted text of a type joins its segments. -/
theorem dotted_eq (type : UserType) : type.dotted = joinDotted (type.segments.map Token.text) := by
  induction type with
  | simple => exact String.intercalate_singleton.symm
  | qualified qualifier identifier _ inductionHypothesis =>
      have nonempty : qualifier.segments.map Token.text ≠ [] :=
        fun isNil => qualifier.segments_ne_nil (List.map_eq_nil_iff.1 isNil)
      rw [dotted, segments, inductionHypothesis, List.map_append, List.map_singleton,
        joinDotted_concat nonempty]

/-- A type nests once less often than it has segments. -/
theorem depth_succ (type : UserType) : type.depth + 1 = type.segments.length := by
  induction type with
  | simple => rfl
  | qualified _ _ _ inductionHypothesis =>
      rw [depth, segments, inductionHypothesis, List.length_append, List.length_singleton]

end UserType

namespace KiwiGrammar

/-- Names, and the tokens that they are written with: there is a dot between any two. -/
inductive Dotted : (names tokens : List Token) -> Prop where
  | one {name} (isName : Terminal.name.Matches name) : Dotted [name] [name]
  | more {names tokens dot name} (front : Dotted names tokens)
      (isDot : (Terminal.operator ".").Matches dot) (isName : Terminal.name.Matches name) :
      Dotted (names ++ [name]) (tokens ++ [dot, name])

namespace Dotted

variable {names others tokens behind : List Token}

/-- A dotted name has tokens. -/
theorem ne_nil (dotted : Dotted names tokens) : tokens ≠ [] := by
  cases dotted with
  | one => exact List.cons_ne_nil _ _
  | more => exact List.append_ne_nil_of_right_ne_nil _ (List.cons_ne_nil _ _)

/-- Its names are among them. -/
theorem mem_tokens (dotted : Dotted names tokens) {name : Token} (member : name ∈ names) :
    name ∈ tokens := by
  induction dotted with
  | one => exact member
  | more _ _ _ inductionHypothesis =>
      rcases List.mem_append.1 member with inFront | isLast
      · exact List.mem_append_left _ (inductionHypothesis inFront)
      · exact List.mem_append_right _ (List.mem_cons_of_mem _ isLast)

/-- The tokens tell the names. -/
theorem unique (dotted : Dotted names tokens) (other : Dotted others tokens) : names = others := by
  induction dotted generalizing others with
  | @one name =>
      generalize same : [name] = tokens at other
      cases other with
      | one =>
          cases same
          rfl
      | @more _ front _ _ others =>
          have lengths := congrArg List.length same
          have positive := List.length_pos_iff.2 others.ne_nil
          simp only [List.length_append, List.length_cons] at lengths
          omega
  | @more _ tokens dot name front _ _ inductionHypothesis =>
      generalize same : tokens ++ [dot, name] = written at other
      cases other with
      | one =>
          have lengths := congrArg List.length same
          have positive := List.length_pos_iff.2 front.ne_nil
          simp only [List.length_append, List.length_cons] at lengths
          omega
      | more otherFront =>
          obtain ⟨rfl, sameEnd⟩ := List.append_inj' same rfl
          cases sameEnd
          rw [inductionHypothesis otherFront]

/-- Segments behind names make longer names. -/
theorem append {reading : (rule : KiwiRule) -> rule.Value -> List Token -> Prop}
    (simple : ∀ (name : Token) read, reading .simpleIdentifier name read ->
      Terminal.name.Matches name ∧ read = [name])
    (dotted : Dotted names tokens) (segments : SpellsEach (DotSegment reading) others behind) :
    Dotted (names ++ others) (tokens ++ behind) := by
  induction segments generalizing names tokens with
  | none =>
      rw [List.append_nil, List.append_nil]
      exact dotted
  | more head _ inductionHypothesis =>
      obtain ⟨dot, _, rfl, isDot, read⟩ := head
      obtain ⟨isName, rfl⟩ := simple _ _ read
      have longer := inductionHypothesis (dotted.more isDot isName)
      rw [List.append_assoc, List.append_assoc] at longer
      exact longer

/-- A dotted name is a type. -/
theorem derives_userType (dotted : Dotted names tokens) :
    kiwiGrammar.Derives keywords .userType tokens := by
  induction dotted with
  | one isName => exact derives_iff.2 (.inr (derives_simpleUserType_iff.2 ⟨_, isName, rfl⟩))
  | more _ isDot isName front =>
      exact derives_iff.2 (.inl ⟨_, _, rfl, front, _, _, rfl, ⟨_, isDot, rfl⟩,
        derives_simpleUserType_iff.2 ⟨_, isName, rfl⟩⟩)

/-- The first name, and the segments behind it. -/
theorem segments (dotted : Dotted names tokens) :
    ∃ first rest, Terminal.name.Matches first ∧ tokens = first :: rest ∧
      Repeats ((Production.both (Production.sign ".") (.rule .simpleIdentifier)).Describes
        (kiwiGrammar.Derives keywords)) rest := by
  induction dotted with
  | one isName => exact ⟨_, [], isName, rfl, .none⟩
  | @more _ _ dot name _ isDot isName inductionHypothesis =>
      obtain ⟨first, rest, isFirst, rfl, repeats⟩ := inductionHypothesis
      have segment : (Production.both (Production.sign ".") (.rule .simpleIdentifier)).Describes
          (kiwiGrammar.Derives keywords) [dot, name] :=
        ⟨[dot], [name], rfl, ⟨dot, isDot, rfl⟩, derives_simpleIdentifier_iff.2 ⟨name, isName, rfl⟩⟩
      exact ⟨first, _, isFirst, rfl, repeats.concat segment⟩

/-- It is an identifier as well. -/
theorem derives_identifier (dotted : Dotted names tokens) :
    kiwiGrammar.Derives keywords .identifier tokens := by
  obtain ⟨first, rest, isFirst, rfl, repeats⟩ := dotted.segments
  exact derives_iff.2
    ⟨[first], rest, rfl, derives_simpleIdentifier_iff.2 ⟨first, isFirst, rfl⟩, repeats⟩

/-- How the tokens behind all names that can be taken begin: not with a dot, or with a dot that
no name follows. -/
def Stops (behind : List Token) : Prop :=
  (Terminal.operator ".").NotNext behind ∨
    ∃ dot rest, (Terminal.operator ".").Matches dot ∧ Terminal.name.NotNext rest ∧
      behind = dot :: rest

/-- Names can be taken as long as there are any. -/
theorem extend : ∀ (ahead : List Token) {names tokens : List Token}, Dotted names tokens ->
    ∃ all taken behind, Dotted all taken ∧ tokens ++ ahead = taken ++ behind ∧ Stops behind
  | [], names, tokens, dotted => ⟨names, tokens, [], dotted, rfl, .inl Terminal.notNext_nil⟩
  | [only], names, tokens, dotted => by
      refine ⟨names, tokens, [only], dotted, rfl, ?_⟩
      by_cases isDot : (Terminal.operator ".").Matches only
      · exact .inr ⟨only, [], isDot, Terminal.notNext_nil, rfl⟩
      · exact .inl (Terminal.notNext_cons isDot)
  | dot :: name :: ahead, names, tokens, dotted => by
      by_cases isDot : (Terminal.operator ".").Matches dot
      · by_cases isName : Terminal.name.Matches name
        · obtain ⟨all, taken, behind, allDotted, split, stops⟩ :=
            extend ahead (dotted.more isDot isName)
          rw [List.append_assoc] at split
          exact ⟨all, taken, behind, allDotted, split, stops⟩
        · exact ⟨names, tokens, _, dotted, rfl,
            .inr ⟨dot, _, isDot, Terminal.notNext_cons isName, rfl⟩⟩
      · exact ⟨names, tokens, _, dotted, rfl, .inl (Terminal.notNext_cons isDot)⟩

end Dotted

section Values

variable {tokens : List Token}

/-- A simple identifier is a name. -/
theorem simpleIdentifier_spelled {name : Token}
    (spelled : kiwiGrammar.Spells keywords .simpleIdentifier name tokens) :
    Terminal.name.Matches name ∧ tokens = [name] :=
  (spells_simpleIdentifier (Grammar.spells_iff.1 spelled)).symm

/-- A name is read off its segments, and spans them. -/
theorem identifier_spelled {name : Identifier}
    (spelled : kiwiGrammar.Spells keywords .identifier name tokens)
    (located : ∀ token ∈ tokens, token.span.isLocated = true) :
    Dotted name.segments tokens ∧ IsSpanOf name.segments name.span := by
  obtain ⟨first, others, _, behind, segments, rfl, readFirst, readOthers, made⟩ :=
    spells_identifier (Grammar.spells_iff.1 spelled)
  obtain ⟨isName, rfl⟩ := simpleIdentifier_spelled readFirst
  have dotted : Dotted (first :: others) (first :: behind) :=
    (Dotted.one isName).append (fun _ _ => simpleIdentifier_spelled) readOthers
  have isLast := List.getLast?_eq_some_getLast (List.cons_ne_nil first others)
  have lastLocated := located _ (dotted.mem_tokens (List.mem_of_getLast? isLast))
  rw [segments] at made
  have whole := Identifier.build_eq isLast (located first List.mem_cons_self) lastLocated
  obtain rfl := eq_of_ok made whole
  exact ⟨dotted, first, _, rfl, isLast, rfl⟩

/-- So is a simple type. -/
theorem simpleUserType_spelled {name : Token}
    (spelled : kiwiGrammar.Spells keywords .simpleUserType name tokens) :
    Terminal.name.Matches name ∧ tokens = [name] :=
  simpleIdentifier_spelled (Grammar.spells_iff.1 spelled)

/-- A type is read off its segments, and spans them, by induction on how it nests. -/
theorem userType_spelled {type : UserType}
    (spelled : kiwiGrammar.Spells keywords .userType type tokens)
    (located : ∀ token ∈ tokens, token.span.isLocated = true) :
    Dotted type.segments tokens ∧ IsSpanOf type.segments type.span ∧
      type.span.isLocated = true := by
  induction type generalizing tokens with
  | simple name span =>
      rcases spells_userType (Grammar.spells_iff.1 spelled) with
        ⟨_, _, _, _, _, _, ⟨⟩, _⟩ | ⟨_, _, ⟨⟩, read, made⟩
      obtain ⟨isName, rfl⟩ := simpleUserType_spelled read
      have nameLocated := located name List.mem_cons_self
      cases eq_of_ok made (UserType.build_simple nameLocated)
      exact ⟨.one isName, ⟨name, name, rfl, rfl, rfl⟩, nameLocated⟩
  | qualified qualifier name span inductionHypothesis =>
      rcases spells_userType (Grammar.spells_iff.1 spelled) with
        ⟨_, _, _, front, dot, _, ⟨⟩, rfl, readFront, isDot, read, made⟩ | ⟨_, _, ⟨⟩, _⟩
      obtain ⟨isName, rfl⟩ := simpleUserType_spelled read
      obtain ⟨frontLocated, endLocated⟩ := List.forall_mem_append.1 located
      obtain ⟨dotted, ⟨first, last, isFirst, _, isSpan⟩, qualifierLocated⟩ :=
        inductionHypothesis readFront frontLocated
      have nameLocated := endLocated name (by simp)
      cases eq_of_ok made (UserType.build_qualified qualifierLocated nameLocated)
      refine ⟨dotted.more isDot isName, ⟨first, name, ?_, List.getLast?_concat, ?_⟩, ?_⟩
      · exact List.head?_append_of_ne_nil _ qualifier.segments_ne_nil ▸ isFirst
      · rw [isSpan]
        rfl
      · exact Span.isLocated_iff.2 ⟨(Span.isLocated_iff.1 qualifierLocated).1,
          (Span.isLocated_iff.1 nameLocated).2⟩

/-- A name and a type that the same tokens spell have the same text and the same span. -/
theorem alike_of_spelled {name : Identifier} {type : UserType}
    (named : kiwiGrammar.Spells keywords .identifier name tokens)
    (typed : kiwiGrammar.Spells keywords .userType type tokens)
    (located : ∀ token ∈ tokens, token.span.isLocated = true) :
    type.dotted = name.dotted ∧ type.span = name.span ∧
      type.depth + 1 = name.segments.length := by
  obtain ⟨nameDotted, nameSpan⟩ := identifier_spelled named located
  obtain ⟨typeDotted, typeSpan, _⟩ := userType_spelled typed located
  have same := typeDotted.unique nameDotted
  rw [same] at typeSpan
  refine ⟨?_, typeSpan.unique nameSpan, ?_⟩
  · rw [type.dotted_eq, same]
    rfl
  · rw [type.depth_succ, same]

end Values

section Runs

variable {buffer : Buffer} {names tokens rest : List Token} {dot : Token}

/-- Behind a dot a name is missed where neither a name nor a star follows. -/
theorem segment_misses (isDot : (Terminal.operator ".").Matches dot)
    (noName : Terminal.name.NotNext rest) (noStar : (Terminal.operator "*").NotNext rest) :
    kiwiGrammar.Misses (forgetful buffer) segment [dot] rest "simpleIdentifier" := by
  have nameMissed : kiwiGrammar.Misses (forgetful buffer) forcedSegment [] rest
      "simpleIdentifier" := by
    refine .forceCall rfl (by decide) fun state before bound => ?_
    refine Run.expect_of_refused ?_
    rw [before.token?]
    intro token isNext
    rw [← Bool.not_eq_true, accepts_name_iff]
    exact noName token isNext
  exact .afterSecond (literal_reads isDot) (.afterSecond (literal_passes noStar).reads nameMissed)

/-- Behind a dot that no star follows, an identifier misses a name. -/
theorem identifier_misses (dotted : Dotted names tokens) (plain : ∀ token ∈ tokens, token.Plain)
    (isDot : (Terminal.operator ".").Matches dot) (noName : Terminal.name.NotNext rest)
    (noStar : (Terminal.operator "*").NotNext rest) :
    kiwiGrammar.Misses (forgetful buffer) (sub .identifier) (tokens ++ [dot]) rest
      "simpleIdentifier" := by
  obtain ⟨first, others, isName, rfl, repeats⟩ := dotted.segments
  obtain ⟨_, othersPlain⟩ := List.forall_mem_cons.1 plain
  have missed : kiwiGrammar.Misses (forgetful buffer) (.many segment) (others ++ [dot]) rest
      "simpleIdentifier" :=
    .many (repeats_and othersPlain repeats) (fun _ _ part => segments_read part.1 part.2)
      (segment_misses isDot noName noStar)
  have whole : kiwiGrammar.Misses (forgetful buffer)
      (.both (sub .simpleIdentifier) (.many segment)) ([first] ++ (others ++ [dot])) rest
      "simpleIdentifier" := .bothSecond (simpleIdentifier_reads isName) missed
  exact .call rfl (by decide) (.choiceFirst whole.build)

/-- An identifier begins with a name. -/
theorem identifier_refuses (noName : Terminal.name.NotNext rest) :
    kiwiGrammar.Refuses (forgetful buffer) (sub .identifier) rest := by
  have refuses : kiwiGrammar.Refuses (forgetful buffer) (sub .simpleIdentifier) rest := by
    refine .call rfl (by decide) (.token fun token isNext => ?_)
    rw [← Bool.not_eq_true, accepts_name_iff]
    exact noName token isNext
  exact .call rfl (by decide) (.choice (.build (.bothFirst refuses)) .fail)

/-- Behind any dot, a type misses a name. -/
theorem userType_misses (dotted : Dotted names tokens)
    (located : ∀ token ∈ tokens, token.span.isLocated = true)
    (isDot : (Terminal.operator ".").Matches dot) (noName : Terminal.name.NotNext rest) :
    kiwiGrammar.Misses (forgetful buffer) (sub .userType) (tokens ++ [dot]) rest
      "simpleUserType" := by
  refine ⟨3, fun bound enough state before => ?_⟩
  obtain ⟨bound, rfl⟩ : ∃ less, bound = less + 3 := ⟨bound - 3, by omega⟩
  rw [List.append_assoc] at before
  obtain ⟨broken, _, _, ran, _⟩ :=
    userType_broken dotted.derives_userType located isDot noName before bound
  refine ⟨broken, ?_⟩
  rw [List.length_append, List.length_singleton, ← Nat.add_assoc]
  exact ran

/-- Where no name is next, the first round of a type fails, and so does the type. -/
theorem userType_refused {state : State kiwiGrammar} (noName : Terminal.name.NotNext rest)
    (before : state.Before (forgetful buffer) rest) (bound : Nat) :
    (kiwiGrammar.runRule (forgetful buffer) (bound + 3) .userType state).1 = .failure := by
  let seeded := (state.log (.memoMissed "userType" state.cursor true)).remember "userType"
    state.cursor .failure
  let entered := (seeded.moveTo state.cursor).log (.entered "userType" state.cursor)
  have failed : entered.memo.find? "userType" entered.cursor = some .failure :=
    MemoStore.find?_insert_self _ _ _ _
  have noSegment : segmentRound buffer (bound + 2) entered = (.failure, _) :=
    Run.andThen_of_failure (Run.andThen_of_failure
      (userType_remembered buffer (bound + 1) .failure failed))
  let again := ((entered.log (.memoHit "userType" entered.cursor)).moveTo entered.cursor).reset
    entered.cursor
  have refused : ∀ token ∈ buffer.tokens[again.cursor]?, ¬ Terminal.name.Matches token := by
    rw [show again.cursor = state.cursor from State.reset_cursor _ _, before.token?]
    exact noName
  have noRound : typeRound buffer (bound + 2) entered = (.failure, _) :=
    (Run.orElse_of_failure noSegment).trans ((Run.orElse_of_failure
      (Run.andThen_of_failure (simpleUserType_refused refused bound))).trans rfl)
  have grows : kiwiGrammar.runRule (forgetful buffer) (bound + 3) .userType state = _ :=
    (Run.leftRecursive_of_missing (before.fresh KiwiRule.userType rfl _ (Nat.le_refl _))
      before.within).trans (Run.grow_of_failure noRound)
  rw [grows]
  rfl

end Runs

/-- How a rule ends in a new parser that begins at a mark, and where its cursor is then. -/
def endingAt (packrat : Bool) (tokens : List Token) (start : Nat) (rule : KiwiRule) :
    Outcome rule.Value × Nat :=
  let ended := ((kiwiParser packrat tokens).reset start).evaluate (sub rule)
  (ended.1, ended.2.mark)

section Endings

variable {tokens consumed rest : List Token} {start : Nat} {rule : KiwiRule}

/-- What is remembered makes no difference. -/
theorem endingAt_packrat (packrat : Bool) (within : start ≤ (Buffer.close tokens).length) :
    endingAt packrat tokens start rule = endingAt false tokens start rule := by
  cases packrat with
  | false => rfl
  | true =>
      let steps : List (Step kiwiGrammar) := [.reset start, .evaluate rule]
      have inBuffer : ∀ step ∈ steps, step.Within (Buffer.close tokens).length :=
        List.forall_mem_cons.2 ⟨within, List.forall_mem_singleton.2 trivial⟩
      have same := (kiwiParser_twin tokens).reports kiwi_layered
        (kiwi_reports_end false tokens steps inBuffer)
      simp only [steps, Parser.reports, Parser.take, List.cons.injEq, StepReport.mk.injEq] at same
      exact Prod.ext (Answer.ended_inj same.2.1.1) same.2.1.2

/-- The state in which a rule begins at a mark. -/
def begun (start : Nat) : State kiwiGrammar := State.reset .initial start

/-- At a mark of a new parser, the rest of the buffer is ahead. -/
theorem begun_before (within : start ≤ (Buffer.close tokens).length)
    (ahead : (Buffer.close tokens).drop start = rest) :
    (begun start).Before (forgetful (.ofTokens tokens)) rest := by
  have here : (begun start).cursor = start := State.reset_cursor _ _
  refine ⟨by rw [here]; exact ahead, by rw [here]; exact within, ?_⟩
  intro rule _ mark _
  rw [show (begun start).memo = .empty from State.reset_memo _ _, MemoStore.find?_empty]

/-- However deep the rule may nest, it ends as it does with the bound of the parser. -/
theorem endingAt_of_run (packrat : Bool) (within : start ≤ (Buffer.close tokens).length)
    {bound : Nat} {outcome : Outcome rule.Value} {reached : State kiwiGrammar}
    (ran : kiwiGrammar.runRule (forgetful (.ofTokens tokens)) bound rule (begun start) =
      (outcome, reached)) (ends : outcome ≠ .unfinished) :
    endingAt packrat tokens start rule = (outcome, reached.cursor) := by
  let parser := (kiwiParser false tokens).reset start
  have endsFrom :
      (kiwiGrammar.runRule parser.setup parser.bound rule).EndsFrom (· = parser.state) := by
    refine Parser.runRule_ends kiwi_ranked ?_ ((kiwiParser_bounded false tokens).reset within) rule
    exact rank_lt_kiwiBound tokens
  have endsToo : (kiwiGrammar.runRule (forgetful (.ofTokens tokens)) bound rule
      (begun start)).1 ≠ .unfinished := by
    rw [ran]
    exact ends
  have same : kiwiGrammar.runRule parser.setup parser.bound rule parser.state =
      (outcome, reached) :=
    (Grammar.runRule_eq_of_ends (endsFrom _ rfl) endsToo).trans ran
  rw [endingAt_packrat packrat within]
  exact congrArg (fun ended => (ended.1, ended.2.cursor)) same

/-- What is read from a mark spells the value. -/
theorem endingAt_of_reads (packrat : Bool) (within : start ≤ (Buffer.close tokens).length)
    (ahead : (Buffer.close tokens).drop start = consumed ++ rest) {good : rule.Value -> Prop}
    (reads : kiwiGrammar.Reads (forgetful (.ofTokens tokens)) (sub rule) consumed rest good) :
    ∃ value, endingAt packrat tokens start rule = (.success value, start + consumed.length) ∧
      kiwiGrammar.Spells keywords rule value consumed := by
  obtain ⟨low, reads⟩ := reads
  have before := begun_before within ahead
  obtain ⟨value, reached, ran, _, after⟩ := reads low (Nat.le_refl _) _ before
  have here : (begun start).cursor = start := State.reset_cursor _ _
  have stop : reached.cursor = start + consumed.length := by
    have total := before.cursor_add
    have left := after.cursor_add
    rw [List.length_append, here] at total
    omega
  have justified : (begun start).Justified (forgetful (.ofTokens tokens)) := by
    intro rule mark value stop found
    rw [show (begun start).memo = .empty from State.reset_memo _ _, MemoStore.find?_empty] at found
    cases found
  have sound : (kiwiGrammar.runRule (forgetful (.ofTokens tokens)) low rule).Sound
      (forgetful (.ofTokens tokens)) (kiwiGrammar.Spells keywords rule) :=
    Grammar.runRule_sound KiwiRule.name_injective jumpless _ _ _
  have called : kiwiGrammar.runRule (forgetful (.ofTokens tokens)) low rule (begun start) =
      (.success value, reached) := ran
  have spelled := ((sound _ justified).2 value (congrArg Prod.fst called)).2
  rw [called, here, stop] at spelled
  refine ⟨value, stop ▸ endingAt_of_run packrat within called nofun, ?_⟩
  have slice : (Buffer.ofTokens tokens).slice start (start + consumed.length) = consumed := by
    rw [Buffer.slice, Nat.add_sub_cancel_left]
    exact (congrArg (List.take consumed.length) ahead).trans List.take_left
  rwa [slice] at spelled

/-- A rule that misses a name ends the parse where the name is missing. -/
theorem endingAt_of_misses (packrat : Bool) (within : start ≤ (Buffer.close tokens).length)
    (ahead : (Buffer.close tokens).drop start = consumed ++ rest) {expected : String}
    (misses : kiwiGrammar.Misses (forgetful (.ofTokens tokens)) (sub rule) consumed rest
      expected) :
    let mark := start + consumed.length
    ∃ stop, endingAt packrat tokens start rule =
      (.fatal (.forced expected ((Buffer.ofTokens tokens).clamped mark).start mark), stop) := by
  obtain ⟨low, misses⟩ := misses
  obtain ⟨reached, ran⟩ := misses low (Nat.le_refl _) _ (begun_before within ahead)
  rw [show (begun start).cursor = start from State.reset_cursor _ _] at ran
  exact ⟨_, endingAt_of_run packrat within ran nofun⟩

/-- A rule that fails leaves the cursor where it was. -/
theorem endingAt_of_failure (packrat : Bool) (within : start ≤ (Buffer.close tokens).length)
    {bound : Nat}
    (failed : (kiwiGrammar.runRule (forgetful (.ofTokens tokens)) bound rule
      (begun start)).1 = .failure) :
    endingAt packrat tokens start rule = (.failure, start) := by
  have restored := kiwiGrammar.runRule_restores kiwi_layered.restoring
    (forgetful (.ofTokens tokens)) bound rule _ failed
  rw [show (begun start).cursor = start from State.reset_cursor _ _] at restored
  have ended := endingAt_of_run packrat within (Prod.ext failed rfl) nofun
  rwa [restored] at ended

end Endings

/-- The token at a mark is the one that is ahead of it. -/
theorem clamped_of_drop {tokens front rest : List Token} {start : Nat} {token : Token}
    (ahead : (Buffer.close tokens).drop start = front ++ token :: rest) :
    (Buffer.ofTokens tokens).clamped (start + front.length) = token := by
  have here : (Buffer.close tokens)[start + front.length]? = some token := by
    rw [← List.getElem?_drop, ahead, List.getElem?_append_right (Nat.le_refl _), Nat.sub_self]
    rfl
  have inRange := (List.getElem?_eq_some_iff.1 here).1
  exact Option.some.inj ((Buffer.clamped_of_tokens rfl inRange).trans here)

/-- Tokens that begin with names, behind which stand a dot and a star. -/
def Wildcard (names chain : List Token) (star : Token) (ahead : List Token) : Prop :=
  Dotted names chain ∧ (Terminal.operator "*").Matches star ∧
    ∃ dot rest, (Terminal.operator ".").Matches dot ∧ ahead = chain ++ dot :: star :: rest

/-- A name and a type end alike: both with a failure, or both with the same text and span in the
same place, or both with an error in the same place. -/
inductive DottedAlike : Outcome Identifier × Nat -> Outcome UserType × Nat -> Prop where
  | failure (mark : Nat) : DottedAlike (.failure, mark) (.failure, mark)
  | success {name : Identifier} {type : UserType} (stop : Nat) (dotted : type.dotted = name.dotted)
      (span : type.span = name.span) (depth : type.depth + 1 = name.segments.length) :
      DottedAlike (.success name, stop) (.success type, stop)
  | forced (expected other : String) (position : Position) (mark stop typeStop : Nat) :
      DottedAlike (.fatal (.forced expected position mark), stop)
        (.fatal (.forced other position mark), typeStop)

end KiwiGrammar

section Alike

open KiwiGrammar

variable {tokens : List Token} {start : Nat}

/-- Closing a buffer adds no token that is not plain. -/
theorem Peg.Buffer.close_plain (plain : ∀ token ∈ tokens, token.Plain) :
    ∀ token ∈ Buffer.close tokens, token.Plain :=
  Buffer.forall_mem_close plain
    ⟨Buffer.closingMarker_located fun token member => (plain token member).located,
      fun isStar => absurd isStar (show "" ≠ "*" by decide)⟩

/-- Where names are followed by a dot and a star, the name is read without them. -/
theorem identifier_userType_wildcard (packrat other : Bool)
    (plain : ∀ token ∈ tokens, token.Plain) (within : start ≤ (Buffer.close tokens).length)
    {names chain : List Token} {star : Token}
    (wildcard : Wildcard names chain star ((Buffer.close tokens).drop start)) :
    (∃ name, endingAt packrat tokens start .identifier = (.success name, start + chain.length) ∧
      name.segments = names) ∧
    ∃ stop, endingAt other tokens start .userType =
      (.fatal (.forced "simpleUserType" star.start (start + chain.length + 1)), stop) := by
  obtain ⟨dotted, isStar, dot, rest, isDot, ahead⟩ := wildcard
  have plainAhead : ∀ token ∈ chain ++ dot :: star :: rest, token.Plain := fun token member =>
    Buffer.close_plain plain token (List.mem_of_mem_drop (ahead ▸ member))
  obtain ⟨chainPlain, restPlain⟩ := List.forall_mem_append.1 plainAhead
  have chainLocated := fun token member => (chainPlain token member).located
  have noName : Terminal.name.NotNext (star :: rest) := Terminal.notNext_cons fun isName =>
    (restPlain star (by simp)).not_star_of_name isName isStar
  constructor
  · obtain ⟨name, ended, spelled⟩ := endingAt_of_reads packrat within ahead
      (identifier_reads dotted.derives_identifier chainPlain
        (.inr ⟨dot, star, rest, isDot, isStar, rfl⟩))
    exact ⟨name, ended, (identifier_spelled spelled chainLocated).1.unique dotted⟩
  · have aheadToo : (Buffer.close tokens).drop start = (chain ++ [dot]) ++ star :: rest := by
      rw [ahead, List.append_assoc]
      rfl
    obtain ⟨stop, ended⟩ := endingAt_of_misses other within aheadToo
      (userType_misses dotted chainLocated isDot noName)
    rw [clamped_of_drop aheadToo, List.length_append, ← Nat.add_assoc] at ended
    exact ⟨stop, ended⟩

/-- Everywhere else the two end alike. -/
theorem identifier_userType_dottedAlike (packrat other : Bool)
    (plain : ∀ token ∈ tokens, token.Plain) (within : start ≤ (Buffer.close tokens).length)
    (noWildcard : ∀ names chain star,
      ¬ Wildcard names chain star ((Buffer.close tokens).drop start)) :
    DottedAlike (endingAt packrat tokens start .identifier)
      (endingAt other tokens start .userType) := by
  by_cases noName : Terminal.name.NotNext ((Buffer.close tokens).drop start)
  · obtain ⟨low, refuses⟩ := identifier_refuses noName
    have before := begun_before within rfl
    obtain ⟨_, failed, _⟩ := refuses low (Nat.le_refl _) _ before
    rw [endingAt_of_failure packrat within (congrArg Prod.fst failed),
      endingAt_of_failure other within (userType_refused noName before 0)]
    exact .failure start
  · obtain ⟨first, isNext, isName⟩ : ∃ first ∈ ((Buffer.close tokens).drop start).head?,
        Terminal.name.Matches first := by
      simpa [Terminal.NotNext] using noName
    obtain ⟨rest, begins⟩ : ∃ rest, (Buffer.close tokens).drop start = first :: rest :=
      List.head?_eq_some_iff.1 isNext
    obtain ⟨names, chain, behind, dotted, split, stops⟩ := (Dotted.one isName).extend rest
    have ahead : (Buffer.close tokens).drop start = chain ++ behind := begins.trans split
    have plainAhead : ∀ token ∈ chain ++ behind, token.Plain := fun token member =>
      Buffer.close_plain plain token (List.mem_of_mem_drop (ahead ▸ member))
    have chainPlain := (List.forall_mem_append.1 plainAhead).1
    have chainLocated := fun token member => (chainPlain token member).located
    -- Behind the segments comes no dot, or one without a name behind it.
    rcases stops with noDot | ⟨dot, left, isDot, noNameLeft, rfl⟩
    · obtain ⟨name, ended, spelled⟩ := endingAt_of_reads packrat within ahead
        (identifier_reads dotted.derives_identifier chainPlain (.inl noDot))
      obtain ⟨type, endedToo, spelledToo⟩ := endingAt_of_reads other within ahead
        (userType_reads dotted.derives_userType chainLocated noDot)
      obtain ⟨sameText, sameSpan, depth⟩ := alike_of_spelled spelled spelledToo chainLocated
      rw [ended, endedToo]
      exact .success _ sameText sameSpan depth
    · have noStar : (Terminal.operator "*").NotNext left := by
        intro star isNext isStar
        obtain ⟨rest, rfl⟩ := List.head?_eq_some_iff.1 isNext
        exact noWildcard names chain star ⟨dotted, isStar, dot, rest, isDot, ahead⟩
      have aheadToo : (Buffer.close tokens).drop start = (chain ++ [dot]) ++ left := by
        rw [ahead, List.append_assoc]
        rfl
      obtain ⟨_, ended⟩ := endingAt_of_misses packrat within aheadToo
        (identifier_misses dotted chainPlain isDot noNameLeft noStar)
      obtain ⟨_, endedToo⟩ := endingAt_of_misses other within aheadToo
        (userType_misses dotted chainLocated isDot noNameLeft)
      rw [ended, endedToo]
      exact .forced _ _ _ _ _ _

/-- From any mark a dotted name and a dotted type are read alike, whatever the parsers remember,
but for names that a dot and a star follow: there the name is all that stands before the dot,
and the type misses a segment at the star. -/
theorem identifier_agrees_userType (tokens : List Token) (plain : ∀ token ∈ tokens, token.Plain)
    (start : Nat) (within : start ≤ (Buffer.close tokens).length) (packrat other : Bool) :
    let named := endingAt packrat tokens start .identifier
    let typed := endingAt other tokens start .userType
    let ahead := (Buffer.close tokens).drop start
    (∀ names chain star, Wildcard names chain star ahead ->
      (∃ name, named = (.success name, start + chain.length) ∧ name.segments = names) ∧
      ∃ stop, typed =
        (.fatal (.forced "simpleUserType" star.start (start + chain.length + 1)), stop)) ∧
    ((∀ names chain star, ¬ Wildcard names chain star ahead) -> DottedAlike named typed) :=
  ⟨fun _ _ _ => identifier_userType_wildcard packrat other plain within,
    identifier_userType_dottedAlike packrat other plain within⟩

/-- A name that a wildcard follows ends before its dot. -/
theorem identifier_agrees_userType_before_star :
    let tokens := [Token.nameAt 0 0 "a", .placed .dot "." 0 1, .nameAt 0 2 "b",
      .placed .dot "." 0 3, .placed .star "*" 0 4]
    (∀ token ∈ tokens, token.Plain) ∧ 0 ≤ (Buffer.close tokens).length ∧
      (∃ name, endingAt true tokens 0 .identifier = (.success name, 3) ∧
        name.segments.map Token.text = ["a", "b"]) ∧
      ∃ stop, endingAt false tokens 0 .userType =
        (.fatal (.forced "simpleUserType" ⟨0, 4⟩ 4), stop) := by
  intro tokens
  have plain : ∀ token ∈ tokens, token.Plain := by decide
  have dotted : Dotted ([Token.nameAt 0 0 "a"] ++ [.nameAt 0 2 "b"])
      ([Token.nameAt 0 0 "a"] ++ [.placed .dot "." 0 1, .nameAt 0 2 "b"]) :=
    .more (.one ⟨rfl, by decide⟩) ⟨by decide, rfl⟩ ⟨rfl, by decide⟩
  have wildcard : Wildcard _ _ (Token.placed .star "*" 0 4) ((Buffer.close tokens).drop 0) :=
    ⟨dotted, ⟨by decide, rfl⟩, .placed .dot "." 0 3, [.endMarkerAt 0 5], ⟨by decide, rfl⟩, rfl⟩
  obtain ⟨⟨name, named, segments⟩, typed⟩ :=
    (identifier_agrees_userType tokens plain 0 (Nat.zero_le _) true false).1 _ _ _ wildcard
  exact ⟨plain, Nat.zero_le _, ⟨name, named, by rw [segments]; rfl⟩, typed⟩

end Alike

end KiwiFront
