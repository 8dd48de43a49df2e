import KiwiFront.Parse
import KiwiFront.Proofs.Grammar.Lookahead
import KiwiFront.Proofs.Peg.Reading
import KiwiFront.Proofs.Peg.Remembering
import KiwiFront.Proofs.Tree.Spans

/-!
# Reading dotted types

A user type is read in rounds. The first round finds the failure remembered that growing
begins with, and reads a name. Every later round finds the type so far and reads one more
segment behind it. The last round finds no dot, falls back to the first name, and ends the
growth, since it comes no further than the round before.
-/

namespace KiwiFront

open Peg

namespace KiwiGrammar

/-- A dot and a name that is not reserved. -/
def Segment (tokens : List Token) : Prop :=
  ∃ dot name, (Terminal.operator ".").Matches dot ∧ Terminal.name.Matches name ∧
    tokens = [dot, name]

theorem derives_simpleIdentifier_iff {tokens : List Token} :
    kiwiGrammar.Derives keywords .simpleIdentifier tokens ↔
      ∃ name, Terminal.name.Matches name ∧ tokens = [name] :=
  derives_iff

theorem derives_simpleUserType_iff {tokens : List Token} :
    kiwiGrammar.Derives keywords .simpleUserType tokens ↔
      ∃ name, Terminal.name.Matches name ∧ tokens = [name] :=
  derives_iff.trans derives_simpleIdentifier_iff

/-- However its segments nest, a user type is a name with segments behind it. -/
theorem dotted_of_userType {tokens : List Token}
    (derived : kiwiGrammar.Derives keywords .userType tokens) :
    ∃ name segments, Terminal.name.Matches name ∧ Repeats Segment segments ∧
      tokens = name :: segments := by
  obtain ⟨height, derived⟩ := derived
  induction height generalizing tokens with
  | zero => exact derived.elim
  | succ height inductionHypothesis =>
      rcases (describes_iff _ .userType tokens).1 derived with longer | simple
      · obtain ⟨_, _, rfl, qualified, _, _, rfl, ⟨dot, isDot, rfl⟩, last⟩ := longer
        obtain ⟨name, segments, isName, repeats, rfl⟩ := inductionHypothesis qualified
        obtain ⟨other, isOther, rfl⟩ := derives_simpleUserType_iff.1 ⟨height, last⟩
        exact ⟨name, _, isName, repeats.concat ⟨dot, other, isDot, isOther, rfl⟩, rfl⟩
      · obtain ⟨name, isName, rfl⟩ := derives_simpleUserType_iff.1 ⟨height, simple⟩
        exact ⟨name, [], isName, .none, rfl⟩

/-- A parser of the language that remembers nothing but growing rules. -/
abbrev forgetful (buffer : Buffer) : Setup := ⟨buffer, keywords, false⟩

variable {buffer : Buffer} {state : State kiwiGrammar} {name : Token}

/-- A name is read as a segment, whatever is remembered. -/
theorem simpleUserType_run (here : buffer.tokens[state.cursor]? = some name)
    (isName : Terminal.name.Matches name) (bound : Nat) :
    ∃ reached, kiwiGrammar.runRule (forgetful buffer) (bound + 2) .simpleUserType state =
        (.success name, reached) ∧
      reached.cursor = state.cursor + 1 ∧ reached.memo = state.memo := by
  refine ⟨(state.log (.entered "simpleIdentifier" state.cursor)).consume, ?_, rfl, rfl⟩
  exact Run.expect_of_accepted here (accepts_name_iff.2 isName)

/-- Anything else is refused. -/
theorem simpleUserType_refused
    (other : ∀ token ∈ buffer.tokens[state.cursor]?, ¬ Terminal.name.Matches token)
    (bound : Nat) :
    kiwiGrammar.runRule (forgetful buffer) (bound + 2) .simpleUserType state =
      (.failure, state.log (.entered "simpleIdentifier" state.cursor)) := by
  apply Run.expect_of_refused
  intro token here
  rw [← Bool.not_eq_true, accepts_name_iff]
  exact other token here

/-- A name alone is a simple type. -/
theorem simpleType_run (here : buffer.tokens[state.cursor]? = some name)
    (isName : Terminal.name.Matches name) (located : name.span.isLocated = true) (bound : Nat) :
    ∃ reached, simpleType.run (forgetful buffer)
        (kiwiGrammar.runRule (forgetful buffer) (bound + 2)) (bound + 2) state =
        (.success (.simple name name.span), reached) ∧
      reached.cursor = state.cursor + 1 ∧ reached.memo = state.memo := by
  obtain ⟨reached, ran, ahead, sameMemo⟩ := simpleUserType_run here isName bound
  refine ⟨reached.log (.schemaAsked "UserType"), ?_, ahead, sameMemo⟩
  exact (Run.andThen_of_success ran).trans (Run.build_of_ok (UserType.build_simple located))

/-- One evaluation of the expression for user types. -/
def typeRound (buffer : Buffer) (bound : Nat) : Run kiwiGrammar UserType :=
  (body .userType).run (forgetful buffer) (kiwiGrammar.runRule (forgetful buffer) bound) bound

/-- Its first choice. -/
def segmentRound (buffer : Buffer) (bound : Nat) : Run kiwiGrammar UserType :=
  qualifiedType.run (forgetful buffer) (kiwiGrammar.runRule (forgetful buffer) bound) bound

/-- What is remembered of a user type stands for it. -/
theorem userType_remembered (buffer : Buffer) (bound : Nat)
    (outcome : Cached (kiwiGrammar.Value .userType))
    (found : state.memo.find? "userType" state.cursor =
      some (outcome.tagged KiwiRule.userType)) :
    kiwiGrammar.runRule (forgetful buffer) (bound + 1) .userType state = (outcome.toOutcome,
      (state.log (.memoHit "userType" state.cursor)).moveTo (outcome.stopFrom state.cursor)) :=
  Run.inMode_of_tagged (.inl rfl) found

section Rounds

variable {bound : Nat} {first dot : Token} {type : UserType} {stop : Nat}

/-- Where the first choice is refused, a round reads a name. -/
theorem typeRound_of_refused {refused : State kiwiGrammar}
    (failed : segmentRound buffer (bound + 2) state = (.failure, refused))
    (sameMemo : refused.memo = state.memo) (here : buffer.tokens[state.cursor]? = some first)
    (isName : Terminal.name.Matches first) (located : first.span.isLocated = true) :
    ∃ reached, typeRound buffer (bound + 2) state =
        (.success (.simple first first.span), reached) ∧
      reached.cursor = state.cursor + 1 ∧ reached.memo = state.memo := by
  have sameCursor : (refused.reset state.cursor).cursor = state.cursor := State.reset_cursor _ _
  rw [← sameCursor] at here
  obtain ⟨reached, ran, ahead, keptMemo⟩ := simpleType_run here isName located bound
  refine ⟨reached, ?_, by rw [ahead, sameCursor], ?_⟩
  · exact (Run.orElse_of_failure failed).trans (Run.orElse_of_success ran)
  · rw [keptMemo, State.reset_memo, sameMemo]

/-- The first round finds a failure and reads a name. -/
theorem typeRound_first (found : state.memo.find? "userType" state.cursor = some .failure)
    (here : buffer.tokens[state.cursor]? = some first) (isName : Terminal.name.Matches first)
    (located : first.span.isLocated = true) :
    ∃ reached, typeRound buffer (bound + 2) state =
        (.success (.simple first first.span), reached) ∧
      reached.cursor = state.cursor + 1 ∧ reached.memo = state.memo := by
  have nothing := userType_remembered buffer (bound + 1) .failure found
  have failed : segmentRound buffer (bound + 2) state = (.failure, _) :=
    Run.andThen_of_failure (Run.andThen_of_failure nothing)
  exact typeRound_of_refused failed rfl here isName located

/-- A later round finds the type so far and reads a segment behind it. -/
theorem typeRound_more (found : state.memo.find? "userType" state.cursor =
      some (.success ⟨KiwiTag.userType, type⟩ stop))
    (typeLocated : type.span.isLocated = true) (dotHere : buffer.tokens[stop]? = some dot)
    (isDot : (Terminal.operator ".").Matches dot)
    (nameHere : buffer.tokens[stop + 1]? = some name) (isName : Terminal.name.Matches name)
    (nameLocated : name.span.isLocated = true) :
    ∃ reached, typeRound buffer (bound + 2) state =
        (.success (.qualified type name ⟨type.span.start, name.stop⟩), reached) ∧
      reached.cursor = stop + 2 ∧ reached.memo = state.memo := by
  let between := (state.log (.memoHit "userType" state.cursor)).moveTo stop
  have qualified := userType_remembered buffer (bound + 1) (.success type stop) found
  have dotted : Run.expect (forgetful buffer) (.literal ".") between =
      (.success dot, between.consume) :=
    Run.expect_of_accepted dotHere (accepts_literal_iff.2 isDot)
  have nameBehind : buffer.tokens[between.consume.cursor]? = some name := nameHere
  obtain ⟨reached, ran, ahead, sameMemo⟩ := simpleUserType_run nameBehind isName bound
  have segment : Run.force (forgetful buffer) "simpleUserType"
      (kiwiGrammar.runRule (forgetful buffer) (bound + 2) .simpleUserType) between.consume =
        (.success name, reached) := Run.force_of_success ran
  have read : segmentRound buffer (bound + 2) state =
      (.success (.qualified type name ⟨type.span.start, name.stop⟩),
        reached.log (.schemaAsked "UserType")) :=
    Expression.run_build_of_success
      (Expression.run_both_of_success qualified (Expression.run_after_of_success dotted segment))
      (UserType.build_qualified typeLocated nameLocated)
  exact ⟨_, Run.orElse_of_success read, ahead, sameMemo⟩

/-- The last round finds no dot behind the type so far, and falls back to a name. -/
theorem typeRound_last (found : state.memo.find? "userType" state.cursor =
      some (.success ⟨KiwiTag.userType, type⟩ stop))
    (noDot : ∀ token ∈ buffer.tokens[stop]?, ¬ (Terminal.operator ".").Matches token)
    (here : buffer.tokens[state.cursor]? = some first) (isName : Terminal.name.Matches first)
    (located : first.span.isLocated = true) :
    ∃ reached, typeRound buffer (bound + 2) state =
        (.success (.simple first first.span), reached) ∧
      reached.cursor = state.cursor + 1 ∧ reached.memo = state.memo := by
  let between := (state.log (.memoHit "userType" state.cursor)).moveTo stop
  have qualified := userType_remembered buffer (bound + 1) (.success type stop) found
  have undotted : Run.expect (forgetful buffer) (.literal ".") between = (.failure, between) := by
    apply Run.expect_of_refused
    intro token behind
    rw [← Bool.not_eq_true, accepts_literal_iff]
    exact noDot token behind
  have failed : segmentRound buffer (bound + 2) state = (.failure, between) :=
    Run.andThen_of_failure ((Run.andThen_of_success qualified).trans
      (Run.andThen_of_failure (Run.andThen_of_failure (Run.andThen_of_failure undotted))))
  exact typeRound_of_refused failed rfl here isName located

/-- A round that finds a dot but no name behind it ends the parse. -/
theorem typeRound_broken (found : state.memo.find? "userType" state.cursor =
      some (.success ⟨KiwiTag.userType, type⟩ stop))
    (dotHere : buffer.tokens[stop]? = some dot) (isDot : (Terminal.operator ".").Matches dot)
    (noName : ∀ token ∈ buffer.tokens[stop + 1]?, ¬ Terminal.name.Matches token) :
    ∃ reached, typeRound buffer (bound + 2) state = (.fatal (.forced "simpleUserType"
        (buffer.clamped (stop + 1)).start (stop + 1)), reached) ∧
      reached.memo = state.memo := by
  let between := (state.log (.memoHit "userType" state.cursor)).moveTo stop
  have qualified := userType_remembered buffer (bound + 1) (.success type stop) found
  have dotted : Run.expect (forgetful buffer) (.literal ".") between =
      (.success dot, between.consume) :=
    Run.expect_of_accepted dotHere (accepts_literal_iff.2 isDot)
  have nameless : ∀ token ∈ buffer.tokens[between.consume.cursor]?,
      ¬ Terminal.name.Matches token := noName
  have broken : Run.force (forgetful buffer) "simpleUserType"
      (kiwiGrammar.runRule (forgetful buffer) (bound + 2) .simpleUserType) between.consume =
        (.fatal (.forced "simpleUserType" (buffer.clamped (stop + 1)).start (stop + 1)), _) :=
    Run.force_of_failure (simpleUserType_refused nameless bound)
  have failed : segmentRound buffer (bound + 2) state =
      (.fatal (.forced "simpleUserType" (buffer.clamped (stop + 1)).start (stop + 1)), _) :=
    Run.andThen_of_fatal ((Run.andThen_of_success qualified).trans (Run.andThen_of_fatal
      (Run.andThen_of_fatal ((Run.andThen_of_success dotted).trans (Run.andThen_of_fatal broken)))))
  exact ⟨_, Run.orElse_of_fatal failed, rfl⟩

end Rounds

/-- Between two rounds the type so far is remembered with its end, and no other one behind
its first token. -/
structure TypeSoFar (start : Nat) (type : UserType) (stop : Nat) (state : State kiwiGrammar) :
    Prop where
  located : type.span.isLocated = true
  further : start < stop
  remembered : state.memo.find? "userType" start =
    some (.success ⟨KiwiTag.userType, type⟩ stop)
  fresh : ∀ mark, start < mark -> state.memo.find? "userType" mark = none

namespace TypeSoFar

variable {start stop : Nat} {type : UserType} {first : Token} {rest : List Token}

/-- A round that has come further leaves a type behind. -/
theorem remember (fresh : ∀ mark, start < mark -> state.memo.find? "userType" mark = none)
    (located : type.span.isLocated = true) (further : start < state.cursor) (event : Event) :
    TypeSoFar start type state.cursor ((state.log event).remember "userType" start
      (.success ⟨KiwiTag.userType, type⟩ state.cursor)) := by
  refine ⟨located, further, MemoStore.find?_insert_self _ _ _ _, ?_⟩
  intro mark behind
  rw [State.remember_memo, MemoStore.find?_insert, if_neg (by omega)]
  exact fresh mark behind

/-- Once growing ends, no type is remembered ahead. -/
theorem before (soFar : TypeSoFar start type stop state)
    (tokens : buffer.tokens.toList.drop stop = rest) (within : stop ≤ buffer.tokens.size) :
    (state.moveTo stop).Before (forgetful buffer) rest := by
  refine ⟨tokens, within, ?_⟩
  intro rule growing mark ahead
  obtain rfl : rule = KiwiRule.userType := by
    cases rule <;> first | rfl | cases growing
  exact soFar.fresh mark (Nat.lt_of_lt_of_le soFar.further ahead)

/-- Growing takes all segments behind the type so far, if it may go on for long enough, and
goes on with the round behind them. -/
theorem grow_segments {segments : List Token} (repeats : Repeats Segment segments)
    (located : ∀ token ∈ segments, token.span.isLocated = true)
    (soFar : TypeSoFar start type stop state)
    (tokens : buffer.tokens.toList.drop stop = segments ++ rest) {count : Nat}
    (enough : segments.length < count) (bound : Nat) :
    ∃ whole later less, Run.grow KiwiRule.userType (typeRound buffer (bound + 2)) start count
        (some (type, stop)) state =
          Run.grow KiwiRule.userType (typeRound buffer (bound + 2)) start (less + 1)
            (some (whole, stop + segments.length)) later ∧
      TypeSoFar start whole (stop + segments.length) later := by
  induction repeats generalizing type stop state count with
  | none =>
      obtain ⟨less, rfl⟩ : ∃ less, count = less + 1 := ⟨count - 1, by omega⟩
      exact ⟨type, state, less, rfl, soFar⟩
  | @more piece others segment later inductionHypothesis =>
      obtain ⟨dot, name, isDot, isName, rfl⟩ := segment
      obtain ⟨count, rfl⟩ : ∃ less, count = less + 1 := ⟨count - 1, by omega⟩
      let entered := (state.moveTo start).log (.entered "userType" start)
      have remembered : entered.memo.find? "userType" entered.cursor = _ := soFar.remembered
      have tokensBehind : buffer.tokens.toList.drop (stop + 1) = name :: (others ++ rest) := by
        rw [← List.drop_drop, tokens]
        rfl
      have dotHere : buffer.tokens[stop]? = some dot := Buffer.token?_of_drop tokens
      have nameHere : buffer.tokens[stop + 1]? = some name := Buffer.token?_of_drop tokensBehind
      have nameLocated := located name (by simp)
      obtain ⟨reached, ran, ahead, sameMemo⟩ :=
        typeRound_more remembered soFar.located dotHere isDot nameHere isName nameLocated
      have further : stop < reached.cursor := by omega
      have fresh : ∀ mark, start < mark -> reached.memo.find? "userType" mark = none := by
        rw [sameMemo]
        exact soFar.fresh
      -- The round is accepted: the segment is joined to the type so far.
      let longer : UserType := .qualified type name ⟨type.span.start, name.stop⟩
      have longerLocated : longer.span.isLocated = true := Span.isLocated_iff.2
        ⟨(Span.isLocated_iff.1 soFar.located).1, (Span.isLocated_iff.1 nameLocated).2⟩
      have soFarLater : TypeSoFar start longer reached.cursor _ :=
        remember fresh longerLocated (Nat.lt_trans soFar.further further)
          (.grew "userType" start reached.cursor)
      have tokensLater : buffer.tokens.toList.drop reached.cursor = others ++ rest := by
        rw [ahead, ← List.drop_drop, tokens]
        rfl
      rw [List.length_append, List.length_cons, List.length_singleton] at enough
      obtain ⟨whole, final, less, grown, result⟩ := inductionHypothesis
        (fun token member => located token (List.mem_append_right _ member)) soFarLater
        tokensLater (show others.length < count by omega)
      have sameStop : reached.cursor + others.length = stop + ([dot, name] ++ others).length := by
        rw [ahead, List.length_append, Nat.add_assoc]
        rfl
      rw [sameStop] at grown result
      refine ⟨whole, final, less, ?_, result⟩
      refine (Run.grow_of_further ran ?_).trans grown
      exact further

end TypeSoFar

/-- Where no type is remembered ahead, all segments of a type are taken, and then comes one
round more. -/
theorem userType_grows {tokens rest : List Token}
    (derived : kiwiGrammar.Derives keywords .userType tokens)
    (located : ∀ token ∈ tokens, token.span.isLocated = true)
    (before : state.Before (forgetful buffer) (tokens ++ rest)) (bound : Nat) :
    ∃ first type later less, buffer.tokens[state.cursor]? = some first ∧
      Terminal.name.Matches first ∧ first ∈ tokens ∧
      kiwiGrammar.runRule (forgetful buffer) (bound + 3) .userType state =
        Run.grow KiwiRule.userType (typeRound buffer (bound + 2)) state.cursor (less + 1)
          (some (type, state.cursor + tokens.length)) later ∧
      TypeSoFar state.cursor type (state.cursor + tokens.length) later := by
  obtain ⟨first, segments, isName, repeats, rfl⟩ := dotted_of_userType derived
  have freshAhead := before.fresh KiwiRule.userType rfl
  let seeded := (state.log (.memoMissed "userType" state.cursor true)).remember "userType"
    state.cursor .failure
  let entered := (seeded.moveTo state.cursor).log (.entered "userType" state.cursor)
  have failed : entered.memo.find? "userType" entered.cursor = some .failure :=
    MemoStore.find?_insert_self _ _ _ _
  have firstLocated : first.span.isLocated = true := located first List.mem_cons_self
  have firstHere : buffer.tokens[entered.cursor]? = some first := before.token_here
  -- In the first round the rule is remembered to fail, so it reads the first segment alone.
  obtain ⟨reached, ran, (ahead : reached.cursor = state.cursor + 1), sameMemo⟩ :=
    typeRound_first failed firstHere isName firstLocated
  have further : state.cursor < reached.cursor := by
    rw [ahead]
    exact Nat.lt_succ_self _
  have fresh : ∀ mark, state.cursor < mark -> reached.memo.find? "userType" mark = none := by
    intro mark behind
    rw [sameMemo]
    refine (MemoStore.find?_insert _ _ _ _ _ _).trans ?_
    rw [if_neg (by omega)]
    exact freshAhead mark (Nat.le_of_lt behind)
  let simple : UserType := .simple first first.span
  have simpleLocated : simple.span.isLocated = true := firstLocated
  have soFar : TypeSoFar state.cursor simple reached.cursor _ :=
    TypeSoFar.remember fresh simpleLocated further (.grew "userType" state.cursor reached.cursor)
  have total : state.cursor + _ = buffer.tokens.size := before.cursor_add
  rw [List.length_append, List.length_cons] at total
  have tokensBehind : buffer.tokens.toList.drop reached.cursor = segments ++ rest := by
    rw [ahead, ← List.drop_drop]
    exact congrArg (List.drop 1) before.tokens
  obtain ⟨type, later, less, grown, result⟩ := TypeSoFar.grow_segments repeats
    (fun token member => located token (List.mem_cons_of_mem _ member)) soFar tokensBehind
    (show segments.length < buffer.tokens.size - state.cursor + 1 by omega) bound
  have sameStop : reached.cursor + segments.length =
      state.cursor + (first :: segments).length := by
    rw [ahead, List.length_cons]
    omega
  rw [sameStop] at grown result
  refine ⟨first, type, later, less, firstHere, isName, List.mem_cons_self, ?_, result⟩
  refine (Run.leftRecursive_of_missing (freshAhead _ (Nat.le_refl _)) ?_).trans ?_
  · exact (Nat.le_add_right _ _).trans (Nat.le_of_eq total)
  refine (Run.grow_of_further ran ?_).trans grown
  exact further

/-- A user type is read off its tokens, unless a dot stands behind them. -/
theorem userType_reads {tokens rest : List Token}
    (derived : kiwiGrammar.Derives keywords .userType tokens)
    (located : ∀ token ∈ tokens, token.span.isLocated = true)
    (noDot : (Terminal.operator ".").NotNext rest) :
    kiwiGrammar.Reads (forgetful buffer) (sub .userType) tokens rest
      fun type => type.span.isLocated = true := by
  refine ⟨3, fun bound enough state before => ?_⟩
  obtain ⟨bound, rfl⟩ : ∃ less, bound = less + 3 := ⟨bound - 3, by omega⟩
  obtain ⟨first, type, later, less, here, isName, member, grows, soFar⟩ :=
    userType_grows derived located before bound
  let entered := (later.moveTo state.cursor).log (.entered "userType" state.cursor)
  have remembered : entered.memo.find? "userType" entered.cursor = _ := soFar.remembered
  rw [Terminal.NotNext, ← Buffer.token?_of_drop before.drop_append] at noDot
  obtain ⟨reached, ran, ahead, sameMemo⟩ :=
    typeRound_last remembered noDot here isName (located first member)
  have total : state.cursor + _ = buffer.tokens.size := before.cursor_add
  rw [List.length_append] at total
  have within : state.cursor + tokens.length ≤ buffer.tokens.size := by omega
  refine ⟨type, reached.moveTo (state.cursor + tokens.length), ?_, soFar.located, ?_⟩
  · refine grows.trans (Run.grow_of_stuck ran ?_)
    rw [ahead]
    exact soFar.further
  · refine (soFar.before before.drop_append within).congr rfl ?_
    exact sameMemo

/-- A user type that breaks off behind a dot ends the parse, but only once: the type so far
stays remembered, and the next time it is read without the dot. -/
theorem userType_broken {tokens behind : List Token} {dot : Token}
    (derived : kiwiGrammar.Derives keywords .userType tokens)
    (located : ∀ token ∈ tokens, token.span.isLocated = true)
    (isDot : (Terminal.operator ".").Matches dot)
    (noName : Terminal.name.NotNext behind)
    (before : state.Before (forgetful buffer) (tokens ++ dot :: behind)) (bound : Nat) :
    let stop := state.cursor + tokens.length
    ∃ broken type again,
      kiwiGrammar.runRule (forgetful buffer) (bound + 3) .userType state =
        (.fatal (.forced "simpleUserType" (buffer.clamped (stop + 1)).start (stop + 1)), broken) ∧
      kiwiGrammar.runRule (forgetful buffer) (bound + 3) .userType (broken.reset state.cursor) =
        (.success type, again) ∧
      type.span.isLocated = true ∧ again.cursor = stop := by
  intro stop
  obtain ⟨first, type, later, less, here, isName, member, grows, soFar⟩ :=
    userType_grows derived located before bound
  let entered := (later.moveTo state.cursor).log (.entered "userType" state.cursor)
  have remembered : entered.memo.find? "userType" entered.cursor = _ := soFar.remembered
  have dotHere : buffer.tokens[stop]? = some dot := Buffer.token?_of_drop before.drop_append
  have tokensBehind : buffer.tokens.toList.drop (stop + 1) = behind := by
    rw [← List.drop_drop, before.drop_append]
    rfl
  rw [Terminal.NotNext, ← Buffer.token?_of_drop tokensBehind] at noName
  obtain ⟨broken, ran, sameMemo⟩ := typeRound_broken remembered dotHere isDot noName
  have kept : (broken.reset state.cursor).memo.find? "userType"
      (broken.reset state.cursor).cursor = some (.success ⟨KiwiTag.userType, type⟩ stop) := by
    rw [State.reset_memo, State.reset_cursor, sameMemo]
    exact remembered
  have again := userType_remembered buffer (bound + 2) (.success type stop) kept
  exact ⟨broken, type, _, grows.trans (Run.grow_of_fatal ran), again, soFar.located, rfl⟩

/-- A type that breaks off is an error at first, and a type the next time. -/
theorem userType_broken_once :
    let tokens := [Token.nameAt 0 0 "a", .placed .dot "." 0 1, .placed .semicolon ";" 0 2]
    let parser := kiwiParser false tokens
    let broken := parser.evaluate (.call KiwiRule.userType)
    broken.1 = .fatal (.forced "simpleUserType" ⟨0, 2⟩ 2) ∧
      ∃ type, ((broken.2.reset parser.mark).evaluate (.call KiwiRule.userType)).1 =
        .success type := by
  intro tokens parser broken
  have derived : kiwiGrammar.Derives keywords .userType [Token.nameAt 0 0 "a"] :=
    derives_iff.2 (.inr (derives_simpleUserType_iff.2 ⟨_, ⟨rfl, by decide⟩, rfl⟩))
  have before : parser.state.Before (forgetful parser.setup.buffer)
      ([Token.nameAt 0 0 "a"] ++ .placed .dot "." 0 1 ::
        [.placed .semicolon ";" 0 2, .endMarkerAt 0 3]) :=
    ⟨rfl, Nat.zero_le _, fun _ _ _ _ => MemoStore.find?_empty _ _⟩
  have nameless : Terminal.name.NotNext [Token.placed .semicolon ";" 0 2, .endMarkerAt 0 3] :=
    Terminal.notNext_cons fun isName => nomatch isName.1
  obtain ⟨reached, type, again, failed, succeeded, _⟩ :=
    userType_broken derived (by decide) ⟨by decide, rfl⟩ nameless before 35
  have evaluated : broken = (_, { parser with state := reached }) :=
    congrArg (fun ended => (ended.1, { parser with state := ended.2 })) failed
  rw [evaluated]
  exact ⟨rfl, type, congrArg Prod.fst succeeded⟩

end KiwiGrammar

end KiwiFront
