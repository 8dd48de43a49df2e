import KiwiFront.Proofs.Grammar.Sessions
import KiwiFront.Proofs.Lexer.Buffered
import KiwiFront.Proofs.Peg.Walls

/-!
# Sigils stop every parse

No rule of the language asks for a sigil, be it joined with its name or on its own. Joining
changes the tokens from the first joined name on only, and no rule gets beyond a sigil to see
the change: a parse ends there with the same error at the same position.
-/

namespace KiwiFront

open Peg

namespace KiwiGrammar

/-- What the rules of the language ask for: names, operators of the language, and the ends of
lines and of the tokens. -/
def Asked : Matcher -> Prop
  | .kind wanted => wanted = .newline ∨ wanted = .endMarker
  | .literal text => text ∈ operators.map Prod.fst
  | .name | .keyword _ => True

section Shape

attribute [local simp] body sub keyword literal forcedLiteral forcedSegment forcedIdentifier
  forcedSemi start packageHeader identifier importHeader importAlias importWildcard
  functionDeclaration parenthesizedType qualifiedType simpleType Expression.alternatives
  Expression.optional Expression.after Expression.before

theorem asks (rule : KiwiRule) : (body rule).Asks Asked := by
  cases rule <;> simp [Expression.Asks, Asked, operators]

end Shape

/-- A sigil with or without a name is not among that. -/
theorem refused_of_sigil {token : Token} (proper : token.Proper)
    (kind : token.kind = .sigilName ∨ token.kind = .errorToken) (matcher : Matcher)
    (asked : Asked matcher) : matcher.accepts keywords token = false := by
  have noOperator : ∀ entry ∈ operators, token.kind ≠ entry.2 := by
    rcases kind with isKind | isKind <;> rw [isKind] <;> decide
  rw [← Bool.not_eq_true]
  cases matcher with
  | kind wanted =>
      rcases asked with rfl | rfl <;> rcases kind with isKind | isKind <;>
        simp [Matcher.accepts, isKind]
  | literal text =>
      rw [accepts_literal_iff]
      exact proper.not_operator noOperator asked
  | name | keyword =>
      rcases kind with isKind | isKind <;> simp [Matcher.accepts, isKind]

end KiwiGrammar

/-- Joining names to their sigils changes nothing before the first name that it joins. -/
theorem condense_joined (tokens : List Token) :
    condense true tokens = condense false tokens ∨
      ∃ front sigil name joinedRest rest, sigil.isSigil = true ∧
        condense true tokens = front ++ sigil.joinName name :: joinedRest ∧
        condense false tokens = front ++ sigil :: name :: rest := by
  induction tokens using condense_induction true with
  | nil => exact .inl rfl
  | dropped token rest isDropped inductionHypothesis =>
      rw [condense_dropped isDropped, condense_dropped isDropped]
      exact inductionHypothesis
  | joined sigil name rest _ isSigil touches _ =>
      -- Here the two part; what the rest of them is like does not matter.
      refine .inr ⟨[], sigil, name, _, condense false rest, isSigil,
        condense_sigil isSigil touches, ?_⟩
      rw [condense_of_kept (Token.not_isDropped_of_sigil isSigil),
        condense_of_kept (Token.not_isDropped_of_touched touches)]
      rfl
  | kept token rest isKept notJoined inductionHypothesis =>
      rw [condense_kept isKept notJoined, condense_of_kept isKept]
      rcases inductionHypothesis with equal | ⟨front, sigil, name, joinedRest, rest, parts⟩
      · exact .inl (congrArg (token :: ·) equal)
      · obtain ⟨isSigil, joined, apart⟩ := parts
        exact .inr ⟨token :: front, sigil, name, joinedRest, rest, isSigil,
          congrArg (token :: ·) joined, congrArg (token :: ·) apart⟩

/-- The tokens that reach the parser are the same up to the first name that is joined, where
there is a sigil in either case, and further tokens behind it. -/
theorem lex_joined (source : String) :
    lex true source = lex false source ∨
      ∃ front sigil name joinedRest rest, sigil.isSigil = true ∧ joinedRest ≠ [] ∧
        lex true source = front ++ sigil.joinName name :: joinedRest ∧
        lex false source = front ++ sigil :: name :: rest := by
  obtain ⟨scanned, marker, isScan, isMarker, -⟩ := scan_proper source
  unfold lex
  rw [isScan, condense_concat scanned isMarker, condense_concat scanned isMarker]
  rcases condense_joined scanned with equal | ⟨front, sigil, name, joinedRest, rest, parts⟩
  · exact .inl (by rw [equal])
  · obtain ⟨isSigil, joined, apart⟩ := parts
    refine .inr ⟨front, sigil, name, joinedRest ++ [marker], rest ++ [marker], isSigil, by simp,
      ?_, ?_⟩
    · rw [joined, List.append_assoc, List.cons_append]
    · rw [apart, List.append_assoc, List.cons_append, List.cons_append]

namespace KiwiGrammar

/-- A deeper bound does not change a parse. -/
theorem start_toEnd_deeper (packrat : Bool) (tokens : List Token) {bound : Nat}
    (deeper : kiwiBound tokens ≤ bound) :
    let parser := kiwiParser packrat tokens
    (kiwiGrammar.runRule parser.setup bound KiwiRule.start).toEnd parser.setup parser.state =
      (kiwiGrammar.runRule parser.setup (kiwiBound tokens) KiwiRule.start).toEnd parser.setup
        parser.state := by
  intro parser
  have same := kiwiGrammar.runRule_within parser.setup deeper KiwiRule.start parser.state
    (kiwi_runRule_ends packrat tokens .start parser.state rfl)
  simp only [Run.toEnd, same]

/-- Nothing in a parse depends on what lies behind a token that no rule asks for. -/
theorem parseReport_walled (packrat : Bool) {first second : List Token} {wall : Nat}
    (walled : Setup.Walled Asked wall (kiwiParser packrat first).setup
      (kiwiParser packrat second).setup) :
    parseReport packrat second = parseReport packrat first := by
  have alike := kiwiGrammar.runRule_alike walled jumpless asks
    (max (kiwiBound first) (kiwiBound second)) KiwiRule.start
  have behind : (State.initial : State kiwiGrammar).Behind wall := by
    refine ⟨Nat.zero_le _, Nat.zero_le _, fun name mark stored stop found => ?_⟩
    cases (MemoStore.find?_empty name mark).symm.trans found
  have same := ((alike.toEnd walled) State.initial behind).1
  have deeper := start_toEnd_deeper packrat first (Nat.le_max_left _ (kiwiBound second))
  have deeperToo := start_toEnd_deeper packrat second (Nat.le_max_right (kiwiBound first) _)
  have ended := deeperToo.symm.trans (same.trans deeper)
  unfold parseReport
  exact congrArg (fun ended : Outcome File × State kiwiGrammar =>
    (⟨parseResult ended.1, ended.2.events.reverse⟩ : ParseReport)) ended

end KiwiGrammar

/-- Whether names are joined to their sigils makes no difference to a parse: there is the same
file, or the same error with all that it tells, and the same happens on the way. -/
theorem parseReport_joined (packrat : Bool) (source : String) :
    parseReport packrat (lex true source) = parseReport packrat (lex false source) := by
  rcases lex_joined source with equal | ⟨front, sigil, name, joinedRest, rest, parts⟩
  · rw [equal]
  · obtain ⟨isSigil, more, joined, apart⟩ := parts
    obtain ⟨_, _, _, _, proper, _⟩ := lex_proper false source
    obtain ⟨_, _, _, _, joinedProper, _⟩ := lex_proper true source
    have isError : sigil.kind = .errorToken := by
      simp only [Token.isSigil, Bool.and_eq_true, beq_iff_eq] at isSigil
      exact isSigil.1
    refine KiwiGrammar.parseReport_walled packrat (.of_append rfl rfl
      ((Buffer.close_lex false source).trans apart) ((Buffer.close_lex true source).trans joined)
      (List.cons_ne_nil name rest) more rfl ?_ ?_)
    · exact KiwiGrammar.refused_of_sigil (proper sigil (by simp [apart])) (.inr isError)
    · exact KiwiGrammar.refused_of_sigil (joinedProper _ (by simp [joined])) (.inl rfl)

/-- Joining sigils with names makes no difference to a parse, as none gets beyond a sigil. -/
theorem parseSource_joined (packrat : Bool) (source : String) :
    parseSource true packrat source = parseSource false packrat source :=
  congrArg ParseReport.result (parseReport_joined packrat source)

end KiwiFront
