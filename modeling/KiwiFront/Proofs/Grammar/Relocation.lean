import KiwiFront.Proofs.Grammar.Acceptance
import KiwiFront.Proofs.Peg.Relocation
import KiwiFront.Proofs.Tree.Relocation

/-!
# Parsing moved tokens

Positions are data only. When the tokens of a buffer move, by any map that keeps located
positions apart from the one that stands for none, the parse goes the same way: the file
that is read moves with all its tokens and spans, and so does the position of an error.
The one position that does not come from a token is that of the marker closing no tokens.
-/

namespace KiwiFront

open Peg

variable {place : Position -> Position}

/-- How values of each type move. -/
def KiwiTag.relocate (place : Position -> Position) : (tag : KiwiTag) -> tag.Content -> tag.Content
  | .file => File.relocate place
  | .packageHeader => PackageHeader.relocate place
  | .identifier => Identifier.relocate place
  | .importHeaders => List.map (ImportHeader.relocate place)
  | .importHeader => ImportHeader.relocate place
  | .importSuffix => ImportSuffix.relocate place
  | .importAlias => ImportAlias.relocate place
  | .declarations => List.map (FunctionDeclaration.relocate place)
  | .declaration => FunctionDeclaration.relocate place
  | .tokens => List.map (Token.relocate place)
  | .token => Token.relocate place
  | .typeReference | .parenthesizedType => TypeReference.relocate place
  | .userType => UserType.relocate place

/-- How what a rule reads moves. -/
abbrev KiwiRule.relocate (place : Position -> Position) (rule : KiwiRule) :
    rule.Value -> rule.Value :=
  rule.tag.relocate place

namespace KiwiGrammar

/-- A single alternative moves as what it consists of. -/
theorem alternative_movesBy {Result : Type} {phrase : Phrase Result} {move : Result -> Result}
    (moves : phrase.MovesBy place (KiwiRule.relocate place) move) :
    (Expression.alternatives [phrase]).MovesBy place (KiwiRule.relocate place) move :=
  ⟨moves, trivial⟩

theorem optional_movesBy {Result : Type} {phrase : Phrase Result} {move : Result -> Result}
    (moves : phrase.MovesBy place (KiwiRule.relocate place) move) :
    (Expression.optional phrase).MovesBy place (KiwiRule.relocate place) (Option.map move) :=
  ⟨⟨move, fun _ => rfl, moves⟩, rfl⟩

theorem after_movesBy {Skipped Result : Type} {skipped : Phrase Skipped} {kept : Phrase Result}
    {moveSkipped : Skipped -> Skipped} {move : Result -> Result}
    (skippedMoves : skipped.MovesBy place (KiwiRule.relocate place) moveSkipped)
    (keptMoves : kept.MovesBy place (KiwiRule.relocate place) move) :
    (Expression.after skipped kept).MovesBy place (KiwiRule.relocate place) move :=
  ⟨_, fun _ => rfl, _, _, rfl, skippedMoves, keptMoves⟩

theorem before_movesBy {Skipped Result : Type} {skipped : Phrase Skipped} {kept : Phrase Result}
    {moveSkipped : Skipped -> Skipped} {move : Result -> Result}
    (keptMoves : kept.MovesBy place (KiwiRule.relocate place) move)
    (skippedMoves : skipped.MovesBy place (KiwiRule.relocate place) moveSkipped) :
    (Expression.before kept skipped).MovesBy place (KiwiRule.relocate place) move :=
  ⟨_, fun _ => rfl, _, _, rfl, keptMoves, skippedMoves⟩

/-- The elements that the rules build are built alike elsewhere. -/
theorem body_movesBy (faithful : Position.Faithful place) (rule : KiwiRule) :
    (body rule).MovesBy place (KiwiRule.relocate place) (rule.relocate place) := by
  cases rule with
  | start =>
      refine alternative_movesBy ⟨_, fun source => ?_, _, _, rfl, rfl, _, _, rfl, rfl, _, _, rfl,
        rfl, after_movesBy (optional_movesBy rfl) rfl⟩
      exact File.build_relocate faithful source.1 source.2.1 source.2.2.1 source.2.2.2
  | packageHeader =>
      refine alternative_movesBy ⟨_, fun source => ?_, _, _, rfl, rfl, _, _, rfl, rfl, rfl⟩
      exact PackageHeader.build_relocate faithful source.1 source.2.1 source.2.2
  | identifier =>
      have noStar : (Expression.look false (literal "*") : Phrase Unit).MovesBy place
          (KiwiRule.relocate place) id := ⟨_, rfl⟩
      refine alternative_movesBy ⟨_, fun source => ?_, _, _, rfl, rfl, _, rfl,
        after_movesBy rfl (after_movesBy noStar rfl)⟩
      exact Identifier.build_relocate faithful (source.1 :: source.2)
  | simpleIdentifier => exact rfl
  | importList => exact ⟨_, rfl, rfl⟩
  | importHeader =>
      refine alternative_movesBy ⟨_, fun source => ?_, _, _, rfl, rfl, _, _, rfl, rfl, _, _, rfl,
        optional_movesBy rfl, rfl⟩
      exact ImportHeader.build_relocate faithful source.1 source.2.1 source.2.2.1 source.2.2.2
  | importSuffix =>
      refine ⟨⟨_, fun _ => rfl, rfl⟩, ⟨_, fun _ => rfl, _, fun source => ?_, _, _, rfl, rfl, rfl⟩,
        trivial⟩
      exact ImportWildcard.build_relocate faithful source.1 source.2
  | importAlias =>
      refine alternative_movesBy ⟨_, fun source => ?_, _, _, rfl, rfl, rfl⟩
      exact ImportAlias.build_relocate faithful source.1 source.2
  | semi => exact ⟨rfl, rfl, trivial⟩
  | topLevelObjectList => exact ⟨_, rfl, rfl⟩
  | topLevelObject => exact alternative_movesBy (before_movesBy rfl rfl)
  | declaration => exact rfl
  | functionDeclaration =>
      refine alternative_movesBy ⟨_, fun source => ?_, _, _, rfl, rfl, _, _, rfl, rfl, _, _, rfl,
        rfl, after_movesBy rfl ⟨_, _, rfl, rfl, optional_movesBy (after_movesBy rfl rfl)⟩⟩
      exact FunctionDeclaration.build_relocate faithful source.1 source.2.1 source.2.2.1
        source.2.2.2.1 source.2.2.2.2
  | modifiers => exact ⟨_, rfl, rfl⟩
  | modifier => exact ⟨rfl, rfl, rfl, trivial⟩
  | type => exact ⟨rfl, ⟨_, fun _ => rfl, rfl⟩, trivial⟩
  | parenthesizedType =>
      refine alternative_movesBy ⟨_, fun source => ?_, _, _, rfl, rfl, _, _, rfl, rfl, rfl⟩
      exact TypeReference.buildParenthesized_relocate faithful source.1 source.2.1 source.2.2
  | userType =>
      refine ⟨⟨_, fun source => ?_, _, _, rfl, rfl, after_movesBy rfl rfl⟩,
        ⟨_, fun source => ?_, rfl⟩, trivial⟩
      · exact UserType.build_relocate faithful (some source.1) source.2
      · exact UserType.build_relocate faithful none source
  | simpleUserType => exact rfl

end KiwiGrammar

namespace Peg.Buffer

theorem isClosed_relocate (tokens : List Token) :
    isClosed (tokens.map (Token.relocate place)) = isClosed tokens := by
  rw [isClosed, isClosed, List.getLast?_map, Option.map_map]
  rfl

/-- The marker that closes some tokens moves with the last of them. -/
theorem closingMarker_relocate {tokens : List Token} (nonempty : tokens ≠ []) :
    closingMarker (tokens.map (Token.relocate place)) = (closingMarker tokens).relocate place := by
  have isLast := List.getLast?_eq_some_getLast nonempty
  simp only [closingMarker, List.getLast?_map, isLast, Option.map_some, Token.relocate]

theorem close_relocate {tokens : List Token} (nonempty : tokens ≠ []) :
    close (tokens.map (Token.relocate place)) = (close tokens).map (Token.relocate place) := by
  unfold close
  rw [isClosed_relocate]
  split
  · rfl
  · rw [closingMarker_relocate nonempty, List.map_append, List.map_singleton]

/-- The buffer of moved tokens is the moved buffer. -/
theorem ofTokens_relocate {tokens : List Token} (nonempty : tokens ≠ []) :
    ofTokens (tokens.map (Token.relocate place)) = (ofTokens tokens).relocate place := by
  simp only [ofTokens, relocate, close_relocate nonempty, List.map_toArray]

end Peg.Buffer

/-- Moving a setup moves what a parse over it comes to. -/
theorem parseResult_relocate (faithful : Position.Faithful place) (setup : Setup) (bound : Nat) :
    parseResult ((kiwiGrammar.runRule (setup.relocate place) bound KiwiRule.start).toEnd
        (setup.relocate place) .initial).1 =
      ((parseResult ((kiwiGrammar.runRule setup bound KiwiRule.start).toEnd setup
        .initial).1).map (File.relocate place)).mapError (ParseError.relocate place) := by
  have bodies : ∀ rule, (kiwiGrammar.body rule).MovesBy place (KiwiRule.relocate place)
      (KiwiRule.relocate place rule) := KiwiGrammar.body_movesBy faithful
  have initial : (State.initial : State kiwiGrammar).MovesTo (KiwiTag.relocate place)
      .initial := by
    refine ⟨rfl, rfl, fun rule mark => ?_⟩
    rw [State.initial, MemoStore.find?_empty]
    rfl
  have moves := @Grammar.runRule_movesTo kiwiGrammar place (KiwiTag.relocate place) bodies setup
    bound KiwiRule.start
  have ends := moves.toEnd setup _ _ initial
  generalize Run.toEnd _ _ _ = first at ends ⊢
  generalize Run.toEnd _ _ _ = second at ends ⊢
  cases ends with
  | success | failure | fatal | unfinished => rfl

/-- Moved tokens are parsed into the moved file, or end the parse with the same error at the
moved position. -/
theorem parseTokens_relocate (packrat : Bool) (faithful : Position.Faithful place)
    {tokens : List Token} (nonempty : tokens ≠ []) :
    parseTokens packrat (tokens.map (Token.relocate place)) =
      ((parseTokens packrat tokens).map (File.relocate place)).mapError
        (ParseError.relocate place) := by
  have setup : (kiwiParser packrat (tokens.map (Token.relocate place))).setup =
      (kiwiParser packrat tokens).setup.relocate place := by
    simp only [kiwiParser, Parser.ofTokens, Setup.relocate, Buffer.ofTokens_relocate nonempty]
  have bound : (kiwiParser packrat (tokens.map (Token.relocate place))).bound =
      (kiwiParser packrat tokens).bound := by
    simp only [kiwiParser, Parser.ofTokens, kiwiBound, List.length_map]
  have parsed : ∀ tokens, parseTokens packrat tokens =
      parseResult ((kiwiGrammar.runRule (kiwiParser packrat tokens).setup
        (kiwiParser packrat tokens).bound KiwiRule.start).toEnd (kiwiParser packrat tokens).setup
          .initial).1 := fun _ => rfl
  rw [parsed, parsed, setup, bound]
  exact parseResult_relocate faithful _ _

/-- Rows and columns may change places. -/
theorem parseTokens_transposed :
    let transpose : Position -> Position := fun position => ⟨position.column, position.row⟩
    let tokens := [Token.nameAt 1 1 "package", .nameAt 1 9 "a", .newlineAt 1 10]
    Position.Faithful transpose ∧ tokens ≠ [] ∧
      parseTokens true (tokens.map (Token.relocate transpose)) =
        ((parseTokens true tokens).map (File.relocate transpose)).mapError
          (ParseError.relocate transpose) := by
  intro transpose tokens
  have faithful : Position.Faithful transpose := by
    rintro ⟨row, column⟩
    simp only [transpose, Position.unlocated, Position.mk.injEq]
    exact and_comm
  have nonempty : tokens ≠ [] := List.cons_ne_nil _ _
  exact ⟨faithful, nonempty, parseTokens_relocate true faithful nonempty⟩

end KiwiFront
