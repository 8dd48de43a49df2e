import KiwiFront.Proofs.Grammar.Breakage
import KiwiFront.Proofs.Lexer.Buffered
import KiwiFront.Proofs.Peg.Commitment

/-!
# The errors of a parse

A file is committed by its first word: where it stands, the parse ends with a file or at a
forced match, and where another token stands, nothing is read at all. Nodes cannot be built
only over tokens without a place, which no source text has, and the parser itself never
gives up.
-/

namespace KiwiFront

open Peg

namespace KiwiRule

/-- The rules that begin with the first word of a file. -/
def OpensFile : KiwiRule -> Prop
  | start | packageHeader => True
  | _ => False

/-- The plain lists, which may be empty. -/
def IsList : KiwiRule -> Prop
  | importList | topLevelObjectList => True
  | _ => False

end KiwiRule

namespace KiwiGrammar

/-- The first word of a file. -/
def firstWord : Matcher := .keyword "package"

section Shape

attribute [local simp] body sub keyword literal forcedLiteral forcedSegment forcedIdentifier
  forcedSemi start packageHeader Expression.alternatives Expression.optional Expression.after

theorem body_committed : kiwiGrammar.Committed firstWord KiwiRule.IsList KiwiRule.OpensFile where
  steady rule listed := by
    cases rule <;>
      simp [kiwiGrammar, KiwiRule.IsList, KiwiRule.OpensFile, KiwiRule.mode] at listed ⊢
  goesOn rule isList := by
    cases rule <;> simp [kiwiGrammar, KiwiRule.IsList, Expression.Unfailing] at isList ⊢
  commits rule opens := by
    cases rule <;>
      simp [kiwiGrammar, KiwiRule.OpensFile, KiwiRule.IsList, Expression.CommitsBy,
        Expression.Failing, Expression.Unfailing, firstWord] at opens ⊢

end Shape

variable {tokens : List Token} {first : Token} {rest : List Token}

theorem startRun_commitsBy (tokens : List Token) :
    (startRun tokens).CommitsBy (forgetful (.ofTokens tokens)) firstWord :=
  body_committed.runRule_commitsBy rfl _ trivial

theorem faces_firstWord_iff (closed : Buffer.close tokens = first :: rest) :
    (State.initial : State kiwiGrammar).Faces (forgetful (.ofTokens tokens)) firstWord ↔
      (Terminal.keyword "package").Matches first := by
  have here : (Buffer.ofTokens tokens).tokens[0]? = some first := by
    simp only [Buffer.ofTokens, closed, List.getElem?_toArray, List.getElem?_cons_zero]
  rw [← accepts_keyword_iff]
  constructor
  · rintro ⟨token, isFirst, accepted⟩
    rw [← Option.some.inj (here.symm.trans isFirst)] at accepted
    exact accepted
  · exact fun accepted => ⟨first, here, accepted⟩

/-- What has been read of a file goes up to the end marker, so that it is all there is. -/
theorem toLast_of_startRun (once : Buffer.EndsOnce tokens) {file : File}
    (succeeded : (startRun tokens .initial).1 = .success file) :
    (Buffer.close tokens).length - 1 ≤ (startRun tokens .initial).2.cursor := by
  apply Nat.le_of_not_lt
  intro early
  obtain ⟨marker, member, isMarker⟩ := endMarker_of_start (startRun_spells succeeded).derives
  have isEarly : marker ∈ (Buffer.close tokens).dropLast := by
    rw [List.dropLast_eq_take]
    exact (List.take_prefix_take_left (Nat.le_of_lt early)).subset member
  exact Buffer.close_endsOnce once marker isEarly isMarker

/-- Where another token stands than the first word of a file, no token is read. -/
theorem parse_of_other (closed : Buffer.close tokens = first :: rest)
    (other : ¬ (Terminal.keyword "package").Matches first) :
    ((startRun tokens).toEnd (forgetful (.ofTokens tokens)) .initial).1 =
      .fatal (.invalidSyntax first.start) := by
  have refused := (startRun_commitsBy tokens).refuses .initial
    (mt (faces_firstWord_iff closed).1 other)
  have ends := startRun_ends tokens
  have firstToken : (Buffer.ofTokens tokens).clamped 0 = first := by
    have found := Buffer.getElem?_clamped tokens 0
    rw [Nat.zero_min, closed] at found
    exact (Option.some.inj found).symm
  unfold Run.Refuses at refused
  rcases ran : startRun tokens .initial with ⟨outcome, reached⟩
  rw [ran] at refused ends
  rcases refused with unfinished | ⟨rfl, unmoved⟩
  · exact absurd unfinished ends
  · have atStart : reached.furthest = 0 := unmoved
    simp only [Run.toEnd, ran, atStart, firstToken]

/-- Where the first word of a file stands, nothing else than a breakage ends the parse. -/
theorem parse_of_firstWord (once : Buffer.EndsOnce tokens)
    (closed : Buffer.close tokens = first :: rest)
    (isFirst : (Terminal.keyword "package").Matches first) (position : Position) :
    ((startRun tokens).toEnd (forgetful (.ofTokens tokens)) .initial).1 ≠
      .fatal (.invalidSyntax position) := by
  have goesOn := (startRun_commitsBy tokens).goesOn .initial
    ((faces_firstWord_iff closed).2 isFirst)
  have fatal := (start_breaksBy (forgetful (.ofTokens tokens)) rfl (kiwiBound tokens) .initial
    (.initial _)).2
  rcases ran : startRun tokens .initial with ⟨outcome, reached⟩
  cases outcome with
  | success file =>
      have toLast := toLast_of_startRun once (congrArg Prod.fst ran)
      rw [ran] at toLast
      rw [Run.toEnd_of_success (forgetful (.ofTokens tokens)) ran toLast]
      rintro ⟨⟩
  | failure => exact absurd (congrArg Prod.fst ran) goesOn
  | fatal error =>
      obtain ⟨fault, mark, rfl, _⟩ := fatal error (congrArg Prod.fst ran)
      simp only [Run.toEnd, ran]
      cases fault <;> rintro ⟨⟩
  | unfinished =>
      simp only [Run.toEnd, ran]
      rintro ⟨⟩

end KiwiGrammar

/-- A parse comes to nothing exactly where the first token is not the first word of a file. -/
theorem invalidSyntax_iff (packrat : Bool) {tokens : List Token} {first : Token}
    {rest : List Token} (once : Buffer.EndsOnce tokens)
    (closed : Buffer.close tokens = first :: rest) (position : Position) :
    parseTokens packrat tokens = .error (.invalidSyntax position) ↔
      ¬ (Terminal.keyword "package").Matches first ∧ position = first.start := by
  have parsed : parseTokens packrat tokens = parseResult ((KiwiGrammar.startRun tokens).toEnd
      (KiwiGrammar.forgetful (.ofTokens tokens)) .initial).1 := by
    rw [parseTokens_eq, parse_packrat]
    rfl
  by_cases isFirst : (Terminal.keyword "package").Matches first
  · refine ⟨fun failed => ?_, fun ⟨other, _⟩ => absurd isFirst other⟩
    have isFatal := KiwiGrammar.fatal_of_parseTokens failed
    rw [parse_packrat] at isFatal
    exact absurd isFatal (KiwiGrammar.parse_of_firstWord once closed isFirst position)
  · rw [parsed, KiwiGrammar.parse_of_other closed isFirst]
    simp only [parseResult, Except.error.injEq, ParseError.invalidSyntax.injEq]
    exact ⟨fun same => ⟨isFirst, same.symm⟩, fun ⟨_, same⟩ => same.symm⟩

/-- No element fails for another reason than its place. -/
theorem isUnlocatable_of_parseTokens {packrat : Bool} {tokens : List Token} {cause : NodeError}
    (failed : parseTokens packrat tokens = .error (.node cause)) : cause.IsUnlocatable := by
  cases KiwiGrammar.foundIn_of_parseTokens failed with
  | unbuildable broken => exact broken.allowed KiwiGrammar.body_failsBy

/-- Over located tokens no element fails. -/
theorem not_node_of_located {packrat : Bool} {tokens : List Token}
    (located : ∀ token ∈ tokens, token.span.isLocated = true) (cause : NodeError) :
    parseTokens packrat tokens ≠ .error (.node cause) := by
  intro failed
  cases KiwiGrammar.foundIn_of_parseTokens failed with
  | unbuildable broken =>
      refine Grammar.Breaks.not_unbuildable KiwiGrammar.body_delivers ?_ broken
      exact fun token member => Buffer.close_located located token (List.mem_of_mem_take member)

/-- A source text is parsed, or the parse ends at a forced match or as invalid syntax. -/
theorem parseSource_error {joinNames packrat : Bool} {source : String} {error : ParseError}
    (failed : parseSource joinNames packrat source = .error error) :
    (∃ expected position mark, error = .forced expected position mark) ∨
      ∃ position, error = .invalidSyntax position := by
  obtain ⟨_, _, _, _, proper, _⟩ := lex_proper joinNames source
  cases KiwiGrammar.foundIn_of_parseTokens failed with
  | missing => exact .inl ⟨_, _, _, rfl⟩
  | furthest => exact .inr ⟨_, rfl⟩
  | unbuildable =>
      have located := fun token member => (proper token member).located
      exact absurd failed (not_node_of_located located _)

end KiwiFront
