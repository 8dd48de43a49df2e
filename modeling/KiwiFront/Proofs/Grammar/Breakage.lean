import KiwiFront.Proofs.Grammar.Acceptance
import KiwiFront.Proofs.Grammar.Locating
import KiwiFront.Proofs.Peg.Breakage
import KiwiFront.Proofs.Peg.Completion

/-!
# How a parse of the language breaks off

Every matcher of the language accepts some token, every rule describes something, and what
is forced is one token at least. So what has been read when a forced match is missing can be
completed to a file, and no end marker is part of it yet: the error is found at a token of
the buffer.
-/

namespace KiwiFront

open Peg

namespace KiwiRule

/-- How deep the shortest derivation from a rule nests. -/
def height : KiwiRule -> Nat
  | simpleIdentifier | semi | modifier | importList | topLevelObjectList | modifiers => 0
  | identifier | simpleUserType | importAlias => 1
  | packageHeader | importHeader | importSuffix | userType => 2
  | type | start => 3
  | parenthesizedType | functionDeclaration => 4
  | declaration => 5
  | topLevelObject => 6

end KiwiRule

namespace KiwiGrammar

/-- Whether a matcher accepts some proper token of the language. -/
def Accepting (matcher : Matcher) : Prop :=
  Expression.Accepting keywords Token.Proper matcher

/-- A keyword is a token of the language. -/
theorem accepting_keyword {text : String} (listed : text ∈ keywords) :
    Accepting (.keyword text) := by
  have each : ∀ text ∈ keywords, (Token.nameAt 1 1 text).Proper ∧
      (Matcher.keyword text).accepts keywords (Token.nameAt 1 1 text) = true := by decide
  exact ⟨_, each text listed⟩

/-- So is an operator. -/
theorem accepting_literal {text : String} (listed : text ∈ operators.map Prod.fst) :
    Accepting (.literal text) := by
  have each : ∀ entry ∈ operators, (Token.placed entry.2 entry.1 1 1).Proper ∧
      (Matcher.literal entry.1).accepts keywords (Token.placed entry.2 entry.1 1 1) = true := by
    decide
  obtain ⟨entry, member, rfl⟩ := List.mem_map.1 listed
  exact ⟨_, each entry member⟩

/-- So is a name. -/
theorem accepting_name : Accepting .name :=
  ⟨.nameAt 1 1 "a", by decide, by decide⟩

/-- So is a line break. -/
theorem accepting_newline : Accepting (.kind .newline) :=
  ⟨.newlineAt 1 1, by decide, by decide⟩

/-- So is an end marker. -/
theorem accepting_endMarker : Accepting (.kind .endMarker) :=
  ⟨.endMarkerAt 1 1, by decide, by decide⟩

section Shape

attribute [local simp] body sub keyword literal forcedLiteral forcedSegment forcedIdentifier
  forcedSemi start packageHeader identifier importHeader importAlias importWildcard
  functionDeclaration parenthesizedType qualifiedType simpleType Expression.alternatives
  Expression.optional Expression.after Expression.before

/-- Whatever the language forces fails in place. -/
theorem inPlace (rule : KiwiRule) : (body rule).ForcesInPlace := by
  cases rule <;> simp [Expression.ForcesInPlace, Expression.Restoring]

attribute [local simp] accepting_keyword accepting_literal accepting_name accepting_newline
  accepting_endMarker

/-- Each rule has a derivation through rules that nest less deeply. -/
theorem possible (rule : KiwiRule) :
    (body rule).Possible Accepting fun other => other.height < rule.height := by
  cases rule <;> simp +decide [Expression.Possible, KiwiRule.height]

/-- Whatever a rule has begun can be completed. -/
theorem completable (rule : KiwiRule) :
    (body rule).Completable Accepting KiwiRule.Consuming := by
  cases rule <;>
    simp +decide [Expression.Completable, Expression.Possible, Expression.Consumes,
      Expression.Faultless, KiwiRule.Consuming]

end Shape

/-- So the grammar is completable, by proper tokens. -/
theorem body_completable : kiwiGrammar.Completable keywords Token.Proper KiwiRule.Consuming
    KiwiRule.height where
  consumes := consumes
  possible := possible
  completable := completable

end KiwiGrammar

namespace Production

/-- Whether the end marker is no part of what a production yields, and neither is a whole
file. -/
def Unmarked : Production -> Prop
  | .terminal atom => atom ≠ .endMarker
  | .rule called => called ≠ .start
  | .both first second => Unmarked first ∧ Unmarked second
  | .either first second => Unmarked first ∧ Unmarked second
  | .optional inner => Unmarked inner
  | .star inner => Unmarked inner

/-- Only a whole file ends in an end marker. -/
theorem unmarked_of (rule : KiwiRule) (part : rule ≠ .start) : (of rule).Unmarked := by
  cases rule <;> simp [Unmarked, of, inOrder, word, sign] at part ⊢

/-- Without it, no token that is yielded is one. -/
theorem Unmarked.not_endMarker {production : Production} (unmarked : production.Unmarked)
    {tokens : List Token} (derived : production.Yields tokens) :
    ∀ token ∈ tokens, token.kind ≠ .endMarker := by
  induction derived with
  | @terminal atom token matched =>
      refine List.forall_mem_singleton.2 ?_
      cases atom with
      | endMarker => exact absurd rfl unmarked
      | operator => exact matched.1
      | keyword | name =>
          rw [matched.1]
          exact nofun
      | newline =>
          rw [show token.kind = .newline from matched]
          exact nofun
  | rule _ inductionHypothesis => exact inductionHypothesis (unmarked_of _ unmarked)
  | both _ _ here there =>
      exact List.forall_mem_append.2 ⟨here unmarked.1, there unmarked.2⟩
  | first _ inductionHypothesis => exact inductionHypothesis unmarked.1
  | second _ inductionHypothesis => exact inductionHypothesis unmarked.2
  | absent | none => exact fun _ member => (List.not_mem_nil member).elim
  | given _ inductionHypothesis => exact inductionHypothesis unmarked
  | more _ _ here later => exact List.forall_mem_append.2 ⟨here unmarked, later unmarked⟩

end Production

namespace KiwiGrammar

variable {tokens : List Token} {expected : String}

/-- So it is for what a grammar derives by such a production. -/
theorem not_endMarker_of_describes {production : Production}
    (described : production.Describes (kiwiGrammar.Derives keywords) tokens)
    (unmarked : production.Unmarked) : ∀ token ∈ tokens, token.kind ≠ .endMarker :=
  unmarked.not_endMarker
    (production.yields_of_describes (fun _ _ => KiwiRule.generates_iff.2) described)

/-- In a file an end marker stands at the end at most. -/
theorem endsOnce_of_start (derived : kiwiGrammar.Derives keywords .start tokens) :
    Buffer.EndsOnce tokens := by
  obtain ⟨header, _, rfl, isHeader, imports, _, rfl, areImports, declarations, _, rfl,
    areDeclarations, ending, _, rfl, isEnding, marker, _, rfl⟩ := derives_iff.1 derived
  have headerUnmarked := not_endMarker_of_describes isHeader (by simp [Production.Unmarked])
  have importsUnmarked := not_endMarker_of_describes areImports (by simp [Production.Unmarked])
  have declarationsUnmarked :=
    not_endMarker_of_describes areDeclarations (by simp [Production.Unmarked])
  have endingUnmarked := not_endMarker_of_describes isEnding (by simp [Production.Unmarked])
  simp only [Buffer.EndsOnce, ← List.append_assoc, List.dropLast_concat, List.forall_mem_append]
  exact ⟨⟨⟨headerUnmarked, importsUnmarked⟩, declarationsUnmarked⟩, endingUnmarked⟩

/-- The tokens that a file has been read from before a forced match is missing begin a file,
and there is more of it to come. -/
theorem completes_of_breaks
    (broken : kiwiGrammar.Breaks keywords .start (.missing expected) tokens) :
    ∃ completion, completion ≠ [] ∧ (∀ token ∈ completion, token.Proper) ∧
      kiwiGrammar.Derives keywords .start (tokens ++ completion) :=
  body_completable.completes broken

/-- None of those tokens is an end marker. -/
theorem unmarked_of_breaks
    (broken : kiwiGrammar.Breaks keywords .start (.missing expected) tokens) :
    ∀ token ∈ tokens, token.kind ≠ .endMarker := by
  obtain ⟨completion, more, _, derived⟩ := completes_of_breaks broken
  have once := endsOnce_of_start derived
  rw [Buffer.EndsOnce, List.dropLast_append_of_ne_nil more] at once
  exact fun token member => once token (List.mem_append_left _ member)

/-- Where in the tokens of a buffer the errors of a parse are found. -/
inductive FoundIn (tokens : List Token) : ParseError -> Prop where
  /-- A forced match is missing at the token behind what has been read. -/
  | missing {expected mark token} (here : tokens[mark]? = some token)
      (broken : kiwiGrammar.Breaks keywords .start (.missing expected) (tokens.take mark)) :
      FoundIn tokens (.forced expected token.start mark)
  /-- A node cannot be built from tokens that have been read. -/
  | unbuildable {cause mark}
      (broken : kiwiGrammar.Breaks keywords .start (.unbuildable cause) (tokens.take mark)) :
      FoundIn tokens (.node cause)
  /-- The parse has not come any further than to a token. -/
  | furthest {token} (member : token ∈ tokens) : FoundIn tokens (.invalidSyntax token.start)

end KiwiGrammar

namespace Peg.Buffer

variable {tokens : List Token}

/-- At whatever mark the parser looks, it finds a token of its buffer. -/
theorem getElem?_clamped (tokens : List Token) (mark : Nat) :
    (close tokens)[min mark ((close tokens).length - 1)]? =
      some ((ofTokens tokens).clamped mark) := by
  have nonempty := List.length_pos_of_ne_nil (close_ne_nil tokens)
  have inRange : min mark ((close tokens).length - 1) < (close tokens).length := by omega
  rw [List.getElem?_eq_getElem inRange]
  rfl

/-- The token at a mark is one of the buffer. -/
theorem clamped_mem (tokens : List Token) (mark : Nat) :
    (ofTokens tokens).clamped mark ∈ close tokens :=
  List.mem_of_getElem? (getElem?_clamped tokens mark)

/-- Within the buffer, it is the one that stands there. -/
theorem getElem?_clamped_of_lt {mark : Nat} (inRange : mark < (close tokens).length) :
    (close tokens)[mark]? = some ((ofTokens tokens).clamped mark) := by
  rw [← getElem?_clamped, Nat.min_eq_left (Nat.le_sub_one_of_lt inRange)]

/-- There always is an end marker. -/
theorem exists_endMarker_close (tokens : List Token) :
    ∃ marker ∈ close tokens, marker.kind = .endMarker := by
  unfold close
  split
  · rename_i closed
    obtain ⟨marker, isLast, isMarker⟩ := Option.map_eq_some_iff.1 (beq_iff_eq.1 closed)
    exact ⟨marker, List.mem_of_getLast? isLast, isMarker⟩
  · exact ⟨closingMarker tokens, by simp, rfl⟩

end Peg.Buffer

namespace KiwiGrammar

variable {tokens : List Token} {packrat : Bool} {error : ParseError}

/-- Where a file breaks, the tokens in front of the error are the beginning of one. -/
theorem start_breaksBy (setup : Setup) (reserved : setup.keywords = keywords) (bound : Nat) :
    (kiwiGrammar.runRule setup bound KiwiRule.start).BreaksBy setup
      (kiwiGrammar.Breaks keywords KiwiRule.start) := by
  rw [← reserved]
  exact Grammar.runRule_breaksBy KiwiRule.name_injective jumpless restoring inPlace setup bound _

/-- A parse breaks off as the grammar tells, and ends in a state that lies within the
buffer. -/
theorem parseWith_breaks (packrat : Bool) (tokens : List Token) :
    let parser := kiwiParser packrat tokens
    let ended := parser.parseWith (sub .start)
    ended.2.state.Steady parser.setup ∧ ∀ error, ended.1 = .fatal error ->
      parser.setup.BreaksFrom (kiwiGrammar.Breaks keywords KiwiRule.start) 0 error ∨
        ∃ mark, error = .invalidSyntax (parser.setup.buffer.clamped mark).start := by
  intro parser ended
  exact (start_breaksBy parser.setup rfl parser.bound).toEnd (.initial parser.setup)

/-- A parse that fails has ended with its error. -/
theorem fatal_of_parseTokens (failed : parseTokens packrat tokens = .error error) :
    ((kiwiParser packrat tokens).parseWith (sub .start)).1 = .fatal error := by
  let parser := kiwiParser packrat tokens
  have parsed : parseTokens packrat tokens = parseResult
      ((kiwiGrammar.runRule parser.setup parser.bound KiwiRule.start).toEnd parser.setup
        parser.state).1 := rfl
  have ends : (kiwiGrammar.runRule parser.setup parser.bound KiwiRule.start parser.state).1 ≠
      .unfinished := kiwi_runRule_ends packrat tokens .start parser.state rfl
  rw [parsed] at failed
  rcases Run.toEnd_success_or_fatal parser.setup ends with
    ⟨file, succeeded, toLast⟩ | ⟨other, isFatal⟩
  · rw [Run.toEnd_of_success parser.setup (Prod.ext succeeded rfl) toLast] at failed
    cases failed
  · rw [isFatal] at failed
    cases failed
    exact isFatal

/-- Its error is found among the tokens. -/
theorem foundIn_of_parseTokens (failed : parseTokens packrat tokens = .error error) :
    FoundIn (Buffer.close tokens) error := by
  rcases (parseWith_breaks packrat tokens).2 error (fatal_of_parseTokens failed) with
    ⟨fault, mark, rfl, _, within, broken⟩ | ⟨mark, rfl⟩
  · have broken : kiwiGrammar.Breaks keywords KiwiRule.start fault
        ((Buffer.close tokens).take mark) := broken
    cases fault with
    | missing expected =>
        -- The whole buffer has an end marker in it.
        have notWhole : mark ≠ (Buffer.close tokens).length := by
          rintro rfl
          rw [List.take_length] at broken
          obtain ⟨marker, member, isMarker⟩ := Buffer.exists_endMarker_close tokens
          exact unmarked_of_breaks broken marker member isMarker
        exact .missing (Buffer.getElem?_clamped_of_lt (Nat.lt_of_le_of_ne within notWhole)) broken
    | unbuildable cause => exact .unbuildable broken
  · exact .furthest (Buffer.clamped_mem tokens mark)

/-- All that happens in a parse lies within the buffer. -/
theorem events_within (packrat : Bool) (tokens : List Token) :
    ∀ event ∈ (parseReport packrat tokens).events,
      event.Within (Buffer.close tokens).length := by
  intro event member
  exact (parseWith_breaks packrat tokens).1.events event (List.mem_reverse.1 member)

end KiwiGrammar

end KiwiFront
