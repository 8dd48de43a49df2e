import KiwiFront.Grammar
import KiwiFront.Lexer.Condense
import KiwiFront.Peg.Parser

/-!
# Parsing source files

A parse reads a whole file or ends with an error; there is no recovery. Every
parenthesis of a type nests two rules, and a fixed number of rules lies around
them, so that the depth of calls is bounded by the number of tokens.
-/

namespace KiwiFront

open Peg

/-- How deep the rules of the language nest on some tokens, and how often they
repeat, at most. -/
def kiwiBound (tokens : List Token) : Nat :=
  2 * tokens.length + 32

/-- A parser for the language. -/
def kiwiParser (packrat : Bool) (tokens : List Token) : Parser kiwiGrammar :=
  .ofTokens kiwiGrammar tokens KiwiGrammar.keywords packrat (kiwiBound tokens)

/-- What a parse leaves behind: a file or an error, and what happened on the way,
in order. -/
structure ParseReport where
  result : Except ParseError File
  events : List Event

/-- The result of an evaluation that has to use up the tokens. -/
def parseResult {Result : Type} : Outcome Result -> Except ParseError Result
  | .success value => .ok value
  | .failure => .error (.internal .unfinished)
  | .fatal error => .error error
  | .unfinished => .error (.internal .unfinished)

/-- Parses tokens and tells what happened. -/
def parseReport (packrat : Bool) (tokens : List Token) : ParseReport :=
  let (outcome, parser) := (kiwiParser packrat tokens).parseWith (KiwiGrammar.sub .start)
  ⟨parseResult outcome, parser.state.events.reverse⟩

/-- Parses tokens. -/
def parseTokens (packrat : Bool) (tokens : List Token) : Except ParseError File :=
  (parseReport packrat tokens).result

/-- Parses a source text. -/
def parseSource (joinNames packrat : Bool) (source : String) : Except ParseError File :=
  parseTokens packrat (lex joinNames source)

end KiwiFront
