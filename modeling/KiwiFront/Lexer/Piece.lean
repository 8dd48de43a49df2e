import KiwiFront.Lexer.LongestMatch
import KiwiFront.Token

/-!
# Pieces of a source text

Scanning cuts a source text into non-empty pieces and loses nothing. At every
place the longest text that a rule of the language describes becomes the next
piece. Where no rule matches, an open string literal becomes one unrecognized
piece as far as its contents reach, and any other character becomes one alone.
-/

namespace KiwiFront

/-- What a piece of source text is good for. -/
inductive PieceClass where
  /-- Blank text between tokens, and a line break that is continued. -/
  | skipped
  /-- A line break. -/
  | lineBreak
  /-- The text of a token. -/
  | token (kind : TokenKind)
  /-- Text that no rule describes. -/
  | unrecognized
deriving DecidableEq

/-- A stretch of source text with its class. -/
structure Piece where
  pieceClass : PieceClass
  characters : List Char
deriving DecidableEq

namespace Piece

/-- The text of a piece. -/
def text (piece : Piece) : String := String.ofList piece.characters

end Piece

namespace LexicalRule

/-- The digits of decimal numbers. -/
def digit : CharClass := .within [('0', '9')]

/-- Digits and the underscores between them. -/
def digits : Pattern :=
  .sequence (.one digit) (.many (.one (.within [('0', '9'), ('_', '_')])))

/-- A name starts with a letter or an underscore, and digits may follow. -/
def name : Pattern :=
  .sequence (.one (.within [('A', 'Z'), ('a', 'z'), ('_', '_')]))
    (.many (.one (.within [('A', 'Z'), ('a', 'z'), ('0', '9'), ('_', '_')])))

/-- A decimal number has an optional fraction and an optional exponent. -/
def decimalNumber : Pattern :=
  .inOrder [
    digits,
    .optional (.sequence (.literal ['.']) digits),
    .optional (.inOrder [
      .one (.oneOf ['e', 'E']),
      .optional (.one (.oneOf ['+', '-'])),
      .atLeastOne (.one digit)])]

/-- A hexadecimal number. -/
def hexNumber : Pattern :=
  .inOrder [
    .literal ['0'],
    .one (.oneOf ['x', 'X']),
    .atLeastOne (.one (.within [('0', '9'), ('a', 'f'), ('A', 'F'), ('_', '_')]))]

/-- A string literal up to its closing quote: plain characters and escapes on one
line. A backslash escapes any character but a line feed. -/
def openString (quote : Char) : Pattern :=
  .sequence (.literal [quote])
    (.many (.either
      (.one (.noneOf [quote, '\\', '\n']))
      (.sequence (.literal ['\\']) (.one (.noneOf ['\n'])))))

/-- A string literal with both of its quotes. -/
def closedString (quote : Char) : Pattern :=
  .sequence (openString quote) (.literal [quote])

/-- A line feed, with or without a carriage return before it. -/
def lineBreak : Pattern :=
  .sequence (.optional (.literal ['\r'])) (.literal ['\n'])

/-- A comment runs to the end of its line. -/
def comment : Pattern :=
  .sequence (.literal ['#']) (.many (.one (.noneOf ['\r', '\n'])))

/-- Blanks within a line. -/
def blank : Pattern :=
  .atLeastOne (.one (.oneOf [' ', '\t', '\x0c']))

/-- A backslash at the end of a line joins it with the next line. -/
def continuation : Pattern :=
  .sequence (.literal ['\\']) lineBreak

/-- The operators and their kinds. -/
def operators : List (TokenKind × String) :=
  [(.leftParen, "("), (.rightParen, ")"), (.leftBracket, "["), (.rightBracket, "]"),
    (.leftBrace, "\x7b"), (.rightBrace, "\x7d"), (.colon, ":"), (.comma, ","),
    (.semicolon, ";"), (.dot, "."), (.ellipsis, "..."), (.star, "*"), (.doubleStar, "**"),
    (.plus, "+"), (.minus, "-"), (.slash, "/"), (.doubleSlash, "//"), (.percent, "%"),
    (.equal, "="), (.doubleEqual, "=="), (.notEqual, "!="), (.less, "<"), (.lessEqual, "<="),
    (.greater, ">"), (.greaterEqual, ">="), (.rightArrow, "->"), (.atSign, "@"), (.ampersand, "&"),
    (.bar, "|"), (.caret, "^"), (.tilde, "~"), (.exclamation, "!"), (.question, "?")]

/-- All rules of the language with the class of the pieces they describe. The
sigil is an error token until it is joined with a name. -/
def all : List (PieceClass × Pattern) :=
  [(.skipped, blank),
    (.skipped, continuation),
    (.token .name, name),
    (.token .number, decimalNumber),
    (.token .number, hexNumber),
    (.token .string, closedString '"'),
    (.token .string, closedString '\''),
    (.lineBreak, lineBreak),
    (.token .comment, comment),
    (.token .errorToken, .literal ['$'])]
  ++ operators.map (fun (kind, text) => (.token kind, .literal text.toList))

/-- How far an unrecognized piece reaches when it starts with a quote. -/
def recovery : List (PieceClass × Pattern) :=
  [(.unrecognized, openString '"'), (.unrecognized, openString '\'')]

end LexicalRule

namespace Piece

/-- The class of the piece that starts with `character`, and how much of `rest`
the piece covers. -/
def measure (character : Char) (rest : List Char) : PieceClass × Nat :=
  match LongestMatch.of? LexicalRule.all character rest with
  | some measured => measured
  | none =>
      match LongestMatch.of? LexicalRule.recovery character rest with
      | some measured => measured
      | none => (.unrecognized, 0)

/-- The pieces of a source text, in order. -/
def split : List Char -> List Piece
  | [] => []
  | character :: rest =>
      let measured := measure character rest
      ⟨measured.1, character :: rest.take measured.2⟩ :: split (rest.drop measured.2)
termination_by characters => characters.length
decreasing_by
  simp only [List.length_drop, List.length_cons]
  omega

end Piece

end KiwiFront
