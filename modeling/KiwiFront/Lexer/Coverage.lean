import KiwiFront.Lexer.Scan

/-!
# Where tokens stand in a text

The place of a token is that of its first character, which the text in front of it decides
alone: the row counts the line feeds there, and the column the characters behind the last of
them. Tokens cover a text if they stand in it one behind the other in this way, with nothing but
skipped text between them.
-/

namespace KiwiFront

/-- The place behind a text that stands at the beginning. -/
def Position.behind (text : List Char) : Position :=
  ⟨1 + text.count '\n', 1 + (text.reverse.takeWhile (· ≠ '\n')).length⟩

namespace Counting

/-- Whether rows and columns are counted up to every place in a text. -/
def ReachesAll (counting : Counting) (source : String) : Prop :=
  ∀ front back, source.toList = front ++ back -> counting.Reaches (.behind front)

/-- Whether rows and columns are counted up to where tokens start and stop. -/
def ReachesTokens (counting : Counting) (tokens : List Token) : Prop :=
  ∀ token ∈ tokens, counting.Reaches token.start ∧ counting.Reaches token.stop

instance (counting : Counting) (tokens : List Token) : Decidable (counting.ReachesTokens tokens) :=
  inferInstanceAs (Decidable (∀ token ∈ tokens, _))

end Counting

/-- A token starts behind the text in front of it and stops on the same row, as many columns
later as its own text has characters. A line break stops one column after its start. -/
structure Token.StandsBehind (token : Token) (front : List Char) : Prop where
  start : token.start = Position.behind front
  stop : token.kind.isLineBreak = false ->
    token.stop = ⟨token.start.row, token.start.column + token.text.length⟩
  lineBreak : token.kind.isLineBreak = true ->
    token.stop = ⟨token.start.row, token.start.column + 1⟩

/-- Tokens with texts of their own stand one behind the other in what follows on a text. Between
them are blanks and continued line breaks. -/
inductive Scan.Covers : (front text : List Char) -> List Token -> Prop where
  | nil {front} : Covers front [] []
  | skip {front skipped rest tokens}
      (isSkipped : LexicalRule.blank.Matches skipped ∨ LexicalRule.continuation.Matches skipped)
      (later : Covers (front ++ skipped) rest tokens) : Covers front (skipped ++ rest) tokens
  | token {front token rest tokens} (nonempty : token.text ≠ "")
      (stands : token.StandsBehind front)
      (later : Covers (front ++ token.text.toList) rest tokens) :
      Covers front (token.text.toList ++ rest) (token :: tokens)

end KiwiFront
