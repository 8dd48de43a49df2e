import KiwiFront.Token

/-!
# Lines of tokens

Line breaks cut the tokens of a text into lines. A line has content if anything stands in it but
comments and the marks before and behind a text. Lines with content end in a `newline`; in others
there is at most a `blankNewline`.
-/

namespace KiwiFront

/-- Whether a token is content of its line. -/
def Token.isContent (token : Token) : Bool :=
  match token.kind with
  | .comment | .encoding | .endMarker => false
  | _ => true

/-- Tokens up to a line break, and the line break. There is none at the end of the last line. -/
structure TokenLine where
  tokens : List Token
  closing : Option Token
deriving DecidableEq

namespace TokenLine

/-- The lines of some tokens, the first of which goes on with what has `begun`. -/
def splitBehind (begun : List Token) : List Token -> List TokenLine
  | [] => [⟨begun, none⟩]
  | token :: rest =>
      if token.kind.isLineBreak then ⟨begun, some token⟩ :: splitBehind [] rest
      else splitBehind (begun ++ [token]) rest

/-- The lines of some tokens. -/
def split (tokens : List Token) : List TokenLine := splitBehind [] tokens

/-- The tokens of a line and its line break. -/
def all (line : TokenLine) : List Token := line.tokens ++ line.closing.toList

def hasContent (line : TokenLine) : Bool := line.tokens.any Token.isContent

/-- A line has one line break at most, at its end. -/
structure IsCut (line : TokenLine) : Prop where
  unbroken : ∀ token ∈ line.tokens, token.kind.isLineBreak = false
  broken : ∀ token ∈ line.closing, token.kind.isLineBreak = true

/-- A line with content ends in a `newline`, and one without content does not. -/
structure IsClosed (line : TokenLine) : Prop where
  content : line.hasContent = true -> ∃ token, line.closing = some token ∧ token.kind = .newline
  blank : line.hasContent = false -> ∀ token ∈ line.closing, token.kind = .blankNewline

/-- All content of a line is unrecognized, and none of it is a sigil. -/
def IsUnrecognized (line : TokenLine) : Prop :=
  ∀ token ∈ line.tokens, token.isContent = true ->
    token.kind = .errorToken ∧ token.text ≠ "$"

end TokenLine

/-- What follows on these tokens stands first or behind a `newline`. -/
def AtLineStart (tokens : List Token) : Prop :=
  ∀ last ∈ tokens.getLast?, last.kind = .newline

end KiwiFront
