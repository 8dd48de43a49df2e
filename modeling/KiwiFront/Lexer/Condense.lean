import KiwiFront.Lexer.Scan

/-!
# The parser's view of a token sequence

Trivia and unrecognized text are dropped. A sigil is kept, and joins the name
right after it to one token when joining is switched on.
-/

namespace KiwiFront

namespace Token

/-- The sigil that may join a name. -/
def isSigil (token : Token) : Bool :=
  token.kind == .errorToken && token.text == "$"

/-- Whether a token is of no interest to the parser. -/
def isDropped (token : Token) : Bool :=
  !token.isSigil && (token.kind.isTrivia || token.kind == .errorToken)

/-- Whether `next` is a name right behind `token`. -/
def touchesName (token next : Token) : Bool :=
  next.kind == .name && next.start == token.stop

/-- A sigil and the name behind it as one token. -/
def joinName (sigil name : Token) : Token :=
  ⟨.sigilName, sigil.text ++ name.text, sigil.start, name.stop⟩

/-- A joined name as its sigil, one column wide, and the name behind it. -/
def splitName (token : Token) : List Token :=
  if token.kind = .sigilName then
    let middle : Position := ⟨token.start.row, token.start.column + 1⟩
    [⟨.errorToken, String.ofList (token.text.toList.take 1), token.start, middle⟩,
      ⟨.name, String.ofList (token.text.toList.drop 1), middle, token.stop⟩]
  else [token]

/-- Splitting undoes joining where the sigil is one column wide. -/
theorem splitName_joinName {sigil name : Token} (isSigil : sigil.isSigil = true)
    (touches : sigil.touchesName name = true)
    (narrow : sigil.stop = ⟨sigil.start.row, sigil.start.column + 1⟩) :
    (sigil.joinName name).splitName = [sigil, name] := by
  obtain ⟨kind, text, start, stop⟩ := sigil
  obtain ⟨nameKind, nameText, nameStart, nameStop⟩ := name
  simp only [Token.isSigil, Bool.and_eq_true, beq_iff_eq] at isSigil
  simp only [Token.touchesName, Bool.and_eq_true, beq_iff_eq] at touches
  obtain ⟨rfl, rfl⟩ := isSigil
  obtain ⟨rfl, rfl⟩ := touches
  simp only at narrow
  subst narrow
  simp [Token.joinName, Token.splitName]

end Token

/-- Drops what the parser never looks at; `joinNames` switches joining on. -/
def condense (joinNames : Bool) : List Token -> List Token
  | [] => []
  | [token] => if token.isDropped then [] else [token]
  | token :: next :: rest =>
      if token.isDropped then condense joinNames (next :: rest)
      else if joinNames && token.isSigil && token.touchesName next then
        token.joinName next :: condense joinNames rest
      else token :: condense joinNames (next :: rest)

/-- The tokens of a source text as the parser buffers them. -/
def lex (joinNames : Bool) (source : String) : List Token :=
  condense joinNames (scan source)

end KiwiFront
