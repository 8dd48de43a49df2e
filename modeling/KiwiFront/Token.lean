import KiwiFront.Position
import KiwiFront.Text.Alignment
import KiwiFront.Text.Quoted

/-!
# Tokens

A token is a kind, the text it was read from, and the positions of its first
character and of the place just past its last one. Every operator has a kind of
its own.
-/

namespace KiwiFront

/-- What sort of token a piece of text is. -/
inductive TokenKind where
  | name
  | number
  | string
  /-- A line break that ends a line with content. -/
  | newline
  /-- A line break that ends a line without content. -/
  | blankNewline
  | comment
  /-- Announces the encoding of a source text; always the first token. -/
  | encoding
  | endMarker
  /-- Text that no pattern matches, and a sigil without its name. -/
  | errorToken
  /-- A name together with the sigil before it. -/
  | sigilName
  | unfinished
  | leftParen
  | rightParen
  | leftBracket
  | rightBracket
  | leftBrace
  | rightBrace
  | colon
  | comma
  | semicolon
  | dot
  | ellipsis
  | star
  | doubleStar
  | plus
  | minus
  | slash
  | doubleSlash
  | percent
  | equal
  | doubleEqual
  | notEqual
  | less
  | lessEqual
  | greater
  | greaterEqual
  | rightArrow
  | atSign
  | ampersand
  | bar
  | caret
  | tilde
  | exclamation
  | question
deriving DecidableEq

namespace TokenKind

/-- The name of a kind in printed and serialized tokens. -/
def label : TokenKind -> String
  | name => "NAME"
  | number => "NUMBER"
  | string => "STRING"
  | newline => "NEWLINE"
  | blankNewline => "NL"
  | comment => "COMMENT"
  | encoding => "ENCODING"
  | endMarker => "ENDMARKER"
  | errorToken => "ERRORTOKEN"
  | sigilName => "CNAME"
  | unfinished => "UNFINISHED"
  | leftParen => "LPAR"
  | rightParen => "RPAR"
  | leftBracket => "LSQB"
  | rightBracket => "RSQB"
  | leftBrace => "LBRACE"
  | rightBrace => "RBRACE"
  | colon => "COLON"
  | comma => "COMMA"
  | semicolon => "SEMI"
  | dot => "DOT"
  | ellipsis => "ELLIPSIS"
  | star => "STAR"
  | doubleStar => "DOUBLESTAR"
  | plus => "PLUS"
  | minus => "MINUS"
  | slash => "SLASH"
  | doubleSlash => "DOUBLESLASH"
  | percent => "PERCENT"
  | equal => "EQUAL"
  | doubleEqual => "EQEQUAL"
  | notEqual => "NOTEQUAL"
  | less => "LESS"
  | lessEqual => "LESSEQUAL"
  | greater => "GREATER"
  | greaterEqual => "GREATEREQUAL"
  | rightArrow => "RARROW"
  | atSign => "AT"
  | ampersand => "AMPER"
  | bar => "VBAR"
  | caret => "CIRCUMFLEX"
  | tilde => "TILDE"
  | exclamation => "EXCLAMATION"
  | question => "QUESTION"

/-- Every kind once. -/
def all : List TokenKind :=
  [name, number, string, newline, blankNewline, comment, encoding, endMarker, errorToken,
    sigilName, unfinished, leftParen, rightParen, leftBracket, rightBracket, leftBrace,
    rightBrace, colon, comma, semicolon, dot, ellipsis, star, doubleStar, plus, minus, slash,
    doubleSlash, percent, equal, doubleEqual, notEqual, less, lessEqual, greater, greaterEqual,
    rightArrow, atSign, ampersand, bar, caret, tilde, exclamation, question]

/-- The kind with a given label. -/
def ofLabel? (text : String) : Option TokenKind :=
  all.find? (fun kind => kind.label == text)

/-- Trivia never reach the parser. -/
def isTrivia : TokenKind -> Bool
  | encoding | blankNewline | comment | unfinished => true
  | _ => false

/-- Whether a kind is a line break. -/
def isLineBreak : TokenKind -> Bool
  | newline | blankNewline => true
  | _ => false

end TokenKind

/-- A piece of a source text with its kind and its place. -/
structure Token where
  kind : TokenKind
  text : String
  start : Position
  stop : Position
deriving DecidableEq

namespace Token

/-- The stretch of source that a token covers. -/
def span (token : Token) : Span := ⟨token.start, token.stop⟩

/-- A token that starts at a position and covers one column for every character
of its text. -/
def placed (kind : TokenKind) (text : String) (row column : Int) : Token :=
  ⟨kind, text, ⟨row, column⟩, ⟨row, column + text.length⟩⟩

/-- A name at a position. -/
def nameAt (row column : Int) (text : String) : Token :=
  placed .name text row column

/-- A line feed at a position. -/
def newlineAt (row column : Int) : Token :=
  placed .newline "\n" row column

/-- The mark that closes a buffer, at a position. -/
def endMarkerAt (row column : Int) : Token :=
  placed .endMarker "" row column

/-- One line for one token: row and column aligned at a colon, then the kind in a
column of its own, then the quoted text. -/
def display (token : Token) : String :=
  let row := Text.alignRight 3 (toString token.start.row)
  let column := Text.alignLeft 3 (toString token.start.column)
  let kind := Text.alignLeft 12 token.kind.label
  let text := Text.quoted token.text
  s!"{row}:{column} {kind} {text}"

end Token

end KiwiFront
