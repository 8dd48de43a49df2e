import KiwiFront.Token

/-!
# Token scripts

A token script lays out a token buffer by hand, line by line, and keeps track of
positions. One space separates two consecutive words; everything else is put
right behind what stands before it. `TokenScript.text` is the source text that comes
about in that way.
-/

namespace KiwiFront

/-- One item of a token script. -/
inductive ScriptItem where
  /-- A name; keywords are names too. -/
  | word (text : String)
  /-- An operator, whose kind follows from its text. -/
  | punctuation (text : String)
  /-- A token of any kind. -/
  | token (kind : TokenKind) (text : String)
  | newline
deriving DecidableEq

namespace ScriptItem

/-- The kind of an operator that a script knows. -/
def operatorKind (text : String) : TokenKind :=
  match text with
  | "(" => .leftParen
  | ")" => .rightParen
  | ":" => .colon
  | ";" => .semicolon
  | "," => .comma
  | "." => .dot
  | "*" => .star
  | "+" => .plus
  | "=" => .equal
  | _ => .errorToken

/-- The kind of the token that an item stands for. -/
def kind : ScriptItem -> TokenKind
  | .word _ => .name
  | .punctuation text => operatorKind text
  | .token kind _ => kind
  | .newline => .newline

/-- The text of the token that an item stands for. -/
def text : ScriptItem -> String
  | .word text => text
  | .punctuation text => text
  | .token _ text => text
  | .newline => "\n"

/-- Whether an item is a word. -/
def isWord : ScriptItem -> Bool
  | .word _ => true
  | _ => false

end ScriptItem

namespace TokenScript

/-- The tokens of the items that stand at `position`, and the end marker behind
them. `afterWord` tells whether a word stands right before. -/
def layFrom (position : Position) (afterWord : Bool) : List ScriptItem -> List Token
  | [] => [⟨.endMarker, "", position, position⟩]
  | item :: rest =>
      let gap : Int := if afterWord && item.isWord then 1 else 0
      let token := Token.placed item.kind item.text position.row (position.column + gap)
      let next : Position := if item = .newline then ⟨position.row + 1, 1⟩ else token.stop
      token :: layFrom next item.isWord rest

/-- The text of the items, spaces between words included. -/
def textFrom (afterWord : Bool) : List ScriptItem -> List Char
  | [] => []
  | item :: rest =>
      let gap : List Char := if afterWord && item.isWord then [' '] else []
      gap ++ item.text.toList ++ textFrom item.isWord rest

/-- The source text that a script lays out. -/
def text (items : List ScriptItem) : String :=
  String.ofList (textFrom false items)

/-- The token buffer of a script. -/
def tokens (items : List ScriptItem) : List Token :=
  layFrom .first false items

end TokenScript

end KiwiFront
