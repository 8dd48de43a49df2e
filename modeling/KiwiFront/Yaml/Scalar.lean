import KiwiFront.Yaml.Resolution

/-!
# Scalars

A text is written in one of four styles. Texts with line feeds ask for the literal
style, texts that would read as something else for single quotes, all others for
none. A style that cannot hold a text gives way: plain to single quotes, single
quotes and the literal style to double quotes, which hold every text.
-/

namespace KiwiFront.Yaml

/-- How a text is written. -/
inductive Style where
  | plain
  | singleQuoted
  | doubleQuoted
  | literal
deriving DecidableEq

/-- Characters that end a line. -/
def isBreak (character : Char) : Bool :=
  ['\r', '\n', '\x85', '\u2028', '\u2029'].contains character

/-- Characters that separate words: blanks, breaks and the null character. -/
def isBlank (character : Char) : Bool :=
  [' ', '\t', '\x00'].contains character || isBreak character

/-- Characters that only double quotes can hold. -/
def isSpecial (character : Char) : Bool :=
  let code := character.toNat
  !(code == 0x0a || (0x20 ≤ code && code ≤ 0x7e) || (0xa0 ≤ code && code ≤ 0xd7ff) ||
    (0xe000 ≤ code && code ≤ 0xfffd && code != 0xfeff) || 0x10000 ≤ code)

/-- Characters that give the start of a scalar another meaning. -/
def startIndicators : List Char :=
  ['#', ',', '[', ']', '\x7b', '\x7d', '&', '*', '!', '|', '>', '\'', '"', '%', '@', '\x60']

/-- Characters that give the start of a scalar another meaning before a blank. -/
def blockIndicators : List Char := ['?', ':', '-']

/-- Whether characters are at their end, or go on with a blank. -/
def endsWord : List Char -> Bool
  | [] => true
  | next :: _ => isBlank next

/-- Whether a colon before a blank or a number sign after a blank comes up. `before`
is the character that stands before the given ones. -/
def hasIndicator (before : Char) : List Char -> Bool
  | [] => false
  | character :: rest =>
      (character == ':' && endsWord rest) || (character == '#' && isBlank before) ||
        hasIndicator character rest

/-- Whether the start of a scalar has another meaning. -/
def startsAsOther : List Char -> Bool
  | [] => false
  | first :: rest =>
      startIndicators.contains first || (blockIndicators.contains first && endsWord rest) ||
        ['-', '-', '-'].isPrefixOf (first :: rest) || ['.', '.', '.'].isPrefixOf (first :: rest) ||
        hasIndicator first rest

/-- Whether a character of one class stands right before one of another class. -/
def hasPair (first second : Char -> Bool) : List Char -> Bool
  | [] => false
  | [_] => false
  | character :: next :: rest =>
      (first character && second next) || hasPair first second (next :: rest)

/-- Whether a character is a space. -/
def isSpace (character : Char) : Bool := character == ' '

/-- Whether the first or the last character is of a class. -/
def isBoundedBy (test : Char -> Bool) (characters : List Char) : Bool :=
  characters.head?.any test || characters.getLast?.any test

/-- Whether a text can be written in a style. -/
def Style.holds (characters : List Char) : Style -> Bool
  | .plain =>
      !(isBoundedBy isSpace characters || characters.any isBreak || characters.any isSpecial ||
        startsAsOther characters)
  | .singleQuoted =>
      !(hasPair isBreak isSpace characters || hasPair isSpace isBreak characters ||
        characters.any isSpecial)
  | .literal =>
      !(characters.getLast?.any isSpace || hasPair isSpace isBreak characters ||
        characters.any isSpecial)
  | .doubleQuoted => true

/-- The style that a text asks for. -/
def wantedStyle (text : String) : Style :=
  if text.toList.contains '\n' then .literal
  else if readsAsOther text then .singleQuoted
  else .plain

/-- The style that a text is written in. -/
def styleOf (text : String) : Style :=
  let characters := text.toList
  let quotedStyle := if Style.singleQuoted.holds characters then Style.singleQuoted
    else .doubleQuoted
  match wantedStyle text with
  | .literal => if Style.literal.holds characters then .literal else .doubleQuoted
  | .plain => if Style.plain.holds characters then .plain else quotedStyle
  | _ => quotedStyle

/-- The digits of a code point in base sixteen, in upper case and padded. -/
def codeDigits (width code : Nat) : List Char :=
  let digits := (Nat.toDigits 16 code).map Char.toUpper
  List.replicate (width - digits.length) '0' ++ digits

/-- The written form of a character between double quotes. -/
def escapeCharacter (character : Char) : List Char :=
  match character with
  | '\x00' => ['\\', '0']
  | '\x07' => ['\\', 'a']
  | '\x08' => ['\\', 'b']
  | '\t' => ['\\', 't']
  | '\n' => ['\\', 'n']
  | '\x0b' => ['\\', 'v']
  | '\x0c' => ['\\', 'f']
  | '\r' => ['\\', 'r']
  | '\x1b' => ['\\', 'e']
  | '"' => ['\\', '"']
  | '\\' => ['\\', '\\']
  | '\x85' => ['\\', 'N']
  | '\u2028' => ['\\', 'L']
  | '\u2029' => ['\\', 'P']
  | _ =>
      let code := character.toNat
      if !isSpecial character then [character]
      else if code ≤ 0xff then '\\' :: 'x' :: codeDigits 2 code
      else if code ≤ 0xffff then '\\' :: 'u' :: codeDigits 4 code
      else '\\' :: 'U' :: codeDigits 8 code

/-- A text between double quotes. -/
def doubleQuoted (characters : List Char) : List Char :=
  '"' :: characters.flatMap escapeCharacter ++ ['"']

/-- A text between single quotes; a single quote in it is written twice. -/
def singleQuoted (characters : List Char) : List Char :=
  '\'' :: characters.flatMap (fun character =>
    if character = '\'' then ['\'', '\''] else [character]) ++ ['\'']

/-- What tells how a literal text ends: less than one break, or more than one. -/
def chompingMark (characters : List Char) : List Char :=
  match characters.reverse with
  | [] => ['-']
  | [last] => if isBreak last then ['+'] else ['-']
  | last :: beforeLast :: _ =>
      if !isBreak last then ['-'] else if isBreak beforeLast then ['+'] else []

/-- What stands behind the bar of a literal text: its indentation, if its first
character hides it, and how it ends. -/
def literalHeader (characters : List Char) : List Char :=
  let indentation := if characters.head?.any (fun first => isSpace first || isBreak first)
    then ['2'] else []
  '|' :: indentation ++ chompingMark characters

/-- The lines of a text. What follows the last line feed is a line if it is not
empty. -/
def textLines : List Char -> List (List Char)
  | [] => []
  | '\n' :: rest => [] :: textLines rest
  | character :: rest =>
      match textLines rest with
      | [] => [[character]]
      | first :: others => (character :: first) :: others

/-- The lines of a literal text below its header, indented unless they are empty. -/
def literalLines (indentation : Nat) (characters : List Char) : List (List Char) :=
  (textLines characters).map fun line =>
    if line.isEmpty then [] else List.replicate indentation ' ' ++ line

/-- A text as a scalar. The lines of a literal text stand at an indentation. -/
def scalar (indentation : Nat) (text : String) : String :=
  let characters := text.toList
  match styleOf text with
  | .plain => text
  | .singleQuoted => String.ofList (singleQuoted characters)
  | .doubleQuoted => String.ofList (doubleQuoted characters)
  | .literal =>
      String.intercalate "\n"
        (String.ofList (literalHeader characters) ::
          (literalLines indentation characters).map String.ofList)

end KiwiFront.Yaml
