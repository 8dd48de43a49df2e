import KiwiFront.Text.Printable

/-!
# Quoted text

A quoted text stands between double quotes on one line. Quotes and backslashes
are escaped, as are the characters that are not printable: four of them by a
letter or a digit of their own, the others by their code point in hexadecimal.
An apostrophe is not escaped.
-/

namespace KiwiFront.Text

/-- The digits of a number in base sixteen, in lower case and without padding. -/
def hexDigits (value : Nat) : List Char :=
  Nat.toDigits 16 value

/-- The written form of one character between quotes. -/
def quoteCharacter (character : Char) : List Char :=
  match character with
  | '"' => ['\\', '"']
  | '\\' => ['\\', '\\']
  | '\x00' => ['\\', '0']
  | '\t' => ['\\', 't']
  | '\r' => ['\\', 'r']
  | '\n' => ['\\', 'n']
  | _ =>
    if isPrintable character then [character]
    else ['\\', 'u', '\x7b'] ++ hexDigits character.toNat ++ ['\x7d']

/-- The written form of a text between quotes. -/
def quoteCharacters (characters : List Char) : List Char :=
  '"' :: characters.flatMap quoteCharacter ++ ['"']

/-- A text in quotes. -/
def quoted (text : String) : String :=
  String.ofList (quoteCharacters text.toList)

/-- A text without a line feed. -/
def OneLine (text : String) : Prop :=
  '\n' ∉ text.toList

instance (text : String) : Decidable (OneLine text) :=
  inferInstanceAs (Decidable ('\n' ∉ text.toList))

end KiwiFront.Text
