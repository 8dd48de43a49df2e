import KiwiFront.Decimal.Digits
import KiwiFront.Toml.Reader

/-!
# Quoted texts

A text stands between double quotes, with escapes, or between single quotes,
without. Three quotes on either side let it run over several lines; a line break
right behind the opening quotes is dropped, and line breaks are line feeds whatever
they are written as. Up to two quotes may stand inside before another character, or
right before the closing ones.
-/

namespace KiwiFront.Toml

open Decimal Reader

/-- The character with a code point. -/
def ofCode (code : Nat) : Reader Char :=
  if code.isValidChar then pure (Char.ofNat code) else failure

/-- A code point of a fixed number of digits in base sixteen. -/
def codePoint (width : Nat) : Reader Char := do
  let digits ← times (isDigitIn 16) width
  match natural? 16 digits with
  | some code => ofCode code
  | none => failure

/-- The characters that an escape stands for by a letter of their own. -/
def shortEscapes : List (Char × Char) :=
  [('b', '\x08'), ('t', '\t'), ('n', '\n'), ('f', '\x0c'), ('r', '\r'), ('"', '"'), ('\\', '\\')]

/-- An escape, a backslash with what belongs to it. -/
def escape : Reader Char := do
  character '\\'
  let mark ← one (fun _ => true)
  match mark with
  | 'u' => codePoint 4
  | 'U' => codePoint 8
  | _ =>
      match shortEscapes.lookup mark with
      | some meant => pure meant
      | none => failure

/-- A line break that an escape takes away, with all blanks and line breaks behind it. -/
def continuation : Reader Unit := do
  character '\\'
  blanks
  lineBreak
  let _ ← many (oneOf [(do let _ ← one isBlank), lineBreak])

/-- Whether a quote opens texts with escapes. -/
def hasEscapes (quote : Char) : Bool := quote == '"'

/-- A character that stands for itself between quotes. -/
def ownCharacter (quote : Char) : Reader Char :=
  one (fun given => isTextCharacter given && given != quote &&
    !(hasEscapes quote && given == '\\'))

/-- A character of a text, written in whatever way. -/
def textCharacter (quote : Char) : Reader Char :=
  if hasEscapes quote then oneOf [ownCharacter quote, escape] else ownCharacter quote

/-- A text on one line. -/
def lineText (quote : Char) : Reader String := do
  character quote
  let characters ← many (textCharacter quote)
  character quote
  return String.ofList characters

/-- One or two quotes that do not end a text. -/
def innerQuotes (quote : Char) : Reader (List Char) := do
  let quotes ← run (fun given => given == quote)
  require (decide (0 < quotes.length) && decide (quotes.length < 3))
  return quotes

/-- A part of a text over several lines. -/
def blockPart (quote : Char) : Reader (List Char) :=
  oneOf [
    (do return [← ownCharacter quote]),
    (do lineBreak; return ['\n']),
    innerQuotes quote,
    (do require (hasEscapes quote); continuation; return []),
    (do require (hasEscapes quote); return [← escape])]

/-- A text over several lines. -/
def blockText (quote : Char) : Reader String := do
  let fence := String.ofList (List.replicate 3 quote)
  exactly fence
  let _ ← maybe lineBreak
  let parts ← many (blockPart quote)
  let extra ← oneOf [
    (do exactly fence; character quote; character quote; return [quote, quote]),
    (do exactly fence; character quote; return [quote]),
    (do exactly fence; return [])]
  return String.ofList (parts.flatten ++ extra)

/-- A text of any sort. -/
def quotedText : Reader String :=
  oneOf [blockText '"', lineText '"', blockText '\'', lineText '\'']

end KiwiFront.Toml
