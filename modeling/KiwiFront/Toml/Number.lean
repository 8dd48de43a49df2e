import KiwiFront.Decimal.Binary64
import KiwiFront.Decimal.Digits
import KiwiFront.Toml.Reader

/-!
# Numbers

Integers have 64 bits and a sign. Without a sign they may also be written in base
sixteen, eight or two. Decimal digits start with a zero only if there is no other
digit before a point or an exponent. An underscore may stand between two digits.
A number too large for a float is refused unless it is negative.
-/

namespace KiwiFront.Toml

open Decimal Reader

/-- One or more digits in a base, without the underscores between them. -/
def digits (base : Nat) : Reader (List Char) := do
  let first ← one (isDigitIn base)
  let others ← many (do
    let _ ← maybe (character '_')
    one (isDigitIn base))
  return first :: others

/-- The number that digits in a base stand for. -/
def valueOf (base : Nat) (digits : List Char) : Reader Nat :=
  match natural? base digits with
  | some value => pure value
  | none => failure

/-- A sign; negative or not. -/
def sign : Reader Bool := do
  let mark ← maybe (one (fun given => given == '+' || given == '-'))
  return mark == some '-'

/-- Whether a number is negative, and the digits of its whole part. -/
def wholePart : Reader (Bool × List Char) := do
  let negative ← sign
  let whole ← oneOf [(do character '0'; return ['0']), digits 10]
  return (negative, whole)

/-- How many numbers of either sign there are. -/
def integerLimit : Nat := Nat.pow 2 63

/-- An integer in a base that a mark tells. -/
def basedInteger (mark : String) (base : Nat) : Reader Int := do
  exactly mark
  let value ← valueOf base (← digits base)
  require (decide (value < integerLimit))
  return value

/-- An integer in base ten. -/
def decimalInteger : Reader Int := do
  let (negative, whole) ← wholePart
  let value ← valueOf 10 whole
  require (decide (value < integerLimit) || (negative && decide (value ≤ integerLimit)))
  return if negative then -(value : Int) else value

/-- An integer. -/
def integer : Reader Int :=
  oneOf [basedInteger "0x" 16, basedInteger "0o" 8, basedInteger "0b" 2, decimalInteger]

/-- The digits behind a point. -/
def fraction : Reader (List Char) := do
  character '.'
  digits 10

/-- A power of ten. -/
def exponent : Reader Int := do
  let _ ← one (fun given => given == 'e' || given == 'E')
  let negative ← sign
  let value ← valueOf 10 (← digits 10)
  return if negative then -(value : Int) else value

/-- A number with a fraction, an exponent, or both. -/
def decimalFloat : Reader Binary64 := do
  let (negative, whole) ← wholePart
  let behind ← maybe fraction
  let power ← maybe exponent
  require (behind.isSome || power.isSome)
  let behind := behind.getD []
  let digits ← valueOf 10 (whole ++ behind)
  let value := Binary64.round negative ⟨digits, power.getD 0 - behind.length⟩
  require (value != .infinite false)
  return value

/-- An infinity, or what is no number. -/
def specialFloat : Reader Binary64 := do
  let negative ← sign
  oneOf [
    (do exactly "inf"; return .infinite negative),
    (do exactly "nan"; return .notANumber)]

/-- A number that is not an integer. -/
def float : Reader Binary64 :=
  oneOf [decimalFloat, specialFloat]

end KiwiFront.Toml
