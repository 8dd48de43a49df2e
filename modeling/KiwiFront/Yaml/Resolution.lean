import KiwiFront.Decimal.Binary64
import KiwiFront.Decimal.Digits

/-!
# Plain scalars that are no texts

A plain scalar may read as nothing, as a truth value or as a number. A text that
looks like one of these has to be quoted to stay a text. Integers are read up to
128 bits, in four bases; decimal floating-point numbers have to be finite.
-/

namespace KiwiFront.Yaml

open Decimal

/-- The plain scalars for nothing. -/
def nullForms : List String := ["null", "Null", "NULL", "~"]

/-- The plain scalars for truth values. -/
def booleanForms : List String := ["true", "True", "TRUE", "false", "False", "FALSE"]

/-- What follows after a base mark, with that base. -/
def basedDigits? : List Char -> Option (Nat × List Char)
  | '0' :: 'x' :: rest => some (16, rest)
  | '0' :: 'o' :: rest => some (8, rest)
  | '0' :: 'b' :: rest => some (2, rest)
  | _ => none

/-- The characters after an optional plus sign. -/
def dropPlus : List Char -> List Char
  | '+' :: rest => rest
  | characters => characters

/-- The characters after an optional sign. -/
def dropSign : List Char -> List Char
  | '+' :: rest => rest
  | '-' :: rest => rest
  | characters => characters

/-- Whether a number is below a limit. -/
def isBelow (limit : Nat) : Option Nat -> Bool
  | some value => decide (value < limit)
  | none => false

/-- Whether the digits after a base mark stand for a number below a limit. -/
def isBasedBelow (limit : Nat) (characters : List Char) : Bool :=
  match basedDigits? characters with
  | some (base, digits) => isBelow limit (natural? base digits)
  | none => false

/-- A leading zero with nothing but digits behind it is no decimal number. -/
def isZeroPadded (characters : List Char) : Bool :=
  match dropSign characters with
  | '0' :: next :: rest => (next :: rest).all Char.isDigit
  | _ => false

/-- How many integers of one sign there are. -/
def halfRange : Nat := Nat.pow 2 127

/-- Whether a plain scalar reads as an integer of at most 128 bits. -/
def isInteger (characters : List Char) : Bool :=
  let negative := match characters with
    | '-' :: rest => isBasedBelow (halfRange + 1) rest || isBelow (halfRange + 1) (natural? 10 rest)
    | _ => false
  let unsigned := dropPlus characters
  isBasedBelow (2 * halfRange) unsigned || isBelow (2 * halfRange) (natural? 10 unsigned) ||
    negative

/-- The exponent behind the digits of a decimal number; none is zero. -/
def exponent? : List Char -> Option Int
  | [] => some 0
  | mark :: rest =>
      if mark = 'e' ∨ mark = 'E' then
        match rest with
        | '-' :: digits => (natural? 10 digits).map (fun value => -(value : Int))
        | _ => (natural? 10 (dropPlus rest)).map Int.ofNat
      else none

/-- An unsigned decimal number with an optional point and an optional exponent. -/
def decimal? (characters : List Char) : Option Scaled := do
  let whole := characters.takeWhile Char.isDigit
  let rest := characters.dropWhile Char.isDigit
  let (fraction, rest) := match rest with
    | '.' :: tail => (tail.takeWhile Char.isDigit, tail.dropWhile Char.isDigit)
    | _ => ([], rest)
  let digits ← natural? 10 (whole ++ fraction)
  let exponent ← exponent? rest
  return ⟨digits, exponent - fraction.length⟩

/-- The plain scalars for infinity, without their sign. -/
def infinityForms : List String := [".inf", ".Inf", ".INF"]

/-- The plain scalars for what is no number. -/
def nanForms : List String := [".nan", ".NaN", ".NAN"]

/-- Whether a plain scalar reads as a floating-point number. -/
def isFloat (characters : List Char) : Bool :=
  let unsigned := dropSign characters
  infinityForms.contains (String.ofList unsigned) || nanForms.contains (String.ofList characters) ||
    match decimal? unsigned with
    | some number => (Binary64.round false number).isFinite
    | none => false

/-- Whether a text has to be quoted to stay a text. -/
def readsAsOther (text : String) : Bool :=
  let characters := text.toList
  characters.isEmpty || nullForms.contains text || booleanForms.contains text ||
    isInteger characters || isZeroPadded characters || isFloat characters

end KiwiFront.Yaml
