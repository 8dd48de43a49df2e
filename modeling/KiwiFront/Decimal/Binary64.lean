/-!
# Floating-point numbers of 64 bits

A decimal number is rounded to the nearest binary one, of two equally near ones to
the one with the even significand. The text of a binary number takes the coarsest
decimal grid with a point that rounds back to the number, and of its points the
nearest; of two equally near ones the greater. It is always positional.
-/

namespace KiwiFront.Decimal

/-- An unsigned decimal number: its digits as a whole, and the power of ten to scale by. -/
structure Scaled where
  digits : Nat
  exponent : Int
deriving DecidableEq

/-- A binary floating-point number. A finite one is its significand times a power of
two. -/
inductive Binary64 where
  | finite (negative : Bool) (significand : Nat) (exponent : Int)
  | infinite (negative : Bool)
  | notANumber
deriving DecidableEq

namespace Binary64

/-- Significands stay below this limit. -/
def significandLimit : Nat := Nat.pow 2 53

/-- The power of two by which the finest numbers are scaled. -/
def leastExponent : Int := -1074

/-- The power of two by which the coarsest finite numbers are scaled. -/
def greatestExponent : Int := 971

/-- A quotient rounded to the nearest whole number, ties to the even one. -/
def roundQuotient (numerator denominator : Nat) : Nat :=
  let quotient := numerator / denominator
  let twice := 2 * (numerator % denominator)
  if twice < denominator then quotient
  else if denominator < twice then quotient + 1
  else if quotient % 2 = 0 then quotient
  else quotient + 1

/-- A number times a power of a base, as a quotient. -/
def scale (base number : Nat) (exponent : Int) : Nat × Nat :=
  (number * base.pow exponent.toNat, base.pow (-exponent).toNat)

/-- The exponent at which a positive quotient has a significand below the limit, and
as large a one as can be. -/
def exponentOf (numerator denominator : Nat) : Int :=
  let guess := max ((numerator.log2 : Int) - denominator.log2 - 53) leastExponent
  let (up, down) := scale 2 denominator guess
  if numerator * down / up < significandLimit then guess else guess + 1

/-- The finite or infinite number nearest to a positive quotient. -/
def ofQuotient (negative : Bool) (numerator denominator : Nat) : Binary64 :=
  let exponent := exponentOf numerator denominator
  let (up, down) := scale 2 denominator exponent
  let significand := roundQuotient (numerator * down) up
  let (significand, exponent) :=
    if significand < significandLimit then (significand, exponent)
    else (significand / 2, exponent + 1)
  if greatestExponent < exponent then .infinite negative
  else .finite negative significand exponent

/-- How many digits a number has in base ten, up to one more. -/
def digitBound (number : Nat) : Nat :=
  number.log2 / 3 + 1

/-- The number nearest to a decimal one. Exponents that leave all finite numbers far
behind decide by themselves. -/
def round (negative : Bool) (number : Scaled) : Binary64 :=
  if number.digits = 0 then .finite negative 0 leastExponent
  else if 400 < number.exponent then .infinite negative
  else if number.exponent + digitBound number.digits < -400 then .finite negative 0 leastExponent
  else
    let (numerator, denominator) := scale 10 number.digits number.exponent
    ofQuotient negative numerator denominator

/-- Whether a number is finite. -/
def isFinite : Binary64 -> Bool
  | .finite _ _ _ => true
  | _ => false

/-- Whether a number is zero, of either sign. -/
def isZero : Binary64 -> Bool
  | .finite _ significand _ => significand == 0
  | _ => false

/-- The point of a decimal grid that is nearest to a positive number, if some point
of the grid rounds to the number. Of two equally near points it is the greater.
Bounds are in the number's own unit, quartered. -/
def nearestOn? (significand : Nat) (exponent grid : Int) : Option Nat :=
  let below := if significand = significandLimit / 2 ∧ leastExponent < exponent
    then 4 * significand - 1 else 4 * significand - 2
  let above := 4 * significand + 2
  let (binaryUp, binaryDown) := scale 2 1 exponent
  let (decimalUp, decimalDown) := scale 10 1 grid
  let unit := binaryUp * decimalDown
  let step := 4 * binaryDown * decimalUp
  let isIn (point : Nat) : Bool :=
    if significand % 2 = 0 then
      decide (below * unit ≤ point * step ∧ point * step ≤ above * unit)
    else decide (below * unit < point * step ∧ point * step < above * unit)
  let low := 4 * significand * unit / step
  let high := low + 1
  let nearer := if 2 * (4 * significand * unit) < (low + high) * step then low else high
  if isIn low && isIn high then some nearer
  else if isIn low then some low
  else if isIn high then some high
  else none

/-- The coarsest decimal grids first. -/
def grids : List Int :=
  (List.range 640).map (fun (index : Nat) => 309 - (index : Int))

/-- The shortest decimal number that rounds to a positive number. -/
def shortest (significand : Nat) (exponent : Int) : Scaled :=
  let onGrid := grids.findSome? fun grid =>
    (nearestOn? significand exponent grid).map (fun point => Scaled.mk point grid)
  onGrid.getD ⟨0, 0⟩

/-- The sign of a written number. -/
def signText (negative : Bool) : String :=
  if negative then "-" else ""

/-- A decimal number without an exponent. It has a point only if there are digits
behind it. -/
def positional (number : Scaled) : String :=
  let digits := (toString number.digits).toList
  let behind := (-number.exponent).toNat
  if behind = 0 then
    String.ofList (digits ++ List.replicate number.exponent.toNat '0')
  else
    let filled := List.replicate (behind + 1 - digits.length) '0' ++ digits
    let ahead := filled.length - behind
    String.ofList (filled.take ahead ++ '.' :: filled.drop ahead)

/-- The text of a number. -/
def toText : Binary64 -> String
  | .finite negative 0 _ => signText negative ++ "0"
  | .finite negative significand exponent =>
      signText negative ++ positional (shortest significand exponent)
  | .infinite negative => signText negative ++ "inf"
  | .notANumber => "NaN"

end Binary64

end KiwiFront.Decimal
