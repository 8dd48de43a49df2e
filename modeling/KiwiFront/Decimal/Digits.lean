/-!
# Digits

Digits in bases up to sixteen, and the numbers that they stand for.
-/

namespace KiwiFront.Decimal

/-- The value of a digit in bases up to sixteen. -/
def digitValue? (character : Char) : Option Nat :=
  if '0' ≤ character ∧ character ≤ '9' then some (character.toNat - '0'.toNat)
  else if 'a' ≤ character ∧ character ≤ 'f' then some (character.toNat - 'a'.toNat + 10)
  else if 'A' ≤ character ∧ character ≤ 'F' then some (character.toNat - 'A'.toNat + 10)
  else none

/-- Whether a character is a digit in a base. -/
def isDigitIn (base : Nat) (character : Char) : Bool :=
  (digitValue? character).any (fun value => decide (value < base))

/-- The number that some digits in a base stand for; there has to be at least one. -/
def natural? (base : Nat) (digits : List Char) : Option Nat :=
  if digits.isEmpty then none
  else digits.foldlM (fun value character => do
    let digit ← digitValue? character
    if digit < base then some (value * base + digit) else none) 0

/-- A number in base ten, padded with zeros on the left. -/
def padded (width number : Nat) : String :=
  let digits := toString number
  String.ofList (List.replicate (width - digits.length) '0') ++ digits

end KiwiFront.Decimal
