/-!
Whole numbers as text.
-/

namespace OpenApiClient.Text

def digitValue (c : Char) : Nat := c.toNat - '0'.toNat

def isAsciiDigit (c : Char) : Bool := '0' ≤ c && c ≤ '9'

-- The number that a row of decimal digits denotes.
def natOfDigits (digits : List Char) : Nat :=
  digits.foldl (fun n c => 10 * n + digitValue c) 0

-- A number up to `bound`: decimal digits, with or without a plus sign before them.
def readUnsigned (bound : Nat) (s : List Char) : Option Nat :=
  let digits := match s with
    | '+' :: rest => rest
    | s => s
  if digits ≠ [] ∧ digits.all isAsciiDigit ∧ natOfDigits digits ≤ bound then
    some (natOfDigits digits)
  else none

end OpenApiClient.Text
