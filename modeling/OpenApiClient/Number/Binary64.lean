/-!
Finite binary floating-point numbers of 64 bits, as exact integers: a number is a sign, a mantissa
below 2⁵³ and a power of two. Every operation computes the exact quotient and rounds once, to the
nearest number, an exact half going to the even mantissa.
-/

namespace OpenApiClient

-- The number `± mantissa · 2 ^ exponent`. The numbers that `ofRatio` makes have a mantissa of 53
-- bits, or the least exponent and a shorter mantissa, so that each value has one form.
structure Binary64 where
  negative : Bool
  mantissa : Nat
  exponent : Int
  deriving DecidableEq, Repr, Inhabited

namespace Binary64

def minExponent : Int := -1074

def maxExponent : Int := 971

def zero : Binary64 := ⟨false, 0, minExponent⟩

def isZero (x : Binary64) : Bool := x.mantissa == 0

def neg (x : Binary64) : Binary64 := { x with negative := !x.negative }

-- Equal as numbers: the two zeros are.
def equals (x y : Binary64) : Bool := x == y || x.isZero && y.isZero

-- `num / den · 2 ^ (-e)` as a fraction of natural numbers.
def scale (num den : Nat) (e : Int) : Nat × Nat :=
  if 0 ≤ e then (num, den * Nat.pow 2 e.toNat) else (num * Nat.pow 2 (-e).toNat, den)

-- The quotient, rounded to nearest, a half to even.
def roundDiv (num den : Nat) : Nat :=
  let quotient := num / den
  let rest := 2 * (num % den)
  if rest < den ∨ rest = den ∧ quotient % 2 = 0 then quotient else quotient + 1

-- The exponent with which the mantissa of `num / den` has 53 bits, or the least one.
def exponentOf (num den : Nat) : Int :=
  let guess := (Nat.log2 num : Int) - Nat.log2 den - 52
  let (n, d) := scale num den guess
  max minExponent (if n / d < Nat.pow 2 52 then guess - 1 else guess)

-- The number nearest to `num / den`; `none` when that is beyond the largest one.
def ofRatio (num den : Nat) : Option Binary64 :=
  if num = 0 then
    some zero
  else
    let e := exponentOf num den
    let (n, d) := scale num den e
    let m := roundDiv n d
    let (m, e) := if m = Nat.pow 2 53 then (Nat.pow 2 52, e + 1) else (m, e)
    if e > maxExponent then none else some ⟨false, m, e⟩

def largest : Binary64 := ⟨false, Nat.pow 2 53 - 1, maxExponent⟩

-- The number nearest to a natural number, which is the largest one for all that are beyond it.
def ofNat (n : Nat) : Binary64 := (ofRatio n 1).getD largest

-- The number nearest to `digits · 10 ^ exponent`. A decimal of more than 400 places before or
-- after the point is beyond all numbers or nearest to zero.
def ofDecimal (digits : Nat) (exponent : Int) : Option Binary64 :=
  let places := (Nat.toDigits 10 digits).length + exponent
  if digits = 0 ∨ places < -400 then some zero
  else if 400 < places then none
  else if 0 ≤ exponent then ofRatio (digits * Nat.pow 10 exponent.toNat) 1
  else ofRatio digits (Nat.pow 10 (-exponent).toNat)

-- The absolute value as a fraction.
def toRatio (x : Binary64) : Nat × Nat :=
  if 0 ≤ x.exponent then (x.mantissa * Nat.pow 2 x.exponent.toNat, 1)
  else (x.mantissa, Nat.pow 2 (-x.exponent).toNat)

def mul (x y : Binary64) : Option Binary64 :=
  let (a, b) := x.toRatio
  let (c, d) := y.toRatio
  (ofRatio (a * c) (b * d)).map ({ · with negative := x.negative != y.negative })

-- Division by a number other than zero.
def div (x y : Binary64) : Option Binary64 :=
  let (a, b) := x.toRatio
  let (c, d) := y.toRatio
  (ofRatio (a * d) (b * c)).map ({ · with negative := x.negative != y.negative })

end Binary64

end OpenApiClient
