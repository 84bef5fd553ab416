import OpenApiClient.Number.Binary64

/-!
The fewest decimal digits that still denote a number: of all decimals that lie nearer to it than to
any other number, one with the fewest digits, and of these the nearest.
-/

namespace OpenApiClient.Binary64

-- Which of two decimals at the same distance is taken.
inductive Tie where
  | toEven
  | up
  deriving DecidableEq

structure Decimal where
  digits : Nat
  exponent : Int
  deriving DecidableEq, Repr

-- The reals that round to a number, as fractions over one denominator, with the number itself.
-- The ends belong to it when the mantissa is even.
structure Interval where
  low : Nat
  value : Nat
  high : Nat
  denominator : Nat
  closed : Bool

-- Below a power of two the next number is half as far away as above it.
def interval (x : Binary64) : Interval :=
  let narrow := x.mantissa = Nat.pow 2 52 ∧ x.exponent ≠ minExponent
  let up := Nat.pow 2 (x.exponent - 2).toNat
  { low := (4 * x.mantissa - if narrow then 1 else 2) * up
    value := 4 * x.mantissa * up
    high := (4 * x.mantissa + 2) * up
    denominator := Nat.pow 2 (2 - x.exponent).toNat
    closed := x.mantissa % 2 = 0 }

-- Whether `n · 10 ^ exponent` lies in the interval.
def Interval.contains (i : Interval) (n : Nat) (exponent : Int) : Bool :=
  let scaled := n * i.denominator * Nat.pow 10 exponent.toNat
  let unit := Nat.pow 10 (-exponent).toNat
  if i.closed then i.low * unit ≤ scaled && scaled ≤ i.high * unit
  else i.low * unit < scaled && scaled < i.high * unit

-- The exponent `k` with `10 ^ k ≤ num / den < 10 ^ (k + 1)`.
def decimalExponent (num den : Nat) : Int :=
  if den ≤ num then
    (Nat.toDigits 10 (num / den)).length - 1
  else
    -- The quotient rounded up has as many digits as the power of ten that is needed, or one more.
    let places := (Nat.toDigits 10 (den / num)).length
    if den ≤ num * Nat.pow 10 (places - 1) then -((places : Int) - 1) else -(places : Int)

-- The decimal with the last digit at `10 ^ exponent` that lies in the interval, if one does: of
-- the two neighbours of the value, the nearer one that is inside.
def Interval.onGrid? (i : Interval) (tie : Tie) (exponent : Int) : Option Nat :=
  let num := i.value * Nat.pow 10 (-exponent).toNat
  let den := i.denominator * Nat.pow 10 exponent.toNat
  let below := num / den
  let rest := 2 * (num % den)
  let upward := den < rest || (rest == den && (tie == .up || below % 2 == 1))
  let (nearer, other) := if upward then (below + 1, below) else (below, below + 1)
  if i.contains nearer exponent then some nearer
  else if i.contains other exponent then some other
  else none

-- A decimal without zeros at its end; `fuel` bounds their number.
def Decimal.strip (d : Decimal) : Nat → Decimal
  | 0 => d
  | fuel + 1 =>
    if d.digits ≠ 0 ∧ d.digits % 10 = 0 then
      Decimal.strip ⟨d.digits / 10, d.exponent + 1⟩ fuel
    else d

-- The first grid, from coarse to fine, with a decimal in the interval.
def Interval.search (i : Interval) (tie : Tie) (exponent : Int) : Nat → Decimal
  | 0 => ⟨i.value * Nat.pow 10 (-exponent).toNat / (i.denominator * Nat.pow 10 exponent.toNat), exponent⟩
  | fuel + 1 =>
    match i.onGrid? tie exponent with
    | some n => ⟨n, exponent⟩
    | none => i.search tie (exponent - 1) fuel

-- The shortest decimal for the absolute value; 17 digits are always enough.
def shortest (x : Binary64) (tie : Tie) : Decimal :=
  if x.isZero then
    ⟨0, 0⟩
  else
    let i := x.interval
    (i.search tie (decimalExponent i.value i.denominator) 17).strip 20

end OpenApiClient.Binary64
